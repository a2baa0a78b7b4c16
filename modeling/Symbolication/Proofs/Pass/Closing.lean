import Symbolication.Proofs.Pass.OpenCloseLog

/-!
# Symbolication.Proofs.Pass.Closing

How a table is closed.  Its segments are closed one after another; a fault of the
system is noted, and any other ends the closing, with the segments behind it still
open and in no table any more:

* `Closing` — which segments are closed, how each of that ends, and how the whole does;
* `closing_closeEach` — the program does so;
* `closes_all_iff` — all segments are closed exactly if no fault but the system's comes up
  before the last of them.
-/

namespace Symbolication

variable {ω η τ : Type}

/-! ## one segment after another -/

/-- The fault, if there is one, is the system's, which does not end a closing. -/
def Overlooked (ended : Except Fault Unit) : Prop :=
  Harmless (fun fault => fault.isSystem = true) ended

/-- A fault is overlooked in closing just if it is one of the system. -/
theorem overlooked_error {fault : Fault} :
    Overlooked (.error fault) ↔ fault.isSystem = true :=
  harmless_error

/-- Segments are closed in turn, with the way in which each of that ends, and the whole ends, too.
-/
inductive Closing : List η → List (η × Except Fault Unit) → Except Fault Unit → Prop where
  /-- No segment is left. -/
  | done : Closing [] [] (.ok ())
  /-- The first segment is closed, and then the others. -/
  | next {segment : η} {rest : List η} {closed : List (η × Except Fault Unit)}
      {ended all : Except Fault Unit} (hended : Overlooked ended)
      (hrest : Closing rest closed all) :
      Closing (segment :: rest) ((segment, ended) :: closed) all
  /-- The others are not reached. -/
  | broken {segment : η} {rest : List η} {fault : Fault} (hfault : fault.isSystem = false) :
      Closing (segment :: rest) [(segment, .error fault)] (.error fault)

namespace Closing

variable {held : List η} {closed : List (η × Except Fault Unit)} {ended : Except Fault Unit}

/-- Segments are closed in their order, and none twice. -/
theorem isPrefix (h : Closing held closed ended) : closed.map (·.1) <+: held := by
  induction h with
  | done => exact List.prefix_rfl
  | next _ _ ih => exact List.cons_prefix_cons.mpr ⟨rfl, ih⟩
  | broken _ => exact List.cons_prefix_cons.mpr ⟨rfl, List.nil_prefix⟩

/-- All of them are closed unless the closing is broken off before the last. -/
theorem eq_held_iff (h : Closing held closed ended) :
    closed.map (·.1) = held ↔
      ∀ before c, before ++ [c] <+: closed → before.length + 1 < held.length → Overlooked c.2 := by
  induction h with
  | done => simp
  | next hended _ ih =>
      rw [forall_prefix_cons]
      simp only [List.map_cons, List.cons.injEq, true_and, List.length_cons, Nat.add_lt_add_iff_right,
        ih]
      exact ⟨fun h => ⟨fun _ => hended, h⟩, fun h => h.2⟩
  | @broken segment rest fault hfault =>
      have hnot : ¬ Overlooked (.error fault) := by simp [overlooked_error, hfault]
      rw [forall_prefix_cons]
      simp only [List.map_cons, List.map_nil, List.cons.injEq, true_and, List.length_nil,
        Nat.zero_add, List.length_cons, Nat.lt_add_left_iff_pos, hnot, imp_false, Nat.not_lt,
        Nat.le_zero_eq, List.length_eq_zero_iff]
      constructor
      · rintro rfl
        exact ⟨rfl, fun before c hprefix => by simp at hprefix⟩
      · exact fun h => h.1.symm

/-- The closing ends with a fault exactly if one comes up that is not the system's. -/
theorem eq_error_iff (h : Closing held closed ended) {fault : Fault} :
    ended = .error fault ↔
      fault.isSystem = false ∧ ∃ segment, closed.getLast? = some (segment, .error fault) := by
  induction h with
  | done => simp
  | @next segment rest closed ended _ hended _ ih =>
      rw [ih]
      refine and_congr_right fun hfault => ?_
      cases closed with
      | cons c closed => rw [List.getLast?_cons_cons]
      | nil =>
          simp only [List.getLast?_nil, reduceCtorEq, exists_false, List.getLast?_singleton,
            Option.some.injEq, Prod.mk.injEq, false_iff, not_exists, not_and]
          rintro _ _ rfl
          rw [overlooked_error, hfault] at hended
          cases hended
  | @broken segment rest fault' hfault =>
      simp only [Except.error.injEq, List.getLast?_singleton, Option.some.injEq, Prod.mk.injEq]
      constructor
      · rintro rfl
        exact ⟨hfault, segment, rfl, rfl⟩
      · rintro ⟨_, _, _, h⟩
        exact h

end Closing

/-! ## tables -/

namespace SegmentTable

variable [Label τ] {inspector : Inspector ω η}

/-- The log of closing segments in turn tells which were closed, and how it ended. -/
theorem closing_closeEach (inspector : Inspector ω η) (p : ProfileOf τ) (entries : List (Nat × η))
    (env : Env (Watched ω (List (OpenCloseEvent ω η)))) :
    ∃ log, (closeEach inspector.logged p entries env).2.world.seen = env.world.seen ++ log ∧
      log.filterMap OpenCloseEvent.opened? = [] ∧
      Closing (entries.map (·.2)) (log.filterMap OpenCloseEvent.closed?)
        (closeEach inspector.logged p entries env).1 := by
  induction entries generalizing env with
  | nil => exact ⟨[], (List.append_nil _).symm, rfl, .done⟩
  | cons entry rest ih =>
      obtain ⟨i, segment⟩ := entry
      rw [closeEach, Step.bind_apply]
      cases hclose : (inspector.logged.close segment).run env with
      | mk ended closed =>
          have hseen := seen_of_close hclose
          have hrest (env' : Env (Watched ω (List (OpenCloseEvent ω η))))
              (hended : Overlooked ended)
              (hworld : env'.world = closed.world) :
              ∃ log, (closeEach inspector.logged p rest env').2.world.seen =
                  env.world.seen ++ log ∧ log.filterMap OpenCloseEvent.opened? = [] ∧
                Closing (segment :: rest.map (·.2)) (log.filterMap OpenCloseEvent.closed?)
                  (closeEach inspector.logged p rest env').1 := by
            obtain ⟨log, hlog, hopened, hclosing⟩ := ih env'
            refine ⟨.closing segment env.plain ended closed.plain :: log, ?_, hopened,
              .next hended hclosing⟩
            rw [hlog, hworld, hseen, List.append_assoc]
            rfl
          cases ended with
          | ok _ => exact hrest closed (harmless_ok _) rfl
          | error fault =>
              simp only
              cases hfault : fault.isSystem with
              | true => exact hrest _ (overlooked_error.mpr hfault) rfl
              | false =>
                  exact ⟨[.closing segment env.plain (.error fault) closed.plain], hseen, rfl,
                    .broken hfault⟩

/-- Whatever becomes of single segments, closing a table closes segments of it in their order, each
once, and nothing else; all of them exactly if the system is at fault where one before the last
cannot be closed. Any other fault is handed on, and the table is empty all the same: what was not
closed is out of reach, and closing once more does nothing. -/
theorem closes_all_iff (inspector : Inspector ω η) (p : ProfileOf τ) (t : SegmentTable η)
    (env : Env ω) :
    let run := t.close inspector.logged p (env.watchedFrom [])
    let closed := run.2.world.seen.filterMap OpenCloseEvent.closed?
    t.close inspector p env = (run.1, run.2.plain) ∧
      run.2.world.seen.filterMap OpenCloseEvent.opened? = [] ∧
      closed.map (·.1) <+: t.held ∧
      (closed.map (·.1) = t.held ↔
        ∀ before c, before ++ [c] <+: closed → before.length + 1 < t.size → Overlooked c.2) ∧
      (∀ fault, run.1.2 = .error fault ↔
        fault.isSystem = false ∧ ∃ segment, closed.getLast? = some (segment, .error fault)) ∧
      ∀ later, run.1.1.close inspector p later = (({}, .ok ()), later) := by
  intro run closed
  have hshows : t.close inspector p env = ((run.1.1.map id, run.1.2), run.2.plain) := by
    have hclose := (shows_logged inspector).closeTable p t (env.watchedFrom [])
    rwa [map_id] at hclose
  obtain ⟨log, hlog, hopened, hclosing⟩ := closing_closeEach inspector p t.entries
    (env.watchedFrom [])
  have hseen : run.2.world.seen = log := hlog
  have hsize : t.held.length = t.size := List.length_map ..
  simp only [closed, hseen]
  rw [map_id] at hshows
  rw [← hsize]
  exact ⟨hshows, hopened, hclosing.isPrefix, hclosing.eq_held_iff,
    fun fault => hclosing.eq_error_iff, fun _ => rfl⟩

/-! ### a segment that cannot be closed -/

/-- An inspector whose segments are numbers, the first of which cannot be closed. -/
def jammed (fault : Fault) : Inspector Unit Nat where
  openRegion region := return region.start.toNat
  buildId _ := ""
  lookup _ _ := return []
  prefetch? _ := none
  close segment := if segment = 0 then throw fault else return ()
  fastSwitch? := none

/-- Where the first of two segments cannot be closed for a reason of its own, the second is never
closed. -/
theorem leaks_of_jammed :
    let t : SegmentTable Nat := { entries := [(0, 0), (1, 1)] }
    let run := t.close (jammed (.crash "handle lost")).logged ({} : Profile)
      (Env.watchedFrom [] { world := () })
    (run.2.world.seen.filterMap OpenCloseEvent.closed?).map (·.1) = [0] ∧ t.held = [0, 1] ∧
      run.1.1.held = [] :=
  ⟨rfl, rfl, rfl⟩

end SegmentTable

end Symbolication
