import Symbolication.Proofs.Pass.SegmentLog
import Symbolication.Proofs.Pass.Finding

/-!
# Symbolication.Proofs.Pass.Breaking

What breaks a local pass off once it has its segments.  A pass deals with faults of the lookup and
with no others, so it comes to its end exactly if nothing else goes wrong in the lookups that it
comes to, in advance and one by one:

* `prefetchEach_eq_ok_iff`, `lookupEach_eq_ok_iff` — the two loops of a pass;
* `gather_eq_ok_iff` — both of them;
* `symbolizeLocally_eq_ok_iff` — the pass as a whole, of an inspector that can close.
-/

namespace Symbolication

variable {ω η τ : Type}

/-- The action fails only with faults of a kind. -/
def Act.FailsOnly {α : Type} (kind : Fault → Prop) (x : Act ω α) : Prop :=
  Step.Gives x.run fun r => ∀ fault, r = .error fault → kind fault

/-- An address cannot be looked up. -/
def Fault.IsLookup (fault : Fault) : Prop :=
  ∃ cause, fault = .lookup cause

variable [Label τ] {inspector : Inspector ω η} {p : ProfileOf τ} {t : SegmentTable η}

namespace LocalPass

/-! ## looking up in advance -/

/-- Looking up the addresses of a mapping in advance fails as a lookup only. -/
def PrefetchHarmless (inspector : Inspector ω η) (p : ProfileOf τ) (t : SegmentTable η) (i : Nat)
    (env : Env ω) : Prop :=
  ∀ segment ∈ t.get? (some i), ∀ prefetch ∈ inspector.prefetch? segment,
    Harmless Fault.IsLookup ((prefetch (p.addressesIn i)).run env).1

/-- The segments are prefetched in turn, and no further than a failure. -/
theorem run_prefetchEach_cons (i : Nat) (rest : List Nat) (env : Env ω) :
    (prefetchEach inspector p t (i :: rest)).run env =
      match (prefetchEach inspector p t [i]).run env with
      | (.ok (), env') => (prefetchEach inspector p t rest).run env'
      | (.error fault, env') => (.error fault, env') := by
  simp only [prefetchEach]
  cases (t.get? (some i)).bind inspector.prefetch? with
  | none => rfl
  | some prefetch =>
      simp only [Act.run_bind_apply]
      split <;> rfl

/-- One prefetch succeeds just if it is harmless. -/
theorem prefetchEach_singleton_eq_ok_iff {i : Nat} {env : Env ω} :
    ((prefetchEach inspector p t [i]).run env).1 = .ok () ↔
      PrefetchHarmless inspector p t i env := by
  unfold prefetchEach PrefetchHarmless
  cases hget : t.get? (some i) with
  | none => exact iff_of_true rfl (by simp)
  | some segment =>
      simp only [Option.bind_some, Option.mem_some, forall_eq']
      cases hprefetch : inspector.prefetch? segment with
      | none => exact iff_of_true rfl (by simp)
      | some prefetch =>
          simp only [Act.run_bind_apply, Act.run_tryCatch_apply, Option.mem_some, forall_eq']
          cases (prefetch (p.addressesIn i)).run env with
          | mk r env' =>
              cases r with
              | ok _ => exact iff_of_true rfl (harmless_ok _)
              | error fault =>
                  rw [harmless_error]
                  cases fault
                  case lookup cause => exact iff_of_true rfl ⟨cause, rfl⟩
                  all_goals exact iff_of_false (by rintro ⟨⟩) (by rintro ⟨_, ⟨⟩⟩)

/-- Looking up in advance comes to its end if nothing goes wrong in the segments that it comes
to. -/
theorem prefetchEach_eq_ok_iff {order : List Nat} {env : Env ω} :
    ((prefetchEach inspector p t order).run env).1 = .ok () ↔
      ∀ before i, before ++ [i] <+: order →
        ((prefetchEach inspector p t before).run env).1 = .ok () →
          PrefetchHarmless inspector p t i ((prefetchEach inspector p t before).run env).2 := by
  induction order generalizing env with
  | nil => exact iff_of_true rfl fun before i hprefix => by simp at hprefix
  | cons i rest ih =>
      have hfirst : (((prefetchEach inspector p t []).run env).1 = .ok () →
          PrefetchHarmless inspector p t i ((prefetchEach inspector p t []).run env).2) ↔
            PrefetchHarmless inspector p t i env :=
        ⟨fun h => h rfl, fun h _ => h⟩
      -- The rest of the order begins in the world that its first mapping leaves.
      rw [forall_prefix_cons, hfirst, ← prefetchEach_singleton_eq_ok_iff]
      cases hstep : (prefetchEach inspector p t [i]).run env with
      | mk r env' =>
          cases r with
          | error fault =>
              rw [run_prefetchEach_cons, hstep]
              exact iff_of_false (by rintro ⟨⟩) (by rintro ⟨⟨⟩, _⟩)
          | ok _ =>
              have hcons (before : List Nat) : (prefetchEach inspector p t (i :: before)).run env =
                  (prefetchEach inspector p t before).run env' := by
                rw [run_prefetchEach_cons, hstep]
              simp only [hcons, true_and]
              exact ih

/-! ## looking up -/

/-- Looking up a location fails as a lookup only. -/
def LookupHarmless (inspector : Inspector ω η) (t : SegmentTable η) (l : Location)
    (env : Env ω) : Prop :=
  ∀ segment ∈ t.get? l.mapping,
    Harmless Fault.IsLookup ((inspector.lookup segment l.address).run env).1

/-- A location has frames just if its lookup is harmless. -/
theorem exists_lookup_iff {l : Location} {env : Env ω} :
    (∃ frames, ((lookup inspector p t l).run env).1 = .ok frames) ↔
      LookupHarmless inspector t l env := by
  unfold LookupHarmless
  cases hget : t.get? l.mapping with
  | none =>
      rw [lookup, hget]
      exact iff_of_true ⟨[], rfl⟩ (by simp)
  | some segment =>
      rw [lookup_of_open hget]
      simp only [Option.mem_some, forall_eq']
      cases (inspector.lookup segment l.address).run env with
      | mk r env' =>
          cases r with
          | ok frames => exact iff_of_true ⟨frames, rfl⟩ (harmless_ok frames)
          | error fault =>
              rw [harmless_error]
              cases fault
              case lookup cause => exact iff_of_true ⟨[], rfl⟩ ⟨cause, rfl⟩
              all_goals exact iff_of_false (by simp) (by rintro ⟨_, ⟨⟩⟩)

/-- Locations are done with if nothing goes wrong in the lookups that it comes to. -/
theorem lookupEach_eq_ok_iff {locations : List Location} {env : Env ω} :
    (lookupEach inspector p t locations env).1.2 = .ok () ↔
      ∀ before l, before ++ [l] <+: locations →
        (lookupEach inspector p t before env).1.2 = .ok () →
          LookupHarmless inspector t l (lookupEach inspector p t before env).2 := by
  induction locations generalizing env with
  | nil => exact iff_of_true rfl fun before l hprefix => by simp at hprefix
  | cons l rest ih =>
      have hfirst : ((lookupEach inspector p t [] env).1.2 = .ok () →
          LookupHarmless inspector t l (lookupEach inspector p t [] env).2) ↔
            LookupHarmless inspector t l env :=
        ⟨fun h => h rfl, fun h _ => h⟩
      -- As above, but a lookup that fails as such has frames, none, and goes on.
      rw [forall_prefix_cons, hfirst, ← exists_lookup_iff (p := p)]
      cases hstep : (lookup inspector p t l).run env with
      | mk r env' =>
          cases r with
          | error fault =>
              rw [lookupEach_of_error hstep]
              exact iff_of_false (by rintro ⟨⟩) (by rintro ⟨⟨_, ⟨⟩⟩, _⟩)
          | ok frames =>
              have hcons (before : List Location) :
                  (lookupEach inspector p t (l :: before) env).1.2 =
                      (lookupEach inspector p t before env').1.2 ∧
                    (lookupEach inspector p t (l :: before) env).2 =
                      (lookupEach inspector p t before env').2 := by
                rw [lookupEach_of_ok hstep]
                exact ⟨rfl, rfl⟩
              simp only [fun before => (hcons before).1, fun before => (hcons before).2]
              rw [ih]
              exact ⟨fun h => ⟨⟨frames, rfl⟩, h⟩, fun h => h.2⟩

/-! ## the pass -/

/-- Nothing goes wrong in the lookups that a pass comes to once it has its segments, in advance and
one by one, but that some fail as lookups. -/
structure GathersHarmlessly (inspector : Inspector ω η) (p : ProfileOf τ) (t : SegmentTable η)
    (opened : Env ω) : Prop where
  prefetch : ∀ before i, before ++ [i] <+: p.segmentOrder t →
    ((prefetchEach inspector p t before).run opened).1 = .ok () →
      PrefetchHarmless inspector p t i ((prefetchEach inspector p t before).run opened).2
  lookup : ∀ ready, (prefetchEach inspector p t (p.segmentOrder t)).run opened = (.ok (), ready) →
    ∀ before l, before ++ [l] <+: p.locations →
      (lookupEach inspector p t before ready).1.2 = .ok () →
        LookupHarmless inspector t l (lookupEach inspector p t before ready).2

/-- Gathering succeeds just if every prefetch and every lookup it makes is harmless. -/
theorem gather_eq_ok_iff {opened : Env ω} :
    (gather inspector p t opened).1.2 = .ok () ↔ GathersHarmlessly inspector p t opened := by
  rw [gather, Step.bind_apply]
  cases hready : (prefetchEach inspector p t (p.segmentOrder t)).run opened with
  | mk r ready =>
      cases r with
      | error fault =>
          refine iff_of_false (by rintro ⟨⟩) fun h => ?_
          have hok := prefetchEach_eq_ok_iff.mpr h.prefetch
          rw [hready] at hok
          cases hok
      | ok _ =>
          constructor
          · intro h
            refine ⟨prefetchEach_eq_ok_iff.mp (by rw [hready]), ?_⟩
            rintro _ hsame
            rw [hready] at hsame
            cases hsame
            exact lookupEach_eq_ok_iff.mp h
          · exact fun h => lookupEach_eq_ok_iff.mpr (h.lookup ready hready)

end LocalPass

/-- An inspector closes its segments if closing fails with faults of the system alone. -/
theorem Inspector.closes_iff :
    inspector.Closes ↔
      ∀ segment, (inspector.close segment).FailsOnly fun fault => fault.isSystem = true := by
  refine forall_congr' fun segment => ?_
  constructor
  · intro h env fault hfault
    have hend := h env trivial
    rwa [hfault] at hend
  · intro h env _
    cases hclose : ((inspector.close segment).run env).1 with
    | ok _ => trivial
    | error fault => exact h env fault hclose

namespace SegmentTable

/-- An inspector that closes its segments closes them all, one after another. -/
theorem gives_ok_closeEach (h : inspector.Closes) (p : ProfileOf τ)
    (entries : List (Nat × η)) :
    Step.Gives (closeEach inspector p entries) (· = .ok ()) := by
  induction entries with
  | nil => exact Step.gives_pure rfl
  | cons entry rest ih =>
      obtain ⟨i, segment⟩ := entry
      unfold closeEach
      refine Step.gives_bind (Inspector.closes_iff.mp h segment) fun r hr => ?_
      cases r with
      | ok _ => exact ih
      | error fault =>
          simp only [hr fault rfl, if_true]
          exact Step.gives_bind_of_forall fun _ => ih

theorem gives_ok_close (h : inspector.Closes) (p : ProfileOf τ) (t : SegmentTable η) :
    Step.Gives (t.close inspector p) (·.2 = .ok ()) :=
  Step.gives_bind (gives_ok_closeEach h p t.entries) fun _ hr => Step.gives_pure hr

end SegmentTable

/-- A pass that has its segments, of an inspector that can close them, comes to its end exactly if
nothing goes wrong in its lookups but that some fail as lookups. -/
theorem symbolizeLocally_eq_ok_iff {force fast : Bool} {env opened : Env ω}
    (hclose : inspector.Closes)
    (hopen : (SegmentTable.ofProfile inspector force p).run (inspector.entry fast env) =
      (.ok t, opened)) :
    (p.symbolizeLocally inspector force fast env).1.2 = .ok () ↔
      LocalPass.GathersHarmlessly inspector p t opened := by
  rw [symbolizeLocally_fst, LocalPass.run_of_ok hopen, ← LocalPass.gather_eq_ok_iff,
    SegmentTable.gives_ok_close hclose p t]
  rfl

end Symbolication
