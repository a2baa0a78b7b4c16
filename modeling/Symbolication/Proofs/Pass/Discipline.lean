import Symbolication.Proofs.Pass.Recording

/-!
# Symbolication.Proofs.Pass.Discipline

What the local pass leaves behind, however it ends.  Every segment that it opens is
closed once, and asked only in between; the switch to the faster way is as it was:

* `keeps_closingDiscipline_symbolizeLocally` — the log of a pass is orderly, and no segment is
  left open;
* `FastSwitch.Obeys` — the switch is what it was last set to;
* `orderly_symbolizeLocally` — all of it, for the plain pass.
-/

namespace Symbolication

variable {ω η τ : Type} [Label τ] {inspector : Inspector ω η}

/-! ## segments -/

/-- A pass ends with no segment held and a disciplined log, if it began so. -/
theorem keeps_closingDiscipline_symbolizeLocally (h : inspector.Closes) (force fast : Bool)
    (p : ProfileOf τ) :
    Step.Keeps (fun w => ClosingDiscipline [] w.seen)
      (p.symbolizeLocally inspector.watched force fast) := by
  have hrun := keeps_run (carries_closingDiscipline h) force p
  unfold ProfileOf.symbolizeLocally
  split
  · rename_i switch hswitch
    obtain ⟨plain, -, rfl⟩ := Option.map_eq_some_iff.mp hswitch
    have hset : ∀ on, Step.Keeps
        (fun w : Watched ω (List SegmentEvent) => ClosingDiscipline [] w.seen)
        (Step.watched (plain.set on)) := fun _ _ hw => hw
    have hget : Step.Keeps
        (fun w : Watched ω (List SegmentEvent) => ClosingDiscipline [] w.seen) get :=
      fun _ hw => hw
    refine Step.keeps_bind hget fun env => Step.keeps_bind (hset true) fun _ => ?_
    exact Step.keeps_bind hrun fun r => Step.keeps_bind (hset _) fun _ => Step.keeps_pure r
  · exact hrun

/-! ## the switch -/

/-- The switch is what it has been set to. -/
def FastSwitch.Obeys (switch : FastSwitch ω) : Prop :=
  ∀ on, Step.Meets (fun _ => True) (switch.set on) (fun _ w => switch.isOn w = on)

/-- The switch is set back in the end if it was turned, and not touched otherwise. -/
theorem isOn_symbolizeLocally {switch : FastSwitch ω}
    (hswitch : inspector.fastSwitch? = some switch) (hobeys : switch.Obeys) {force fast : Bool}
    (hleaves : fast = true ∨ inspector.Leaves switch) (p : ProfileOf τ) (env : Env ω) :
    switch.isOn (p.symbolizeLocally inspector force fast env).2.world =
      switch.isOn env.world := by
  unfold ProfileOf.symbolizeLocally
  rw [hswitch]
  cases fast with
  | true => exact hobeys (switch.isOn env.world) _ trivial
  | false =>
      have hleaves := hleaves.resolve_left (by simp)
      exact keeps_run (hleaves (switch.isOn env.world)) force p env rfl

/-- The switch is on whenever a fast pass is to open a segment. -/
theorem triedOn_symbolizeLocally {switch : FastSwitch ω}
    (hswitch : inspector.fastSwitch? = some switch) (hobeys : switch.Obeys)
    (hleaves : inspector.Leaves switch) (force : Bool) (p : ProfileOf τ) (env : Env ω) :
    TriedOn (p.symbolizeLocally inspector.watched force true
      (env.watchedFrom [])).2.world.seen := by
  have hrun := keeps_run (carries_triedOn hswitch hleaves) force p
  unfold ProfileOf.symbolizeLocally
  rw [fastSwitch?_watched, hswitch]
  have hon := hobeys true env trivial
  exact (hrun ((switch.set true env).2.watchedFrom []) ⟨hon, fun on? hmem =>
    absurd hmem List.not_mem_nil⟩).2

/-! ## the pass -/

/-- However the local pass ends, each segment that it has opened has been closed once and asked only
while it was open. If the inspector has a switch to a faster way, the switch is as it was before,
and in a fast pass it was on whenever a segment was to be opened. -/
theorem orderly_symbolizeLocally (hclose : inspector.Closes) (force fast : Bool)
    (p : ProfileOf τ) (env : Env ω) :
    let run := p.symbolizeLocally inspector.watched force fast (env.watchedFrom [])
    let events := run.2.world.seen
    p.symbolizeLocally inspector force fast env = (run.1, run.2.plain) ∧
      Orderly events ∧
      (∀ n, events[n]? = some .opened → events.count (.closed n) = 1) ∧
      ∀ switch, inspector.fastSwitch? = some switch → switch.Obeys →
        (fast = true ∨ inspector.Leaves switch →
          switch.isOn run.2.plain.world = switch.isOn env.world) ∧
        (fast = true → inspector.Leaves switch → TriedOn events) := by
  intro run events
  have hplain : p.symbolizeLocally inspector force fast env = (run.1, run.2.plain) :=
    mirrors_symbolizeLocally inspector force fast p (env.watchedFrom [])
  have hdiscipline : ClosingDiscipline [] events :=
    keeps_closingDiscipline_symbolizeLocally hclose force fast p (env.watchedFrom []) .nil
  refine ⟨hplain, hdiscipline.orderly, fun n hn => hdiscipline.count_closed n hn, ?_⟩
  intro switch hswitch hobeys
  refine ⟨fun hleaves => ?_, ?_⟩
  · rw [← isOn_symbolizeLocally hswitch hobeys hleaves p env, hplain]
  · rintro rfl hleaves
    exact triedOn_symbolizeLocally hswitch hobeys hleaves force p env

/-- A switch that is all there is in its world. -/
def reluctantSwitch : FastSwitch Bool where
  isOn := id
  set on := modify fun env => { env with world := on }

/-- An inspector that opens every file but cannot close any; looking up in advance fails. -/
def reluctant : Inspector Bool Unit where
  openRegion _ := return ()
  buildId _ := ""
  lookup _ _ := return [{ func := "main" }]
  prefetch? _ := some fun _ => throw (.lookup (.closed "/bin/a"))
  close _ := throw (.system (.denied "/bin/a"))
  fastSwitch? := some reluctantSwitch

/-- A profile of two binaries. -/
def twoBinaries : Profile where
  mappings :=
    [{ id := 1, file := "/bin/a", buildId := "" }, { id := 2, file := "/bin/b", buildId := "" }]
  locations :=
    [{ id := 1, address := 0x10, mapping := some 0 }, { id := 2, address := 0x20, mapping := some 1 }]

/-- The reluctant inspector closes its segments. -/
theorem closes_reluctant : reluctant.Closes :=
  fun _ => Act.meets_throw fun _ _ => rfl

/-- Nothing that the reluctant inspector does turns its switch. -/
theorem leaves_reluctant : reluctant.Leaves reluctantSwitch := by
  intro on
  refine ⟨fun _ _ => Act.meets_pure fun _ hw => hw, fun _ _ _ _ => Act.meets_pure fun _ hw => hw,
    fun _ _ _ prefetch hprefetch _ => ?_, fun _ _ _ => Act.meets_throw fun _ hw => ⟨rfl, hw⟩⟩
  rw [← Option.some.inj hprefetch]
  exact Act.meets_throw fun _ hw => hw

/-- What a fast pass over two binaries does with segments. -/
def twoBinariesEvents : List SegmentEvent :=
  (twoBinaries.symbolizeLocally reluctant.watched false true
    (Env.watchedFrom [] { world := false })).2.world.seen

/-- The log of a pass over two binaries: both tried and opened, asked in turn, and closed. -/
theorem twoBinariesEvents_eq : twoBinariesEvents =
    [.tried (some true), .opened, .tried (some true), .opened, .asked 1, .asked 3, .asked 1,
      .asked 3, .closed 1, .closed 3] := by
  decide +kernel

/-- The log of a fast pass over two binaries is orderly. -/
theorem orderly_symbolizeLocally_twoBinaries :
    reluctant.Closes ∧ Orderly twoBinariesEvents ∧ twoBinariesEvents.count (.closed 3) = 1 ∧
      TriedOn twoBinariesEvents := by
  obtain ⟨-, horderly, hclosed, hswitch⟩ := orderly_symbolizeLocally closes_reluctant false true
    twoBinaries { world := false }
  have hopened : twoBinariesEvents[3]? = some .opened := by rw [twoBinariesEvents_eq]; rfl
  have htried := (hswitch reluctantSwitch rfl fun _ _ _ => rfl).2 rfl leaves_reluctant
  exact ⟨closes_reluctant, horderly, hclosed 3 hopened, htried⟩

end Symbolication
