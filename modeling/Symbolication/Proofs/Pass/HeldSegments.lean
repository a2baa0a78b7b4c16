import Symbolication.Pass.Local
import Symbolication.Proofs.Action.Triple

/-!
# Symbolication.Proofs.Pass.HeldSegments

The segments that the local pass holds.  A segment comes into its hands when it is
opened and leaves them when it is closed; in between it may be asked.  An
inspector may carry an assertion about the world along with the segments held:

* `Inspector.Carries` — what opening, asking and closing do to the assertion;
* `Inspector.HandsOver` — what opening and closing alone do to it;
* `meets_openMapping`, `meets_closeEach` — where segments come and go;
* `keeps_prefetchEach_of`, `keeps_lookupEach_of` — what the questions of a pass keep;
* `keeps_run` — what holds when no segment is held holds again after a pass,
  however it ends.
-/

namespace Symbolication

variable {ω η τ : Type}

/-- The assertion `I` about the world goes along with the segments held. Closing fails with a fault
of the system, if at all, and the segment is held no longer then, too. -/
structure Inspector.Carries (inspector : Inspector ω η) (I : List η → ω → Prop) : Prop where
  openRegion : ∀ held region, Act.Meets (I held) (inspector.openRegion region)
    (fun segment => I (held ++ [segment])) (fun _ => I held)
  lookup : ∀ held, ∀ segment ∈ held, ∀ address,
    Act.Keeps (I held) (inspector.lookup segment address)
  prefetch : ∀ held, ∀ segment ∈ held, ∀ prefetch ∈ inspector.prefetch? segment, ∀ addresses,
    Act.Keeps (I held) (prefetch addresses)
  close : ∀ before segment after, Act.Meets (I (before ++ segment :: after))
    (inspector.close segment) (fun _ => I (before ++ after))
    (fun fault w => fault.isSystem = true ∧ I (before ++ after) w)

/-- The assertion goes along with the segments that are opened and closed, whatever is done with
them in between. -/
structure Inspector.HandsOver (inspector : Inspector ω η) (I : List η → ω → Prop) : Prop where
  openRegion : ∀ held region, Act.Meets (I held) (inspector.openRegion region)
    (fun segment => I (held ++ [segment])) (fun _ => I held)
  close : ∀ before segment after, Act.Meets (I (before ++ segment :: after))
    (inspector.close segment) (fun _ => I (before ++ after))
    (fun fault w => fault.isSystem = true ∧ I (before ++ after) w)

/-- An assertion carried through the pass is handed over from segment to segment. -/
theorem Inspector.Carries.handsOver {inspector : Inspector ω η} {I : List η → ω → Prop}
    (h : inspector.Carries I) : inspector.HandsOver I :=
  ⟨h.openRegion, h.close⟩

/-- The segments of a table. -/
def SegmentTable.held (t : SegmentTable η) : List η :=
  t.entries.map (·.2)

/-- A segment added to a table is held after the others. -/
theorem SegmentTable.held_add (t : SegmentTable η) (i : Nat) (segment : η) :
    (t.add i segment).held = t.held ++ [segment] := by
  simp [held, add]

/-- A segment that is in a table is held. -/
theorem SegmentTable.mem_held {t : SegmentTable η} {mapping : Option Nat} {segment : η}
    (h : t.get? mapping = some segment) : segment ∈ t.held := by
  obtain ⟨i, -, hi⟩ := Option.bind_eq_some_iff.mp h
  obtain ⟨before, after, heq, -⟩ := List.lookup_eq_some_iff.mp hi
  rw [held, heq]
  simp

variable [Label τ] {inspector : Inspector ω η} {I : List η → ω → Prop}

/-! ## opening and closing -/

/-- The segment of a mapping is held unless the mapping gets none. -/
theorem meets_openMapping (h : inspector.HandsOver I) (held : List η) (m : MappingOf τ)
    (file : String) :
    Act.Meets (I held) (SegmentTable.openMapping inspector m file)
      (fun segment? => I (held ++ segment?.toList)) (fun _ => I held) := by
  unfold SegmentTable.openMapping
  refine Act.meets_bind (Q := fun segment? => I (held ++ segment?.toList)) ?_ ?_
  · refine Act.meets_tryCatch (Act.meets_map (h.openRegion held _)) fun fault => ?_
    split
    · refine Act.meets_bind Act.meets_note fun _ => Act.meets_pure fun w hw => ?_
      rwa [Option.toList_none, List.append_nil]
    · exact Act.meets_throw fun w hw => hw
  · intro segment?
    cases segment? with
    | none => exact Act.meets_pure fun w hw => hw
    | some segment =>
        simp only
        split
        · -- the segment is not the one that was profiled, and is given back at once
          refine Act.meets_bind Act.meets_note fun _ => ?_
          have hclose := h.close held segment []
          rw [List.append_nil] at hclose
          refine Act.meets_bind (Act.meets_mono hclose (fun _ hw => hw) (fun _ _ hw => hw)
            fun _ _ hw => hw.2) fun _ => Act.meets_pure fun w hw => ?_
          rwa [Option.toList_none, List.append_nil]
        · exact Act.meets_pure fun w hw => hw

/-- Opening the mappings in turn leaves the assertion true of the segments then held. -/
theorem meets_openEach (h : inspector.HandsOver I) (force : Bool) (p : ProfileOf τ)
    (t : SegmentTable η) (rest : List (MappingOf τ × Nat)) :
    Step.Meets (I t.held) (SegmentTable.openEach inspector force p t rest)
      (fun r => I r.1.held) := by
  induction rest generalizing t with
  | nil => exact Step.meets_pure fun w hw => hw
  | cons entry rest ih =>
      obtain ⟨m, i⟩ := entry
      unfold SegmentTable.openEach
      cases p.standing force i m with
      | unreferenced => exact ih t
      | «virtual» => exact ih t
      | done => exact Step.meets_bind Step.meets_note fun _ => ih t
      | nameless =>
          simp only
          split
          · exact Step.meets_bind Step.meets_note fun _ => ih t
          · exact ih t
      | misnamed kind => exact Step.meets_pure fun w hw => hw
      | candidate file =>
          refine Step.meets_bind (meets_openMapping h t.held m file) ?_
          intro r
          cases r with
          | error fault => exact Step.meets_pure fun w hw => hw
          | ok segment? =>
              cases segment? with
              | none =>
                  refine Step.meets_mono (ih t) (fun w hw => ?_) fun _ _ hw => hw
                  rwa [ending_ok, Option.toList_none, List.append_nil] at hw
              | some segment =>
                  refine Step.meets_mono (ih (t.add i segment)) (fun w hw => ?_) fun _ _ hw => hw
                  rw [SegmentTable.held_add]
                  exact hw

/-- Closing goes through to the end, since only faults of the system come up. -/
theorem meets_closeEach (h : inspector.HandsOver I) (p : ProfileOf τ) (entries : List (Nat × η)) :
    Step.Meets (I (entries.map (·.2))) (SegmentTable.closeEach inspector p entries)
      (fun _ => I []) := by
  induction entries with
  | nil => exact Step.meets_pure fun w hw => hw
  | cons entry rest ih =>
      obtain ⟨i, segment⟩ := entry
      unfold SegmentTable.closeEach
      have hclose := h.close [] segment (rest.map fun entry => entry.2)
      refine Step.meets_bind hclose ?_
      intro r
      cases r with
      | ok _ => exact ih
      | error fault =>
          simp only
          split
          · refine Step.meets_bind Step.meets_note fun _ => ?_
            exact Step.meets_mono ih (fun w hw => hw.2) fun _ _ hw => hw
          · rename_i hnot
            exact fun env hw => absurd hw.1 hnot

theorem meets_close (h : inspector.HandsOver I) (p : ProfileOf τ) (t : SegmentTable η) :
    Step.Meets (I t.held) (t.close inspector p) (fun _ => I []) :=
  Step.meets_bind (meets_closeEach h p t.entries) fun _ => Step.meets_pure fun _ hw => hw

/-- A table holds what has been opened; if there is none, nothing is held. -/
theorem meets_ofProfile (h : inspector.HandsOver I) (force : Bool) (p : ProfileOf τ) :
    Act.Meets (I []) (SegmentTable.ofProfile inspector force p) (fun t => I t.held)
      (fun _ => I []) := by
  unfold SegmentTable.ofProfile
  refine Step.meets_bind (meets_openEach h force p {} p.mappings.zipIdx) ?_
  intro r
  obtain ⟨t, ended⟩ := r
  cases ended with
  | error fault =>
      refine Step.meets_bind (meets_close h p t) ?_
      intro r
      obtain ⟨_, closing⟩ := r
      refine Step.meets_pure fun w hw => ?_
      cases closing with
      | ok _ => exact hw
      | error fault' => exact hw
  | ok _ =>
      simp only
      split
      · exact Step.meets_bind Step.meets_note fun _ => Step.meets_bind Step.meets_note fun _ =>
          Step.meets_pure fun w hw => hw
      · exact Step.meets_bind Step.meets_note fun _ => Step.meets_pure fun w hw => hw

/-! ## asking -/

section

variable {P : ω → Prop} {p : ProfileOf τ} {t : SegmentTable η}

/-- Looking up in advance keeps what each segment keeps that is asked. -/
theorem keeps_prefetchEach_of {order : List Nat}
    (h : ∀ i ∈ order, ∀ segment ∈ t.get? (some i), ∀ prefetch ∈ inspector.prefetch? segment,
      Act.Keeps P (prefetch (p.addressesIn i))) :
    Act.Keeps P (LocalPass.prefetchEach inspector p t order) := by
  induction order with
  | nil => exact Act.keeps_pure ()
  | cons i rest ih =>
      have hrest := ih fun j hj => h j (List.mem_cons_of_mem _ hj)
      unfold LocalPass.prefetchEach
      cases hprefetch : (t.get? (some i)).bind inspector.prefetch? with
      | none => exact hrest
      | some prefetch =>
          obtain ⟨segment, hget, hsegment⟩ := Option.bind_eq_some_iff.mp hprefetch
          have hasked := h i List.mem_cons_self segment hget prefetch hsegment
          refine Act.keeps_bind (Act.keeps_tryCatch hasked fun fault => ?_) fun _ => hrest
          split
          · exact Act.keeps_note _
          · exact Act.keeps_throw _

/-- A location is looked up with the assertion kept if the lookup of its segment keeps it. -/
theorem keeps_lookup_of {l : Location}
    (h : ∀ segment ∈ t.get? l.mapping, Act.Keeps P (inspector.lookup segment l.address)) :
    Act.Keeps P (LocalPass.lookup inspector p t l) := by
  unfold LocalPass.lookup
  cases hget : t.get? l.mapping with
  | none => exact Act.keeps_pure []
  | some segment =>
      refine Act.keeps_tryCatch (h segment hget) fun fault => ?_
      split
      · exact Act.keeps_bind (Act.keeps_note _) fun _ => Act.keeps_pure []
      · exact Act.keeps_throw _

/-- Locations are looked up with the assertion kept if each lookup keeps it. -/
theorem keeps_lookupEach_of {locations : List Location}
    (h : ∀ l ∈ locations, ∀ segment ∈ t.get? l.mapping,
      Act.Keeps P (inspector.lookup segment l.address)) :
    Step.Keeps P (LocalPass.lookupEach inspector p t locations) := by
  induction locations with
  | nil => exact Step.keeps_pure _
  | cons l rest ih =>
      have hrest := ih fun l' hl' => h l' (List.mem_cons_of_mem _ hl')
      unfold LocalPass.lookupEach
      refine Step.keeps_bind (Act.keeps_run (keeps_lookup_of (h l List.mem_cons_self))) ?_
      intro r
      cases r with
      | error fault => exact Step.keeps_pure _
      | ok frames => exact Step.keeps_bind hrest fun _ => Step.keeps_pure _

/-- Frames are gathered with the assertion kept if every prefetch and every lookup keeps it. -/
theorem keeps_gather_of
    (hprefetch : ∀ i ∈ p.segmentOrder t, ∀ segment ∈ t.get? (some i),
      ∀ prefetch ∈ inspector.prefetch? segment, Act.Keeps P (prefetch (p.addressesIn i)))
    (hlookup : ∀ l ∈ p.locations, ∀ segment ∈ t.get? l.mapping,
      Act.Keeps P (inspector.lookup segment l.address)) :
    Step.Keeps P (LocalPass.gather inspector p t) := by
  unfold LocalPass.gather
  refine Step.keeps_bind (Act.keeps_run (keeps_prefetchEach_of hprefetch)) ?_
  intro r
  cases r with
  | error fault => exact Step.keeps_pure _
  | ok _ => exact keeps_lookupEach_of hlookup

end

/-- Frames are gathered with the assertion kept of the segments held. -/
theorem keeps_gather (h : inspector.Carries I) (p : ProfileOf τ) (t : SegmentTable η) :
    Step.Keeps (I t.held) (LocalPass.gather inspector p t) :=
  keeps_gather_of
    (fun _ _ segment hget prefetch hprefetch _ =>
      h.prefetch t.held segment (SegmentTable.mem_held hget) prefetch hprefetch _ _)
    fun l _ segment hget => h.lookup t.held segment (SegmentTable.mem_held hget) l.address

/-! ## the pass -/

/-- A pass that begins with no segment in its hands ends with none, however it ends. -/
theorem keeps_run (h : inspector.Carries I) (force : Bool) (p : ProfileOf τ) :
    Step.Keeps (I []) (LocalPass.run inspector force p) := by
  unfold LocalPass.run
  refine Step.meets_bind (meets_ofProfile h.handsOver force p) ?_
  intro table?
  cases table? with
  | error fault => exact Step.keeps_pure _
  | ok t =>
      refine Step.meets_bind (keeps_gather h p t) ?_
      intro r
      obtain ⟨found, ended⟩ := r
      refine Step.meets_bind (meets_close h.handsOver p t) ?_
      intro r
      obtain ⟨_, closing⟩ := r
      simp only
      split
      · exact Step.keeps_bind (Step.keeps_note _) fun _ => Step.keeps_pure _
      · exact Step.keeps_pure _

end Symbolication
