import Symbolication.Proofs.Pass.SegmentLog

/-!
# Symbolication.Proofs.Pass.Recording

Recording what is done with segments, or anything else that stays out of sight, changes
nothing else: with an inspector that shows another one the local pass does what it does
with that one.  Part by part, the table is the plain one with marks on its segments:

* `Inspector.Shows` — an inspector shows another one, in sight of a view;
* `Inspector.Shows.ofProfile`, `Inspector.Shows.gather` — opening and asking;
* `Inspector.Shows.symbolizeLocally` — the pass as a whole;
* `mirrors_symbolizeLocally` — a watched inspector shows the plain one.
-/

namespace Symbolication

variable {ω ω' η η' τ : Type}

/-! ## inspectors -/

/-- Seen through the view, the switch is another one. -/
structure FastSwitch.Shows (view : ω' → ω) (x : FastSwitch ω') (y : FastSwitch ω) : Prop where
  isOn : ∀ w, y.isOn (view w) = x.isOn w
  set : ∀ on, Step.Shows view id (x.set on) (y.set on)

/-- Seen through the view, the inspector does what another one does, and `g` takes the marks off its
segments. -/
structure Inspector.Shows (view : ω' → ω) (g : η' → η) (A : Inspector ω' η')
    (B : Inspector ω η) : Prop where
  openRegion : ∀ region, Act.Shows view g (A.openRegion region) (B.openRegion region)
  buildId : ∀ segment, A.buildId segment = B.buildId (g segment)
  lookup : ∀ segment address,
    Act.Shows view id (A.lookup segment address) (B.lookup (g segment) address)
  prefetch : ∀ segment,
    Option.Rel (fun x y => ∀ addresses, Act.Shows view id (x addresses) (y addresses))
      (A.prefetch? segment) (B.prefetch? (g segment))
  close : ∀ segment, Act.Shows view id (A.close segment) (B.close (g segment))
  fastSwitch : Option.Rel (FastSwitch.Shows view) A.fastSwitch? B.fastSwitch?

/-! ## tables -/

namespace SegmentTable

/-- The table with other handles for its segments. -/
def map (g : η' → η) (t : SegmentTable η') : SegmentTable η :=
  { entries := t.entries.map fun entry => (entry.1, g entry.2) }

/-- A mapped table has the images of the segments where the table has the segments. -/
theorem get?_map (g : η' → η) (t : SegmentTable η') (mapping : Option Nat) :
    (t.map g).get? mapping = (t.get? mapping).map g := by
  cases mapping with
  | none => rfl
  | some i =>
      simp only [get?, map, Option.bind_some]
      induction t.entries with
      | nil => rfl
      | cons entry rest ih =>
          rw [List.map_cons, List.lookup_cons, List.lookup_cons]
          split
          · rfl
          · exact ih

/-- A mapped table has segments for the same mappings. -/
theorem contains_map (g : η' → η) (t : SegmentTable η') :
    (t.map g).contains = t.contains := by
  funext i
  rw [contains, contains, get?_map, Option.isSome_map]

/-- A segment is added to a mapped table as its image. -/
theorem map_add (g : η' → η) (t : SegmentTable η') (i : Nat) (segment : η') :
    (t.add i segment).map g = (t.map g).add i (g segment) := by
  simp [map, add]

theorem size_map (g : η' → η) (t : SegmentTable η') : (t.map g).size = t.size :=
  List.length_map ..

@[simp] theorem map_id (t : SegmentTable η) : t.map id = t := by
  simp [map]

end SegmentTable

namespace Inspector.Shows

variable [Label τ] {view : ω' → ω} {g : η' → η} {A : Inspector ω' η'} {B : Inspector ω η}

/-! ## opening and closing -/

/-- A mapping is opened alike by inspectors that show each other. -/
theorem openMapping (h : A.Shows view g B) (m : MappingOf τ) (file : String) :
    Act.Shows view (Option.map g) (SegmentTable.openMapping A m file)
      (SegmentTable.openMapping B m file) := by
  unfold SegmentTable.openMapping
  refine Act.shows_bind (g := Option.map g) ?_ ?_
  · refine Act.shows_tryCatch (Act.shows_map (h.openRegion _) fun _ => rfl) ?_
    intro fault
    split
    · exact Act.shows_bind (Act.shows_note _) fun _ => Act.shows_pure rfl
    · exact Act.shows_throw _
  · intro segment?
    cases segment? with
    | none => exact Act.shows_pure rfl
    | some segment =>
        simp only [Option.map_some, h.buildId]
        by_cases hmismatch : m.isMismatch (B.buildId (g segment)) = true
        · rw [if_pos hmismatch, if_pos hmismatch]
          refine Act.shows_bind (Act.shows_note _) fun _ => ?_
          exact Act.shows_bind (h.close segment) fun _ => Act.shows_pure rfl
        · rw [if_neg hmismatch, if_neg hmismatch]
          exact Act.shows_pure rfl

/-- The mappings are opened in turn alike by inspectors that show each other. -/
theorem openEach (h : A.Shows view g B) (force : Bool) (p : ProfileOf τ) (t : SegmentTable η')
    (rest : List (MappingOf τ × Nat)) :
    Step.Shows view (fun r => (r.1.map g, r.2)) (SegmentTable.openEach A force p t rest)
      (SegmentTable.openEach B force p (t.map g) rest) := by
  induction rest generalizing t with
  | nil => exact Step.shows_pure rfl
  | cons entry rest ih =>
      obtain ⟨m, i⟩ := entry
      unfold SegmentTable.openEach
      cases p.standing force i m with
      | unreferenced => exact ih t
      | «virtual» => exact ih t
      | done => exact Step.shows_bind (Step.shows_note _) fun _ => ih t
      | nameless =>
          simp only
          split
          · exact Step.shows_bind (Step.shows_note _) fun _ => ih t
          · exact ih t
      | misnamed kind => exact Step.shows_pure rfl
      | candidate file =>
          refine Step.shows_bind (h.openMapping m file) ?_
          intro r
          cases r with
          | error fault => exact Step.shows_pure rfl
          | ok segment? =>
              cases segment? with
              | none => exact ih t
              | some segment =>
                  have hadd := ih (t.add i segment)
                  rwa [SegmentTable.map_add] at hadd

/-- Segments are closed in turn alike by inspectors that show each other. -/
theorem closeEach (h : A.Shows view g B) (p : ProfileOf τ) (entries : List (Nat × η')) :
    Step.Shows view id (SegmentTable.closeEach A p entries)
      (SegmentTable.closeEach B p (entries.map fun entry => (entry.1, g entry.2))) := by
  induction entries with
  | nil => exact Step.shows_pure rfl
  | cons entry rest ih =>
      obtain ⟨i, segment⟩ := entry
      rw [List.map_cons]
      unfold SegmentTable.closeEach
      refine Step.shows_bind (h.close segment) ?_
      intro r
      cases r with
      | ok _ => exact ih
      | error fault =>
          simp only [Except.map]
          split
          · exact Step.shows_bind (Step.shows_note _) fun _ => ih
          · exact Step.shows_pure rfl

/-- A table is closed alike by inspectors that show each other. -/
theorem closeTable (h : A.Shows view g B) (p : ProfileOf τ) (t : SegmentTable η') :
    Step.Shows view (fun r => (r.1.map g, r.2)) (t.close A p) ((t.map g).close B p) :=
  Step.shows_bind (h.closeEach p t.entries) fun _ => Step.shows_pure rfl

/-- The table of a profile is opened alike by inspectors that show each other. -/
theorem ofProfile (h : A.Shows view g B) (force : Bool) (p : ProfileOf τ) :
    Act.Shows view (SegmentTable.map g) (SegmentTable.ofProfile A force p)
      (SegmentTable.ofProfile B force p) := by
  unfold SegmentTable.ofProfile
  refine Step.shows_bind (h.openEach force p {} p.mappings.zipIdx) ?_
  intro r
  obtain ⟨t, ended⟩ := r
  cases ended with
  | error fault =>
      refine Step.shows_bind (h.closeTable p t) ?_
      intro r
      obtain ⟨_, closing⟩ := r
      cases closing with
      | ok _ => exact Step.shows_pure rfl
      | error fault' => exact Step.shows_pure rfl
  | ok _ =>
      simp only [SegmentTable.size_map]
      split
      · refine Step.shows_bind (Step.shows_note _) fun _ => ?_
        exact Step.shows_bind (Step.shows_note _) fun _ => Step.shows_pure rfl
      · exact Step.shows_bind (Step.shows_note _) fun _ => Step.shows_pure rfl

/-- A table that is opened in sight of the view is opened without it, too. -/
theorem ofProfile_eq_ok {A : Inspector ω' η} {force : Bool} {p : ProfileOf τ}
    {t : SegmentTable η} {env : Env ω'} {opened : Env ω} (h : A.Shows view id B)
    (hopen : (SegmentTable.ofProfile B force p).run (env.through view) = (.ok t, opened)) :
    ∃ opened', (SegmentTable.ofProfile A force p).run env = (.ok t, opened') ∧
      opened'.through view = opened := by
  have hshows := h.ofProfile force p env
  rw [hopen] at hshows
  cases hrun : (SegmentTable.ofProfile A force p).run env with
  | mk r opened' =>
      rw [hrun, Prod.mk.injEq] at hshows
      obtain ⟨hr, rfl⟩ := hshows
      cases r with
      | error fault => cases hr
      | ok t' =>
          rw [Except.ok.inj hr, SegmentTable.map_id]
          exact ⟨opened', rfl, rfl⟩

/-- What fails for the inspector seen fails for the one that shows it. -/
theorem ofProfile_eq_error {A : Inspector ω' η} {force : Bool} {p : ProfileOf τ}
    {fault : Fault} {env : Env ω'} {opened : Env ω} (h : A.Shows view id B)
    (hopen : (SegmentTable.ofProfile B force p).run (env.through view) = (.error fault, opened)) :
    ∃ opened', (SegmentTable.ofProfile A force p).run env = (.error fault, opened') := by
  have hshows := h.ofProfile force p env
  rw [hopen] at hshows
  cases hrun : (SegmentTable.ofProfile A force p).run env with
  | mk r opened' =>
      rw [hrun, Prod.mk.injEq] at hshows
      cases r with
      | error fault' => exact ⟨opened', by rw [Except.error.inj hshows.1]⟩
      | ok t' => cases hshows.1

/-! ## asking -/

/-- The segments are prefetched alike through inspectors that show each other. -/
theorem prefetchEach (h : A.Shows view g B) (p : ProfileOf τ) (t : SegmentTable η')
    (order : List Nat) :
    Act.Shows view id (LocalPass.prefetchEach A p t order)
      (LocalPass.prefetchEach B p (t.map g) order) := by
  induction order with
  | nil => exact Act.shows_pure rfl
  | cons i rest ih =>
      unfold LocalPass.prefetchEach
      rw [SegmentTable.get?_map]
      cases t.get? (some i) with
      | none => exact ih
      | some segment =>
          have hcan := h.prefetch segment
          simp only [Option.bind_some, Option.map_some]
          cases hA : A.prefetch? segment with
          | none =>
              rw [hA] at hcan
              cases hB : B.prefetch? (g segment) with
              | none => exact ih
              | some prefetch' => rw [hB] at hcan; cases hcan
          | some prefetch =>
              rw [hA] at hcan
              cases hB : B.prefetch? (g segment) with
              | none => rw [hB] at hcan; cases hcan
              | some prefetch' =>
                  rw [hB, Option.rel_some_some] at hcan
                  refine Act.shows_bind (g := id) ?_ fun _ => ih
                  refine Act.shows_tryCatch (hcan _) fun fault => ?_
                  split
                  · exact Act.shows_note _
                  · exact Act.shows_throw _

/-- A location is looked up alike through inspectors that show each other. -/
theorem lookupLocation (h : A.Shows view g B) (p : ProfileOf τ) (t : SegmentTable η')
    (l : Location) :
    Act.Shows view id (LocalPass.lookup A p t l) (LocalPass.lookup B p (t.map g) l) := by
  unfold LocalPass.lookup
  rw [SegmentTable.get?_map]
  cases t.get? l.mapping with
  | none => exact Act.shows_pure rfl
  | some segment =>
      refine Act.shows_tryCatch (h.lookup segment _) fun fault => ?_
      split
      · exact Act.shows_bind (Act.shows_note _) fun _ => Act.shows_pure rfl
      · exact Act.shows_throw _

/-- Locations are looked up in turn alike through inspectors that show each other. -/
theorem lookupEach (h : A.Shows view g B) (p : ProfileOf τ) (t : SegmentTable η')
    (locations : List Location) :
    Step.Shows view id (LocalPass.lookupEach A p t locations)
      (LocalPass.lookupEach B p (t.map g) locations) := by
  induction locations with
  | nil => exact Step.shows_pure rfl
  | cons l rest ih =>
      unfold LocalPass.lookupEach
      refine Step.shows_bind (h.lookupLocation p t l) ?_
      intro r
      cases r with
      | error fault => exact Step.shows_pure rfl
      | ok frames => exact Step.shows_bind ih fun _ => Step.shows_pure rfl

/-- The frames of a profile are gathered alike through inspectors that show each other. -/
theorem gather (h : A.Shows view g B) (p : ProfileOf τ) (t : SegmentTable η') :
    Step.Shows view id (LocalPass.gather A p t) (LocalPass.gather B p (t.map g)) := by
  have horder : p.segmentOrder (t.map g) = p.segmentOrder t := by
    simp only [ProfileOf.segmentOrder, SegmentTable.contains_map]
  unfold LocalPass.gather
  rw [horder]
  refine Step.shows_bind (h.prefetchEach p t (p.segmentOrder t)) ?_
  intro r
  cases r with
  | error fault => exact Step.shows_pure rfl
  | ok _ => exact h.lookupEach p t p.locations

/-! ## the pass -/

/-- The pass runs alike through inspectors that show each other. -/
theorem run (h : A.Shows view g B) (force : Bool) (p : ProfileOf τ) :
    Step.Shows view id (LocalPass.run A force p) (LocalPass.run B force p) := by
  unfold LocalPass.run
  refine Step.shows_bind (h.ofProfile force p) ?_
  intro table?
  cases table? with
  | error fault => exact Step.shows_pure rfl
  | ok t =>
      refine Step.shows_bind (h.gather p t) ?_
      intro r
      obtain ⟨found, ended⟩ := r
      refine Step.shows_bind (h.closeTable p t) ?_
      intro r
      obtain ⟨_, closing⟩ := r
      simp only
      split
      · exact Step.shows_bind (Step.shows_note _) fun _ => Step.shows_pure rfl
      · exact Step.shows_pure rfl

/-- A pass with an inspector that shows another one does what it does with that one. -/
theorem symbolizeLocally (h : A.Shows view g B) (force fast : Bool) (p : ProfileOf τ) :
    Step.Shows view id (p.symbolizeLocally A force fast) (p.symbolizeLocally B force fast) := by
  have hrun := h.run force p
  have hswitch := h.fastSwitch
  unfold ProfileOf.symbolizeLocally
  cases fast with
  | false =>
      cases A.fastSwitch? <;> cases B.fastSwitch? <;> exact hrun
  | true =>
      cases hA : A.fastSwitch? with
      | none =>
          rw [hA] at hswitch
          cases hB : B.fastSwitch? with
          | none => exact hrun
          | some y => rw [hB] at hswitch; cases hswitch
      | some x =>
          rw [hA] at hswitch
          cases hB : B.fastSwitch? with
          | none => rw [hB] at hswitch; cases hswitch
          | some y =>
              rw [hB, Option.rel_some_some] at hswitch
              have hget : Step.Shows view (Env.through view) get get := fun _ => rfl
              refine Step.shows_bind hget fun env => ?_
              have hprevious : y.isOn (env.through view).world = x.isOn env.world :=
                hswitch.isOn env.world
              rw [hprevious]
              refine Step.shows_bind (hswitch.set true) fun _ => ?_
              refine Step.shows_bind hrun fun r => ?_
              exact Step.shows_bind (hswitch.set _) fun _ => Step.shows_pure rfl

end Inspector.Shows

/-! ## watched inspectors -/

/-- A watched inspector does what the inspector does, and numbers the segments besides. -/
theorem shows_watched (inspector : Inspector ω η) :
    inspector.watched.Shows Watched.world (·.2) inspector where
  openRegion region := by
    have hopen : Act.Mirrors (·.2) (inspector.watched.openRegion region)
        (inspector.openRegion region >>= pure) := by
      refine Act.mirrors_record_bind fun _ => ?_
      exact Act.mirrors_bind (Act.mirrors_watched _) fun segment =>
        Act.mirrors_record_bind fun _ => Act.mirrors_pure rfl
    rwa [bind_pure] at hopen
  buildId _ := rfl
  lookup _ _ := Act.mirrors_recorded _ _
  prefetch segment := by
    have hwatched : inspector.watched.prefetch? segment =
        (inspector.prefetch? segment.2).map fun prefetch addresses =>
          Act.recorded (· ++ [.asked segment.1]) (prefetch addresses) := rfl
    rw [hwatched]
    cases inspector.prefetch? segment.2 with
    | none => exact .none
    | some prefetch => exact .some fun addresses => Act.mirrors_recorded _ _
  close _ := Act.mirrors_recorded _ _
  fastSwitch := by
    rw [fastSwitch?_watched]
    cases inspector.fastSwitch? with
    | none => exact .none
    | some switch => exact .some ⟨fun _ => rfl, fun _ => Step.mirrors_watched _⟩

/-- A watched pass does what the plain one does. -/
theorem mirrors_symbolizeLocally [Label τ] (inspector : Inspector ω η) (force fast : Bool)
    (p : ProfileOf τ) :
    Step.Mirrors id (p.symbolizeLocally inspector.watched force fast)
      (p.symbolizeLocally inspector force fast) :=
  (shows_watched inspector).symbolizeLocally force fast p

end Symbolication
