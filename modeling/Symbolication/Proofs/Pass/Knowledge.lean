import Symbolication.Proofs.Pass.ToleratedFaults

/-!
# Symbolication.Proofs.Pass.Knowledge

Inspectors that always give the same answers.  What an inspector says of a file, or of
an address in it, may depend on nothing but the region that was opened and on whether
the switch to the faster way was on.  Then all that there is to be known can be laid
down beforehand, and with it what a pass comes to:

* `Knowledge`, `Inspector.Knows` — what is known, and an inspector that answers by it;
* `Knowledge.inspector` — for whatever may be known there is one;
* `Knowledge.viewAt?`, `Knowledge.stackAt` — which mappings are opened, and what is found;
* `Knowledge.Allows` — nothing breaks the pass off;
* `meets_run` — a pass comes to what is known.
-/

namespace Symbolication

variable {ω η τ α : Type}

/-! ## what is known -/

/-- A region, as it is seen in the usual way or in the faster one. -/
structure View where
  /-- The region. -/
  region : Region
  /-- Whether the switch to the faster way is on. -/
  fast : Bool

/-- What there is to be known of regions. -/
structure Knowledge where
  /-- The build id of the file, or why it cannot be opened. -/
  opening : View → Except Fault String
  /-- How looking up addresses in advance ends. -/
  prefetching : View → List Int → Except Fault Unit
  /-- The frames of an address. -/
  frames : View → Int → Except Fault (List Frame)
  /-- How closing ends. -/
  closing : View → Except Fault Unit

/-- Looks up addresses in advance. Where a segment cannot do so, nothing is done. -/
def Inspector.prefetch (inspector : Inspector ω η) (segment : η) (addresses : List Int) :
    Act ω Unit :=
  match inspector.prefetch? segment with
  | some prefetch => prefetch addresses
  | none => pure ()

/-- The inspector answers by what is known. The assertion `I` about the world goes along with the
switch to the faster way, and with the segments that are held and what is seen in each of them. -/
structure Inspector.Knows (inspector : Inspector ω η) (κ : Knowledge)
    (I : Bool → List (η × View) → ω → Prop) : Prop where
  openRegion : ∀ fast held region, Act.Meets (I fast held) (inspector.openRegion region)
    (fun segment w => κ.opening ⟨region, fast⟩ = .ok (inspector.buildId segment) ∧
      I fast (held ++ [(segment, ⟨region, fast⟩)]) w)
    (fun fault w => κ.opening ⟨region, fast⟩ = .error fault ∧ I fast held w)
  prefetch : ∀ fast held, ∀ e ∈ held, ∀ addresses, Act.Tells (I fast held)
    (inspector.prefetch e.1 addresses) (κ.prefetching e.2 addresses) (I fast held)
  lookup : ∀ fast held, ∀ e ∈ held, ∀ address, Act.Tells (I fast held)
    (inspector.lookup e.1 address) (κ.frames e.2 address) (I fast held)
  close : ∀ fast before e after, Act.Tells (I fast (before ++ e :: after))
    (inspector.close e.1) (κ.closing e.2) (I fast (before ++ after))
  set : ∀ switch ∈ inspector.fastSwitch?, ∀ fast fast',
    Step.Meets (I fast []) (switch.set fast') (fun _ => I fast' [])
  isOn : ∀ switch ∈ inspector.fastSwitch?, ∀ fast w, I fast [] w → switch.isOn w = fast

/-- The inspector whose world is its switch, and whose segments are what is seen in them. -/
def Knowledge.inspector (κ : Knowledge) : Inspector Bool View where
  openRegion region := ExceptT.mk fun env =>
    ((κ.opening ⟨region, env.world⟩).map fun _ => ⟨region, env.world⟩, env)
  buildId v := (κ.opening v).toOption.getD ""
  prefetch? v := some fun addresses => ExceptT.mk (pure (κ.prefetching v addresses))
  lookup v address := ExceptT.mk (pure (κ.frames v address))
  close v := ExceptT.mk (pure (κ.closing v))
  fastSwitch? := some {
    isOn := id
    set := fun on => modify fun env => { env with world := on }
  }

/-- All that may be known is what some inspector answers by. -/
theorem Knowledge.knows_inspector (κ : Knowledge) :
    κ.inspector.Knows κ (fun on held w => w = on ∧ ∀ e ∈ held, e.1 = e.2) where
  openRegion := by
    rintro _ held region ⟨w, notices⟩ ⟨rfl, hheld⟩
    change ending _ _ ((κ.opening ⟨region, w⟩).map fun _ => (⟨region, w⟩ : View)) w
    cases hopen : κ.opening ⟨region, w⟩ with
    | error fault => exact ⟨rfl, rfl, hheld⟩
    | ok buildId =>
        refine ⟨?_, rfl, fun e he => ?_⟩
        · change .ok buildId = Except.ok ((κ.opening ⟨region, w⟩).toOption.getD "")
          rw [hopen]
          rfl
        · rcases List.mem_append.mp he with he | he
          · exact hheld e he
          · rw [List.mem_singleton.mp he]
  prefetch := by
    rintro fast held ⟨v, v'⟩ he addresses env ⟨hw, hheld⟩
    obtain rfl : v = v' := hheld _ he
    exact Act.tells_result _ _ env ⟨hw, hheld⟩
  lookup := by
    rintro fast held ⟨v, v'⟩ he address env ⟨hw, hheld⟩
    obtain rfl : v = v' := hheld _ he
    exact Act.tells_result _ _ env ⟨hw, hheld⟩
  close := by
    rintro fast before ⟨v, v'⟩ after env ⟨hw, hheld⟩
    obtain rfl : v = v' := hheld (v, v') (by simp)
    refine Act.tells_result (fun w => w = fast ∧ ∀ e ∈ before ++ after, e.1 = e.2) _ env ⟨hw, ?_⟩
    intro e he
    exact hheld e (by simp only [List.mem_append, List.mem_cons] at he ⊢; tauto)
  set := by
    rintro _ ⟨⟩ fast fast' env -
    exact ⟨rfl, nofun⟩
  isOn := by
    rintro _ ⟨⟩ fast w ⟨hw, -⟩
    exact hw

/-! ## what a pass comes to -/

namespace Knowledge

variable [Label τ] (κ : Knowledge) (fast force : Bool) (p : ProfileOf τ)

/-- What is seen when a file is opened for a mapping, if anything is. -/
def accept (m : MappingOf τ) (v : View) : Except Fault (Option View) :=
  match κ.opening v with
  | .ok buildId => if m.isMismatch buildId then (κ.closing v).map fun _ => none else .ok (some v)
  | .error (.objectOpen _) => .ok none
  | .error fault => .error fault

/-- What comes of the turn of the mapping at a position. -/
def turn (i : Nat) (m : MappingOf τ) : Except Fault (Option View) :=
  match p.standing force i m with
  | .misnamed kind => .error (.notText kind)
  | .candidate file => κ.accept m ⟨m.region file, fast⟩
  | _ => .ok none

/-- What is seen in mappings, by their positions. -/
def views : List (Nat × View) :=
  p.mappings.zipIdx.filterMap fun e =>
    (κ.turn fast force p e.2 e.1).toOption.join.map fun v => (e.2, v)

/-- What is seen in the mapping at a position, if anything is. -/
def viewAt? (i : Nat) : Option View :=
  p.mappings[i]?.bind fun m => (κ.turn fast force p i m).toOption.join

/-- What is found for a location where mappings show these views. -/
def stackIn (view? : Nat → Option View) (l : Location) : List Frame :=
  match l.mapping.bind view? with
  | some v => (κ.frames v l.address).toOption.getD []
  | none => []

/-- What is found for a location. -/
def stackAt (l : Location) : List Frame :=
  κ.stackIn (κ.viewAt? fast force p) l

/-- What is found for all locations. -/
def foundIn : List (List Frame) :=
  p.locations.map (κ.stackAt fast force p)

/-- Nothing breaks a pass off. -/
structure Allows : Prop where
  opening : ∀ (i : Nat) (m : MappingOf τ), p.mappings[i]? = some m →
    Harmless (fun _ => False) (κ.turn fast force p i m)
  prefetching : ∀ i v, κ.viewAt? fast force p i = some v →
    Harmless Fault.IsLookup (κ.prefetching v (p.addressesIn i))
  frames : ∀ l ∈ p.locations, ∀ v, l.mapping.bind (κ.viewAt? fast force p) = some v →
    Harmless Fault.IsLookup (κ.frames v l.address)
  closing : ∀ i v, κ.viewAt? fast force p i = some v →
    Harmless (·.isSystem = true) (κ.closing v)

end Knowledge

variable [Label τ] {inspector : Inspector ω η} {κ : Knowledge}
  {I : Bool → List (η × View) → ω → Prop}

/-! ## opening -/

/-- What a mapping gets is what is known of its file. -/
theorem meets_openMapping_of_knows (h : inspector.Knows κ I) (fast : Bool)
    (held : List (η × View)) (m : MappingOf τ) (file : String) :
    Act.Meets (I fast held) (SegmentTable.openMapping inspector m file)
      (fun segment? w => ∃ shown? : Option (η × View), segment? = shown?.map (·.1) ∧
        κ.accept m ⟨m.region file, fast⟩ = .ok (shown?.map (·.2)) ∧
        I fast (held ++ shown?.toList) w)
      (fun fault _ => κ.accept m ⟨m.region file, fast⟩ = .error fault) := by
  generalize hv : (⟨m.region file, fast⟩ : View) = v
  unfold SegmentTable.openMapping
  refine Act.meets_bind (Q := fun segment? w =>
    segment?.elim (κ.accept m v = .ok none ∧ I fast held w) fun segment =>
      κ.opening v = .ok (inspector.buildId segment) ∧ I fast (held ++ [(segment, v)]) w) ?_ ?_
  · have hopen := h.openRegion fast held (m.region file)
    rw [hv] at hopen
    refine Act.meets_tryCatch (Act.meets_map hopen) fun fault => ?_
    split
    · refine Act.meets_bind Act.meets_note fun _ => Act.meets_pure fun w hw => ?_
      exact ⟨by rw [Knowledge.accept, hw.1], hw.2⟩
    · rename_i hother
      refine Act.meets_throw fun w hw => ?_
      rw [Knowledge.accept, hw.1]
      split
      · rename_i heq
        cases heq
      · rename_i heq
        cases heq
        exact absurd rfl (hother _)
      · rename_i heq
        cases heq
        rfl
  · intro segment?
    cases segment? with
    | none =>
        refine Act.meets_pure fun w hw => ⟨none, rfl, hw.1, ?_⟩
        rw [Option.toList_none, List.append_nil]
        exact hw.2
    | some segment =>
        simp only
        split
        · rename_i hmismatch
          refine Act.meets_bind Act.meets_note fun _ => Act.meets_and fun hopening => ?_
          have haccept : κ.accept m v = (κ.closing v).map fun _ => none := by
            rw [Knowledge.accept, hopening]
            exact if_pos hmismatch
          have hclose := h.close fast held (segment, v) []
          rw [List.append_nil] at hclose
          refine Act.meets_bind (Q := fun _ w => κ.closing v = .ok () ∧ I fast held w) ?_ ?_
          · refine Act.meets_mono hclose (fun _ hw => hw) (fun _ _ hw => hw) fun fault _ hw => ?_
            rw [haccept, hw.1]
            rfl
          · intro _
            refine Act.meets_pure fun w hw => ⟨none, rfl, ?_, ?_⟩
            · rw [haccept, hw.1]
              rfl
            · rw [Option.toList_none, List.append_nil]
              exact hw.2
        · rename_i hmatch
          refine Act.meets_pure fun w hw => ⟨some (segment, v), rfl, ?_, hw.2⟩
          rw [Knowledge.accept, hw.1]
          exact if_neg hmatch

/-- The table that has the first two of each entry. -/
def SegmentTable.of (shown : List (Nat × η × View)) : SegmentTable η :=
  ⟨shown.map fun e => (e.1, e.2.1)⟩

/-- How opening ends for mappings: behind what a table showed before come those views of them that
are known. -/
def OpenedAs (κ : Knowledge) (I : Bool → List (η × View) → ω → Prop) (fast force : Bool)
    (p : ProfileOf τ) (shown : List (Nat × η × View)) (rest : List (MappingOf τ × Nat))
    (r : SegmentTable η × Except Fault Unit) : ω → Prop :=
  ending
    (fun _ w => ∃ more, r.1 = .of (shown ++ more) ∧ I fast ((shown ++ more).map (·.2)) w ∧
      (more.map fun e => (e.1, e.2.2)) = rest.filterMap (fun e =>
        (κ.turn fast force p e.2 e.1).toOption.join.map fun v => (e.2, v)) ∧
      ∀ e ∈ rest, Harmless (fun _ => False) (κ.turn fast force p e.2 e.1))
    (fun _ _ => ∃ e ∈ rest, ¬ Harmless (fun _ => False) (κ.turn fast force p e.2 e.1)) r.2

/-- A mapping in front has its view, if it has one, in front of those of the others. -/
theorem OpenedAs.cons {fast force : Bool} {p : ProfileOf τ} {shown : List (Nat × η × View)}
    {m : MappingOf τ} {i : Nat} {rest : List (MappingOf τ × Nat)} {shown? : Option (η × View)}
    (hturn : κ.turn fast force p i m = .ok (shown?.map (·.2)))
    {r : SegmentTable η × Except Fault Unit} {w : ω}
    (h : OpenedAs κ I fast force p (shown ++ (shown?.map (i, ·)).toList) rest r w) :
    OpenedAs κ I fast force p shown ((m, i) :: rest) r w := by
  have hharmless : Harmless (fun _ => False) (κ.turn fast force p i m) := by
    rw [hturn]
    exact nofun
  obtain ⟨t, ended⟩ := r
  cases ended with
  | error fault =>
      obtain ⟨e, he, hnot⟩ := h
      exact ⟨e, List.mem_cons_of_mem _ he, hnot⟩
  | ok _ =>
      obtain ⟨more, htable, hI, hviews, hrest⟩ := h
      rw [List.append_assoc] at htable hI
      refine ⟨_, htable, hI, ?_, List.forall_mem_cons.mpr ⟨hharmless, hrest⟩⟩
      rw [List.map_append, hviews]
      cases shown? with
      | none => rw [List.filterMap_cons_none (by rw [hturn]; rfl)]; rfl
      | some e => rw [List.filterMap_cons_some (by rw [hturn]; rfl)]; rfl

/-- What the mappings get is what is known of their files. -/
theorem meets_openEach_of_knows (h : inspector.Knows κ I) (fast force : Bool) (p : ProfileOf τ)
    (shown : List (Nat × η × View)) (rest : List (MappingOf τ × Nat)) :
    Step.Meets (I fast (shown.map (·.2)))
      (SegmentTable.openEach inspector force p (.of shown) rest)
      (OpenedAs κ I fast force p shown rest) := by
  induction rest generalizing shown with
  | nil => exact Step.meets_pure fun w hw => ⟨[], by simp, by simpa using hw, rfl, by simp⟩
  | cons entry rest ih =>
      obtain ⟨m, i⟩ := entry
      have hpassed (hturn : κ.turn fast force p i m = .ok none) :
          Step.Meets (I fast (shown.map (·.2)))
            (SegmentTable.openEach inspector force p (.of shown) rest)
            (OpenedAs κ I fast force p shown ((m, i) :: rest)) := by
        have hnone : κ.turn fast force p i m = .ok ((none : Option (η × View)).map (·.2)) := hturn
        refine Step.meets_mono (ih shown) (fun w hw => hw) fun r w hr => .cons hnone ?_
        rwa [Option.map_none, Option.toList_none, List.append_nil]
      unfold SegmentTable.openEach
      cases hstanding : p.standing force i m with
      | unreferenced => exact hpassed (by rw [Knowledge.turn, hstanding])
      | «virtual» => exact hpassed (by rw [Knowledge.turn, hstanding])
      | done =>
          refine Step.meets_bind Step.meets_note fun _ => hpassed ?_
          rw [Knowledge.turn, hstanding]
      | nameless =>
          have hnone : κ.turn fast force p i m = .ok none := by rw [Knowledge.turn, hstanding]
          simp only
          split
          · exact Step.meets_bind Step.meets_note fun _ => hpassed hnone
          · exact hpassed hnone
      | misnamed kind =>
          refine Step.meets_pure fun w _ => ⟨(m, i), List.mem_cons_self, fun hharmless => ?_⟩
          exact hharmless (.notText kind) (by rw [Knowledge.turn, hstanding])
      | candidate file =>
          have hturn : κ.turn fast force p i m = κ.accept m ⟨m.region file, fast⟩ := by
            rw [Knowledge.turn, hstanding]
          refine Step.meets_bind (meets_openMapping_of_knows h fast _ m file) fun r => ?_
          rw [← hturn]
          cases r with
          | error fault =>
              refine Step.meets_pure fun w hw => ⟨(m, i), List.mem_cons_self, fun hharmless => ?_⟩
              exact hharmless fault hw
          | ok segment? =>
              intro env hw
              obtain ⟨shown?, rfl, hview, hI⟩ := hw
              cases shown? with
              | none =>
                  rw [Option.toList_none, List.append_nil] at hI
                  exact hpassed hview env hI
              | some e =>
                  have hadd : (SegmentTable.of shown).add i e.1 = .of (shown ++ [(i, e)]) := by
                    simp [SegmentTable.of, SegmentTable.add]
                  refine .cons hview ?_
                  simp only [Option.map_some, hadd]
                  refine ih (shown ++ [(i, e)]) env ?_
                  rw [List.map_append]
                  exact hI

/-! ## asking -/

/-- The table has segments where there are views, and each segment shows its view. -/
def SegmentTable.Shows (t : SegmentTable η) (view? : Nat → Option View)
    (held : List (η × View)) : Prop :=
  ∀ i, (t.get? (some i) = none ∧ view? i = none) ∨
    ∃ e ∈ held, t.get? (some i) = some e.1 ∧ view? i = some e.2

variable {t : SegmentTable η} {view? : Nat → Option View} {held : List (η × View)}

/-- A prefetch succeeds if what is known of each segment makes it harmless, and fails otherwise. -/
theorem meets_prefetchEach_of_knows (h : inspector.Knows κ I) (fast : Bool) (p : ProfileOf τ)
    (ht : t.Shows view? held) (order : List Nat) :
    Act.Meets (I fast held) (LocalPass.prefetchEach inspector p t order)
      (fun _ w => (∀ i ∈ order, ∀ v, view? i = some v →
        Harmless Fault.IsLookup (κ.prefetching v (p.addressesIn i))) ∧ I fast held w)
      (fun _ _ => ∃ i ∈ order, ∃ v, view? i = some v ∧
        ¬ Harmless Fault.IsLookup (κ.prefetching v (p.addressesIn i))) := by
  induction order with
  | nil => exact Act.meets_pure fun w hw => ⟨by simp, hw⟩
  | cons i rest ih =>
      have hlater (hfirst : ∀ v, view? i = some v →
          Harmless Fault.IsLookup (κ.prefetching v (p.addressesIn i))) :
          Act.Meets (I fast held) (LocalPass.prefetchEach inspector p t rest)
            (fun _ w => (∀ j ∈ i :: rest, ∀ v, view? j = some v →
              Harmless Fault.IsLookup (κ.prefetching v (p.addressesIn j))) ∧ I fast held w)
            (fun _ _ => ∃ j ∈ i :: rest, ∃ v, view? j = some v ∧
              ¬ Harmless Fault.IsLookup (κ.prefetching v (p.addressesIn j))) := by
        refine Act.meets_mono ih (fun _ hw => hw) (fun _ w hw => ?_) fun _ w hw => ?_
        · exact ⟨List.forall_mem_cons.mpr ⟨hfirst, hw.1⟩, hw.2⟩
        · obtain ⟨j, hj, hnot⟩ := hw
          exact ⟨j, List.mem_cons_of_mem _ hj, hnot⟩
      unfold LocalPass.prefetchEach
      rcases ht i with ⟨hclosed, hview⟩ | ⟨e, he, hopen, hview⟩
      · rw [hclosed]
        exact hlater fun v hv => by rw [hview] at hv; cases hv
      · have htells := h.prefetch fast held e he (p.addressesIn i)
        rw [Inspector.prefetch] at htells
        rw [hopen, Option.bind_some]
        have hfirst (hharmless : Harmless Fault.IsLookup (κ.prefetching e.2 (p.addressesIn i))) :
            ∀ v, view? i = some v →
              Harmless Fault.IsLookup (κ.prefetching v (p.addressesIn i)) := by
          intro v hv
          rw [hview, Option.some.injEq] at hv
          rwa [← hv]
        cases hprefetch : inspector.prefetch? e.1 with
        | none =>
            rw [hprefetch] at htells
            intro env hw
            exact hlater (hfirst (.of_ok (htells env hw).1)) env hw
        | some prefetch =>
            rw [hprefetch] at htells
            refine Act.meets_bind (Q := fun _ w =>
              Harmless Fault.IsLookup (κ.prefetching e.2 (p.addressesIn i)) ∧ I fast held w) ?_
              fun _ => Act.meets_and fun hharmless => hlater (hfirst hharmless)
            refine Act.meets_tryCatch (Act.meets_mono htells (fun _ hw => hw)
              (fun _ _ hw => ⟨.of_ok hw.1, hw.2⟩) fun _ _ hw => hw) fun fault => ?_
            split
            · refine Act.meets_and fun hfault => Act.meets_mono Act.meets_note (fun _ hw => hw)
                (fun _ _ hw => ⟨?_, hw⟩) fun _ _ hw => hw
              rw [hfault, harmless_error]
              exact ⟨_, rfl⟩
            · rename_i hother
              refine Act.meets_and fun hfault => Act.meets_throw fun _ _ => ?_
              refine ⟨i, List.mem_cons_self, e.2, hview, ?_⟩
              rw [hfault, harmless_error]
              rintro ⟨cause, rfl⟩
              exact hother cause rfl

/-- A table that shows views has a segment where there is a view, and none elsewhere. -/
theorem SegmentTable.Shows.get? (ht : t.Shows view? held) (mapping : Option Nat) :
    (t.get? mapping = none ∧ mapping.bind view? = none) ∨
      ∃ e ∈ held, t.get? mapping = some e.1 ∧ mapping.bind view? = some e.2 := by
  cases mapping with
  | none => exact .inl ⟨rfl, rfl⟩
  | some i => exact ht i

/-- A location is looked up as what is known of its segment says. -/
theorem meets_lookup_of_knows (h : inspector.Knows κ I) (fast : Bool) (p : ProfileOf τ)
    (ht : t.Shows view? held) (l : Location) :
    Act.Meets (I fast held) (LocalPass.lookup inspector p t l)
      (fun frames w => (frames = κ.stackIn view? l ∧ ∀ v, l.mapping.bind view? = some v →
        Harmless Fault.IsLookup (κ.frames v l.address)) ∧ I fast held w)
      (fun _ _ => ∃ v, l.mapping.bind view? = some v ∧
        ¬ Harmless Fault.IsLookup (κ.frames v l.address)) := by
  unfold LocalPass.lookup
  rcases ht.get? l.mapping with ⟨hclosed, hview⟩ | ⟨e, he, hopen, hview⟩
  · rw [hclosed]
    refine Act.meets_pure fun w hw => ⟨⟨?_, ?_⟩, hw⟩
    · rw [Knowledge.stackIn, hview]
    · intro v hv
      rw [hview] at hv
      cases hv
  · have hstack : κ.stackIn view? l = (κ.frames e.2 l.address).toOption.getD [] := by
      rw [Knowledge.stackIn, hview]
    have hfirst (hharmless : Harmless Fault.IsLookup (κ.frames e.2 l.address)) :
        ∀ v, l.mapping.bind view? = some v →
          Harmless Fault.IsLookup (κ.frames v l.address) := by
      intro v hv
      rw [hview, Option.some.injEq] at hv
      rwa [← hv]
    rw [hopen]
    refine Act.meets_tryCatch (Act.meets_mono (h.lookup fast held e he l.address)
      (fun _ hw => hw) (fun frames w hw => ?_) fun _ _ hw => hw) fun fault => ?_
    · refine ⟨⟨?_, hfirst (.of_ok hw.1)⟩, hw.2⟩
      rw [hstack, hw.1]
      rfl
    · split
      · refine Act.meets_and fun hfault => Act.meets_bind Act.meets_note fun _ =>
          Act.meets_pure fun w hw => ⟨⟨?_, hfirst ?_⟩, hw⟩
        · rw [hstack, hfault]
          rfl
        · rw [hfault, harmless_error]
          exact ⟨_, rfl⟩
      · rename_i hother
        refine Act.meets_and fun hfault => Act.meets_throw fun _ _ => ⟨e.2, hview, ?_⟩
        rw [hfault, harmless_error]
        rintro ⟨cause, rfl⟩
        exact hother cause rfl

/-- Locations are looked up in turn as what is known of their segments says. -/
theorem meets_lookupEach_of_knows (h : inspector.Knows κ I) (fast : Bool) (p : ProfileOf τ)
    (ht : t.Shows view? held) (locations : List Location) :
    Step.Meets (I fast held) (LocalPass.lookupEach inspector p t locations)
      (fun r => ending
        (fun _ w => (r.1 = locations.map (κ.stackIn view?) ∧
          ∀ l ∈ locations, ∀ v, l.mapping.bind view? = some v →
            Harmless Fault.IsLookup (κ.frames v l.address)) ∧ I fast held w)
        (fun _ _ => ∃ l ∈ locations, ∃ v, l.mapping.bind view? = some v ∧
          ¬ Harmless Fault.IsLookup (κ.frames v l.address)) r.2) := by
  induction locations with
  | nil => exact Step.meets_pure fun w hw => ⟨⟨rfl, by simp⟩, hw⟩
  | cons l rest ih =>
      unfold LocalPass.lookupEach
      refine Step.meets_bind (meets_lookup_of_knows h fast p ht l) fun r => ?_
      cases r with
      | error fault => exact Step.meets_pure fun w hw => ⟨l, List.mem_cons_self, hw⟩
      | ok frames =>
          refine Step.meets_and fun hfirst => Step.meets_bind ih fun r => ?_
          obtain ⟨found, ended⟩ := r
          refine Step.meets_pure fun w hw => ?_
          cases ended with
          | error fault =>
              obtain ⟨l', hl', hnot⟩ := hw
              exact ⟨l', List.mem_cons_of_mem _ hl', hnot⟩
          | ok _ =>
              obtain ⟨⟨hfound, hrest⟩, hI⟩ := hw
              refine ⟨⟨?_, List.forall_mem_cons.mpr ⟨hfirst.2, hrest⟩⟩, hI⟩
              rw [List.map_cons, ← hfirst.1, ← hfound]

/-! ## closing -/

/-- Segments are closed unless what is known of one says that closing it breaks. -/
theorem meets_closeEach_of_knows (h : inspector.Knows κ I) (fast : Bool) (p : ProfileOf τ)
    (shown : List (Nat × η × View)) :
    Step.Meets (I fast (shown.map (·.2)))
      (SegmentTable.closeEach inspector p (shown.map fun e => (e.1, e.2.1)))
      (ending
        (fun _ w => (∀ e ∈ shown, Harmless (·.isSystem = true) (κ.closing e.2.2)) ∧ I fast [] w)
        (fun _ _ => ∃ e ∈ shown, ¬ Harmless (·.isSystem = true) (κ.closing e.2.2))) := by
  induction shown with
  | nil => exact Step.meets_pure fun w hw => ⟨by simp, hw⟩
  | cons entry rest ih =>
      obtain ⟨i, e⟩ := entry
      have hlater (hfirst : Harmless (·.isSystem = true) (κ.closing e.2)) :
          Step.Meets (I fast (rest.map (·.2)))
            (SegmentTable.closeEach inspector p (rest.map fun e => (e.1, e.2.1)))
            (ending
              (fun _ w => (∀ c ∈ (i, e) :: rest,
                Harmless (·.isSystem = true) (κ.closing c.2.2)) ∧ I fast [] w)
              (fun _ _ => ∃ c ∈ (i, e) :: rest,
                ¬ Harmless (·.isSystem = true) (κ.closing c.2.2))) := by
        refine Step.meets_mono ih (fun _ hw => hw) fun r w hw => ?_
        cases r with
        | ok _ => exact ⟨List.forall_mem_cons.mpr ⟨hfirst, hw.1⟩, hw.2⟩
        | error fault =>
            obtain ⟨e', he', hnot⟩ := hw
            exact ⟨e', List.mem_cons_of_mem _ he', hnot⟩
      unfold SegmentTable.closeEach
      have hclose := h.close fast [] e (rest.map fun e => e.2)
      refine Step.meets_bind hclose fun r => ?_
      cases r with
      | ok _ => exact Step.meets_and fun hfirst => hlater (.of_ok hfirst)
      | error fault =>
          refine Step.meets_and fun hfault => ?_
          simp only
          split
          · rename_i hsystem
            refine Step.meets_bind Step.meets_note fun _ => hlater ?_
            rw [hfault, harmless_error]
            exact hsystem
          · rename_i hother
            refine Step.meets_pure fun w _ => ⟨(i, e), List.mem_cons_self, ?_⟩
            rw [hfault, harmless_error]
            exact hother

theorem meets_close_of_knows (h : inspector.Knows κ I) (fast : Bool) (p : ProfileOf τ)
    (shown : List (Nat × η × View)) :
    Step.Meets (I fast (shown.map (·.2))) ((SegmentTable.of shown).close inspector p)
      (fun r => ending
        (fun _ w => (∀ e ∈ shown, Harmless (·.isSystem = true) (κ.closing e.2.2)) ∧ I fast [] w)
        (fun _ _ => ∃ e ∈ shown, ¬ Harmless (·.isSystem = true) (κ.closing e.2.2)) r.2) :=
  Step.meets_bind (meets_closeEach_of_knows h fast p shown) fun _ => Step.meets_pure fun _ hw => hw

/-! ## the table -/

theorem lookup_map_snd {β γ : Type} (f : β → γ) (l : List (Nat × β)) (i : Nat) :
    (l.map fun e => (e.1, f e.2)).lookup i = (l.lookup i).map f := by
  induction l with
  | nil => rfl
  | cons e rest ih =>
      rw [List.map_cons, List.lookup_cons, List.lookup_cons]
      cases i == e.1 with
      | true => rfl
      | false => exact ih

/-- The value at a position, where positions are the keys. -/
theorem lookup_filterMap_zipIdx {β γ : Type} (g : Nat → β → Option γ) (l : List β) (k i : Nat) :
    ((l.zipIdx k).filterMap fun e => (g e.2 e.1).map fun c => (e.2, c)).lookup i =
      if k ≤ i then l[i - k]?.bind (g i) else none := by
  induction l generalizing k with
  | nil => simp
  | cons b rest ih =>
      rw [List.zipIdx_cons]
      by_cases hi : i = k
      · subst hi
        cases hg : g i b with
        | none =>
          rw [List.filterMap_cons_none (by rw [hg]; rfl), ih, if_neg (by omega),
            if_pos (Nat.le_refl i), Nat.sub_self]
          exact hg.symm
        | some c =>
          rw [List.filterMap_cons_some (by rw [hg]; rfl), if_pos (Nat.le_refl i), Nat.sub_self,
            List.lookup_cons, beq_self_eq_true]
          exact hg.symm
      · have hne : (i == k) = false := beq_eq_false_iff_ne.mpr hi
        have hrest : (((b, k) :: rest.zipIdx (k + 1)).filterMap
              (fun e => (g e.2 e.1).map fun c => (e.2, c))).lookup i =
            ((rest.zipIdx (k + 1)).filterMap fun e =>
              (g e.2 e.1).map fun c => (e.2, c)).lookup i := by
          cases hg : g k b with
          | none => rw [List.filterMap_cons_none (by rw [hg]; rfl)]
          | some c => rw [List.filterMap_cons_some (by rw [hg]; rfl), List.lookup_cons, hne]
        rw [hrest, ih]
        by_cases hle : k + 1 ≤ i
        · have hsub : i - k = (i - (k + 1)) + 1 := by omega
          rw [if_pos hle, if_pos (by omega), hsub, List.getElem?_cons_succ]
        · rw [if_neg hle, if_neg (by omega)]

section

variable {fast force : Bool} {p : ProfileOf τ}

/-- The view listed for a mapping is the one known at its position. -/
theorem lookup_views (κ : Knowledge) (fast force : Bool) (p : ProfileOf τ) (i : Nat) :
    (κ.views fast force p).lookup i = κ.viewAt? fast force p i := by
  rw [Knowledge.views,
    lookup_filterMap_zipIdx fun i m => (κ.turn fast force p i m).toOption.join]
  exact if_pos (Nat.zero_le i)

theorem mem_views {i : Nat} {v : View} :
    (i, v) ∈ κ.views fast force p ↔ κ.viewAt? fast force p i = some v := by
  simp only [Knowledge.views, Knowledge.viewAt?, List.mem_filterMap, Option.map_eq_some_iff,
    Prod.mk.injEq, Option.bind_eq_some_iff]
  constructor
  · rintro ⟨⟨m, j⟩, hm, _, hturn, rfl, rfl⟩
    exact ⟨m, List.mk_mem_zipIdx_iff_getElem?.mp hm, hturn⟩
  · rintro ⟨m, hm, hturn⟩
    exact ⟨(m, i), List.mk_mem_zipIdx_iff_getElem?.mpr hm, v, hturn, rfl, rfl⟩

/-- A table whose segments show what is known shows it in the mappings. -/
theorem shows_of_views {shown : List (Nat × η × View)}
    (h : (shown.map fun e => (e.1, e.2.2)) = κ.views fast force p) :
    (SegmentTable.of shown).Shows (κ.viewAt? fast force p) (shown.map (·.2)) := by
  intro i
  have hget : (SegmentTable.of shown).get? (some i) = (shown.lookup i).map (·.1) :=
    lookup_map_snd _ shown i
  have hview : κ.viewAt? fast force p i = (shown.lookup i).map (·.2) := by
    rw [← lookup_views, ← h]
    exact lookup_map_snd _ shown i
  rw [hget, hview]
  cases hlookup : shown.lookup i with
  | none => exact .inl ⟨rfl, rfl⟩
  | some e =>
      obtain ⟨before, after, hshown, -⟩ := List.lookup_eq_some_iff.mp hlookup
      refine .inr ⟨e, ?_, rfl, rfl⟩
      rw [hshown]
      simp

/-- Mappings in which something is seen are referred to. -/
theorem refersTo_of_viewAt? {i : Nat} {v : View} (h : κ.viewAt? fast force p i = some v) :
    p.refersTo i = true := by
  obtain ⟨m, -, hturn⟩ := Option.bind_eq_some_iff.mp h
  rw [Knowledge.turn] at hturn
  split at hturn
  · cases hturn
  · rename_i file hcandidate
    exact ((p.standing_eq_candidate force i m file).mp hcandidate).1
  · cases hturn

omit [Label τ] in
/-- The segments that are prefetched are those of mappings which some location refers to. -/
theorem mem_segmentOrder {i : Nat} :
    i ∈ p.segmentOrder t ↔ p.refersTo i = true ∧ t.contains i = true := by
  simp only [ProfileOf.segmentOrder, List.mem_eraseDups, List.mem_filterMap,
    Option.filter_eq_some_iff, ProfileOf.refersTo, List.any_eq_true, beq_iff_eq]
  constructor
  · rintro ⟨l, hl, hmapping, hcontains⟩
    exact ⟨⟨l, hl, hmapping⟩, hcontains⟩
  · rintro ⟨⟨l, hl, hmapping⟩, hcontains⟩
    exact ⟨l, hl, hmapping, hcontains⟩

end

/-! ## the pass -/

/-- A table is opened with the views that are known, unless one of the turns breaks. -/
theorem meets_ofProfile_of_knows (h : inspector.Knows κ I) (fast force : Bool) (p : ProfileOf τ) :
    Act.Meets (I fast []) (SegmentTable.ofProfile inspector force p)
      (fun t w => ∃ shown : List (Nat × η × View), t = .of shown ∧
        (shown.map fun e => (e.1, e.2.2)) = κ.views fast force p ∧
        (∀ (i : Nat) (m : MappingOf τ), p.mappings[i]? = some m →
          Harmless (fun _ => False) (κ.turn fast force p i m)) ∧ I fast (shown.map (·.2)) w)
      (fun _ _ => ¬ κ.Allows fast force p) := by
  unfold SegmentTable.ofProfile
  refine Step.meets_bind (meets_openEach_of_knows h fast force p [] p.mappings.zipIdx) fun r => ?_
  obtain ⟨t, ended⟩ := r
  cases ended with
  | error fault =>
      have hnot : ∀ w, OpenedAs κ I fast force p [] p.mappings.zipIdx (t, .error fault) w →
          ¬ κ.Allows fast force p := by
        rintro w ⟨⟨m, i⟩, he, hnot⟩ hallows
        exact hnot (hallows.opening i m (List.mk_mem_zipIdx_iff_getElem?.mp he))
      refine Step.meets_bind (M := fun _ _ => ¬ κ.Allows fast force p)
        (fun env hw => hnot _ hw) fun r => ?_
      obtain ⟨_, closing⟩ := r
      refine Step.meets_pure fun w hw => ?_
      cases closing with
      | ok _ => exact hw
      | error fault => exact hw
  | ok _ =>
      have hshown : ∀ w, OpenedAs κ I fast force p [] p.mappings.zipIdx (t, .ok ()) w →
          ∃ shown : List (Nat × η × View), t = .of shown ∧
            (shown.map fun e => (e.1, e.2.2)) = κ.views fast force p ∧
            (∀ (i : Nat) (m : MappingOf τ), p.mappings[i]? = some m →
              Harmless (fun _ => False) (κ.turn fast force p i m)) ∧
            I fast (shown.map (·.2)) w := by
        rintro w ⟨shown, htable, hI, hviews, hturns⟩
        refine ⟨shown, htable, hviews, fun i m hm => ?_, hI⟩
        exact hturns (m, i) (List.mk_mem_zipIdx_iff_getElem?.mpr hm)
      simp only
      split
      · exact Step.meets_bind Step.meets_note fun _ => Step.meets_bind Step.meets_note fun _ =>
          Step.meets_pure hshown
      · exact Step.meets_bind Step.meets_note fun _ => Step.meets_pure hshown

/-- What is gathered is what is known to be found, unless it is not allowed. -/
theorem meets_gather_of_knows (h : inspector.Knows κ I) {fast force : Bool} {p : ProfileOf τ}
    (ht : t.Shows (κ.viewAt? fast force p) held) :
    Step.Meets (I fast held) (LocalPass.gather inspector p t)
      (fun r => ending
        (fun _ w => (r.1 = κ.foundIn fast force p ∧
          (∀ i v, κ.viewAt? fast force p i = some v →
            Harmless Fault.IsLookup (κ.prefetching v (p.addressesIn i))) ∧
          ∀ l ∈ p.locations, ∀ v, l.mapping.bind (κ.viewAt? fast force p) = some v →
            Harmless Fault.IsLookup (κ.frames v l.address)) ∧ I fast held w)
        (fun _ _ => ¬ κ.Allows fast force p) r.2) := by
  unfold LocalPass.gather
  refine Step.meets_bind (meets_prefetchEach_of_knows h fast p ht _) fun r => ?_
  cases r with
  | error fault =>
      refine Step.meets_pure fun w hw hallows => ?_
      obtain ⟨i, -, v, hview, hnot⟩ := hw
      exact hnot (hallows.prefetching i v hview)
  | ok _ =>
      refine Step.meets_and fun hprefetch => Step.meets_mono
        (meets_lookupEach_of_knows h fast p ht p.locations) (fun _ hw => hw) fun r w hw => ?_
      obtain ⟨found, ended⟩ := r
      cases ended with
      | error fault =>
          obtain ⟨l, hl, v, hview, hnot⟩ := hw
          exact fun hallows => hnot (hallows.frames l hl v hview)
      | ok _ =>
          obtain ⟨⟨hfound, hframes⟩, hI⟩ := hw
          refine ⟨⟨hfound, fun i v hview => ?_, hframes⟩, hI⟩
          refine hprefetch i (mem_segmentOrder.mpr ⟨refersTo_of_viewAt? hview, ?_⟩) v hview
          rcases ht i with ⟨-, hnone⟩ | ⟨e, -, hopen, -⟩
          · rw [hview] at hnone
            cases hnone
          · rw [SegmentTable.contains, hopen]
            rfl

/-- A pass comes to what is known: it returns if nothing breaks it off, and has then found what
there is to be found. -/
theorem meets_run (h : inspector.Knows κ I) (fast force : Bool) (p : ProfileOf τ) :
    Step.Meets (I fast []) (LocalPass.run inspector force p)
      (fun r => ending
        (fun _ w => (κ.Allows fast force p ∧
          r.1 = p.resolve (κ.foundIn fast force p)) ∧ I fast [] w)
        (fun _ _ => ¬ κ.Allows fast force p) r.2) := by
  unfold LocalPass.run
  refine Step.meets_bind (meets_ofProfile_of_knows h fast force p) fun r => ?_
  cases r with
  | error fault => exact Step.meets_pure fun w hw => hw
  | ok t =>
      refine Step.meets_exists fun shown => Step.meets_and fun htable =>
        Step.meets_and fun hviews => Step.meets_and fun hturns => ?_
      subst htable
      have hshows := shows_of_views hviews
      refine Step.meets_bind (meets_gather_of_knows h hshows) fun r => ?_
      obtain ⟨found, ended⟩ := r
      cases ended with
      | error fault =>
          refine Step.meets_bind (M := fun _ _ => ¬ κ.Allows fast force p)
            (fun env hw => hw) fun r => ?_
          obtain ⟨_, closing⟩ := r
          cases closing with
          | ok _ => exact Step.meets_pure fun w hw => hw
          | error fault => exact Step.meets_pure fun w hw => hw
      | ok _ =>
          refine Step.meets_and fun ⟨hfound, hprefetch, hframes⟩ => ?_
          refine Step.meets_bind (meets_close_of_knows h fast p shown) fun r => ?_
          obtain ⟨_, closing⟩ := r
          cases closing with
          | error fault =>
              refine Step.meets_pure fun w hw hallows => ?_
              obtain ⟨⟨i, s, v⟩, he, hnot⟩ := hw
              refine hnot (hallows.closing i v (mem_views.mp ?_))
              rw [← hviews]
              exact List.mem_map_of_mem he
          | ok _ =>
              refine Step.meets_and fun hclosing => ?_
              refine Step.meets_bind Step.meets_note fun _ =>
                Step.meets_pure fun w hw => ⟨⟨?_, congrArg p.resolve hfound⟩, hw⟩
              · refine ⟨hturns, hprefetch, hframes, fun i v hview => ?_⟩
                rw [← mem_views, ← hviews] at hview
                obtain ⟨e, he, heq⟩ := List.mem_map.mp hview
                cases heq
                exact hclosing e he

end Symbolication
