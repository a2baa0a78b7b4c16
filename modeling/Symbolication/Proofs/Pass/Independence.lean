import Symbolication.Proofs.Pass.Alike

/-!
# Symbolication.Proofs.Pass.Independence

Mappings do not influence each other.  What the local pass makes of a mapping depends on
what the inspector says about its file, and not on what becomes of the others:

* `ProfileOf.calls` — what the lines of a location say, whatever the ids of functions;
* `agree_symbolizeLocally` — passes with inspectors that answer alike about a file agree
  about its mappings;
* `Knowledge.AgreesOn.alikeOn` — inspectors that know the same of a file answer alike.
-/

namespace Symbolication

variable {ω ω' η η' τ α : Type} [Label τ] {A : Inspector ω η} {B : Inspector ω' η'}
  {file : String} {I : List (η × η') → List η → List η' → ω → ω' → Prop} {p : ProfileOf τ}

/-! ## what lines say -/

/-- What the lines of a location say: of each call the name, the system name and the file of its
function, and the source line.  The id of the function does not count. -/
def ProfileOf.calls (p : ProfileOf τ) (l : Location) : List (Option (τ × τ × τ) × Int) :=
  l.lines.map fun line =>
    (p.functions[line.function]?.map fun fn => (fn.name, fn.systemName, fn.filename), line.line)

/-- What a line that shows a frame says. -/
def Frame.call (f : Frame) : Option (τ × τ × τ) × Int :=
  (some (Label.ofText f.func, Label.ofText f.func, Label.ofText f.file), f.line)

namespace ProfileOf.Resolved

variable {q : ProfileOf τ} {found : List (List Frame)}

/-- A location for which nothing was found says what it said. -/
theorem calls_of_kept (h : p.Resolved found q) (hp : p.WellFormed) {l : Location}
    (hl : l ∈ p.locations) : q.calls l = p.calls l := by
  refine List.map_congr_left fun line hline => ?_
  rw [h.functions, List.getElem?_append_left (hp.function_lt l hl line hline)]

/-- A location for which frames were found says what they are. -/
theorem calls_of_entered {old : Nat} {frames : List Frame} {l : Location} {lines : List Line}
    (h : List.Forall₂ (q.Shows old) frames lines) :
    q.calls { l with lines } = frames.map Frame.call := by
  rw [calls]
  induction h with
  | nil => rfl
  | cons hfirst _ ih =>
      obtain ⟨hline, -, fn, hfn, hname, hsystemName, hfilename⟩ := hfirst
      rw [List.map_cons, List.map_cons, ih, hfn, Option.map_some, hname, hsystemName, hfilename,
        hline]
      rfl

/-- What the location at a place says in the end depends on what was found for it. -/
theorem calls_eq (h : p.Resolved found q) (hp : p.WellFormed) {k : Nat} {l : Location}
    {frames : List Frame} (hl : p.locations[k]? = some l) (hfound : found[k]? = some frames) :
    ∃ l', q.locations[k]? = some l' ∧
      q.calls l' = if frames = [] then p.calls l else frames.map Frame.call := by
  by_cases hframes : frames = []
  · rw [if_pos hframes]
    rw [hframes] at hfound
    exact ⟨l, h.kept k l hl hfound, h.calls_of_kept hp (List.mem_of_getElem? hl)⟩
  · rw [if_neg hframes]
    obtain ⟨lines, hget, hshows⟩ := h.entered k l frames hl hfound hframes
    exact ⟨_, hget, calls_of_entered hshows⟩

end ProfileOf.Resolved

omit [Label τ] in
/-- What a mapping learns is settled by the stacks found in it. -/
theorem MappingOf.Learns.unique {m m₁ m₂ : MappingOf τ} {stack : List Frame → Prop}
    (h₁ : m.Learns m₁ stack) (h₂ : m.Learns m₂ stack) : m₁ = m₂ := by
  have hfunctions := Bool.eq_iff_iff.mpr (h₁.hasFunctions.trans h₂.hasFunctions.symm)
  have hfilenames := Bool.eq_iff_iff.mpr (h₁.hasFilenames.trans h₂.hasFilenames.symm)
  have hlines := Bool.eq_iff_iff.mpr (h₁.hasLineNumbers.trans h₂.hasLineNumbers.symm)
  have hinline := Bool.eq_iff_iff.mpr (h₁.hasInlineFrames.trans h₂.hasInlineFrames.symm)
  rw [h₁.same, h₂.same, hfunctions, hfilenames, hlines, hinline]

/-! ## the pass -/

/-- Mappings do not influence each other.  If two inspectors answer alike about a file, whatever
they do with all others, and a pass returns with each of them, then both passes leave the mappings
of the file the same, flags included, and their locations with lines that say the same. -/
theorem agree_symbolizeLocally (h : A.AlikeOn B file I) {force fast : Bool} {p : ProfileOf τ}
    (hp : p.WellFormed) {env : Env ω} {env' : Env ω'} (hI : I [] [] [] env.world env'.world)
    (hreturns : (p.symbolizeLocally A force fast env).1.2 = .ok ())
    (hreturns' : (p.symbolizeLocally B force fast env').1.2 = .ok ()) {i : Nat}
    {m : MappingOf τ} (hm : p.mappings[i]? = some m) (hfile : Label.isText m.file file = true) :
    let q := (p.symbolizeLocally A force fast env).1.1
    let q' := (p.symbolizeLocally B force fast env').1.1
    q.mappings[i]? = q'.mappings[i]? ∧
      ∀ (k : Nat) (l : Location), p.locations[k]? = some l → l.mapping = some i →
        ∃ l₁ l₂, q.locations[k]? = some l₁ ∧ q'.locations[k]? = some l₂ ∧
          q.calls l₁ = q'.calls l₂ := by
  intro q q'
  obtain ⟨t, found, hcompleted, hresolved⟩ := resolved_symbolizeLocally hreturns
  obtain ⟨t', found', hcompleted', hresolved'⟩ := resolved_symbolizeLocally hreturns'
  have hshown : p.showsFile file i = true := by
    rw [ProfileOf.showsFile, hm]
    exact hfile
  have hfound (k : Nat) (l : Location) (hk : p.locations[k]? = some l)
      (hl : l.mapping = some i) : found[k]? = found'[k]? :=
    hcompleted.alike h hcompleted' (h.entry fast env env' hI) hk hl hshown
  constructor
  -- the flags come of the stacks that were found in the mapping, and the lines of those themselves
  · have hstacks : p.FoundIn found i = p.FoundIn found' i := by
      funext frames
      refine propext (and_congr_right fun _ => exists_congr fun k => exists_congr fun l => ?_)
      refine and_congr_right fun hk => and_congr_right fun hl => ?_
      rw [hfound k l hk hl]
    obtain ⟨m₁, hm₁, hlearns⟩ := hresolved.learnt i m hm
    obtain ⟨m₂, hm₂, hlearns'⟩ := hresolved'.learnt i m hm
    rw [hstacks] at hlearns
    rw [hm₁, hm₂, hlearns.unique hlearns']
  · intro k l hk hl
    have hlt : k < found.length := by
      rw [hresolved.length_found]
      exact (List.getElem?_eq_some_iff.mp hk).1
    have hframes := List.getElem?_eq_getElem hlt
    obtain ⟨l₁, hl₁, hcalls⟩ := hresolved.calls_eq hp hk hframes
    obtain ⟨l₂, hl₂, hcalls'⟩ := hresolved'.calls_eq hp hk ((hfound k l hk hl).symm.trans hframes)
    exact ⟨l₁, l₂, hl₁, hl₂, hcalls.trans hcalls'.symm⟩

/-! ## inspectors by what is known -/

omit [Label τ] in
/-- Actions that have the same result already end alike. -/
theorem Act.alike_result {P : ω → ω' → Prop} {Q : α → α → ω → ω' → Prop}
    (hQ : ∀ a w w', P w w' → Q a a w w') {r r' : Except Fault α} (h : r = r') :
    Act.Alike P (ExceptT.mk (pure r)) (ExceptT.mk (pure r')) Q P := by
  subst h
  intro env env' hP
  cases r with
  | ok a => exact hQ a _ _ hP
  | error fault => exact ⟨rfl, hP⟩

namespace Knowledge

/-- What is known of a file is the same, up to what closing it comes to. -/
structure AgreesOn (κ κ' : Knowledge) (file : String) : Prop where
  opening : ∀ v, v.region.path = file → κ.opening v = κ'.opening v
  prefetching : ∀ v, v.region.path = file → κ.prefetching v = κ'.prefetching v
  frames : ∀ v, v.region.path = file → κ.frames v = κ'.frames v

/-- The switches stand alike, and the same is seen of the file on both sides. -/
def Coupled (file : String) (held : List (View × View)) (w w' : Bool) : Prop :=
  w = w' ∧ ∀ e ∈ held, e.1 = e.2 ∧ e.1.region.path = file

omit [Label τ] in
/-- Nothing that an inspector by knowledge does with segments changes its world, which is its
switch. -/
theorem spares_inspector (κ : Knowledge) (file : String) (P : Bool → Prop) :
    κ.inspector.Spares file fun _ w => P w where
  openRegion _ region _ env hP := by
    change ending _ _ ((κ.opening ⟨region, env.world⟩).map fun _ => _) env.world
    cases κ.opening ⟨region, env.world⟩ <;> exact hP
  prefetch _ v _ addresses := Act.keeps_result (κ.prefetching v addresses)
  lookup _ v _ address := Act.keeps_result (κ.frames v address)
  close _ v _ := Act.meets_mono (Act.keeps_result (κ.closing v)) (fun _ hP => hP)
    (fun _ _ hP => hP) fun _ _ _ => trivial

omit [Label τ] in
/-- Inspectors that know the same of a file answer alike about it. -/
theorem AgreesOn.alikeOn {κ κ' : Knowledge} (h : κ.AgreesOn κ' file) :
    κ.inspector.AlikeOn κ'.inspector file fun held _ _ => Coupled file held where
  left held _ w' := κ.spares_inspector file fun w => Coupled file held w w'
  right held _ w := κ'.spares_inspector file (Coupled file held w)
  entry := by
    rintro fast ⟨w, notices⟩ ⟨_, notices'⟩ ⟨rfl, hheld⟩
    cases fast <;> exact ⟨rfl, hheld⟩
  openRegion := by
    rintro held others others' region hpath ⟨w, notices⟩ ⟨_, notices'⟩ ⟨rfl, hheld⟩
    have hopening := h.opening ⟨region, w⟩ hpath
    have hrun (κ : Knowledge) (notices : List Notice) :
        (κ.inspector.openRegion region).run ⟨w, notices⟩ =
          ((κ.opening ⟨region, w⟩).map fun _ => ⟨region, w⟩, ⟨w, notices⟩) := rfl
    rw [hrun, hrun, ← hopening]
    cases κ.opening ⟨region, w⟩ with
    | error fault => exact ⟨rfl, rfl, hheld⟩
    | ok buildId =>
        refine ⟨congrArg (fun r => r.toOption.getD "") hopening, rfl, fun e he => ?_⟩
        rcases List.mem_append.mp he with he | he
        · exact hheld e he
        · rw [List.mem_singleton.mp he]
          exact ⟨rfl, hpath⟩
  prefetch := by
    rintro held others others' ⟨v, v'⟩ he addresses env env' hcoupled
    obtain ⟨rfl, hpath⟩ : v = v' ∧ v.region.path = file := hcoupled.2 _ he
    exact Act.alike_result (fun _ _ _ hP => hP) (congrFun (h.prefetching v hpath) addresses)
      env env' hcoupled
  lookup := by
    rintro held others others' ⟨v, v'⟩ he address env env' hcoupled
    obtain ⟨rfl, hpath⟩ : v = v' ∧ v.region.path = file := hcoupled.2 _ he
    exact Act.alike_result
      (Q := fun frames frames' w w' => frames = frames' ∧ Coupled file held w w')
      (fun _ _ _ hP => ⟨rfl, hP⟩) (congrFun (h.frames v hpath) address) env env' hcoupled
  close := by
    rintro before e after others others' env closed env' closed' hclose hclose' ⟨hworld, hheld⟩
    obtain rfl := congrArg Prod.snd hclose
    obtain rfl := congrArg Prod.snd hclose'
    refine ⟨hworld, fun e' he' => hheld e' ?_⟩
    simp only [List.mem_append, List.mem_cons] at he' ⊢
    tauto

end Knowledge

/-- What is known of a program and of its library, which may be there or not. -/
def programAnd (library : Except Fault String) : Knowledge where
  opening v := if v.region.path = "/lib/m.so" then library else .ok ""
  prefetching _ _ := .ok ()
  frames v _ :=
    if v.region.path = "/lib/m.so" then .ok [{ func := "sqrt" }]
    else .ok [{ func := "inner", file := "a.c", line := 3 }, { func := "main", line := 9 }]
  closing _ := .ok ()

/-- A profile of a library and of the program that uses it. -/
def libraryCall : Profile where
  mappings := [{ id := 1, file := "/lib/m.so", buildId := "" },
    { id := 2, file := "/bin/a", buildId := "" }]
  locations :=
    [{ id := 1, address := 0x10, mapping := some 0 },
      { id := 2, address := 0x20, mapping := some 1 }]

/-- With the library, its function comes first and the others have greater ids; the program is seen
as it is without. -/
theorem agree_symbolizeLocally_libraryCall :
    let missing := Fault.objectOpen (.other "no such library")
    let A := (programAnd (.ok "")).inspector
    let B := (programAnd (.error missing)).inspector
    let q := (libraryCall.symbolizeLocally A false false { world := false }).1.1
    let q' := (libraryCall.symbolizeLocally B false false { world := false }).1.1
    q.locations.map (·.lines) = [[⟨0, 0⟩], [⟨1, 3⟩, ⟨2, 9⟩]] ∧
      q'.locations.map (·.lines) = [[], [⟨0, 3⟩, ⟨1, 9⟩]] ∧
      q.mappings[1]? = q'.mappings[1]? ∧
      ∀ (k : Nat) (l : Location), libraryCall.locations[k]? = some l → l.mapping = some 1 →
        ∃ l₁ l₂, q.locations[k]? = some l₁ ∧ q'.locations[k]? = some l₂ ∧
          q.calls l₁ = q'.calls l₂ := by
  intro missing A B q q'
  have hlines : q.locations.map (·.lines) = [[⟨0, 0⟩], [⟨1, 3⟩, ⟨2, 9⟩]] := by decide +kernel
  have hlines' : q'.locations.map (·.lines) = [[], [⟨0, 3⟩, ⟨1, 9⟩]] := by decide +kernel
  have hknown : (programAnd (.ok "")).AgreesOn (programAnd (.error missing)) "/bin/a" := by
    constructor <;> intro v hv
    · simp [programAnd, hv]
    · rfl
    · rfl
  have hp : libraryCall.WellFormed := ⟨by decide, by decide⟩
  exact ⟨hlines, hlines',
    agree_symbolizeLocally hknown.alikeOn hp ⟨rfl, nofun⟩ (by rfl) (by rfl) rfl (by decide +kernel)⟩

end Symbolication
