import Symbolication.Proofs.Name.Settling
import Symbolication.Proofs.Pass.Stages
import Symbolication.Proofs.Pass.Knowledge
import Symbolication.Proofs.Profile.Growth

/-!
# Symbolication.Proofs.Pass.Repetition

Doing again what has been done.  Where inspectors and decoders of names always give the
same answers, a run that looks into the binaries leaves nothing for another one to do: a
mapping in which something was found has got a flag and is not opened again, in the
others nothing is found again, and functions have the names they get.

* `Knowledge.IsExhausted` — a pass finds nothing;
* `Knowledge.isExhausted_resolve` — so it is when what was found has been entered;
* `Knowledge.Allows.grows` — what breaks off no pass breaks off none later;
* `Toolkit.symbolize_symbolize` — a second run returns and leaves the profile as it is.
-/

namespace Symbolication

variable {ω η τ : Type} [Label τ]

/-! ## profiles that have grown -/

omit [Label τ] in
/-- A grown profile has the same addresses in each mapping. -/
theorem ProfileOf.Grows.addressesIn {p q : ProfileOf τ} (h : p.Grows q) (i : Nat) :
    q.addressesIn i = p.addressesIn i := by
  have hplaces (r : ProfileOf τ) :
      r.addressesIn i =
        ((r.locations.map Location.place).filter (·.2.2 == some i)).map (·.2.1) := by
    rw [List.filter_map, List.map_map]
    rfl
  rw [hplaces, hplaces, h.locations]

omit [Label τ] in
/-- A mapping that is not symbolized after it gained was not before. -/
theorem MappingOf.Gains.isSymbolized {m m' : MappingOf τ} (h : m.Gains m')
    (hnot : m'.isSymbolized = false) : m.isSymbolized = false := by
  have hfunctions := h.hasFunctions
  have hfilenames := h.hasFilenames
  have hlines := h.hasLineNumbers
  simp only [MappingOf.isSymbolized, Bool.or_eq_false_iff] at hnot ⊢
  grind

namespace Knowledge

variable {κ : Knowledge} {fast : Bool} {p q : ProfileOf τ}

/-- A mapping for which something has been found has no turn any more, and any other one has the
same as before. -/
theorem turn_grows (κ : Knowledge) (fast : Bool) (h : p.Grows q) {i : Nat}
    {m m' : MappingOf τ} (hm : m.Gains m') :
    κ.turn fast false q i m' = .ok none ∨
      m'.isSymbolized = false ∧ κ.turn fast false q i m' = κ.turn fast false p i m := by
  cases hsymbolized : m'.isSymbolized with
  | true =>
      refine .inl ?_
      unfold turn ProfileOf.standing
      rw [hsymbolized]
      cases q.refersTo i <;> rfl
  | false =>
      refine .inr ⟨rfl, ?_⟩
      have hbefore := hm.isSymbolized hsymbolized
      have hstanding : q.standing false i m' = p.standing false i m := by
        unfold ProfileOf.standing
        rw [ProfileOf.refersTo_of_places h.locations, hsymbolized, hbefore, hm.same]
      unfold turn
      rw [hstanding, hm.same]
      rfl

/-- What is seen of the grown profile was seen before, in mappings that are still to be symbolized.
-/
theorem viewAt?_grows (h : p.Grows q) {i : Nat} {v : View}
    (hv : κ.viewAt? fast false q i = some v) :
    κ.viewAt? fast false p i = some v ∧
      ∃ m', q.mappings[i]? = some m' ∧ m'.isSymbolized = false := by
  obtain ⟨m', hm', hview⟩ := Option.bind_eq_some_iff.mp hv
  obtain ⟨m, hm, hgains⟩ := h.exists_mapping hm'
  rcases turn_grows κ fast h hgains with hnone | ⟨hnot, hsame⟩
  · rw [hnone] at hview
    cases hview
  · rw [hsame] at hview
    exact ⟨Option.bind_eq_some_iff.mpr ⟨m, hm, hview⟩, m', hm', hnot⟩

/-- What breaks off no pass breaks off none later. -/
theorem Allows.grows (hp : κ.Allows fast false p) (h : p.Grows q) : κ.Allows fast false q where
  opening := by
    intro i m' hm'
    obtain ⟨m, hm, hgains⟩ := h.exists_mapping hm'
    rcases turn_grows κ fast h hgains with hnone | ⟨-, hsame⟩
    · exact .of_ok hnone
    · rw [hsame]
      exact hp.opening i m hm
  prefetching := by
    intro i v hv
    rw [h.addressesIn]
    exact hp.prefetching i v (viewAt?_grows h hv).1
  frames := by
    intro l' hl' v hv
    obtain ⟨l, hl, haddress, hmapping⟩ := h.exists_location hl'
    obtain ⟨i, hi, hview⟩ := Option.bind_eq_some_iff.mp hv
    rw [← haddress]
    refine hp.frames l hl v (Option.bind_eq_some_iff.mpr ⟨i, ?_, (viewAt?_grows h hview).1⟩)
    rw [hmapping, hi]
  closing i v hv := hp.closing i v (viewAt?_grows h hv).1

/-! ## what is left to be found -/

/-- A stack that is not empty says something. -/
def IsInformative (κ : Knowledge) : Prop :=
  ∀ v address frames, κ.frames v address = .ok frames → frames ≠ [] →
    ∃ f ∈ frames, f.func ≠ "" ∨ f.file ≠ "" ∨ f.line ≠ 0

/-- A pass finds nothing. -/
def IsExhausted (κ : Knowledge) (fast : Bool) (p : ProfileOf τ) : Prop :=
  ∀ frames ∈ κ.foundIn fast false p, frames = []

/-- What is found in a mapping is found no more when it has been entered. -/
theorem isExhausted_resolve (hκ : κ.IsInformative) (fast : Bool) (p : ProfileOf τ) :
    κ.IsExhausted fast (p.resolve (κ.foundIn fast false p)) := by
  generalize hfound : κ.foundIn fast false p = found
  have hlength : found.length = p.locations.length := by rw [← hfound, foundIn, List.length_map]
  have hresolved := resolved_resolve p hlength
  have hgrows := (becomes_resolve p found).1
  intro frames hframes
  obtain ⟨l', hl', rfl⟩ := List.mem_map.mp hframes
  rw [stackAt, stackIn]
  cases hview : l'.mapping.bind (κ.viewAt? fast false (p.resolve found)) with
  | none => rfl
  | some v =>
      obtain ⟨i, hi, hv⟩ := Option.bind_eq_some_iff.mp hview
      obtain ⟨hbefore, m', hm', hnot⟩ := viewAt?_grows hgrows hv
      obtain ⟨l, hl, haddress, hmapping⟩ := hgrows.exists_location hl'
      rw [hi] at hmapping
      change (κ.frames v l'.address).toOption.getD [] = []
      cases hframes : κ.frames v l'.address with
      | error fault => rfl
      | ok frames =>
          by_contra hne
          change frames ≠ [] at hne
          -- the stack was found before, so that the mapping has a flag and is not looked at again
          have hstack : κ.stackAt fast false p l = frames := by
            rw [stackAt, stackIn, hmapping, Option.bind_some, hbefore, haddress]
            simp only [hframes]
            rfl
          obtain ⟨k, hk⟩ := List.mem_iff_getElem?.mp hl
          have hfoundIn : p.FoundIn found i frames := by
            refine ⟨hne, k, l, hk, hmapping, ?_⟩
            rw [← hfound, foundIn, List.getElem?_map, hk, ← hstack]
            rfl
          obtain ⟨m, hm, -⟩ := hgrows.exists_mapping hm'
          obtain ⟨m'', hm'', hlearns⟩ := hresolved.learnt i m hm
          rw [hm', Option.some.injEq] at hm''
          subst hm''
          obtain ⟨f, hf, hsays⟩ := hκ v _ frames hframes hne
          have hsymbolized : m'.isSymbolized = true := by
            simp only [MappingOf.isSymbolized, Bool.or_eq_true]
            rcases hsays with hfunc | hfile | hline
            · exact .inl (.inl (hlearns.hasFunctions.mpr (.inr ⟨frames, hfoundIn, f, hf, hfunc⟩)))
            · exact .inl (.inr (hlearns.hasFilenames.mpr (.inr ⟨frames, hfoundIn, f, hf, hfile⟩)))
            · exact .inr (hlearns.hasLineNumbers.mpr (.inr ⟨frames, hfoundIn, f, hf, hline⟩))
          rw [hnot] at hsymbolized
          cases hsymbolized

/-- What a pass finds does not depend on functions. -/
theorem IsExhausted.withFunctions (h : κ.IsExhausted fast p) (functions : List (FunctionOf τ)) :
    κ.IsExhausted fast { p with functions } :=
  h

end Knowledge

/-! ## the pass with its switch -/

/-- The way in which a pass looks at regions, where the switch stands so before it. -/
def Inspector.way (inspector : Inspector ω η) (fast on : Bool) : Bool :=
  (fast && inspector.fastSwitch?.isSome) || on

/-- The local pass resolves what is known to be found, unless it is not allowed. -/
theorem meets_symbolizeLocally {inspector : Inspector ω η} {κ : Knowledge}
    {I : Bool → List (η × View) → ω → Prop} (h : inspector.Knows κ I) (force fast on : Bool)
    (p : ProfileOf τ) :
    Step.Meets (I on []) (p.symbolizeLocally inspector force fast)
      (fun r => ending
        (fun _ w => (κ.Allows (inspector.way fast on) force p ∧ r.1 = p.resolve
          (κ.foundIn (inspector.way fast on) force p)) ∧ I on [] w)
        (fun _ _ => ¬ κ.Allows (inspector.way fast on) force p) r.2) := by
  unfold ProfileOf.symbolizeLocally Inspector.way
  cases fast with
  | false => exact meets_run h on force p
  | true =>
      cases hswitch : inspector.fastSwitch? with
      | none => exact meets_run h on force p
      | some switch =>
          have hset (on on' : Bool) := h.set switch hswitch on on'
          simp only
          refine Step.meets_bind (M := fun env w => switch.isOn env.world = on ∧ I on [] w)
            (fun env hw => ⟨h.isOn switch hswitch on _ hw, hw⟩) fun env => ?_
          refine Step.meets_and fun hon => ?_
          rw [hon]
          refine Step.meets_bind (hset on true) fun _ => ?_
          refine Step.meets_bind (meets_run h true force p) fun r => ?_
          obtain ⟨q, ended⟩ := r
          cases ended with
          | error fault =>
              exact Step.meets_bind (M := fun _ _ => ¬ κ.Allows true force p)
                (fun env hw => hw) fun _ => Step.meets_pure fun _ hw => hw
          | ok _ =>
              refine Step.meets_and fun hq => Step.meets_bind (hset true on) fun _ => ?_
              exact Step.meets_pure fun _ hw => ⟨hq, hw⟩

/-! ## running twice -/

namespace Toolkit

open Directive

variable {s : Toolkit ω η} {text : Option String} {d : Directive} {sources : SourcesOf τ}
  {p q : ProfileOf τ} {env env' : Env ω}

/-- Where the local pass returns, nothing but naming follows. -/
theorem apply_of_returned (h : Reads text d) (hplace : place? text ≠ some .servers)
    (hpass : p.symbolizeLocally s.inspector d.force d.fast env = ((q, .ok ()), env')) :
    s.apply d sources p env = q.displayNames s.demangler d.force d.style env' := by
  have hlocal : d.tryLocal = true := by simp [h.tryLocal, hplace]
  rw [apply_eq h.skip, Step.bind_apply, runLocal, hlocal, if_neg (by simp), Step.bind_apply, hpass]
  rfl

variable {κ : Knowledge} {I : Bool → List (η × View) → ω → Prop} {fast on : Bool}

/-- A local pass returns only if nothing breaks it off. -/
theorem allows_of_returned (hinspector : s.inspector.Knows κ I) (hworld : I on [] env.world)
    (hpass : (p.symbolizeLocally s.inspector false fast env).1.2 = .ok ()) :
    κ.Allows (s.inspector.way fast on) false p := by
  have hmeets := meets_symbolizeLocally hinspector false fast on p env hworld
  simp only [hpass, ending_ok] at hmeets
  exact hmeets.1.1

/-- If nothing breaks off the local pass, the run enters what there is to be found, and names
functions. -/
theorem symbolize_of_allows (sources : SourcesOf τ) (hinspector : s.inspector.Knows κ I)
    (hreads : Reads text d) (hd : d = (parse text).1) (hplace : place? text ≠ some .servers)
    (hforce : forces text = false) (hworld : I on [] env.world)
    (hallows : κ.Allows (s.inspector.way d.fast on) false p) :
    ∃ env₁, I on [] env₁.world ∧ s.symbolize text sources p env =
      let r := (p.resolve (κ.foundIn (s.inspector.way d.fast on) false p)).displayNames s.demangler
        false d.style env₁
      ((r.1.1, r.1.2.map fun _ => d), r.2) := by
  have hnoforce : d.force = false := by rw [hreads.force, hforce]
  have hmeets := meets_symbolizeLocally hinspector false d.fast on p
    (env.noting (complaints text)) hworld
  cases hrun : p.symbolizeLocally s.inspector false d.fast (env.noting (complaints text)) with
  | mk r env₁ =>
      obtain ⟨q₁, ended⟩ := r
      rw [hrun] at hmeets
      cases ended with
      | error fault => exact absurd hallows hmeets
      | ok _ =>
          obtain ⟨⟨-, hq₁⟩, hworld₁⟩ := hmeets
          refine ⟨env₁, hworld₁, ?_⟩
          rw [← hnoforce] at hrun
          rw [symbolize_apply, ← hd, apply_of_returned hreads hplace hrun, hnoforce, ← hq₁]

/-- A run that looks into the binaries, and that does not begin anew, has done all there is to do if
its local pass returns: once more, it returns and leaves the profile as it is. -/
theorem symbolize_symbolize {decode : String → List NameOption → Except Fault String}
    (hinspector : s.inspector.Knows κ I) (hκ : κ.IsInformative)
    (hdemangler : s.demangler.Knows decode (I on []))
    (hoff : ¬ IsCalledOff text) (hplace : place? text ≠ some .servers)
    (hforce : forces text = false) (hworld : I on [] env.world)
    (hpass : (p.symbolizeLocally s.inspector false (place? text == some .symbolTables)
      (env.noting (complaints text))).1.2 = .ok ())
    (hfirst : s.symbolize text sources p env = ((q, .ok d), env')) :
    (s.symbolize text sources q env').1 = (q, .ok d) := by
  have hreads := reads_parse hoff
  rw [← hreads.fast hplace] at hpass
  generalize hparse : (parse text).1 = d' at hreads hpass
  have hnoted : I on [] (env.noting (complaints text)).world := hworld
  have hallows := allows_of_returned hinspector hnoted hpass
  obtain ⟨env₁, hworld₁, hrun⟩ := symbolize_of_allows sources hinspector hreads
    hparse.symm hplace hforce hworld hallows
  have hexhausted := Knowledge.isExhausted_resolve hκ (s.inspector.way d'.fast on) p
  have hresolve := (becomes_resolve p (κ.foundIn (s.inspector.way d'.fast on) false p)).1
  rw [hrun] at hfirst
  generalize p.resolve (κ.foundIn (s.inspector.way d'.fast on) false p) = q₁
    at hfirst hexhausted hresolve
  have hnames := meets_displayNames hdemangler d'.style q₁ env₁ hworld₁
  have hrename := (becomes_displayNames s.demangler false d'.style q₁ env₁).1
  cases hdisplay : q₁.displayNames s.demangler false d'.style env₁ with
  | mk r env₂ =>
      obtain ⟨q₂, ended⟩ := r
      rw [hdisplay] at hfirst hnames hrename
      cases ended with
      | error fault => cases hfirst
      | ok _ =>
          cases hfirst
          obtain ⟨⟨⟨functions, hq⟩, hsettled⟩, hworld₂⟩ := hnames
          simp only at hq hsettled hrename
          have hnothing : κ.IsExhausted (s.inspector.way d'.fast on) q₂ := by
            rw [hq]
            exact hexhausted.withFunctions functions
          obtain ⟨env₃, hworld₃, hrun⟩ := symbolize_of_allows sources hinspector
            hreads hparse.symm hplace hforce hworld₂ (hallows.grows (hresolve.trans hrename))
          rw [hrun, resolve_nil q₂ hnothing]
          have hsame := meets_displayNames_of_settled hdemangler d'.style hsettled env₃ hworld₃
          simp only [hsame.1]
          rfl

end Toolkit

/-- A program with two functions and a place that cannot be looked up, and a library of which
nothing is known. The faster way gives no lines. -/
def twoFunctions : Knowledge where
  opening v :=
    if v.region.path = "/bin/gone" then
      .error (.objectOpen (.unreadable v.region.path (.notFound v.region.path)))
    else .ok ""
  prefetching _ _ := .ok ()
  frames v address :=
    match address with
    | 0x10 => .ok [{ func := "_Zf", line := if v.fast then 0 else 3 }]
    | 0x20 => .ok [{ func := "_Zg" }]
    | 0x30 => .error (.lookup (.closed v.region.path))
    | _ => .ok []
  closing _ := .ok ()

/-- The decoder knows two names, and has no text for one of them. -/
def decodeTwo (name : String) (_ : List NameOption) : Except Fault String :=
  .ok (if name = "_Zf" then "f" else if name = "_Zg" then "" else name)

/-- Tools that work with what is known of `twoFunctions`. -/
def quietToolkit : Toolkit Bool View where
  inspector := twoFunctions.inspector
  post _ _ := throw .noServers
  demangler name options := ExceptT.mk (pure (decodeTwo name options))

/-- A profile of the program, the library, and a file that is gone. -/
def quietProfile : Profile where
  mappings :=
    [{ id := 1, file := "/bin/app", buildId := "" },
      { id := 2, file := "/lib/l.so", buildId := "" },
      { id := 3, file := "/bin/gone", buildId := "" }]
  locations :=
    [{ id := 1, address := 0x10, mapping := some 0 },
      { id := 2, address := 0x20, mapping := some 0 },
      { id := 3, address := 0x30, mapping := some 0 },
      { id := 4, address := 0x40, mapping := some 1 },
      { id := 5, address := 0x50, mapping := some 2 }]

/-- The second run opens the library again and asks for the function whose name is empty, and finds
nothing new. -/
theorem symbolize_symbolize_fastlocal :
    let first := quietToolkit.symbolize (some "fastlocal") [] quietProfile { world := false }
    first.1.2 = .ok (Directive.parse (some "fastlocal")).1 ∧
      first.1.1.functions.map (·.name) = ["f", ""] ∧
      (quietToolkit.symbolize (some "fastlocal") [] first.1.1 first.2).1 =
        (first.1.1, .ok (Directive.parse (some "fastlocal")).1) := by
  intro first
  have hreturns : first.1.2 = .ok (Directive.parse (some "fastlocal")).1 := by rfl
  have hnames : first.1.1.functions.map (·.name) = ["f", ""] := by decide +kernel
  have hinformative : twoFunctions.IsInformative := by
    intro v address frames hframes hne
    simp only [twoFunctions] at hframes
    split at hframes <;> cases hframes
    · exact ⟨_, List.mem_cons_self, .inl (by simp)⟩
    · exact ⟨_, List.mem_cons_self, .inl (by simp)⟩
    · exact absurd rfl hne
  have hoff : ¬ Directive.IsCalledOff (some "fastlocal") := by
    unfold Directive.IsCalledOff
    decide +kernel
  have hdemangler : quietToolkit.demangler.Knows decodeTwo
      (fun w => w = false ∧ ∀ e ∈ ([] : List (View × View)), e.1 = e.2) :=
    fun _ _ => Act.tells_result _ _
  refine ⟨hreturns, hnames, ?_⟩
  exact Toolkit.symbolize_symbolize twoFunctions.knows_inspector hinformative hdemangler hoff
    (by decide +kernel) (by decide +kernel) ⟨rfl, nofun⟩ (by rfl)
    (Prod.ext (Prod.ext rfl hreturns) rfl)

end Symbolication
