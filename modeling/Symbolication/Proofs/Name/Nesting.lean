import Symbolication.Proofs.Name.Decoding
import Symbolication.Proofs.Name.Removal

/-!
# Symbolication.Proofs.Name.Nesting

Names whose brackets are nested well, round and angle ones taken together.  Groups of either
kind can be removed from such a name: what is left is nested well again, so groups of the other
kind can be removed next, and what is left of both is what stands in no brackets at all.

* `Nested` — texts that are nested well;
* `surface` — what stands at depth zero, counting brackets of both kinds;
* `ungrouped_ungrouped_of_nested` — removing groups of one kind and then of the other;
* `getElem?_displayNames` — the name of a function that a tool leaves as it is;
* `nested_displayNames` — the names of functions that no tool has decoded.
-/

namespace Symbolication.Name

/-! ## brackets of two kinds -/

/-- The kinds of brackets in names of C++ functions. -/
inductive Bracket where
  /-- Brackets around parameters. -/
  | round
  /-- Brackets around template arguments. -/
  | angle
deriving DecidableEq

namespace Bracket

/-- The bracket that opens a group. -/
def opening : Bracket → Char
  | round => '('
  | angle => '<'

/-- The bracket that closes a group. -/
def closing : Bracket → Char
  | round => ')'
  | angle => '>'

theorem opening_ne_closing (k j : Bracket) : k.opening ≠ j.closing := by
  cases k <;> cases j <;> decide

theorem opening_ne {k j : Bracket} (h : k ≠ j) : k.opening ≠ j.opening := by
  revert h
  cases k <;> cases j <;> decide

theorem closing_ne {k j : Bracket} (h : k ≠ j) : k.closing ≠ j.closing := by
  revert h
  cases k <;> cases j <;> decide

/-- There are no more than two kinds. -/
theorem eq_of_ne {i j k : Bracket} (hi : i ≠ k) (hj : j ≠ k) : i = j := by
  revert hi hj
  cases i <;> cases j <;> cases k <;> decide

end Bracket

/-- The character is no bracket of either kind. -/
def IsPlain (x : Char) : Prop :=
  x ≠ '(' ∧ x ≠ ')' ∧ x ≠ '<' ∧ x ≠ '>'

instance (x : Char) : Decidable (IsPlain x) :=
  inferInstanceAs (Decidable (_ ∧ _))

theorem IsPlain.ne {x : Char} (h : IsPlain x) (k : Bracket) : x ≠ k.opening ∧ x ≠ k.closing := by
  obtain ⟨hround, hround', hangle, hangle'⟩ := h
  cases k
  · exact ⟨hround, hround'⟩
  · exact ⟨hangle, hangle'⟩

/-- The text is nested well in brackets of both kinds: every bracket is closed by one of its own
kind, and what stands between the two is nested well. -/
inductive Nested : List Char → Prop where
  /-- Nothing. -/
  | nil : Nested []
  /-- A character that is no bracket, in front of a text. -/
  | plain {x : Char} {rest : List Char} (hx : IsPlain x) (hrest : Nested rest) :
      Nested (x :: rest)
  /-- A text in brackets, in front of another one. -/
  | group (k : Bracket) {body rest : List Char} (hbody : Nested body) (hrest : Nested rest) :
      Nested (k.opening :: (body ++ k.closing :: rest))

/-- Characters that are no brackets, in front of a text. -/
theorem Nested.plains {text rest : List Char} (h : text.all fun x => decide (IsPlain x))
    (hrest : Nested rest) : Nested (text ++ rest) := by
  induction text with
  | nil => exact hrest
  | cons x text ih =>
      rw [List.all_cons, Bool.and_eq_true, decide_eq_true_eq] at h
      exact .plain h.1 (ih h.2)

/-! ## depth zero -/

/-- How many more brackets are opened than closed in a text, of both kinds together. -/
def nesting (text : List Char) : Int :=
  (text.count '(' + text.count '<' : Nat) - (text.count ')' + text.count '>' : Nat)

/-- The characters that are no brackets and stand at depth zero, in their order, where some brackets
are open in front of the text. -/
def surface (depth : Int) (text : List Char) : List Char :=
  (text.zipIdx.filter fun p =>
    decide (IsPlain p.1) && depth + nesting (text.take p.2) == 0).map Prod.fst

theorem isPlain_of_mem_surface {depth : Int} {text : List Char} :
    ∀ x ∈ surface depth text, IsPlain x := by
  intro x hx
  obtain ⟨p, hp, rfl⟩ := List.mem_map.mp hx
  have hkept := (List.mem_filter.mp hp).2
  exact of_decide_eq_true (Bool.and_eq_true_iff.mp hkept).1

theorem nesting_append (text rest : List Char) :
    nesting (text ++ rest) = nesting text + nesting rest := by
  simp only [nesting, List.count_append]
  omega

/-- Behind a part of a text, the depth is greater by what the part leaves open. -/
theorem surface_append (depth : Int) (text rest : List Char) :
    surface depth (text ++ rest) = surface depth text ++ surface (depth + nesting text) rest := by
  unfold surface
  rw [filter_zipIdx_append]
  simp only [List.take_length_add_append, nesting_append, Int.add_assoc]
  refine congrArg (List.map _ · ++ _) (List.filter_congr fun p hp => ?_)
  have hle : p.2 ≤ text.length := Nat.le_of_lt (by simpa using List.snd_lt_of_mem_zipIdx hp)
  simp only [List.take_append_of_le_length hle]

theorem surface_plain {x : Char} (hx : IsPlain x) (depth : Int) (rest : List Char) :
    surface depth (x :: rest) = (if depth = 0 then [x] else []) ++ surface depth rest := by
  have halone : surface depth [x] = if depth = 0 then [x] else [] := by
    by_cases hzero : depth = 0 <;> simp [surface, nesting, hzero, hx]
  have hlevel : nesting [x] = 0 := by
    obtain ⟨hround, hround', hangle, hangle'⟩ := hx
    simp [nesting, hround, hround', hangle, hangle']
  rw [← List.singleton_append, surface_append, halone, hlevel, Int.add_zero]

theorem surface_opening (k : Bracket) (depth : Int) (rest : List Char) :
    surface depth (k.opening :: rest) = surface (depth + 1) rest := by
  have halone : surface depth [k.opening] = [] := by
    cases k <;> simp [surface, IsPlain, Bracket.opening]
  have hlevel : nesting [k.opening] = 1 := by cases k <;> decide
  rw [← List.singleton_append, surface_append, halone, hlevel, List.nil_append]

theorem surface_closing (k : Bracket) (depth : Int) (rest : List Char) :
    surface depth (k.closing :: rest) = surface (depth - 1) rest := by
  have halone : surface depth [k.closing] = [] := by
    cases k <;> simp [surface, IsPlain, Bracket.closing]
  have hlevel : nesting [k.closing] = -1 := by cases k <;> decide
  rw [← List.singleton_append, surface_append, halone, hlevel, List.nil_append, Int.sub_eq_add_neg]

/-- Nothing of a text that is nested well stands at depth zero if it stands in brackets. -/
theorem surface_append_of_nested {text : List Char} (h : Nested text) {depth : Int}
    (hdepth : 0 < depth) (rest : List Char) :
    surface depth (text ++ rest) = surface depth rest := by
  induction h generalizing depth rest with
  | nil => rfl
  | plain hx _ ih =>
      rw [List.cons_append, surface_plain hx, if_neg (by omega), List.nil_append, ih hdepth]
  | @group k body inner _ _ ihbody ihrest =>
      rw [List.cons_append, List.append_assoc, List.cons_append, surface_opening,
        ihbody (by omega), surface_closing, Int.add_sub_cancel, ihrest hdepth]

/-- Nothing of a group stands at depth zero. -/
theorem surface_group (k : Bracket) {body : List Char} (h : Nested body) (rest : List Char) :
    surface 0 (k.opening :: (body ++ k.closing :: rest)) = surface 0 rest := by
  rw [surface_opening, surface_append_of_nested h (by omega), surface_closing, Int.add_sub_cancel]

/-! ## groups of one kind -/

/-- In a text that is nested well, groups of either kind are closed again. -/
theorem depthAfter_of_nested {text : List Char} (h : Nested text) (k : Bracket) (depth : Nat) :
    depthAfter k.opening k.closing depth text = some depth := by
  have hne := k.opening_ne_closing k
  induction h generalizing depth with
  | nil => exact depthAfter_nil depth
  | plain hx _ ih =>
      obtain ⟨hopening, hclosing⟩ := hx.ne k
      rw [depthAfter_other hopening hclosing, ih]
  | @group j body rest _ _ ihbody ihrest =>
      by_cases hj : j = k
      · subst hj
        rw [depthAfter_group hne (ihbody 0), ihrest]
      · rw [depthAfter_other (Bracket.opening_ne hj) (j.opening_ne_closing k),
          depthAfter_append hne, ihbody, Option.bind_some,
          depthAfter_other (k.opening_ne_closing j).symm (Bracket.closing_ne hj), ihrest]

theorem removeGroups_of_nested {text : List Char} (h : Nested text) (k : Bracket) :
    removeGroups k.opening k.closing text = ungrouped k.opening k.closing text := by
  rw [removeGroups_eq (k.opening_ne_closing k), depthAfter_of_nested h, Option.isSome_some,
    if_pos rfl]

/-- A group of another kind stays, without the groups in it. -/
theorem ungrouped_other_group {j k : Bracket} (hj : j ≠ k) {body : List Char} (h : Nested body)
    (rest : List Char) :
    ungrouped k.opening k.closing (j.opening :: (body ++ j.closing :: rest)) =
      j.opening :: (ungrouped k.opening k.closing body ++
        j.closing :: ungrouped k.opening k.closing rest) := by
  have hcount := count_of_depthAfter (k.opening_ne_closing k) (depthAfter_of_nested h k 0)
  rw [ungrouped_cons (Bracket.opening_ne hj) (j.opening_ne_closing k), ungrouped_append (by omega),
    ungrouped_cons (k.opening_ne_closing j).symm (Bracket.closing_ne hj)]

/-- Without its groups of one kind, a text that is nested well still is. -/
theorem nested_ungrouped {text : List Char} (h : Nested text) (k : Bracket) :
    Nested (ungrouped k.opening k.closing text) := by
  induction h with
  | nil => exact .nil
  | plain hx _ ih =>
      obtain ⟨hopening, hclosing⟩ := hx.ne k
      rw [ungrouped_cons hopening hclosing]
      exact .plain hx ih
  | @group j body rest hbody _ ihbody ihrest =>
      by_cases hj : j = k
      · subst hj
        rw [ungrouped_group (j.opening_ne_closing j) (depthAfter_of_nested hbody j 0)]
        exact ihrest
      · rw [ungrouped_other_group hj hbody]
        exact .group j ihbody ihrest

/-- Without its groups of one kind, and then without those of the other, just that is left of a text
which stands at depth zero. -/
theorem ungrouped_ungrouped_of_nested {text : List Char} (h : Nested text) {j k : Bracket}
    (hj : j ≠ k) :
    ungrouped j.opening j.closing (ungrouped k.opening k.closing text) = surface 0 text := by
  induction h with
  | nil => rfl
  | plain hx _ ih =>
      obtain ⟨hopening, hclosing⟩ := hx.ne k
      obtain ⟨hopening', hclosing'⟩ := hx.ne j
      rw [ungrouped_cons hopening hclosing, ungrouped_cons hopening' hclosing', ih,
        surface_plain hx, if_pos rfl, List.singleton_append]
  | @group i body rest hbody _ _ ih =>
      rw [surface_group i hbody, ← ih]
      by_cases hi : i = k
      · subst hi
        rw [ungrouped_group (i.opening_ne_closing i) (depthAfter_of_nested hbody i 0)]
      · -- a group of the other kind outlasts the first removal, and what is left of its body is
        -- nested well, so the second one takes it out
        obtain rfl : i = j := Bracket.eq_of_ne hi hj
        rw [ungrouped_other_group hi hbody, ungrouped_group (i.opening_ne_closing i)
          (depthAfter_of_nested (nested_ungrouped hbody k) i 0)]

/-! ## names -/

theorem removeTemplates_removeParameters {name : List Char} (h : Nested name) :
    removeTemplates (removeParameters name) = surface 0 name := by
  have hround := removeGroups_of_nested h .round
  have hangle := removeGroups_of_nested (nested_ungrouped h .round) .angle
  rw [ungrouped_ungrouped_of_nested h (by decide)] at hangle
  rw [removeParameters, removeTemplates, ← hangle, ← hround]
  rfl

theorem removeParameters_removeTemplates {name : List Char} (h : Nested name) :
    removeParameters (removeTemplates name) = surface 0 name := by
  have hangle := removeGroups_of_nested h .angle
  have hround := removeGroups_of_nested (nested_ungrouped h .angle) .round
  rw [ungrouped_ungrouped_of_nested h (by decide)] at hround
  rw [removeParameters, removeTemplates, ← hround, ← hangle]
  rfl

end Symbolication.Name

namespace Symbolication

open Name

variable {ω : Type} {demangler : Demangler ω} {style : NameStyle} {P : ω → Prop}

/-! ## functions -/

/-- A function whose name a tool leaves as it is gets the name that the style makes of it, whatever
comes of the functions behind it. -/
theorem nameFunctions_append {before : List Function} (after : List Function) {fn : Function}
    (hnamed : fn.isNamed = false)
    (hbefore : ∀ other ∈ before, Act.Meets P (demangler other.systemName style.options)
      (fun _ => P) (fun _ _ => False))
    (hsame : Act.Meets P (demangler fn.systemName style.options)
      (fun answer _ => answer = fn.systemName) (fun _ _ => False))
    {env : Env ω} (henv : P env.world) :
    ∃ before' after' ended env', nameFunctions demangler style (before ++ fn :: after) env =
        ((before' ++ fn.withName (String.ofList (simplify style fn.systemName.toList)) :: after',
          ended), env') ∧ before'.length = before.length := by
  induction before generalizing env with
  | nil =>
      have hanswer := hsame env henv
      cases hrun : (demangler fn.systemName style.options).run env with
      | mk r env' =>
          rw [hrun] at hanswer
          cases r with
          | error fault => exact hanswer.elim
          | ok answer =>
              obtain rfl : answer = fn.systemName := hanswer
              cases hrest : nameFunctions demangler style after env' with
              | mk named env'' =>
                  obtain ⟨after', ended⟩ := named
                  obtain ⟨count, hnames⟩ := nameFunctions_of_ok hnamed hrun hrest
                  rw [NameStyle.displayName, if_neg (by simp)] at hnames
                  exact ⟨[], after', _, env'', hnames, rfl⟩
  | cons other before ih =>
      obtain ⟨hother, hbefore⟩ := List.forall_mem_cons.mp hbefore
      cases hskip : other.isNamed with
      | true =>
          obtain ⟨before', after', ended, env', hrest, hlength⟩ := ih hbefore henv
          exact ⟨other :: before', after', ended, env', nameFunctions_of_isNamed hskip hrest,
            congrArg (· + 1) hlength⟩
      | false =>
          have hanswer := hother env henv
          cases hrun : (demangler other.systemName style.options).run env with
          | mk r env' =>
              rw [hrun] at hanswer
              cases r with
              | error fault => exact hanswer.elim
              | ok answer =>
                  obtain ⟨before', after', ended, env'', hrest, hlength⟩ := ih hbefore hanswer
                  obtain ⟨count, hnames⟩ := nameFunctions_of_ok hskip hrun hrest
                  exact ⟨_ :: before', after', _, env'', hnames, congrArg (· + 1) hlength⟩

/-- The function as it is when naming comes to it. -/
def FunctionOf.atStart (force : Bool) (fn : Function) : Function :=
  if force then fn.resetName else fn

theorem functions_atStart (force : Bool) (p : Profile) :
    (if force then p.resetNames else p).functions = p.functions.map (FunctionOf.atStart force) := by
  cases force
  · exact (List.map_id _).symm
  · rfl

theorem systemName_atStart (force : Bool) (fn : Function) :
    (fn.atStart force).systemName = fn.systemName := by
  cases force
  · rfl
  · exact fn.system_resetName.2.1

theorem withName_atStart (force : Bool) (fn : Function) (name : String) :
    (fn.atStart force).withName name = { fn with name } := by
  cases force
  · rfl
  · rw [FunctionOf.atStart, if_pos rfl, FunctionOf.resetName]
    split <;> rfl

theorem isNamed_eq_false {fn : Function} (h : fn.name = "" ∨ fn.name = fn.systemName) :
    fn.isNamed = false := by
  have hsame : Label.same fn.systemName fn.systemName = true := beq_self_eq_true fn.systemName
  rcases h with h | h
  · rw [FunctionOf.isNamed, h]
    rfl
  · rw [FunctionOf.isNamed, h, hsame, Bool.not_true, Bool.and_false]

/-- A function is named if naming begins anew, or if it has no name other than the reported one. -/
theorem isNamed_atStart {fn : Function} {force : Bool} (hsystem : fn.systemName ≠ "")
    (hname : force = true ∨ fn.name = "" ∨ fn.name = fn.systemName) :
    (fn.atStart force).isNamed = false := by
  cases force with
  | false => exact isNamed_eq_false (hname.resolve_left Bool.false_ne_true)
  | true =>
      refine isNamed_eq_false ?_
      rw [FunctionOf.atStart, if_pos rfl, FunctionOf.resetName]
      split
      · exact .inr rfl
      · rename_i hempty
        have hsome : Label.isEmpty fn.systemName = false := by
          rw [← Bool.not_eq_true]
          exact fun h => hsystem (String.isEmpty_iff.mp h)
        rw [hsome, Bool.not_false, Bool.and_true, Bool.not_eq_true', Bool.not_eq_false] at hempty
        exact .inl (String.isEmpty_iff.mp hempty)

/-- A function that naming comes to, and whose name a tool leaves as it is, is shown by the name
that the style makes of it. -/
theorem getElem?_displayNames {force : Bool} {p : Profile} {before after : List Function}
    {fn : Function} (hp : p.functions = before ++ fn :: after) (hsystem : fn.systemName ≠ "")
    (hname : force = true ∨ fn.name = "" ∨ fn.name = fn.systemName) (hstyle : style ≠ .system)
    (hbefore : ∀ other ∈ before, Act.Meets P (demangler other.systemName style.options)
      (fun _ => P) (fun _ _ => False))
    (hsame : Act.Meets P (demangler fn.systemName style.options)
      (fun answer _ => answer = fn.systemName) (fun _ _ => False))
    {env : Env ω} (henv : P env.world) :
    (p.displayNames demangler force style env).1.1.functions[before.length]? =
      some { fn with name := String.ofList (simplify style fn.systemName.toList) } := by
  have hbefore' : ∀ other ∈ before.map (FunctionOf.atStart force),
      Act.Meets P (demangler other.systemName style.options) (fun _ => P) (fun _ _ => False) := by
    intro other hother
    obtain ⟨old, hold, rfl⟩ := List.mem_map.mp hother
    rw [systemName_atStart]
    exact hbefore old hold
  obtain ⟨before', after', ended, env', hrun, hlength⟩ :=
    nameFunctions_append (after.map (FunctionOf.atStart force)) (isNamed_atStart hsystem hname)
      hbefore' (by rwa [systemName_atStart]) henv
  have hfunctions : (if force then p.resetNames else p).functions =
      before.map (FunctionOf.atStart force) ++
        fn.atStart force :: after.map (FunctionOf.atStart force) := by
    rw [functions_atStart, hp, List.map_append, List.map_cons]
  rw [← hfunctions] at hrun
  obtain ⟨ns, hafter⟩ := displayNames_of_nameFunctions hstyle hrun
  rw [List.length_map] at hlength
  rw [hafter, ← hlength, withName_atStart, systemName_atStart]
  simp

/-- A function that no tool has decoded, whose reported name is nested well and looks like a decoded
one, is shown by the characters at depth zero, in the style with template arguments by those in no
parameter list, and in full by the reported name.  It does not matter whether parameters or template
arguments are removed first. -/
theorem nested_displayNames {force : Bool} {p : Profile} {before after : List Function}
    {fn : Function} (hp : p.functions = before ++ fn :: after)
    (hnested : Nested fn.systemName.toList) (hlooks : looksDecoded fn.systemName.toList = true)
    (hname : force = true ∨ fn.name = "" ∨ fn.name = fn.systemName) (hstyle : style ≠ .system)
    (hbefore : ∀ other ∈ before, Act.Meets P (demangler other.systemName style.options)
      (fun _ => P) (fun _ _ => False))
    (hsame : Act.Meets P (demangler fn.systemName style.options)
      (fun answer _ => answer = fn.systemName) (fun _ _ => False))
    {env : Env ω} (henv : P env.world) :
    let system := fn.systemName.toList
    removeTemplates (removeParameters system) = removeParameters (removeTemplates system) ∧
      ∃ name, (p.displayNames demangler force style env).1.1.functions[before.length]? =
          some { fn with name } ∧
        (style = .simple → name.toList = surface 0 system ∧ ∀ x ∈ name.toList, IsPlain x) ∧
        (style = .templates → name.toList = ungrouped '(' ')' system) ∧
        (style = .full → name = fn.systemName) := by
  have hboth := removeTemplates_removeParameters hnested
  have hround : removeParameters fn.systemName.toList = ungrouped '(' ')' fn.systemName.toList :=
    removeGroups_of_nested hnested .round
  have hsystem : fn.systemName ≠ "" := by
    intro h
    rw [h] at hlooks
    exact absurd hlooks (by decide)
  refine ⟨hboth.trans (removeParameters_removeTemplates hnested).symm,
    String.ofList (simplify style fn.systemName.toList),
    getElem?_displayNames hp hsystem hname hstyle hbefore hsame henv, ?_, ?_, ?_⟩
  · rintro rfl
    rw [String.toList_ofList, simplify, if_pos hlooks, hboth]
    exact ⟨rfl, isPlain_of_mem_surface⟩
  · rintro rfl
    rw [String.toList_ofList, simplify, if_pos hlooks, hround]
  · rintro rfl
    rw [simplify, if_pos hlooks, String.ofList_toList]

/-- A decoder that knows one name. -/
def mainDecoder : Demangler Unit := fun name _ =>
  pure (if name = "_Z4mainv" then "main" else name)

theorem nested_foo : Nested "Foo<A(B)>::f(C<d>)".toList := by
  have hparts : "Foo<A(B)>::f(C<d>)".toList =
      "Foo".toList ++ Bracket.angle.opening ::
        (("A".toList ++ Bracket.round.opening :: ("B".toList ++ Bracket.round.closing :: [])) ++
          Bracket.angle.closing :: ("::f".toList ++ Bracket.round.opening ::
            (("C".toList ++ Bracket.angle.opening :: ("d".toList ++ Bracket.angle.closing :: [])) ++
              Bracket.round.closing :: []))) := by
    decide
  have hplain : ∀ x : Char, IsPlain x → Nested [x] := fun _ hx => .plain hx .nil
  have htemplate : Nested ("A".toList ++ Bracket.round.opening ::
      ("B".toList ++ Bracket.round.closing :: [])) :=
    .plain (by decide) (.group .round (hplain 'B' (by decide)) .nil)
  have hparameter : Nested ("C".toList ++ Bracket.angle.opening ::
      ("d".toList ++ Bracket.angle.closing :: [])) :=
    .plain (by decide) (.group .angle (hplain 'd' (by decide)) .nil)
  rw [hparts]
  exact .plains (by decide)
    (.group .angle htemplate (.plains (by decide) (.group .round hparameter .nil)))

/-- The name of a function behind one that is decoded, with a parameter list in its template
arguments and template arguments in its parameter list. -/
theorem nested_displayNames_foo :
    let shown style := ((reported ["_Z4mainv", "Foo<A(B)>::f(C<d>)"]).displayNames mainDecoder false
      style ⟨(), []⟩).1.1.functions[1]?.map (·.name)
    shown .simple = some "Foo::f" ∧ shown .templates = some "Foo<A>::f" ∧
      shown .full = some "Foo<A(B)>::f(C<d>)" := by
  have hfunctions : (reported ["_Z4mainv", "Foo<A(B)>::f(C<d>)"]).functions =
      (reported ["_Z4mainv"]).functions ++
        ⟨1, "Foo<A(B)>::f(C<d>)", "Foo<A(B)>::f(C<d>)", ""⟩ :: [] := rfl
  have hends : ∀ style : NameStyle, ∀ other ∈ (reported ["_Z4mainv"]).functions,
      Act.Meets (fun _ => True) (mainDecoder other.systemName style.options)
        (fun _ _ => True) (fun _ _ => False) := fun _ _ _ _ _ => trivial
  have hsame : ∀ style : NameStyle, Act.Meets (fun _ => True)
      (mainDecoder "Foo<A(B)>::f(C<d>)" style.options)
      (fun answer _ => answer = "Foo<A(B)>::f(C<d>)") (fun _ _ => False) := fun _ _ _ => rfl
  have hshown {style : NameStyle} (hstyle : style ≠ .system) :=
    (nested_displayNames hfunctions nested_foo (by decide) (.inr (.inr rfl)) hstyle (hends style)
      (hsame style) trivial : _ ∧ ∃ name, ((reported _).displayNames mainDecoder false style
        ⟨(), []⟩).1.1.functions[1]? = _ ∧ _)
  refine ⟨?_, ?_, ?_⟩
  · obtain ⟨-, name, hat, hsimple, -⟩ := hshown (show NameStyle.simple ≠ .system by decide)
    have hname : name = "Foo::f" := String.toList_inj.mp ((hsimple rfl).1.trans (by decide))
    exact (congrArg (Option.map (·.name)) hat).trans (congrArg some hname)
  · obtain ⟨-, name, hat, -, htemplates, -⟩ :=
      hshown (show NameStyle.templates ≠ .system by decide)
    have hname : name = "Foo<A>::f" := String.toList_inj.mp ((htemplates rfl).trans (by decide))
    exact (congrArg (Option.map (·.name)) hat).trans (congrArg some hname)
  · obtain ⟨-, name, hat, -, -, hfull⟩ := hshown (show NameStyle.full ≠ .system by decide)
    exact (congrArg (Option.map (·.name)) hat).trans (congrArg some (hfull rfl))

end Symbolication
