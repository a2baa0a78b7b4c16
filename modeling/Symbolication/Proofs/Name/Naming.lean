import Symbolication.Name.Display
import Symbolication.Proofs.Action.Triple

/-!
# Symbolication.Proofs.Name.Naming

What naming comes to where the decoder of names gives answers that depend on nothing but
its questions: a profile is given names by a function that does not look at the world.

* `Demangler.Knows` — a decoder that answers by what is known;
* `FunctionOf.named`, `namedEach`, `ProfileOf.displayed` — the names given by what is known;
* `meets_displayed` — these are the names that naming gives;
* `LawfulLabel` — labels that tell their texts;
* `displayed_displayed` — the names are given once and for all.
-/

namespace Symbolication

variable {ω τ : Type} [Label τ]

/-- The decoder of names gives answers that depend on nothing but the name and the options; the
assertion `P` about the world goes along with it. -/
def Demangler.Knows (demangler : Demangler ω)
    (decode : String → List NameOption → Except Fault String) (P : ω → Prop) : Prop :=
  ∀ name options, Act.Tells P (demangler name options) (decode name options) P

/-! ## names by what is known -/

/-- The function with the name that naming gives it, if it does not have one already. -/
def FunctionOf.named (decode : String → List NameOption → Except Fault String)
    (style : NameStyle) (fn : FunctionOf τ) : Except Fault (FunctionOf τ) :=
  if fn.isNamed then .ok fn
  else
    match Label.text fn.systemName with
    | .error kind => .error (.notName kind)
    | .ok systemName =>
      (decode systemName style.options).map fun answer =>
        fn.withName (style.displayName systemName answer)

/-- The functions up to the first one that cannot be named have their names, the others are as
they were. -/
def namedEach (decode : String → List NameOption → Except Fault String) (style : NameStyle) :
    List (FunctionOf τ) → List (FunctionOf τ) × Except Fault Unit
  | [] => ([], .ok ())
  | fn :: rest =>
    match fn.named decode style with
    | .error fault => (fn :: rest, .error fault)
    | .ok fn =>
      let (rest, ended) := namedEach decode style rest
      (fn :: rest, ended)

/-- The profile with the names that naming gives to its functions, and how naming ends. -/
def ProfileOf.displayed (decode : String → List NameOption → Except Fault String) (force : Bool)
    (style : NameStyle) (p : ProfileOf τ) : ProfileOf τ × Except Fault Unit :=
  let p := if force then p.resetNames else p
  if style == .system then (p, .ok ())
  else
    let (functions, ended) := namedEach decode style p.functions
    ({ p with functions }, ended)

variable {demangler : Demangler ω} {decode : String → List NameOption → Except Fault String}
  {style : NameStyle} {P : ω → Prop}

theorem named_of_isNamed {fn : FunctionOf τ} (h : fn.isNamed = true) :
    fn.named decode style = .ok fn :=
  if_pos h

theorem named_of_text {fn : FunctionOf τ} {systemName : String} (h : fn.isNamed = false)
    (htext : Label.text fn.systemName = .ok systemName) :
    fn.named decode style = (decode systemName style.options).map fun answer =>
      fn.withName (style.displayName systemName answer) := by
  simp [FunctionOf.named, h, htext]

theorem named_of_no_text {fn : FunctionOf τ} {kind : Json.Kind} (h : fn.isNamed = false)
    (htext : Label.text fn.systemName = .error kind) :
    fn.named decode style = .error (.notName kind) := by
  simp [FunctionOf.named, h, htext]

theorem namedEach_cons_of_error {fn : FunctionOf τ} {rest : List (FunctionOf τ)} {fault : Fault}
    (h : fn.named decode style = .error fault) :
    namedEach decode style (fn :: rest) = (fn :: rest, .error fault) := by
  simp [namedEach, h]

theorem namedEach_cons_of_ok {fn fn' : FunctionOf τ} {rest : List (FunctionOf τ)}
    (h : fn.named decode style = .ok fn') :
    namedEach decode style (fn :: rest) =
      (fn' :: (namedEach decode style rest).1, (namedEach decode style rest).2) := by
  simp [namedEach, h]

/-- If every function can be named, all of them are. -/
theorem namedEach_of_ok {fns : List (FunctionOf τ)} {f : FunctionOf τ → FunctionOf τ}
    (h : ∀ fn ∈ fns, fn.named decode style = .ok (f fn)) :
    namedEach decode style fns = (fns.map f, .ok ()) := by
  induction fns with
  | nil => rfl
  | cons fn rest ih =>
      obtain ⟨hfirst, hrest⟩ := List.forall_mem_cons.mp h
      rw [namedEach_cons_of_ok hfirst, ih hrest, List.map_cons]

/-- Functions get the names that are known. -/
theorem meets_namedEach (h : demangler.Knows decode P) (style : NameStyle)
    (fns : List (FunctionOf τ)) :
    Step.Meets P (nameFunctions demangler style fns)
      (fun r w => (r.1, r.2.map fun _ => ()) = namedEach decode style fns ∧ P w) := by
  induction fns with
  | nil => exact Step.meets_pure fun w hw => ⟨rfl, hw⟩
  | cons fn rest ih =>
      unfold nameFunctions
      split
      · rename_i hnamed
        rw [namedEach_cons_of_ok (named_of_isNamed hnamed)]
        refine Step.meets_bind ih fun r => Step.meets_and fun hr => ?_
        rw [← hr]
        exact Step.meets_pure fun w hw => ⟨rfl, hw⟩
      · rename_i hnot
        replace hnot : fn.isNamed = false := by simpa using hnot
        cases htext : Label.text fn.systemName with
        | error kind =>
            rw [namedEach_cons_of_error (named_of_no_text hnot htext)]
            exact Step.meets_pure fun w hw => ⟨rfl, hw⟩
        | ok systemName =>
            have hnamed : fn.named decode style =
                (decode systemName style.options).map fun answer =>
                  fn.withName (style.displayName systemName answer) := named_of_text hnot htext
            refine Step.meets_bind (h systemName style.options) fun r => ?_
            cases r with
            | error fault =>
                refine Step.meets_and fun hanswer => ?_
                rw [hanswer] at hnamed
                rw [namedEach_cons_of_error hnamed]
                exact Step.meets_pure fun w hw => ⟨rfl, hw⟩
            | ok answer =>
                refine Step.meets_and fun hanswer => Step.meets_bind ih fun r => ?_
                refine Step.meets_and fun hr => Step.meets_pure fun w hw => ⟨?_, hw⟩
                rw [hanswer] at hnamed
                rw [namedEach_cons_of_ok hnamed, ← hr]
                cases r.2 <;> rfl

/-- The profile gets the names that are known. -/
theorem meets_displayed (h : demangler.Knows decode P) (force : Bool) (style : NameStyle)
    (p : ProfileOf τ) :
    Step.Meets P (p.displayNames demangler force style)
      (fun r w => r = p.displayed decode force style ∧ P w) := by
  unfold ProfileOf.displayNames ProfileOf.displayed
  generalize (if force then p.resetNames else p) = q
  simp only
  split
  · exact Step.meets_pure fun w hw => ⟨rfl, hw⟩
  · refine Step.meets_bind (meets_namedEach h style q.functions) fun r => ?_
    refine Step.meets_and fun hr => ?_
    obtain ⟨functions, ended⟩ := r
    rw [← hr]
    cases ended with
    | error fault => exact Step.meets_pure fun w hw => ⟨rfl, hw⟩
    | ok changed =>
        exact Step.meets_bind Step.meets_note fun _ => Step.meets_pure fun w hw => ⟨rfl, hw⟩

/-! ## labels that tell their texts -/

/-- A label that is a text is the label of that text, and labels of texts say the same if the texts
are equal. -/
class LawfulLabel (τ : Type) [Label τ] : Prop where
  eq_ofText {label : τ} {s : String} : Label.text label = .ok s → label = Label.ofText s
  same_ofText (s t : String) : Label.same (Label.ofText s : τ) (Label.ofText t) = (s == t)

instance : LawfulLabel String where
  eq_ofText h := by
    cases h
    rfl
  same_ofText _ _ := rfl

instance : LawfulLabel Json where
  eq_ofText {label s} h := by
    cases label with
    | text t =>
        cases h
        rfl
    | _ => cases h
  same_ofText s t := Json.sameItem_text s t

/-! ## names given once and for all -/

namespace FunctionOf

variable {fn fn' : FunctionOf τ}

theorem resetName_of_isEmpty (h : (Label.isEmpty fn.name || Label.isEmpty fn.systemName) = true) :
    fn.resetName = fn := by
  unfold resetName
  rw [← Bool.not_or, h]
  rfl

theorem resetName_of_not_isEmpty (hname : Label.isEmpty fn.name = false)
    (hsystem : Label.isEmpty fn.systemName = false) :
    fn.resetName = { fn with name := fn.systemName } := by
  simp [resetName, hname, hsystem]

theorem resetName_resetName (fn : FunctionOf τ) : fn.resetName.resetName = fn.resetName := by
  cases h : Label.isEmpty fn.name || Label.isEmpty fn.systemName with
  | true => rw [resetName_of_isEmpty h, resetName_of_isEmpty h]
  | false =>
      obtain ⟨hname, hsystem⟩ := Bool.or_eq_false_iff.mp h
      rw [resetName_of_not_isEmpty hname hsystem]
      exact resetName_of_not_isEmpty hsystem hsystem

theorem withName_resetName (fn : FunctionOf τ) (name : String) :
    fn.resetName.withName name = fn.withName name := by
  unfold resetName
  split <;> rfl

/-- A function that is named anew has no name of its own, and gets the one that its reported name
and the style lead to. -/
theorem named_resetName [LawfulLabel τ] {systemName answer : String}
    (htext : Label.text fn.systemName = .ok systemName)
    (hsystem : Label.isEmpty fn.systemName = false)
    (hanswer : decode systemName style.options = .ok answer) :
    fn.resetName.named decode style =
      .ok (fn.withName (style.displayName systemName answer)) := by
  have hnot : fn.resetName.isNamed = false := by
    cases hname : Label.isEmpty fn.name with
    | true => simp [resetName_of_isEmpty, isNamed, hname]
    | false =>
        rw [resetName_of_not_isEmpty hname hsystem, isNamed, LawfulLabel.eq_ofText htext,
          LawfulLabel.same_ofText]
        simp
  have htext' : Label.text fn.resetName.systemName = .ok systemName := by
    rw [fn.system_resetName.2.1, htext]
  rw [named_of_text hnot htext', hanswer]
  exact congrArg Except.ok (withName_resetName fn _)

/-- Functions are named that have no name of their own and a reported one that can be decoded. -/
theorem named_eq_ok : fn.named decode style = .ok fn' ↔
    (fn.isNamed = true ∧ fn' = fn) ∨
      (fn.isNamed = false ∧ ∃ systemName answer, Label.text fn.systemName = .ok systemName ∧
        decode systemName style.options = .ok answer ∧
        fn' = fn.withName (style.displayName systemName answer)) := by
  cases hnamed : fn.isNamed with
  | true =>
      rw [named_of_isNamed hnamed]
      simp [eq_comm]
  | false =>
      cases htext : Label.text fn.systemName with
      | error kind =>
          rw [named_of_no_text hnamed htext]
          simp
      | ok systemName =>
          rw [named_of_text hnamed htext]
          cases hanswer : decode systemName style.options <;> simp [hanswer, Except.map, eq_comm]

/-- Naming a function again gives it the same name. -/
theorem named_named (h : fn.named decode style = .ok fn') : fn'.named decode style = .ok fn' := by
  rcases named_eq_ok.mp h with ⟨-, rfl⟩ | ⟨-, systemName, answer, htext, hanswer, rfl⟩
  · exact h
  · refine named_eq_ok.mpr ?_
    cases hnamed : (fn.withName (style.displayName systemName answer)).isNamed with
    | true => exact .inl ⟨rfl, rfl⟩
    | false => exact .inr ⟨rfl, systemName, answer, htext, hanswer, rfl⟩

/-- Naming a function anew gives it the same name. -/
theorem named_resetName_of_named [LawfulLabel τ] (h : fn.resetName.named decode style = .ok fn') :
    fn'.resetName.named decode style = .ok fn' := by
  rcases named_eq_ok.mp h with ⟨-, rfl⟩ | ⟨-, systemName, answer, htext, hanswer, rfl⟩
  · rw [resetName_resetName]
    exact h
  · rw [withName_resetName, fn.system_resetName.2.1] at *
    cases hsystem : Label.isEmpty fn.systemName with
    | true =>
        -- no reported name to go back to
        rw [resetName_of_isEmpty (by simp [withName, hsystem])]
        exact named_named h
    | false => exact named_resetName htext hsystem hanswer

end FunctionOf

/-- Where naming a function again changes nothing, it changes nothing of functions one after
another. -/
theorem namedEach_map_namedEach {start : FunctionOf τ → FunctionOf τ}
    (hstart : ∀ fn, start (start fn) = start fn)
    (hnamed : ∀ fn fn', (start fn).named decode style = .ok fn' →
      (start fn').named decode style = .ok fn') (fns : List (FunctionOf τ)) :
    namedEach decode style ((namedEach decode style (fns.map start)).1.map start) =
      namedEach decode style (fns.map start) := by
  induction fns with
  | nil => rfl
  | cons fn rest ih =>
      rw [List.map_cons]
      cases h : (start fn).named decode style with
      | error fault =>
          have hsame : (start fn :: rest.map start).map start = start fn :: rest.map start := by
            simp [hstart]
          rw [namedEach_cons_of_error h, hsame, namedEach_cons_of_error h]
      | ok fn' =>
          rw [namedEach_cons_of_ok h, List.map_cons, namedEach_cons_of_ok (hnamed fn fn' h), ih]

theorem resetNames_eq (p : ProfileOf τ) (force : Bool) :
    (if force then p.resetNames else p) =
      { p with functions := p.functions.map (if force then FunctionOf.resetName else id) } := by
  cases force
  · simp
  · rfl

/-- A profile that has been named is named as it is, also if naming broke off. -/
theorem displayed_displayed [LawfulLabel τ]
    (decode : String → List NameOption → Except Fault String) (force : Bool) (style : NameStyle)
    (p : ProfileOf τ) :
    (p.displayed decode force style).1.displayed decode force style =
      p.displayed decode force style := by
  have hstart (fn : FunctionOf τ) :
      let start := if force then FunctionOf.resetName else id
      start (start fn) = start fn := by
    cases force
    · rfl
    · exact fn.resetName_resetName
  have hnamed (fn fn' : FunctionOf τ) :
      let start := if force then FunctionOf.resetName else id
      (start fn).named decode style = .ok fn' → (start fn').named decode style = .ok fn' := by
    cases force
    · exact FunctionOf.named_named
    · exact FunctionOf.named_resetName_of_named
  unfold ProfileOf.displayed
  simp only [resetNames_eq]
  split
  · simp [hstart]
  · simp only [namedEach_map_namedEach hstart hnamed]

end Symbolication
