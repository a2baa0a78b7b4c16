import Symbolication.Pass.Symbolize
import Symbolication.Proofs.Pass.HeldSegments
import Symbolication.Proofs.Pass.Reading

/-!
# Symbolication.Proofs.Pass.WorldInvariants

What a directive keeps of the world.  Symbolization works with an inspector, servers and a
decoder of names; an assertion about the world that all of these keep is kept by passes
and naming, however they end:

* `Toolkit.Keeps` — the assertion is kept by the tools;
* `keeps_symbolizeLocally`, `keeps_symbolizeRemotely`, `keeps_displayNames` — passes and
  naming;
* `Toolkit.Keeps.keeps_symbolize` — the text of a directive.
-/

namespace Symbolication

variable {ω η τ : Type} [Label τ] {P : ω → Prop}

/-- What symbolization works with keeps the assertion. -/
structure Toolkit.Keeps (s : Toolkit ω η) (P : ω → Prop) : Prop where
  inspector : s.inspector.Carries fun _ => P
  switch : ∀ switch, s.inspector.fastSwitch? = some switch → ∀ on, Step.Keeps P (switch.set on)
  post : ∀ url payload, Act.Keeps P (s.post url payload)
  demangler : ∀ name options, Act.Keeps P (s.demangler name options)

/-! ## the local pass -/

/-- The local pass keeps what its inspector carries, if turning the fast setting keeps it too. -/
theorem keeps_symbolizeLocally {inspector : Inspector ω η}
    (hinspector : inspector.Carries fun _ => P)
    (hswitch : ∀ switch, inspector.fastSwitch? = some switch → ∀ on, Step.Keeps P (switch.set on))
    (force fast : Bool) (p : ProfileOf τ) :
    Step.Keeps P (p.symbolizeLocally inspector force fast) := by
  have hrun := keeps_run hinspector force p
  have hget : Step.Keeps P (get : Step ω (Env ω)) := fun _ hw => hw
  unfold ProfileOf.symbolizeLocally
  split
  · rename_i switch hsome
    refine Step.keeps_bind hget fun env => ?_
    refine Step.keeps_bind (hswitch switch hsome true) fun _ => Step.keeps_bind hrun fun r => ?_
    exact Step.keeps_bind (hswitch switch hsome _) fun _ => Step.keeps_pure r
  · exact hrun

/-! ## the remote pass -/

section

variable {post : Poster ω} (hpost : ∀ url payload, Act.Keeps P (post url payload))
include hpost

omit [Label τ] in
theorem keeps_askServer (p : ProfileOf τ) (i : Nat) (shift : Int) (url : String) :
    Act.Keeps P (RemotePass.ask post p i shift url) := by
  unfold RemotePass.ask
  split
  · exact Act.keeps_pure []
  · exact Act.keeps_bind (hpost _ _) fun _ => Act.keeps_pure _

/-- A mapping's candidates are tried with the invariant of the poster kept. -/
theorem keeps_trySources (i : Nat) (m : MappingOf τ) (s : RemoteProgress τ)
    (sources : List Source) : Step.Keeps P (RemotePass.tryEach post i m s sources) := by
  induction sources generalizing s with
  | nil => exact Step.keeps_pure _
  | cons source rest ih =>
      unfold RemotePass.tryEach
      split
      · exact Step.keeps_pure _
      · exact ih s
      · rename_i url _
        refine Step.keeps_bind (Act.keeps_run (keeps_askServer hpost _ _ _ _)) fun r => ?_
        cases r with
        | ok answers => exact Step.keeps_bind (Step.keeps_note _) fun _ => Step.keeps_pure _
        | error fault =>
            simp only
            split
            · exact Step.keeps_bind (Step.keeps_note _) fun _ => ih _
            · exact Step.keeps_pure _

theorem keeps_nameMappings (sources : SourcesOf τ) (force : Bool) (s : RemoteProgress τ)
    (ms : List (MappingOf τ × Nat)) :
    Step.Keeps P (RemotePass.runEach post sources force s ms) := by
  induction ms generalizing s with
  | nil => exact Step.keeps_pure _
  | cons entry rest ih =>
      obtain ⟨m, i⟩ := entry
      unfold RemotePass.runEach
      split
      · exact Step.keeps_pure _
      · exact ih s
      · exact Step.keeps_pure _
      · refine Step.keeps_bind (keeps_trySources hpost i m _ _) fun r => ?_
        obtain ⟨s', ended⟩ := r
        cases ended with
        | ok _ => exact ih s'
        | error fault => exact Step.keeps_pure _

/-- The remote pass keeps what its poster keeps. -/
theorem keeps_symbolizeRemotely (sources : SourcesOf τ) (force : Bool) (p : ProfileOf τ) :
    Step.Keeps P (p.symbolizeRemotely post sources force) :=
  Step.keeps_bind (keeps_nameMappings hpost sources force _ _) fun _ => Step.keeps_pure _

end

/-! ## naming -/

section

variable {demangler : Demangler ω}
  (hdemangler : ∀ name options, Act.Keeps P (demangler name options))
include hdemangler

theorem keeps_nameFunctions (style : NameStyle) (fns : List (FunctionOf τ)) :
    Step.Keeps P (nameFunctions demangler style fns) := by
  induction fns with
  | nil => exact Step.keeps_pure _
  | cons fn rest ih =>
      unfold nameFunctions
      split
      · exact Step.keeps_bind ih fun _ => Step.keeps_pure _
      · split
        · exact Step.keeps_pure _
        · refine Step.keeps_bind (Act.keeps_run (hdemangler _ _)) fun r => ?_
          cases r with
          | ok answer => exact Step.keeps_bind ih fun _ => Step.keeps_pure _
          | error fault => exact Step.keeps_pure _

/-- The display names are made with the invariant of the demangler kept. -/
theorem keeps_displayNames (force : Bool) (style : NameStyle) (p : ProfileOf τ) :
    Step.Keeps P (p.displayNames demangler force style) := by
  unfold ProfileOf.displayNames
  simp only
  split
  · exact Step.keeps_pure _
  · refine Step.keeps_bind (keeps_nameFunctions hdemangler style _) fun r => ?_
    obtain ⟨functions, ended⟩ := r
    cases ended with
    | ok changed => exact Step.keeps_bind (Step.keeps_note _) fun _ => Step.keeps_pure _
    | error fault => exact Step.keeps_pure _

end

/-! ## directives -/

theorem keeps_parseNoting (text : Option String) :
    Step.Keeps P (Directive.parseNoting text) := by
  intro env hw
  rw [Directive.parseNoting_apply]
  exact hw

namespace Toolkit.Keeps

variable {s : Toolkit ω η}

/-- The local stage of a directive keeps what its tools keep. -/
theorem keeps_runLocal (h : s.Keeps P) (d : Directive) (p : ProfileOf τ) :
    Step.Keeps P (s.runLocal d p) := by
  unfold Toolkit.runLocal
  split
  · exact Step.keeps_pure _
  · refine Step.keeps_bind (keeps_symbolizeLocally h.inspector h.switch _ _ p) fun r => ?_
    obtain ⟨q, ended⟩ := r
    cases ended with
    | ok _ => exact Step.keeps_pure _
    | error fault =>
        simp only
        split
        · exact Step.keeps_bind (Step.keeps_note _) fun _ => Step.keeps_pure _
        · exact Step.keeps_pure _

/-- The remote stage of a directive keeps what its tools keep. -/
theorem keeps_runRemote (h : s.Keeps P) (d : Directive) (sources : SourcesOf τ) (wanted : Bool)
    (p : ProfileOf τ) : Step.Keeps P (s.runRemote d sources wanted p) := by
  unfold Toolkit.runRemote
  split
  · exact keeps_symbolizeRemotely h.post sources d.force p
  · exact Step.keeps_pure _

/-- A directive is carried out with the invariant of its tools kept. -/
theorem keeps_apply (h : s.Keeps P) (d : Directive) (sources : SourcesOf τ) (p : ProfileOf τ) :
    Step.Keeps P (s.apply d sources p) := by
  unfold Toolkit.apply
  split
  · exact Step.keeps_pure _
  · refine Step.keeps_bind (h.keeps_runLocal d p) fun r => ?_
    obtain ⟨q, wanted⟩ := r
    cases wanted with
    | error fault => exact Step.keeps_pure _
    | ok wanted =>
        refine Step.keeps_bind (h.keeps_runRemote d sources wanted q) fun r => ?_
        obtain ⟨q', ended⟩ := r
        cases ended with
        | error fault => exact Step.keeps_pure _
        | ok _ => exact keeps_displayNames h.demangler d.force d.style q'

/-- What the tools keep, the text of a directive keeps. -/
theorem keeps_symbolize (h : s.Keeps P) (text : Option String) (sources : SourcesOf τ)
    (p : ProfileOf τ) : Step.Keeps P (s.symbolize text sources p) := by
  refine Step.keeps_bind (keeps_parseNoting text) fun d => ?_
  exact Step.keeps_bind (h.keeps_apply d sources p) fun _ => Step.keeps_pure _

end Toolkit.Keeps

end Symbolication
