import Symbolication.Pass.Symbolize
import Symbolication.Proofs.Remote.Growth

/-!
# Symbolication.Proofs.Pass.Changes

What symbolization makes of a profile, one change after another.  Frames are entered,
servers' answers are entered, and functions are named; a relation that covers these steps
covers passes, and whole directives, however they end:

* `CoversPasses`, `CoversSteps` — a relation from a profile to what the steps of passes
  make of it, and to what any step makes of it;
* `CoversPasses.gives_symbolizeLocally` — the local pass;
* `CoversPasses.gives_symbolizeRemotely` — the remote pass;
* `CoversPasses.exists_apply` — a directive is passes, and naming behind them;
* `CoversSteps.gives_symbolize` — the text of a directive.
-/

namespace Symbolication

variable {ω η τ : Type} [Label τ]

/-- The relation leads from a profile to what any step of a pass makes of it. -/
structure CoversPasses (R : ProfileOf τ → ProfileOf τ → Prop) : Prop where
  refl : ∀ p, R p p
  trans : ∀ {p q r}, R p q → R q r → R p r
  resolve : ∀ p found, R p (p.resolve found)
  follows : ∀ {p} {s : RemoteProgress τ}, s.Follows p → R p s.profile

/-- The relation leads from a profile to what any step of symbolization makes of it. -/
structure CoversSteps (R : ProfileOf τ → ProfileOf τ → Prop) : Prop extends CoversPasses R where
  displayNames : ∀ {ω : Type} (demangler : Demangler ω) force style p,
    Step.Gives (ProfileOf.displayNames demangler force style p) (fun r => R p r.1)

namespace CoversPasses

variable {R : ProfileOf τ → ProfileOf τ → Prop}

/-! ## passes -/

/-- A relation that covers passes covers the local pass. -/
theorem gives_run (h : CoversPasses R) (inspector : Inspector ω η) (force : Bool)
    (p : ProfileOf τ) : Step.Gives (LocalPass.run inspector force p) (fun r => R p r.1) := by
  unfold LocalPass.run
  refine Step.gives_bind_of_forall ?_
  intro table?
  cases table? with
  | error fault => exact Step.gives_pure (h.refl p)
  | ok t =>
      refine Step.gives_bind_of_forall ?_
      intro r
      obtain ⟨found, ended⟩ := r
      refine Step.gives_bind_of_forall ?_
      intro r
      obtain ⟨_, closing⟩ := r
      simp only
      split
      · exact Step.gives_bind_of_forall fun _ => Step.gives_pure (h.resolve p found)
      · exact Step.gives_pure (h.resolve p found)

/-- What the local pass does to a profile. -/
theorem gives_symbolizeLocally (h : CoversPasses R) (inspector : Inspector ω η)
    (force fast : Bool) (p : ProfileOf τ) :
    Step.Gives (p.symbolizeLocally inspector force fast) (fun r => R p r.1) := by
  unfold ProfileOf.symbolizeLocally
  split
  · refine Step.gives_bind_of_forall fun env => Step.gives_bind_of_forall fun _ => ?_
    refine Step.gives_bind (h.gives_run inspector force p) fun r hr => ?_
    exact Step.gives_bind_of_forall fun _ => Step.gives_pure hr
  · exact h.gives_run inspector force p

/-- What the remote pass does to a profile. -/
theorem gives_symbolizeRemotely (h : CoversPasses R) (post : Poster ω) (sources : SourcesOf τ)
    (force : Bool) (p : ProfileOf τ) :
    Step.Gives (p.symbolizeRemotely post sources force) (fun r => R p r.1) :=
  Step.gives_bind (gives_follows_runEach post sources force (RemoteProgress.follows_start p) _)
    fun _ hs => Step.gives_pure (h.follows hs)

/-! ## directives -/

/-- A relation that covers passes covers the local stage. -/
theorem gives_runLocal (h : CoversPasses R) (s : Toolkit ω η) (d : Directive) (p : ProfileOf τ) :
    Step.Gives (s.runLocal d p) (fun r => R p r.1) := by
  unfold Toolkit.runLocal
  split
  · exact Step.gives_pure (h.refl p)
  · refine Step.gives_bind (h.gives_symbolizeLocally s.inspector d.force d.fast p) ?_
    intro r hq
    obtain ⟨q, ended⟩ := r
    cases ended with
    | ok _ => exact Step.gives_pure hq
    | error fault =>
        simp only
        split
        · exact Step.gives_bind_of_forall fun _ => Step.gives_pure hq
        · exact Step.gives_pure hq

/-- A relation that covers passes covers the remote stage. -/
theorem gives_runRemote (h : CoversPasses R) (s : Toolkit ω η) (d : Directive)
    (sources : SourcesOf τ) (wanted : Bool) (p : ProfileOf τ) :
    Step.Gives (s.runRemote d sources wanted p) (fun r => R p r.1) := by
  unfold Toolkit.runRemote
  split
  · exact h.gives_symbolizeRemotely s.post sources d.force p
  · exact Step.gives_pure (h.refl p)

/-- A directive that is not called off does its passes and then gives names, unless a pass breaks
off. -/
theorem exists_apply (h : CoversPasses R) (s : Toolkit ω η) {d : Directive}
    (hskip : d.skip = false) (sources : SourcesOf τ) (p : ProfileOf τ) (env : Env ω) :
    ∃ q env', R p q ∧
      ((∃ fault, s.apply d sources p env = ((q, .error fault), env')) ∨
        s.apply d sources p env = q.displayNames s.demangler d.force d.style env') := by
  have hlocal := h.gives_runLocal s d p env
  simp only [Toolkit.apply, hskip, Bool.false_eq_true, if_false, Step.bind_apply]
  generalize s.runLocal d p env = r at hlocal ⊢
  obtain ⟨⟨q, wanted⟩, env₁⟩ := r
  cases wanted with
  | error fault => exact ⟨q, env₁, hlocal, .inl ⟨fault, rfl⟩⟩
  | ok wanted =>
      have hremote := h.gives_runRemote s d sources wanted q env₁
      simp only [Step.bind_apply]
      generalize s.runRemote d sources wanted q env₁ = r at hremote ⊢
      obtain ⟨⟨q', ended⟩, env₂⟩ := r
      have hboth := h.trans hlocal hremote
      cases ended with
      | error fault => exact ⟨q', env₂, hboth, .inl ⟨fault, rfl⟩⟩
      | ok _ => exact ⟨q', env₂, hboth, .inr rfl⟩

end CoversPasses

namespace CoversSteps

variable {R : ProfileOf τ → ProfileOf τ → Prop}

/-- A relation that covers steps covers a whole directive. -/
theorem gives_apply (h : CoversSteps R) (s : Toolkit ω η) (d : Directive) (sources : SourcesOf τ)
    (p : ProfileOf τ) : Step.Gives (s.apply d sources p) (fun r => R p r.1) := by
  intro env
  cases hskip : d.skip with
  | true =>
      simp only [Toolkit.apply, hskip, if_true]
      exact h.refl p
  | false =>
      obtain ⟨q, env', hq, ⟨fault, happly⟩ | happly⟩ := h.exists_apply s hskip sources p env
      · rw [happly]
        exact hq
      · rw [happly]
        exact h.trans hq (h.displayNames s.demangler d.force d.style q env')

/-- What the text of a directive does to a profile. -/
theorem gives_symbolize (h : CoversSteps R) (s : Toolkit ω η) (text : Option String)
    (sources : SourcesOf τ) (p : ProfileOf τ) :
    Step.Gives (s.symbolize text sources p) (fun r => R p r.1) := by
  unfold Toolkit.symbolize
  refine Step.gives_bind_of_forall fun d => ?_
  exact Step.gives_bind (h.gives_apply s d sources p) fun _ hr => Step.gives_pure hr

end CoversSteps

/-- Symbolization grows profiles, and leaves sound ones sound. -/
theorem coversSteps_becomes :
    CoversSteps (ProfileOf.Becomes : ProfileOf τ → ProfileOf τ → Prop) where
  refl := ProfileOf.Becomes.refl
  trans := ProfileOf.Becomes.trans
  resolve := becomes_resolve
  follows := RemoteProgress.Follows.becomes
  displayNames := becomes_displayNames

end Symbolication
