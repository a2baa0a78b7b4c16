import Symbolication.Proofs.Action.Triple
import Symbolication.Workshop

/-!
# Symbolication.Proofs.Action.Workshop

The rules for actions in a workshop: looking at it, changing it, and doing something
outside.
-/

namespace Symbolication.Workshop

variable {ω α : Type} {P : Workshop ω → Prop} {E : Fault → Workshop ω → Prop}

/-! ## runs -/

/-- Looking answers with the workshop and changes nothing. -/
theorem run_look_apply (env : Env (Workshop ω)) : look.run env = (.ok env.world, env) :=
  rfl

/-- What is done outside is done in the world outside. -/
theorem run_outsideAct_apply (act : Act ω α) (env : Env (Workshop ω)) :
    (outsideAct act).run env =
      let done := act.run { world := env.world.outside, notices := env.notices }
      (done.1, { world := { env.world with outside := done.2.world }
                 notices := done.2.notices }) :=
  rfl

/-! ## assertions -/

/-- Looking answers with the workshop as it is. -/
theorem meets_look : Act.Meets P (look (ω := ω)) (fun w' w => w' = w ∧ P w) E :=
  fun _ hP => ⟨rfl, hP⟩

/-- Looking keeps every invariant. -/
theorem keeps_look : Act.Keeps P (look (ω := ω)) :=
  fun _ hP => hP

/-- A change meets what it makes true. -/
theorem meets_change {f : Workshop ω → Workshop ω} {Q : Workshop ω → Prop}
    (h : ∀ w, P w → Q (f w)) : Act.Meets P (change f) (fun _ => Q) E :=
  fun env hP => h env.world hP

/-- A change keeps what it preserves. -/
theorem keeps_change {f : Workshop ω → Workshop ω} (h : ∀ w, P w → P (f w)) :
    Act.Keeps P (change f) :=
  meets_change h

/-- What is done outside is known to the workshop only by its result. -/
theorem meets_outsideAct {act : Act ω α} {q : Except Fault α → Prop}
    (h : ∀ env : Env ω, q (act.run env).1) (hP : ∀ w outside, P w → P { w with outside }) :
    Step.Meets P (outsideAct act).run (fun r w => P w ∧ q r) :=
  fun env hw => ⟨hP env.world _ hw, h _⟩

/-- What a step keeps of the world outside it keeps when it is done outside. -/
theorem keeps_outsideStep {step : Step ω α}
    (h : ∀ w : Workshop ω, Step.Keeps (fun outside => P { w with outside }) step) :
    Step.Keeps P (outsideStep step) :=
  fun env hP => h env.world { world := env.world.outside, notices := env.notices } hP

/-- An action on the outside world keeps what it keeps with the rest of the workshop fixed. -/
theorem keeps_outsideAct {act : Act ω α}
    (h : ∀ w : Workshop ω, Act.Keeps (fun outside => P { w with outside }) act) :
    Act.Keeps P (outsideAct act) :=
  Act.keeps_of_run (keeps_outsideStep fun w => Act.keeps_run (h w))

end Symbolication.Workshop
