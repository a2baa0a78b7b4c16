import Symbolication.Proofs.Action.Triple

/-!
# Symbolication.Proofs.Action.View

Worlds with something beside them that is not needed.  A view leaves it out, and an
action in such a world shows another one if it does in sight of the view just what
that one does:

* `Step.Shows`, `Act.Shows` — an action shows another one;
* `Step.shows_bind`, `Act.shows_bind`, `Act.shows_tryCatch` — showing part by part.
-/

namespace Symbolication

variable {ω ω' α α' β β' : Type} {view : ω' → ω}

/-- The environment whose world is seen through a view. -/
def Env.through (view : ω' → ω) (env : Env ω') : Env ω :=
  { world := view env.world, notices := env.notices }

/-- Seen through the view, the step does what another one does, and `g` makes that one's answer of
its own. -/
def Step.Shows (view : ω' → ω) (g : α → α') (x : Step ω' α) (y : Step ω α') : Prop :=
  ∀ env, y (env.through view) = (g (x env).1, (x env).2.through view)

namespace Step

theorem shows_pure {g : α → α'} {a : α} {a' : α'} (h : g a = a') :
    Shows view g (pure a) (pure a') :=
  fun env => congrArg (·, env.through view) h.symm

/-- Sequences show each other if their parts do. -/
theorem shows_bind {g : α → α'} {k : β → β'} {x : Step ω' α} {y : Step ω α'}
    {f : α → Step ω' β} {f' : α' → Step ω β'} (hx : Shows view g x y)
    (hf : ∀ a, Shows view k (f a) (f' (g a))) : Shows view k (x >>= f) (y >>= f') := by
  intro env
  have hbind : (y >>= f') (env.through view) = f' (y (env.through view)).1
    (y (env.through view)).2 := rfl
  rw [hbind, hx env]
  exact hf (x env).1 (x env).2

theorem shows_note (n : Notice) : Shows view id (note n) (note n) :=
  fun _ => rfl

/-- Changes of the worlds show each other if the view turns one into the other. -/
theorem shows_inWorld {f : ω' → α × ω'} {f' : ω → α × ω}
    (h : ∀ w, f' (view w) = ((f w).1, view (f w).2)) :
    Shows view id (inWorld f) (inWorld f') := by
  intro env
  simp only [inWorld, Env.through, h env.world]
  rfl

end Step

/-- Seen through the view, the action does what another one does, and fails as it does. -/
def Act.Shows (view : ω' → ω) (g : α → α') (x : Act ω' α) (y : Act ω α') : Prop :=
  Step.Shows view (Except.map g) x.run y.run

namespace Act

/-- Answers show each other as actions if one maps to the other. -/
theorem shows_pure {g : α → α'} {a : α} {a' : α'} (h : g a = a') :
    Shows view g (pure a) (pure a') :=
  Step.shows_pure (congrArg Except.ok h)

/-- Failures with one fault show each other. -/
theorem shows_throw {g : α → α'} (fault : Fault) : Shows view g (throw fault) (throw fault) :=
  fun _ => rfl

/-- A result that has been found already. -/
theorem shows_result (r : Except Fault α) :
    Shows view id (ExceptT.mk (pure r)) (ExceptT.mk (pure r)) := by
  cases r with
  | ok a => exact shows_pure rfl
  | error fault => exact shows_throw fault

/-- Sequences that may fail show each other if their parts do. -/
theorem shows_bind {g : α → α'} {k : β → β'} {x : Act ω' α} {y : Act ω α'}
    {f : α → Act ω' β} {f' : α' → Act ω β'} (hx : Shows view g x y)
    (hf : ∀ a, Shows view k (f a) (f' (g a))) : Shows view k (x >>= f) (y >>= f') := by
  rw [Shows, ExceptT.run_bind, ExceptT.run_bind]
  refine Step.shows_bind hx ?_
  intro r
  cases r with
  | ok a => exact hf a
  | error fault => exact Step.shows_pure rfl

/-- Actions with handlers show each other if the actions and the handlers do. -/
theorem shows_tryCatch {g : α → α'} {x : Act ω' α} {y : Act ω α'}
    {handle : Fault → Act ω' α} {handle' : Fault → Act ω α'} (hx : Shows view g x y)
    (hh : ∀ fault, Shows view g (handle fault) (handle' fault)) :
    Shows view g (tryCatch x handle) (tryCatch y handle') := by
  rw [Shows, ExceptT.run_tryCatch, ExceptT.run_tryCatch]
  refine Step.shows_bind hx ?_
  intro r
  cases r with
  | ok a => exact Step.shows_pure rfl
  | error fault => exact hh fault

theorem shows_note (n : Notice) : Shows view id (Act.note n) (Act.note n) :=
  fun _ => rfl

/-- What is done to an answer afterwards is done to the other answer, too. -/
theorem shows_map {g : α → α'} {k : β → β'} {x : Act ω' α} {y : Act ω α'} {f : α → β}
    {f' : α' → β'} (hx : Shows view g x y) (hf : ∀ a, k (f a) = f' (g a)) :
    Shows view k (f <$> x) (f' <$> y) := by
  rw [map_eq_pure_bind, map_eq_pure_bind]
  exact shows_bind hx fun a => shows_pure (hf a)

/-- How an action ends is an answer like others to the step that does it. -/
theorem shows_run {x : Act ω' α} {y : Act ω α} (h : Shows view id x y) :
    Step.Shows view id x.run y.run := by
  intro env
  have hx := h env
  rwa [Except.map_id] at hx

/-- Actions show each other if their runs do as steps. -/
theorem shows_of_run {x : Act ω' α} {y : Act ω α} (h : Step.Shows view id x.run y.run) :
    Shows view id x y := by
  intro env
  rw [Except.map_id]
  exact h env

/-- A step that does not fail, in the course of an action that may. -/
theorem shows_lift {g : α → α'} {x : Step ω' α} {y : Step ω α'} (h : Step.Shows view g x y) :
    Shows view g (liftM x : Act ω' α) (liftM y : Act ω α') := by
  intro env
  change ((.ok (y (env.through view)).1, (y (env.through view)).2) : Except Fault α' × Env ω) = _
  rw [h env]
  rfl

/-- Changes that may fail show each other if the view turns one into the other. -/
theorem shows_inWorldTry {f : ω' → Except Fault α × ω'} {f' : ω → Except Fault α × ω}
    (h : ∀ w, f' (view w) = ((f w).1, view (f w).2)) :
    Shows view id (inWorldTry f) (inWorldTry f') :=
  shows_of_run (Step.shows_inWorld h)

end Act

end Symbolication
