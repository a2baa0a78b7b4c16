import Symbolication.Proofs.Action.View

/-!
# Symbolication.Proofs.Action.Watched

Worlds that are watched: beside the world stands a record of what has been asked
of it.  An action of the plain world leaves the record as it is, and `record`
leaves the world as it is, so that a record can be kept of any action without
changing what the action does:

* `Act.watched`, `Act.record` — the two parts of a watched action;
* `Act.recorded`, `Act.reported`, `Act.logged` — an action that is recorded before it is
  done, one that is recorded with how it ended, and one with the environments, too;
* `Step.Mirrors` — a watched step does what a plain one does;
* `Step.mirrors_bind`, `Act.mirrors_bind` — watching part by part.
-/

namespace Symbolication

/-- A world and what has been seen of the requests made to it. -/
structure Watched (ω γ : Type) where
  /-- The world. -/
  world : ω
  /-- What has been seen. -/
  seen : γ

variable {ω γ α β α' β' : Type}

/-- The plain environment of a watched one. -/
def Env.plain (env : Env (Watched ω γ)) : Env ω :=
  { world := env.world.world, notices := env.notices }

/-- The watched environment with nothing but a first record beside the world. -/
def Env.watchedFrom (seen : γ) (env : Env ω) : Env (Watched ω γ) :=
  { world := { world := env.world, seen }, notices := env.notices }

/-- Changes the record only, in view of the world, and answers. -/
def Step.record (f : ω → γ → β × γ) : Step (Watched ω γ) β := fun env =>
  let (b, seen) := f env.world.world env.world.seen
  (b, { env with world := { env.world with seen } })

/-- Changes the record in the course of an action that may fail. -/
def Act.record (f : ω → γ → β × γ) : Act (Watched ω γ) β :=
  ExceptT.lift (Step.record f)

/-- A step of the plain world, which leaves the record as it is. -/
def Step.watched (x : Step ω α) : Step (Watched ω γ) α := fun env =>
  ((x env.plain).1, (x env.plain).2.watchedFrom env.world.seen)

/-- An action of the plain world, which leaves the record as it is. -/
def Act.watched (x : Act ω α) : Act (Watched ω γ) α :=
  ExceptT.mk (Step.watched x.run)

/-- An action of the plain world after the record has been changed. -/
def Act.recorded (f : γ → γ) (x : Act ω α) : Act (Watched ω γ) α :=
  ExceptT.mk (Step.record (fun _ seen => ((), f seen)) >>= fun _ => Step.watched x.run)

/-- An action of the plain world, and then a change of the record in view of how it ended. -/
def Act.reported (f : Except Fault α → γ → γ) (x : Act ω α) : Act (Watched ω γ) α :=
  ExceptT.mk (Step.watched x.run >>= fun r =>
    Step.record (fun _ seen => ((), f r seen)) >>= fun _ => pure r)

/-- An action of the plain world, and then a change of the record in view of how it ended and of the
environments before and after it. -/
def Act.logged (f : Env ω → Except Fault α → Env ω → γ → γ) (x : Act ω α) :
    Act (Watched ω γ) α :=
  ExceptT.mk fun env =>
    let (r, after) := x.run env.plain
    (r, after.watchedFrom (f env.plain r after env.world.seen))

/-! ## what is known of the record -/

/-- What is recorded in a step meets what the recording makes true. -/
theorem Step.meets_record {f : ω → γ → β × γ} {P : Watched ω γ → Prop}
    {Q : β → Watched ω γ → Prop}
    (h : ∀ w, P w → Q (f w.world w.seen).1 { w with seen := (f w.world w.seen).2 }) :
    Step.Meets P (record f) Q :=
  fun env hP => h env.world hP

/-- What is recorded in an action meets what the recording makes true. -/
theorem Act.meets_record {f : ω → γ → β × γ} {P : Watched ω γ → Prop}
    {Q : β → Watched ω γ → Prop} {E : Fault → Watched ω γ → Prop}
    (h : ∀ w, P w → Q (f w.world w.seen).1 { w with seen := (f w.world w.seen).2 }) :
    Act.Meets P (Act.record f) Q E :=
  fun env hP => h env.world hP

/-- A plain action leaves the record as it is, and does to the world what it does. -/
theorem Act.meets_watched {x : Act ω α} {P : ω → Prop} {Q : α → ω → Prop}
    {E : Fault → ω → Prop} {R : γ → Prop} (h : Act.Meets P x Q E) :
    Act.Meets (fun w => P w.world ∧ R w.seen) (Act.watched x : Act (Watched ω γ) α)
      (fun a w => Q a w.world ∧ R w.seen) (fun fault w => E fault w.world ∧ R w.seen) := by
  intro env hw
  obtain ⟨hP, hR⟩ := hw
  have hx := h env.plain hP
  have hrun : (Act.watched x : Act (Watched ω γ) α).run env =
      ((x.run env.plain).1, (x.run env.plain).2.watchedFrom env.world.seen) := rfl
  rw [hrun]
  cases hr : (x.run env.plain).1 with
  | ok a =>
      rw [hr] at hx
      exact ⟨hx, hR⟩
  | error fault =>
      rw [hr] at hx
      exact ⟨hx, hR⟩

/-- A recorded action changes the record once, whether it fails or not. -/
theorem Act.meets_recorded {x : Act ω α} {P : ω → Prop} {Q : α → ω → Prop}
    {E : Fault → ω → Prop} {f : γ → γ} {R : γ → Prop} (h : Act.Meets P x Q E) :
    Act.Meets (fun w => P w.world ∧ R (f w.seen)) (Act.recorded f x)
      (fun a w => Q a w.world ∧ R w.seen) (fun fault w => E fault w.world ∧ R w.seen) :=
  Step.meets_bind (Step.meets_record fun _ hw => hw) fun _ => Act.meets_watched h

/-- A reported action changes the record once, by how it ends. -/
theorem Act.meets_reported (f : Except Fault α → γ → γ) (x : Act ω α) (seen : γ) :
    Step.Meets (fun w => w.seen = seen) (Act.reported f x).run (fun r w => w.seen = f r seen) :=
  fun _ hseen => congrArg _ hseen

/-- What is known of how an action ends is known of the reported one. -/
theorem Act.gives_reported (f : Except Fault α → γ → γ) {x : Act ω α} {q : Except Fault α → Prop}
    (h : Step.Gives x.run q) : Step.Gives (Act.reported f x).run q :=
  fun env => h env.plain

/-! ## watching changes nothing -/

/-- The watched step does what the plain one does, and its answer is the plain one when `g` takes
the marks of watching off it. -/
def Step.Mirrors (g : α → α') (x : Step (Watched ω γ) α) (y : Step ω α') : Prop :=
  ∀ env, y env.plain = (g (x env).1, (x env).2.plain)

namespace Step

/-- A watched step shows the plain one, in sight of the world without its record. -/
theorem mirrors_iff {g : α → α'} {x : Step (Watched ω γ) α} {y : Step ω α'} :
    Mirrors g x y ↔ Shows Watched.world g x y :=
  Iff.rfl

theorem mirrors_pure {g : α → α'} {a : α} {a' : α'} (h : g a = a') :
    Mirrors g (pure a : Step (Watched ω γ) α) (pure a') :=
  mirrors_iff.mpr (shows_pure h)

/-- Sequences mirror each other if their parts do. -/
theorem mirrors_bind {g : α → α'} {k : β → β'} {x : Step (Watched ω γ) α} {y : Step ω α'}
    {f : α → Step (Watched ω γ) β} {f' : α' → Step ω β'} (hx : Mirrors g x y)
    (hf : ∀ a, Mirrors k (f a) (f' (g a))) : Mirrors k (x >>= f) (y >>= f') :=
  mirrors_iff.mpr (shows_bind (mirrors_iff.mp hx) fun a => mirrors_iff.mp (hf a))

theorem mirrors_note (n : Notice) :
    Mirrors id (note n : Step (Watched ω γ) Unit) (note n) :=
  fun _ => rfl

/-- A watched step mirrors the step itself. -/
theorem mirrors_watched (x : Step ω α) :
    Mirrors id (Step.watched x : Step (Watched ω γ) α) x :=
  fun _ => rfl

/-- Recording alone is nothing to the plain world. -/
theorem mirrors_record_bind {k : β → β'} {f : ω → γ → α × γ} {x : α → Step (Watched ω γ) β}
    {y : Step ω β'} (hx : ∀ a, Mirrors k (x a) y) : Mirrors k (record f >>= x) y :=
  fun env => hx (record f env).1 (record f env).2

end Step

/-- The watched action does what the plain one does, and fails as it does. -/
def Act.Mirrors (g : α → α') (x : Act (Watched ω γ) α) (y : Act ω α') : Prop :=
  Step.Mirrors (Except.map g) x.run y.run

namespace Act

/-- An action mirrors another just if it shows it once the record is left out. -/
theorem mirrors_iff {g : α → α'} {x : Act (Watched ω γ) α} {y : Act ω α'} :
    Mirrors g x y ↔ Shows Watched.world g x y :=
  Iff.rfl

theorem mirrors_pure {g : α → α'} {a : α} {a' : α'} (h : g a = a') :
    Mirrors g (pure a : Act (Watched ω γ) α) (pure a') :=
  mirrors_iff.mpr (shows_pure h)

/-- Sequences that may fail mirror each other if their parts do. -/
theorem mirrors_bind {g : α → α'} {k : β → β'} {x : Act (Watched ω γ) α} {y : Act ω α'}
    {f : α → Act (Watched ω γ) β} {f' : α' → Act ω β'} (hx : Mirrors g x y)
    (hf : ∀ a, Mirrors k (f a) (f' (g a))) : Mirrors k (x >>= f) (y >>= f') :=
  mirrors_iff.mpr (shows_bind (mirrors_iff.mp hx) fun a => mirrors_iff.mp (hf a))

/-- A watched action mirrors the action itself. -/
theorem mirrors_watched (x : Act ω α) :
    Mirrors id (Act.watched x : Act (Watched ω γ) α) x := by
  intro env
  change _ = (Except.map id (x.run env.plain).1, (x.run env.plain).2)
  rw [Except.map_id]
  rfl

/-- What is recorded before an action does not matter to what the action mirrors. -/
theorem mirrors_record_bind {k : β → β'} {f : ω → γ → α × γ} {x : α → Act (Watched ω γ) β}
    {y : Act ω β'} (hx : ∀ a, Mirrors k (x a) y) : Mirrors k (Act.record f >>= x) y :=
  Step.mirrors_record_bind hx

/-- An action with its beginning recorded mirrors the action itself. -/
theorem mirrors_recorded (f : γ → γ) (x : Act ω α) :
    Mirrors id (Act.recorded f x : Act (Watched ω γ) α) x :=
  Step.mirrors_record_bind fun _ => mirrors_watched x

/-- An action with its end recorded mirrors the action itself. -/
theorem mirrors_reported (f : Except Fault α → γ → γ) (x : Act ω α) :
    Mirrors id (Act.reported f x : Act (Watched ω γ) α) x :=
  mirrors_watched x

/-- An action logged with the environments around it mirrors the action itself. -/
theorem mirrors_logged (f : Env ω → Except Fault α → Env ω → γ → γ) (x : Act ω α) :
    Mirrors id (Act.logged f x : Act (Watched ω γ) α) x :=
  mirrors_watched x

end Act

end Symbolication
