import Symbolication.Action

/-!
# Symbolication.Proofs.Action.Triple

Assertions about actions: what holds of the world before an action, and what
holds of its answer and of the world after it.  Notices are not looked at, so
giving one changes nothing.

An action that may fail has two assertions behind it, one for its answers and one
for its faults; `ending` puts the two together, so that the rules for `Act` are
instances of those for `Step`:

* `Step.meets_bind`, `Act.meets_bind` — one action after another;
* `Act.meets_tryCatch` — a fault that is dealt with;
* `Step.Keeps`, `Act.Keeps` — what holds before an action still holds behind it;
* `Act.Tells` — how an action ends, where this is known beforehand;
* `Step.Gives` — what holds of the answers of a step whatever the world is;
* `Env.noting` — the world as it was, with more notices.
-/

namespace Symbolication

variable {ω α β : Type}

/-! ## notices -/

/-- The environment after notices. -/
def Env.noting (env : Env ω) (ns : List Notice) : Env ω :=
  { env with notices := env.notices ++ ns }

@[simp] theorem noting_nil (env : Env ω) : env.noting [] = env := by
  simp [Env.noting]

/-- Notices given in two parts are given in turn. -/
theorem noting_append (env : Env ω) (ns ns' : List Notice) :
    (env.noting ns).noting ns' = env.noting (ns ++ ns') := by
  simp [Env.noting]

@[simp] theorem world_noting (env : Env ω) (ns : List Notice) :
    (env.noting ns).world = env.world :=
  rfl

/-! ## steps -/

/-- From every world with `P` the step leads to an answer and a world with `Q`. -/
def Step.Meets (P : ω → Prop) (x : Step ω α) (Q : α → ω → Prop) : Prop :=
  ∀ env : Env ω, P env.world → Q (x env).1 (x env).2.world

namespace Step

/-- A step in sequence runs from where the one before it ended. -/
theorem bind_apply (x : Step ω α) (f : α → Step ω β) (env : Env ω) :
    (x >>= f) env = f (x env).1 (x env).2 :=
  rfl

variable {P P' : ω → Prop} {M Q Q' : α → ω → Prop} {R : β → ω → Prop}

theorem meets_pure {a : α} (h : ∀ w, P w → Q a w) : Meets P (pure a : Step ω α) Q :=
  fun env hP => h env.world hP

/-- A sequence meets what its second part does from the condition in between. -/
theorem meets_bind {x : Step ω α} {f : α → Step ω β} (hx : Meets P x M)
    (hf : ∀ a, Meets (M a) (f a) R) : Meets P (x >>= f) R := by
  intro env hP
  have hM := hx env hP
  exact hf (x env).1 (x env).2 hM

/-- Less may be known after a step, and more before it. -/
theorem meets_mono {x : Step ω α} (h : Meets P' x Q') (hP : ∀ w, P w → P' w)
    (hQ : ∀ a w, Q' a w → Q a w) : Meets P x Q := by
  intro env hw
  exact hQ _ _ (h env (hP _ hw))

theorem meets_note {n : Notice} : Meets P (note n) (fun _ => P) :=
  fun _ hP => hP

/-- What does not depend on the world may be assumed beforehand. -/
theorem meets_and {φ : Prop} {x : Step ω α} (h : φ → Meets P x Q) :
    Meets (fun w => φ ∧ P w) x Q :=
  fun env hw => h hw.1 env hw.2

/-- A triple for every instance of a precondition holds of some instance. -/
theorem meets_exists {P : β → ω → Prop} {x : Step ω α} (h : ∀ b, Meets (P b) x Q) :
    Meets (fun w => ∃ b, P b w) x Q := by
  intro env hw
  obtain ⟨b, hb⟩ := hw
  exact h b env hb

end Step

/-! ## answers -/

/-- Whatever the world is, the answer of the step has `q`. -/
def Step.Gives (x : Step ω α) (q : α → Prop) : Prop :=
  ∀ env : Env ω, q (x env).1

namespace Step

variable {m q : α → Prop} {r : β → Prop}

theorem gives_pure {a : α} (h : q a) : Gives (pure a : Step ω α) q :=
  fun _ => h

theorem gives_true (x : Step ω α) : Gives x (fun _ => True) :=
  fun _ => trivial

/-- What a sequence gives is what its second part gives, of all that the first may give. -/
theorem gives_bind {x : Step ω α} {f : α → Step ω β} (hx : Gives x m)
    (hf : ∀ a, m a → Gives (f a) r) : Gives (x >>= f) r :=
  fun env => hf (x env).1 (hx env) (x env).2

/-- The answer of a step that goes before does not matter if it does not matter to what follows. -/
theorem gives_bind_of_forall {x : Step ω α} {f : α → Step ω β} (hf : ∀ a, Gives (f a) r) :
    Gives (x >>= f) r :=
  gives_bind (gives_true x) fun a _ => hf a

/-- What the answers of a step have is known beside what holds of the world. -/
theorem meets_of_gives {P : ω → Prop} {Q : α → ω → Prop} {x : Step ω α} (h : Meets P x Q)
    (hx : Gives x q) : Meets P x (fun a w => q a ∧ Q a w) :=
  fun env hP => ⟨hx env, h env hP⟩

end Step

/-! ## results -/

/-- A walk fails nowhere if no element of the list gives a fault. -/
theorem mapM_eq_ok {ε α β : Type} {f : α → Except ε β} {g : α → β} {l : List α}
    (h : ∀ x ∈ l, f x = .ok (g x)) : l.mapM f = .ok (l.map g) := by
  induction l with
  | nil => rfl
  | cons x rest ih =>
      rw [List.mapM_cons, h x List.mem_cons_self, ih fun y hy => h y (List.mem_cons_of_mem _ hy)]
      rfl

/-- There is an answer after two things are done only if each of them gives one. -/
theorem bind_eq_ok {ε α β : Type} {x : Except ε α} {f : α → Except ε β} {b : β} :
    x >>= f = .ok b ↔ ∃ a, x = .ok a ∧ f a = .ok b := by
  cases x <;> simp [bind, Except.bind]

/-- A result that has a value is a success. -/
theorem eq_ok_of_toOption {ε α : Type} {x : Except ε α} {a : α} (h : x.toOption = some a) :
    x = .ok a := by
  cases x with
  | error _ => cases h
  | ok b => exact congrArg _ (Option.some.inj h)

/-- What a walk gives has whatever it gives for a single element. -/
theorem forall_mem_of_mapM {ε α β : Type} {f : α → Except ε β} {P : β → Prop} {l : List α}
    {bs : List β} (h : l.mapM f = .ok bs) (hf : ∀ a b, f a = .ok b → P b) : ∀ b ∈ bs, P b := by
  induction l generalizing bs with
  | nil =>
      cases h
      exact List.forall_mem_nil _
  | cons a rest ih =>
      rw [List.mapM_cons] at h
      obtain ⟨b, hb, h⟩ := bind_eq_ok.mp h
      obtain ⟨later, hlater, h⟩ := bind_eq_ok.mp h
      cases h
      exact List.forall_mem_cons.mpr ⟨hf a b hb, ih hlater⟩

/-- The result is no fault, or one of a kind. -/
def Harmless (kind : Fault → Prop) (r : Except Fault α) : Prop :=
  ∀ fault, r = .error fault → kind fault

section

variable {kind : Fault → Prop}

/-- A result that is told is an answer, or a fault. -/
theorem Harmless.of_ok {r : Except Fault α} {a : α} (h : r = .ok a) : Harmless kind r := by
  rw [h]
  exact nofun

@[simp] theorem harmless_ok (a : α) : Harmless kind (.ok a : Except Fault α) :=
  .of_ok rfl

/-- A failure is harmless just if its fault is of the kind allowed. -/
theorem harmless_error {fault : Fault} :
    Harmless kind (.error fault : Except Fault α) ↔ kind fault := by
  simp [Harmless]

/-- What is done one after the other is harmless if the first thing is, and then the second. -/
theorem harmless_bind {x : Except Fault α} {f : α → Except Fault β} :
    Harmless kind (x >>= f) ↔ Harmless kind x ∧ ∀ a, x = .ok a → Harmless kind (f a) := by
  cases x with
  | error fault =>
      have hsame : (.error fault >>= f : Except Fault β) = .error fault := rfl
      rw [hsame, harmless_error, harmless_error]
      simp
  | ok a => simp [bind, Except.bind]

/-- What holds of the elements of a list, each with those before it, holds of the first one, and of
the others with the first one added to those before them. -/
theorem forall_prefix_cons {P : List α → α → Prop} {a : α} {l : List α} :
    (∀ earlier x, earlier ++ [x] <+: a :: l → P earlier x) ↔
      P [] a ∧ ∀ earlier x, earlier ++ [x] <+: l → P (a :: earlier) x := by
  constructor
  · intro h
    refine ⟨h [] a (by simp), fun earlier x hprefix => h (a :: earlier) x ?_⟩
    exact List.cons_prefix_cons.mpr ⟨rfl, hprefix⟩
  · rintro ⟨hfirst, hrest⟩ earlier x hprefix
    cases earlier with
    | nil =>
        obtain ⟨rfl, -⟩ := List.cons_prefix_cons.mp hprefix
        exact hfirst
    | cons b earlier =>
        rw [List.cons_append, List.cons_prefix_cons] at hprefix
        obtain ⟨rfl, hprefix⟩ := hprefix
        exact hrest earlier x hprefix

/-- A walk is harmless if every element is that it comes to. -/
theorem harmless_mapM {f : α → Except Fault β} {l : List α} :
    Harmless kind (l.mapM f) ↔ ∀ earlier x, earlier ++ [x] <+: l →
      (∀ y ∈ earlier, ∃ b, f y = .ok b) → Harmless kind (f x) := by
  induction l with
  | nil => simp [pure, Except.pure]
  | cons a rest ih =>
      rw [List.mapM_cons, harmless_bind, forall_prefix_cons]
      refine and_congr (by simp) ?_
      constructor
      · intro h earlier x hprefix hearlier
        obtain ⟨⟨b, hb⟩, hearlier⟩ := List.forall_mem_cons.mp hearlier
        exact ih.mp (harmless_bind.mp (h b hb)).1 earlier x hprefix hearlier
      · intro h b hb
        refine harmless_bind.mpr ⟨ih.mpr fun earlier x hprefix hearlier => ?_, fun _ _ => ?_⟩
        · exact h earlier x hprefix (List.forall_mem_cons.mpr ⟨⟨b, hb⟩, hearlier⟩)
        · exact harmless_ok _

end

/-! ## actions that may fail -/

/-- The assertion about how an action ends: one about its answers, and one about its faults. -/
def ending (Q : α → ω → Prop) (E : Fault → ω → Prop) : Except Fault α → ω → Prop
  | .ok a => Q a
  | .error fault => E fault

@[simp] theorem ending_ok (Q : α → ω → Prop) (E : Fault → ω → Prop) (a : α) :
    ending Q E (.ok a) = Q a := rfl

/-- From every world with `P` the action leads to an answer and a world with `Q`, or to a fault and
a world with `E`. -/
def Act.Meets (P : ω → Prop) (x : Act ω α) (Q : α → ω → Prop) (E : Fault → ω → Prop) : Prop :=
  Step.Meets P x.run (ending Q E)

namespace Act

/-! ### runs -/

/-- An action goes on only from an answer. -/
theorem run_bind_apply (x : Act ω α) (f : α → Act ω β) (env : Env ω) :
    (x >>= f).run env =
      match x.run env with
      | (.ok a, env') => (f a).run env'
      | (.error fault, env') => (.error fault, env') := by
  rw [ExceptT.run_bind, Step.bind_apply]
  cases x.run env with
  | mk r env' => cases r <;> rfl

/-- There is an answer after two actions only if each of them gives one. -/
theorem run_bind_eq_ok {x : Act ω α} {f : α → Act ω β} {env env' : Env ω} {b : β} :
    (x >>= f).run env = (.ok b, env') ↔
      ∃ a mid, x.run env = (.ok a, mid) ∧ (f a).run mid = (.ok b, env') := by
  rw [run_bind_apply]
  obtain ⟨r, mid⟩ := x.run env
  constructor
  · cases r with
    | error fault => exact nofun
    | ok a => exact fun h => ⟨a, mid, rfl, h⟩
  · rintro ⟨a, _, ⟨⟩, h⟩
    exact h

/-- Mapping an action changes its answer and nothing else. -/
theorem run_map_apply (f : α → β) (x : Act ω α) (env : Env ω) :
    (f <$> x).run env =
      match x.run env with
      | (.ok a, env') => (.ok (f a), env')
      | (.error fault, env') => (.error fault, env') := by
  rw [ExceptT.run_map]
  change ((x.run env).1.map f, (x.run env).2) = _
  cases x.run env with
  | mk r env' => cases r <;> rfl

/-- A fault is dealt with in the world that it leaves. -/
theorem run_tryCatch_apply (x : Act ω α) (handle : Fault → Act ω α) (env : Env ω) :
    (tryCatch x handle).run env =
      match x.run env with
      | (.ok a, env') => (.ok a, env')
      | (.error fault, env') => (handle fault).run env' := by
  rw [ExceptT.run_tryCatch, Step.bind_apply]
  cases x.run env with
  | mk r env' => cases r <;> rfl

theorem run_note_apply (n : Notice) (env : Env ω) :
    (Act.note n).run env = (.ok (), env.noting [n]) :=
  rfl

/-- A result already had is returned without effects. -/
theorem run_result_apply (r : Except Fault α) (env : Env ω) :
    (ExceptT.mk (pure r) : Act ω α).run env = (r, env) :=
  rfl

/-! ### assertions -/

variable {P P' : ω → Prop} {Q Q' : α → ω → Prop} {R : β → ω → Prop} {E E' : Fault → ω → Prop}

theorem meets_pure {a : α} (h : ∀ w, P w → Q a w) : Meets P (pure a : Act ω α) Q E :=
  fun env hP => h env.world hP

/-- Every action meets the triple that asks nothing. -/
theorem meets_true (x : Act ω α) :
    Meets (fun _ => True) x (fun _ _ => True) (fun _ _ => True) := by
  intro env _
  cases (x.run env).1 with
  | ok a => trivial
  | error fault => trivial

/-- A failure meets what the precondition says of its fault. -/
theorem meets_throw {fault : Fault} (h : ∀ w, P w → E fault w) :
    Meets P (throw fault : Act ω α) Q E :=
  fun env hP => h env.world hP

/-- A triple of an action that may fail holds with a stronger precondition and weaker ends. -/
theorem meets_mono {x : Act ω α} (h : Meets P' x Q' E') (hP : ∀ w, P w → P' w)
    (hQ : ∀ a w, Q' a w → Q a w) (hE : ∀ fault w, E' fault w → E fault w) : Meets P x Q E := by
  refine Step.meets_mono h hP ?_
  intro r w hr
  cases r with
  | ok a => exact hQ a w hr
  | error fault => exact hE fault w hr

/-- A sequence that may fail meets what its second part does, with one condition for failures. -/
theorem meets_bind {x : Act ω α} {f : α → Act ω β} (hx : Meets P x Q E)
    (hf : ∀ a, Meets (Q a) (f a) R E) : Meets P (x >>= f) R E := by
  rw [Meets, ExceptT.run_bind]
  refine Step.meets_bind hx ?_
  intro r
  cases r with
  | ok a => exact hf a
  | error fault => exact fun env hE => hE

/-- A handler turns the condition for failures into the postcondition. -/
theorem meets_tryCatch {x : Act ω α} {handle : Fault → Act ω α} (hx : Meets P x Q E)
    (hh : ∀ fault, Meets (E fault) (handle fault) Q E') :
    Meets P (tryCatch x handle) Q E' := by
  rw [Meets, ExceptT.run_tryCatch]
  refine Step.meets_bind hx ?_
  intro r
  cases r with
  | ok a => exact fun env hQ => hQ
  | error fault => exact hh fault

/-- A mapped action meets what the action does of its mapped answers. -/
theorem meets_map {x : Act ω α} {f : α → β} (hx : Meets P x (fun a => R (f a)) E) :
    Meets P (f <$> x) R E := by
  intro env hP
  have h := hx env hP
  have hrun : (f <$> x).run env = (((x.run env).1).map f, (x.run env).2) := by
    rw [ExceptT.run_map]
    rfl
  rw [hrun]
  cases hr : (x.run env).1 with
  | ok a => rw [hr] at h; exact h
  | error fault => rw [hr] at h; exact h

/-- A step that does not fail, in the course of an action that may. -/
theorem meets_lift {x : Step ω α} (h : Step.Meets P x Q) : Meets P (liftM x : Act ω α) Q E :=
  fun env hP => h env hP

theorem meets_note {n : Notice} : Meets P (Act.note n) (fun _ => P) E :=
  fun _ hP => hP

theorem meets_and {φ : Prop} {x : Act ω α} (h : φ → Meets P x Q E) :
    Meets (fun w => φ ∧ P w) x Q E :=
  Step.meets_and h

/-- In a world with `P` the action ends in just this way, and `R` holds then. -/
def Tells (P : ω → Prop) (x : Act ω α) (r : Except Fault α) (R : ω → Prop) : Prop :=
  Meets P x (fun a w => r = .ok a ∧ R w) (fun fault w => r = .error fault ∧ R w)

/-- A result already had tells just itself, whatever held before. -/
theorem tells_result (P : ω → Prop) (r : Except Fault α) : Tells P (ExceptT.mk (pure r)) r P := by
  intro env hw
  cases r with
  | ok a => exact ⟨rfl, hw⟩
  | error fault => exact ⟨rfl, hw⟩

end Act

/-! ## what is kept -/

/-- What held of the world before the step holds of it afterwards. -/
def Step.Keeps (P : ω → Prop) (x : Step ω α) : Prop :=
  Step.Meets P x (fun _ => P)

/-- What held of the world before the action holds of it afterwards, also if it fails. -/
def Act.Keeps (P : ω → Prop) (x : Act ω α) : Prop :=
  Act.Meets P x (fun _ => P) (fun _ => P)

namespace Step

variable {P : ω → Prop}

theorem keeps_pure (a : α) : Keeps P (pure a : Step ω α) :=
  meets_pure fun _ hP => hP

/-- A sequence keeps what both of its parts keep. -/
theorem keeps_bind {x : Step ω α} {f : α → Step ω β} (hx : Keeps P x)
    (hf : ∀ a, Keeps P (f a)) : Keeps P (x >>= f) :=
  meets_bind hx hf

theorem keeps_note (n : Notice) : Keeps P (note n) :=
  meets_note

/-- A change of the world keeps what the change does. -/
theorem keeps_inWorld {f : ω → α × ω} (h : ∀ w, P w → P (f w).2) : Keeps P (inWorld f) :=
  fun env => h env.world

end Step

namespace Act

variable {P : ω → Prop}

theorem keeps_pure (a : α) : Keeps P (pure a : Act ω α) :=
  meets_pure fun _ hP => hP

theorem keeps_throw (fault : Fault) : Keeps P (throw fault : Act ω α) :=
  meets_throw fun _ hP => hP

/-- A sequence that may fail keeps what both of its parts keep. -/
theorem keeps_bind {x : Act ω α} {f : α → Act ω β} (hx : Keeps P x)
    (hf : ∀ a, Keeps P (f a)) : Keeps P (x >>= f) :=
  meets_bind hx hf

/-- An action with a handler keeps what the action and the handler keep. -/
theorem keeps_tryCatch {x : Act ω α} {handle : Fault → Act ω α} (hx : Keeps P x)
    (hh : ∀ fault, Keeps P (handle fault)) : Keeps P (tryCatch x handle) :=
  meets_tryCatch hx hh

theorem keeps_note (n : Notice) : Keeps P (Act.note n) :=
  meets_note

/-- A result that has been found already. -/
theorem keeps_result (r : Except Fault α) : Keeps P (ExceptT.mk (pure r) : Act ω α) := by
  cases r with
  | ok a => exact keeps_pure a
  | error fault => exact keeps_throw fault

/-- A step keeps what it did when taken as an action. -/
theorem keeps_lift {x : Step ω α} (hx : Step.Keeps P x) : Keeps P (liftM x : Act ω α) :=
  meets_lift hx

/-- Whether an action fails does not matter to what it keeps. -/
theorem keeps_run {x : Act ω α} (hx : Keeps P x) : Step.Keeps P x.run := by
  refine Step.meets_mono hx (fun _ hP => hP) ?_
  intro r w hr
  cases r with
  | ok a => exact hr
  | error fault => exact hr

/-- An action keeps what its run keeps as a step. -/
theorem keeps_of_run {x : Act ω α} (hx : Step.Keeps P x.run) : Keeps P x := by
  refine Step.meets_mono hx (fun _ hP => hP) ?_
  intro r w hw
  cases r with
  | ok a => exact hw
  | error fault => exact hw

/-- A change of the world that may fail keeps what the change does. -/
theorem keeps_inWorldTry {f : ω → Except Fault α × ω} (h : ∀ w, P w → P (f w).2) :
    Keeps P (inWorldTry f) :=
  keeps_of_run (Step.keeps_inWorld h)

end Act

end Symbolication
