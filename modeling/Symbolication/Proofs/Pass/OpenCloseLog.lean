import Symbolication.Proofs.Pass.Recording

/-!
# Symbolication.Proofs.Pass.OpenCloseLog

A log of the segments that are opened and closed, with the environments around each
of these.  What happens between them is then in plain sight, too:

* `OpenCloseEvent`, `Inspector.logged` — the log, and the inspector that keeps it;
* `shows_logged` — the log changes nothing else;
* `Between` — the notices that are given between one event and the next.
-/

namespace Symbolication

variable {ω η : Type}

/-! ## the log -/

/-- A segment is opened or closed, from an environment to another. -/
inductive OpenCloseEvent (ω η : Type) where
  /-- The segment of a part of a file is opened. -/
  | opening (region : Region) (before : Env ω) (ended : Except Fault η) (after : Env ω)
  /-- A segment is closed. -/
  | closing (segment : η) (before : Env ω) (ended : Except Fault Unit) (after : Env ω)

namespace OpenCloseEvent

/-- The environment before. -/
def before : OpenCloseEvent ω η → Env ω
  | opening _ env .. | closing _ env .. => env

/-- The environment afterwards. -/
def after : OpenCloseEvent ω η → Env ω
  | opening _ _ _ env | closing _ _ _ env => env

/-- What is opened, and what comes of it. -/
def opened? : OpenCloseEvent ω η → Option (Region × Except Fault η)
  | opening region _ ended _ => some (region, ended)
  | closing .. => none

/-- What is closed, and what comes of it. -/
def closed? : OpenCloseEvent ω η → Option (η × Except Fault Unit)
  | opening .. => none
  | closing segment _ ended _ => some (segment, ended)

end OpenCloseEvent

/-- The inspector that also logs what is opened and closed. -/
def Inspector.logged (inspector : Inspector ω η) :
    Inspector (Watched ω (List (OpenCloseEvent ω η))) η where
  openRegion region :=
    Act.logged (fun before ended after log => log ++ [.opening region before ended after])
      (inspector.openRegion region)
  buildId := inspector.buildId
  lookup segment address := Act.watched (inspector.lookup segment address)
  prefetch? segment := (inspector.prefetch? segment).map fun prefetch addresses =>
    Act.watched (prefetch addresses)
  close segment :=
    Act.logged (fun before ended after log => log ++ [.closing segment before ended after])
      (inspector.close segment)
  fastSwitch? := inspector.fastSwitch?.map fun switch =>
    { isOn := fun w => switch.isOn w.world, set := fun on => Step.watched (switch.set on) }

/-- A logged inspector does what the inspector does, and only keeps a log besides. -/
theorem shows_logged (inspector : Inspector ω η) :
    inspector.logged.Shows Watched.world id inspector where
  openRegion _ := Act.mirrors_logged _ _
  buildId _ := rfl
  lookup _ _ := Act.mirrors_watched _
  prefetch segment := by
    have hlogged : inspector.logged.prefetch? segment =
        (inspector.prefetch? segment).map fun prefetch addresses =>
          Act.watched (prefetch addresses) := rfl
    rw [hlogged, id]
    cases inspector.prefetch? segment with
    | none => exact .none
    | some prefetch => exact .some fun addresses => Act.mirrors_watched _
  close _ := Act.mirrors_logged _ _
  fastSwitch := by
    have hlogged : inspector.logged.fastSwitch? = inspector.fastSwitch?.map fun switch =>
        { isOn := fun w => switch.isOn w.world, set := fun on => Step.watched (switch.set on) } :=
      rfl
    rw [hlogged]
    cases inspector.fastSwitch? with
    | none => exact .none
    | some switch => exact .some ⟨fun _ => rfl, fun _ => Step.mirrors_watched _⟩

section

variable {inspector : Inspector ω η} {env env' : Env (Watched ω (List (OpenCloseEvent ω η)))}

/-- Opening a region is logged once, with what it came to. -/
theorem seen_of_openRegion {region : Region} {r : Except Fault η}
    (h : (inspector.logged.openRegion region).run env = (r, env')) :
    env'.world.seen = env.world.seen ++ [.opening region env.plain r env'.plain] := by
  cases h
  rfl

/-- Closing a segment is logged once, with what it came to. -/
theorem seen_of_close {segment : η} {r : Except Fault Unit}
    (h : (inspector.logged.close segment).run env = (r, env')) :
    env'.world.seen = env.world.seen ++ [.closing segment env.plain r env'.plain] := by
  cases h
  rfl

end

/-! ## between events -/

/-- From one environment to another there is nothing but what has been logged, and these notices
before, between and after. -/
inductive Between : Env ω → List (OpenCloseEvent ω η) → Env ω → List Notice → Prop where
  /-- Nothing more is opened or closed. -/
  | rest (env : Env ω) (given : List Notice) : Between env [] (env.noting given) given
  /-- Some notices are given until something is opened or closed. -/
  | cons {env last : Env ω} {event : OpenCloseEvent ω η} {log : List (OpenCloseEvent ω η)}
      {given later : List Notice} (hbefore : event.before = env.noting given)
      (hlater : Between event.after log last later) :
      Between env (event :: log) last (given ++ later)

namespace Between

variable {env mid last : Env ω} {log log' : List (OpenCloseEvent ω η)} {given given' : List Notice}

theorem nil (env : Env ω) : Between env ([] : List (OpenCloseEvent ω η)) env [] := by
  have hrest := rest (η := η) env []
  rwa [noting_nil] at hrest

/-- An event alone is the log between its own environments. -/
theorem single (event : OpenCloseEvent ω η) :
    Between event.before [event] event.after [] :=
  cons (noting_nil _).symm (nil _)

/-- Notices at the beginning are given before anything is opened or closed. -/
theorem noting_left (h : Between (env.noting given) log last given') :
    Between env log last (given ++ given') := by
  cases h with
  | rest _ _ =>
      rw [noting_append]
      exact rest env _
  | cons hbefore hlater =>
      rw [← List.append_assoc]
      exact cons (by rw [hbefore, noting_append]) hlater

/-- Logs between environments are put together where they meet. -/
theorem append (h : Between env log mid given) (h' : Between mid log' last given') :
    Between env (log ++ log') last (given ++ given') := by
  induction h with
  | rest env given => exact noting_left h'
  | cons hbefore _ ih =>
      rw [List.append_assoc]
      exact cons hbefore (ih h')

/-- Notices given at the end belong to the stretch that ends there. -/
theorem noting (h : Between env log last given) (later : List Notice) :
    Between env log (last.noting later) (given ++ later) := by
  have happend := h.append (rest last later)
  rwa [List.append_nil] at happend

end Between

end Symbolication
