import Symbolication.Elf.Symbols
import Symbolication.Frame.Memo
import Symbolication.Name.Decoder

/-!
# Symbolication.Workshop

A world together with what is kept while profiles are worked on: the setting of
the object inspector, the objects it has open, with what is already known of
them, and the names that have been decoded.

* `segment?_putSegment`, `segment?_dropSegment`: keeping the state of one segment
  does not touch the others.
-/

namespace Symbolication

/-- What is known of an object while it is open. -/
structure OpenObject where
  memo : FrameMemo := {}
  /-- The functions of the object, once they have been read. -/
  symbols : Option (List Elf.Symbol) := none
deriving DecidableEq, Repr

/-- A world with what is kept while profiles are worked on. -/
structure Workshop (ω : Type) where
  outside : ω
  fast : Bool := false
  /-- How many segments have been asked for. -/
  asked : Nat := 0
  segments : List (Nat × OpenObject) := []
  names : DecodedNames := {}

namespace Workshop

variable {ω α : Type}

/-- The state of a segment, if it is open. -/
def segment? (w : Workshop ω) (number : Nat) : Option OpenObject :=
  w.segments.lookup number

/-- The workshop without a segment. -/
def dropSegment (number : Nat) (w : Workshop ω) : Workshop ω :=
  { w with segments := w.segments.filter (·.1 != number) }

/-- The workshop with a new state of a segment. -/
def putSegment (number : Nat) (object : OpenObject) (w : Workshop ω) : Workshop ω :=
  { w with segments := (number, object) :: w.segments.filter (·.1 != number) }

theorem lookup_filter_ne {number other : Nat} (segments : List (Nat × OpenObject)) :
    (segments.filter (·.1 != number)).lookup other =
      if other = number then none else segments.lookup other := by
  induction segments with
  | nil => simp
  | cons s rest ih =>
    obtain ⟨n, object⟩ := s
    by_cases h : n = number
    · subst h
      by_cases ho : other = n
      · simpa [List.filter_cons, ho] using ih
      · have hb : (other == n) = false := by simpa using ho
        simpa [List.filter_cons, List.lookup_cons, ho, hb] using ih
    · have hn : (n != number) = true := by simpa using h
      by_cases ho : other = n
      · subst ho
        simp [hn, h]
      · have hb : (other == n) = false := by simpa using ho
        simpa [List.filter_cons, List.lookup_cons, hn, hb] using ih

/-- A segment that is dropped is open no longer. -/
theorem segment?_dropSegment (w : Workshop ω) (number other : Nat) :
    (w.dropSegment number).segment? other = if other = number then none else w.segment? other :=
  lookup_filter_ne w.segments

/-- A new state is found again. -/
theorem segment?_putSegment (w : Workshop ω) (number other : Nat) (object : OpenObject) :
    (w.putSegment number object).segment? other =
      if other = number then some object else w.segment? other := by
  simp only [segment?, putSegment, List.lookup_cons, lookup_filter_ne]
  by_cases h : other = number
  · simp [h]
  · have hb : (other == number) = false := by simpa using h
    simp [h, hb]

/-! ## Actions in a workshop -/

/-- An action of the world outside. -/
def outsideStep (step : Step ω α) : Step (Workshop ω) α := fun env =>
  let (a, out) := step { world := env.world.outside, notices := env.notices }
  (a, { world := { env.world with outside := out.world }, notices := out.notices })

/-- An action of the world outside that may fail. -/
def outsideAct (act : Act ω α) : Act (Workshop ω) α :=
  ExceptT.mk (outsideStep act.run)

/-- Changes the workshop. -/
def change (f : Workshop ω → Workshop ω) : Act (Workshop ω) Unit :=
  ExceptT.lift (modify fun env => { env with world := f env.world })

/-- The workshop as it is. -/
def look : Act (Workshop ω) (Workshop ω) :=
  ExceptT.lift ((·.world) <$> get)

/-- Decodes names with a tool, and remembers them. -/
def demangler (tools : ToolRunner ω) (tool : String) : Demangler (Workshop ω) :=
  fun name options => do
    let w ← look
    let (names, answer) ← outsideAct (w.names.decode tools tool name options)
    change fun w => { w with names }
    return answer

end Workshop

end Symbolication
