import Symbolication.Text.Lowercase
import Symbolication.Text.Search

/-!
# Symbolication.Directive

What a run is asked to do. A directive is a list of words between colons, in any
case: where to look for symbols, whether to begin anew, and how names are to be
shown. Words that are not understood are reported and otherwise ignored.

* `Directive.ofWords_skip`: a word that calls everything off settles the matter.
-/

namespace Symbolication

open Text

/-- How function names are shown. -/
inductive NameStyle where
  /-- Without parameters and template arguments. -/
  | simple
  /-- In full, without clone suffixes. -/
  | full
  /-- As the binary reports them. -/
  | system
  /-- Without parameters. -/
  | templates
deriving DecidableEq, Repr

/-- What a run is asked to do. -/
structure Directive where
  tryLocal : Bool := true
  tryRemote : Bool := true
  force : Bool := false
  style : NameStyle := .simple
  fast : Bool := false
  skip : Bool := false
deriving DecidableEq, Repr

namespace Directive

/-- A word of a directive. -/
inductive Word where
  | skip
  | useLocal (fast : Bool)
  | useRemote
  | force
  /-- Show names in this style, and begin anew. -/
  | style (style : NameStyle)
  | usual
  | unknown (text : String)
deriving DecidableEq, Repr

/-- The word that a text in lower case is. -/
def Word.ofText (text : String) : Word :=
  if text == "none" || text == "no" then .skip
  else if text == "local" then .useLocal false
  else if text == "fastlocal" then .useLocal true
  else if text == "remote" then .useRemote
  else if text == "" || text == "force" then .force
  else if text == "demangle=full" then .style .full
  else if text == "demangle=none" then .style .system
  else if text == "demangle=templates" then .style .templates
  else if text == "demangle=default" then .usual
  else .unknown text

/-- The directive changed by a word. -/
def apply (d : Directive) : Word → Directive
  | .skip => { tryLocal := false, tryRemote := false, skip := true }
  | .useLocal fast => { d with tryLocal := true, tryRemote := false, fast }
  | .useRemote => { d with tryLocal := false, tryRemote := true }
  | .force => { d with force := true }
  | .style style => { d with style, force := true }
  | .usual => d
  | .unknown _ => d

/-- The directive of a list of words, which are taken in order until one calls everything off, and
those among them that are not understood. -/
def ofWords (d : Directive) : List Word → Directive × List String
  | [] => (d, [])
  | .skip :: _ => (d.apply .skip, [])
  | .unknown text :: rest =>
    let (d, unknown) := ofWords d rest
    (d, text :: unknown)
  | word :: rest => ofWords (d.apply word) rest

/-- The words of a directive. -/
def words (text : String) : List Word :=
  (splitOn ':' (lowercase text.toList)).map fun word => Word.ofText (String.ofList word)

/-- The directive that a text gives, and the words in it that are not understood. Without a text
nothing special is asked for. -/
def parse : Option String → Directive × List String
  | none => ({}, [])
  | some text => ofWords {} (words text)

/-- How a directive is written. -/
def usage : String :=
  "[local|fastlocal|remote|none][:force][:demangle=[none|full|templates|default]]"

/-- A word that calls everything off settles the matter. -/
theorem ofWords_skip (d : Directive) (ws : List Word) (h : Word.skip ∈ ws) :
    (ofWords d ws).1 = { tryLocal := false, tryRemote := false, skip := true } := by
  induction ws generalizing d with
  | nil => simp at h
  | cons w ws ih =>
    cases w <;> simp_all [ofWords, apply]

end Directive

/-- The style as messages name it. -/
def NameStyle.name : NameStyle → String
  | .simple => "default"
  | .full => "full"
  | .system => "none"
  | .templates => "templates"

end Symbolication
