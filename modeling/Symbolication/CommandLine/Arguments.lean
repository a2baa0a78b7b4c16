import Symbolication.Directive
import Symbolication.Number.RealNumeral
import Symbolication.Remote.Request
import Symbolication.Text.Quoted

/-!
# Symbolication.CommandLine.Arguments

The arguments of the command. Options may stand before and after the profile,
long ones may be cut short as long as they are told apart, a value may be attached
with an equals sign, and options of one letter, none of which takes a value, may
be written together. After two hyphens everything is a word.
-/

namespace Symbolication.CommandLine

open Number Text

/-- The options. -/
inductive OptionName where
  | help
  | symbolize
  | binary
  | symbolServer
  | httpTimeout
  | lineTool
  | output
  | writeProfile
  | verbose
deriving DecidableEq, Repr

namespace OptionName

/-- All options. -/
def all : List OptionName :=
  [help, symbolize, binary, symbolServer, httpTimeout, lineTool, output, writeProfile, verbose]

/-- How an option is spelled. -/
def spellings : OptionName → List String
  | help => ["-h", "--help"]
  | symbolize => ["--symbolize"]
  | binary => ["--binary"]
  | symbolServer => ["--symbol-server"]
  | httpTimeout => ["--http-timeout"]
  | lineTool => ["--addr2line"]
  | output => ["--output"]
  | writeProfile => ["--write-profile"]
  | verbose => ["--verbose", "-v"]

/-- Whether an option takes a value. -/
def takesValue : OptionName → Bool
  | help | verbose => false
  | _ => true

/-- The option as messages name it. -/
def title (o : OptionName) : String :=
  "/".intercalate o.spellings

/-- All spellings with their options. -/
def spelled : List (String × OptionName) :=
  all.flatMap fun o => o.spellings.map (·, o)

end OptionName

/-- Why arguments are refused. -/
inductive Flaw where
  | ambiguous (text : String) (candidates : List String)
  | valueMissing (option : OptionName)
  | valueIgnored (option : OptionName) (value : String)
  | notANumber (option : OptionName) (value : String)
  | profileMissing
  | unrecognized (texts : List String)
deriving DecidableEq, Repr

/-- The wording of a flaw. -/
def Flaw.message : Flaw → String
  | ambiguous text candidates =>
    "ambiguous option: " ++ text ++ " could match " ++ ", ".intercalate candidates
  | valueMissing option => "argument " ++ option.title ++ ": expected one argument"
  | valueIgnored option value =>
    "argument " ++ option.title ++ ": ignored explicit argument " ++ quotedString value
  | notANumber option value =>
    "argument " ++ option.title ++ ": invalid float value: " ++ quotedString value
  | profileMissing => "the following arguments are required: PROFILE"
  | unrecognized texts => "unrecognized arguments: " ++ " ".intercalate texts

/-! ## Tokens -/

/-- An argument by its form. -/
inductive Token where
  | word (text : String)
  | endOfOptions
  | option (name : OptionName) (byLetter : Bool) (attached : Option (List Char))
  | unknown (text : String)
deriving DecidableEq, Repr

/-- Whether the text is a negative number, apart from a line feed at its end. -/
def isNegativeNumber (s : List Char) : Bool :=
  let s := if s.getLast? == some '\n' then s.dropLast else s
  match s with
  | '-' :: rest =>
    match rest.dropWhile isDecimalDigit with
    | [] => !rest.isEmpty
    | '.' :: fraction => !fraction.isEmpty && fraction.all isDecimalDigit
    | _ => false
  | _ => false

/-- What begins with a hyphen and is no option: a word if it is a negative number or has a space.
-/
def Token.ofOther (text : String) : Token :=
  if isNegativeNumber text.toList || text.toList.contains ' ' then .word text else .unknown text

/-- The token of a text with two hyphens in front, of which the spellings that begin like it are
given. -/
def Token.ofLong (text : String) (attached : Option (List Char)) :
    List (String × OptionName) → Except Flaw Token
  | [] => .ok (.ofOther text)
  | [(_, o)] => .ok (.option o false attached)
  | candidates => .error (.ambiguous text (candidates.map (·.1)))

/-- The form of an argument. -/
def classify (text : String) : Except Flaw Token :=
  let s := text.toList
  let name := s.takeWhile (· != '=')
  let attached := if s.contains '=' then some (s.drop (name.length + 1)) else none
  match s with
  | '-' :: c :: rest =>
    match OptionName.spelled.lookup text, OptionName.spelled.lookup (String.ofList name) with
    | some o, _ => .ok (.option o (c != '-') none)
    | none, some o => .ok (.option o (c != '-') attached)
    | none, none =>
      if c == '-' then
        Token.ofLong text attached
          (OptionName.spelled.filter fun (s, _) => name.isPrefixOf s.toList)
      else
        match OptionName.spelled.lookup (String.ofList ['-', c]) with
        | some o => .ok (.option o true (some rest))
        | none => .ok (.ofOther text)
  | _ => .ok (.word text)

/-- The forms of arguments. -/
def tokens : List String → Except Flaw (List Token)
  | [] => .ok []
  | text :: rest =>
    if text == "--" then
      .ok (.endOfOptions :: rest.map .word)
    else do
      let token ← classify text
      return token :: (← tokens rest)

/-! ## Reading -/

/-- What an option is given for its value. -/
inductive Given where
  | word (text : String)
  /-- Nothing: where two hyphens are attached as the value, they are taken away and none is left.
  -/
  | nothing
deriving DecidableEq, Repr

namespace Given

/-- What an attached text gives. -/
def ofAttached (text : List Char) : Given :=
  if text == ['-', '-'] then .nothing else .word (String.ofList text)

/-- The word that is given. -/
def word? : Given → Option String
  | .word text => some text
  | .nothing => none

/-- The word that is given, empty if there is none. -/
def wordD (g : Given) : String :=
  g.word?.getD ""

end Given

/-- The arguments. -/
structure Arguments where
  profile : String
  directive : Option Given := none
  /-- The file of the main binary, empty if none is named. -/
  binary : String := ""
  servers : List Given := []
  patience : Patience := .unlimited
  lineTool : Given := .word "addr2line"
  /-- Where to write the report, empty if it is to be printed. -/
  output : String := ""
  writeProfile : String := ""
  verbose : Bool := false
deriving DecidableEq, Repr

/-- Why reading arguments stops. -/
inductive Stop where
  | help
  | refused (flaw : Flaw)
deriving DecidableEq, Repr

/-- What has been read so far. -/
structure Reading where
  /-- The arguments; the profile counts only if it is found. -/
  arguments : Arguments := { profile := "" }
  found : Bool := false
  extras : List String := []
deriving DecidableEq, Repr

namespace Reading

/-- How long to wait, as the option for it is given. -/
def patienceOf (o : OptionName) : Given → Except Stop Patience
  | .nothing => .ok .unstated
  | .word text =>
    match real? text.toList with
    | some x => .ok (.seconds x)
    | none => .error (.refused (.notANumber o text))

/-- With the value of an option. -/
def setValue (r : Reading) (o : OptionName) (given : Given) : Except Stop Reading :=
  let a := r.arguments
  match o with
  | .symbolize => .ok { r with arguments := { a with directive := some given } }
  | .binary => .ok { r with arguments := { a with binary := given.wordD } }
  | .symbolServer => .ok { r with arguments := { a with servers := a.servers ++ [given] } }
  | .httpTimeout => do
    return { r with arguments := { a with patience := ← patienceOf o given } }
  | .lineTool => .ok { r with arguments := { a with lineTool := given } }
  | .output => .ok { r with arguments := { a with output := given.wordD } }
  | .writeProfile => .ok { r with arguments := { a with writeProfile := given.wordD } }
  | .help | .verbose => .ok r

/-- With an option that takes no value. -/
def turnOn (r : Reading) (o : OptionName) : Except Stop Reading :=
  match o with
  | .help => .error .help
  | .verbose => .ok { r with arguments := { r.arguments with verbose := true } }
  | _ => .ok r

/-- With something that has no meaning. -/
def addExtra (r : Reading) (text : String) : Reading :=
  { r with extras := r.extras ++ [text] }

/-- With a word: the first one is the profile. -/
def addWord (r : Reading) (text : String) : Reading :=
  if r.found then r.addExtra text
  else { r with arguments := { r.arguments with profile := text }, found := true }

end Reading

/-- The options that the letters attached to an option spelled by a letter stand for, behind that
option. All letters have to be options, and there has to be one. -/
def letters (o : OptionName) : List Char → Except Flaw (List OptionName)
  | [] => .error (.valueIgnored o "")
  | c :: rest =>
    match OptionName.spelled.lookup (String.ofList ['-', c]), rest with
    | none, _ => .error (.valueIgnored o (String.ofList (c :: rest)))
    | some next, [] => .ok [o, next]
    | some next, rest => (letters next rest).map (o :: ·)

namespace Reading

/-- With an option that takes no value, and what is attached to it. -/
def addFlag (r : Reading) (o : OptionName) (byLetter : Bool) :
    Option (List Char) → Except Stop Reading
  | none => r.turnOn o
  | some text =>
    if byLetter then do
      let os ← (letters o text).mapError Stop.refused
      os.foldlM turnOn r
    else
      .error (.refused (.valueIgnored o (String.ofList text)))

/-- Reads tokens; `afterProfile` tells that the token before was the profile, so that an end of
options belongs to it. -/
def addTokens (r : Reading) (afterProfile : Bool) : List Token → Except Stop Reading
  | [] => .ok r
  | .word text :: rest => (r.addWord text).addTokens (!r.found) rest
  | .endOfOptions :: rest =>
    if afterProfile || (!r.found && !rest.isEmpty) then r.addTokens false rest
    else (r.addExtra "--").addTokens false rest
  | .unknown text :: rest => (r.addExtra text).addTokens false rest
  | .option o byLetter attached :: rest =>
    if !o.takesValue then do
      (← r.addFlag o byLetter attached).addTokens false rest
    else
      match attached, rest with
      | some text, rest => do
        (← r.setValue o (.ofAttached text)).addTokens false rest
      | none, .word text :: rest => do
        (← r.setValue o (.word text)).addTokens false rest
      | none, _ => .error (.refused (.valueMissing o))

/-- The arguments that have been read. -/
def finish (r : Reading) : Except Stop Arguments :=
  if !r.found then .error (.refused .profileMissing)
  else if !r.extras.isEmpty then .error (.refused (.unrecognized r.extras))
  else .ok r.arguments

end Reading

/-- Reads the arguments of the command. -/
def readArguments (texts : List String) : Except Stop Arguments := do
  let ts ← (tokens texts).mapError Stop.refused
  let r ← ({} : Reading).addTokens false ts
  r.finish

/-! ## Usage -/

/-- How the command is used. -/
def usage : String :=
  "usage: profsym [-h] [--symbolize MODE] [--binary BINARY] [--symbol-server URL]\n" ++
  "               [--http-timeout HTTP_TIMEOUT] [--addr2line ADDR2LINE]\n" ++
  "               [--output OUTPUT] [--write-profile FILE] [--verbose]\n" ++
  "               PROFILE\n"

/-- The help on the command. -/
def helpText : String :=
  usage ++
  "\nprofsym - resolve profile addresses to function, file and line.\n" ++
  "\npositional arguments:\n" ++
  "  PROFILE               Path to a JSON profile.\n" ++
  "\noptions:\n" ++
  "  -h, --help            show this help message and exit\n" ++
  "  --symbolize MODE      Symbolization mode: [local|fastlocal|remote|none][:for\n" ++
  "                        ce][:demangle=[none|full|templates|default]]. Default:\n" ++
  "                        local, then remote.\n" ++
  "  --binary BINARY       Path to the main binary. Overrides the file of the\n" ++
  "                        first mapping.\n" ++
  "  --symbol-server URL   Profile source URL used for remote symbolization. Can\n" ++
  "                        be given multiple times.\n" ++
  "  --http-timeout HTTP_TIMEOUT\n" ++
  "                        Timeout in seconds for each symbol server request\n" ++
  "                        (default: none).\n" ++
  "  --addr2line ADDR2LINE\n" ++
  "                        addr2line executable (default: addr2line).\n" ++
  "  --output OUTPUT       Write the report to this file instead of stdout.\n" ++
  "  --write-profile FILE  Write the symbolized profile as JSON to this file.\n" ++
  "  --verbose, -v         Enable debug logging.\n"

/-- What is said when arguments are refused. -/
def refusal (flaw : Flaw) : String :=
  usage ++ "profsym: error: " ++ flaw.message ++ "\n"

end Symbolication.CommandLine
