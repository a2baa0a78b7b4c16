import Symbolication.Text.Quoted
import Symbolication.Url.AddressLiteral

/-!
# Symbolication.Url.Basic

Cutting URLs into scheme, authority, path, query and fragment, and putting them
together again. Control characters and spaces in front of a URL, and tabs and
line ends anywhere in it, are ignored. An authority is refused if its brackets are
not around its whole host, if what stands between them is no address, or if it
holds a character that normalisation would turn into a delimiter.

* `Url.authority_splitAuthority`: the authority holds no delimiter.
-/

namespace Symbolication

open Number Text

/-- A URL in its five parts, without the delimiters between them. -/
structure Url where
  scheme : List Char
  /-- The authority: the host, and what is said along with it. -/
  authority : List Char
  path : List Char
  query : List Char
  fragment : List Char
deriving DecidableEq, Repr

namespace Url

/-- Why a text is refused as a URL. -/
inductive Flaw where
  | misplacedBracket
  | notAnAddress (host : List Char)
  /-- The address between the brackets does not belong there. -/
  | bracketedOctets
  /-- The address of a version yet to come is not in its form. -/
  | futureAddress
  /-- A character of the authority would become a delimiter. -/
  | hiddenDelimiter (authority : List Char)
  | noScheme (url : List Char)
deriving DecidableEq, Repr

/-- The wording of a flaw. -/
def Flaw.text : Flaw → String
  | .misplacedBracket => "Invalid IPv6 URL"
  | .notAnAddress host =>
    String.ofList (quoted host) ++ " does not appear to be an IPv4 or IPv6 address"
  | .bracketedOctets => "An IPv4 address cannot be in brackets"
  | .futureAddress => "IPvFuture address is invalid"
  | .hiddenDelimiter authority =>
    "netloc '" ++ String.ofList authority ++
      "' contains invalid characters under NFKC normalization"
  | .noScheme url => "unknown url type: " ++ String.ofList (quoted url)

/-- The text without what a URL may not hold: control characters and spaces in front, tabs and line
ends anywhere. -/
def clean (s : List Char) : List Char :=
  (s.dropWhile (·.toNat ≤ 0x20)).filter fun c => c != '\t' && c != '\r' && c != '\n'

/-- Whether the character may stand in a scheme. -/
def isSchemeChar (c : Char) : Bool :=
  c.isAlphanum || c == '+' || c == '-' || c == '.'

/-- The scheme, in lower case, and what follows its colon; no scheme if the text does not begin
with one. -/
def splitScheme (s : List Char) : List Char × List Char :=
  let name := s.takeWhile (· != ':')
  match s.drop name.length, name with
  | _ :: rest, first :: _ =>
    if first.isAlpha && name.all isSchemeChar then (name.map Char.toLower, rest) else ([], s)
  | _, _ => ([], s)

/-- Whether the character ends an authority. -/
def endsAuthority (c : Char) : Bool :=
  c == '/' || c == '?' || c == '#'

/-- The authority, if the text begins with two slashes, and what follows it. -/
def splitAuthority : List Char → List Char × List Char
  | '/' :: '/' :: rest => (rest.takeWhile (!endsAuthority ·), rest.dropWhile (!endsAuthority ·))
  | s => ([], s)

/-- The text before the first occurrence of a character, and the text after it. -/
def cutAt (sep : Char) (s : List Char) : List Char × List Char :=
  (s.takeWhile (· != sep), (s.dropWhile (· != sep)).drop 1)

/-- Whether the text has the form of an address of a version yet to come: a letter, the version in
hexadecimal, a point, and something more. -/
def isFutureAddress (s : List Char) : Bool :=
  let afterVersion := (s.drop 1).dropWhile isHexDigit
  afterVersion.length < (s.drop 1).length && afterVersion.head? == some '.' &&
    1 < afterVersion.length

/-- Checks an address that stands, or should stand, between the brackets of an authority. -/
def checkAddress (host : List Char) : Except Flaw Unit :=
  if host.head? == some 'v' then
    if isFutureAddress host then .ok () else .error .futureAddress
  else if AddressLiteral.isFourOctets host then
    .error .bracketedOctets
  else if AddressLiteral.isEightGroups host then
    .ok ()
  else
    .error (.notAnAddress host)

/-- The part of an authority behind its last at sign: the host, perhaps with a colon and more. -/
def hostPart (authority : List Char) : List Char :=
  (authority.reverse.takeWhile (· != '@')).reverse

/-- Checks a host of an authority with brackets. Nothing may stand before the first bracket, and
behind the closing one nothing but a colon and what follows it. If the host has no opening bracket
it is taken for an address up to its first colon. -/
def checkHost (host : List Char) : Except Flaw Unit :=
  if host.contains '[' then
    let (before, bracketed) := cutAt '[' host
    let (address, after) := cutAt ']' bracketed
    if before.isEmpty && (after.isEmpty || after.head? == some ':') then checkAddress address
    else .error .misplacedBracket
  else
    checkAddress (cutAt ':' host).1

/-- Checks the brackets of an authority. -/
def checkBrackets (authority : List Char) : Except Flaw Unit :=
  match authority.contains '[', authority.contains ']' with
  | false, false => .ok ()
  | true, true => checkHost (hostPart authority)
  | _, _ => .error .misplacedBracket

/-- The code points beyond ASCII that compatibility normalisation turns into texts with a
delimiter. -/
def delimiterLookalikes : List Nat :=
  [0x2047, 0x2048, 0x2049, 0x2100, 0x2101, 0x2105, 0x2106, 0x2A74, 0xFE13, 0xFE16, 0xFE55, 0xFE56,
   0xFE5F, 0xFE6B, 0xFF03, 0xFF0F, 0xFF1A, 0xFF1F, 0xFF20]

/-- Checks that no character of an authority would become a delimiter. -/
def checkDelimiters (authority : List Char) : Except Flaw Unit :=
  if authority.any fun c => delimiterLookalikes.contains c.toNat then
    .error (.hiddenDelimiter authority)
  else
    .ok ()

/-- Cuts a text into the parts of a URL. -/
def split (s : List Char) : Except Flaw Url := do
  let (scheme, rest) := splitScheme (clean s)
  let (authority, rest) := splitAuthority rest
  checkBrackets authority
  let (rest, fragment) := cutAt '#' rest
  let (path, query) := cutAt '?' rest
  checkDelimiters authority
  return { scheme, authority, path, query, fragment }

/-- The text of a URL. A path after an authority begins with a slash. -/
def text (u : Url) : List Char :=
  let scheme := if u.scheme.isEmpty then [] else u.scheme ++ [':']
  let path :=
    if u.authority.isEmpty then u.path
    else
      let path := if u.path.isEmpty || u.path.head? == some '/' then u.path else '/' :: u.path
      '/' :: '/' :: u.authority ++ path
  let query := if u.query.isEmpty then [] else '?' :: u.query
  let fragment := if u.fragment.isEmpty then [] else '#' :: u.fragment
  scheme ++ path ++ query ++ fragment

/-- The authority holds no delimiter. -/
theorem authority_splitAuthority {s : List Char} {c : Char} (h : c ∈ (splitAuthority s).1) :
    endsAuthority c = false := by
  unfold splitAuthority at h
  split at h
  · have hall := List.all_takeWhile (p := (!endsAuthority ·)) (l := ‹List Char›)
    simpa using List.all_eq_true.mp hall c h
  · simp at h

end Url

end Symbolication
