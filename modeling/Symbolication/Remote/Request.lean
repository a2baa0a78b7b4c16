import Symbolication.Action
import Symbolication.Text.Blank

/-!
# Symbolication.Remote.Request

Asking servers. A server's answer counts only if its status is 200; a refusal and
every fault of the system are faults of the server.
-/

namespace Symbolication

open Number Text

/-- How long to wait for a server. -/
inductive Patience where
  | unlimited
  | seconds (count : Binary64)
  /-- A limit was asked for, but none was stated. -/
  | unstated
deriving DecidableEq, Repr

/-- A request to a server. -/
structure Request where
  url : String
  payload : String
  contentType : String
  patience : Patience
deriving Repr

/-- What became of a request. -/
inductive Reply where
  | answered (status : Int) (reason : String) (body : List UInt8)
  | refused (status : Int) (reason : String)
  | failed (fault : Fault)
deriving Repr

/-- How a world sends requests. -/
abbrev Transport (ω : Type) := Request → ω → Reply × ω

/-- How a payload is posted to a URL: the body of the answer comes back. -/
abbrev Poster (ω : Type) := String → String → Act ω (List UInt8)

namespace Request

/-- A URL without white space, angle brackets, and the word `URL:` around it. -/
def unwrap (s : List Char) : List Char :=
  let s := strip s
  let s :=
    match s with
    | '<' :: rest => if s.getLast? == some '>' then strip rest.dropLast else s
    | _ => s
  if "URL:".toList.isPrefixOf s then strip (s.drop 4) else s

/-- What stands before the last number sign; everything if there is none. -/
def withoutFragment (s : List Char) : List Char :=
  if s.contains '#' then ((s.reverse.dropWhile (· != '#')).drop 1).reverse else s

/-- Whether the URL says how it is to be reached. -/
def hasScheme (s : List Char) : Bool :=
  let name := s.takeWhile fun c => c != '/' && c != ':'
  !name.isEmpty && s[name.length]? == some ':'

/-- The URL to be asked, from the text that names it. A number sign with nothing behind it is left
out. -/
def target (text : String) : Except Url.Flaw String :=
  let url := unwrap text.toList
  let resource := withoutFragment url
  let url := if url.getLast? == some '#' then resource else url
  if !hasScheme resource then
    .error (.noScheme url)
  else
    (Url.split url).map fun _ => String.ofList url

end Request

/-- The body of an answer. -/
def Reply.body (url : String) : Reply → Except Fault (List UInt8)
  | answered status reason body =>
    if status == 200 then .ok body else .error (.serverRefused status reason)
  | refused status reason => .error (.serverRefused status reason)
  | failed (.system cause) => .error (.serverUnreachable url cause)
  | failed fault => .error fault

/-- Posts a payload to a URL. -/
def Transport.post {ω : Type} (transport : Transport ω) (patience : Patience) : Poster ω :=
  fun url payload => do
    let target ← ExceptT.mk (pure ((Request.target url).mapError Fault.url))
    inWorldTry fun world =>
      let request := { url := target, payload, contentType := "application/octet-stream", patience }
      let (reply, world) := transport request world
      (reply.body url, world)

end Symbolication
