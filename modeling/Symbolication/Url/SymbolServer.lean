import Symbolication.Text.Search
import Symbolication.Url.Basic

/-!
# Symbolication.Url.SymbolServer

Where a server that profiles came from answers questions about symbols: beside
the profile handlers under `/debug/pprof/` and `/pprof/`, else at `/symbolz`.
-/

namespace Symbolication

open Text

namespace Url

/-- The profile handlers that stand beside a symbol handler, as path ends. -/
def profileHandlers : List (List Char) :=
  ["/pprof/heap", "/pprof/growth", "/pprof/profile", "/pprof/pmuprofile", "/pprof/contention"].map
    String.toList

/-- Whether a path is that of a profile handler. -/
def isProfilePath (path : List Char) : Bool :=
  occursIn "/debug/pprof/".toList path || profileHandlers.any (·.isSuffixOf path)

/-- The path without the slashes it ends in. -/
def trimSlashes (path : List Char) : List Char :=
  (path.reverse.dropWhile (· == '/')).reverse

/-- The path up to its last slash, the slash left out; the whole path if it has none. -/
def parent (path : List Char) : List Char :=
  if path.contains '/' then ((path.reverse.dropWhile (· != '/')).drop 1).reverse else path

/-- The path of the symbol handler of a server with a profile at `path`. -/
def symbolPath (path : List Char) : List Char :=
  if isProfilePath path then parent (trimSlashes path) ++ "/symbol".toList else "/symbolz".toList

/-- Whether the URL is one that can be asked: of a web server, with an authority. -/
def isWeb (u : Url) : Bool :=
  (u.scheme == "http".toList || u.scheme == "https".toList) && !u.authority.isEmpty

/-- The URL of the symbol handler for a profile that came from `source`; none if the source is no
web server. -/
def symbolUrl? (source : String) : Except Flaw (Option String) := do
  let u ← split source.toList
  if u.isWeb then
    let url : Url := { u with path := symbolPath u.path, query := [], fragment := [] }
    return some (String.ofList url.text)
  else
    return none

end Url

end Symbolication
