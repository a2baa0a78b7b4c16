import Symbolication.Action
import Symbolication.Frame.Basic

/-!
# Symbolication.Inspector

Inspectors open the binaries of mappings and find the frames of addresses in
them. What is open is a segment; it is asked and in the end closed. Some
inspectors can be switched to a faster way that finds only names of functions,
and some segments can look up many addresses in advance.
-/

namespace Symbolication

/-- The part of a file that a mapping shows, and where. -/
structure Region where
  path : String
  start : Int
  /-- The address after the mapping. -/
  limit : Int
  offset : Int
deriving DecidableEq, Repr

/-- The switch to the faster way. -/
structure FastSwitch (ω : Type) where
  isOn : ω → Bool
  set : Bool → Step ω Unit

/-- An inspector whose segments are known by handles of type `η`. -/
structure Inspector (ω η : Type) where
  openRegion : Region → Act ω η
  /-- The build id of a segment, empty if it has none. -/
  buildId : η → String
  /-- The frames of an address, none if nothing is known of it. -/
  lookup : η → Int → Act ω (List Frame)
  prefetch? : η → Option (List Int → Act ω Unit)
  close : η → Act ω Unit
  fastSwitch? : Option (FastSwitch ω)

end Symbolication
