import Symbolication.Number.Numeral
import Symbolication.Text.Search

/-!
# Symbolication.Url.AddressLiteral

Which texts are internet addresses: four decimal octets between points, or eight
groups of hexadecimal digits between colons, where one run of groups that are
zero may be left out and the last two groups may be written as four octets. A
zone may follow the second kind after a percent sign.
-/

namespace Symbolication

open Number Text

namespace AddressLiteral

/-- Whether the text is a number from 0 to 255 without leading zeros. -/
def isOctet (s : List Char) : Bool :=
  !s.isEmpty && s.length ≤ 3 && s.all Char.isDigit && (s == ['0'] || s.head? != some '0') &&
    ofDigits 10 (s.map fun c => c.toNat - 48) ≤ 255

/-- Whether the text is an address of four octets. -/
def isFourOctets (s : List Char) : Bool :=
  let parts := splitOn '.' s
  parts.length == 4 && parts.all isOctet

/-- Whether the text is a group of at most four hexadecimal digits. -/
def isGroup (s : List Char) : Bool :=
  !s.isEmpty && s.length ≤ 4 && s.all isHexDigit

/-- The groups with a last one that is written as four octets replaced by two; none if it has
points and is no such address. -/
def expandOctets? (parts : List (List Char)) : Option (List (List Char)) :=
  match parts.getLast? with
  | some last =>
    if last.contains '.' then
      if isFourOctets last then some (parts.dropLast ++ [['0'], ['0']]) else none
    else
      some parts
  | none => none

/-- Whether the groups before and after the place where zero groups are left out are right:
together fewer than eight, and empty only where the address begins or ends with the two colons. -/
def isShortened (high low : List (List Char)) : Bool :=
  let high := if high == [[]] then [] else high
  let low := if low == [[]] then [] else low
  high.all isGroup && low.all isGroup && high.length + low.length < 8

/-- Whether the groups, of which an empty one inside marks the place where zero groups are left
out, are an address. -/
def areGroups (parts : List (List Char)) : Bool :=
  let inner := (parts.drop 1).dropLast
  let low := parts.drop 1 |>.dropWhile (!·.isEmpty) |>.drop 1
  match inner.countP List.isEmpty with
  | 0 => parts.length == 8 && parts.all isGroup
  | 1 => isShortened (parts.take (parts.length - low.length - 1)) low
  | _ => false

/-- Whether the text is an address of eight groups. -/
def isEightGroups (s : List Char) : Bool :=
  let address := s.takeWhile (· != '%')
  let zone := s.drop address.length
  let zoneFits := zone.isEmpty || (1 < zone.length && !(zone.drop 1).contains '%')
  let parts := splitOn ':' address
  !s.contains '/' && zoneFits && 3 ≤ parts.length &&
    match expandOctets? parts with
    | some parts => parts.length ≤ 9 && areGroups parts
    | none => false

end AddressLiteral

end Symbolication
