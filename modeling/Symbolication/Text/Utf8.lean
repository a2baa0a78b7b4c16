/-!
# Symbolication.Text.Utf8

Reading bytes as UTF-8. `front` looks at the front of a byte sequence: it finds a
character, or a flaw together with the number of bytes that could still have
begun a character (the maximal invalid subpart). `decode` refuses the first flaw
and says where it is; `decodeLossy` puts U+FFFD in its place and goes on.
-/

namespace Symbolication.Text.Utf8

/-- Why bytes are not UTF-8. -/
inductive Flaw where
  /-- No character begins with this byte. -/
  | start
  /-- A byte inside a character is not of the kind that has to follow. -/
  | continuation
  /-- The bytes end inside a character. -/
  | truncated
deriving DecidableEq, Repr

/-- The wording of a flaw. -/
def Flaw.text : Flaw → String
  | .start => "invalid start byte"
  | .continuation => "invalid continuation byte"
  | .truncated => "unexpected end of data"

/-- What stands at the front of a byte sequence, and how many bytes it takes. -/
inductive Front where
  | char (c : Char) (width : Nat)
  | flaw (reason : Flaw) (width : Nat)
deriving DecidableEq, Repr

/-- Whether the byte may stand inside a character. -/
def isTail (b : UInt8) : Bool :=
  0x80 ≤ b && b < 0xC0

/-- The six bits that a byte inside a character carries. -/
def tailBits (b : UInt8) : Nat :=
  b.toNat % 0x40

/-- Whether `second` may follow the first byte of a character of three bytes: no character is
written longer than it need be, and surrogates are no characters. -/
def opensThree (first second : UInt8) : Bool :=
  isTail second && !(first == 0xE0 && second < 0xA0) && !(first == 0xED && 0xA0 ≤ second)

/-- Whether `second` may follow the first byte of a character of four bytes: no character is
written longer than it need be, and the last character is U+10FFFF. -/
def opensFour (first second : UInt8) : Bool :=
  isTail second && !(first == 0xF0 && second < 0x90) && !(first == 0xF4 && 0x90 ≤ second)

/-- What stands at the front of the bytes `first :: rest`. -/
def front (first : UInt8) (rest : List UInt8) : Front :=
  if first < 0x80 then
    .char (Char.ofNat first.toNat) 1
  else if first < 0xC2 then
    .flaw .start 1
  else if first < 0xE0 then
    match rest with
    | [] => .flaw .truncated 1
    | b :: _ =>
      if isTail b then .char (Char.ofNat (first.toNat % 0x20 * 0x40 + tailBits b)) 2
      else .flaw .continuation 1
  else if first < 0xF0 then
    match rest with
    | [] => .flaw .truncated 1
    | b :: rest =>
      if opensThree first b then
        match rest with
        | [] => .flaw .truncated 2
        | c :: _ =>
          if isTail c then
            .char (Char.ofNat (first.toNat % 0x10 * 0x1000 + tailBits b * 0x40 + tailBits c)) 3
          else .flaw .continuation 2
      else .flaw .continuation 1
  else if first < 0xF5 then
    match rest with
    | [] => .flaw .truncated 1
    | b :: rest =>
      if opensFour first b then
        match rest with
        | [] => .flaw .truncated 2
        | c :: rest =>
          if isTail c then
            match rest with
            | [] => .flaw .truncated 3
            | d :: _ =>
              if isTail d then
                .char (Char.ofNat (first.toNat % 0x08 * 0x40000 + tailBits b * 0x1000 +
                  tailBits c * 0x40 + tailBits d)) 4
              else .flaw .continuation 3
          else .flaw .continuation 2
      else .flaw .continuation 1
  else
    .flaw .start 1

/-- The first flaw of a byte sequence. -/
structure Fault where
  reason : Flaw
  position : Nat
  width : Nat
  byte : UInt8
deriving DecidableEq, Repr

/-- The wording of a fault: the byte, or the range of bytes, and what is wrong. -/
def Fault.text (f : Fault) : String :=
  let place :=
    if f.width == 1 then
      let digits := String.ofList (Nat.toDigits 16 f.byte.toNat)
      s!"byte 0x{digits} in position {f.position}"
    else
      s!"bytes in position {f.position}-{f.position + f.width - 1}"
  s!"'utf-8' codec can't decode {place}: {f.reason.text}"

/-- The characters of a byte sequence that follows `position` others, where the next `skip` bytes
belong to a character already read. -/
def decodeFrom (position skip : Nat) : List UInt8 → Except Fault (List Char)
  | [] => .ok []
  | b :: rest =>
    match skip with
    | skip + 1 => decodeFrom (position + 1) skip rest
    | 0 =>
      match front b rest with
      | .char c width => (decodeFrom (position + 1) (width - 1) rest).map (c :: ·)
      | .flaw reason width => .error ⟨reason, position, width, b⟩

/-- The characters of a byte sequence, or its first flaw. -/
def decode (bytes : List UInt8) : Except Fault (List Char) :=
  decodeFrom 0 0 bytes

/-- The characters of a byte sequence, with U+FFFD for each flaw, where the next `skip` bytes have
been dealt with. -/
def decodeLossyFrom (skip : Nat) : List UInt8 → List Char
  | [] => []
  | b :: rest =>
    match skip with
    | skip + 1 => decodeLossyFrom skip rest
    | 0 =>
      match front b rest with
      | .char c width => c :: decodeLossyFrom (width - 1) rest
      | .flaw _ width => '\uFFFD' :: decodeLossyFrom (width - 1) rest

/-- The characters of a byte sequence, with U+FFFD for each flaw. -/
def decodeLossy (bytes : List UInt8) : List Char :=
  decodeLossyFrom 0 bytes

/-- The bytes of a text. -/
def encode (s : List Char) : List UInt8 :=
  (String.ofList s).toUTF8.toList

end Symbolication.Text.Utf8
