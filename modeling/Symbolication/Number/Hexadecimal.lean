/-!
# Symbolication.Number.Hexadecimal

Numbers in base sixteen, the notation of addresses. A written address starts
with `0x`, has lower-case digits, and a negative one has its sign in front.

* `readHex_toDigits`: reading the digits of a number gives the number.
-/

namespace Symbolication.Number

/-- The value of a hexadecimal digit, in either case. -/
def hexDigit? (c : Char) : Option Nat :=
  if '0' ≤ c && c ≤ '9' then some (c.toNat - 48)
  else if 'a' ≤ c && c ≤ 'f' then some (c.toNat - 87)
  else if 'A' ≤ c && c ≤ 'F' then some (c.toNat - 55)
  else none

/-- Whether the character is a hexadecimal digit. -/
def isHexDigit (c : Char) : Bool :=
  (hexDigit? c).isSome

/-- The number that hexadecimal digits denote; other characters count as zero. -/
def readHex (digits : List Char) : Nat :=
  digits.foldl (fun n c => 16 * n + (hexDigit? c).getD 0) 0

theorem readHex_append (a b : List Char) :
    readHex (a ++ b) = b.foldl (fun n c => 16 * n + (hexDigit? c).getD 0) (readHex a) := by
  simp [readHex]

theorem hexDigit?_digitChar {n : Nat} (h : n < 16) : hexDigit? n.digitChar = some n := by
  have all : ∀ m : Fin 16, hexDigit? m.val.digitChar = some m.val := by decide
  exact all ⟨n, h⟩

/-- Reading the digits of a number gives the number. -/
theorem readHex_toDigits (n : Nat) : readHex (Nat.toDigits 16 n) = n := by
  induction n using Nat.strongRecOn with
  | _ n ih =>
    by_cases h : n < 16
    · rw [Nat.toDigits_of_lt_base h]
      simp [readHex, hexDigit?_digitChar h]
    · have hlt : n % 16 < 16 := Nat.mod_lt _ (by decide)
      rw [Nat.toDigits_of_base_le (by decide) (by omega), readHex_append, ih _ (by omega)]
      simp only [List.foldl_cons, List.foldl_nil, hexDigit?_digitChar hlt, Option.getD_some]
      omega

/-- The characters of a written number are digits. -/
theorem exists_digitChar_of_mem {base : Nat} (hbase : 1 < base) {c : Char} {n : Nat}
    (h : c ∈ Nat.toDigits base n) : ∃ d < base, c = d.digitChar := by
  induction n using Nat.strongRecOn with
  | _ n ih =>
    by_cases hn : n < base
    · rw [Nat.toDigits_of_lt_base hn, List.mem_singleton] at h
      exact ⟨n, hn, h⟩
    · rw [Nat.toDigits_of_base_le hbase (by omega), List.mem_append, List.mem_singleton] at h
      rcases h with h | h
      · exact ih (n / base) (Nat.div_lt_self (by omega) hbase) h
      · exact ⟨n % base, Nat.mod_lt n (by omega), h⟩

/-- A number as an address. -/
def hex (n : Int) : String :=
  let digits := "0x" ++ String.ofList (Nat.toDigits 16 n.natAbs)
  if n < 0 then "-" ++ digits else digits

/-- Bytes as pairs of lower-case digits. -/
def hexBytes (bytes : List UInt8) : String :=
  String.ofList (bytes.flatMap fun b =>
    [Nat.digitChar (b.toNat / 16), Nat.digitChar (b.toNat % 16)])

end Symbolication.Number
