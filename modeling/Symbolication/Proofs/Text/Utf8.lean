import Mathlib.Data.List.Basic
import Symbolication.Text.Utf8

/-!
# Symbolication.Proofs.Text.Utf8

A text is found again in its bytes.  These are the bytes of its characters, one after
another, so the front of a byte sequence decides; there is one lemma for each width:

* `front_utf8EncodeChar` — the bytes of a character at the front are read as that
  character, whatever follows;
* `decode_encode` — the text is found again, and no flaw;
* `decodeLossy_of_decode` — where there is no flaw, both ways of reading agree.
-/

namespace Symbolication.Text.Utf8

/-! ## bytes -/

theorem toList_loop (bytes : ByteArray) (i : Nat) (before : List UInt8) :
    ByteArray.toList.loop bytes i before = before.reverse ++ bytes.data.toList.drop i := by
  fun_induction ByteArray.toList.loop bytes i before with
  | case1 i before hlt ih =>
      have hi : i < bytes.data.toList.length := by simpa using hlt
      rw [ih, List.drop_eq_getElem_cons hi]
      simp [ByteArray.get!, hlt]
  | case2 i before hge =>
      have hle : bytes.data.toList.length ≤ i := by simpa using hge
      rw [List.drop_eq_nil_of_le hle, List.append_nil]

/-- The bytes of a text are those of its characters. -/
theorem encode_eq_flatMap (s : List Char) : encode s = s.flatMap String.utf8EncodeChar := by
  rw [encode, String.toUTF8_eq_toByteArray, String.toByteArray_ofList, List.utf8Encode,
    ByteArray.toList, toList_loop]
  simp

/-! ## tails -/

theorem toNat_ofNat {n : Nat} (h : n < 256) : (UInt8.ofNat n).toNat = n :=
  UInt8.toNat_ofNat_of_lt' h

theorem isTail_of_toNat {b : UInt8} (h : 128 ≤ b.toNat) (h' : b.toNat < 192) :
    isTail b = true := by
  simp [isTail, UInt8.le_iff_toNat_le, UInt8.lt_iff_toNat_lt, h, h']

/-- A byte that carries six bits may stand inside a character. -/
theorem isTail_ofNat {n : Nat} (h : n < 64) : isTail (UInt8.ofNat (n + 128)) = true := by
  have hnat : (UInt8.ofNat (n + 128)).toNat = n + 128 := toNat_ofNat (by omega)
  exact isTail_of_toNat (by omega) (by omega)

theorem tailBits_ofNat {n : Nat} (h : n < 64) : tailBits (UInt8.ofNat (n + 128)) = n := by
  rw [tailBits, toNat_ofNat (by omega)]
  omega

theorem opensThree_of_toNat {first second : UInt8} (htail : isTail second = true)
    (hshort : first.toNat = 0xE0 → 0xA0 ≤ second.toNat)
    (hsurrogate : first.toNat = 0xED → second.toNat < 0xA0) : opensThree first second = true := by
  simp [opensThree, htail, UInt8.lt_iff_toNat_lt, UInt8.le_iff_toNat_le, ← UInt8.toNat_inj]
  omega

theorem opensFour_of_toNat {first second : UInt8} (htail : isTail second = true)
    (hshort : first.toNat = 0xF0 → 0x90 ≤ second.toNat)
    (hlast : first.toNat = 0xF4 → second.toNat < 0x90) : opensFour first second = true := by
  simp [opensFour, htail, UInt8.lt_iff_toNat_lt, UInt8.le_iff_toNat_le, ← UInt8.toNat_inj]
  omega

/-! ## characters -/

theorem front_one {c : Char} (h : c.toNat ≤ 127) (rest : List UInt8) :
    front (UInt8.ofNat c.toNat) rest = .char c 1 := by
  have hnat : (UInt8.ofNat c.toNat).toNat = c.toNat := toNat_ofNat (by omega)
  have hlt : UInt8.ofNat c.toNat < 0x80 := by
    simp [UInt8.lt_iff_toNat_lt, hnat]
    omega
  unfold front
  rw [if_pos hlt, hnat, Char.ofNat_toNat]

theorem front_two {c : Char} (h : 127 < c.toNat) (h' : c.toNat ≤ 2047) (rest : List UInt8) :
    front (UInt8.ofNat (c.toNat / 64 % 32 + 192)) (UInt8.ofNat (c.toNat % 64 + 128) :: rest) =
      .char c 2 := by
  have hnat : (UInt8.ofNat (c.toNat / 64 % 32 + 192)).toNat = c.toNat / 64 % 32 + 192 :=
    toNat_ofNat (by omega)
  generalize UInt8.ofNat (c.toNat / 64 % 32 + 192) = first at hnat ⊢
  have hlow : c.toNat % 64 < 64 := Nat.mod_lt _ (by decide)
  have h1 : ¬ first < 0x80 := by simp [UInt8.lt_iff_toNat_lt, hnat]
  have h2 : ¬ first < 0xC2 := by simp [UInt8.lt_iff_toNat_lt, hnat]; omega
  have h3 : first < 0xE0 := by simp [UInt8.lt_iff_toNat_lt, hnat]; omega
  have hchar : first.toNat % 0x20 * 0x40 + c.toNat % 64 = c.toNat := by omega
  unfold front
  rw [if_neg h1, if_neg h2, if_pos h3]
  simp only [isTail_ofNat hlow, if_true, tailBits_ofNat hlow, hchar, Char.ofNat_toNat]

theorem front_three {c : Char} (h : 2047 < c.toNat) (h' : c.toNat ≤ 65535) (rest : List UInt8) :
    front (UInt8.ofNat (c.toNat / 4096 % 16 + 224))
        (UInt8.ofNat (c.toNat / 64 % 64 + 128) :: UInt8.ofNat (c.toNat % 64 + 128) :: rest) =
      .char c 3 := by
  have hvalid : c.toNat < 0xD800 ∨ (0xDFFF < c.toNat ∧ c.toNat < 0x110000) := c.valid
  have hnat : (UInt8.ofNat (c.toNat / 4096 % 16 + 224)).toNat = c.toNat / 4096 % 16 + 224 :=
    toNat_ofNat (by omega)
  have hnat' : (UInt8.ofNat (c.toNat / 64 % 64 + 128)).toNat = c.toNat / 64 % 64 + 128 :=
    toNat_ofNat (by omega)
  have hmid : c.toNat / 64 % 64 < 64 := Nat.mod_lt _ (by decide)
  have hlow : c.toNat % 64 < 64 := Nat.mod_lt _ (by decide)
  have hopens : opensThree (UInt8.ofNat (c.toNat / 4096 % 16 + 224))
      (UInt8.ofNat (c.toNat / 64 % 64 + 128)) = true :=
    opensThree_of_toNat (isTail_ofNat hmid) (by omega) (by omega)
  generalize UInt8.ofNat (c.toNat / 4096 % 16 + 224) = first at hnat hopens ⊢
  have h1 : ¬ first < 0x80 := by simp [UInt8.lt_iff_toNat_lt, hnat]
  have h2 : ¬ first < 0xC2 := by simp [UInt8.lt_iff_toNat_lt, hnat]
  have h3 : ¬ first < 0xE0 := by simp [UInt8.lt_iff_toNat_lt, hnat]
  have h4 : first < 0xF0 := by simp [UInt8.lt_iff_toNat_lt, hnat]; omega
  have hchar : first.toNat % 0x10 * 0x1000 + c.toNat / 64 % 64 * 0x40 + c.toNat % 64 =
      c.toNat := by omega
  unfold front
  rw [if_neg h1, if_neg h2, if_neg h3, if_pos h4]
  simp only [hopens, isTail_ofNat hlow, if_true, tailBits_ofNat hmid, tailBits_ofNat hlow, hchar,
    Char.ofNat_toNat]

theorem front_four {c : Char} (h : 65535 < c.toNat) (rest : List UInt8) :
    front (UInt8.ofNat (c.toNat / 262144 % 8 + 240))
        (UInt8.ofNat (c.toNat / 4096 % 64 + 128) :: UInt8.ofNat (c.toNat / 64 % 64 + 128) ::
          UInt8.ofNat (c.toNat % 64 + 128) :: rest) =
      .char c 4 := by
  have hvalid : c.toNat < 0xD800 ∨ (0xDFFF < c.toNat ∧ c.toNat < 0x110000) := c.valid
  have hnat : (UInt8.ofNat (c.toNat / 262144 % 8 + 240)).toNat = c.toNat / 262144 % 8 + 240 :=
    toNat_ofNat (by omega)
  have hnat' : (UInt8.ofNat (c.toNat / 4096 % 64 + 128)).toNat = c.toNat / 4096 % 64 + 128 :=
    toNat_ofNat (by omega)
  have htop : c.toNat / 4096 % 64 < 64 := Nat.mod_lt _ (by decide)
  have hmid : c.toNat / 64 % 64 < 64 := Nat.mod_lt _ (by decide)
  have hlow : c.toNat % 64 < 64 := Nat.mod_lt _ (by decide)
  have hopens : opensFour (UInt8.ofNat (c.toNat / 262144 % 8 + 240))
      (UInt8.ofNat (c.toNat / 4096 % 64 + 128)) = true :=
    opensFour_of_toNat (isTail_ofNat htop) (by omega) (by omega)
  generalize UInt8.ofNat (c.toNat / 262144 % 8 + 240) = first at hnat hopens ⊢
  have h1 : ¬ first < 0x80 := by simp [UInt8.lt_iff_toNat_lt, hnat]
  have h2 : ¬ first < 0xC2 := by simp [UInt8.lt_iff_toNat_lt, hnat]
  have h3 : ¬ first < 0xE0 := by simp [UInt8.lt_iff_toNat_lt, hnat]
  have h4 : ¬ first < 0xF0 := by simp [UInt8.lt_iff_toNat_lt, hnat]
  have h5 : first < 0xF5 := by simp [UInt8.lt_iff_toNat_lt, hnat]; omega
  have hchar : first.toNat % 0x08 * 0x40000 + c.toNat / 4096 % 64 * 0x1000 +
      c.toNat / 64 % 64 * 0x40 + c.toNat % 64 = c.toNat := by omega
  unfold front
  rw [if_neg h1, if_neg h2, if_neg h3, if_neg h4, if_pos h5]
  simp only [hopens, isTail_ofNat hmid, isTail_ofNat hlow, if_true, tailBits_ofNat htop,
    tailBits_ofNat hmid, tailBits_ofNat hlow, hchar, Char.ofNat_toNat]

/-- The bytes of a character at the front are read as that character. -/
theorem front_utf8EncodeChar (c : Char) (rest : List UInt8) :
    ∃ first others, String.utf8EncodeChar c = first :: others ∧
      front first (others ++ rest) = .char c (others.length + 1) := by
  have hval : c.val.toNat = c.toNat := rfl
  by_cases h1 : c.toNat ≤ 127
  · refine ⟨_, [], ?_, front_one h1 rest⟩
    simp only [String.utf8EncodeChar, hval, if_pos h1]
  by_cases h2 : c.toNat ≤ 2047
  · refine ⟨_, [_], ?_, front_two (by omega) h2 rest⟩
    simp only [String.utf8EncodeChar, hval, if_neg h1, if_pos h2]
  by_cases h3 : c.toNat ≤ 65535
  · refine ⟨_, [_, _], ?_, front_three (by omega) h3 rest⟩
    simp only [String.utf8EncodeChar, hval, if_neg h1, if_neg h2, if_pos h3]
  · refine ⟨_, [_, _, _], ?_, front_four (by omega) rest⟩
    simp only [String.utf8EncodeChar, hval, if_neg h1, if_neg h2, if_neg h3]

/-! ## texts -/

/-- Bytes that belong to a character already read are skipped. -/
theorem decodeFrom_append (position : Nat) (done rest : List UInt8) :
    decodeFrom position done.length (done ++ rest) =
      decodeFrom (position + done.length) 0 rest := by
  induction done generalizing position with
  | nil => rfl
  | cons b done ih =>
      rw [List.length_cons, List.cons_append, decodeFrom]
      exact (ih (position + 1)).trans (by rw [Nat.add_right_comm, Nat.add_assoc])

/-- The text is found again, and no flaw. -/
theorem decode_encode (s : List Char) : decode (encode s) = .ok s := by
  have hfrom : ∀ position, decodeFrom position 0 (s.flatMap String.utf8EncodeChar) = .ok s := by
    induction s with
    | nil => exact fun _ => rfl
    | cons c s ih =>
        intro position
        obtain ⟨first, others, hbytes, hfront⟩ :=
          front_utf8EncodeChar c (s.flatMap String.utf8EncodeChar)
        rw [List.flatMap_cons, hbytes, List.cons_append, decodeFrom, hfront]
        simp only [Nat.add_sub_cancel]
        rw [decodeFrom_append, ih]
        rfl
  rw [encode_eq_flatMap, decode]
  exact hfrom 0

/-- Where there is no flaw, both ways of reading agree. -/
theorem decodeLossy_of_decode {bytes : List UInt8} {s : List Char} (h : decode bytes = .ok s) :
    decodeLossy bytes = s := by
  have hfrom : ∀ (position skip : Nat) (s : List Char), decodeFrom position skip bytes = .ok s →
      decodeLossyFrom skip bytes = s := by
    clear h
    induction bytes with
    | nil =>
        intro position skip s h
        exact Except.ok.inj h
    | cons b bytes ih =>
        intro position skip s h
        cases skip with
        | succ skip => exact ih (position + 1) skip s h
        | zero =>
            rw [decodeFrom] at h
            rw [decodeLossyFrom]
            cases hfront : front b bytes with
            | flaw reason width => simp [hfront] at h
            | char c width =>
                rw [hfront] at h
                cases hrest : decodeFrom (position + 1) (width - 1) bytes with
                | error f => simp [hrest, Except.map] at h
                | ok t =>
                    simp only [hrest, Except.map, Except.ok.injEq] at h
                    rw [← h]
                    exact congrArg (c :: ·) (ih (position + 1) (width - 1) t hrest)
  exact hfrom 0 0 s h

/-- Nothing of a text is lost. -/
theorem decodeLossy_encode (s : List Char) : decodeLossy (encode s) = s :=
  decodeLossy_of_decode (decode_encode s)

end Symbolication.Text.Utf8
