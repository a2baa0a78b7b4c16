import Symbolication.Frame.Listing
import Symbolication.Proofs.Action.Triple

/-!
# Symbolication.Proofs.Frame.Listing

Listings that are put together from the replies for single addresses.  Replies are
whole lines, and the reply for an address that is not negative begins with it and
has no further address line, so a listing falls apart again into the replies:

* `linesOf_append`, `sections_append` — texts and lines put together;
* `sections_replies` — what comes before the first address, and the sections;
* `blocks_of_nodup` — sections for different addresses are blocks already;
* `ofListing_replies` — the answers in a listing are those of its replies.
-/

namespace Symbolication

open Number Text

namespace Listing

/-! ## whole lines -/

/-- The text consists of lines that are all ended by a line feed. -/
def IsWhole (text : List Char) : Prop :=
  text = [] ∨ ∃ front, text = front ++ ['\n']

theorem splitLines_ne_nil {text : List Char} (h : text ≠ []) : splitLines text ≠ [] := by
  induction text using splitLines.induct with
  | case1 => exact absurd rfl h
  | case2 rest ih => simp [splitLines]
  | case3 c rest hcr hbreak ih => simp [splitLines, hbreak]
  | case4 c rest hcr hbreak hnil ih => simp [splitLines, hbreak, hnil]
  | case5 c rest hcr hbreak line lines hlines ih => simp [splitLines, hbreak, hlines]

/-- A character that ends no line belongs to the first line of what follows. -/
theorem splitLines_cons {c : Char} (h : isLineBreak c = false) {text line : List Char}
    {lines : List (List Char)} (hlines : splitLines text = line :: lines) :
    splitLines (c :: text) = (c :: line) :: lines := by
  have hcr : c ≠ '\r' := by
    rintro rfl
    exact absurd h (by decide)
  rw [splitLines]
  · simp [h, hlines]
  · intro rest hc
    exact absurd hc hcr

/-- Lines that end in a line feed are cut apart from what follows. -/
theorem splitLines_append_lineFeed (front rest : List Char) :
    splitLines (front ++ '\n' :: rest) = splitLines (front ++ ['\n']) ++ splitLines rest := by
  have hstep : ∀ (c : Char) (front : List Char), isLineBreak c = false →
      splitLines (front ++ '\n' :: rest) = splitLines (front ++ ['\n']) ++ splitLines rest →
      splitLines (c :: front ++ '\n' :: rest) =
        splitLines (c :: front ++ ['\n']) ++ splitLines rest := by
    intro c front hc ih
    have hne : splitLines (front ++ ['\n']) ≠ [] := splitLines_ne_nil (by simp)
    obtain ⟨line, lines, hlines⟩ := List.exists_cons_of_ne_nil hne
    rw [hlines, List.cons_append] at ih
    rw [List.cons_append, List.cons_append, splitLines_cons hc ih, splitLines_cons hc hlines,
      List.cons_append]
  induction front using splitLines.induct with
  | case1 => simp [splitLines, isLineBreak]
  | case2 front ih => simp only [List.cons_append, splitLines, ih]
  | case3 c front hcr hbreak ih =>
      by_cases hfront : c = '\r' ∧ front = []
      · obtain ⟨rfl, rfl⟩ := hfront
        simp [splitLines]
      · -- `c` is not the first half of a break, before and after
        have hne : ∀ tail r, c = '\r' → front ++ tail = '\n' :: r → False := by
          intro tail r hc hr
          cases front with
          | nil => exact hfront ⟨hc, rfl⟩
          | cons f front => exact hcr front hc (by rw [(List.cons.inj hr).1])
        rw [List.cons_append, List.cons_append, splitLines.eq_3 _ _ (hne _),
          splitLines.eq_3 _ _ (hne _), if_pos hbreak, if_pos hbreak, ih, List.cons_append]
  | case4 c front hcr hbreak hnil ih => exact hstep c front (by simpa using hbreak) ih
  | case5 c front hcr hbreak line lines hlines ih => exact hstep c front (by simpa using hbreak) ih

/-- Whole lines stay lines of their own, whatever follows. -/
theorem linesOf_append {text : List Char} (h : IsWhole text) (rest : List Char) :
    linesOf (text ++ rest) = linesOf text ++ linesOf rest := by
  rcases h with rfl | ⟨front, rfl⟩
  · rfl
  · simp only [linesOf, List.append_assoc, List.singleton_append]
    rw [splitLines_append_lineFeed, List.map_append]

/-! ## sections -/

/-- None of the lines is an address line. -/
def IsHeadless (lines : List (List Char)) : Prop :=
  ∀ line ∈ lines, headerAddress? line = none

/-- Lines without a header, put in front, belong to no section. -/
theorem sections_append {lines : List (List Char)} (h : IsHeadless lines)
    (rest : List (List Char)) :
    sections (lines ++ rest) = (lines ++ (sections rest).1, (sections rest).2) := by
  induction lines with
  | nil => rfl
  | cons line lines ih =>
      have hline : headerAddress? line = none := h line List.mem_cons_self
      have hlines : IsHeadless lines := fun l hl => h l (List.mem_cons_of_mem _ hl)
      simp only [List.cons_append, sections, ih hlines, hline]

/-! ## replies -/

/-- The lines of a reply that tell frames. -/
def replyLines (text : List Char) : List (List Char) :=
  (linesOf text).tail

/-- The lines of a block that are places in source files. -/
def placesOf : List (List Char) → List (List Char)
  | _ :: place :: rest => place :: placesOf rest
  | _ => []

/-- The line numbers of a block are short enough to be read. -/
def IsReadable (lines : List (List Char)) : Prop :=
  ∀ line ∈ placesOf lines, ∀ place ∈ splitPlace? line, place.2.length ≤ digitLimit

/-- The text is a tool's reply for an address: whole lines, the first of which is the address unless
that is negative, while no other line is one; line numbers can be read. -/
structure IsReply (address : Int) (text : List Char) : Prop where
  whole : IsWhole text
  head : 0 ≤ address → ∃ header rest, linesOf text = header :: rest ∧
    headerAddress? header = some address.toNat ∧ IsHeadless rest
  headless : address < 0 → IsHeadless (linesOf text)
  readable : 0 ≤ address → IsReadable (replyLines text)

variable {reply : Int → List Char}

/-- Replies for addresses that are not negative have a section each, and nothing before them. -/
theorem sections_replies_of_nonneg {addresses : List Int}
    (h : ∀ a ∈ addresses, IsReply a (reply a)) (hnonneg : ∀ a ∈ addresses, 0 ≤ a) :
    sections (linesOf (addresses.flatMap reply)) =
      ([], addresses.map fun a => (a.toNat, replyLines (reply a))) := by
  induction addresses with
  | nil => rfl
  | cons a rest ih =>
      have ha := h a List.mem_cons_self
      obtain ⟨header, lines, hlines, hheader, hheadless⟩ := ha.head (hnonneg a List.mem_cons_self)
      have hrest := ih (fun b hb => h b (List.mem_cons_of_mem _ hb))
        fun b hb => hnonneg b (List.mem_cons_of_mem _ hb)
      rw [List.flatMap_cons, linesOf_append ha.whole, hlines, List.cons_append]
      simp only [sections, sections_append hheadless, hrest, hheader, List.append_nil,
        List.map_cons, replyLines, hlines, List.tail_cons]

/-- In ascending order negative addresses come first, so their replies stand before the first
section. -/
theorem sections_replies {addresses : List Int} (h : ∀ a ∈ addresses, IsReply a (reply a))
    (hasc : addresses.Pairwise (· < ·)) :
    (sections (linesOf (addresses.flatMap reply))).2 =
      (addresses.filter (0 ≤ ·)).map fun a => (a.toNat, replyLines (reply a)) := by
  induction addresses with
  | nil => rfl
  | cons a rest ih =>
      have ha := h a List.mem_cons_self
      rw [List.pairwise_cons] at hasc
      by_cases hneg : a < 0
      · have hfilter : decide (0 ≤ a) = false := by simpa using hneg
        rw [List.flatMap_cons, linesOf_append ha.whole, sections_append (ha.headless hneg),
          List.filter_cons_of_neg (by simp [hfilter])]
        exact ih (fun b hb => h b (List.mem_cons_of_mem _ hb)) hasc.2
      · have hnonneg : ∀ b ∈ a :: rest, 0 ≤ b := by
          intro b hb
          rcases List.mem_cons.mp hb with rfl | hb
          · omega
          · have := hasc.1 b hb
            omega
        rw [sections_replies_of_nonneg h hnonneg, List.filter_eq_self.mpr (by simpa using hnonneg)]

/-! ## blocks -/

/-- Lines for an address that has none yet make a block of its own, at the end. -/
theorem addLines_of_notMem {address : Nat} (lines : List (List Char))
    {found : List (Nat × List (List Char))} (h : address ∉ found.map (·.1)) :
    addLines address lines found = found ++ [(address, lines)] := by
  induction found with
  | nil => rfl
  | cons block rest ih =>
      rw [List.map_cons, List.mem_cons, not_or] at h
      have hne : (block.1 == address) = false := by simpa using Ne.symm h.1
      simp only [addLines, hne, ih h.2]
      rfl

/-- Sections with different addresses are the blocks. -/
theorem blocks_of_nodup {found : List (Nat × List (List Char))}
    (h : (found.map (·.1)).Nodup) : blocks found = found := by
  have hfold : ∀ before : List (Nat × List (List Char)),
      ((before ++ found).map (·.1)).Nodup →
      found.foldl (fun blocks s => addLines s.1 s.2 blocks) before = before ++ found := by
    clear h
    induction found with
    | nil => simp
    | cons s rest ih =>
        intro before h
        have hs : s.1 ∉ before.map (·.1) := by
          rw [List.map_append, List.nodup_append] at h
          intro hmem
          exact h.2.2 s.1 hmem s.1 (by simp) rfl
        rw [List.foldl_cons, addLines_of_notMem s.2 hs, ih _ (by simpa using h)]
        simp
  exact hfold [] (by simpa using h)

/-! ## frames -/

/-- The frames of a block whose line numbers can be read. -/
def blockFrames (lines : List (List Char)) : List Frame :=
  (readFrames lines).toOption.getD []

/-- Readable lines are read as frames. -/
theorem exists_readPairs {lines : List (List Char)} (h : IsReadable lines) :
    ∃ frames, readPairs lines = .ok frames := by
  induction lines using readPairs.induct with
  | case1 func place rest ih =>
      obtain ⟨frames, hframes⟩ := ih fun line hline => h line (List.mem_cons_of_mem _ hline)
      have hframe : ∃ frame, readFrame func place = .ok frame := by
        unfold readFrame
        cases hplace : splitPlace? place with
        | none => exact ⟨_, rfl⟩
        | some found =>
            have hle := h place List.mem_cons_self found hplace
            simp only [readDecimal, if_neg (Nat.not_lt.mpr hle)]
            exact ⟨_, rfl⟩
      obtain ⟨frame, hframe⟩ := hframe
      refine ⟨frame :: frames, ?_⟩
      rw [readPairs, hframe, hframes]
      rfl
  | case2 lines hlines =>
      refine ⟨[], ?_⟩
      rw [readPairs]
      exact hlines

/-- Readable lines give the frames of their block. -/
theorem readFrames_eq {lines : List (List Char)} (h : IsReadable lines) :
    readFrames lines = .ok (blockFrames lines) := by
  obtain ⟨frames, hframes⟩ := exists_readPairs h
  have hread : readFrames lines = .ok (dropBlankStack frames) := by
    rw [readFrames, hframes]
    rfl
  rw [blockFrames, hread]
  rfl

/-- The frames that a reply tells for an address; a negative address is not recognized. -/
def replyFrames (address : Int) (text : List Char) : List Frame :=
  if 0 ≤ address then blockFrames (replyLines text) else []

/-! ## addresses as they are asked for -/

/-- The digits of addresses. -/
def addressDigits : List Char :=
  "0123456789abcdef".toList

/-- The digits of a hexadecimal number are digits of addresses. -/
theorem mem_addressDigits {c : Char} {n : Nat} (h : c ∈ Nat.toDigits 16 n) :
    c ∈ addressDigits := by
  have hdigit : ∀ d : Fin 16, d.val.digitChar ∈ addressDigits := by decide
  obtain ⟨d, hd, rfl⟩ := exists_digitChar_of_mem (by decide) h
  exact hdigit ⟨d, hd⟩

/-- The numeral of an address is a sign if it is negative, then `0x` and the digits. -/
theorem toList_hex (a : Int) :
    (hex a).toList =
      (if a < 0 then ['-'] else []) ++ '0' :: 'x' :: Nat.toDigits 16 a.natAbs := by
  simp only [hex]
  split <;> simp

/-- The numeral of an address holds no character but a sign, an `x` and digits. -/
theorem mem_hex {c : Char} {a : Int} (h : c ∈ (hex a).toList) :
    c ∈ '-' :: 'x' :: addressDigits := by
  rw [toList_hex, List.mem_append, List.mem_cons, List.mem_cons] at h
  rcases h with h | rfl | rfl | h
  · split at h
    · rw [List.mem_singleton.mp h]
      exact List.mem_cons_self
    · exact absurd h List.not_mem_nil
  · decide
  · decide
  · exact List.mem_cons_of_mem _ (List.mem_cons_of_mem _ (mem_addressDigits h))

/-- An address that is asked for is an address line, unless it is negative. -/
theorem headerAddress?_hex (a : Int) :
    headerAddress? (hex a).toList = if 0 ≤ a then some a.toNat else none := by
  rw [toList_hex]
  by_cases ha : a < 0
  · rw [if_pos ha, if_neg (by omega)]
    rfl
  · have hdigits : addressDigits.all isHexDigit = true := by decide
    have hall : (Nat.toDigits 16 a.natAbs).all isHexDigit = true := by
      rw [List.all_eq_true] at hdigits ⊢
      exact fun c hc => hdigits c (mem_addressDigits hc)
    have hne : (Nat.toDigits 16 a.natAbs).isEmpty = false := by simp
    rw [if_neg ha, if_pos (by omega), List.nil_append]
    simp only [headerAddress?, hall, hne, readHex_toDigits, Bool.not_false, Bool.and_self,
      if_true]
    congr 1
    omega

/-- A text without blanks is left as it is. -/
theorem strip_eq_self {s : List Char} (h : ∀ c ∈ s, isBlank c = false) : strip s = s := by
  have hdrop : ∀ t : List Char, (∀ c ∈ t, isBlank c = false) → t.dropWhile isBlank = t := by
    intro t ht
    cases t with
    | nil => rfl
    | cons c t => rw [List.dropWhile_cons_of_neg (by simp [ht c])]
  rw [strip, hdrop s h, stripEnd, hdrop s.reverse (by simpa using h), List.reverse_reverse]

/-- A reply may begin with the address as it was asked for. -/
theorem linesOf_hex_append (a : Int) (rest : List Char) :
    linesOf ((hex a).toList ++ '\n' :: rest) = (hex a).toList :: linesOf rest := by
  have hplain : ('-' :: 'x' :: addressDigits).all fun c => !isLineBreak c && !isBlank c := by
    decide
  rw [List.all_eq_true] at hplain
  have hbreak : ∀ c ∈ (hex a).toList, isLineBreak c = false := by
    intro c hc
    have := hplain c (mem_hex hc)
    simp_all
  have hblank : ∀ c ∈ (hex a).toList, isBlank c = false := by
    intro c hc
    have := hplain c (mem_hex hc)
    simp_all
  rw [linesOf, splitLines_line_append _ _ hbreak, List.map_cons, strip_eq_self hblank]
  rfl

end Listing

open Listing

namespace Answers

/-- The answers in a listing: those of its replies, apart from those for negative addresses. -/
theorem ofListing_replies {reply : Int → List Char} {noise : List Char} {addresses : List Int}
    (hnoise : IsWhole noise) (hheadless : IsHeadless (linesOf noise))
    (h : ∀ a ∈ addresses, IsReply a (reply a)) (hasc : addresses.Pairwise (· < ·)) :
    ofListing (noise ++ addresses.flatMap reply) =
      .ok ((addresses.filter (0 ≤ ·)).map fun a => (a, replyFrames a (reply a))) := by
  have hsections : (sections (linesOf (noise ++ addresses.flatMap reply))).2 =
      (addresses.filter (0 ≤ ·)).map fun a => (a.toNat, replyLines (reply a)) := by
    rw [linesOf_append hnoise, sections_append hheadless]
    exact sections_replies h hasc
  have hnodup : (((addresses.filter (0 ≤ ·)).map
      fun a => (a.toNat, replyLines (reply a))).map (·.1)).Nodup := by
    rw [List.map_map]
    refine List.pairwise_map.mpr ?_
    refine (hasc.filter _).imp_of_mem ?_
    intro a b ha hb hlt
    have hnonneg : 0 ≤ a := by simpa using (List.mem_filter.mp ha).2
    simp only [Function.comp_apply]
    omega
  rw [ofListing, hsections, blocks_of_nodup hnodup, List.mapM_map]
  refine mapM_eq_ok ?_
  intro a ha
  obtain ⟨hmem, hnonneg⟩ := List.mem_filter.mp ha
  have hnonneg : 0 ≤ a := by simpa using hnonneg
  have hread := readFrames_eq ((h a hmem).readable hnonneg)
  simp only [Function.comp_apply, hread, replyFrames, if_pos hnonneg]
  rw [Int.toNat_of_nonneg hnonneg]
  rfl

/-- An address asked for has the frames that were given for it. -/
theorem frames_map {addresses : List Int} {f : Int → List Frame} {a : Int}
    (h : a ∈ addresses) : frames (addresses.map fun a => (a, f a)) a = f a := by
  unfold frames
  induction addresses with
  | nil => exact absurd h List.not_mem_nil
  | cons b rest ih =>
      rw [List.map_cons, List.lookup_cons]
      by_cases hab : a = b
      · simp [hab]
      · have hb : (a == b) = false := by simpa using hab
        rw [hb]
        exact ih ((List.mem_cons.mp h).resolve_left hab)

/-- An address not asked for has no frames. -/
theorem frames_map_of_notMem {addresses : List Int} {f : Int → List Frame} {a : Int}
    (h : a ∉ addresses) : frames (addresses.map fun a => (a, f a)) a = [] := by
  unfold frames
  have hnone : (addresses.map fun a => (a, f a)).lookup a = none := by
    rw [List.lookup_eq_none_iff]
    intro e he
    obtain ⟨b, hb, rfl⟩ := List.mem_map.mp he
    have hne : a ≠ b := fun hab => h (hab ▸ hb)
    simpa using hne
  rw [hnone]
  rfl

/-- The frames that a listing has for an address that was asked about are those of its reply,
whatever else was asked about. -/
theorem exists_ofListing_replies {reply : Int → List Char} {noise : List Char}
    {addresses : List Int} (hnoise : IsWhole noise) (hheadless : IsHeadless (linesOf noise))
    (h : ∀ a ∈ addresses, IsReply a (reply a)) (hasc : addresses.Pairwise (· < ·)) :
    ∃ answers, ofListing (noise ++ addresses.flatMap reply) = .ok answers ∧
      ∀ a ∈ addresses, answers.frames a = replyFrames a (reply a) := by
  refine ⟨_, ofListing_replies hnoise hheadless h hasc, ?_⟩
  intro a ha
  by_cases hnonneg : 0 ≤ a
  · exact frames_map (List.mem_filter.mpr ⟨ha, by simpa using hnonneg⟩)
  · rw [frames_map_of_notMem, replyFrames, if_neg hnonneg]
    intro hmem
    exact hnonneg (by simpa using (List.mem_filter.mp hmem).2)

end Answers

end Symbolication
