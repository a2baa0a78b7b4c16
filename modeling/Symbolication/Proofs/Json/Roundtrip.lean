import Symbolication.Proofs.Json.Storable

/-!
# Symbolication.Proofs.Json.Roundtrip

What is written as a document is read as the same value.  A value is found again whatever
its indentation, and whatever follows it that could not be part of a number (`ReadsBack`).
There is one lemma for each form of a value, and one for the walk through items and one for
the walk through members:

* `settleMembers_of_nodup` — members with different names are kept as they are written;
* `readItems_pieces`, `readMembers_pieces` — the walks;
* `readsBack_of_storable` — by induction on the value;
* `readDocument_written` — the document of a value holds that value.
-/

namespace Symbolication

open Number

namespace Json

/-! ## what stands between values -/

/-- Line breaks and indentation are passed over. -/
theorem skipSpace_newline (level : Nat) (s : List Char) :
    skipSpace ((newline level).toList ++ s) = skipSpace s := by
  have hspace : ∀ c ∈ (newline level).toList, isSpace c = true := by
    intro c hc
    rw [toList_newline, List.mem_cons] at hc
    rcases hc with rfl | hc
    · decide
    · rw [List.eq_of_mem_replicate hc]
      decide
  exact List.dropWhile_append_of_pos hspace

theorem skipSpace_cons {c : Char} (h : isSpace c = false) (s : List Char) :
    skipSpace (c :: s) = c :: s :=
  List.dropWhile_cons_of_neg (by simp [h])

/-- Whether the character ends an array or an object. -/
def isClosing (c : Char) : Bool :=
  c == ']' || c == '}'

/-- The text begins like a value, neither with white space nor like the end of an array or object.
-/
def Begins (s : List Char) : Prop :=
  ∃ c more, s = c :: more ∧ isSpace c = false ∧ isClosing c = false

theorem Begins.skipSpace_append {s : List Char} (h : Begins s) (rest : List Char) :
    skipSpace (s ++ rest) = s ++ rest := by
  obtain ⟨c, more, rfl, hspace, -⟩ := h
  exact skipSpace_cons hspace _

theorem Begins.append {s : List Char} (h : Begins s) (rest : List Char) : Begins (s ++ rest) := by
  obtain ⟨c, more, rfl, hc⟩ := h
  exact ⟨c, more ++ rest, rfl, hc⟩

/-- A value is found again at any level, whatever follows it that could not be part of a number.
-/
structure ReadsBack (room : Nat) (v : Json) : Prop where
  /-- It begins neither with white space nor like the end of an array or object. -/
  begins : ∀ level : Nat, Begins (charsOf (pieces level v))
  /-- Its characters are read as the value. -/
  reads : ∀ (level fuel : Nat) (rest : List Char),
    (charsOf (pieces level v)).length ≤ fuel + 1 → EndsNumber rest →
      readValue room (fuel + 1) (charsOf (pieces level v) ++ rest) = .ok (v, rest)

/-! ## single values -/

theorem readsBack_null (room : Nat) : ReadsBack room .null where
  begins _ := ⟨'n', _, rfl, rfl, rfl⟩
  reads _ _ _ _ _ := rfl

theorem readsBack_bool (room : Nat) (b : Bool) : ReadsBack room (.bool b) := by
  cases b with
  | false =>
      exact { begins := fun _ => ⟨'f', _, rfl, rfl, rfl⟩, reads := fun _ _ _ _ _ => rfl }
  | true =>
      exact { begins := fun _ => ⟨'t', _, rfl, rfl, rfl⟩, reads := fun _ _ _ _ _ => rfl }

theorem readsBack_text (room : Nat) (s : String) : ReadsBack room (.text s) := by
  have hchars : ∀ level, charsOf (pieces level (.text s)) =
      '"' :: (s.toList.flatMap escapedChar ++ ['"']) := by
    intro level
    simp [pieces, Piece.text]
  refine ⟨fun level => ⟨_, _, hchars level, rfl, rfl⟩, fun level fuel rest _ _ => ?_⟩
  rw [hchars, List.cons_append, List.append_assoc, List.singleton_append]
  unfold readValue
  simp only [readString_escaped]
  simp [Except.map]

/-- A digit is none of the characters that other values begin with. -/
theorem ne_of_isDigit {c d : Char} (hc : c.isDigit = true) (hd : d.isDigit = false) : c ≠ d := by
  rintro rfl
  exact absurd hc (by simp [hd])

theorem readValue_digit (room fuel : Nat) {c : Char} (hc : c.isDigit = true) (s : List Char) :
    readValue room (fuel + 1) (c :: s) = readNumber (c :: s) := by
  have hne : ∀ d : Char, d.isDigit = false → c ≠ d := fun d => ne_of_isDigit hc
  unfold readValue
  simp [hne '"' rfl, hne '{' rfl, hne '[' rfl, hne 'n' rfl, hne 't' rfl, hne 'f' rfl, hne 'N' rfl,
    hne 'I' rfl, hne '-' rfl]

theorem readValue_minus (room fuel : Nat) {c : Char} (hc : c.isDigit = true) (s : List Char) :
    readValue room (fuel + 1) ('-' :: c :: s) = readNumber ('-' :: c :: s) := by
  have hne : c ≠ 'I' := ne_of_isDigit hc rfl
  unfold readValue
  simp [hne]

theorem readsBack_int (room : Nat) {n : Int} (h : Number.isWritable n = true) :
    ReadsBack room (.int n) := by
  have hchars : ∀ level, charsOf (pieces level (.int n)) =
      (if n < 0 then ['-'] else []) ++ Nat.toDigits 10 n.natAbs := by
    intro level
    simp [pieces, Piece.text, ← toList_toString]
  constructor
  case begins =>
    intro level
    obtain ⟨c, more, hs, hc⟩ := exists_toDigits_append n.natAbs []
    rw [List.append_nil] at hs
    rw [hchars, hs]
    split
    · exact ⟨'-', c :: more, rfl, rfl, rfl⟩
    · refine ⟨c, more, rfl, ?_, ?_⟩
      · simp [isSpace, ne_of_isDigit hc]
      · simp [isClosing, ne_of_isDigit hc]
  case reads =>
    intro level fuel rest _ hrest
    have hvalue : readValue room (fuel + 1) ((toString n).toList ++ rest) =
        readNumber ((toString n).toList ++ rest) := by
      obtain ⟨c, more, hs, hc⟩ := exists_toDigits_append n.natAbs rest
      rw [toList_toString, List.append_assoc, hs]
      split
      · exact readValue_minus room fuel hc more
      · exact readValue_digit room fuel hc more
    rw [hchars, ← toList_toString, hvalue, readNumber_toString h hrest]

/-! ## arrays -/

variable {room : Nat}

theorem charsOf_list (level : Nat) (v : Json) (items : List Json) :
    charsOf (pieces level (.list (v :: items))) =
      '[' :: ((newline (level + 1)).toList ++ (charsOf (pieces (level + 1) v) ++
        (charsOf (piecesOfItems (level + 1) items) ++ ((newline level).toList ++ [']'])))) := by
  simp [pieces, Piece.text]

theorem charsOf_items_cons (level : Nat) (v : Json) (items : List Json) :
    charsOf (piecesOfItems level (v :: items)) =
      ',' :: ((newline level).toList ++ (charsOf (pieces level v) ++
        charsOf (piecesOfItems level items))) := by
  simp [piecesOfItems, Piece.text]

theorem length_newline_pos (level : Nat) : 0 < (newline level).toList.length := by
  simp [toList_newline]

/-- A line break ends a number. -/
theorem endsNumber_newline (level : Nat) (rest : List Char) :
    EndsNumber ((newline level).toList ++ rest) := by
  rw [toList_newline]
  simp [EndsNumber]

/-- A comma ends a number. -/
theorem endsNumber_comma (rest : List Char) : EndsNumber (',' :: rest) := by
  simp [EndsNumber]

/-- An item is found again, and what follows it decides how the walk goes on. -/
theorem readItems_item (level fuel : Nat) (rest : List Char) {v : Json} (h : ReadsBack room v)
    (hfuel : (charsOf (pieces level v)).length ≤ fuel + 1) (hrest : EndsNumber rest) :
    readItems room (fuel + 2) (charsOf (pieces level v) ++ rest) =
      match skipSpace rest with
      | ']' :: rest => .ok ([v], rest)
      | ',' :: rest =>
        (readItems room (fuel + 1) (skipSpace rest)).map fun (vs, rest) => (v :: vs, rest)
      | rest => .error (.malformed .expectingComma rest) := by
  rw [readItems, h.reads level fuel rest hfuel hrest]
  rfl

/-- The walk through the items of an array, up to its closing bracket. -/
theorem readItems_pieces (level outer fuel : Nat) (rest : List Char) {v : Json}
    {items : List Json} (h : ∀ w ∈ v :: items, ReadsBack room w)
    (hfuel : (charsOf (pieces level v)).length + (charsOf (piecesOfItems level items)).length ≤
      fuel + 1) :
    readItems room (fuel + 2) (charsOf (pieces level v) ++ (charsOf (piecesOfItems level items) ++
      ((newline outer).toList ++ ']' :: rest))) = .ok (v :: items, rest) := by
  induction items generalizing v fuel with
  | nil =>
      have hclose : skipSpace ((newline outer).toList ++ ']' :: rest) = ']' :: rest :=
        skipSpace_newline outer _
      simp only [piecesOfItems, charsOf_nil, List.nil_append]
      rw [readItems_item level fuel _ (h v List.mem_cons_self) (by omega)
        (endsNumber_newline _ _), hclose]
      rfl
  | cons w items ih =>
      have hnewline := length_newline_pos level
      have hbegins := (h w (by simp)).begins level
      rw [charsOf_items_cons] at hfuel ⊢
      simp only [List.length_cons, List.length_append] at hfuel
      -- the comma in front of the next item pays for this step of the walk
      obtain ⟨fuel, rfl⟩ : ∃ k, fuel = k + 1 := Nat.exists_eq_succ_of_ne_zero (by omega)
      have hitems := ih fuel (v := w) (fun u hu => h u (List.mem_cons_of_mem _ hu)) (by omega)
      simp only [List.cons_append, List.append_assoc]
      rw [readItems_item level (fuel + 1) _ (h v List.mem_cons_self) (by omega)
        (endsNumber_comma _)]
      simp only [skipSpace_cons (c := ',') rfl, skipSpace_newline, hbegins.skipSpace_append,
        hitems]
      rfl

theorem readValue_bracket (fuel : Nat) {s t : List Char} (hs : skipSpace s = t) (h : Begins t) :
    readValue (room + 1) (fuel + 1) ('[' :: s) =
      (readItems room fuel t).map fun (vs, rest) => (.list vs, rest) := by
  obtain ⟨c, more, rfl, -, hc⟩ := h
  have hne : c ≠ ']' := by
    rintro rfl
    exact absurd hc (by decide)
  unfold readValue
  simp [hs, hne]

theorem readsBack_list {items : List Json} (h : ∀ v ∈ items, ReadsBack room v) :
    ReadsBack (room + 1) (.list items) := by
  cases items with
  | nil =>
      exact { begins := fun _ => ⟨'[', _, rfl, rfl, rfl⟩, reads := fun _ _ _ _ _ => rfl }
  | cons v items =>
      refine ⟨fun level => ⟨'[', _, charsOf_list level v items, rfl, rfl⟩, ?_⟩
      intro level fuel rest hfuel _
      have hbegins := (h v List.mem_cons_self).begins (level + 1)
      have hnewline := length_newline_pos (level + 1)
      rw [charsOf_list] at hfuel ⊢
      simp only [List.length_cons, List.length_append] at hfuel
      obtain ⟨fuel, rfl⟩ : ∃ k, fuel = k + 2 := ⟨fuel - 2, by omega⟩
      have hitems := readItems_pieces (level + 1) level fuel rest h (by omega)
      simp only [List.cons_append, List.append_assoc, List.nil_append]
      rw [readValue_bracket _ ((skipSpace_newline _ _).trans (hbegins.skipSpace_append _))
        (hbegins.append _), hitems]
      rfl

/-! ## objects -/

/-- Members with different names are kept as they are written. -/
theorem settleMembers_of_nodup {members : List (String × Json)}
    (h : (members.map (·.1)).Nodup) : settleMembers members = members := by
  have hafter : ∀ before : List (String × Json), ((before ++ members).map (·.1)).Nodup →
      members.foldl (fun ms m => insertMember m.1 m.2 ms) before = before ++ members := by
    clear h
    induction members with
    | nil => simp
    | cons m members ih =>
        intro before hnodup
        have hnew : m.1 ∉ before.map (·.1) := by
          intro hmem
          rw [List.map_append, List.nodup_append] at hnodup
          exact hnodup.2.2 _ hmem _ (by simp) rfl
        have hassoc : before ++ m :: members = before ++ [(m.1, m.2)] ++ members := by simp
        rw [List.foldl_cons, members_insert_of_notMem _ _ _ hnew, hassoc]
        exact ih _ (hassoc ▸ hnodup)
  exact hafter [] h

/-- The characters of a member of an object. -/
def charsOfMember (level : Nat) (m : String × Json) : List Char :=
  (stringText m.1).toList ++ ':' :: ' ' :: charsOf (pieces level m.2)

theorem charsOf_object (level : Nat) (m : String × Json) (members : List (String × Json)) :
    charsOf (pieces level (.object (m :: members))) =
      '{' :: ((newline (level + 1)).toList ++ (charsOfMember (level + 1) m ++
        (charsOf (piecesOfMembers (level + 1) members) ++ ((newline level).toList ++ ['}'])))) := by
  simp [pieces, Piece.text, charsOfMember]

theorem charsOf_members_cons (level : Nat) (m : String × Json) (members : List (String × Json)) :
    charsOf (piecesOfMembers level (m :: members)) =
      ',' :: ((newline level).toList ++ (charsOfMember level m ++
        charsOf (piecesOfMembers level members))) := by
  simp [piecesOfMembers, Piece.text, charsOfMember]

theorem begins_charsOfMember (level : Nat) (m : String × Json) :
    Begins (charsOfMember level m) := by
  rw [charsOfMember, toList_stringText]
  exact ⟨'"', _, rfl, rfl, rfl⟩

/-- A member is found again, and what follows it decides how the walk goes on. -/
theorem readMembers_member (level fuel : Nat) (rest : List Char) {m : String × Json}
    (h : ReadsBack room m.2) (hfuel : (charsOfMember level m).length ≤ fuel + 1)
    (hrest : EndsNumber rest) :
    readMembers room (fuel + 2) (charsOfMember level m ++ rest) =
      match skipSpace rest with
      | '}' :: rest => .ok ([m], rest)
      | ',' :: rest =>
        (readMembers room (fuel + 1) (skipSpace rest)).map fun (ms, rest) => (m :: ms, rest)
      | rest => .error (.malformed .expectingComma rest) := by
  obtain ⟨name, v⟩ := m
  simp only [charsOfMember, toList_stringText, List.cons_append, List.append_assoc,
    List.nil_append, List.length_cons, List.length_append] at hfuel ⊢
  have hname := readString_escaped
    ('"' :: (name.toList.flatMap escapedChar ++ '"' :: ':' :: ' ' ::
      (charsOf (pieces level v) ++ rest))) name.toList
    (':' :: ' ' :: (charsOf (pieces level v) ++ rest))
  have hv : readValue room (fuel + 1) (charsOf (pieces level v) ++ rest) = .ok (v, rest) :=
    ReadsBack.reads h level fuel rest (by dsimp only; omega) hrest
  have hskip : skipSpace (' ' :: (charsOf (pieces level v) ++ rest)) =
      charsOf (pieces level v) ++ rest :=
    (h.begins level).skipSpace_append rest
  rw [readMembers, hname]
  simp only [bind, Except.bind, skipSpace_cons (c := ':') rfl, hskip, hv, String.ofList_toList]
  rfl

/-- The walk through the members of an object, up to its closing brace. -/
theorem readMembers_pieces (level outer fuel : Nat) (rest : List Char) {m : String × Json}
    {members : List (String × Json)} (h : ∀ n ∈ m :: members, ReadsBack room n.2)
    (hfuel : (charsOfMember level m).length + (charsOf (piecesOfMembers level members)).length ≤
      fuel + 1) :
    readMembers room (fuel + 2) (charsOfMember level m ++
      (charsOf (piecesOfMembers level members) ++ ((newline outer).toList ++ '}' :: rest))) =
        .ok (m :: members, rest) := by
  induction members generalizing m fuel with
  | nil =>
      have hclose : skipSpace ((newline outer).toList ++ '}' :: rest) = '}' :: rest :=
        skipSpace_newline outer _
      simp only [piecesOfMembers, charsOf_nil, List.nil_append]
      rw [readMembers_member level fuel _ (h m List.mem_cons_self) (by omega)
        (endsNumber_newline _ _), hclose]
      rfl
  | cons n members ih =>
      have hnewline := length_newline_pos level
      rw [charsOf_members_cons] at hfuel ⊢
      simp only [List.length_cons, List.length_append] at hfuel
      -- the comma in front of the next member pays for this step of the walk
      obtain ⟨fuel, rfl⟩ : ∃ k, fuel = k + 1 := Nat.exists_eq_succ_of_ne_zero (by omega)
      have hmembers := ih fuel (m := n) (fun l hl => h l (List.mem_cons_of_mem _ hl)) (by omega)
      simp only [List.cons_append, List.append_assoc]
      rw [readMembers_member level (fuel + 1) _ (h m List.mem_cons_self) (by omega)
        (endsNumber_comma _)]
      simp only [skipSpace_cons (c := ',') rfl, skipSpace_newline,
        (begins_charsOfMember level n).skipSpace_append, hmembers]
      rfl

theorem readValue_brace (fuel : Nat) {s t : List Char} (hs : skipSpace s = t) (h : Begins t) :
    readValue (room + 1) (fuel + 1) ('{' :: s) =
      (readMembers room fuel t).map fun (ms, rest) => (.object (settleMembers ms), rest) := by
  obtain ⟨c, more, rfl, -, hc⟩ := h
  have hne : c ≠ '}' := by
    rintro rfl
    exact absurd hc (by decide)
  unfold readValue
  simp [hs, hne]

theorem readsBack_object {members : List (String × Json)}
    (hnames : (members.map (·.1)).Nodup) (h : ∀ m ∈ members, ReadsBack room m.2) :
    ReadsBack (room + 1) (.object members) := by
  cases members with
  | nil =>
      exact { begins := fun _ => ⟨'{', _, rfl, rfl, rfl⟩, reads := fun _ _ _ _ _ => rfl }
  | cons m members =>
      refine ⟨fun level => ⟨'{', _, charsOf_object level m members, rfl, rfl⟩, ?_⟩
      intro level fuel rest hfuel _
      have hbegins := begins_charsOfMember (level + 1) m
      have hnewline := length_newline_pos (level + 1)
      rw [charsOf_object] at hfuel ⊢
      simp only [List.length_cons, List.length_append] at hfuel
      obtain ⟨fuel, rfl⟩ : ∃ k, fuel = k + 2 := ⟨fuel - 2, by omega⟩
      have hmembers := readMembers_pieces (level + 1) level fuel rest h (by omega)
      simp only [List.cons_append, List.append_assoc, List.nil_append]
      rw [readValue_brace _ ((skipSpace_newline _ _).trans (hbegins.skipSpace_append _))
        (hbegins.append _), hmembers]
      simp only [Except.map, settleMembers_of_nodup hnames]

/-! ## documents -/

/-- Values that can be kept are found again. -/
theorem readsBack_of_storable {v : Json} (h : Storable room v) : ReadsBack room v := by
  induction h with
  | null =>
      exact readsBack_null _
  | bool b =>
      exact readsBack_bool _ b
  | int h =>
      exact readsBack_int _ h
  | text s =>
      exact readsBack_text _ s
  | list _ ih =>
      exact readsBack_list ih
  | object hnames _ ih =>
      exact readsBack_object hnames ih

/-- The document of a value holds that value. -/
theorem readDocument_written {v : Json} (h : Storable nestingLimit v) :
    readDocument v.written.toList = .ok v := by
  have hback := readsBack_of_storable h
  have htext : v.written.toList = charsOf (pieces 0 v) ++ ['\n'] := by
    rw [written_eq_textOf h, toList_textOf, document, charsOf_append]
    rfl
  have hbegins : Begins v.written.toList := htext ▸ (hback.begins 0).append ['\n']
  have hmark : v.written.toList.head? ≠ some '\uFEFF' := by
    intro hhead
    rcases isPlainText_written h _ (List.mem_of_mem_head? hhead) with hplain | hline
    · exact absurd hplain (by decide)
    · exact absurd hline (by decide)
  have hskip : skipSpace v.written.toList = v.written.toList := by
    simpa using hbegins.skipSpace_append []
  have hread : readValue nestingLimit (2 * v.written.toList.length + 2) v.written.toList =
      .ok (v, ['\n']) := by
    have hlength : (charsOf (pieces 0 v)).length ≤ 2 * v.written.toList.length + 1 + 1 := by
      rw [htext, List.length_append]
      omega
    have hread := hback.reads 0 (2 * v.written.toList.length + 1) ['\n'] hlength
      (endsNumber_newline 0 [])
    rwa [← htext] at hread
  unfold readDocument
  simp only [beq_iff_eq, hmark, if_false, hskip, bind, Except.bind, hread]
  rfl

end Json

end Symbolication
