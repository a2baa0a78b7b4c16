import Symbolication.Proofs.Name.Groups

/-!
# Symbolication.Proofs.Name.Removal

Removing groups, compared with what groups are.  A text in which nowhere more groups are closed
than are open loses its outermost groups and nothing else; any other text stays as it is.  The
same comes of a scan that works on the text itself: it takes a group out as soon as it finds it
closed, and goes on where the group began.

* `removeGroups_eq` — what is left, said by counting brackets;
* `Scan`, `Scan.Runs` — the scan that changes the text it reads;
* `Scan.runs_start` — it ends after no more turns than there are characters;
* `outermost_withoutGroups` — the whole of it;
* `withoutGroups_eq_self_iff` — which names stay as they are.
-/

namespace Symbolication.Name

variable {opening closing : Char} {text rest : List Char}

/-! ## one reading of the text -/

theorem outsideGroups_nil (depth : Nat) (held : List Char) :
    outsideGroups opening closing depth held [] = some held.reverse := by
  cases depth <;> rfl

theorem outsideGroups_zero_cons (held : List Char) (x : Char) (rest : List Char) :
    outsideGroups opening closing 0 held (x :: rest) =
      if x == opening then outsideGroups opening closing 1 [x] rest
      else if x == closing then none
      else (outsideGroups opening closing 0 [] rest).map (x :: ·) :=
  rfl

theorem outsideGroups_succ_cons (depth : Nat) (held : List Char) (x : Char) (rest : List Char) :
    outsideGroups opening closing (depth + 1) held (x :: rest) =
      if x == opening then outsideGroups opening closing (depth + 2) (x :: held) rest
      else if x == closing then
        match depth with
        | 0 => outsideGroups opening closing 0 [] rest
        | depth + 1 => outsideGroups opening closing (depth + 1) (x :: held) rest
      else outsideGroups opening closing (depth + 1) (x :: held) rest :=
  rfl

theorem outsideGroups_zero_opening (held rest : List Char) :
    outsideGroups opening closing 0 held (opening :: rest) =
      outsideGroups opening closing 1 [opening] rest := by
  simp [outsideGroups_zero_cons]

theorem outsideGroups_zero_closing (hne : opening ≠ closing) (held rest : List Char) :
    outsideGroups opening closing 0 held (closing :: rest) = none := by
  simp [outsideGroups_zero_cons, hne.symm]

theorem outsideGroups_zero_other {x : Char} (hopening : x ≠ opening) (hclosing : x ≠ closing)
    (held rest : List Char) :
    outsideGroups opening closing 0 held (x :: rest) =
      (outsideGroups opening closing 0 [] rest).map (x :: ·) := by
  simp [outsideGroups_zero_cons, hopening, hclosing]

theorem outsideGroups_succ_opening (depth : Nat) (held rest : List Char) :
    outsideGroups opening closing (depth + 1) held (opening :: rest) =
      outsideGroups opening closing (depth + 2) (opening :: held) rest := by
  simp [outsideGroups_succ_cons]

theorem outsideGroups_one_closing (hne : opening ≠ closing) (held rest : List Char) :
    outsideGroups opening closing 1 held (closing :: rest) =
      outsideGroups opening closing 0 [] rest := by
  simp [outsideGroups_succ_cons, hne.symm]

theorem outsideGroups_succ_closing (hne : opening ≠ closing) (depth : Nat)
    (held rest : List Char) :
    outsideGroups opening closing (depth + 2) held (closing :: rest) =
      outsideGroups opening closing (depth + 1) (closing :: held) rest := by
  simp [outsideGroups_succ_cons, hne.symm]

theorem outsideGroups_succ_other {x : Char} (hopening : x ≠ opening) (hclosing : x ≠ closing)
    (depth : Nat) (held rest : List Char) :
    outsideGroups opening closing (depth + 1) held (x :: rest) =
      outsideGroups opening closing (depth + 1) (x :: held) rest := by
  simp [outsideGroups_succ_cons, hopening, hclosing]

/-- Inside a group everything is held back. -/
theorem outsideGroups_append (hne : opening ≠ closing) {depth k : Nat}
    (h : depthAfter opening closing depth text = some k) (held rest : List Char) :
    outsideGroups opening closing (depth + 1) held (text ++ rest) =
      outsideGroups opening closing (k + 1) (text.reverse ++ held) rest := by
  induction text using brackets_induction opening closing generalizing depth held with
  | nil =>
      rw [depthAfter_nil, Option.some.injEq] at h
      rw [h, List.nil_append, List.reverse_nil, List.nil_append]
  | opens text ih =>
      rw [depthAfter_opening] at h
      rw [List.cons_append, outsideGroups_succ_opening, ih h, List.reverse_cons, List.append_assoc,
        List.singleton_append]
  | closes text ih =>
      cases depth with
      | zero => simp [depthAfter_closing_zero hne] at h
      | succ depth =>
          rw [depthAfter_closing hne] at h
          rw [List.cons_append, outsideGroups_succ_closing hne, ih h, List.reverse_cons,
            List.append_assoc, List.singleton_append]
  | other x text hopening hclosing ih =>
      rw [depthAfter_other hopening hclosing] at h
      rw [List.cons_append, outsideGroups_succ_other hopening hclosing, ih h, List.reverse_cons,
        List.append_assoc, List.singleton_append]

/-- What is left of a text is what stands in no group, unless more groups are closed than are
open. -/
theorem outsideGroups_eq (hne : opening ≠ closing) (text : List Char) :
    outsideGroups opening closing 0 [] text =
      if (depthAfter opening closing 0 text).isSome then some (ungrouped opening closing text)
      else none := by
  induction text using groups_induction hne with
  | nil => rfl
  | other x rest hopening hclosing ih =>
      rw [outsideGroups_zero_other hopening hclosing, depthAfter_other hopening hclosing,
        ungrouped_cons hopening hclosing, ih]
      split <;> rfl
  | group body rest hbody ih =>
      rw [outsideGroups_zero_opening, outsideGroups_append hne hbody,
        outsideGroups_one_closing hne, depthAfter_group hne hbody, ungrouped_group hne hbody, ih]
  | unclosed rest depth hrest =>
      -- the end of the text finds the group still held back
      have hall := outsideGroups_append hne hrest [opening] []
      have hdeeper := depthAfter_add hne 1 hrest
      rw [List.append_nil, outsideGroups_nil] at hall
      rw [outsideGroups_zero_opening, hall, depthAfter_opening, hdeeper, Option.isSome_some,
        if_pos rfl, ungrouped_unclosed hne hrest]
      simp
  | excess rest =>
      rw [outsideGroups_zero_closing hne, depthAfter_closing_zero hne]
      rfl

/-- A text loses its outermost groups, unless more groups are closed than are open. -/
theorem removeGroups_eq (hne : opening ≠ closing) (text : List Char) :
    removeGroups opening closing text =
      if (depthAfter opening closing 0 text).isSome then ungrouped opening closing text
      else text := by
  rw [removeGroups, outsideGroups_eq hne]
  split <;> rfl

/-- What stands in no group has no groups, and the same depth behind it. -/
theorem ungrouped_ungrouped (hne : opening ≠ closing)
    (h : (depthAfter opening closing 0 text).isSome) :
    ungrouped opening closing (ungrouped opening closing text) =
        ungrouped opening closing text ∧
      depthAfter opening closing 0 (ungrouped opening closing text) =
        depthAfter opening closing 0 text := by
  induction text using groups_induction hne with
  | nil => exact ⟨rfl, rfl⟩
  | other x rest hopening hclosing ih =>
      rw [depthAfter_other hopening hclosing] at h
      obtain ⟨hsame, hdepth⟩ := ih h
      rw [ungrouped_cons hopening hclosing, ungrouped_cons hopening hclosing,
        depthAfter_other hopening hclosing, depthAfter_other hopening hclosing, hsame]
      exact ⟨rfl, hdepth⟩
  | group body rest hbody ih =>
      rw [depthAfter_group hne hbody] at h
      rw [ungrouped_group hne hbody, depthAfter_group hne hbody]
      exact ih h
  | unclosed rest depth hrest =>
      rw [ungrouped_unclosed hne hrest]
      exact ⟨ungrouped_unclosed hne hrest, rfl⟩
  | excess rest => simp [depthAfter_closing_zero hne] at h

/-- Nothing more is removed the next time. -/
theorem removeGroups_removeGroups (hne : opening ≠ closing) (text : List Char) :
    removeGroups opening closing (removeGroups opening closing text) =
      removeGroups opening closing text := by
  rw [removeGroups_eq hne text]
  split
  · rename_i h
    obtain ⟨hsame, hdepth⟩ := ungrouped_ungrouped hne h
    rw [removeGroups_eq hne, hdepth, if_pos h, hsame]
  · rename_i h
    rw [removeGroups_eq hne, if_neg h]

/-! ## a scan that changes the text -/

/-- A scan under way. -/
structure Scan where
  /-- The text, without the groups that have been taken out. -/
  text : List Char
  /-- The position in the text. -/
  position : Nat
  /-- How many groups are open. -/
  depth : Nat
  /-- Where the outermost one of them begins. -/
  first : Nat

/-- What comes of looking at one character. -/
inductive Turn where
  /-- The scan goes on. -/
  | goesOn (scan : Scan)
  /-- The text is at its end, and this is left of it. -/
  | ends (text : List Char)
  /-- A group is closed that is not open. -/
  | givesUp

namespace Scan

/-- A scan that has not begun. -/
def start (text : List Char) : Scan :=
  { text, position := 0, depth := 0, first := 0 }

/-- Looks at the next character.  An outermost group is taken out when it is closed, and the scan
goes on at the place where it began. -/
def turn (opening closing : Char) (s : Scan) : Turn :=
  match s.text[s.position]? with
  | none => .ends s.text
  | some x =>
    if x = opening then
      .goesOn { s with
        position := s.position + 1
        depth := s.depth + 1
        first := if s.depth = 0 then s.position else s.first }
    else if x = closing then
      match s.depth with
      | 0 => .givesUp
      | 1 => .goesOn {
          text := s.text.take s.first ++ s.text.drop (s.position + 1)
          position := s.first
          depth := 0
          first := s.first }
      | depth + 2 => .goesOn { s with position := s.position + 1, depth := depth + 1 }
    else .goesOn { s with position := s.position + 1 }

/-- After a number of turns the scan ends with what is left of the text, or it gives up. -/
inductive Runs (opening closing : Char) : Scan → Nat → Option (List Char) → Prop where
  /-- The text is at its end. -/
  | ends {s : Scan} {text : List Char} (h : s.turn opening closing = .ends text) :
      Runs opening closing s 0 (some text)
  /-- The scan gives up. -/
  | givesUp {s : Scan} (h : s.turn opening closing = .givesUp) : Runs opening closing s 0 none
  /-- The scan goes on. -/
  | goesOn {s s' : Scan} {turns : Nat} {left : Option (List Char)}
      (h : s.turn opening closing = .goesOn s') (hruns : Runs opening closing s' turns left) :
      Runs opening closing s (turns + 1) left

/-- A run that goes on for one turn more. -/
theorem runs_of_turn {s s' : Scan} {left : Option (List Char)} {bound : Nat}
    (h : s.turn opening closing = .goesOn s')
    (hruns : ∃ turns ≤ bound, Runs opening closing s' turns left) :
    ∃ turns ≤ bound + 1, Runs opening closing s turns left := by
  obtain ⟨turns, hle, hruns⟩ := hruns
  exact ⟨turns + 1, Nat.succ_le_succ hle, .goesOn h hruns⟩

/-- The scan has come to `rest`; in front of it stands what is left, and then, in an open group,
what is held back. -/
structure Reaches (s : Scan) (kept held rest : List Char) : Prop where
  text_eq : s.text = kept ++ held.reverse ++ rest
  position_eq : s.position = kept.length + held.length
  first_eq : s.depth ≠ 0 → s.first = kept.length
  held_eq : s.depth = 0 → held = []

namespace Reaches

variable {s : Scan} {kept held : List Char}

theorem start (text : List Char) : (Scan.start text).Reaches [] [] text where
  text_eq := rfl
  position_eq := rfl
  first_eq h := absurd rfl h
  held_eq _ := rfl

/-- The scan looks at the first character of what it has come to. -/
theorem getElem?_text (h : s.Reaches kept held rest) : s.text[s.position]? = rest.head? := by
  rw [h.text_eq, h.position_eq, List.getElem?_append_right (by simp), List.head?_eq_getElem?]
  congr 1
  simp

/-- A group is opened; if none was open, it is an outermost one. -/
theorem turn_opening (closing : Char) (h : s.Reaches kept held (opening :: rest)) :
    ∃ s', s.turn opening closing = .goesOn s' ∧ s'.depth = s.depth + 1 ∧
      s'.Reaches kept (opening :: held) rest := by
  have hlook : s.text[s.position]? = some opening := h.getElem?_text
  refine ⟨⟨s.text, s.position + 1, s.depth + 1, if s.depth = 0 then s.position else s.first⟩,
    by simp [turn, hlook], rfl, ?_, ?_, fun _ => ?_, fun hzero => absurd hzero (by simp)⟩
  · simp [h.text_eq]
  · simp [h.position_eq, Nat.add_assoc]
  · dsimp only
    split
    · rename_i hdepth
      simp [h.position_eq, h.held_eq hdepth]
    · rename_i hdepth
      exact h.first_eq hdepth

/-- A character that is no bracket is kept, or held back if a group is open. -/
theorem turn_other {x : Char} (hopening : x ≠ opening) (hclosing : x ≠ closing)
    (h : s.Reaches kept held (x :: rest)) :
    ∃ s', s.turn opening closing = .goesOn s' ∧ s'.depth = s.depth ∧
      (s.depth = 0 → s'.Reaches (kept ++ [x]) [] rest) ∧
      (s.depth ≠ 0 → s'.Reaches kept (x :: held) rest) := by
  have hlook : s.text[s.position]? = some x := h.getElem?_text
  refine ⟨{ s with position := s.position + 1 }, by simp [turn, hlook, hopening, hclosing], rfl,
    fun hdepth => ?_, fun hdepth => ?_⟩
  · have hheld := h.held_eq hdepth
    refine ⟨?_, ?_, fun hpos => absurd hdepth hpos, fun _ => rfl⟩
    · simp [h.text_eq, hheld]
    · simp [h.position_eq, hheld]
  · refine ⟨?_, ?_, h.first_eq, fun hzero => absurd hzero hdepth⟩
    · simp [h.text_eq]
    · simp [h.position_eq, Nat.add_assoc]

/-- A group inside another one is closed. -/
theorem turn_closing_inner (hne : opening ≠ closing) {depth : Nat} (hdepth : s.depth = depth + 2)
    (h : s.Reaches kept held (closing :: rest)) :
    ∃ s', s.turn opening closing = .goesOn s' ∧ s'.depth = depth + 1 ∧
      s'.Reaches kept (closing :: held) rest := by
  have hlook : s.text[s.position]? = some closing := h.getElem?_text
  refine ⟨{ s with position := s.position + 1, depth := depth + 1 },
    by simp [turn, hlook, hne.symm, hdepth], rfl, ?_, ?_, fun _ => h.first_eq (by omega),
    fun hzero => absurd hzero (by simp)⟩
  · simp [h.text_eq]
  · simp [h.position_eq, Nat.add_assoc]

/-- An outermost group is closed, and nothing is left of it. -/
theorem turn_closing_outer (hne : opening ≠ closing) (hdepth : s.depth = 1)
    (h : s.Reaches kept held (closing :: rest)) :
    ∃ s', s.turn opening closing = .goesOn s' ∧ s'.depth = 0 ∧ s'.Reaches kept [] rest := by
  have hlook : s.text[s.position]? = some closing := h.getElem?_text
  have hfirst := h.first_eq (by omega)
  have hlength : s.position + 1 = (kept ++ held.reverse ++ [closing]).length := by
    simp [h.position_eq, Nat.add_assoc]
  have hbehind : s.text.drop (s.position + 1) = rest := by
    rw [h.text_eq, List.append_cons _ closing rest, hlength, List.drop_left]
  have hbefore : s.text.take s.first = kept := by
    rw [h.text_eq, hfirst, List.append_assoc, List.take_left]
  refine ⟨⟨s.text.take s.first ++ s.text.drop (s.position + 1), s.first, 0, s.first⟩,
    by simp [turn, hlook, hne.symm, hdepth], rfl, ?_, ?_, fun hpos => absurd rfl hpos, fun _ => rfl⟩
  · simp [hbehind, hbefore]
  · simp [hfirst]

theorem turn_closing_none (hne : opening ≠ closing) (hdepth : s.depth = 0)
    (h : s.Reaches kept held (closing :: rest)) : s.turn opening closing = .givesUp := by
  have hlook : s.text[s.position]? = some closing := h.getElem?_text
  simp [turn, hlook, hne.symm, hdepth]

/-- From where it has come to, the scan ends with what a single reading of the rest leaves. -/
theorem runs (hne : opening ≠ closing) (h : s.Reaches kept held rest) :
    ∃ turns ≤ rest.length, Runs opening closing s turns
      ((outsideGroups opening closing s.depth held rest).map (kept ++ ·)) := by
  -- on what the scan has come to: a turn that takes a group out makes the text shorter and moves
  -- the position back, but what is still to be read gets shorter by one character at every turn
  induction rest using brackets_induction opening closing generalizing s kept held with
  | nil =>
      have hlook := h.getElem?_text
      have hends : s.turn opening closing = .ends (kept ++ held.reverse) := by
        rw [turn, hlook, h.text_eq, List.append_nil]
        rfl
      rw [outsideGroups_nil]
      exact ⟨0, Nat.le_refl 0, .ends hends⟩
  | opens rest ih =>
      obtain ⟨s', hturn, hdepth, hreaches⟩ := h.turn_opening closing
      have hruns := runs_of_turn hturn (ih hreaches)
      rw [hdepth] at hruns
      cases hzero : s.depth with
      | zero =>
          rw [hzero, h.held_eq hzero] at hruns
          rwa [outsideGroups_zero_opening]
      | succ depth =>
          rw [hzero] at hruns
          rwa [outsideGroups_succ_opening]
  | closes rest ih =>
      match hdepth : s.depth with
      | 0 =>
          rw [outsideGroups_zero_closing hne]
          exact ⟨0, Nat.zero_le _, .givesUp (h.turn_closing_none hne hdepth)⟩
      | 1 =>
          obtain ⟨s', hturn, hzero, hreaches⟩ := h.turn_closing_outer hne hdepth
          have hruns := runs_of_turn hturn (ih hreaches)
          rw [hzero] at hruns
          rwa [outsideGroups_one_closing hne]
      | depth + 2 =>
          obtain ⟨s', hturn, hinner, hreaches⟩ := h.turn_closing_inner hne hdepth
          have hruns := runs_of_turn hturn (ih hreaches)
          rw [hinner] at hruns
          rwa [outsideGroups_succ_closing hne]
  | other x rest hopening hclosing ih =>
      obtain ⟨s', hturn, hdepth, hkept, hheld⟩ := h.turn_other hopening hclosing
      cases hzero : s.depth with
      | zero =>
          have hruns := runs_of_turn hturn (ih (hkept hzero))
          rw [hdepth, hzero] at hruns
          rw [outsideGroups_zero_other hopening hclosing, Option.map_map]
          simpa [Function.comp_def] using hruns
      | succ depth =>
          have hruns := runs_of_turn hturn (ih (hheld (by omega)))
          rw [hdepth, hzero] at hruns
          rwa [outsideGroups_succ_other hopening hclosing]

end Reaches

/-- The scan ends after no more turns than there are characters, with what a single reading of the
text leaves. -/
theorem runs_start (hne : opening ≠ closing) (text : List Char) :
    ∃ turns ≤ text.length, Runs opening closing (start text) turns
      (outsideGroups opening closing 0 [] text) := by
  simpa [start] using (Reaches.start text).runs hne

end Scan

/-! ## names -/

theorem withoutGroups_singleton (opening closing : Char) (name : String) :
    withoutGroups (String.singleton opening) (String.singleton closing) name =
      String.ofList (removeGroups opening closing name.toList) := by
  simp [withoutGroups]

/-- There is a depth behind a name exactly if nowhere in it more groups are closed than are open. -/
theorem isSome_depthAfter_zero_iff (hne : opening ≠ closing) :
    (depthAfter opening closing 0 text).isSome ↔
      ∀ pre, pre <+: text → pre.count closing ≤ pre.count opening := by
  simp only [isSome_depthAfter_iff hne, Nat.zero_add]

theorem depthAfter_zero_eq_none_iff (hne : opening ≠ closing) :
    depthAfter opening closing 0 text = none ↔
      ∃ pre, pre <+: text ∧ pre.count opening < pre.count closing := by
  rw [← Option.not_isSome_iff_eq_none, isSome_depthAfter_zero_iff hne]
  simp

/-- Removing groups from a name comes to its end, also if it is done by changing the name while it
is read, which takes no more turns than the name has characters.  A name in which somewhere more
groups are closed than are open stays as it is.  Of any other name just that is left which stands in
no outermost group.  In any case everything from a bracket at depth zero on that is never closed is
left, and what is left stays as it is the next time. -/
theorem outermost_withoutGroups (hne : opening ≠ closing) (name : String) :
    let left := withoutGroups (String.singleton opening) (String.singleton closing) name
    (∃ turns ≤ name.toList.length, ∃ scanned,
        Scan.Runs opening closing (.start name.toList) turns scanned ∧
        left = String.ofList (scanned.getD name.toList)) ∧
      ((∃ pre, pre <+: name.toList ∧ pre.count opening < pre.count closing) → left = name) ∧
      ((∀ pre, pre <+: name.toList → pre.count closing ≤ pre.count opening) →
        left = String.ofList (ungrouped opening closing name.toList)) ∧
      (∀ i, name.toList[i]? = some opening → depthAt opening closing name.toList i = 0 →
        (∀ j, i < j → j ≤ name.toList.length → 0 < depthAt opening closing name.toList j) →
        name.toList.drop i <:+ left.toList) ∧
      withoutGroups (String.singleton opening) (String.singleton closing) left = left := by
  dsimp only
  simp only [withoutGroups_singleton]
  refine ⟨?_, ?_, ?_, ?_, ?_⟩
  · obtain ⟨turns, hle, hruns⟩ := Scan.runs_start hne name.toList
    exact ⟨turns, hle, _, hruns, rfl⟩
  · intro h
    rw [removeGroups_eq hne, (depthAfter_zero_eq_none_iff hne).mpr h, if_neg (by simp),
      String.ofList_toList]
  · intro h
    rw [removeGroups_eq hne, if_pos ((isSome_depthAfter_zero_iff hne).mpr h)]
  · intro i hget hzero hopen
    rw [String.toList_ofList, removeGroups_eq hne]
    split
    · exact drop_suffix_ungrouped hne hget hzero hopen
    · exact List.drop_suffix i _
  · rw [String.toList_ofList, removeGroups_removeGroups hne]

/-- Of a name with a group that is never closed the groups in front of it are removed, and a name
with a group that is closed twice stays as it is. -/
theorem outermost_withoutGroups_unclosed :
    let left := withoutGroups "(" ")"
    left "f(int)::g(h(i)" = String.ofList (ungrouped '(' ')' "f(int)::g(h(i)".toList) ∧
      "(h(i)".toList <:+ (left "f(int)::g(h(i)").toList ∧
      left "f(int)::g(h(i)" = "f::g(h(i)" ∧
      left (left "f(int)::g(h(i)") = left "f(int)::g(h(i)" ∧
      left "f(a))(b)" = "f(a))(b)" := by
  have hne : '(' ≠ ')' := by decide
  obtain ⟨-, -, hleft, hkept, hagain⟩ := outermost_withoutGroups hne "f(int)::g(h(i)"
  obtain ⟨-, hsame, -⟩ := outermost_withoutGroups hne "f(a))(b)"
  have hclosed : ∀ pre, pre <+: "f(int)::g(h(i)".toList → pre.count ')' ≤ pre.count '(' :=
    (isSome_depthAfter_zero_iff hne).mp (by decide)
  have hopen : ∀ j < "f(int)::g(h(i)".toList.length + 1, 9 < j →
      0 < depthAt '(' ')' "f(int)::g(h(i)".toList j := by
    decide
  refine ⟨hleft hclosed, ?_, by decide, hagain, hsame ⟨"f(a))".toList, by decide, by decide⟩⟩
  exact hkept 9 (by decide) (by decide) fun j hlt hle => hopen j (Nat.lt_succ_of_le hle) hlt

/-- Which names stay as they are: those in which somewhere more groups are closed than are open, and
those in which no group is closed.  If a name opens more groups than it closes, this depends on what
stands in front of the first bracket at depth zero that is never closed: everything from there on is
left, and what is in front of it loses its groups. -/
theorem withoutGroups_eq_self_iff (hne : opening ≠ closing) (name : String) :
    let left := withoutGroups (String.singleton opening) (String.singleton closing) name
    (left = name ↔ (∃ pre, pre <+: name.toList ∧ pre.count opening < pre.count closing) ∨
        ∀ first last, ¬ IsGroup opening closing name.toList first last) ∧
      ((∀ pre, pre <+: name.toList → pre.count closing ≤ pre.count opening) →
        name.toList.count closing < name.toList.count opening →
        ∃ before after, name.toList = before ++ opening :: after ∧
          before.count opening = before.count closing ∧
          (∀ pre, pre <+: after → pre.count closing ≤ pre.count opening) ∧
          left.toList = ungrouped opening closing before ++ opening :: after) := by
  dsimp only
  rw [withoutGroups_singleton, String.toList_ofList, removeGroups_eq hne]
  constructor
  · cases hdepth : depthAfter opening closing 0 name.toList with
    | none =>
        rw [Option.isSome_none, if_neg (by simp), String.ofList_toList]
        exact iff_of_true rfl (.inl ((depthAfter_zero_eq_none_iff hne).mp hdepth))
    | some depth =>
        have hclosed : ¬ ∃ pre, pre <+: name.toList ∧ pre.count opening < pre.count closing := by
          rw [← depthAfter_zero_eq_none_iff hne, hdepth]
          simp
        rw [Option.isSome_some, if_pos rfl, or_iff_right hclosed, ← ungrouped_eq_self_iff,
          ← String.toList_inj, String.toList_ofList]
  · intro hclosed hmore
    have hsome := (isSome_depthAfter_zero_iff hne).mpr hclosed
    obtain ⟨depth, hdepth⟩ := Option.isSome_iff_exists.mp hsome
    have hcount := count_of_depthAfter hne hdepth
    obtain ⟨depth, rfl⟩ := Nat.exists_eq_add_of_le' (show 1 ≤ depth by omega)
    obtain ⟨before, after, hsplit, hbefore, k, hafter⟩ := exists_unclosed hne hdepth
    have hbalanced := count_of_depthAfter hne hbefore
    refine ⟨before, after, hsplit, by omega, ?_, ?_⟩
    · exact (isSome_depthAfter_zero_iff hne).mp (by rw [hafter, Option.isSome_some])
    · rw [if_pos hsome, hsplit, ungrouped_append_unclosed hne (by omega) hafter]

/-- A name whose first group is never closed stays as it is, and one with a group in front of such a
group does not. -/
theorem withoutGroups_eq_self_iff_unclosed :
    let left := withoutGroups "(" ")"
    left "f(g(h(int)" = "f(g(h(int)" ∧ left "f(int)::g(h(i)" ≠ "f(int)::g(h(i)" ∧
      ∃ before after, "f(int)::g(h(i)".toList = before ++ '(' :: after ∧
        (left "f(int)::g(h(i)").toList = ungrouped '(' ')' before ++ '(' :: after := by
  have hne : '(' ≠ ')' := by decide
  have hclosed : ∀ pre, pre <+: "f(int)::g(h(i)".toList → pre.count ')' ≤ pre.count '(' :=
    (isSome_depthAfter_zero_iff hne).mp (by decide)
  obtain ⟨hsame, -⟩ := withoutGroups_eq_self_iff hne "f(g(h(int)"
  obtain ⟨hself, hsplit⟩ := withoutGroups_eq_self_iff hne "f(int)::g(h(i)"
  refine ⟨hsame.mpr (.inr (ungrouped_eq_self_iff.mp (by decide))), fun heq => ?_, ?_⟩
  · rcases hself.mp heq with ⟨pre, hpre, hlt⟩ | hnone
    · exact absurd (hclosed pre hpre) (by omega)
    · exact hnone 1 5 (by decide)
  · obtain ⟨before, after, hname, -, -, hleft⟩ := hsplit hclosed (by decide)
    exact ⟨before, after, hname, hleft⟩

/-- A name that is not well-formed stays as it is. -/
def SparesMalformed (opening closing : Char) (name : String) : Prop :=
  ((∃ pre, pre <+: name.toList ∧ pre.count opening < pre.count closing) ∨
      name.toList.count closing < name.toList.count opening) →
    withoutGroups (String.singleton opening) (String.singleton closing) name = name

/-- Not all names that are not well-formed stay as they are: a group that is closed is removed,
though another one is not. -/
theorem withoutGroups_ne_self_of_unclosed : ¬ SparesMalformed '(' ')' "f(int)::g(h(i)" := by
  intro h
  have hsame := h (.inr (by decide))
  exact absurd hsame (by decide)

end Symbolication.Name
