import Symbolication.Name.Brackets

/-!
# Symbolication.Proofs.Name.Groups

The outermost groups of a text, said by counting brackets and without a scan.  The depth at a
position is the number of groups that are open in front of it.  A group begins with an opening
bracket at depth zero and ends with the first closing bracket that brings the depth back to zero.

* `depthAt`, `IsGroup` — depths and outermost groups;
* `ungrouped` — what stands in no outermost group;
* `ungrouped_append` — where the depth is zero, a text can be cut in two;
* `isSome_depthAfter_iff` — there is a depth behind a text if nowhere too many brackets are closed;
* `brackets_induction`, `groups_induction` — inductions character by character, and along the
  outermost groups.
-/

namespace Symbolication.Name

variable {opening closing : Char} {text rest : List Char}

/-! ## depths and groups -/

/-- How many more groups are opened than closed in front of a position. -/
def depthAt (opening closing : Char) (text : List Char) (i : Nat) : Int :=
  (text.take i).count opening - (text.take i).count closing

/-- The positions of an outermost group: an opening bracket at depth zero, and the closing bracket
that matches it. -/
structure IsGroup (opening closing : Char) (text : List Char) (first last : Nat) : Prop where
  first_lt : first < last
  opens : text[first]? = some opening
  closes : text[last]? = some closing
  outermost : depthAt opening closing text first = 0
  closed : depthAt opening closing text (last + 1) = 0
  within : ∀ i, first < i → i ≤ last → 0 < depthAt opening closing text i

instance (opening closing : Char) (text : List Char) (first last : Nat) :
    Decidable (IsGroup opening closing text first last) :=
  decidable_of_iff (first < last ∧ text[first]? = some opening ∧ text[last]? = some closing ∧
      depthAt opening closing text first = 0 ∧ depthAt opening closing text (last + 1) = 0 ∧
      ∀ i < last + 1, first < i → 0 < depthAt opening closing text i)
    ⟨fun ⟨hlt, hopens, hcloses, hfirst, hlast, hwithin⟩ =>
      ⟨hlt, hopens, hcloses, hfirst, hlast, fun i hi hle => hwithin i (by omega) hi⟩,
    fun h => ⟨h.first_lt, h.opens, h.closes, h.outermost, h.closed,
      fun i hi hlt => h.within i hlt (by omega)⟩⟩

/-- The position lies in an outermost group. -/
def InGroup (opening closing : Char) (text : List Char) (i : Nat) : Prop :=
  ∃ first last, IsGroup opening closing text first last ∧ first ≤ i ∧ i ≤ last

theorem IsGroup.last_lt {first last : Nat} (h : IsGroup opening closing text first last) :
    last < text.length :=
  (List.getElem?_eq_some_iff.mp h.closes).1

instance (opening closing : Char) (text : List Char) (i : Nat) :
    Decidable (InGroup opening closing text i) :=
  decidable_of_iff (∃ first < i + 1, ∃ last < text.length,
      IsGroup opening closing text first last ∧ i ≤ last)
    ⟨fun ⟨first, hfirst, last, _, hgroup, hlast⟩ => ⟨first, last, hgroup, by omega, hlast⟩,
    fun ⟨first, last, hgroup, hfirst, hlast⟩ =>
      ⟨first, by omega, last, hgroup.last_lt, hgroup, hlast⟩⟩

/-- The characters that stand in no outermost group, in their order. -/
def ungrouped (opening closing : Char) (text : List Char) : List Char :=
  (text.zipIdx.filter fun p => !decide (InGroup opening closing text p.2)).map Prod.fst

/-! ## cutting a text -/

theorem depthAt_append_right (h : text.count opening = text.count closing) (i : Nat) :
    depthAt opening closing (text ++ rest) (text.length + i) = depthAt opening closing rest i := by
  rw [depthAt, depthAt, List.take_length_add_append, List.count_append, List.count_append]
  omega

theorem depthAt_append_length (h : text.count opening = text.count closing) (rest : List Char) :
    depthAt opening closing (text ++ rest) text.length = 0 := by
  rw [depthAt, List.take_left]
  omega

theorem depthAt_append_left {i : Nat} (h : i ≤ text.length) :
    depthAt opening closing (text ++ rest) i = depthAt opening closing text i := by
  rw [depthAt, depthAt, List.take_append_of_le_length h]

/-- No group reaches over a place where the depth is zero. -/
theorem IsGroup.apart {first last i : Nat} (h : IsGroup opening closing text first last)
    (hzero : depthAt opening closing text i = 0) (hlt : first < i) : last < i := by
  refine Nat.lt_of_not_le fun hle => ?_
  have hpos := h.within i hlt hle
  omega

/-- A group is where it was if the text around it moves by some characters. -/
theorem isGroup_shift {moved : List Char} {k first last : Nat}
    (hget : ∀ i ≤ last, moved[k + i]? = text[i]?)
    (hdepth : ∀ i ≤ last + 1, depthAt opening closing moved (k + i) =
      depthAt opening closing text i) :
    IsGroup opening closing moved (k + first) (k + last) ↔
      IsGroup opening closing text first last := by
  constructor
  · intro h
    have hlt : first < last := by have := h.first_lt; omega
    refine ⟨hlt, ?_, ?_, ?_, ?_, fun i hi hle => ?_⟩
    · rw [← hget first (by omega), h.opens]
    · rw [← hget last (Nat.le_refl _), h.closes]
    · rw [← hdepth first (by omega), h.outermost]
    · rw [← hdepth (last + 1) (Nat.le_refl _), ← Nat.add_assoc, h.closed]
    · rw [← hdepth i (by omega)]
      exact h.within (k + i) (by omega) (by omega)
  · intro h
    have hlt := h.first_lt
    refine ⟨by omega, ?_, ?_, ?_, ?_, fun i hi hle => ?_⟩
    · rw [hget first (by omega), h.opens]
    · rw [hget last (Nat.le_refl _), h.closes]
    · rw [hdepth first (by omega), h.outermost]
    · rw [Nat.add_assoc, hdepth (last + 1) (Nat.le_refl _), h.closed]
    · obtain ⟨j, rfl⟩ := Nat.exists_eq_add_of_le (show k ≤ i by omega)
      rw [hdepth j (by omega)]
      exact h.within j (by omega) (by omega)

/-- Behind a place where the depth is zero, groups are those of what follows. -/
theorem inGroup_append_right (h : text.count opening = text.count closing) (i : Nat) :
    InGroup opening closing (text ++ rest) (text.length + i) ↔ InGroup opening closing rest i := by
  have hshift : ∀ first last, IsGroup opening closing (text ++ rest) (text.length + first)
      (text.length + last) ↔ IsGroup opening closing rest first last := by
    intro first last
    refine isGroup_shift (fun i _ => ?_) fun i _ => depthAt_append_right h i
    rw [List.getElem?_append_right (by omega), Nat.add_sub_cancel_left]
  have hzero := depthAt_append_length h rest
  constructor
  · rintro ⟨first, last, hgroup, hfirst, hlast⟩
    have hle : text.length ≤ first := by
      refine Nat.le_of_not_lt fun hlt => ?_
      have hapart := hgroup.apart hzero hlt
      omega
    obtain ⟨first, rfl⟩ := Nat.exists_eq_add_of_le hle
    obtain ⟨last, rfl⟩ := Nat.exists_eq_add_of_le (show text.length ≤ last by omega)
    exact ⟨first, last, (hshift first last).mp hgroup, by omega, by omega⟩
  · rintro ⟨first, last, hgroup, hfirst, hlast⟩
    exact ⟨_, _, (hshift first last).mpr hgroup, by omega, by omega⟩

/-- In front of such a place, groups are those of what stands there. -/
theorem inGroup_append_left (h : text.count opening = text.count closing) {i : Nat}
    (hi : i < text.length) :
    InGroup opening closing (text ++ rest) i ↔ InGroup opening closing text i := by
  have hshift : ∀ first last, last < text.length →
      (IsGroup opening closing (text ++ rest) first last ↔
        IsGroup opening closing text first last) := by
    intro first last hlast
    have hunmoved : IsGroup opening closing (text ++ rest) (0 + first) (0 + last) ↔
        IsGroup opening closing text first last := by
      refine isGroup_shift (fun i hle => ?_) fun i hle => ?_
      · rw [Nat.zero_add, List.getElem?_append_left (by omega)]
      · rw [Nat.zero_add, depthAt_append_left (by omega)]
    rwa [Nat.zero_add, Nat.zero_add] at hunmoved
  have hzero := depthAt_append_length h rest
  constructor
  · rintro ⟨first, last, hgroup, hfirst, hlast⟩
    have hapart := hgroup.apart hzero (by omega)
    exact ⟨first, last, (hshift first last hapart).mp hgroup, hfirst, hlast⟩
  · rintro ⟨first, last, hgroup, hfirst, hlast⟩
    exact ⟨first, last, (hshift first last hgroup.last_lt).mpr hgroup, hfirst, hlast⟩

/-- Of a text in two parts, characters chosen with their positions are those of the parts. -/
theorem filter_zipIdx_append (keep : Char × Nat → Bool) (text rest : List Char) :
    ((text ++ rest).zipIdx.filter keep).map Prod.fst = (text.zipIdx.filter keep).map Prod.fst ++
      (rest.zipIdx.filter fun p => keep (p.1, text.length + p.2)).map Prod.fst := by
  have hmoved : rest.zipIdx text.length = rest.zipIdx.map fun p => (p.1, text.length + p.2) :=
    List.zipIdx_eq_map_add
  rw [List.zipIdx_append, List.filter_append, List.map_append, Nat.zero_add, hmoved,
    List.filter_map, List.map_map]
  rfl

/-- Where the depth is zero, a text can be cut in two. -/
theorem ungrouped_append (h : text.count opening = text.count closing) (rest : List Char) :
    ungrouped opening closing (text ++ rest) =
      ungrouped opening closing text ++ ungrouped opening closing rest := by
  unfold ungrouped
  rw [filter_zipIdx_append]
  simp only [inGroup_append_right h]
  refine congrArg (List.map _ · ++ _) (List.filter_congr fun p hp => ?_)
  have hi := List.snd_lt_of_mem_zipIdx hp
  simp only [inGroup_append_left h (by simpa using hi)]

/-- Nothing is left out exactly if there are no groups. -/
theorem ungrouped_eq_self_iff : ungrouped opening closing text = text ↔
    ∀ first last, ¬ IsGroup opening closing text first last := by
  constructor
  · intro h first last hgroup
    have hlt : first < text.length := Nat.lt_trans hgroup.first_lt hgroup.last_lt
    have hlength : (text.zipIdx.filter fun p =>
        !decide (InGroup opening closing text p.2)).length = text.zipIdx.length := by
      rw [← List.length_map Prod.fst, ← ungrouped, h, List.length_zipIdx]
    have hall := List.length_filter_eq_length_iff.mp hlength (text[first], first)
      (List.mk_mem_zipIdx_iff_getElem?.mpr (List.getElem?_eq_getElem hlt))
    have hnot : ¬ InGroup opening closing text first := by simpa using hall
    exact hnot ⟨first, last, hgroup, Nat.le_refl _, Nat.le_of_lt hgroup.first_lt⟩
  · intro h
    have hall : ∀ p ∈ text.zipIdx, (!decide (InGroup opening closing text p.2)) = true := by
      rintro p -
      simpa using fun ⟨first, last, hgroup, _⟩ => h first last hgroup
    rw [ungrouped, List.filter_eq_self.mpr hall, List.zipIdx_map_fst]

theorem ungrouped_eq_nil (h : ∀ i < text.length, InGroup opening closing text i) :
    ungrouped opening closing text = [] := by
  rw [ungrouped, List.map_eq_nil_iff, List.filter_eq_nil_iff]
  rintro ⟨x, i⟩ hp
  have hi := List.snd_lt_of_mem_zipIdx hp
  simpa using h i (by simpa using hi)

/-! ## depths of parts -/

/-- A text that is not empty begins with an opening bracket, a closing one or another character. -/
@[elab_as_elim]
theorem brackets_induction {motive : List Char → Prop} (opening closing : Char) (nil : motive [])
    (opens : ∀ rest, motive rest → motive (opening :: rest))
    (closes : ∀ rest, motive rest → motive (closing :: rest))
    (other : ∀ x rest, x ≠ opening → x ≠ closing → motive rest → motive (x :: rest))
    (text : List Char) : motive text := by
  induction text with
  | nil => exact nil
  | cons x rest ih =>
      by_cases hopening : x = opening
      · subst hopening
        exact opens rest ih
      · by_cases hclosing : x = closing
        · subst hclosing
          exact closes rest ih
        · exact other x rest hopening hclosing ih

theorem depthAfter_nil (depth : Nat) : depthAfter opening closing depth [] = some depth :=
  rfl

theorem depthAfter_cons (depth : Nat) (x : Char) (rest : List Char) :
    depthAfter opening closing depth (x :: rest) =
      if x == opening then depthAfter opening closing (depth + 1) rest
      else if x == closing then
        match depth with
        | 0 => none
        | depth + 1 => depthAfter opening closing depth rest
      else depthAfter opening closing depth rest :=
  rfl

theorem depthAfter_opening (depth : Nat) (rest : List Char) :
    depthAfter opening closing depth (opening :: rest) =
      depthAfter opening closing (depth + 1) rest := by
  simp [depthAfter_cons]

theorem depthAfter_closing (hne : opening ≠ closing) (depth : Nat) (rest : List Char) :
    depthAfter opening closing (depth + 1) (closing :: rest) =
      depthAfter opening closing depth rest := by
  simp [depthAfter_cons, hne.symm]

theorem depthAfter_closing_zero (hne : opening ≠ closing) (rest : List Char) :
    depthAfter opening closing 0 (closing :: rest) = none := by
  simp [depthAfter_cons, hne.symm]

theorem depthAfter_other {x : Char} (hopening : x ≠ opening) (hclosing : x ≠ closing)
    (depth : Nat) (rest : List Char) :
    depthAfter opening closing depth (x :: rest) = depthAfter opening closing depth rest := by
  simp [depthAfter_cons, hopening, hclosing]

theorem depthAfter_append (hne : opening ≠ closing) (depth : Nat) (text rest : List Char) :
    depthAfter opening closing depth (text ++ rest) =
      (depthAfter opening closing depth text).bind fun k =>
        depthAfter opening closing k rest := by
  induction text using brackets_induction opening closing generalizing depth with
  | nil => rw [depthAfter_nil, List.nil_append, Option.bind_some]
  | opens text ih => rw [List.cons_append, depthAfter_opening, depthAfter_opening, ih]
  | closes text ih =>
      rw [List.cons_append]
      cases depth with
      | zero => rw [depthAfter_closing_zero hne, depthAfter_closing_zero hne, Option.bind_none]
      | succ depth => rw [depthAfter_closing hne, depthAfter_closing hne, ih]
  | other x text hopening hclosing ih =>
      rw [List.cons_append, depthAfter_other hopening hclosing,
        depthAfter_other hopening hclosing, ih]

/-- The depth behind a text, in numbers of brackets. -/
theorem count_of_depthAfter (hne : opening ≠ closing) {depth k : Nat}
    (h : depthAfter opening closing depth text = some k) :
    k + text.count closing = depth + text.count opening := by
  induction text using brackets_induction opening closing generalizing depth with
  | nil =>
      rw [depthAfter_nil, Option.some.injEq] at h
      rw [h, List.count_nil, List.count_nil]
  | opens text ih =>
      rw [depthAfter_opening] at h
      rw [List.count_cons_self, List.count_cons_of_ne hne]
      have hcount := ih h
      omega
  | closes text ih =>
      cases depth with
      | zero => simp [depthAfter_closing_zero hne] at h
      | succ depth =>
          rw [depthAfter_closing hne] at h
          rw [List.count_cons_self, List.count_cons_of_ne hne.symm]
          have hcount := ih h
          omega
  | other x text hopening hclosing ih =>
      rw [depthAfter_other hopening hclosing] at h
      rw [List.count_cons_of_ne hopening, List.count_cons_of_ne hclosing]
      exact ih h

/-- The depth is none only behind a closing bracket that closes nothing. -/
theorem exists_of_depthAfter_none (hne : opening ≠ closing) {depth : Nat}
    (h : depthAfter opening closing depth text = none) :
    ∃ body rest, text = body ++ closing :: rest ∧
      depthAfter opening closing depth body = some 0 := by
  induction text using brackets_induction opening closing generalizing depth with
  | nil => simp [depthAfter_nil] at h
  | opens text ih =>
      rw [depthAfter_opening] at h
      obtain ⟨body, rest, rfl, hbody⟩ := ih h
      exact ⟨opening :: body, rest, rfl, by rw [depthAfter_opening, hbody]⟩
  | closes text ih =>
      cases depth with
      | zero => exact ⟨[], text, rfl, depthAfter_nil 0⟩
      | succ depth =>
          rw [depthAfter_closing hne] at h
          obtain ⟨body, rest, rfl, hbody⟩ := ih h
          exact ⟨closing :: body, rest, rfl, by rw [depthAfter_closing hne, hbody]⟩
  | other x text hopening hclosing ih =>
      rw [depthAfter_other hopening hclosing] at h
      obtain ⟨body, rest, rfl, hbody⟩ := ih h
      exact ⟨x :: body, rest, rfl, by rw [depthAfter_other hopening hclosing, hbody]⟩

/-- There is a depth behind a text exactly if nowhere in it more groups are closed than are open. -/
theorem isSome_depthAfter_iff (hne : opening ≠ closing) {depth : Nat} :
    (depthAfter opening closing depth text).isSome ↔
      ∀ pre, pre <+: text → pre.count closing ≤ depth + pre.count opening := by
  constructor
  · rintro h pre ⟨suffix, rfl⟩
    rw [depthAfter_append hne] at h
    cases hpre : depthAfter opening closing depth pre with
    | none => simp [hpre] at h
    | some k =>
        have hcount := count_of_depthAfter hne hpre
        omega
  · intro h
    refine Option.isSome_iff_ne_none.mpr fun hnone => ?_
    obtain ⟨body, rest, rfl, hbody⟩ := exists_of_depthAfter_none hne hnone
    have hcount := count_of_depthAfter hne hbody
    have hle := h (body ++ [closing]) ⟨rest, by simp⟩
    rw [List.count_append, List.count_append, List.count_singleton_self,
      List.count_singleton, if_neg (by simpa using hne.symm)] at hle
    omega

/-- With more groups open in front of a text, as many more are open behind it. -/
theorem depthAfter_add (hne : opening ≠ closing) (j : Nat) {depth k : Nat}
    (h : depthAfter opening closing depth text = some k) :
    depthAfter opening closing (depth + j) text = some (k + j) := by
  have hsome : (depthAfter opening closing depth text).isSome := by rw [h, Option.isSome_some]
  have hdeeper : (depthAfter opening closing (depth + j) text).isSome := by
    refine (isSome_depthAfter_iff hne).mpr fun pre hpre => ?_
    have hle := (isSome_depthAfter_iff hne).mp hsome pre hpre
    omega
  obtain ⟨k', hk'⟩ := Option.isSome_iff_exists.mp hdeeper
  have hcount := count_of_depthAfter hne h
  have hcount' := count_of_depthAfter hne hk'
  rw [hk', Option.some.injEq]
  omega

/-- What follows an opening bracket closes it somewhere, or never does.  So a text is empty, or it
begins with a character that is no bracket, with a group, with a bracket that is never closed, or
with a bracket that closes nothing; only the first two of these say something of the rest. -/
@[elab_as_elim]
theorem groups_induction {motive : List Char → Prop} (hne : opening ≠ closing)
    (nil : motive [])
    (other : ∀ x rest, x ≠ opening → x ≠ closing → motive rest → motive (x :: rest))
    (group : ∀ body rest, depthAfter opening closing 0 body = some 0 → motive rest →
      motive (opening :: (body ++ closing :: rest)))
    (unclosed : ∀ rest depth, depthAfter opening closing 0 rest = some depth →
      motive (opening :: rest))
    (excess : ∀ rest, motive (closing :: rest)) (text : List Char) : motive text := by
  induction hlength : text.length using Nat.strongRecOn generalizing text with
  | ind n ih =>
      have hshorter : ∀ rest : List Char, rest.length < n → motive rest :=
        fun rest hlt => ih rest.length hlt rest rfl
      cases text with
      | nil => exact nil
      | cons x rest =>
          rw [List.length_cons] at hlength
          by_cases hopening : x = opening
          · subst hopening
            -- the depth is that of the rest alone, so the bracket that would close nothing there
            -- is the one that matches
            cases hdepth : depthAfter x closing 0 rest with
            | some depth => exact unclosed rest depth hdepth
            | none =>
                obtain ⟨body, rest, rfl, hbody⟩ := exists_of_depthAfter_none hne hdepth
                rw [List.length_append, List.length_cons] at hlength
                exact group body rest hbody (hshorter rest (by omega))
          · by_cases hclosing : x = closing
            · subst hclosing
              exact excess rest
            · exact other x rest hopening hclosing (hshorter rest (by omega))

/-- The depth behind a group is that of what follows. -/
theorem depthAfter_group (hne : opening ≠ closing) {body : List Char}
    (h : depthAfter opening closing 0 body = some 0) (depth : Nat) (rest : List Char) :
    depthAfter opening closing depth (opening :: (body ++ closing :: rest)) =
      depthAfter opening closing depth rest := by
  have hbody := depthAfter_add hne (depth + 1) h
  rw [Nat.zero_add] at hbody
  rw [depthAfter_opening, depthAfter_append hne, hbody, Option.bind_some, depthAfter_closing hne]

/-! ## what stands in no group -/

/-- A character that is no bracket stands in no group. -/
theorem ungrouped_cons {x : Char} (hopening : x ≠ opening) (hclosing : x ≠ closing)
    (rest : List Char) :
    ungrouped opening closing (x :: rest) = x :: ungrouped opening closing rest := by
  have halone : ungrouped opening closing [x] = [x] := by
    rw [ungrouped_eq_self_iff]
    intro first last hgroup
    have hlt := hgroup.first_lt
    have hend := hgroup.last_lt
    rw [List.length_singleton] at hend
    omega
  have hbalanced : [x].count opening = [x].count closing := by simp [hopening, hclosing]
  rw [← List.singleton_append, ungrouped_append hbalanced, halone, List.singleton_append]

/-- A text in brackets that does not close more groups than it opens is a group. -/
theorem isGroup_of_depthAfter (hne : opening ≠ closing) {body : List Char}
    (h : depthAfter opening closing 0 body = some 0) :
    IsGroup opening closing (opening :: (body ++ [closing])) 0 (body.length + 1) := by
  have hsome : (depthAfter opening closing 0 body).isSome := by rw [h, Option.isSome_some]
  have hcount := count_of_depthAfter hne h
  refine ⟨by omega, rfl, by simp, by simp [depthAt], ?_, fun i hi hle => ?_⟩
  · rw [depthAt, List.take_of_length_le (by simp)]
    simp [hne, hne.symm]
    omega
  · obtain ⟨j, rfl⟩ := Nat.exists_eq_add_of_lt hi
    have hpre := (isSome_depthAfter_iff hne).mp hsome _ (List.take_prefix j body)
    rw [depthAt, Nat.zero_add, List.take_succ_cons, List.take_append_of_le_length (by omega)]
    rw [List.count_cons_self, List.count_cons_of_ne hne]
    omega

/-- A group is left out. -/
theorem ungrouped_group (hne : opening ≠ closing) {body : List Char}
    (h : depthAfter opening closing 0 body = some 0) (rest : List Char) :
    ungrouped opening closing (opening :: (body ++ closing :: rest)) =
      ungrouped opening closing rest := by
  have hcount := count_of_depthAfter hne h
  have hbalanced : (opening :: (body ++ [closing])).count opening =
      (opening :: (body ++ [closing])).count closing := by
    simp [hne, hne.symm]
    omega
  have hnil : ungrouped opening closing (opening :: (body ++ [closing])) = [] := by
    refine ungrouped_eq_nil fun i hi => ⟨0, _, isGroup_of_depthAfter hne h, Nat.zero_le _, ?_⟩
    simp at hi
    omega
  have hcut := ungrouped_append hbalanced rest
  rwa [hnil, List.nil_append, List.cons_append, List.append_assoc, List.singleton_append] at hcut

/-- What follows an opening bracket that is never closed stands in no group. -/
theorem ungrouped_unclosed (hne : opening ≠ closing) {depth : Nat}
    (h : depthAfter opening closing 0 rest = some depth) :
    ungrouped opening closing (opening :: rest) = opening :: rest := by
  have hsome : (depthAfter opening closing 0 rest).isSome := by rw [h, Option.isSome_some]
  rw [ungrouped_eq_self_iff]
  intro first last hgroup
  have hpre := (isSome_depthAfter_iff hne).mp hsome _ (List.take_prefix last rest)
  have hclosed := hgroup.closed
  rw [depthAt, List.take_succ_cons, List.count_cons_self, List.count_cons_of_ne hne] at hclosed
  omega

/-- What stands in front of a bracket that is never closed loses its groups, and the rest stays. -/
theorem ungrouped_append_unclosed (hne : opening ≠ closing) {before after : List Char} {depth : Nat}
    (hbefore : before.count opening = before.count closing)
    (hafter : depthAfter opening closing 0 after = some depth) :
    ungrouped opening closing (before ++ opening :: after) =
      ungrouped opening closing before ++ opening :: after := by
  rw [ungrouped_append hbefore, ungrouped_unclosed hne hafter]

/-- A bracket at depth zero that is never closed is left, with everything behind it. -/
theorem drop_suffix_ungrouped (hne : opening ≠ closing) {i : Nat}
    (hget : text[i]? = some opening) (hzero : depthAt opening closing text i = 0)
    (hopen : ∀ j, i < j → j ≤ text.length → 0 < depthAt opening closing text j) :
    text.drop i <:+ ungrouped opening closing text := by
  obtain ⟨hlt, hat⟩ := List.getElem?_eq_some_iff.mp hget
  have hdrop : text.drop i = opening :: text.drop (i + 1) := by
    rw [List.drop_eq_getElem_cons hlt, hat]
  have hbefore : (text.take i).count opening = (text.take i).count closing := by
    rw [depthAt] at hzero
    omega
  have hafter : (depthAfter opening closing 0 (text.drop (i + 1))).isSome := by
    refine (isSome_depthAfter_iff hne).mpr fun pre hpre => ?_
    have htake : text.take (i + (pre.length + 1)) = text.take i ++ opening :: pre := by
      rw [List.take_add, hdrop, List.take_succ_cons, List.prefix_iff_eq_take.mp hpre]
      simp
    have hle := hpre.length_le
    rw [List.length_drop] at hle
    have hpos := hopen (i + (pre.length + 1)) (by omega) (by omega)
    rw [depthAt, htake, List.count_append, List.count_append, List.count_cons_self,
      List.count_cons_of_ne hne] at hpos
    omega
  obtain ⟨depth, hdepth⟩ := Option.isSome_iff_exists.mp hafter
  have hleft := ungrouped_append_unclosed hne hbefore hdepth
  rw [← hdrop, List.take_append_drop] at hleft
  exact ⟨_, hleft.symm⟩

/-- A text with more groups open behind it than in front of it has a bracket at depth zero that is
never closed. -/
theorem exists_unclosed (hne : opening ≠ closing) {depth : Nat}
    (h : depthAfter opening closing 0 text = some (depth + 1)) :
    ∃ before after, text = before ++ opening :: after ∧
      depthAfter opening closing 0 before = some 0 ∧
      ∃ k, depthAfter opening closing 0 after = some k := by
  induction text using groups_induction hne with
  | nil => simp [depthAfter_nil] at h
  | other x rest hopening hclosing ih =>
      rw [depthAfter_other hopening hclosing] at h
      obtain ⟨before, after, rfl, hbefore, hafter⟩ := ih h
      exact ⟨x :: before, after, rfl, by rw [depthAfter_other hopening hclosing, hbefore], hafter⟩
  | group body rest hbody ih =>
      rw [depthAfter_group hne hbody] at h
      obtain ⟨before, after, rfl, hbefore, hafter⟩ := ih h
      refine ⟨opening :: (body ++ closing :: before), after, by simp, ?_, hafter⟩
      rw [depthAfter_group hne hbody, hbefore]
  | unclosed rest k hrest => exact ⟨[], rest, rfl, depthAfter_nil 0, k, hrest⟩
  | excess rest => simp [depthAfter_closing_zero hne] at h

end Symbolication.Name
