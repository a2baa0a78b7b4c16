import Symbolication.Elf.Inspector

/-!
# Symbolication.Proofs.Elf.Ordering

The symbols that begin nearest at or below an address.  In ascending order the last of
those that begin there is the greatest of them, so it has the greatest size among those
that begin at the same address, and it is the one that is looked at:

* `Symbol.IsNearest`, `Symbol.Contains` — where symbols lie;
* `sortSymbols_eq_of_perm` — it does not matter how the symbols are arranged in the table;
* `exists_last` — the symbol that is looked at for an address;
* `symbolFrames_of_contains`, `symbolFrames_of_sizeless`, `symbolFrames_cases` — the frames of the
  address.
-/

namespace Symbolication.Elf

namespace Symbol

/-! ## the order of symbols -/

/-- Symbols are in order of their values, then their sizes, then their names. -/
theorem le_iff {a b : Symbol} : a.le b = true ↔ a.value < b.value ∨
    a.value = b.value ∧ (a.size < b.size ∨ a.size = b.size ∧ a.name ≤ b.name) := by
  unfold le
  by_cases hvalue : a.value = b.value
  · by_cases hsize : a.size = b.size
    · simp [hvalue, hsize]
    · simp [hvalue, hsize]
  · simp [hvalue]

/-- The order of symbols is transitive. -/
theorem le_trans (a b c : Symbol) (hab : a.le b = true) (hbc : b.le c = true) :
    a.le c = true := by
  rw [le_iff] at *
  have hname : a.name ≤ b.name → b.name ≤ c.name → a.name ≤ c.name := String.le_trans
  grind

/-- Any two symbols are in order one way round. -/
theorem le_total (a b : Symbol) : (a.le b || b.le a) = true := by
  rw [Bool.or_eq_true, le_iff, le_iff]
  have hname : a.name ≤ b.name ∨ b.name ≤ a.name := String.le_total a.name b.name
  grind

/-- Symbols in order both ways round are equal. -/
theorem le_antisymm {a b : Symbol} (hab : a.le b = true) (hba : b.le a = true) : a = b := by
  rw [le_iff] at hab hba
  have hvalue : a.value = b.value := by omega
  have hsize : a.size = b.size := by omega
  have hname : a.name = b.name := by
    refine String.le_antisymm ?_ ?_
    · exact (hab.resolve_left (by omega)).2.resolve_left (by omega) |>.2
    · exact (hba.resolve_left (by omega)).2.resolve_left (by omega) |>.2
  cases a
  cases b
  simp_all

/-! ## where symbols lie -/

/-- The address lies in the range of the symbol. -/
def Contains (s : Symbol) (address : Int) : Prop :=
  (s.value : Int) ≤ address ∧ address < (s.value + s.size : Nat)

/-- The symbol is one of those that begin nearest at or below the address. -/
structure IsNearest (symbols : List Symbol) (address : Int) (s : Symbol) : Prop where
  mem : s ∈ symbols
  begun : (s.value : Int) ≤ address
  value_le : ∀ u ∈ symbols, (u.value : Int) ≤ address → u.value ≤ s.value

instance (s : Symbol) (address : Int) : Decidable (s.Contains address) :=
  inferInstanceAs (Decidable (_ ∧ _))

instance (symbols : List Symbol) (address : Int) (s : Symbol) :
    Decidable (IsNearest symbols address s) :=
  decidable_of_iff (s ∈ symbols ∧ (s.value : Int) ≤ address ∧
      ∀ u ∈ symbols, (u.value : Int) ≤ address → u.value ≤ s.value)
    ⟨fun h => ⟨h.1, h.2.1, h.2.2⟩, fun h => ⟨h.mem, h.begun, h.value_le⟩⟩

/-- All symbols that begin nearest begin at the same address. -/
theorem IsNearest.value_eq {symbols : List Symbol} {address : Int} {s t : Symbol}
    (hs : IsNearest symbols address s) (ht : IsNearest symbols address t) : s.value = t.value :=
  Nat.le_antisymm (ht.value_le s hs.mem hs.begun) (hs.value_le t ht.mem ht.begun)

end Symbol

open Symbolication.Elf.Symbol

/-! ## symbols in ascending order -/

/-- Sorted symbols are in order, each before all that follow. -/
theorem pairwise_sortSymbols (symbols : List Symbol) :
    (sortSymbols symbols).Pairwise fun a b => a.le b = true :=
  List.pairwise_mergeSort Symbol.le_trans Symbol.le_total symbols

/-- Sorting neither drops nor adds a symbol. -/
theorem mem_sortSymbols {symbols : List Symbol} {s : Symbol} :
    s ∈ sortSymbols symbols ↔ s ∈ symbols :=
  List.mem_mergeSort

/-- How symbols are arranged in a table does not matter: their order is strict enough to put them in
one place each. -/
theorem sortSymbols_eq_of_perm {symbols symbols' : List Symbol} (h : symbols.Perm symbols') :
    sortSymbols symbols = sortSymbols symbols' := by
  have hperm : (sortSymbols symbols).Perm (sortSymbols symbols') :=
    (List.mergeSort_perm _ _).trans (h.trans (List.mergeSort_perm _ _).symm)
  exact hperm.eq_of_pairwise (fun _ _ _ _ => Symbol.le_antisymm) (pairwise_sortSymbols _)
    (pairwise_sortSymbols _)

variable {symbols sorted : List Symbol} {address : Int}

/-- In ascending order the symbols that begin at or below an address come first. -/
theorem takeWhile_eq_filter (h : sorted.Pairwise fun a b => a.le b = true) :
    (sorted.takeWhile fun s => (s.value : Int) ≤ address) =
      sorted.filter fun s => (s.value : Int) ≤ address := by
  induction sorted with
  | nil => rfl
  | cons s rest ih =>
      obtain ⟨hfirst, hrest⟩ := List.pairwise_cons.mp h
      by_cases hbegun : (s.value : Int) ≤ address
      · rw [List.takeWhile_cons_of_pos (by simpa using hbegun),
          List.filter_cons_of_pos (by simpa using hbegun), ih hrest]
      · have hnone : ∀ u ∈ rest, ¬ (decide ((u.value : Int) ≤ address) = true) := by
          intro u hu
          have hle := Symbol.le_iff.mp (hfirst u hu)
          simp only [decide_eq_true_eq]
          omega
        rw [List.takeWhile_cons_of_neg (by simpa using hbegun),
          List.filter_cons_of_neg (by simpa using hbegun), List.filter_eq_nil_iff.mpr hnone]

/-- The symbol that is looked at for an address is one of the greatest size among those that begin
nearest, if any symbol begins at or below the address. -/
theorem exists_last {x : Symbol} (hx : x ∈ symbols) (hbegun : (x.value : Int) ≤ address) :
    ∃ t, IsNearest symbols address t ∧ (∀ u, IsNearest symbols address u → u.size ≤ t.size) ∧
      symbolAt? (sortSymbols symbols) address = (some t).filter (·.reaches address) := by
  have hsorted := pairwise_sortSymbols symbols
  have hmem : x ∈ (sortSymbols symbols).filter fun s => (s.value : Int) ≤ address := by
    rw [List.mem_filter, mem_sortSymbols]
    exact ⟨hx, by simpa using hbegun⟩
  obtain ⟨t, ht⟩ := Option.isSome_iff_exists.mp
    (List.getLast?_isSome.mpr (List.ne_nil_of_mem hmem))
  obtain ⟨before, hsplit⟩ := List.getLast?_eq_some_iff.mp ht
  -- The symbols that have begun, in ascending order, end with the one that is looked at.
  have hle : ∀ u ∈ symbols, (u.value : Int) ≤ address → u.le t = true := by
    intro u hu hle
    have humem : u ∈ before ++ [t] := by
      rw [← hsplit, List.mem_filter, mem_sortSymbols]
      exact ⟨hu, by simpa using hle⟩
    have hpair := hsorted.filter fun s => (s.value : Int) ≤ address
    rw [hsplit] at hpair
    rcases List.mem_append.mp humem with hbefore | hlast
    · exact (List.pairwise_append.mp hpair).2.2 u hbefore t (List.mem_singleton_self t)
    · rw [List.mem_singleton.mp hlast]
      simpa using Symbol.le_total t t
  have htmem : t ∈ (sortSymbols symbols).filter fun s => (s.value : Int) ≤ address := by
    rw [hsplit]
    exact List.mem_append_right _ (List.mem_singleton_self t)
  rw [List.mem_filter, mem_sortSymbols, decide_eq_true_eq] at htmem
  have hnearest : IsNearest symbols address t := by
    refine ⟨htmem.1, htmem.2, fun u hu hle' => ?_⟩
    have hut := Symbol.le_iff.mp (hle u hu hle')
    omega
  refine ⟨t, hnearest, fun u hu => ?_, ?_⟩
  · have hut := Symbol.le_iff.mp (hle u hu.mem hu.begun)
    have hvalue := hu.value_eq hnearest
    omega
  · rw [symbolAt?, takeWhile_eq_filter hsorted, ht]

/-! ## frames -/

/-- An address that lies in one of the symbols that begin nearest has the name of one of these. -/
theorem symbolFrames_of_contains {u : Symbol} (hu : IsNearest symbols address u)
    (hcontains : u.Contains address) :
    ∃ t, IsNearest symbols address t ∧ t.Contains address ∧
      Segment.symbolFrames (sortSymbols symbols) address = [{ func := t.name }] := by
  obtain ⟨t, hnearest, hgreatest, hat⟩ := exists_last hu.mem hu.begun
  have hsize := hgreatest u hu
  have hvalue := hu.value_eq hnearest
  have hend : address < (t.value + t.size : Nat) := by
    have := hcontains.2
    omega
  have hreaches : t.reaches address = true :=
    Bool.or_eq_true_iff.mpr (.inr (decide_eq_true hend))
  refine ⟨t, hnearest, ⟨hnearest.begun, hend⟩, ?_⟩
  rw [Segment.symbolFrames, hat, Option.filter_some, if_pos hreaches]

/-- If no symbol that begins nearest has a size, the address has the name of one of these. -/
theorem symbolFrames_of_sizeless {x : Symbol} (hx : x ∈ symbols)
    (hbegun : (x.value : Int) ≤ address)
    (hsizeless : ∀ u, IsNearest symbols address u → u.size = 0) :
    ∃ t, IsNearest symbols address t ∧
      Segment.symbolFrames (sortSymbols symbols) address = [{ func := t.name }] := by
  obtain ⟨t, hnearest, -, hat⟩ := exists_last hx hbegun
  have hreaches : t.reaches address = true := by
    simp [reaches, hsizeless t hnearest]
  refine ⟨t, hnearest, ?_⟩
  rw [Segment.symbolFrames, hat, Option.filter_some, if_pos hreaches]

/-- The frame of an address is that of a symbol that begins nearest and does not end before it.
There is none only if the address lies in none of those that begin nearest. -/
theorem symbolFrames_cases (symbols : List Symbol) (address : Int) :
    (∃ t, IsNearest symbols address t ∧ t.reaches address = true ∧
        Segment.symbolFrames (sortSymbols symbols) address = [{ func := t.name }]) ∨
      Segment.symbolFrames (sortSymbols symbols) address = [] ∧
        ∀ u, IsNearest symbols address u → ¬ u.Contains address := by
  by_cases hfound : Segment.symbolFrames (sortSymbols symbols) address = []
  · refine .inr ⟨hfound, fun u hu hcontains => ?_⟩
    obtain ⟨t, -, -, hframes⟩ := symbolFrames_of_contains hu hcontains
    rw [hfound] at hframes
    exact absurd hframes (by simp)
  · obtain ⟨s, hs⟩ : ∃ s, symbolAt? (sortSymbols symbols) address = some s := by
      cases hat : symbolAt? (sortSymbols symbols) address with
      | none => exact absurd (by rw [Segment.symbolFrames, hat]) hfound
      | some s => exact ⟨s, rfl⟩
    obtain ⟨hlast, -⟩ := Option.filter_eq_some_iff.mp hs
    have hbegun := List.mem_of_getLast? hlast
    rw [takeWhile_eq_filter (pairwise_sortSymbols symbols), List.mem_filter, mem_sortSymbols,
      decide_eq_true_eq] at hbegun
    obtain ⟨t, hnearest, -, hat⟩ := exists_last hbegun.1 hbegun.2
    rw [hat, Option.filter_eq_some_iff, Option.some.injEq] at hs
    obtain ⟨rfl, hreaches⟩ := hs
    refine .inl ⟨t, hnearest, hreaches, ?_⟩
    rw [Segment.symbolFrames, hat, Option.filter_some, if_pos hreaches]

end Symbolication.Elf
