import Symbolication.Proofs.Json.Storable

/-!
# Symbolication.Proofs.Json.Writable

What can be said of a value whose document can be written in full: so can those of its
parts, down to the integers.

* `WritableAt` — all pieces of a value can be written;
* `writableAt_list`, `writableAt_object` — it is a matter of the parts;
* `writableAt_of_isWritable` — documents.
-/

namespace Symbolication.Json

/-- The value can be written in full where it stands. -/
def WritableAt (level : Nat) (v : Json) : Prop :=
  ∀ p ∈ pieces level v, p.isWritable = true

/-! ## parts -/

theorem writableAt_int {level : Nat} {n : Int} :
    WritableAt level (.int n) ↔ Number.isWritable n = true := by
  simp [WritableAt, pieces, Piece.isWritable]

theorem forall_piecesOfItems {level : Nat} {items : List Json} :
    (∀ p ∈ piecesOfItems level items, p.isWritable = true) ↔
      ∀ v ∈ items, WritableAt level v := by
  induction items with
  | nil => simp [piecesOfItems]
  | cons v items ih =>
      rw [piecesOfItems, List.cons_append, List.forall_mem_cons, List.forall_mem_append, ih,
        List.forall_mem_cons]
      exact and_iff_right rfl

theorem forall_piecesOfMembers {level : Nat} {members : List (String × Json)} :
    (∀ p ∈ piecesOfMembers level members, p.isWritable = true) ↔
      ∀ m ∈ members, WritableAt level m.2 := by
  induction members with
  | nil => simp [piecesOfMembers]
  | cons m members ih =>
      rw [piecesOfMembers, List.cons_append, List.forall_mem_cons, List.forall_mem_append, ih,
        List.forall_mem_cons]
      exact and_iff_right rfl

/-- Between brackets stands nothing else that could not be written. -/
theorem forall_mem_bracketed {opening closing : String} {ps qs : List Piece} :
    (∀ p ∈ .chars opening :: ps ++ qs ++ [.chars closing], p.isWritable = true) ↔
      (∀ p ∈ ps, p.isWritable = true) ∧ ∀ p ∈ qs, p.isWritable = true := by
  simp [or_imp, forall_and, Piece.isWritable]

theorem writableAt_list {level : Nat} {items : List Json} :
    WritableAt level (.list items) ↔ ∀ v ∈ items, WritableAt (level + 1) v := by
  cases items with
  | nil => simp [WritableAt, pieces, Piece.isWritable]
  | cons v items =>
      rw [WritableAt, pieces, forall_mem_bracketed, forall_piecesOfItems, List.forall_mem_cons]
      rfl

theorem writableAt_object {level : Nat} {members : List (String × Json)} :
    WritableAt level (.object members) ↔ ∀ m ∈ members, WritableAt (level + 1) m.2 := by
  cases members with
  | nil => simp [WritableAt, pieces, Piece.isWritable]
  | cons m members =>
      rw [WritableAt, pieces, forall_mem_bracketed, forall_piecesOfMembers, List.forall_mem_cons]
      rfl

/-! ## documents -/

theorem writableAt_of_isWritable {v : Json} (h : v.isWritable = true) : WritableAt 0 v := by
  rw [isWritable, document, List.all_append, Bool.and_eq_true, List.all_eq_true] at h
  exact h.1

end Symbolication.Json
