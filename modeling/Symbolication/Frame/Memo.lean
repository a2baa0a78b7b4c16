import Symbolication.Frame.Listing

/-!
# Symbolication.Frame.Memo

Remembering the frames of addresses, so that no address is asked about twice, and
asking about many addresses at once. The addresses to be asked about are put in
ascending order and cut into batches; if a batch fails, those before it stay
remembered.

* `mem_insertAscending`, `pairwise_ascending`: the order has each address once;
* `flatten_batches`, `length_of_mem_batches`: batches lose nothing, and none is
  too long;
* `frames?_learn`: what is learnt of an address is what will be remembered.
-/

namespace Symbolication

/-! ## Batches of addresses -/

/-- The list with an integer put in its place, in ascending order and without repetition. -/
def insertAscending (n : Int) : List Int → List Int
  | [] => [n]
  | m :: rest =>
    if n < m then n :: m :: rest
    else if n == m then m :: rest
    else m :: insertAscending n rest

/-- The integers of a list, each once, in ascending order. -/
def ascending (ns : List Int) : List Int :=
  ns.foldr insertAscending []

theorem mem_insertAscending {k n : Int} {ns : List Int} :
    k ∈ insertAscending n ns ↔ k = n ∨ k ∈ ns := by
  induction ns with
  | nil => simp [insertAscending]
  | cons m rest ih =>
    unfold insertAscending
    split
    · simp
    · split
      · rename_i h
        simp only [beq_iff_eq] at h
        simp [h]
      · simp only [List.mem_cons, ih]
        constructor <;> rintro (h | h | h) <;> simp [h]

/-- The order has the integers of the list. -/
theorem mem_ascending {k : Int} {ns : List Int} : k ∈ ascending ns ↔ k ∈ ns := by
  induction ns with
  | nil => simp [ascending]
  | cons n ns ih => rw [ascending, List.foldr_cons, mem_insertAscending, ← ascending, ih]; simp

theorem pairwise_insertAscending {n : Int} {ns : List Int} (h : ns.Pairwise (· < ·)) :
    (insertAscending n ns).Pairwise (· < ·) := by
  induction ns with
  | nil => simp [insertAscending]
  | cons m rest ih =>
    rw [List.pairwise_cons] at h
    unfold insertAscending
    split
    · rename_i hlt
      rw [List.pairwise_cons]
      refine ⟨fun k hk => ?_, List.pairwise_cons.mpr h⟩
      rcases List.mem_cons.mp hk with rfl | hk
      · exact hlt
      · exact Int.lt_trans hlt (h.1 k hk)
    · split
      · exact List.pairwise_cons.mpr h
      · rename_i hlt hne
        rw [List.pairwise_cons]
        refine ⟨fun k hk => ?_, ih h.2⟩
        rcases mem_insertAscending.mp hk with rfl | hk
        · have hne : k ≠ m := by simpa using hne
          omega
        · exact h.1 k hk

/-- The order is strict, so that it has each integer once. -/
theorem pairwise_ascending (ns : List Int) : (ascending ns).Pairwise (· < ·) := by
  induction ns with
  | nil => simp [ascending]
  | cons n ns ih => exact pairwise_insertAscending ih

/-- How many addresses are asked about at once. -/
def batchSize : Nat := 512

/-- A list cut into batches. Only the last one may be shorter than the others. -/
def batches (ns : List Int) : List (List Int) :=
  if ns.isEmpty then [] else ns.take batchSize :: batches (ns.drop batchSize)
termination_by ns.length
decreasing_by
  rename_i h
  have : ns ≠ [] := by simpa using h
  have := List.length_pos_iff.mpr this
  simp only [List.length_drop, batchSize]
  omega

/-- Batches lose nothing. -/
theorem flatten_batches (ns : List Int) : (batches ns).flatten = ns := by
  fun_induction batches ns with
  | case1 ns h => simpa using Eq.symm (List.isEmpty_iff.mp h)
  | case2 ns h ih => simp [ih]

/-- No batch is empty or too long. -/
theorem length_of_mem_batches {ns batch : List Int} (h : batch ∈ batches ns) :
    0 < batch.length ∧ batch.length ≤ batchSize := by
  fun_induction batches ns with
  | case1 => simp at h
  | case2 ns hne ih =>
    rcases List.mem_cons.mp h with rfl | h
    · have hpos : 0 < ns.length := List.length_pos_iff.mpr (by simpa using hne)
      simp only [List.length_take, batchSize]
      omega
    · exact ih h

/-! ## What is remembered -/

/-- The frames of addresses that are known already. -/
structure FrameMemo where
  /-- The addresses with their frames, the latest first. -/
  known : List (Int × List Frame) := []
deriving DecidableEq, Repr

namespace FrameMemo

/-- The frames of an address, if they are known. -/
def frames? (memo : FrameMemo) (address : Int) : Option (List Frame) :=
  memo.known.lookup address

/-- Remembers the frames of an address. -/
def learn (memo : FrameMemo) (address : Int) (frames : List Frame) : FrameMemo :=
  { known := (address, frames) :: memo.known }

/-- What is learnt of an address is what will be remembered. -/
theorem frames?_learn (memo : FrameMemo) (address other : Int) (frames : List Frame) :
    (memo.learn address frames).frames? other =
      if other = address then some frames else memo.frames? other := by
  simp only [frames?, learn, List.lookup_cons]
  by_cases h : other = address
  · simp [h]
  · have : (other == address) = false := by simpa using h
    simp [h, this]

/-- Remembers the answers for addresses. Nothing said about an address means no frames. -/
def learnAll (memo : FrameMemo) (answers : Answers) (addresses : List Int) : FrameMemo :=
  addresses.foldl (fun memo address => memo.learn address (answers.frames address)) memo

/-- The addresses that are not known, each once, in ascending order. -/
def missing (memo : FrameMemo) (addresses : List Int) : List Int :=
  (ascending addresses).filter fun address => (memo.frames? address).isNone

variable {ω : Type}

/-- Asks about batches of addresses one after another, up to the first that fails. -/
def fill (ask : List Int → Act ω Answers) (memo : FrameMemo) :
    List (List Int) → Step ω (FrameMemo × Except Fault Unit)
  | [] => return (memo, .ok ())
  | batch :: rest => do
    match ← (ask batch).run with
    | .error fault => return (memo, .error fault)
    | .ok answers => fill ask (memo.learnAll answers batch) rest

/-- Asks about all addresses that are not known. Gives also how many these were. -/
def prefetch (ask : List Int → Act ω Answers) (memo : FrameMemo) (addresses : List Int) :
    Step ω (FrameMemo × Except Fault Nat) := do
  let missing := memo.missing addresses
  let (memo, ended) ← fill ask memo (batches missing)
  return (memo, ended.map fun _ => missing.length)

/-- The frames of an address, which is asked about if it is not known. -/
def lookup (ask : Int → Act ω (List Frame)) (memo : FrameMemo) (address : Int) :
    Act ω (FrameMemo × List Frame) := do
  match memo.frames? address with
  | some frames => return (memo, frames)
  | none =>
    let frames ← ask address
    return (memo.learn address frames, frames)

end FrameMemo

end Symbolication
