import Symbolication.PathName

/-!
# Symbolication.Proofs.Text.PathName

The plain form of a path is plain: its root and its components are those of the path, so
nothing more is dropped from it.
-/

namespace Symbolication

/-- A text is cut at a separator as a list is. -/
theorem Text.splitOn_eq (sep : Char) (s : List Char) : splitOn sep s = s.splitOn sep := by
  induction s with
  | nil => rfl
  | cons c rest ih =>
      rw [splitOn, List.splitOn, List.splitOnP_cons_eq_if_modifyHead, ih]
      split
      · rfl
      · cases hcut : rest.splitOn sep with
        | nil => exact absurd hcut (List.splitOnP_ne_nil _ _)
        | cons part parts =>
            rw [List.splitOn] at hcut
            rw [hcut]
            rfl

namespace PathName

/-- Slashes before a path are no components of it. -/
theorem components_cons_slash (path : List Char) : components ('/' :: path) = components path := by
  simp [components, Text.splitOn]

theorem components_root_append (path s : List Char) :
    components (root path ++ s) = components s := by
  unfold root
  split <;> simp [components_cons_slash]

/-- The text can be a component of a path. -/
def IsComponent (part : List Char) : Prop :=
  '/' ∉ part ∧ part ≠ [] ∧ part ≠ ['.']

theorem isComponent_of_mem (path : List Char) : ∀ part ∈ components path, IsComponent part := by
  intro part hpart
  obtain ⟨hcut, hne⟩ := (components_eq path part).mp hpart
  exact ⟨Text.notMem_splitOn '/' path part hcut, hne⟩

/-- Joined by slashes, components are found again. -/
theorem components_intercalate {parts : List (List Char)}
    (h : ∀ part ∈ parts, IsComponent part) :
    components (['/'].intercalate parts) = parts := by
  cases parts with
  | nil => rfl
  | cons part rest =>
      rw [components, Text.splitOn_eq,
        List.splitOn_intercalate '/' (fun p hp => (h p hp).1) (List.cons_ne_nil _ _),
        List.filter_eq_self]
      intro p hp
      simpa using (h p hp).2

/-- A path has three roots at most. -/
theorem root_cases (path : List Char) :
    root path = [] ∨ root path = ['/'] ∨ root path = ['/', '/'] := by
  unfold root
  split <;> simp

/-- What begins with no slash adds nothing to a root. -/
theorem root_root_append (path : List Char) {s : List Char} (h : s.head? ≠ some '/') :
    root (root path ++ s) = root path := by
  have hnone : s.takeWhile (· == '/') = [] := by
    cases s with
    | nil => rfl
    | cons c rest =>
        have hc : c ≠ '/' := by simpa using h
        simp [hc]
  rcases root_cases path with hroot | hroot | hroot <;> rw [hroot] <;> simp [root, hnone]

theorem head?_intercalate {parts : List (List Char)}
    (h : ∀ part ∈ parts, IsComponent part) :
    (['/'].intercalate parts).head? ≠ some '/' := by
  cases parts with
  | nil => simp
  | cons part rest =>
      obtain ⟨hslash, hne, -⟩ := h part List.mem_cons_self
      obtain ⟨c, cs, rfl⟩ := List.exists_cons_of_ne_nil hne
      have hc : '/' ≠ c := List.ne_of_not_mem_cons hslash
      cases rest <;> simpa [List.intercalate, List.intersperse] using hc.symm

/-- The plain form of a path is plain. -/
theorem plain_plain (path : List Char) : plain (plain path) = plain path := by
  have hparts := isComponent_of_mem path
  have hcomponents : components (root path ++ ['/'].intercalate (components path)) =
      components path := by
    rw [components_root_append, components_intercalate hparts]
  have hroot : root (root path ++ ['/'].intercalate (components path)) = root path :=
    root_root_append path (head?_intercalate hparts)
  -- if nothing is left of the path, its plain form is a point, which is no component
  cases hplain : root path ++ ['/'].intercalate (components path) with
  | nil =>
      have hpoint : plain path = ['.'] := by rw [plain, hplain]
      rw [hpoint]
      rfl
  | cons c rest =>
      have hsame : plain path = c :: rest := by rw [plain, hplain]
      rw [hplain] at hcomponents hroot
      rw [hsame, plain, hroot, hcomponents, hplain]

@[simp] theorem plainString_plainString (path : String) :
    plainString (plainString path) = plainString path := by
  rw [plainString, plainString, String.toList_ofList, plain_plain]

end PathName

end Symbolication
