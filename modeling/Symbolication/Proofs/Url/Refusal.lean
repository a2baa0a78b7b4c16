import Mathlib.Data.List.TakeWhile
import Symbolication.Proofs.Text.PathName
import Symbolication.Url.SymbolServer

/-!
# Symbolication.Proofs.Url.Refusal

Which texts are refused as URLs.  A text has its parts whether it is refused or not, and it
is refused on account of its authority alone:

* `IsAddress`, `IsBracketed`, `IsProper` — addresses, hosts with brackets, and authorities
  that are accepted;
* `partsOf` — the parts of a text;
* `split_eq_ok_iff` — a text is accepted exactly if its authority is proper;
* `symbolUrl?_eq_ok_iff` — what comes of a source that is accepted: a symbol handler or none.
-/

namespace Symbolication

open Number Text

/-! ## cutting -/

namespace Text

/-- The parts of a text hold its characters, but for the separators. -/
theorem flatten_splitOn (sep : Char) (s : List Char) :
    (splitOn sep s).flatten = s.filter (· != sep) := by
  induction s with
  | nil => rfl
  | cons c rest ih =>
      rw [splitOn]
      split
      · simp_all
      · rename_i hc
        rw [List.filter_cons_of_pos (by simpa using hc), ← ih]
        cases splitOn sep rest <;> rfl

/-- A character of a text is the separator, or one of a part. -/
theorem exists_part_of_mem {sep c : Char} {s : List Char} (h : c ∈ s) (hne : c ≠ sep) :
    ∃ part ∈ splitOn sep s, c ∈ part := by
  rw [← List.mem_flatten, flatten_splitOn]
  exact List.mem_filter.mpr ⟨h, bne_iff_ne.mpr hne⟩

end Text

namespace Url

section

variable {sep : Char} {s before after : List Char}

/-- A text without the separator is not cut. -/
theorem cutAt_of_notMem (h : sep ∉ s) : cutAt sep s = (s, []) := by
  have hall : ∀ c ∈ s, (c != sep) = true := fun c hc => bne_iff_ne.mpr (ne_of_mem_of_not_mem hc h)
  rw [cutAt, List.takeWhile_eq_self_iff.mpr hall, List.dropWhile_eq_nil_iff.mpr hall]
  rfl

/-- A text is cut at its first separator. -/
theorem cutAt_append_cons (h : sep ∉ before) :
    cutAt sep (before ++ sep :: after) = (before, after) := by
  have hall : ∀ c ∈ before, (c != sep) = true :=
    fun c hc => bne_iff_ne.mpr (ne_of_mem_of_not_mem hc h)
  rw [cutAt, List.takeWhile_append_of_pos hall, List.dropWhile_append_of_pos hall]
  simp

end

/-! ## addresses -/

/-- The text is an address that may stand between brackets: one of a version yet to come, which has
a letter, the version in hexadecimal, a point, and something more, or one of eight groups. -/
inductive IsAddress : List Char → Prop where
  /-- An address of a version yet to come. -/
  | future {version rest : List Char} (hversion : version ≠ [])
      (hdigits : ∀ c ∈ version, isHexDigit c = true) (hrest : rest ≠ []) :
      IsAddress ('v' :: (version ++ '.' :: rest))
  /-- An address of eight groups. -/
  | groups {address : List Char} (hletter : address.head? ≠ some 'v')
      (hgroups : AddressLiteral.isEightGroups address = true) : IsAddress address

/-- An address of a future kind is a version in hexadecimal, a dot and some text. -/
theorem isFutureAddress_iff {s : List Char} :
    isFutureAddress ('v' :: s) = true ↔ ∃ version rest, s = version ++ '.' :: rest ∧
      version ≠ [] ∧ (∀ c ∈ version, isHexDigit c = true) ∧ rest ≠ [] := by
  simp only [isFutureAddress, List.drop_succ_cons, List.drop_zero, Bool.and_eq_true,
    decide_eq_true_eq, beq_iff_eq]
  constructor
  · rintro ⟨⟨hversion, hpoint⟩, hrest⟩
    obtain ⟨rest, hsplit⟩ : ∃ rest, s.dropWhile isHexDigit = '.' :: rest := by
      cases hdrop : s.dropWhile isHexDigit with
      | nil =>
          rw [hdrop] at hpoint
          cases hpoint
      | cons c rest =>
          rw [hdrop] at hpoint
          exact ⟨rest, by rw [Option.some.inj hpoint]⟩
    have hwhole : s.takeWhile isHexDigit ++ '.' :: rest = s := by
      rw [← hsplit, List.takeWhile_append_dropWhile]
    refine ⟨s.takeWhile isHexDigit, rest, hwhole.symm, ?_, fun c => ?_, ?_⟩
    · intro hnone
      rw [hnone, List.nil_append] at hwhole
      rw [hsplit, hwhole] at hversion
      exact absurd hversion (Nat.lt_irrefl _)
    · exact List.all_eq_true.mp (List.all_takeWhile (p := isHexDigit)) c
    · rintro rfl
      rw [hsplit] at hrest
      exact absurd hrest (by decide)
  · rintro ⟨version, rest, rfl, hversion, hdigits, hrest⟩
    have hdrop : (version ++ '.' :: rest).dropWhile isHexDigit = '.' :: rest := by
      rw [List.dropWhile_append_of_pos hdigits]
      rfl
    have hpositive := List.length_pos_iff.mpr hversion
    have hmore := List.length_pos_iff.mpr hrest
    rw [hdrop]
    simp only [List.length_append, List.length_cons, List.head?_cons]
    exact ⟨⟨by omega, trivial⟩, by omega⟩

/-- No address has both four octets and eight groups: the octets hold no colon. -/
theorem not_isEightGroups_of_isFourOctets {s : List Char}
    (h : AddressLiteral.isFourOctets s = true) : AddressLiteral.isEightGroups s = false := by
  have hcolon : ':' ∉ s := by
    intro hmem
    obtain ⟨part, hpart, hcolon⟩ := exists_part_of_mem hmem (by decide : ':' ≠ '.')
    rw [AddressLiteral.isFourOctets, Bool.and_eq_true] at h
    have hoctet := List.all_eq_true.mp h.2 part hpart
    simp only [AddressLiteral.isOctet, Bool.and_eq_true] at hoctet
    have hdigit := List.all_eq_true.mp hoctet.1.1.2 ':' hcolon
    exact absurd hdigit (by decide)
  have hone : (splitOn ':' (s.takeWhile (· != '%'))).length = 1 := by
    rw [splitOn_eq, List.splitOn_eq_singleton fun hmem =>
      hcolon ((List.takeWhile_prefix _).subset hmem)]
    rfl
  simp [AddressLiteral.isEightGroups, hone]

/-- The check of an address accepts just what is an address. -/
theorem checkAddress_eq_ok_iff {s : List Char} : checkAddress s = .ok () ↔ IsAddress s := by
  unfold checkAddress
  by_cases hletter : s.head? = some 'v'
  · obtain ⟨rest, rfl⟩ : ∃ rest, s = 'v' :: rest := by
      cases s with
      | nil => cases hletter
      | cons c rest => exact ⟨rest, by rw [Option.some.inj hletter]⟩
    have hiff : isFutureAddress ('v' :: rest) = true ↔ IsAddress ('v' :: rest) := by
      rw [isFutureAddress_iff]
      constructor
      · rintro ⟨version, more, rfl, hversion, hdigits, hmore⟩
        exact .future hversion hdigits hmore
      · intro h
        cases h with
        | future hversion hdigits hrest => exact ⟨_, _, rfl, hversion, hdigits, hrest⟩
        | groups hnot _ => exact absurd rfl hnot
    rw [← hiff]
    simp only [List.head?_cons, beq_self_eq_true, if_true]
    split <;> simp_all
  · have hiff : IsAddress s ↔ AddressLiteral.isEightGroups s = true := by
      constructor
      · intro h
        cases h with
        | future => exact absurd rfl hletter
        | groups _ hgroups => exact hgroups
      · exact .groups hletter
    rw [hiff, if_neg (by simpa using hletter)]
    split
    · rename_i hoctets
      simp [not_isEightGroups_of_isFourOctets hoctets]
    · split <;> simp_all

/-! ## authorities -/

/-- The host of an authority with brackets is as it has to be. -/
inductive IsBracketed : List Char → Prop where
  /-- The address stands between brackets, with nothing behind them, or a colon. -/
  | closed {address after : List Char} (haddress : IsAddress address) (hfree : ']' ∉ address)
      (hafter : after = [] ∨ after.head? = some ':') :
      IsBracketed ('[' :: (address ++ ']' :: after))
  /-- The closing bracket is not in the host, but in front of it. -/
  | unclosed {address : List Char} (haddress : IsAddress address) (hfree : ']' ∉ address) :
      IsBracketed ('[' :: address)
  /-- The opening bracket is not in the host, but in front of it. -/
  | unopened {host : List Char} (hfree : '[' ∉ host) (haddress : IsAddress (cutAt ':' host).1) :
      IsBracketed host

/-- The authority is accepted: it has no brackets, or both kinds of them and a host that goes with
that, and no character that would become a delimiter. -/
structure IsProper (authority : List Char) : Prop where
  brackets : '[' ∈ authority ∨ ']' ∈ authority →
    '[' ∈ authority ∧ ']' ∈ authority ∧ IsBracketed (hostPart authority)
  plain : ∀ c ∈ authority, c.toNat ∉ delimiterLookalikes

/-- A host with an opening bracket begins with it, and an address comes next. -/
theorem isBracketed_append_cons_iff {before bracketed : List Char} (hbefore : '[' ∉ before) :
    IsBracketed (before ++ '[' :: bracketed) ↔ before = [] ∧
      ((cutAt ']' bracketed).2 = [] ∨ (cutAt ']' bracketed).2.head? = some ':') ∧
      IsAddress (cutAt ']' bracketed).1 := by
  constructor
  · intro h
    generalize hhost : before ++ '[' :: bracketed = host at h
    have hfirst : host.head? = some '[' → before = [] := by
      rintro hhead
      cases before with
      | nil => rfl
      | cons c rest =>
          rw [← hhost] at hhead
          exact absurd (Option.some.inj hhead) (List.ne_of_not_mem_cons hbefore).symm
    cases h with
    | closed haddress hfree hafter =>
        obtain rfl := hfirst rfl
        obtain ⟨-, rfl⟩ := List.cons.inj hhost
        rw [cutAt_append_cons hfree]
        exact ⟨rfl, hafter, haddress⟩
    | unclosed haddress hfree =>
        obtain rfl := hfirst rfl
        obtain ⟨-, rfl⟩ := List.cons.inj hhost
        rw [cutAt_of_notMem hfree]
        exact ⟨rfl, .inl rfl, haddress⟩
    | unopened hfree _ =>
        subst hhost
        exact absurd (List.mem_append_right _ List.mem_cons_self) hfree
  · rintro ⟨rfl, hafter, haddress⟩
    by_cases hclose : ']' ∈ bracketed
    · obtain ⟨address, after, rfl, hfree⟩ := List.eq_append_cons_of_mem hclose
      rw [cutAt_append_cons hfree] at hafter haddress
      exact .closed haddress hfree hafter
    · rw [cutAt_of_notMem hclose] at haddress
      exact .unclosed haddress hclose

/-- The check of a host accepts just an address in brackets with a port at most. -/
theorem checkHost_eq_ok_iff {host : List Char} : checkHost host = .ok () ↔ IsBracketed host := by
  unfold checkHost
  by_cases hopen : '[' ∈ host
  · obtain ⟨before, bracketed, rfl, hbefore⟩ := List.eq_append_cons_of_mem hopen
    rw [if_pos (by simp), cutAt_append_cons hbefore, isBracketed_append_cons_iff hbefore,
      ← checkAddress_eq_ok_iff]
    simp only [Bool.and_eq_true, Bool.or_eq_true, List.isEmpty_iff, beq_iff_eq]
    split <;> simp_all
  · have hiff : IsBracketed host ↔ IsAddress (cutAt ':' host).1 := by
      constructor
      · intro h
        cases h with
        | closed => exact absurd List.mem_cons_self hopen
        | unclosed => exact absurd List.mem_cons_self hopen
        | unopened _ haddress => exact haddress
      · exact .unopened hopen
    rw [hiff, if_neg (by simpa using hopen), checkAddress_eq_ok_iff]

/-- An authority is proper if its brackets and its delimiters pass their checks. -/
theorem isProper_iff {authority : List Char} :
    IsProper authority ↔ checkBrackets authority = .ok () ∧ checkDelimiters authority = .ok () := by
  have hbrackets : checkBrackets authority = .ok () ↔ ('[' ∈ authority ∨ ']' ∈ authority →
      '[' ∈ authority ∧ ']' ∈ authority ∧ IsBracketed (hostPart authority)) := by
    rw [← checkHost_eq_ok_iff]
    by_cases hopen : '[' ∈ authority <;> by_cases hclose : ']' ∈ authority <;>
      simp [checkBrackets, hopen, hclose]
  have hplain : checkDelimiters authority = .ok () ↔
      ∀ c ∈ authority, c.toNat ∉ delimiterLookalikes := by
    unfold checkDelimiters
    split <;> simp_all
  rw [hbrackets, hplain]
  exact ⟨fun h => ⟨h.brackets, h.plain⟩, fun h => ⟨h.1, h.2⟩⟩

/-! ## texts -/

/-- The parts of a text, whether it is accepted or not. -/
def partsOf (s : List Char) : Url :=
  let (scheme, rest) := splitScheme (clean s)
  let (authority, rest) := splitAuthority rest
  let (rest, fragment) := cutAt '#' rest
  let (path, query) := cutAt '?' rest
  { scheme, authority, path, query, fragment }

/-- A text is cut into its parts if there is nothing wrong with its authority. -/
theorem split_eq (s : List Char) : split s = do
    checkBrackets (partsOf s).authority
    checkDelimiters (partsOf s).authority
    return partsOf s :=
  rfl

/-- A text is accepted exactly if its authority is proper. -/
theorem split_eq_ok_iff {s : List Char} {u : Url} :
    split s = .ok u ↔ IsProper (partsOf s).authority ∧ u = partsOf s := by
  rw [split_eq, isProper_iff]
  cases checkBrackets (partsOf s).authority <;> cases checkDelimiters (partsOf s).authority <;>
    simp [bind, Except.bind, pure, Except.pure, eq_comm]

/-- A URL is refused just if its authority is improper. -/
theorem exists_split_eq_error_iff {s : List Char} :
    (∃ flaw, split s = .error flaw) ↔ ¬ IsProper (partsOf s).authority := by
  have hok : (∃ u, split s = .ok u) ↔ IsProper (partsOf s).authority := by simp [split_eq_ok_iff]
  rw [← hok]
  cases split s <;> simp

/-! ## sources -/

/-- The URL of the symbol handler beside a profile. -/
def handler (u : Url) : Url :=
  { u with path := symbolPath u.path, query := [], fragment := [] }

/-- A URL is one of the web if its scheme is and it has an authority. -/
theorem isWeb_iff {u : Url} : u.isWeb = true ↔
    (u.scheme = "http".toList ∨ u.scheme = "https".toList) ∧ u.authority ≠ [] := by
  simp [isWeb]

/-- A source that is accepted has a symbol handler exactly if it is a web server. -/
theorem symbolUrl?_eq_ok_iff {source : String} {url? : Option String} :
    symbolUrl? source = .ok url? ↔ IsProper (partsOf source.toList).authority ∧
      url? = if (partsOf source.toList).isWeb then
        some (String.ofList (partsOf source.toList).handler.text) else none := by
  unfold symbolUrl?
  cases hsplit : split source.toList with
  | error flaw =>
      have hnot : ¬ IsProper (partsOf source.toList).authority :=
        exists_split_eq_error_iff.mp ⟨flaw, hsplit⟩
      simp [bind, Except.bind, hnot]
  | ok u =>
      obtain ⟨hproper, rfl⟩ := split_eq_ok_iff.mp hsplit
      simp only [bind, Except.bind, hproper, true_and]
      split <;> simp [pure, Except.pure, handler, eq_comm]

end Url

end Symbolication
