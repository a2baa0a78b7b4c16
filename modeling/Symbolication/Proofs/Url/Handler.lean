import Mathlib.Data.List.DropRight
import Symbolication.Proofs.Url.Refusal

/-!
# Symbolication.Proofs.Url.Handler

Where the symbol handler of a source is.  Neither the query of a source nor its fragment has
a part in it, and the URL of the handler, cut into its parts again, names the server that the
source names:

* `partsOf_resource` — the parts of a text without its query and its fragment;
* `partsOf_text` — a URL of a web server is cut into the parts that it was made of;
* `isHandlerPath_symbolPath` — the path of the handler;
* `exists_isHandlerOf`, `symbolUrl?_congr` — the URL that comes of a source.
-/

namespace Symbolication.Url

open Number Text

/-! ## texts without query and fragment -/

/-- Whether the character begins a query or a fragment. -/
def endsResource (c : Char) : Bool :=
  c == '?' || c == '#'

theorem forall_endsResource {P : Char → Prop} (hquestion : P '?') (hhash : P '#') :
    ∀ c, endsResource c = true → P c := by
  intro c hc
  obtain rfl | rfl : c = '?' ∨ c = '#' := by simpa [endsResource] using hc
  · exact hquestion
  · exact hhash

/-- The text up to its query or its fragment. -/
def resource (s : List Char) : List Char :=
  s.takeWhile (!endsResource ·)

/-- The text is nothing, or a query or a fragment with the character that begins it. -/
def IsAppendix (t : List Char) : Prop :=
  ∀ c ∈ t.head?, endsResource c = true

/-- A URL is its resource with an appendix: nothing, a query or a fragment. -/
theorem exists_appendix (s : List Char) : ∃ t, s = resource s ++ t ∧ IsAppendix t := by
  refine ⟨s.dropWhile (!endsResource ·), List.takeWhile_append_dropWhile.symm, fun c hc => ?_⟩
  have hnot := List.head?_dropWhile_not (!endsResource ·) s
  rw [Option.mem_def.mp hc] at hnot
  simpa using hnot

/-- The resource of a URL has no character that would end it. -/
theorem endsResource_of_mem_resource {s : List Char} {c : Char} (h : c ∈ resource s) :
    endsResource c = false := by
  simpa using List.all_eq_true.mp (List.all_takeWhile (p := (!endsResource ·))) c h

section

variable {s t : List Char}

/-- A character with which no query or fragment begins stops before an appendix at the latest. -/
theorem IsAppendix.takeWhile_append {p : Char → Bool} (h : IsAppendix t)
    (hp : ∀ c, endsResource c = true → p c = false) :
    (s ++ t).takeWhile p = s.takeWhile p ∧ (s ++ t).dropWhile p = s.dropWhile p ++ t := by
  induction s with
  | nil =>
      cases t with
      | nil => exact ⟨rfl, rfl⟩
      | cons c rest =>
          have hc := hp c (h c rfl)
          simp [hc]
  | cons c s ih =>
      cases hc : p c with
      | true => simp [hc, ih]
      | false => simp [hc]

/-- An appendix stays one if no character that begins it is filtered out. -/
theorem IsAppendix.filter {p : Char → Bool} (h : IsAppendix t)
    (hp : ∀ c, endsResource c = true → p c = true) : IsAppendix (t.filter p) := by
  cases t with
  | nil => exact h
  | cons c rest =>
      have hc := h c rfl
      rw [List.filter_cons_of_pos (hp c hc)]
      intro d hd
      cases hd
      exact hc

/-- Whether the character may stand in a URL. -/
def isKept (c : Char) : Bool :=
  c != '\t' && c != '\r' && c != '\n'

/-- Cleaning a text with an appendix cleans the text and leaves an appendix. -/
theorem exists_clean_append (h : IsAppendix t) :
    ∃ t', IsAppendix t' ∧ clean (s ++ t) = clean s ++ t' := by
  refine ⟨t.filter isKept, h.filter (forall_endsResource rfl rfl), ?_⟩
  rw [clean, (h.takeWhile_append (forall_endsResource rfl rfl)).2, List.filter_append]
  rfl

/-- A text without a colon has no scheme. -/
theorem splitScheme_of_notMem (h : ':' ∉ s) : splitScheme s = ([], s) := by
  have hname : s.takeWhile (· != ':') = s :=
    List.takeWhile_eq_self_iff.mpr fun c hc => bne_iff_ne.mpr (ne_of_mem_of_not_mem hc h)
  simp [splitScheme, hname]

/-- A scheme ends at the first colon, if what is before it may be a scheme. -/
theorem splitScheme_append_cons (h : ':' ∉ s) :
    splitScheme (s ++ ':' :: t) =
      if s.head?.any Char.isAlpha && s.all isSchemeChar then (s.map Char.toLower, t)
      else ([], s ++ ':' :: t) := by
  have hname : (s ++ ':' :: t).takeWhile (· != ':') = s := congrArg Prod.fst (cutAt_append_cons h)
  simp only [splitScheme, hname, List.drop_left]
  cases s with
  | nil => rfl
  | cons c rest => rfl

/-- An appendix does not change the scheme. -/
theorem splitScheme_append (h : IsAppendix t) :
    splitScheme (s ++ t) = ((splitScheme s).1, (splitScheme s).2 ++ t) := by
  by_cases hs : ':' ∈ s
  · obtain ⟨name, rest, rfl, hname⟩ := List.eq_append_cons_of_mem hs
    rw [List.append_assoc, List.cons_append, splitScheme_append_cons hname,
      splitScheme_append_cons hname]
    split
    · rfl
    · simp
  · rw [splitScheme_of_notMem hs]
    by_cases ht : ':' ∈ t
    · obtain ⟨name, rest, rfl, hname⟩ := List.eq_append_cons_of_mem ht
      have hnot : ':' ∉ s ++ name := fun hmem => (List.mem_append.mp hmem).elim hs hname
      -- a name that goes on into the appendix is no scheme
      have hscheme : (s ++ name).all isSchemeChar = false := by
        cases name with
        | nil => exact absurd (h ':' rfl) (by decide)
        | cons c name =>
            have hc : isSchemeChar c = false :=
              forall_endsResource (P := (isSchemeChar · = false)) rfl rfl c (h c rfl)
            simp [hc]
      rw [← List.append_assoc, splitScheme_append_cons hnot, hscheme, Bool.and_false]
      rfl
    · have hnot : ':' ∉ s ++ t := fun hmem => (List.mem_append.mp hmem).elim hs ht
      exact splitScheme_of_notMem hnot

/-- An authority follows two slashes and runs up to what ends it. -/
theorem splitAuthority_cons_cons (s : List Char) :
    splitAuthority ('/' :: '/' :: s) =
      (s.takeWhile (!endsAuthority ·), s.dropWhile (!endsAuthority ·)) :=
  rfl

/-- A text that does not begin with two slashes has no authority. -/
theorem splitAuthority_of_not_slashes (h : ¬ ['/', '/'] <+: s) : splitAuthority s = ([], s) := by
  unfold splitAuthority
  split
  · exact absurd ⟨_, rfl⟩ h
  · rfl

/-- An appendix does not change whether a text begins with two slashes. -/
theorem IsAppendix.prefix_append_iff (h : IsAppendix t) :
    ['/', '/'] <+: s ++ t ↔ ['/', '/'] <+: s := by
  have hslash : ∀ rest, '/' :: rest ≠ t := by
    rintro rest rfl
    exact absurd (h '/' rfl) (by decide)
  match s with
  | [] =>
      refine ⟨?_, fun hp => absurd hp.length_le (Nat.not_succ_le_zero _)⟩
      rintro ⟨rest, hrest⟩
      exact absurd hrest (hslash _)
  | [_] =>
      refine ⟨?_, fun hp => absurd hp.length_le (Nat.lt_irrefl _)⟩
      rintro ⟨rest, hrest⟩
      exact absurd (List.cons.inj hrest).2 (hslash _)
  | _ :: _ :: _ => simp

/-- An appendix does not change the authority. -/
theorem splitAuthority_append (h : IsAppendix t) :
    splitAuthority (s ++ t) = ((splitAuthority s).1, (splitAuthority s).2 ++ t) := by
  by_cases hs : ['/', '/'] <+: s
  · obtain ⟨rest, rfl⟩ := hs
    obtain ⟨htake, hdrop⟩ := h.takeWhile_append (s := rest) (p := (!endsAuthority ·))
      (forall_endsResource rfl rfl)
    simp only [List.cons_append, List.nil_append, splitAuthority_cons_cons, htake, hdrop]
  · rw [splitAuthority_of_not_slashes hs,
      splitAuthority_of_not_slashes (h.prefix_append_iff.not.mpr hs)]

end

/-! ## the parts -/

/-- The scheme of a URL is split off its cleaned text. -/
theorem scheme_partsOf (s : List Char) : (partsOf s).scheme = (splitScheme (clean s)).1 :=
  rfl

/-- The authority of a URL is split off what follows the scheme. -/
theorem authority_partsOf (s : List Char) :
    (partsOf s).authority = (splitAuthority (splitScheme (clean s)).2).1 :=
  rfl

/-- The path ends where a query or a fragment begins. -/
theorem path_partsOf (s : List Char) :
    (partsOf s).path = resource (splitAuthority (splitScheme (clean s)).2).2 := by
  have hends : (fun c => decide ((c != '?') = true ∧ (c != '#') = true)) = (!endsResource ·) := by
    funext c
    rw [Bool.eq_iff_iff]
    simp [endsResource]
  refine (List.takeWhile_takeWhile _ _ _).trans ?_
  rw [hends]
  rfl

/-- Neither a query nor a fragment has a part in where the source is. -/
theorem partsOf_append {s t : List Char} (h : IsAppendix t) :
    (partsOf (s ++ t)).scheme = (partsOf s).scheme ∧
      (partsOf (s ++ t)).authority = (partsOf s).authority ∧
      (partsOf (s ++ t)).path = (partsOf s).path := by
  obtain ⟨t', h', hclean⟩ := exists_clean_append (s := s) h
  have hscheme : splitScheme (clean (s ++ t)) =
      ((splitScheme (clean s)).1, (splitScheme (clean s)).2 ++ t') := by
    rw [hclean, splitScheme_append h']
  have hauthority : splitAuthority (splitScheme (clean (s ++ t))).2 =
      ((splitAuthority (splitScheme (clean s)).2).1,
        (splitAuthority (splitScheme (clean s)).2).2 ++ t') := by
    rw [hscheme, splitAuthority_append h']
  refine ⟨?_, ?_, ?_⟩
  · rw [scheme_partsOf, scheme_partsOf, hscheme]
  · rw [authority_partsOf, authority_partsOf, hauthority]
  · rw [path_partsOf, path_partsOf, hauthority]
    exact (h'.takeWhile_append (by simp)).1

/-! ## characters of the parts -/

/-- A cleaned text has characters of the text only, of those that are kept. -/
theorem mem_clean {s : List Char} {c : Char} (h : c ∈ clean s) : c ∈ s ∧ isKept c = true := by
  obtain ⟨hmem, hkept⟩ := List.mem_filter.mp h
  exact ⟨(List.dropWhile_suffix _).subset hmem, hkept⟩

/-- What follows the scheme is the end of the text. -/
theorem splitScheme_suffix (s : List Char) : (splitScheme s).2 <:+ s := by
  by_cases hs : ':' ∈ s
  · obtain ⟨name, rest, rfl, hname⟩ := List.eq_append_cons_of_mem hs
    rw [splitScheme_append_cons hname]
    split
    · exact (List.suffix_cons _ _).trans (List.suffix_append _ _)
    · exact List.suffix_rfl
  · have hself : (splitScheme s).2 = s := congrArg Prod.snd (splitScheme_of_notMem hs)
    exact hself.symm ▸ List.suffix_rfl

/-- Splitting the authority off adds no character. -/
theorem splitAuthority_subset (s : List Char) :
    (splitAuthority s).1 ⊆ s ∧ (splitAuthority s).2 ⊆ s := by
  by_cases hs : ['/', '/'] <+: s
  · obtain ⟨rest, rfl⟩ := hs
    have hrest : rest ⊆ ['/', '/'] ++ rest := List.subset_append_right _ _
    exact ⟨List.Subset.trans (List.takeWhile_prefix _).subset hrest,
      List.Subset.trans (List.dropWhile_suffix _).subset hrest⟩
  · rw [splitAuthority_of_not_slashes hs]
    exact ⟨List.nil_subset _, List.Subset.refl _⟩

/-- The parts that say where a URL leads hold what they may hold. -/
structure IsClean (u : Url) : Prop where
  authority : ∀ c ∈ u.authority, endsAuthority c = false ∧ isKept c = true
  path : ∀ c ∈ u.path, endsResource c = false ∧ isKept c = true
  rooted : u.authority ≠ [] → u.path = [] ∨ u.path.head? = some '/'

/-- The parts of a URL hold no character that cleaning takes away. -/
theorem isClean_partsOf (s : List Char) : (partsOf s).IsClean := by
  have hrest := (splitScheme_suffix (clean s)).subset
  refine ⟨fun c hc => ?_, fun c hc => ?_, fun hne => ?_⟩
  · rw [authority_partsOf] at hc
    exact ⟨authority_splitAuthority hc,
      (mem_clean (hrest ((splitAuthority_subset _).1 hc))).2⟩
  · rw [path_partsOf] at hc
    exact ⟨endsResource_of_mem_resource hc,
      (mem_clean (hrest ((splitAuthority_subset _).2 ((List.takeWhile_prefix _).subset hc)))).2⟩
  · rw [authority_partsOf] at hne
    rw [path_partsOf]
    generalize (splitScheme (clean s)).2 = rest at hne ⊢
    by_cases hs : ['/', '/'] <+: rest
    · obtain ⟨more, rfl⟩ := hs
      have hhead := List.head?_dropWhile_not (!endsAuthority ·) more
      change resource (more.dropWhile (!endsAuthority ·)) = [] ∨
        (resource (more.dropWhile (!endsAuthority ·))).head? = some '/'
      cases hmore : more.dropWhile (!endsAuthority ·) with
      | nil => exact .inl rfl
      | cons c path =>
          rw [hmore] at hhead
          have hc : (!endsAuthority c) = false := Bool.eq_false_iff.mpr (by simpa using hhead)
          obtain (rfl | rfl) | rfl : (c = '/' ∨ c = '?') ∨ c = '#' := by
            simpa only [endsAuthority, Bool.not_eq_false', Bool.or_eq_true, beq_iff_eq] using hc
          · exact .inr rfl
          · exact .inl rfl
          · exact .inl rfl
    · rw [splitAuthority_of_not_slashes hs] at hne
      exact absurd rfl hne

/-- What is left of a text without its query and its fragment is the text without them. -/
theorem partsOf_resource (s : List Char) :
    partsOf (resource s) = { partsOf s with query := [], fragment := [] } := by
  obtain ⟨t, ht, happendix⟩ := exists_appendix s
  have hsame := partsOf_append (s := resource s) happendix
  rw [← ht] at hsame
  have hfree : ∀ c ∈ (splitAuthority (splitScheme (clean (resource s))).2).2,
      endsResource c = false := fun c hc =>
    endsResource_of_mem_resource
      (mem_clean ((splitScheme_suffix _).subset ((splitAuthority_subset _).2 hc))).1
  have hquestion : '?' ∉ (splitAuthority (splitScheme (clean (resource s))).2).2 :=
    fun hmem => absurd (hfree _ hmem) (by decide)
  have hhash : '#' ∉ (splitAuthority (splitScheme (clean (resource s))).2).2 :=
    fun hmem => absurd (hfree _ hmem) (by decide)
  have hparts : partsOf (resource s) =
      { partsOf (resource s) with query := [], fragment := [] } := by
    simp only [partsOf, cutAt_of_notMem hhash, cutAt_of_notMem hquestion]
  rw [hparts]
  simp only [hsame]

/-! ## the text of a URL -/

/-- A text that cleaning need not change is left as it is. -/
theorem clean_eq_self {s : List Char} (hfirst : ∀ c ∈ s.head?, 0x20 < c.toNat)
    (hkept : ∀ c ∈ s, isKept c = true) : clean s = s := by
  have hdrop : s.dropWhile (·.toNat ≤ 0x20) = s := by
    cases s with
    | nil => rfl
    | cons c rest =>
        have hc : ¬ c.toNat ≤ 0x20 := Nat.not_le.mpr (hfirst c rfl)
        simp [hc]
  rw [clean, hdrop]
  exact List.filter_eq_self.mpr hkept

/-- The schemes of the web are recognized. -/
theorem splitScheme_web {scheme rest : List Char}
    (h : scheme = "http".toList ∨ scheme = "https".toList) :
    splitScheme (scheme ++ ':' :: rest) = (scheme, rest) := by
  have hcolon : ':' ∉ scheme := by
    obtain h | h := h <;> rw [h] <;> decide
  rw [splitScheme_append_cons hcolon]
  obtain h | h := h <;> rw [h] <;> rfl

/-- An authority before a path with a root is split off there. -/
theorem splitAuthority_rooted {authority path : List Char}
    (hfree : ∀ c ∈ authority, endsAuthority c = false) (hroot : path.head? = some '/') :
    splitAuthority ('/' :: '/' :: (authority ++ path)) = (authority, path) := by
  have hall : ∀ c ∈ authority, (!endsAuthority c) = true := fun c hc => by
    rw [hfree c hc]
    rfl
  rw [splitAuthority_cons_cons, List.takeWhile_append_of_pos hall,
    List.dropWhile_append_of_pos hall]
  cases path with
  | nil => cases hroot
  | cons c path =>
      obtain rfl := Option.some.inj hroot
      simp [endsAuthority]

section

variable {u : Url}

/-- A web URL without query and fragment is its scheme, its authority and its path. -/
theorem text_eq_append (hweb : u.isWeb = true) (hroot : u.path.head? = some '/')
    (hquery : u.query = []) (hfragment : u.fragment = []) :
    u.text = u.scheme ++ ':' :: ('/' :: '/' :: (u.authority ++ u.path)) := by
  obtain ⟨hscheme, hauthority⟩ := isWeb_iff.mp hweb
  have hne : u.scheme ≠ [] := by
    obtain h | h := hscheme <;> rw [h] <;> decide
  simp [text, hne, hauthority, hquery, hfragment, hroot]

/-- The text of a web URL with clean parts is clean. -/
theorem IsClean.clean_append (h : u.IsClean)
    (hscheme : u.scheme = "http".toList ∨ u.scheme = "https".toList) :
    clean (u.scheme ++ ':' :: ('/' :: '/' :: (u.authority ++ u.path))) =
      u.scheme ++ ':' :: ('/' :: '/' :: (u.authority ++ u.path)) := by
  refine clean_eq_self (fun c hc => ?_) (fun c hc => ?_)
  · obtain h | h := hscheme <;> rw [h] at hc <;> cases hc <;> decide
  · simp only [List.mem_cons, List.mem_append] at hc
    obtain hc | rfl | rfl | rfl | hc | hc := hc
    · have hall : "https".toList.all isKept = true := by decide
      refine List.all_eq_true.mp hall c ?_
      obtain h | h := hscheme
      · rw [h] at hc
        exact List.IsPrefix.subset ⟨['s'], rfl⟩ hc
      · rwa [h] at hc
    · rfl
    · rfl
    · rfl
    · exact (h.authority c hc).2
    · exact (h.path c hc).2

/-- A URL of a web server is cut into the parts that it was made of. -/
theorem partsOf_text (hweb : u.isWeb = true) (hclean : u.IsClean)
    (hroot : u.path.head? = some '/') (hquery : u.query = []) (hfragment : u.fragment = []) :
    partsOf u.text = u := by
  have hscheme := (isWeb_iff.mp hweb).1
  have htext := text_eq_append hweb hroot hquery hfragment
  have hkept := hclean.clean_append hscheme
  have hserver := splitAuthority_rooted (fun c hc => (hclean.authority c hc).1) hroot
  have hquestion : '?' ∉ u.path := fun hmem => absurd (hclean.path _ hmem).1 (by decide)
  have hhash : '#' ∉ u.path := fun hmem => absurd (hclean.path _ hmem).1 (by decide)
  simp only [partsOf, htext, hkept, splitScheme_web hscheme, hserver, cutAt_of_notMem hhash,
    cutAt_of_notMem hquestion]
  obtain ⟨scheme, authority, path, query, fragment⟩ := u
  simp_all

end

/-! ## the path of the handler -/

/-- Whether a profile handler of a server is known to have the path. -/
def IsProfilePath (path : List Char) : Prop :=
  "/debug/pprof/".toList <:+: path ∨ ∃ ending ∈ profileHandlers, ending <:+ path

/-- The path of a symbol handler, on a server with a profile at the path. -/
inductive IsHandlerPath (path : List Char) : List Char → Prop where
  /-- The handler stands beside that of the profile: the last name in the path is another. -/
  | beside {directory name slashes : List Char} (hprofile : IsProfilePath path)
      (hpath : path = directory ++ '/' :: name ++ slashes) (hname : name ≠ [])
      (hfree : '/' ∉ name) (hslashes : ∀ c ∈ slashes, c = '/') :
      IsHandlerPath path (directory ++ "/symbol".toList)
  /-- The handler is where it is on a server of which nothing is known. -/
  | apart (hother : ¬ IsProfilePath path) : IsHandlerPath path "/symbolz".toList

section

variable {path : List Char}

/-- The test for a profile path decides whether a path is one. -/
theorem isProfilePath_iff : isProfilePath path = true ↔ IsProfilePath path := by
  simp [isProfilePath, IsProfilePath, occursIn_iff]

theorem IsProfilePath.mem (h : IsProfilePath path) : 'p' ∈ path := by
  obtain hinfix | ⟨ending, hending, hsuffix⟩ := h
  · exact hinfix.subset (by decide)
  · have hall : ∀ ending ∈ profileHandlers, 'p' ∈ ending := by decide
    exact hsuffix.subset (hall ending hending)

/-- Trimming takes away the slashes at the end. -/
theorem trimSlashes_eq (path : List Char) : trimSlashes path = path.rdropWhile (· == '/') :=
  rfl

/-- A path is its trimmed form and some slashes. -/
theorem exists_slashes (path : List Char) :
    ∃ slashes, path = trimSlashes path ++ slashes ∧ ∀ c ∈ slashes, c = '/' := by
  refine ⟨path.rtakeWhile (· == '/'), List.rdropWhile_append_rtakeWhile.symm, ?_⟩
  exact fun c hc => eq_of_beq (List.mem_rtakeWhile_imp (p := (· == '/')) hc)

/-- A trimmed path does not end with a slash. -/
theorem trimSlashes_ne_append (path directory : List Char) :
    trimSlashes path ≠ directory ++ ['/'] := by
  intro h
  rw [trimSlashes_eq] at h
  have hne : path.rdropWhile (· == '/') ≠ [] := by simp [h]
  have hlast := List.rdropWhile_last_not (· == '/') path hne
  simp [h] at hlast

/-- A path that is not made of slashes alone begins the same way without those it ends in. -/
theorem slash_mem_trimSlashes {c : Char} (hroot : path.head? = some '/') (hmem : c ∈ path)
    (hne : c ≠ '/') : '/' ∈ trimSlashes path := by
  obtain ⟨slashes, hpath, hslashes⟩ := exists_slashes path
  cases htrim : trimSlashes path with
  | nil =>
      rw [htrim, List.nil_append] at hpath
      exact absurd (hslashes c (hpath ▸ hmem)) hne
  | cons d rest =>
      rw [hpath, htrim] at hroot
      obtain rfl := Option.some.inj hroot
      exact List.mem_cons_self

/-- A path with a slash ends with a name behind its last slash. -/
theorem exists_last_name {s : List Char} (h : '/' ∈ s) :
    ∃ directory name, s = directory ++ '/' :: name ∧ '/' ∉ name := by
  obtain ⟨before, after, hsplit, hfree⟩ := List.eq_append_cons_of_mem (List.mem_reverse.mpr h)
  refine ⟨after.reverse, before.reverse, ?_, fun hmem => hfree (List.mem_reverse.mp hmem)⟩
  rw [← List.reverse_reverse s, hsplit]
  simp

/-- The parent of a path is what is before its last slash. -/
theorem parent_append_cons {directory name : List Char} (h : '/' ∉ name) :
    parent (directory ++ '/' :: name) = directory := by
  have hall : ∀ c ∈ name.reverse, (c != '/') = true := fun c hc =>
    bne_iff_ne.mpr (ne_of_mem_of_not_mem (List.mem_reverse.mp hc) h)
  simp [parent, List.dropWhile_append_of_pos hall]

/-- The symbol path of a path with a root, or of none, is that of its handler. -/
theorem isHandlerPath_symbolPath (h : path = [] ∨ path.head? = some '/') :
    IsHandlerPath path (symbolPath path) := by
  unfold symbolPath
  by_cases hprofile : IsProfilePath path
  · rw [if_pos (isProfilePath_iff.mpr hprofile)]
    have hroot : path.head? = some '/' := by
      refine h.resolve_left ?_
      rintro rfl
      cases hprofile.mem
    obtain ⟨directory, name, hsplit, hfree⟩ :=
      exists_last_name (slash_mem_trimSlashes hroot hprofile.mem (by decide))
    obtain ⟨slashes, hpath, hslashes⟩ := exists_slashes path
    have hname : name ≠ [] := by
      rintro rfl
      exact trimSlashes_ne_append path directory hsplit
    rw [hsplit, parent_append_cons hfree]
    rw [hsplit] at hpath
    exact .beside hprofile hpath hname hfree hslashes
  · rw [if_neg (isProfilePath_iff.not.mpr hprofile)]
    exact .apart hprofile

end

/-! ## handlers of sources -/

/-- The URL is that of a symbol handler on the server of another, and of nothing else. -/
structure IsHandlerOf (v u : Url) : Prop where
  scheme : v.scheme = u.scheme
  authority : v.authority = u.authority
  path : IsHandlerPath u.path v.path
  query : v.query = []
  fragment : v.fragment = []

section

variable {path other : List Char}

/-- The path of a handler has a root. -/
theorem IsHandlerPath.head?_eq (h : IsHandlerPath path other)
    (hroot : path = [] ∨ path.head? = some '/') : other.head? = some '/' := by
  cases h with
  | @beside directory name slashes _ hpath =>
      cases directory with
      | nil => rfl
      | cons c rest =>
          obtain hnone | hroot := hroot
          · rw [hpath] at hnone
            cases hnone
          · rw [hpath] at hroot
            exact hroot
  | apart => rfl

theorem forall_mem_symbolz :
    ∀ c ∈ "/symbolz".toList, endsResource c = false ∧ isKept c = true := by
  have hall : "/symbolz".toList.all (fun c => !endsResource c && isKept c) = true := by decide
  intro c hc
  simpa using List.all_eq_true.mp hall c hc

/-- The path of a handler holds what the path of the profile may hold. -/
theorem IsHandlerPath.forall_mem (h : IsHandlerPath path other)
    (hpath : ∀ c ∈ path, endsResource c = false ∧ isKept c = true) :
    ∀ c ∈ other, endsResource c = false ∧ isKept c = true := by
  cases h with
  | @beside directory name slashes _ hsplit =>
      intro c hc
      obtain hc | hc := List.mem_append.mp hc
      · refine hpath c ?_
        rw [hsplit, List.append_assoc]
        exact List.mem_append_left _ hc
      · exact forall_mem_symbolz c (List.IsPrefix.subset ⟨['z'], rfl⟩ hc)
  | apart => exact forall_mem_symbolz

end

/-- The handler of a clean web URL is the handler that is meant, and its text parses as it. -/
theorem isHandlerOf_handler {u : Url} (hweb : u.isWeb = true) (hclean : u.IsClean) :
    u.handler.IsHandlerOf u ∧ partsOf u.handler.text = u.handler := by
  have hrooted := hclean.rooted (isWeb_iff.mp hweb).2
  have hpath := isHandlerPath_symbolPath hrooted
  have hroot := hpath.head?_eq hrooted
  have hclean' : u.handler.IsClean :=
    ⟨hclean.authority, hpath.forall_mem hclean.path, fun _ => .inr hroot⟩
  exact ⟨⟨rfl, rfl, hpath, rfl, rfl⟩, partsOf_text hweb hclean' hroot rfl rfl⟩

/-- The handler of a source is a URL, and it is on the server of the source. -/
theorem exists_isHandlerOf {source url : String} (h : symbolUrl? source = .ok (some url)) :
    ∃ u v, split source.toList = .ok u ∧ split url.toList = .ok v ∧ v.IsHandlerOf u := by
  obtain ⟨hproper, hurl⟩ := symbolUrl?_eq_ok_iff.mp h
  have hweb : (partsOf source.toList).isWeb = true := by
    by_contra hnot
    rw [if_neg hnot] at hurl
    cases hurl
  rw [if_pos hweb, Option.some.injEq] at hurl
  obtain ⟨hhandler, htext⟩ := isHandlerOf_handler hweb (isClean_partsOf source.toList)
  have hparts : partsOf url.toList = (partsOf source.toList).handler := by
    rw [hurl, String.toList_ofList, htext]
  refine ⟨_, _, split_eq_ok_iff.mpr ⟨hproper, rfl⟩, split_eq_ok_iff.mpr ⟨?_, hparts.symm⟩, hhandler⟩
  rw [hparts]
  exact hproper

/-- The query and the fragment of a source do not matter to its symbol URL. -/
theorem symbolUrl?_resource (source : String) :
    symbolUrl? (String.ofList (resource source.toList)) = symbolUrl? source := by
  have hparts := partsOf_resource source.toList
  simp only [symbolUrl?, String.toList_ofList, split_eq, hparts]
  cases checkBrackets (partsOf source.toList).authority <;>
    cases checkDelimiters (partsOf source.toList).authority <;> rfl

/-- What comes of a source depends on its text up to its query or its fragment. -/
theorem symbolUrl?_congr {source other : String}
    (h : resource source.toList = resource other.toList) :
    symbolUrl? source = symbolUrl? other := by
  rw [← symbolUrl?_resource source, h, symbolUrl?_resource]

end Symbolication.Url
