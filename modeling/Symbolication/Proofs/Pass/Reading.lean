import Symbolication.Pass.Symbolize
import Symbolication.Proofs.Action.Triple

/-!
# Symbolication.Proofs.Pass.Reading

What a directive says, read off its words without going through them in order: of
words that contradict each other the last one counts, and of those that nobody
understands none does.

* `Directive.tokens` — the words, in lower case;
* `Directive.IsCalledOff`, `Directive.place?`, `Directive.forces`, `Directive.styleFor` —
  what the words say;
* `Directive.Reads` — a directive that says what the words say;
* `Directive.skip_of_isCalledOff`, `Directive.reads_parse` — this is the directive that is read;
* `Directive.parseNoting_apply` — what is reported meanwhile.
-/

namespace Symbolication

open Text

namespace Directive

/-! ## words -/

/-- The words of the text of a directive, in lower case. -/
def tokens : Option String → List String
  | none => []
  | some text => (splitOn ':' (lowercase text.toList)).map String.ofList

/-- Where to look for symbols. -/
inductive Place where
  /-- In the binaries. -/
  | binaries
  /-- In the symbol tables of the binaries. -/
  | symbolTables
  /-- On symbol servers. -/
  | servers
deriving DecidableEq

/-- The word calls everything off. -/
def callsOff (t : String) : Bool :=
  t == "none" || t == "no"

/-- The place that a word names. -/
def placeNamed? (t : String) : Option Place :=
  [("local", .binaries), ("fastlocal", .symbolTables), ("remote", .servers)].lookup t

/-- The style that a word names. -/
def styleNamed? (t : String) : Option NameStyle :=
  [("demangle=full", .full), ("demangle=none", .system), ("demangle=templates", .templates)].lookup t

/-- The word asks to begin anew. -/
def beginsAnew (t : String) : Bool :=
  t == "" || t == "force" || (styleNamed? t).isSome

/-- The words that a directive may have. -/
def vocabulary : List String :=
  ["none", "no", "local", "fastlocal", "remote", "", "force", "demangle=full", "demangle=none",
    "demangle=templates", "demangle=default"]

/-- Some word calls everything off. -/
def IsCalledOff (text : Option String) : Prop :=
  ∃ t ∈ tokens text, callsOff t = true

/-- Where to look for symbols, if there is a word about it: the last one counts. -/
def place? (text : Option String) : Option Place :=
  ((tokens text).filterMap placeNamed?).getLast?

/-- Some word asks to begin anew. -/
def forces (text : Option String) : Bool :=
  (tokens text).any beginsAnew

/-- How names are to be shown: the last word about it counts. -/
def styleFor (text : Option String) : NameStyle :=
  ((tokens text).filterMap styleNamed?).getLast?.getD .simple

/-- What is reported of words that are not understood. Those behind a word that calls everything off
are not looked at. -/
def complaints (text : Option String) : List Notice :=
  (((tokens text).takeWhile (!callsOff ·)).filter (!vocabulary.contains ·)).flatMap fun t =>
    [.unknownWord t, .directiveUsage]

/-- The directive says what the words of a text say. Whether the local pass is to be fast does not
matter where there is none. -/
structure Reads (text : Option String) (d : Directive) : Prop where
  skip : d.skip = false
  tryLocal : d.tryLocal = (place? text != some .servers)
  tryRemote : d.tryRemote = (place? text == none || place? text == some .servers)
  force : d.force = forces text
  style : d.style = styleFor text
  fast : place? text ≠ some .servers → d.fast = (place? text == some .symbolTables)

/-- Names are shown in a special way only where everything begins anew. -/
theorem forces_of_styleFor {text : Option String} (h : styleFor text ≠ .simple) :
    forces text = true := by
  cases hlast : ((tokens text).filterMap styleNamed?).getLast? with
  | none => exact absurd (by rw [styleFor, hlast]; rfl) h
  | some style =>
      obtain ⟨t, ht, hstyle⟩ := List.mem_filterMap.mp (List.mem_of_getLast? hlast)
      exact List.any_eq_true.mpr ⟨t, ht, by simp [beginsAnew, hstyle]⟩

/-! ## single words -/

/-- A word that calls the pass off reads as such. -/
theorem ofText_of_callsOff {t : String} (h : callsOff t = true) : Word.ofText t = .skip :=
  if_pos h

/-- A word that no directive may have says nothing. -/
theorem notMem_vocabulary {t : String} (h : t ∉ vocabulary) :
    Word.ofText t = .unknown t ∧ callsOff t = false ∧ placeNamed? t = none ∧
      styleNamed? t = none ∧ beginsAnew t = false := by
  simp only [vocabulary, List.mem_cons, not_or, ← beq_eq_false_iff_ne] at h
  simp [Word.ofText, callsOff, placeNamed?, styleNamed?, beginsAnew, List.lookup_cons, h]

/-- What a word that does not call everything off does to a directive. -/
theorem apply_ofText (d : Directive) {t : String} (h : callsOff t = false) :
    d.apply (Word.ofText t) =
      { tryLocal := (placeNamed? t).elim d.tryLocal (· != .servers)
        tryRemote := (placeNamed? t).elim d.tryRemote (· == .servers)
        force := d.force || beginsAnew t
        style := (styleNamed? t).getD d.style
        fast := if placeNamed? t = some .servers then d.fast
          else (placeNamed? t).elim d.fast (· == .symbolTables)
        skip := d.skip } := by
  by_cases hmem : t ∈ vocabulary
  · simp only [vocabulary, List.mem_cons, List.not_mem_nil, or_false] at hmem
    rcases hmem with rfl | rfl | rfl | rfl | rfl | rfl | rfl | rfl | rfl | rfl | rfl <;>
      simp [Word.ofText, apply, callsOff, placeNamed?, styleNamed?, beginsAnew,
        List.lookup_cons] at h ⊢
  · obtain ⟨hword, -, hplace, hstyle, hanew⟩ := notMem_vocabulary hmem
    simp [hword, hplace, hstyle, hanew, apply]

/-- A directive goes on behind a word that does not call everything off, and the word is noted if it
is not understood. -/
theorem ofWords_cons (d : Directive) {t : String} (h : callsOff t = false) (ws : List Word) :
    ofWords d (Word.ofText t :: ws) =
      ((ofWords (d.apply (Word.ofText t)) ws).1,
        if vocabulary.contains t then (ofWords (d.apply (Word.ofText t)) ws).2
        else t :: (ofWords (d.apply (Word.ofText t)) ws).2) := by
  by_cases hmem : t ∈ vocabulary
  · rw [if_pos (List.contains_iff_mem.mpr hmem)]
    simp only [vocabulary, List.mem_cons, List.not_mem_nil, or_false] at hmem
    rcases hmem with rfl | rfl | rfl | rfl | rfl | rfl | rfl | rfl | rfl | rfl | rfl <;>
      first
      | rfl
      | exact absurd h (by decide)
  · rw [if_neg (mt List.contains_iff_mem.mp hmem), (notMem_vocabulary hmem).1]
    rfl

/-! ## all words -/

/-- A word in front counts if no later one does. -/
theorem elim_getLast?_filterMap_cons {α β γ : Type} (g : α → Option β) (a : α) (as : List α)
    (c : γ) (f : β → γ) :
    ((a :: as).filterMap g).getLast?.elim c f =
      (as.filterMap g).getLast?.elim ((g a).elim c f) f := by
  cases h : g a with
  | none =>
      rw [List.filterMap_cons_none h]
      rfl
  | some b =>
      rw [List.filterMap_cons_some h, List.getLast?_cons]
      cases (as.filterMap g).getLast? <;> rfl

/-- What words none of which calls everything off make of a directive. -/
theorem ofWords_tokens (d : Directive) {ts : List String} (h : ∀ t ∈ ts, callsOff t = false) :
    let d' := (ofWords d (ts.map Word.ofText)).1
    let named := (ts.filterMap placeNamed?).getLast?
    d'.skip = d.skip ∧
      d'.tryLocal = named.elim d.tryLocal (· != .servers) ∧
      d'.tryRemote = named.elim d.tryRemote (· == .servers) ∧
      d'.force = (d.force || ts.any beginsAnew) ∧
      d'.style = (ts.filterMap styleNamed?).getLast?.elim d.style id ∧
      (d'.tryLocal = true → d'.fast = named.elim d.fast (· == .symbolTables)) := by
  induction ts generalizing d with
  | nil => simp [ofWords]
  | cons t rest ih =>
      have ht : callsOff t = false := h t List.mem_cons_self
      obtain ⟨hskip, hlocal, hremote, hforce, hstyle, hfast⟩ :=
        ih (d.apply (Word.ofText t)) fun t ht => h t (List.mem_cons_of_mem _ ht)
      simp only [List.map_cons, ofWords_cons d ht, elim_getLast?_filterMap_cons, List.any_cons]
      simp only [apply_ofText d ht] at hskip hlocal hremote hforce hstyle hfast ⊢
      refine ⟨hskip, hlocal, hremote, ?_, ?_, ?_⟩
      · rw [hforce, Bool.or_assoc]
      · rw [hstyle]
        cases styleNamed? t <;> rfl
      · intro hon
        rw [hfast hon]
        rw [hlocal] at hon
        cases hlast : (rest.filterMap placeNamed?).getLast? with
        | some place => rfl
        | none =>
            -- "remote" leaves the manner of the local pass as it is, but then there is none
            have hplace : placeNamed? t ≠ some .servers := by
              intro hservers
              simp [hlast, hservers] at hon
            exact if_neg hplace

/-- The words complained of are those outside the vocabulary, up to one that calls the pass off. -/
theorem unknown_ofWords (d : Directive) (ts : List String) :
    (ofWords d (ts.map Word.ofText)).2 =
      (ts.takeWhile (!callsOff ·)).filter (!vocabulary.contains ·) := by
  induction ts generalizing d with
  | nil => rfl
  | cons t rest ih =>
      cases ht : callsOff t with
      | true =>
          rw [List.map_cons, ofText_of_callsOff ht, List.takeWhile_cons_of_neg (by simp [ht])]
          rfl
      | false =>
          rw [List.map_cons, ofWords_cons d ht, List.takeWhile_cons_of_pos (by simp [ht]),
            List.filter_cons, ih]
          cases vocabulary.contains t <;> rfl

/-! ## the directive that is read -/

/-- A directive is read from its words. -/
theorem parse_eq (text : Option String) :
    parse text = ofWords {} ((tokens text).map Word.ofText) := by
  cases text with
  | none => rfl
  | some text => simp [parse, words, tokens, Function.comp_def]

/-- A word that calls everything off is obeyed, wherever it stands. -/
theorem skip_of_isCalledOff {text : Option String} (h : IsCalledOff text) :
    (parse text).1.skip = true := by
  obtain ⟨t, ht, hoff⟩ := h
  have hskip : Word.skip ∈ (tokens text).map Word.ofText :=
    List.mem_map.mpr ⟨t, ht, ofText_of_callsOff hoff⟩
  rw [parse_eq, ofWords_skip _ _ hskip]

/-- Where nothing calls everything off, the directive says what the words say. -/
theorem reads_parse {text : Option String} (h : ¬ IsCalledOff text) :
    Reads text (parse text).1 := by
  have hwords : ∀ t ∈ tokens text, callsOff t = false := by
    intro t ht
    rw [Bool.eq_false_iff]
    exact fun hoff => h ⟨t, ht, hoff⟩
  obtain ⟨hskip, hlocal, hremote, hforce, hstyle, hfast⟩ := ofWords_tokens {} hwords
  rw [← parse_eq] at hskip hlocal hremote hforce hstyle hfast
  change _ = (place? text).elim _ _ at hlocal hremote
  change _ → _ = (place? text).elim _ _ at hfast
  refine ⟨hskip, ?_, ?_, ?_, ?_, ?_⟩
  · rw [hlocal]
    cases place? text <;> rfl
  · rw [hremote]
    cases place? text <;> rfl
  · rw [hforce]
    rfl
  · rw [hstyle, styleFor]
    cases ((tokens text).filterMap styleNamed?).getLast? <;> rfl
  · intro hplace
    have hon : (parse text).1.tryLocal = true := by
      rw [hlocal]
      cases hnamed : place? text with
      | none => rfl
      | some place =>
          have hne : place ≠ .servers := by
            rintro rfl
            exact hplace hnamed
          simpa using hne
    rw [hfast hon]
    cases place? text <;> rfl

example :
    parse (some "Remote:demangle=full:slow:fastLocal") =
      ({ tryRemote := false, force := true, style := .full, fast := true }, ["slow"]) := by
  decide +kernel

/-- Each unknown word is reported with the usage after it. -/
theorem forIn_report {ω : Type} (ts : List String) (env : Env ω) :
    (forIn ts PUnit.unit fun t _ => do
        note (.unknownWord t)
        note .directiveUsage
        pure (ForInStep.yield PUnit.unit) : Step ω PUnit) env =
      (PUnit.unit, env.noting (ts.flatMap fun t => [.unknownWord t, .directiveUsage])) := by
  induction ts generalizing env with
  | nil =>
      rw [List.flatMap_nil, noting_nil]
      rfl
  | cons t rest ih =>
      have hboth : env.noting [.unknownWord t, .directiveUsage] =
          (env.noting [.unknownWord t]).noting [.directiveUsage] := by
        rw [noting_append]
        rfl
      rw [List.forIn_cons, List.flatMap_cons, ← noting_append, hboth]
      exact ih _

/-- Reading a directive reports the words that are not understood and does nothing else. -/
theorem parseNoting_apply {ω : Type} (text : Option String) (env : Env ω) :
    parseNoting text env = ((parse text).1, env.noting (complaints text)) := by
  have hunknown := unknown_ofWords {} (tokens text)
  rw [← parse_eq] at hunknown
  rw [complaints, ← hunknown]
  have hreport := forIn_report (parse text).2 env
  exact Prod.ext rfl (congrArg Prod.snd hreport :)

end Directive

end Symbolication
