import Symbolication.Proofs.Pass.Knowledge

/-!
# Symbolication.Proofs.Pass.Alike

Two passes side by side.  Two inspectors, each in a world of its own, may answer alike as
far as one file goes, and do as they like with all other files.  Passes over the same
profile then deal with the file in the same steps, between which each of them goes its
own way:

* `Inspector.AlikeOn` — inspectors that answer alike about a file;
* `TablesAlike` — tables that have the same for the mappings of the file;
* `SegmentTable.alike_openEach`, `LocalPass.Readies.alike`, `LocalPass.Finds.alike` —
  opening, looking up in advance, and looking up;
* `LocalPass.Completed.alike` — the same is found for the locations of the file.
-/

namespace Symbolication

variable {ω ω' η η' τ α β : Type}

/-! ## inspectors that answer alike -/

/-- Two actions end alike: with the same fault, or with answers, and in worlds that go together. -/
def Act.Alike (P : ω → ω' → Prop) (x : Act ω α) (y : Act ω' β) (Q : α → β → ω → ω' → Prop)
    (E : ω → ω' → Prop) : Prop :=
  ∀ (env : Env ω) (env' : Env ω'), P env.world env'.world →
    match x.run env, y.run env' with
    | (.ok a, after), (.ok b, after') => Q a b after.world after'.world
    | (.error fault, after), (.error fault', after') =>
      fault = fault' ∧ E after.world after'.world
    | _, _ => False

/-- Whatever the inspector does for files other than this one keeps the assertion, which goes along
with the segments of these files. -/
structure Inspector.Spares (inspector : Inspector ω η) (file : String)
    (J : List η → ω → Prop) : Prop where
  openRegion : ∀ others region, region.path ≠ file → Act.Meets (J others)
    (inspector.openRegion region) (fun segment => J (others ++ [segment])) (fun _ => J others)
  prefetch : ∀ others, ∀ segment ∈ others, ∀ addresses,
    Act.Keeps (J others) (inspector.prefetch segment addresses)
  lookup : ∀ others, ∀ segment ∈ others, ∀ address,
    Act.Keeps (J others) (inspector.lookup segment address)
  close : ∀ before segment after, Act.Meets (J (before ++ segment :: after))
    (inspector.close segment) (fun _ => J (before ++ after)) (fun _ _ => True)

/-- The inspectors answer alike about the file. The assertion `I` goes along with the segments of
the file, which stand in pairs, and with the segments of other files that each of them holds. -/
structure Inspector.AlikeOn (A : Inspector ω η) (B : Inspector ω' η') (file : String)
    (I : List (η × η') → List η → List η' → ω → ω' → Prop) : Prop where
  left : ∀ held others' w', A.Spares file fun others w => I held others others' w w'
  right : ∀ held others w, B.Spares file fun others' w' => I held others others' w w'
  entry : ∀ fast (env : Env ω) (env' : Env ω'), I [] [] [] env.world env'.world →
    I [] [] [] (A.entry fast env).world (B.entry fast env').world
  openRegion : ∀ held others others' region, region.path = file →
    Act.Alike (I held others others') (A.openRegion region) (B.openRegion region)
      (fun segment segment' w w' => A.buildId segment = B.buildId segment' ∧
        I (held ++ [(segment, segment')]) others others' w w')
      (I held others others')
  prefetch : ∀ held others others', ∀ e ∈ held, ∀ addresses,
    Act.Alike (I held others others') (A.prefetch e.1 addresses) (B.prefetch e.2 addresses)
      (fun _ _ => I held others others') (I held others others')
  lookup : ∀ held others others', ∀ e ∈ held, ∀ address,
    Act.Alike (I held others others') (A.lookup e.1 address) (B.lookup e.2 address)
      (fun frames frames' w w' => frames = frames' ∧ I held others others' w w')
      (I held others others')
  close : ∀ before e after others others' (env closed : Env ω) (env' closed' : Env ω'),
    (A.close e.1).run env = (.ok (), closed) → (B.close e.2).run env' = (.ok (), closed') →
      I (before ++ e :: after) others others' env.world env'.world →
        I (before ++ after) others others' closed.world closed'.world

/-- Whether the mapping at a position shows a file. -/
def ProfileOf.showsFile [Label τ] (p : ProfileOf τ) (file : String) (i : Nat) : Bool :=
  p.mappings[i]?.any fun m => Label.isText m.file file

/-- The tables have the same for mappings of the file, in pairs that are held, and for other
mappings what each of them holds. -/
structure TablesAlike (own : Nat → Bool) (held : List (η × η')) (others : List η)
    (others' : List η') (t : SegmentTable η) (t' : SegmentTable η') : Prop where
  paired : ∀ i, own i = true → (t.get? (some i) = none ∧ t'.get? (some i) = none) ∨
    ∃ e ∈ held, t.get? (some i) = some e.1 ∧ t'.get? (some i) = some e.2
  left : ∀ i, own i = false → ∀ segment ∈ t.get? (some i), segment ∈ others
  right : ∀ i, own i = false → ∀ segment ∈ t'.get? (some i), segment ∈ others'

variable {A : Inspector ω η} {B : Inspector ω' η'} {file : String}
  {I : List (η × η') → List η → List η' → ω → ω' → Prop} {own : Nat → Bool}
  {held : List (η × η')} {others : List η} {others' : List η'} {t : SegmentTable η}
  {t' : SegmentTable η'}

namespace TablesAlike

theorem nil : TablesAlike own ([] : List (η × η')) [] [] {} {} where
  paired _ _ := .inl ⟨rfl, rfl⟩
  left _ _ _ h := by cases h
  right _ _ _ h := by cases h

/-- What a mapping of the file gets is none of the segments of other files. -/
theorem mem_others_of_own (h : ∀ j, own j = false → ∀ segment ∈ t.get? (some j), segment ∈ others)
    {i : Nat} (hi : own i = true) (segment? : Option η) :
    ∀ j, own j = false → ∀ segment ∈ (t.addSome i segment?).get? (some j), segment ∈ others := by
  intro j hj segment hsegment
  have hji : j ≠ i := ne_of_apply_ne own (by simp [hi, hj])
  rw [SegmentTable.get?_addSome, if_neg hji, Option.or_none] at hsegment
  exact h j hj segment hsegment

/-- What a mapping of another file gets is one of them. -/
theorem mem_others_append
    (h : ∀ j, own j = false → ∀ segment ∈ t.get? (some j), segment ∈ others) (i : Nat)
    (segment? : Option η) : ∀ j, own j = false →
      ∀ segment ∈ (t.addSome i segment?).get? (some j), segment ∈ others ++ segment?.toList := by
  intro j hj segment hsegment
  rw [SegmentTable.get?_addSome, Option.mem_def, Option.or_eq_some_iff] at hsegment
  rcases hsegment with hsegment | ⟨-, hsegment⟩
  · exact List.mem_append_left _ (h j hj segment hsegment)
  · split at hsegment
    · rw [hsegment]
      simp
    · cases hsegment

/-- A mapping of the file gets the same in both tables. -/
theorem addPair (h : TablesAlike own held others others' t t') {i : Nat} (hi : own i = true)
    (pair? : Option (η × η')) :
    TablesAlike own (held ++ pair?.toList) others others'
      (t.addSome i (pair?.map (·.1))) (t'.addSome i (pair?.map (·.2))) where
  paired := by
    intro j hj
    rw [SegmentTable.get?_addSome, SegmentTable.get?_addSome]
    rcases h.paired j hj with ⟨hnone, hnone'⟩ | ⟨e, he, hsome, hsome'⟩
    · rw [hnone, hnone', Option.none_or, Option.none_or]
      by_cases hji : j = i
      · rw [if_pos hji, if_pos hji]
        cases pair? with
        | none => exact .inl ⟨rfl, rfl⟩
        | some pair => exact .inr ⟨pair, by simp, rfl, rfl⟩
      · rw [if_neg hji, if_neg hji]
        exact .inl ⟨rfl, rfl⟩
    · rw [hsome, hsome']
      exact .inr ⟨e, List.mem_append_left _ he, rfl, rfl⟩
  left := mem_others_of_own h.left hi _
  right := mem_others_of_own h.right hi _

/-- A mapping of another file gets what it gets in each table. -/
theorem addOther (h : TablesAlike own held others others' t t') {i : Nat} (hi : own i = false)
    (segment? : Option η) (segment?' : Option η') :
    TablesAlike own held (others ++ segment?.toList) (others' ++ segment?'.toList)
      (t.addSome i segment?) (t'.addSome i segment?') where
  paired := by
    intro j hj
    have hji : j ≠ i := ne_of_apply_ne own (by simp [hi, hj])
    rw [SegmentTable.get?_addSome, SegmentTable.get?_addSome, if_neg hji, if_neg hji,
      Option.or_none, Option.or_none]
    exact h.paired j hj
  left := mem_others_append h.left i _
  right := mem_others_append h.right i _

end TablesAlike

variable [Label τ] {force : Bool} {p : ProfileOf τ}

/-! ## opening -/

namespace SegmentTable

/-- A mapping of another file gets a segment or none, on one side. -/
theorem spared_openMapping {inspector : Inspector ω η} {J : List η → ω → Prop}
    (h : inspector.Spares file J) {m : MappingOf τ} {name : String} (hname : name ≠ file)
    {env after : Env ω} {segment? : Option η}
    (hrun : (openMapping inspector m name).run env = (.ok segment?, after))
    (hJ : J others env.world) : J (others ++ segment?.toList) after.world := by
  have hopened := h.openRegion others (m.region name) hname env hJ
  rw [openMapping_run] at hrun
  cases hopen : (inspector.openRegion (m.region name)).run env with
  | mk r opened =>
      rw [hopen] at hrun hopened
      cases r with
      | error fault =>
          cases fault <;> cases hrun
          rw [Option.toList_none, List.append_nil]
          exact hopened
      | ok segment =>
          simp only at hrun
          split at hrun
          · have hclosed := h.close others segment []
              (opened.noting [.buildIdMismatch (PathName.baseNameString name)]) hopened
            split at hrun
            · rename_i hclose
              rw [hclose] at hclosed
              cases hrun
              simpa using hclosed
            · cases hrun
          · cases hrun
            exact hopened

/-- A mapping of the file gets the same on both sides. -/
theorem alike_openMapping (h : A.AlikeOn B file I) {m : MappingOf τ} {name : String}
    (hname : name = file) {env after : Env ω} {env' after' : Env ω'} {segment? : Option η}
    {segment?' : Option η'} (hrun : (openMapping A m name).run env = (.ok segment?, after))
    (hrun' : (openMapping B m name).run env' = (.ok segment?', after'))
    (hI : I held others others' env.world env'.world) :
    ∃ pair? : Option (η × η'), segment? = pair?.map (·.1) ∧ segment?' = pair?.map (·.2) ∧
      I (held ++ pair?.toList) others others' after.world after'.world := by
  have hopened := h.openRegion held others others' (m.region name) hname env env' hI
  rw [openMapping_run] at hrun hrun'
  cases hopen : (A.openRegion (m.region name)).run env with
  | mk r opened =>
  cases hopen' : (B.openRegion (m.region name)).run env' with
  | mk r' opened' =>
  rw [hopen] at hrun hopened
  rw [hopen'] at hrun' hopened
  cases r with
  | error fault =>
      cases r' with
      | ok segment' => exact hopened.elim
      | error fault' =>
          obtain ⟨rfl, hI⟩ := hopened
          cases fault <;> cases hrun
          cases hrun'
          exact ⟨none, rfl, rfl, by simpa using hI⟩
  | ok segment =>
      cases r' with
      | error fault' => exact hopened.elim
      | ok segment' =>
          obtain ⟨hbuildId, hI⟩ := hopened
          simp only [hbuildId] at hrun hrun'
          split at hrun
          · rename_i hmismatch
            rw [if_pos hmismatch] at hrun'
            split at hrun
            · rename_i hclose
              split at hrun'
              · rename_i hclose'
                cases hrun
                cases hrun'
                have hclosed := h.close held (segment, segment') [] others others' _ _ _ _
                  hclose hclose' hI
                exact ⟨none, rfl, rfl, hclosed⟩
              · cases hrun'
            · cases hrun
          · rename_i hmatch
            rw [if_neg hmatch] at hrun'
            cases hrun
            cases hrun'
            exact ⟨some (segment, segment'), rfl, rfl, hI⟩

/-- Mappings have their turns side by side. -/
theorem alike_openEach (h : A.AlikeOn B file I) {rest : List (MappingOf τ × Nat)}
    (hrest : ∀ e ∈ rest, p.mappings[e.2]? = some e.1) {env after : Env ω} {env' after' : Env ω'}
    {t₁ : SegmentTable η} {t₁' : SegmentTable η'}
    (hrun : openEach A force p t rest env = ((t₁, .ok ()), after))
    (hrun' : openEach B force p t' rest env' = ((t₁', .ok ()), after'))
    (ht : TablesAlike (p.showsFile file) held others others' t t')
    (hI : I held others others' env.world env'.world) :
    ∃ held others others', TablesAlike (p.showsFile file) held others others' t₁ t₁' ∧
      I held others others' after.world after'.world := by
  induction rest generalizing t t' env env' held others others' with
  | nil =>
      cases hrun
      cases hrun'
      exact ⟨_, _, _, ht, hI⟩
  | cons entry rest ih =>
      obtain ⟨m, i⟩ := entry
      rw [List.forall_mem_cons] at hrest
      by_cases hpassed : (p.standing force i m).IsPassed
      · rw [openEach_of_passed hpassed] at hrun hrun'
        exact ih hrest.2 hrun hrun' ht hI
      · cases hstanding : p.standing force i m with
        | candidate name =>
            obtain ⟨-, -, htext, -, -⟩ := (p.standing_eq_candidate force i m name).mp hstanding
            have hown : p.showsFile file i = (name == file) := by
              rw [ProfileOf.showsFile, hrest.1]
              simp [Label.isText, htext]
            rw [openEach_of_candidate hstanding] at hrun hrun'
            cases hopen : (openMapping A m name).run env with
            | mk r opened =>
            cases hopen' : (openMapping B m name).run env' with
            | mk r' opened' =>
            rw [hopen] at hrun
            rw [hopen'] at hrun'
            cases r with
            | error fault => cases hrun
            | ok segment? =>
            cases r' with
            | error fault => cases hrun'
            | ok segment?' =>
            by_cases hname : name = file
            · obtain ⟨pair?, rfl, rfl, hI⟩ := alike_openMapping h hname hopen hopen' hI
              exact ih hrest.2 hrun hrun' (ht.addPair (by simpa [hown] using hname) pair?) hI
            · have hleft := spared_openMapping (h.left held others' env'.world) hname hopen hI
              have hright := spared_openMapping (h.right held _ opened.world) hname hopen' hleft
              refine ih hrest.2 hrun hrun' (ht.addOther ?_ segment? segment?') hright
              simpa [hown] using hname
        | misnamed kind =>
            rw [openEach, hstanding] at hrun
            cases hrun
        | _ =>
            rw [hstanding] at hpassed
            exact absurd trivial hpassed

end SegmentTable

/-! ## looking up in advance -/

namespace LocalPass

/-- Segments have looked up in advance one after another, as far as mappings have any, from a world
to another. -/
inductive Readies (inspector : Inspector ω η) (p : ProfileOf τ) (t : SegmentTable η) :
    Env ω → List Nat → Env ω → Prop where
  /-- No mapping is left. -/
  | nil {env : Env ω} : Readies inspector p t env [] env
  /-- The mapping has no segment. -/
  | closed {env after : Env ω} {i : Nat} {rest : List Nat} (hclosed : t.get? (some i) = none)
      (hrest : Readies inspector p t env rest after) : Readies inspector p t env (i :: rest) after
  /-- The addresses are looked up. -/
  | done {env env' after : Env ω} {i : Nat} {rest : List Nat} {segment : η}
      (hopen : t.get? (some i) = some segment)
      (hprefetch : (inspector.prefetch segment (p.addressesIn i)).run env = (.ok (), env'))
      (hrest : Readies inspector p t env' rest after) : Readies inspector p t env (i :: rest) after
  /-- Looking them up fails, which is noted. -/
  | failed {env env' after : Env ω} {i : Nat} {rest : List Nat} {segment : η} {cause : LookupFault}
      (hopen : t.get? (some i) = some segment)
      (hprefetch : (inspector.prefetch segment (p.addressesIn i)).run env =
        (.error (.lookup cause), env'))
      (hrest : Readies inspector p t (env'.noting [.batchFailed (p.fileAt i) (.lookup cause)])
        rest after) :
      Readies inspector p t env (i :: rest) after

/-- A prefetch that returns has readied the segments in its order. -/
theorem readies_of_prefetchEach {inspector : Inspector ω η} {order : List Nat}
    {env after : Env ω}
    (h : (prefetchEach inspector p t order).run env = (.ok (), after)) :
    Readies inspector p t env order after := by
  induction order generalizing env with
  | nil =>
      cases h
      exact .nil
  | cons i rest ih =>
      unfold prefetchEach at h
      cases hget : t.get? (some i) with
      | none =>
          rw [hget] at h
          exact .closed hget (ih h)
      | some segment =>
          rw [hget, Option.bind_some] at h
          cases hcan : inspector.prefetch? segment with
          | none =>
              have hnothing : inspector.prefetch segment (p.addressesIn i) = pure () := by
                rw [Inspector.prefetch, hcan]
              rw [hcan] at h
              exact .done hget (by rw [hnothing]; rfl) (ih h)
          | some prefetch =>
              have hprefetch : inspector.prefetch segment (p.addressesIn i) =
                  prefetch (p.addressesIn i) := by
                rw [Inspector.prefetch, hcan]
              rw [hcan] at h
              simp only [Act.run_bind_apply, Act.run_tryCatch_apply] at h
              cases hrun : (prefetch (p.addressesIn i)).run env with
              | mk r env' =>
                  rw [hrun] at h
                  rw [← hprefetch] at hrun
                  cases r with
                  | ok _ => exact .done hget hrun (ih h)
                  | error fault =>
                      cases fault <;> first | cases h | exact .failed hget hrun (ih h)

/-- Of several mappings, those in front have their turn first. -/
theorem Readies.of_append {inspector : Inspector ω η} {before rest : List Nat}
    {env after : Env ω} (h : Readies inspector p t env (before ++ rest) after) :
    ∃ env', Readies inspector p t env before env' ∧ Readies inspector p t env' rest after := by
  induction before generalizing env with
  | nil => exact ⟨env, .nil, h⟩
  | cons i before ih =>
      cases h with
      | closed hclosed hrest =>
          obtain ⟨env', hbefore, hafter⟩ := ih hrest
          exact ⟨env', .closed hclosed hbefore, hafter⟩
      | done hopen hprefetch hrest =>
          obtain ⟨env', hbefore, hafter⟩ := ih hrest
          exact ⟨env', .done hopen hprefetch hbefore, hafter⟩
      | failed hopen hprefetch hrest =>
          obtain ⟨env', hbefore, hafter⟩ := ih hrest
          exact ⟨env', .failed hopen hprefetch hbefore, hafter⟩

/-- Looking up in other files changes nothing for this one. -/
theorem Readies.spared {inspector : Inspector ω η} {J : List η → ω → Prop}
    (h : inspector.Spares file J) {order : List Nat}
    (hothers : ∀ i ∈ order, ∀ segment ∈ t.get? (some i), segment ∈ others) {env after : Env ω}
    (hreadies : Readies inspector p t env order after) (hJ : J others env.world) :
    J others after.world := by
  induction hreadies with
  | nil => exact hJ
  | closed _ _ ih => exact ih (fun i hi => hothers i (List.mem_cons_of_mem _ hi)) hJ
  | @done env _ _ i _ segment hopen hprefetch _ ih =>
      have hkept := h.prefetch others segment (hothers i List.mem_cons_self _ hopen)
        (p.addressesIn i) env hJ
      rw [hprefetch] at hkept
      exact ih (fun i hi => hothers i (List.mem_cons_of_mem _ hi)) hkept
  | @failed env _ _ i _ segment _ hopen hprefetch _ ih =>
      have hkept := h.prefetch others segment (hothers i List.mem_cons_self _ hopen)
        (p.addressesIn i) env hJ
      rw [hprefetch] at hkept
      exact ih (fun i hi => hothers i (List.mem_cons_of_mem _ hi)) hkept

/-- A mapping of the file looks up in advance on both sides. -/
theorem Readies.alike_cons (h : A.AlikeOn B file I)
    (ht : TablesAlike own held others others' t t') {i : Nat} (hi : own i = true)
    {rest rest' : List Nat} {env after : Env ω} {env' after' : Env ω'}
    (hreadies : Readies A p t env (i :: rest) after)
    (hreadies' : Readies B p t' env' (i :: rest') after')
    (hI : I held others others' env.world env'.world) :
    ∃ (next : Env ω) (next' : Env ω'), Readies A p t next rest after ∧
      Readies B p t' next' rest' after' ∧ I held others others' next.world next'.world := by
  rcases ht.paired i hi with ⟨hnone, hnone'⟩ | ⟨e, he, hsome, hsome'⟩
  · cases hreadies with
    | done hopen _ _ => rw [hnone] at hopen; cases hopen
    | failed hopen _ _ => rw [hnone] at hopen; cases hopen
    | closed _ hrest =>
        cases hreadies' with
        | done hopen _ _ => rw [hnone'] at hopen; cases hopen
        | failed hopen _ _ => rw [hnone'] at hopen; cases hopen
        | closed _ hrest' => exact ⟨_, _, hrest, hrest', hI⟩
  · have hends := h.prefetch held others others' e he (p.addressesIn i) env env' hI
    cases hreadies with
    | closed hclosed _ => rw [hsome] at hclosed; cases hclosed
    | done hopen hprefetch hrest =>
        cases hsome.symm.trans hopen
        rw [hprefetch] at hends
        cases hreadies' with
        | closed hclosed _ => rw [hsome'] at hclosed; cases hclosed
        | done hopen' hprefetch' hrest' =>
            cases hsome'.symm.trans hopen'
            rw [hprefetch'] at hends
            exact ⟨_, _, hrest, hrest', hends⟩
        | failed hopen' hprefetch' _ =>
            cases hsome'.symm.trans hopen'
            rw [hprefetch'] at hends
            exact hends.elim
    | failed hopen hprefetch hrest =>
        cases hsome.symm.trans hopen
        rw [hprefetch] at hends
        cases hreadies' with
        | closed hclosed _ => rw [hsome'] at hclosed; cases hclosed
        | done hopen' hprefetch' _ =>
            cases hsome'.symm.trans hopen'
            rw [hprefetch'] at hends
            exact hends.elim
        | failed hopen' hprefetch' hrest' =>
            cases hsome'.symm.trans hopen'
            rw [hprefetch'] at hends
            exact ⟨_, _, hrest, hrest', hends.2⟩

/-- Mappings look up in advance side by side, if those of the file come in the same order. -/
theorem Readies.alike (h : A.AlikeOn B file I) (ht : TablesAlike own held others others' t t')
    {order order' : List Nat} (horder : order.filter own = order'.filter own)
    {env after : Env ω} {env' after' : Env ω'} (hreadies : Readies A p t env order after)
    (hreadies' : Readies B p t' env' order' after')
    (hI : I held others others' env.world env'.world) :
    I held others others' after.world after'.world := by
  have hright {order' : List Nat} {env' after' : Env ω'} (w : ω)
      (hothers : ∀ i ∈ order', ¬ own i = true) (hreadies' : Readies B p t' env' order' after')
      (hI : I held others others' w env'.world) : I held others others' w after'.world := by
    refine hreadies'.spared (h.right held others w) (fun i hi => ht.right i ?_) hI
    simpa using hothers i hi
  -- on the left one mapping at a time; on the right all others up to the next one of the file
  induction order generalizing order' env env' with
  | nil =>
      cases hreadies
      exact hright _ (List.filter_eq_nil_iff.mp horder.symm) hreadies' hI
  | cons i rest ih =>
      by_cases hi : own i = true
      · rw [List.filter_cons_of_pos hi] at horder
        obtain ⟨before, rest', rfl, hbefore, -, hrest⟩ := List.filter_eq_cons_iff.mp horder.symm
        obtain ⟨middle, hfirst, hreadies'⟩ := hreadies'.of_append
        obtain ⟨next, next', hnext, hnext', hI⟩ :=
          alike_cons h ht hi hreadies hreadies' (hright _ hbefore hfirst hI)
        exact ih hrest.symm hnext hnext' hI
      · rw [List.filter_cons_of_neg hi] at horder
        rw [← List.singleton_append] at hreadies
        obtain ⟨middle, hfirst, hreadies⟩ := hreadies.of_append
        refine ih horder hreadies hreadies' ?_
        refine hfirst.spared (h.left held others' env'.world) (fun j hj => ht.left j ?_) hI
        rw [List.mem_singleton.mp hj]
        simpa using hi

end LocalPass

/-! ## the order of looking up in advance -/

omit [Label τ] in
/-- Repetitions may be erased before or after filtering. -/
theorem filter_eraseDups {γ : Type} [BEq γ] [LawfulBEq γ] (q : γ → Bool) (xs : List γ) :
    xs.eraseDups.filter q = (xs.filter q).eraseDups := by
  match xs with
  | [] => rfl
  | x :: rest =>
      rw [List.eraseDups_cons]
      by_cases hx : q x = true
      · rw [List.filter_cons_of_pos hx, List.filter_cons_of_pos hx, filter_eraseDups q,
          List.eraseDups_cons, List.filter_comm]
      · have hrest : (rest.filter fun y => !y == x).filter q = rest.filter q := by
          rw [List.filter_filter]
          refine List.filter_congr fun y _ => ?_
          by_cases hy : y = x
          · rw [hy, Bool.eq_false_iff.mpr hx, Bool.false_and]
          · simp [hy]
        rw [List.filter_cons_of_neg hx, List.filter_cons_of_neg hx, filter_eraseDups q, hrest]
termination_by xs.length
decreasing_by all_goals exact Nat.lt_succ_of_le (List.length_filter_le ..)

omit [Label τ] in
/-- The mappings of the file have segments in the same order. -/
theorem TablesAlike.segmentOrder_eq (h : TablesAlike own held others others' t t')
    (p : ProfileOf τ) : (p.segmentOrder t).filter own = (p.segmentOrder t').filter own := by
  have hcontains : ∀ i, own i = true → t.contains i = t'.contains i := by
    intro i hi
    rcases h.paired i hi with ⟨hnone, hnone'⟩ | ⟨_, -, hsome, hsome'⟩
    · rw [SegmentTable.contains, SegmentTable.contains, hnone, hnone']
      rfl
    · rw [SegmentTable.contains, SegmentTable.contains, hsome, hsome']
      rfl
  rw [ProfileOf.segmentOrder, ProfileOf.segmentOrder, filter_eraseDups, filter_eraseDups,
    List.filter_filterMap, List.filter_filterMap]
  refine congrArg _ (List.filterMap_congr fun l _ => ?_)
  cases l.mapping with
  | none => rfl
  | some i =>
      by_cases hi : own i = true
      · rw [Option.filter_some, Option.filter_some, hcontains i hi]
      · have hnone (q : Nat → Bool) : (Option.filter q (some i)).filter own = none := by
          rw [Option.filter_some]
          split
          · rw [Option.filter_some, if_neg hi]
          · rfl
        rw [hnone, hnone]

/-! ## looking up -/

namespace LocalPass

/-- Looking up a location of another file changes nothing for this one. -/
theorem Finds.spared_cons {inspector : Inspector ω η} {J : List η → ω → Prop}
    (h : inspector.Spares file J) {l : Location}
    (hothers : ∀ segment ∈ t.get? l.mapping, segment ∈ others) {rest : List Location}
    {env : Env ω} {found : List (List Frame)} (hfinds : Finds inspector p t env (l :: rest) found)
    (hJ : J others env.world) :
    ∃ frames found₁ next, found = frames :: found₁ ∧ Finds inspector p t next rest found₁ ∧
      J others next.world := by
  cases hfinds with
  | closed _ hrest => exact ⟨_, _, _, rfl, hrest, hJ⟩
  | answered hopen hlookup hrest =>
      have hkept := h.lookup others _ (hothers _ hopen) l.address env hJ
      rw [hlookup] at hkept
      exact ⟨_, _, _, rfl, hrest, hkept⟩
  | failed hopen hlookup hrest =>
      have hkept := h.lookup others _ (hothers _ hopen) l.address env hJ
      rw [hlookup] at hkept
      exact ⟨_, _, _, rfl, hrest, hkept⟩

/-- For a location of the file the same is found on both sides. -/
theorem Finds.alike_cons (h : A.AlikeOn B file I)
    (ht : TablesAlike own held others others' t t') {l : Location} {i : Nat}
    (hl : l.mapping = some i) (hi : own i = true) {rest : List Location} {env : Env ω}
    {env' : Env ω'} {found found' : List (List Frame)}
    (hfinds : Finds A p t env (l :: rest) found) (hfinds' : Finds B p t' env' (l :: rest) found')
    (hI : I held others others' env.world env'.world) :
    ∃ frames found₁ found₁' next next', found = frames :: found₁ ∧ found' = frames :: found₁' ∧
      Finds A p t next rest found₁ ∧ Finds B p t' next' rest found₁' ∧
        I held others others' next.world next'.world := by
  rcases ht.paired i hi with ⟨hnone, hnone'⟩ | ⟨e, he, hsome, hsome'⟩
  · rw [← hl] at hnone hnone'
    cases hfinds with
    | answered hopen _ _ => rw [hnone] at hopen; cases hopen
    | failed hopen _ _ => rw [hnone] at hopen; cases hopen
    | closed _ hrest =>
        cases hfinds' with
        | answered hopen _ _ => rw [hnone'] at hopen; cases hopen
        | failed hopen _ _ => rw [hnone'] at hopen; cases hopen
        | closed _ hrest' => exact ⟨_, _, _, _, _, rfl, rfl, hrest, hrest', hI⟩
  · rw [← hl] at hsome hsome'
    have hends := h.lookup held others others' e he l.address env env' hI
    cases hfinds with
    | closed hclosed _ => rw [hsome] at hclosed; cases hclosed
    | answered hopen hlookup hrest =>
        cases hsome.symm.trans hopen
        rw [hlookup] at hends
        cases hfinds' with
        | closed hclosed _ => rw [hsome'] at hclosed; cases hclosed
        | answered hopen' hlookup' hrest' =>
            cases hsome'.symm.trans hopen'
            rw [hlookup'] at hends
            obtain ⟨rfl, hI⟩ := hends
            exact ⟨_, _, _, _, _, rfl, rfl, hrest, hrest', hI⟩
        | failed hopen' hlookup' _ =>
            cases hsome'.symm.trans hopen'
            rw [hlookup'] at hends
            exact hends.elim
    | failed hopen hlookup hrest =>
        cases hsome.symm.trans hopen
        rw [hlookup] at hends
        cases hfinds' with
        | closed hclosed _ => rw [hsome'] at hclosed; cases hclosed
        | answered hopen' hlookup' _ =>
            cases hsome'.symm.trans hopen'
            rw [hlookup'] at hends
            exact hends.elim
        | failed hopen' hlookup' hrest' =>
            cases hsome'.symm.trans hopen'
            rw [hlookup'] at hends
            exact ⟨_, _, _, _, _, rfl, rfl, hrest, hrest', hends.2⟩

/-- Locations are looked up side by side: for those of the file the same is found. -/
theorem Finds.alike (h : A.AlikeOn B file I) (ht : TablesAlike own held others others' t t')
    {locations : List Location} {env : Env ω} {env' : Env ω'} {found found' : List (List Frame)}
    (hfinds : Finds A p t env locations found) (hfinds' : Finds B p t' env' locations found')
    (hI : I held others others' env.world env'.world) {k : Nat} {l : Location}
    (hk : locations[k]? = some l) {i : Nat} (hl : l.mapping = some i) (hi : own i = true) :
    found[k]? = found'[k]? := by
  induction locations generalizing env env' found found' k with
  | nil => cases hk
  | cons first rest ih =>
      by_cases hfirst : ∃ i, first.mapping = some i ∧ own i = true
      · obtain ⟨j, hj, hown⟩ := hfirst
        obtain ⟨frames, _, _, _, _, rfl, rfl, hrest, hrest', hI⟩ :=
          alike_cons h ht hj hown hfinds hfinds' hI
        cases k with
        | zero => rfl
        | succ k => exact ih hrest hrest' hI hk
      · have hother (j : Nat) (hj : first.mapping = some j) : own j = false := by
          simpa [hj] using hfirst
        have hothers : ∀ segment ∈ t.get? first.mapping, segment ∈ others := by
          cases hmapping : first.mapping with
          | none => nofun
          | some j => exact ht.left j (hother j hmapping)
        have hothers' : ∀ segment ∈ t'.get? first.mapping, segment ∈ others' := by
          cases hmapping : first.mapping with
          | none => nofun
          | some j => exact ht.right j (hother j hmapping)
        obtain ⟨_, _, next, rfl, hrest, hI⟩ :=
          hfinds.spared_cons (h.left held others' env'.world) hothers hI
        obtain ⟨_, _, _, rfl, hrest', hI⟩ :=
          hfinds'.spared_cons (h.right held others next.world) hothers' hI
        cases k with
        | zero => cases hk; exact absurd ⟨i, hl, hi⟩ hfirst
        | succ k => exact ih hrest hrest' hI hk

/-- Passes that begin alike find the same for the locations of the file. -/
theorem Completed.alike (h : A.AlikeOn B file I) {env : Env ω} {env' : Env ω'}
    {found found' : List (List Frame)} (hcompleted : Completed A force p env t found)
    (hcompleted' : Completed B force p env' t' found') (hI : I [] [] [] env.world env'.world)
    {k : Nat}
    {l : Location} (hk : p.locations[k]? = some l) {i : Nat} (hl : l.mapping = some i)
    (hi : p.showsFile file i = true) : found[k]? = found'[k]? := by
  obtain ⟨opened, ready, hopen, hprefetch, hfinds⟩ := hcompleted
  obtain ⟨opened', ready', hopen', hprefetch', hfinds'⟩ := hcompleted'
  obtain ⟨turned, hopens, hworld⟩ := SegmentTable.opens_world_of_ofProfile hopen
  obtain ⟨turned', hopens', hworld'⟩ := SegmentTable.opens_world_of_ofProfile hopen'
  have hmappings : ∀ e ∈ p.mappings.zipIdx, p.mappings[e.2]? = some e.1 := fun e he =>
    List.mk_mem_zipIdx_iff_getElem?.mp he
  obtain ⟨held, others, others', ht, hI⟩ := SegmentTable.alike_openEach h hmappings
    (SegmentTable.opens_iff.mp hopens) (SegmentTable.opens_iff.mp hopens') .nil hI
  rw [← hworld, ← hworld'] at hI
  have hready := (readies_of_prefetchEach hprefetch).alike h ht (ht.segmentOrder_eq p)
    (readies_of_prefetchEach hprefetch') hI
  exact hfinds.alike h ht hfinds' hready hk hl hi

end LocalPass

end Symbolication
