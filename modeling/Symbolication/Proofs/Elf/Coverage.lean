import Symbolication.Proofs.Elf.History

/-!
# Symbolication.Proofs.Elf.Coverage

The runs of the tool that a local pass needs.  What a segment knows was asked about, so
when the lookups of a pass have come to their end there was a run for every location
whose segment asks the tool, in advance or at its turn:

* `recording` — the inspector, with a record of the tool's runs;
* `Ready`, `carries_ready` — the invariant: the segments in hand are open, and there was a run for
  all that they know;
* `covered_lookup` — one location;
* `covered_gather` — all of them.
-/

namespace Symbolication

open Number

variable {ω τ : Type}

/-! ## runs -/

namespace ToolRun

/-- The run is about an address in a segment. -/
def Covers (tool : String) (s : Elf.Segment) (a : Int) (run : ToolRun) : Prop :=
  ∃ asked, run.command = Answers.command (some tool) s.path asked ∧ a ∈ asked

/-- A run that covers an address has its numeral among the operands. -/
theorem Covers.hex_mem {tool : String} {s : Elf.Segment} {a : Int} {run : ToolRun}
    (h : run.Covers tool s a) : hex a ∈ run.operands := by
  obtain ⟨asked, hcommand, ha⟩ := h
  exact (isAbout_iff hcommand).mpr ha

end ToolRun

namespace Elf

open Workshop

variable {files : Files ω} {tools : ToolRunner ω} {tool : String}

/-- The inspector, with a record of the tool's runs. -/
abbrev recording (files : Files ω) (tools : ToolRunner ω) (tool : String) :
    Inspector (Workshop (Watched ω (List ToolRun))) Segment :=
  inspector files.watched tools.watched (some tool)

/-! ## the invariant -/

/-- There was a run about an address in a segment. -/
def Covered (tool : String) (s : Segment) (a : Int) (w : Workshop (Watched ω (List ToolRun))) :
    Prop :=
  ∃ run ∈ w.outside.seen, run.Covers tool s a

/-- A segment is open; if it asks the tool, there was a run for all that it knows. -/
def IsReady (tool : String) (s : Segment) (w : Workshop (Watched ω (List ToolRun))) : Prop :=
  ∃ object, w.segment? s.number = some object ∧
    (s.fast = false → ∀ a, object.memo.Knows a → Covered tool s a w)

/-- The segments in hand are ready, and no two of them, nor the next one, have the same number. -/
structure Ready (tool : String) (held : List Segment) (w : Workshop (Watched ω (List ToolRun))) :
    Prop where
  nodup : (held.map (·.number)).Nodup
  lt : ∀ s ∈ held, s.number < w.asked
  isReady : ∀ s ∈ held, IsReady tool s w

section

variable {w w' : Workshop (Watched ω (List ToolRun))} {s : Segment} {a : Int}

/-- An address stays covered as more runs are recorded. -/
theorem Covered.mono (h : Covered tool s a w) (hseen : w.outside.seen ⊆ w'.outside.seen) :
    Covered tool s a w' := by
  obtain ⟨run, hrun, hcovers⟩ := h
  exact ⟨run, hseen hrun, hcovers⟩

/-- Nothing happens to a segment while others are used. -/
theorem IsReady.mono (h : IsReady tool s w) (hsegment : w'.segment? s.number = w.segment? s.number)
    (hseen : w.outside.seen ⊆ w'.outside.seen) : IsReady tool s w' := by
  obtain ⟨object, hopen, hcovered⟩ := h
  exact ⟨object, hsegment.trans hopen, fun hfast a ha => (hcovered hfast a ha).mono hseen⟩

end

namespace Ready

variable {held : List Segment} {w w' : Workshop (Watched ω (List ToolRun))} {s : Segment}

/-- With no segment held, nothing needs to be ready. -/
theorem nil : Ready tool [] w :=
  ⟨.nil, List.forall_mem_nil _, List.forall_mem_nil _⟩

/-- What is ready stays so if the segments held are untouched and nothing is taken back from the
record. -/
theorem mono (h : Ready tool held w)
    (hsegments : ∀ s ∈ held, w'.segment? s.number = w.segment? s.number)
    (hasked : w.asked ≤ w'.asked) (hseen : w.outside.seen ⊆ w'.outside.seen) :
    Ready tool held w' where
  nodup := h.nodup
  lt s hs := Nat.lt_of_lt_of_le (h.lt s hs) hasked
  isReady s hs := (h.isReady s hs).mono (hsegments s hs) hseen

/-- A segment that is opened under the next number is one more. -/
theorem append (h : Ready tool held w) (hs : IsReady tool s w)
    (hnext : ∀ u ∈ held, u.number < s.number) (hlt : s.number < w.asked) :
    Ready tool (held ++ [s]) w where
  nodup := by
    rw [List.map_append, List.nodup_append]
    refine ⟨h.nodup, List.nodup_singleton _, fun a ha b hb => ?_⟩
    obtain ⟨u, hu, rfl⟩ := List.mem_map.mp ha
    rw [List.mem_singleton.mp hb]
    exact Nat.ne_of_lt (hnext u hu)
  lt := List.forall_mem_append.mpr ⟨h.lt, List.forall_mem_singleton.mpr hlt⟩
  isReady := List.forall_mem_append.mpr ⟨h.isReady, List.forall_mem_singleton.mpr hs⟩

/-- A use of a segment leaves the others as they are. -/
theorem after (h : Ready tool held w) (hmem : s ∈ held) (hs : IsReady tool s w')
    (hothers : ∀ number ≠ s.number, w'.segment? number = w.segment? number)
    (hasked : w'.asked = w.asked) (hseen : w.outside.seen ⊆ w'.outside.seen) :
    Ready tool held w' where
  nodup := h.nodup
  lt u hu := hasked ▸ h.lt u hu
  isReady u hu := by
    by_cases hnumber : u.number = s.number
    · rwa [List.inj_on_of_nodup_map h.nodup hu hmem hnumber]
    · exact (h.isReady u hu).mono (hothers _ hnumber) hseen

/-- A segment that is closed is one less. -/
theorem drop {before after : List Segment} (h : Ready tool (before ++ s :: after) w) :
    Ready tool (before ++ after) (w.dropSegment s.number) := by
  have hmem {u : Segment} (hu : u ∈ before ++ after) : u ∈ before ++ s :: after := by
    simp only [List.mem_append, List.mem_cons] at hu ⊢
    tauto
  have hnodup := h.nodup
  rw [List.map_append, List.map_cons, List.nodup_middle, ← List.map_append] at hnodup
  obtain ⟨hnotin, hnodup⟩ := List.nodup_cons.mp hnodup
  refine ⟨hnodup, fun u hu => h.lt u (hmem hu), fun u hu => ?_⟩
  refine (h.isReady u (hmem hu)).mono ?_ (List.Subset.refl _)
  rw [Workshop.segment?_dropSegment, if_neg]
  exact fun hnumber => hnotin (hnumber ▸ List.mem_map_of_mem hu)

end Ready

/-! ### opening -/

/-- A segment is opened beside those held, which stay ready. -/
theorem meets_openNext (held : List Segment) (region : Region) :
    Act.Meets (Ready tool held) (openNext (ω := Watched ω (List ToolRun)) files.watched region)
      (fun s => Ready tool (held ++ [s])) (fun _ => Ready tool held) := by
  intro env hready
  rw [run_openNext_apply]
  have hkeeps : Act.Keeps (fun outside => outside.seen = env.world.outside.seen)
      (openSegment (ω := Watched ω (List ToolRun)) files.watched env.world.asked env.world.fast
        region) :=
    keeps_openSegment (fun _ _ hw => hw) _ _ _
  have hseen := Act.keeps_run hkeeps { world := env.world.outside, notices := env.notices } rfl
  generalize hrun : (openSegment files.watched env.world.asked env.world.fast region).run
    { world := env.world.outside, notices := env.notices } = opened at hseen ⊢
  obtain ⟨r, env'⟩ := opened
  have hsubset : env.world.outside.seen ⊆ env'.world.seen := fun run hrun => hseen.symm ▸ hrun
  cases r with
  | error fault => exact hready.mono (fun _ _ => rfl) (Nat.le_succ _) hsubset
  | ok s =>
      have hnumber := (fields_of_openSegment hrun).1
      have hnext : ∀ u ∈ held, u.number < s.number := hnumber ▸ hready.lt
      refine Ready.append (hready.mono (fun u hu => ?_) (Nat.le_succ _) hsubset)
        ⟨{}, ?_, fun _ a ha => ?_⟩ hnext ?_
      · exact (segment?_putSegment ..).trans (if_neg (Nat.ne_of_lt (hnext u hu)))
      · exact (segment?_putSegment ..).trans (if_pos rfl)
      · obtain ⟨frames, ⟨⟩⟩ := ha
      · rw [hnumber]
        exact Nat.lt_succ_self _

/-! ### asking -/

section

variable {s : Segment} {object : OpenObject}
  {env : Env (Workshop (Watched ω (List ToolRun)))}

/-- What a segment knows after a use there was a run for. -/
theorem isReady_of_takes {use : Segment.Use}
    {r : Except Symbolication.Fault (List Frame) × Env (Workshop (Watched ω (List ToolRun)))}
    {runs : List ToolRun} {memo : FrameMemo} {ended : Except Symbolication.Fault Unit}
    (htakes : Segment.Takes tool s use object env r runs memo ended)
    (hcovered : ∀ a, object.memo.Knows a → Covered tool s a env.world) :
    IsReady tool s r.2.world := by
  refine ⟨_, htakes.segment, fun _ a ha => ?_⟩
  rcases htakes.asks.knows_iff.mp ha with hknown | ⟨run, hrun, -, habout⟩
  · exact (hcovered a hknown).mono (htakes.seen ▸ List.subset_append_left _ _)
  · obtain ⟨batch, -, hcommand⟩ := htakes.asks.exists_batch hrun
    refine ⟨run, htakes.seen ▸ List.mem_append_right _ hrun, batch, hcommand, ?_⟩
    exact (ToolRun.isAbout_iff hcommand).mp habout

/-- There was a run about the address of a lookup, if not before then for it. -/
theorem covered_of_takes {address : Int}
    {r : Except Symbolication.Fault (List Frame) × Env (Workshop (Watched ω (List ToolRun)))}
    {runs : List ToolRun} {memo : FrameMemo} {ended : Except Symbolication.Fault Unit}
    (htakes : Segment.Takes tool s (.lookup address) object env r runs memo ended)
    (hcovered : ∀ a, object.memo.Knows a → Covered tool s a env.world) :
    Covered tool s (s.objectAddress address) r.2.world := by
  by_cases hknown : object.memo.Knows (s.objectAddress address)
  · exact (hcovered _ hknown).mono (htakes.seen ▸ List.subset_append_left _ _)
  · have hasks := htakes.asks
    rw [Segment.batchesFor, if_neg (by rwa [Option.isSome_iff_exists])] at hasks
    obtain ⟨run, hrun, hcommand⟩ := hasks.exists_first
    exact ⟨run, htakes.seen ▸ List.mem_append_right _ hrun, _, hcommand, List.mem_cons_self⟩

variable {held : List Segment}

/-- Using one of the segments held leaves all of them ready. -/
theorem keeps_answerTo (hmem : s ∈ held) (hfast : s.fast = false) (use : Segment.Use) :
    Step.Keeps (Ready tool held) (s.answerTo tools.watched (some tool) use).run := by
  intro env hready
  obtain ⟨object, hopen, hcovered⟩ := hready.isReady s hmem
  obtain ⟨runs, memo, ended, htakes⟩ := Segment.takes_answerTo hfast hopen tools tool use
  exact hready.after hmem (isReady_of_takes htakes (hcovered hfast)) htakes.others htakes.asked
    (htakes.seen ▸ List.subset_append_left _ _)

/-- What becomes of a segment that is looked at in the faster way does not matter. -/
theorem Ready.putSegment {w : Workshop (Watched ω (List ToolRun))} (h : Ready tool held w)
    (hmem : s ∈ held) (hfast : s.fast = true) (object : OpenObject) :
    Ready tool held (w.putSegment s.number object) := by
  refine h.after hmem ⟨object, ?_, fun hslow => ?_⟩ (fun number hne => ?_) rfl
    (List.Subset.refl _)
  · rw [segment?_putSegment, if_pos rfl]
  · rw [hfast] at hslow
    cases hslow
  · rw [segment?_putSegment, if_neg hne]

end

/-- The segments in hand stay ready, whatever is done with them. -/
theorem carries_ready (files : Files ω) (tools : ToolRunner ω) (tool : String) :
    (recording files tools tool).Carries (Ready tool) where
  openRegion := meets_openNext
  lookup held s hmem address := by
    cases hfast : s.fast with
    | false => exact Act.keeps_of_run (keeps_answerTo hmem hfast (.lookup address))
    | true =>
        refine Segment.keeps_lookup (fun object _ hw => hw.putSegment hmem hfast object) ?_
        rw [hfast]
        exact nofun
  prefetch held s hmem prefetch hprefetch addresses := by
    rw [← Option.some.inj hprefetch]
    cases hfast : s.fast with
    | false =>
        refine Act.keeps_of_run fun env hready => ?_
        rw [← Segment.run_answerTo_prefetch_snd]
        exact keeps_answerTo hmem hfast (.prefetch addresses) env hready
    | true =>
        refine Segment.keeps_prefetch (fun object _ hw => hw.putSegment hmem hfast object) ?_
        rw [hfast]
        exact nofun
  close _ s _ := Workshop.meets_change fun _ hw => hw.drop

/-! ### a pass -/

section

variable [Label τ] {p : ProfileOf τ} {t : SegmentTable Segment}

/-- Runs that there were stay in the record. -/
theorem carries_covered (files : Files ω) (tools : ToolRunner ω) (tool : String) (s : Segment)
    (a : Int) : (recording files tools tool).Carries fun _ => Covered tool s a := by
  let R (_ : Bool) (outside : Watched ω (List ToolRun)) : Prop :=
    ∃ run ∈ outside.seen, run.Covers tool s a
  have htools (fast : Bool) (command : Command) (outside : Watched ω (List ToolRun))
      (h : R fast outside) : R fast (tools.watched command outside).2 := by
    obtain ⟨run, hrun, hcovers⟩ := h
    exact ⟨run, List.mem_append_left _ hrun, hcovers⟩
  exact carries_inspector files.watched tools.watched (some tool) (R := R) (fun _ _ _ h => h) htools

/-- Looking up a location leaves a run for it behind. -/
theorem covered_lookup {l : Location} {s : Segment} (hget : t.get? l.mapping = some s)
    (hfast : s.fast = false) {env : Env (Workshop (Watched ω (List ToolRun)))}
    (hready : Ready tool t.held env.world) :
    Covered tool s (s.objectAddress l.address)
      ((LocalPass.lookup (recording files tools tool) p t l).run env).2.world := by
  obtain ⟨object, hopen, hcovered⟩ := hready.isReady s (SegmentTable.mem_held hget)
  obtain ⟨runs, memo, ended, htakes⟩ :=
    Segment.takes_answerTo hfast hopen tools tool (.lookup l.address)
  rw [LocalPass.lookup_world_of_open hget]
  exact covered_of_takes htakes (hcovered hfast)

/-- When lookups have come to their end, there was a run for each of them. -/
theorem covered_lookupEach {locations : List Location}
    {env : Env (Workshop (Watched ω (List ToolRun)))} (hready : Ready tool t.held env.world)
    (hended : (LocalPass.lookupEach (recording files tools tool) p t locations env).1.2 = .ok ()) :
    ∀ l ∈ locations, ∀ s ∈ t.get? l.mapping, s.fast = false →
      Covered tool s (s.objectAddress l.address)
        (LocalPass.lookupEach (recording files tools tool) p t locations env).2.world := by
  induction locations generalizing env with
  | nil => exact List.forall_mem_nil _
  | cons l rest ih =>
      cases hlookup : (LocalPass.lookup (recording files tools tool) p t l).run env with
      | mk r env' =>
          cases r with
          | error fault =>
              rw [LocalPass.lookupEach_of_error hlookup] at hended
              cases hended
          | ok frames =>
              rw [LocalPass.lookupEach_of_ok hlookup] at hended ⊢
              have hcovered (s : Segment) (hget : t.get? l.mapping = some s)
                  (hfast : s.fast = false) :
                  Covered tool s (s.objectAddress l.address) env'.world := by
                have h : Covered tool s (s.objectAddress l.address)
                    ((LocalPass.lookup (recording files tools tool) p t l).run env).2.world :=
                  covered_lookup hget hfast hready
                rwa [hlookup] at h
              have hready' : Ready tool t.held env'.world := by
                have h := Act.keeps_run (keeps_lookup_of (p := p) fun s hget =>
                  (carries_ready files tools tool).lookup t.held s (SegmentTable.mem_held hget)
                    l.address) env hready
                rwa [hlookup] at h
              refine List.forall_mem_cons.mpr ⟨fun s hget hfast => ?_, ih hready' hended⟩
              have hcarries := carries_covered files tools tool s (s.objectAddress l.address)
              exact keeps_lookupEach_of (fun _ _ u hu =>
                hcarries.lookup t.held u (SegmentTable.mem_held hu) _) env' (hcovered s hget hfast)

/-- What is gathered takes a run for every location, unless it is broken off. -/
theorem covered_gather {opened : Env (Workshop (Watched ω (List ToolRun)))}
    (hready : Ready tool t.held opened.world)
    (hended : (LocalPass.gather (recording files tools tool) p t opened).1.2 = .ok ()) :
    ∀ l ∈ p.locations, ∀ s ∈ t.get? l.mapping, s.fast = false →
      Covered tool s (s.objectAddress l.address)
        (LocalPass.gather (recording files tools tool) p t opened).2.world := by
  have hcarries := carries_ready files tools tool
  have hprefetches : Act.Keeps (Ready tool t.held)
      (LocalPass.prefetchEach (recording files tools tool) p t (p.segmentOrder t)) :=
    keeps_prefetchEach_of fun i _ s hget prefetch hprefetch =>
      hcarries.prefetch t.held s (SegmentTable.mem_held hget) prefetch hprefetch (p.addressesIn i)
  have hkept := Act.keeps_run hprefetches opened hready
  rw [LocalPass.gather, Step.bind_apply] at hended ⊢
  cases hprefetch : (LocalPass.prefetchEach (recording files tools tool) p t
      (p.segmentOrder t)).run opened with
  | mk r env =>
      rw [hprefetch] at hended hkept
      cases r with
      | error fault => cases hended
      | ok _ => exact covered_lookupEach hkept hended

end

end Elf

end Symbolication
