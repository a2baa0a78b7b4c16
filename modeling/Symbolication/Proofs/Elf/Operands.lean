import Symbolication.Proofs.Elf.Coverage

/-!
# Symbolication.Proofs.Elf.Operands

What the tool is given in the runs of a local pass.  An operand is the address of a
location less the load base of its segment, as it comes.  Nothing sees to it that the
location does not lie below the base, and below it the operand begins with a dash:

* `IsAddressOperand`, `IsOptionLike` — what an operand looks like;
* `ProfileOf.LiesAbove` — no location lies below the base;
* `ToolRun.AsksFor`, `keeps_asksFor` — runs are for locations of a mapping, and for nothing else;
* `operands_symbolizeLocally` — what operands look like in a pass;
* `Segment.batch_fails_below` — one location below the base makes the run for another one fail.
-/

namespace Symbolication

open Number

variable {ω τ : Type}

/-! ## operands -/

/-- The operand is an address, the mark of base sixteen and digits. -/
def IsAddressOperand (operand : String) : Prop :=
  ∃ n, Remote.IsAddress operand.toList n

/-- The operand begins as options do. -/
def IsOptionLike (operand : String) : Prop :=
  operand.toList.head? = some '-'

/-- An operand that is read as an address is not taken for an option. -/
theorem IsAddressOperand.not_isOptionLike {operand : String} (h : IsAddressOperand operand) :
    ¬ IsOptionLike operand := by
  obtain ⟨n, digits, hdigits, -⟩ := h
  simp [IsOptionLike, hdigits]

/-- The numeral of an address looks like an option just if the address is negative. -/
theorem isOptionLike_hex {a : Int} : IsOptionLike (hex a) ↔ a < 0 := by
  rw [IsOptionLike, Listing.toList_hex]
  by_cases ha : a < 0 <;> simp [ha]

/-- The numeral of an address is read as an address just if it is not negative. -/
theorem isAddressOperand_hex {a : Int} : IsAddressOperand (hex a) ↔ 0 ≤ a := by
  constructor
  · intro h
    have hnot := h.not_isOptionLike
    rw [isOptionLike_hex] at hnot
    omega
  · intro ha
    rw [← Int.toNat_of_nonneg ha]
    exact ⟨_, Remote.isAddress_hex _⟩

/-! ## runs -/

/-- No location of a segment that asks the tool lies below the load base. -/
def ProfileOf.LiesAbove (p : ProfileOf τ) (t : SegmentTable Elf.Segment) : Prop :=
  ∀ l ∈ p.locations, ∀ s ∈ t.get? l.mapping, s.fast = false → s.base ≤ l.address

/-- The addresses in a mapping are those of the locations that lie in it. -/
theorem ProfileOf.mem_addressesIn {p : ProfileOf τ} {i : Nat} {a : Int} :
    a ∈ p.addressesIn i ↔ ∃ l ∈ p.locations, l.mapping = some i ∧ l.address = a := by
  simp [addressesIn, and_assoc]

namespace ToolRun

/-- The run is for locations of one mapping, whose segment is not looked at in the faster way. -/
def AsksFor (tool : String) (p : ProfileOf τ) (t : SegmentTable Elf.Segment) (run : ToolRun) :
    Prop :=
  ∃ i, ∃ s ∈ t.get? (some i), s.fast = false ∧ ∃ asked : List Int, asked ≠ [] ∧
    run.command = Answers.command (some tool) s.path asked ∧
      ∀ a ∈ asked, a ∈ (p.addressesIn i).map s.objectAddress

variable {tool : String} {p : ProfileOf τ} {t : SegmentTable Elf.Segment} {run : ToolRun}

/-- Every operand is what comes of a location. -/
theorem AsksFor.exists_location (h : run.AsksFor tool p t) {operand : String}
    (hoperand : operand ∈ run.operands) :
    ∃ l ∈ p.locations, ∃ s ∈ t.get? l.mapping, s.fast = false ∧
      operand = hex (s.objectAddress l.address) := by
  obtain ⟨i, s, hget, hfast, asked, -, hcommand, hasked⟩ := h
  rw [operands_eq hcommand] at hoperand
  obtain ⟨a, ha, rfl⟩ := List.mem_map.mp hoperand
  obtain ⟨address, haddress, rfl⟩ := List.mem_map.mp (hasked a ha)
  obtain ⟨l, hl, hmapping, rfl⟩ := ProfileOf.mem_addressesIn.mp haddress
  exact ⟨l, hl, s, hmapping ▸ hget, hfast, rfl⟩

/-- A run for a profile that lies above its bases has only operands that are addresses. -/
theorem AsksFor.isAddressOperand (h : run.AsksFor tool p t) (habove : p.LiesAbove t)
    {operand : String} (hoperand : operand ∈ run.operands) : IsAddressOperand operand := by
  obtain ⟨l, hl, s, hget, hfast, rfl⟩ := h.exists_location hoperand
  have hle := habove l hl s hget hfast
  rw [isAddressOperand_hex, Elf.Segment.objectAddress]
  omega

/-- If there is a run for every location, there is an operand for each that lies below the base. -/
theorem exists_isOptionLike_iff {runs : List ToolRun} (hasks : ∀ run ∈ runs, run.AsksFor tool p t)
    (hcovers : ∀ l ∈ p.locations, ∀ s ∈ t.get? l.mapping, s.fast = false →
      ∃ run ∈ runs, run.Covers tool s (s.objectAddress l.address)) :
    (∃ run ∈ runs, ∃ operand ∈ run.operands, IsOptionLike operand) ↔ ¬ p.LiesAbove t := by
  constructor
  · rintro ⟨run, hrun, operand, hoperand, hdash⟩ habove
    exact ((hasks run hrun).isAddressOperand habove hoperand).not_isOptionLike hdash
  · intro hbelow
    simp only [ProfileOf.LiesAbove, not_forall, Int.not_le] at hbelow
    obtain ⟨l, hl, s, hget, hfast, hlt⟩ := hbelow
    obtain ⟨run, hrun, hrun'⟩ := hcovers l hl s hget hfast
    refine ⟨run, hrun, _, hrun'.hex_mem, ?_⟩
    rw [isOptionLike_hex, Elf.Segment.objectAddress]
    omega

end ToolRun

namespace Elf

open Workshop

variable {files : Files ω} {tools : ToolRunner ω} {tool : String}

/-! ## there are no other runs -/

/-- Nothing is run while segments are opened and closed. -/
theorem handsOver_unrun (files : Files ω) (tools : ToolRunner ω) (tool : String)
    (runs : List ToolRun) :
    (recording files tools tool).HandsOver fun _ w => w.outside.seen = runs where
  openRegion _ region := by
    have hopen : Act.Keeps (Setting fun _ outside => outside.seen = runs)
        (openNext files.watched region) := keeps_openNext (fun _ _ _ hw => hw) region
    exact hopen
  close _ _ _ := Workshop.meets_change fun _ hw => hw

section

variable [Label τ] {p : ProfileOf τ} {t : SegmentTable Segment}

/-- What is gathered takes no runs but for locations. -/
theorem keeps_asksFor :
    Step.Keeps (fun w => ∀ run ∈ w.outside.seen, run.AsksFor tool p t)
      (LocalPass.gather (recording files tools tool) p t) := by
  have hask {i : Nat} {s : Segment} (hget : s ∈ t.get? (some i)) (hfast : s.fast = false)
      {asked : List Int} (hne : asked ≠ [])
      (hasked : ∀ a ∈ asked, a ∈ (p.addressesIn i).map s.objectAddress) :
      Act.Keeps (fun w => ∀ run ∈ w.outside.seen, run.AsksFor tool p t)
        (outsideAct (Answers.ask tools.watched (some tool) s.path asked)) := by
    refine keeps_outsideAct fun w => Answers.keeps_ask fun outside houtside => ?_
    refine List.forall_mem_append.mpr ⟨houtside, List.forall_mem_singleton.mpr ?_⟩
    exact ⟨i, s, hget, hfast, asked, hne, rfl, hasked⟩
  refine keeps_gather_of (fun i _ s hget prefetch hprefetch => ?_) fun l hl s hget => ?_
  · rw [← Option.some.inj hprefetch]
    exact Segment.keeps_prefetch (fun _ _ hw => hw) fun hfast asked hne hasked =>
      hask hget hfast hne hasked
  · refine Segment.keeps_lookup (fun _ _ hw => hw) fun hfast => ?_
    obtain ⟨i, hi, -⟩ := Option.bind_eq_some_iff.mp hget
    rw [hi] at hget
    refine hask hget hfast (List.cons_ne_nil _ _) (List.forall_mem_singleton.mpr ?_)
    exact List.mem_map_of_mem (ProfileOf.mem_addressesIn.mpr ⟨l, hl, hi, rfl⟩)

/-! ## the pass -/

/-- The runs of a pass that has its segments, and how it ends. -/
theorem runs_run {force : Bool} {env opened : Env (Workshop (Watched ω (List ToolRun)))}
    (hnone : env.world.outside.seen = [])
    (hopen : (SegmentTable.ofProfile (recording files tools tool) force p).run env =
      (.ok t, opened)) :
    let r := LocalPass.run (recording files tools tool) force p env
    (∀ run ∈ r.2.world.outside.seen, run.AsksFor tool p t) ∧
    (r.1.2 = .ok () → ∀ l ∈ p.locations, ∀ s ∈ t.get? l.mapping, s.fast = false →
      Covered tool s (s.objectAddress l.address) r.2.world) := by
  intro r
  have hseen : opened.world.outside.seen = [] := by
    have h := meets_ofProfile (handsOver_unrun files tools tool []) force p env hnone
    rwa [hopen] at h
  have hready : Ready tool t.held opened.world := by
    have h := meets_ofProfile (carries_ready files tools tool).handsOver force p env .nil
    rwa [hopen] at h
  -- Closing the table leaves the record as it is.
  have hclosed : r.2.world.outside.seen =
      (LocalPass.gather (recording files tools tool) p t opened).2.world.outside.seen := by
    rw [LocalPass.run_world_of_ok hopen]
    exact meets_close (handsOver_unrun files tools tool _) p t _ rfl
  constructor
  · rw [hclosed]
    refine keeps_asksFor opened fun run hrun => ?_
    rw [hseen] at hrun
    cases hrun
  · intro hended l hl s hget hfast
    have hgathered := LocalPass.gather_ended_of_run hopen hended
    exact (covered_gather hready hgathered l hl s hget hfast).mono fun run hrun => hclosed ▸ hrun

/-- The pass through the recording inspector enters as the plain one does, seen through the view. -/
theorem entry_recording (fast : Bool) (env : Env (Workshop ω)) :
    ((recording files tools tool).entry fast (env.outsideWatchedFrom [])).through
        (Workshop.through Watched.world) =
      (inspector files tools (some tool)).entry fast env := by
  cases fast <;> rfl

/-- Turning the switch leaves the record as it is. -/
theorem seen_symbolizeLocally (force fast : Bool)
    (env : Env (Workshop (Watched ω (List ToolRun)))) :
    (p.symbolizeLocally (recording files tools tool) force fast env).2.world.outside.seen =
      (LocalPass.run (recording files tools tool) force p
        ((recording files tools tool).entry fast env)).2.world.outside.seen := by
  let P (w : Workshop (Watched ω (List ToolRun))) : Prop :=
    w.outside.seen = (LocalPass.run (recording files tools tool) force p
      ((recording files tools tool).entry fast env)).2.world.outside.seen
  have hswitch : ∀ switch, (recording files tools tool).fastSwitch? = some switch →
      ∀ on, Step.Keeps P (switch.set on) := by
    rintro _ ⟨⟩ on env hw
    exact hw
  exact symbolizeLocally_world hswitch rfl

/-- A local pass runs the tool for locations only, and for all of those whose segments ask the tool,
unless it is broken off. Every operand is the address of a location less the load base. They are all
addresses where no such location lies below the base; a pass that returns has given the tool one
that begins with a dash exactly if there is such a location. -/
theorem operands_symbolizeLocally (files : Files ω) (tools : ToolRunner ω) (tool : String)
    (force fast : Bool) (p : ProfileOf τ) (env : Env (Workshop ω)) :
    let plain := inspector files tools (some tool)
    let pass :=
      p.symbolizeLocally (recording files tools tool) force fast (env.outsideWatchedFrom [])
    let runs := pass.2.world.outside.seen
    p.symbolizeLocally plain force fast env =
        (pass.1, pass.2.through (Workshop.through Watched.world)) ∧
      (∀ fault opened, (SegmentTable.ofProfile plain force p).run (plain.entry fast env) =
        (.error fault, opened) → runs = []) ∧
      ∀ t opened, (SegmentTable.ofProfile plain force p).run (plain.entry fast env) =
          (.ok t, opened) →
        (∀ run ∈ runs, run.AsksFor tool p t) ∧
        (p.LiesAbove t → ∀ run ∈ runs, ∀ operand ∈ run.operands, IsAddressOperand operand) ∧
        (pass.1.2 = .ok () →
          (∀ l ∈ p.locations, ∀ s ∈ t.get? l.mapping, s.fast = false →
            ∃ run ∈ runs, run.Covers tool s (s.objectAddress l.address)) ∧
          ((∃ run ∈ runs, ∃ operand ∈ run.operands, IsOptionLike operand) ↔ ¬ p.LiesAbove t)) := by
  intro plain pass runs
  have hshows : (recording files tools tool).Shows (Workshop.through Watched.world) id plain :=
    shows_inspector files.shows_watched tools.shows_watched (some tool)
  have hruns : runs = (LocalPass.run (recording files tools tool) force p
      ((recording files tools tool).entry fast (env.outsideWatchedFrom []))).2.world.outside.seen :=
    seen_symbolizeLocally ..
  have hnone : ((recording files tools tool).entry fast
      (env.outsideWatchedFrom [])).world.outside.seen = [] := by
    cases fast <;> rfl
  refine ⟨hshows.symbolizeLocally force fast p (env.outsideWatchedFrom []), ?_, ?_⟩
  · intro fault opened hopen
    rw [← entry_recording] at hopen
    obtain ⟨opened', hopen'⟩ := hshows.ofProfile_eq_error hopen
    have hunrun := meets_ofProfile (handsOver_unrun files tools tool []) force p _ hnone
    rw [hopen'] at hunrun
    rw [hruns, LocalPass.run_snd_of_error hopen']
    exact hunrun
  · intro t opened hopen
    rw [← entry_recording] at hopen
    obtain ⟨opened', hopen', -⟩ := hshows.ofProfile_eq_ok hopen
    obtain ⟨hasks, hcovered⟩ := runs_run hnone hopen'
    have hfst : pass.1 = (LocalPass.run (recording files tools tool) force p
        ((recording files tools tool).entry fast (env.outsideWatchedFrom []))).1 :=
      symbolizeLocally_fst ..
    rw [← hruns] at hasks
    refine ⟨hasks, fun habove run hrun _ => (hasks run hrun).isAddressOperand habove,
      fun hended => ?_⟩
    rw [hfst] at hended
    have hcovers : ∀ l ∈ p.locations, ∀ s ∈ t.get? l.mapping, s.fast = false →
        ∃ run ∈ runs, run.Covers tool s (s.objectAddress l.address) := by
      rw [hruns]
      exact hcovered hended
    exact ⟨hcovers, ToolRun.exists_isOptionLike_iff hasks hcovers⟩

end

/-! ### a location below the base -/

namespace Segment

/-- A shared object without segments and sections. -/
def lowObject : List UInt8 :=
  [0x7F, 0x45, 0x4C, 0x46, 2, 1, 1] ++ List.replicate 9 0 ++ [3, 0, 62] ++ List.replicate 45 0

/-- The object, opened for a mapping that begins at 0x1000. -/
def low : Segment :=
  { bare with
    base := 0x1000
    image := {
      bytes := lowObject.toArray, wide := true, littleEndian := true
      header := { bare.image.header with type := .shared } } }

/-- A profile with a location in the mapping, and one with the address 0. -/
def lowProfile : Profile where
  mappings := [{ id := 1, start := 0x1000, limit := 0x2000, file := "/bin/app", buildId := "" }]
  locations :=
    [{ id := 1, address := 0x1010, mapping := some 0 },
      { id := 2, address := 0, mapping := some 0 }]

/-- The segments of a pass over the profile. -/
def lowTable : SegmentTable Segment :=
  { entries := [(0, low)] }

/-- How things are once the pass has its segments. -/
def openedLow (outside : ω) : Env (Workshop ω) where
  world := ({ outside, asked := 1 } : Workshop ω).putSegment 0 {}
  notices := [.objectOpened "/bin/app" 0x1000 "" false, .opened 1 1]

section

variable (hread : ∀ w, files.read "/bin/app" w = (.ok lowObject, w))
include hread

/-- The low object is opened with the base that the region's start and offset give. -/
theorem run_openSegment_low (env : Env ω) :
    (openSegment files 0 false ⟨"/bin/app", 0x1000, 0x2000, 0⟩).run env =
      (.ok low, env.noting [.objectOpened "/bin/app" 0x1000 "" false]) := by
  have hpath : Files.checkPath "/bin/app" = .ok () := by
    simp [Files.checkPath]
  have haccess : (Files.access "/bin/app" files.read).run env = (.ok lowObject, env) := by
    rw [Files.access, hpath]
    change ((files.read "/bin/app" env.world).1.mapError Fault.system,
      { env with world := (files.read "/bin/app" env.world).2 }) = _
    rw [hread]
    rfl
  have hobject : (readObject files "/bin/app").run env = (.ok lowObject, env) := by
    rw [readObject, Act.run_tryCatch_apply, haccess]
  rw [openSegment, Act.run_bind_apply, hobject]
  rfl

/-- The table of the low profile holds the low segment alone. -/
theorem run_ofProfile_low (tools : ToolRunner ω) (outside : ω) :
    (SegmentTable.ofProfile (inspector files tools (some "addr2line")) false lowProfile).run
      { world := { outside } } = (.ok lowTable, openedLow outside) := by
  have hstanding : lowProfile.standing false 0 lowProfile.mappings[0] =
      .candidate "/bin/app" := by
    decide +kernel
  have hopen : (openNext files ⟨"/bin/app", 0x1000, 0x2000, 0⟩).run { world := { outside } } =
      (.ok low,
        ⟨(openedLow outside).world, [.objectOpened "/bin/app" 0x1000 "" false]⟩) := by
    rw [run_openNext_apply, run_openSegment_low hread]
    rfl
  have hopens : SegmentTable.Opens (inspector files tools (some "addr2line")) false lowProfile
      { world := { outside } } {} lowProfile.mappings.zipIdx lowTable
      ⟨(openedLow outside).world, [.objectOpened "/bin/app" 0x1000 "" false]⟩ :=
    .cons (.opened hstanding hopen rfl) .nil
  exact SegmentTable.run_ofProfile_of_opens hopens

end

/-- Files that are all that object. -/
def lowFiles : Files Unit :=
  { bareFiles with read := fun _ w => (.ok lowObject, w) }

/-- A tool that takes what begins with a dash for an option, and knows none. -/
def strict : ToolRunner Unit := fun command w =>
  if (command.arguments.drop 5).any (·.toList.head? == some '-') then
    (.ended 1 "" "invalid option", w)
  else
    (.ended 0 "" "", w)

/-- A pass over the profile, with a record of the runs. -/
def lowPass : (Profile × Except Symbolication.Fault Unit) ×
    Env (Workshop (Watched Unit (List ToolRun))) :=
  lowProfile.symbolizeLocally (recording lowFiles strict "addr2line") false false
    (Env.outsideWatchedFrom [] { world := { outside := () } })

theorem lowPass_eq :
    lowPass = LocalPass.run (recording lowFiles strict "addr2line") false lowProfile
      { world := { outside := { world := (), seen := [] } } } :=
  rfl

theorem run_ofProfile_recordedLow :
    (SegmentTable.ofProfile (recording lowFiles strict "addr2line") false lowProfile).run
      { world := { outside := { world := (), seen := [] } } } =
        (.ok lowTable, openedLow { world := (), seen := [] }) :=
  run_ofProfile_low (fun _ => rfl) _ _

theorem lowPass_ended : lowPass.1.2 = .ok () := by
  refine eq_ok_of_toOption ?_
  rw [lowPass_eq, LocalPass.run_of_ok run_ofProfile_recordedLow]
  decide +kernel

/-- The pass returns, and the location with the address 0 has an operand that begins with a dash. -/
theorem operands_symbolizeLocally_low :
    lowPass.1.2 = .ok () ∧ ¬ lowProfile.LiesAbove lowTable ∧
      ∃ run ∈ lowPass.2.world.outside.seen, ∃ operand ∈ run.operands, IsOptionLike operand := by
  have hbelow : ¬ lowProfile.LiesAbove lowTable := by
    intro habove
    have hle : low.base ≤ 0 :=
      habove { id := 2, address := 0, mapping := some 0 } (by simp [lowProfile]) low rfl rfl
    exact absurd hle (by decide)
  obtain ⟨-, -, hpass⟩ := operands_symbolizeLocally lowFiles strict "addr2line" false false
    lowProfile { world := { outside := () } }
  obtain ⟨-, -, hended⟩ := hpass _ _ (run_ofProfile_low (fun _ => rfl) strict ())
  exact ⟨lowPass_ended, hbelow, (hended lowPass_ended).2.mpr hbelow⟩

/-- The operand of the location with the address 0 is taken for an option, and the run for the other
location in the same batch fails with it. -/
theorem batch_fails_below :
    lowPass.2.world.outside.seen.map (fun run => (run.operands, run.status?)) =
        [(["-0x1000", "0x10"], some 1), (["0x10"], some 0), (["-0x1000"], some 1)] ∧
      IsOptionLike "-0x1000" ∧ ¬ IsAddressOperand "-0x1000" := by
  refine ⟨?_, by simp [IsOptionLike], by simp [IsAddressOperand, Remote.IsAddress]⟩
  rw [lowPass_eq, LocalPass.run_world_of_ok run_ofProfile_recordedLow]
  decide +kernel

end Segment

end Elf

end Symbolication
