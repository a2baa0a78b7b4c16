import Symbolication.Proofs.Json.Writable
import Symbolication.Proofs.Profile.Complaints
import Symbolication.Proofs.Profile.Growth

/-!
# Symbolication.Proofs.Profile.Loaded

What is known of a profile that has been read from a document: records of one kind have
different ids, and references name records.

* `nodup_readRecords` — the ids of records;
* `lt_of_readLine`, `lt_of_readMappingReference`, `lt_of_readLocation` — references;
* `ProfileOf.Unambiguous`, `unambiguous_of_read` — profiles.
-/

namespace Symbolication

/-- References name records, and records of one kind have different ids. -/
structure ProfileOf.Unambiguous {τ : Type} (p : ProfileOf τ) : Prop extends p.Sound where
  mappings_nodup : (p.mappings.map (·.id)).Nodup

namespace Document

/-! ## records -/

section

variable {α : Type} {readAt : Nat → Json → Except Fault α} {idOf : α → Int}
  {duplicate : Int → DocumentFault}

/-- A record can be added to records told apart just if its id is new. -/
theorem nodup_append_singleton {before : List α} {r : α} :
    ((before ++ [r]).map idOf).Nodup ↔ (before.map idOf).Nodup ∧ idOf r ∉ before.map idOf := by
  rw [List.map_append, List.map_singleton, List.nodup_append]
  constructor
  · rintro ⟨hbefore, -, hne⟩
    exact ⟨hbefore, fun hmem => hne _ hmem _ (by simp) rfl⟩
  · rintro ⟨hbefore, hnew⟩
    refine ⟨hbefore, by simp, fun n hn m hm heq => hnew ?_⟩
    rwa [← List.mem_singleton.mp hm, ← heq]

/-- No two records have the same id. -/
theorem nodup_readRecords {before records : List α} {vs : List Json}
    (h : readRecords readAt idOf duplicate before vs = .ok records)
    (hbefore : (before.map idOf).Nodup) : (records.map idOf).Nodup := by
  induction vs generalizing before with
  | nil =>
      cases h
      exact hbefore
  | cons v rest ih =>
      rw [readRecords_cons] at h
      obtain ⟨r, -, h⟩ := bind_eq_ok.mp h
      split at h
      · cases h
      · rename_i hnew
        exact ih h (nodup_append_singleton.mpr ⟨hbefore, hnew⟩)

end

/-! ## references -/

/-- A reference that is read names a mapping of the profile. -/
theorem lt_of_readMappingReference {mappings : List (MappingOf Json)} {v : Json}
    {reference : Option Nat} (h : readMappingReference mappings v = .ok reference) :
    ∀ i ∈ reference, i < mappings.length := by
  unfold readMappingReference at h
  split at h
  · cases h
    simp
  · obtain ⟨id, -, h⟩ := bind_eq_ok.mp h
    split at h
    · rename_i i hi
      cases h
      rintro _ ⟨⟩
      exact (List.findIdx?_eq_some_iff_getElem.mp hi).1
    · cases h

/-- A line that is read names a function of the profile. -/
theorem lt_of_readLine {functions : List (FunctionOf Json)} {v : Json} {line : Line}
    (h : readLine functions v = .ok line) : line.function < functions.length := by
  obtain ⟨members, -, h⟩ := bind_eq_ok.mp h
  obtain ⟨id, -, h⟩ := bind_eq_ok.mp h
  split at h
  · rename_i i hi
    obtain ⟨n, -, h⟩ := bind_eq_ok.mp h
    cases h
    exact (List.findIdx?_eq_some_iff_getElem.mp hi).1
  · cases h

/-- A location refers to mappings and functions that have been read before it. -/
theorem lt_of_readLocation {mappings : List (MappingOf Json)} {functions : List (FunctionOf Json)}
    {position : Nat} {v : Json} {l : Location}
    (h : readLocation mappings functions position v = .ok l) :
    (∀ i ∈ l.mapping, i < mappings.length) ∧
      ∀ line ∈ l.lines, line.function < functions.length := by
  obtain ⟨members, -, h⟩ := bind_eq_ok.mp h
  obtain ⟨reference, hreference, h⟩ := bind_eq_ok.mp h
  obtain ⟨vs, -, h⟩ := bind_eq_ok.mp h
  obtain ⟨lines, hlines, h⟩ := bind_eq_ok.mp h
  obtain ⟨id, -, h⟩ := bind_eq_ok.mp h
  obtain ⟨address, -, h⟩ := bind_eq_ok.mp h
  cases h
  exact ⟨lt_of_readMappingReference hreference,
    forall_mem_of_mapM hlines fun _ _ hline => lt_of_readLine hline⟩

/-! ## profiles -/

/-- A profile that is read from a document is sound, and its ids are told apart. -/
theorem unambiguous_of_read {v : Json} {p : RawProfile} (h : read v = .ok p) : p.Unambiguous := by
  cases v with
  | object members =>
      rw [read_object] at h
      obtain ⟨mappings, hmappings, h⟩ := bind_eq_ok.mp h
      obtain ⟨functions, hfunctions, h⟩ := bind_eq_ok.mp h
      obtain ⟨vs, -, h⟩ := bind_eq_ok.mp h
      obtain ⟨locations, hlocations, h⟩ := bind_eq_ok.mp h
      cases h
      obtain ⟨ms, -, hmappings⟩ := bind_eq_ok.mp hmappings
      obtain ⟨fns, -, hfunctions⟩ := bind_eq_ok.mp hfunctions
      have hrefs := forall_mem_of_mapM hlocations fun _ _ hl => lt_of_readLocation hl
      exact {
        mapping_lt := fun l hl => (hrefs l hl).1
        function_lt := fun l hl => (hrefs l hl).2
        ids_nodup := nodup_readRecords hfunctions List.nodup_nil
        mappings_nodup := nodup_readRecords hmappings List.nodup_nil }
  | _ => cases h

/-! ## writing -/

/-- A mapping whose document can be written, with texts for labels, can be stored. -/
theorem storable_of_writableAt_mapping {level : Nat} {m : MappingOf Json}
    (h : (ofMapping id m).WritableAt level) (hlabels : m.file.IsText ∧ m.buildId.IsText) :
    m.Storable := by
  simp only [ofMapping, Json.writableAt_object, List.forall_mem_cons, Json.writableAt_int] at h
  obtain ⟨hid, hstart, hlimit, hoffset, -⟩ := h
  exact ⟨hid, hstart, hlimit, hoffset, hlabels.1, hlabels.2⟩

/-- A function whose document can be written, with texts for labels, can be stored. -/
theorem storable_of_writableAt_function {level : Nat} {fn : FunctionOf Json}
    (h : (ofFunction id fn).WritableAt level)
    (hlabels : fn.name.IsText ∧ fn.systemName.IsText ∧ fn.filename.IsText) : fn.Storable := by
  simp only [ofFunction, Json.writableAt_object, List.forall_mem_cons, Json.writableAt_int] at h
  exact ⟨h.1, hlabels.1, hlabels.2.1, hlabels.2.2⟩

/-- A location whose document can be written can be stored. -/
theorem storable_of_writableAt_location {level : Nat} {mappingIds functionIds : List Int}
    {l : Location} (h : (ofLocation mappingIds functionIds l).WritableAt level) : l.Storable := by
  simp only [ofLocation, ofLine, Json.writableAt_object, Json.writableAt_list,
    List.forall_mem_cons, List.forall_mem_map, Json.writableAt_int] at h
  obtain ⟨hid, -, haddress, hlines, -⟩ := h
  exact ⟨hid, haddress, fun line hline => (hlines line hline).2.1⟩

/-- A profile whose document can be written in full can be kept. -/
theorem storable_of_isWritable {p : RawProfile} (hp : p.Unambiguous) (hlabels : p.HasTextLabels)
    (h : (ofProfile id p).isWritable = true) : p.Storable := by
  have hparts := Json.writableAt_of_isWritable h
  simp only [ofProfile, Json.writableAt_object, Json.writableAt_list, List.forall_mem_cons,
    List.forall_mem_map] at hparts
  obtain ⟨hmappings, hfunctions, hlocations, -⟩ := hparts
  exact {
    toWellFormed := hp.toWellFormed
    mappings_nodup := hp.mappings_nodup
    functions_nodup := hp.ids_nodup
    mappings := fun m hm => storable_of_writableAt_mapping (hmappings m hm) (hlabels.mappings m hm)
    functions := fun fn hfn =>
      storable_of_writableAt_function (hfunctions fn hfn) (hlabels.functions fn hfn)
    locations := fun l hl => storable_of_writableAt_location (hlocations l hl) }

end Document

/-! ## growth -/

/-- Mappings keep their ids. -/
theorem ProfileOf.Grows.mappingIds_eq {τ : Type} {p q : ProfileOf τ} (h : p.Grows q) :
    q.mappings.map (·.id) = p.mappings.map (·.id) := by
  have hmappings := h.mappings
  generalize p.mappings = ms, q.mappings = ms' at hmappings ⊢
  induction hmappings with
  | nil => rfl
  | cons hgains _ ih => rw [List.map_cons, List.map_cons, ih, hgains.same]

/-- Symbolization does not make ids ambiguous. -/
theorem ProfileOf.Becomes.unambiguous {τ : Type} {p q : ProfileOf τ} (h : p.Becomes q)
    (hp : p.Unambiguous) : q.Unambiguous where
  toSound := h.2 hp.toSound
  mappings_nodup := by
    rw [h.1.mappingIds_eq]
    exact hp.mappings_nodup

end Symbolication
