import Symbolication.Proofs.Remote.Requests
import Symbolication.Proofs.Url.Handler

/-!
# Symbolication.Proofs.Remote.Destinations

Where the requests of a remote pass go: to the symbol handler on the server of a source that
the mapping has, and to no other server.

* `LeadsTo` — the URL is on the server of the source, and is that of a symbol handler;
* `Posted.AsksFor.exists_leadsTo` — one request;
* `leadsTo_symbolizeRemotely` — every source, and every request of a pass.
-/

namespace Symbolication

variable {ω τ : Type}

/-- The URL, cut into its parts, is that of a symbol handler on the server of the source. -/
def LeadsTo (source url : String) : Prop :=
  ∃ u v, Url.split source.toList = .ok u ∧ Url.split url.toList = .ok v ∧ v.IsHandlerOf u

theorem Source.symbolUrl?_eq_some {source : Source} {url : String}
    (h : source.symbolUrl? = .ok (some url)) :
    ∃ text, source.url = some text ∧ Url.symbolUrl? text = .ok (some url) := by
  unfold Source.symbolUrl? at h
  split at h
  · rename_i text htext
    refine ⟨text, htext, ?_⟩
    cases hurl : Url.symbolUrl? text with
    | error flaw =>
        rw [hurl] at h
        cases h
    | ok url? =>
        rw [hurl] at h
        exact congrArg Except.ok (Except.ok.inj h)
  · cases h

theorem Posted.AsksFor.exists_leadsTo {addresses : List Int} {m : MappingOf τ}
    {sources : List Source} {r : Posted} (h : r.AsksFor addresses m sources) :
    ∃ source ∈ sources, ∃ text, source.url = some text ∧ LeadsTo text r.url := by
  obtain ⟨-, source, hsource, hurl, -⟩ := h
  obtain ⟨text, htext, hurl⟩ := Source.symbolUrl?_eq_some hurl
  exact ⟨source, hsource, text, htext, Url.exists_isHandlerOf hurl⟩

/-- The URL that comes of a source is that of a symbol handler on the server of the source, and has
no query and no fragment; those of the source have no part in it.  Every request of a pass goes to
such a URL of a source that one of the mappings has. -/
theorem leadsTo_symbolizeRemotely [Label τ] (post : Poster ω) (sources : SourcesOf τ)
    (force : Bool) (p : ProfileOf τ) (env : Env ω) :
    let run := p.symbolizeRemotely post.watched sources force (env.watchedFrom [])
    (∀ source url, Url.symbolUrl? source = .ok (some url) → LeadsTo source url) ∧
    (∀ s u, Url.split s = .ok u →
      Url.split (Url.resource s) = .ok { u with query := [], fragment := [] }) ∧
    (∀ source other, Url.resource source.toList = Url.resource other.toList →
      Url.symbolUrl? source = Url.symbolUrl? other) ∧
    p.symbolizeRemotely post sources force env = (run.1, run.2.plain) ∧
    ∀ r ∈ run.2.world.seen, ∃ m ∈ p.mappings, ∃ source ∈ sources.forMapping m, ∃ text,
      source.url = some text ∧ LeadsTo text r.url := by
  intro run
  have hplain := mirrors_symbolizeRemotely post sources force p (env.watchedFrom [])
  refine ⟨fun source url => Url.exists_isHandlerOf, fun s u hu => ?_,
    fun source other => Url.symbolUrl?_congr, hplain, fun r hr => ?_⟩
  · obtain ⟨hproper, rfl⟩ := Url.split_eq_ok_iff.mp hu
    rw [Url.split_eq_ok_iff, Url.partsOf_resource]
    exact ⟨hproper, rfl⟩
  · obtain ⟨parts, hseen, hlength, hparts⟩ :=
      exists_requests_symbolizeRemotely post sources force p env
    rw [hseen] at hr
    obtain ⟨part, hpart, hr⟩ := List.mem_flatten.mp hr
    obtain ⟨i, hi, hpart⟩ := List.mem_iff_getElem.mp hpart
    have hlt : i < p.mappings.length := hlength ▸ hi
    have hasks := hparts i p.mappings[i] part (List.getElem?_eq_getElem hlt)
      (List.getElem?_eq_some_iff.mpr ⟨hi, hpart⟩) r hr
    exact ⟨p.mappings[i], List.getElem_mem hlt, hasks.exists_leadsTo⟩

/-- A user, a port, slashes at both ends of the path, a query and a fragment. -/
theorem leadsTo_heap :
    Url.symbolUrl? " HTTP://u@h:80//debug/pprof/heap//?seconds=10#x" =
      .ok (some "http://u@h:80//debug/pprof/symbol") ∧
    LeadsTo " HTTP://u@h:80//debug/pprof/heap//?seconds=10#x"
      "http://u@h:80//debug/pprof/symbol" := by
  have hurl : Url.symbolUrl? " HTTP://u@h:80//debug/pprof/heap//?seconds=10#x" =
    .ok (some "http://u@h:80//debug/pprof/symbol") := by decide +kernel
  have hall := leadsTo_symbolizeRemotely (fun _ _ => throw .noServers : Poster Unit) [] false
    ({} : Profile) { world := () }
  exact ⟨hurl, hall.1 _ _ hurl⟩

end Symbolication
