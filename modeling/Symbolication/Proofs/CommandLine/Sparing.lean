import Symbolication.CommandLine.Run
import Symbolication.Proofs.Elf.Setting
import Symbolication.Proofs.Name.Decoding
import Symbolication.Proofs.Pass.WorldInvariants

/-!
# Symbolication.Proofs.CommandLine.Sparing

What a run of the command leaves as it was.  Before a report is delivered, files are read,
tools are run and servers are asked, and nothing else is done to the world outside:

* `Services.Keeps` — an assertion about the world that these keep;
* `Services.Keeps.toolkit` — symbolization keeps it, too;
* `CommandLine.meets_run` — so does a run that fails, and it prints nothing.
-/

namespace Symbolication

variable {ω : Type} {Q : ω → Prop}

/-- Reading files, running tools and asking servers keeps the assertion. -/
structure Services.Keeps (s : Services ω) (Q : ω → Prop) : Prop where
  read : ∀ path w, Q w → Q (s.files.read path w).2
  tools : ∀ command w, Q w → Q (s.tools command w).2
  transport : ∀ request w, Q w → Q (s.transport request w).2

/-! ## files, servers and tools -/

namespace Files

variable {files : Files ω}

theorem keeps_hasFile (path : String) : Act.Keeps Q (files.hasFile path) :=
  Act.keeps_of_run fun _ hw => hw

/-- A profile is loaded with what reading files keeps. -/
theorem keeps_loadRaw (hread : ∀ path w, Q w → Q (files.read path w).2) (path : String) :
    Act.Keeps Q (files.loadRaw path) := by
  refine Act.keeps_bind (Act.keeps_note _) fun _ => ?_
  refine Act.keeps_bind (keeps_access hread _) fun bytes => ?_
  refine Act.keeps_bind (Act.keeps_result _) fun v => ?_
  refine Act.keeps_bind (Act.keeps_result _) fun p => ?_
  exact Act.keeps_bind (Act.keeps_note _) fun _ => Act.keeps_pure p

end Files

/-- A post keeps what every request of the transport keeps. -/
theorem Transport.keeps_post {transport : Transport ω}
    (htransport : ∀ request w, Q w → Q (transport request w).2) (patience : Patience)
    (url payload : String) : Act.Keeps Q (transport.post patience url payload) :=
  Act.keeps_bind (Act.keeps_result _) fun _ => Act.keeps_inWorldTry fun w => htransport _ w

namespace Services.Keeps

variable {s : Services ω}

theorem keeps_post (h : s.Keeps Q) (patience : Patience) (url payload : String) :
    Act.Keeps (fun w : Workshop ω => Q w.outside)
      (Workshop.outsideAct (Transport.post s.transport patience url payload)) := by
  refine Workshop.keeps_outsideAct fun _ => ?_
  exact Transport.keeps_post h.transport patience url payload

/-- A name is decoded with what running the tools keeps. -/
theorem keeps_demangler (h : s.Keeps Q) (tool name : String) (options : List NameOption) :
    Act.Keeps (fun w : Workshop ω => Q w.outside)
      (Workshop.demangler s.tools tool name options) := by
  refine Act.keeps_bind Workshop.keeps_look fun w => ?_
  refine Act.keeps_bind (Workshop.keeps_outsideAct fun _ => ?_) fun r => ?_
  · exact DecodedNames.keeps_decode h.tools tool w.names name options
  · exact Act.keeps_bind (Workshop.keeps_change fun _ hw => hw) fun _ => Act.keeps_pure _

/-- The toolkit of services keeps what the services keep. -/
theorem toolkit (h : s.Keeps Q) (lineTool : Option String) (patience : Patience) :
    (s.toolkit lineTool patience).Keeps fun w => Q w.outside where
  inspector := Elf.carries_inspector (R := fun _ => Q) s.files s.tools lineTool
    (fun _ => h.read) (fun _ => h.tools)
  switch := by
    rintro switch hswitch on
    obtain rfl := Option.some.inj hswitch
    exact fun _ hw => hw
  post := h.keeps_post patience
  demangler := h.keeps_demangler "c++filt"

/-! ## the command -/

open CommandLine

variable (a : Arguments)

/-- Loading a profile keeps what the services keep. -/
theorem keeps_load (h : s.Keeps Q) (path : String) : Act.Keeps Q (load s path) := by
  refine Act.keeps_bind (Files.keeps_hasFile _) fun isFile => ?_
  cases isFile with
  | false => exact Act.keeps_bind (Act.keeps_note _) fun _ => Act.keeps_pure _
  | true =>
      refine Act.keeps_tryCatch (Act.meets_map (Files.keeps_loadRaw h.read _)) fun fault => ?_
      cases fault with
      | system cause => exact Act.keeps_bind (Act.keeps_note _) fun _ => Act.keeps_pure _
      | document cause => exact Act.keeps_bind (Act.keeps_note _) fun _ => Act.keeps_pure _
      | _ => exact Act.keeps_throw _

/-- Preparing a profile keeps what the services keep. -/
theorem keeps_prepare (h : s.Keeps Q) : Act.Keeps Q (prepare s a) := by
  refine Act.keeps_bind (h.keeps_load a.profile) fun p? => ?_
  cases p? with
  | none => exact Act.keeps_pure _
  | some p =>
      refine Act.meets_map ?_
      unfold applyBinary
      split
      · exact Act.keeps_pure _
      · split
        · exact Act.keeps_bind (Act.keeps_note _) fun _ => Act.keeps_pure _
        · exact Act.keeps_pure _

/-- Symbolizing a profile keeps what the services keep. -/
theorem keeps_symbolize (h : s.Keeps Q) (p : RawProfile) :
    Step.Keeps (fun w => Q w.outside) (symbolize s a p) := by
  unfold symbolize
  split
  · exact Step.keeps_pure _
  · exact Step.keeps_pure _
  · refine Step.keeps_bind ?_ fun _ => Step.keeps_pure _
    exact (h.toolkit _ _).keeps_symbolize _ _ p

end Services.Keeps

namespace CommandLine

variable {s : Services ω} (a : Arguments)

/-- Where there is a profile to report on, the run does not fail. -/
theorem gives_finish (p : RawProfile) :
    Step.Gives (finish s a p) (fun ending => ending.status ≠ .ok .failure) := by
  unfold finish
  split
  · exact Step.gives_pure (by simp)
  · refine Step.gives_bind_of_forall fun delivered => ?_
    cases delivered with
    | error fault => exact Step.gives_pure (by simp)
    | ok printed =>
        refine Step.gives_bind_of_forall fun kept => ?_
        cases kept <;> exact Step.gives_pure (by simp [Except.map])

/-- A run that fails has only read files, run tools and asked servers. -/
theorem meets_run (h : s.Keeps Q) :
    Step.Meets (fun w => Q w.outside) (run s a)
      (fun ending w => ending.status = .ok .failure → Q w.outside ∧ ending.printed = "") := by
  unfold run
  refine Step.meets_bind (Workshop.keeps_outsideStep fun _ => Act.keeps_run (h.keeps_prepare a)) ?_
  intro p?
  cases p? with
  | error fault => exact Step.meets_pure (by simp)
  | ok p? =>
      cases p? with
      | none => exact Step.meets_pure fun w hw _ => ⟨hw, rfl⟩
      | some p =>
          refine Step.meets_bind (h.keeps_symbolize a p) ?_
          intro r
          obtain ⟨q, ended⟩ := r
          cases ended with
          | ok _ => exact fun env _ hfail => absurd hfail (gives_finish a q _)
          | error fault =>
              simp only
              split
              · exact Step.meets_bind (Step.keeps_note _) fun _ =>
                  Step.meets_pure fun w hw _ => ⟨hw, rfl⟩
              · exact Step.meets_pure (by simp)

end CommandLine

end Symbolication
