import Mathlib.Data.List.Nodup
import Symbolication.Proofs.Action.Watched
import Symbolication.Proofs.Pass.HeldSegments

/-!
# Symbolication.Proofs.Pass.SegmentLog

A log of what is done with segments.  A segment is known by the place in the log
where it was opened, so what is done with it later can be traced back:

* `SegmentEvent`, `Inspector.watched` — the log, and the inspector that keeps it;
* `Orderly` — nothing is done with a segment before it is opened or after it is
  closed;
* `ClosingDiscipline` — the invariant of the log: each segment that was opened is
  held or has been closed once;
* `carries_closingDiscipline`, `carries_triedOn` — opening, asking and closing keep it.
-/

namespace Symbolication

variable {ω η : Type}

/-! ## the log -/

/-- Something that is done with segments. -/
inductive SegmentEvent where
  /-- A segment is to be opened, with the switch to the faster way on or off, if there is one. -/
  | tried (on? : Option Bool)
  /-- It has been opened, and is known by the place of this event from now on. -/
  | opened
  /-- A segment is asked, for one address or for many in advance. -/
  | asked (segment : Nat)
  /-- A segment is closed. -/
  | closed (segment : Nat)
deriving DecidableEq, Repr

/-- The segment that something is done with. -/
def SegmentEvent.segment? : SegmentEvent → Option Nat
  | tried _ | opened => none
  | asked segment | closed segment => some segment

/-- The event may follow others: the segment has been opened by one of them, and closed by none. -/
def SegmentEvent.Fits (before : List SegmentEvent) (d : SegmentEvent) : Prop :=
  ∀ n ∈ d.segment?, before[n]? = some .opened ∧ .closed n ∉ before

/-- Each event may follow those before it. -/
def Orderly (events : List SegmentEvent) : Prop :=
  ∀ before d after, events = before ++ d :: after → d.Fits before

/-- The switch, turned while the world is watched. -/
def FastSwitch.watched (switch : FastSwitch ω) : FastSwitch (Watched ω (List SegmentEvent)) where
  isOn w := switch.isOn w.world
  set on := Step.watched (switch.set on)

/-- The inspector that also records what is done with segments. -/
def Inspector.watched (inspector : Inspector ω η) :
    Inspector (Watched ω (List SegmentEvent)) (Nat × η) where
  openRegion region := do
    Act.record fun w events => ((), events ++ [.tried (inspector.fastSwitch?.map (·.isOn w))])
    let segment ← Act.watched (inspector.openRegion region)
    let number ← Act.record fun _ events => (events.length, events ++ [.opened])
    return (number, segment)
  buildId segment := inspector.buildId segment.2
  lookup segment address :=
    Act.recorded (· ++ [.asked segment.1]) (inspector.lookup segment.2 address)
  prefetch? segment := (inspector.prefetch? segment.2).map fun prefetch addresses =>
    Act.recorded (· ++ [.asked segment.1]) (prefetch addresses)
  close segment := Act.recorded (· ++ [.closed segment.1]) (inspector.close segment.2)
  fastSwitch? := inspector.fastSwitch?.map FastSwitch.watched

/-- A watched inspector has the switch of the inspector, watched. -/
theorem fastSwitch?_watched (inspector : Inspector ω η) :
    inspector.watched.fastSwitch? = inspector.fastSwitch?.map FastSwitch.watched :=
  rfl

/-! ## orderly logs -/

theorem orderly_nil : Orderly [] :=
  fun before d after h => absurd h (by simp)

/-- An orderly log stays so with an event at the end that fits it. -/
theorem orderly_concat {events : List SegmentEvent} {d : SegmentEvent} (h : Orderly events)
    (hd : d.Fits events) :
    Orderly (events ++ [d]) := by
  intro before d' after heq
  rcases List.eq_nil_or_concat after with rfl | ⟨after', last, rfl⟩
  · obtain ⟨rfl, hlast⟩ := List.append_inj' heq rfl
    rw [← List.singleton_inj.mp hlast]
    exact hd
  · rw [List.concat_eq_append, ← List.cons_append, ← List.append_assoc] at heq
    exact h before d' after' (List.append_inj' heq rfl).1

/-- What is closed was opened before. -/
theorem getElem_of_closed_mem {events : List SegmentEvent} (h : Orderly events) {n : Nat}
    (hn : .closed n ∈ events) : events[n]? = some .opened := by
  obtain ⟨before, after, rfl⟩ := List.append_of_mem hn
  have hopened := (h before _ after rfl n rfl).1
  rw [List.getElem?_append_left (List.getElem?_eq_some_iff.mp hopened).1]
  exact hopened

/-! ## the invariant -/

/-- The log is orderly, the segments held are open, and all others have been closed once. -/
structure ClosingDiscipline (held : List Nat) (events : List SegmentEvent) : Prop where
  orderly : Orderly events
  nodup : held.Nodup
  opened : ∀ n ∈ held, events[n]? = some .opened
  count_closed : ∀ n, events[n]? = some .opened →
    events.count (.closed n) = if n ∈ held then 0 else 1

namespace ClosingDiscipline

variable {held : List Nat} {events : List SegmentEvent}

theorem nil : ClosingDiscipline [] [] :=
  ⟨orderly_nil, List.nodup_nil, by simp, by simp⟩

/-- What is held has not been closed. -/
theorem fits (h : ClosingDiscipline held events) {d : SegmentEvent}
    (hd : ∀ n ∈ d.segment?, n ∈ held) :
    d.Fits events := by
  intro n hn
  have hmem := hd n hn
  have hopened := h.opened n hmem
  refine ⟨hopened, List.count_eq_zero.mp ?_⟩
  rw [h.count_closed n hopened, if_pos hmem]

/-- Places in the log stay what they are. -/
theorem getElem_concat {n : Nat} {d : SegmentEvent} (h : events[n]? = some .opened) :
    (events ++ [d])[n]? = some .opened := by
  rw [List.getElem?_append_left (List.getElem?_eq_some_iff.mp h).1]
  exact h

/-- Only opening adds places at which something has been opened. -/
theorem getElem_of_concat {n : Nat} {d : SegmentEvent} (hd : d ≠ .opened)
    (h : (events ++ [d])[n]? = some .opened) : events[n]? = some .opened := by
  rw [List.getElem?_append] at h
  split at h
  · exact h
  · exact absurd (List.mem_singleton.mp (List.mem_of_getElem? h)).symm hd

/-- A event that neither opens nor closes. -/
theorem pass (h : ClosingDiscipline held events) {d : SegmentEvent}
    (hd : ∀ n ∈ d.segment?, n ∈ held) (hopened : d ≠ .opened) (hclosed : ∀ n, d ≠ .closed n) :
    ClosingDiscipline held (events ++ [d]) where
  orderly := orderly_concat h.orderly (h.fits hd)
  nodup := h.nodup
  opened n hn := getElem_concat (h.opened n hn)
  count_closed n hn := by
    rw [List.count_append, h.count_closed n (getElem_of_concat hopened hn), List.count_singleton]
    simp [hclosed n]

/-- A segment that is held may be asked. -/
theorem asked (h : ClosingDiscipline held events) {n : Nat} (hn : n ∈ held) :
    ClosingDiscipline held (events ++ [.asked n]) := by
  refine h.pass (fun m hm => ?_) (by simp) (by simp)
  rwa [← Option.some.inj hm]

/-- A segment that is opened is held from then on. -/
theorem openSegment (h : ClosingDiscipline held events) :
    ClosingDiscipline (held ++ [events.length]) (events ++ [.opened]) where
  orderly := orderly_concat h.orderly fun n hn => absurd hn (by simp [SegmentEvent.segment?])
  nodup := by
    rw [List.nodup_append]
    refine ⟨h.nodup, by simp, ?_⟩
    intro n hn m hm
    have hlt := (List.getElem?_eq_some_iff.mp (h.opened n hn)).1
    rw [List.mem_singleton.mp hm]
    omega
  opened n hn := by
    rcases List.mem_append.mp hn with hn | hn
    · exact getElem_concat (h.opened n hn)
    · rw [List.mem_singleton.mp hn]
      simp
  count_closed n hn := by
    rw [List.count_append, List.count_singleton]
    by_cases hlt : n < events.length
    · rw [List.getElem?_append_left hlt] at hn
      have hne : n ≠ events.length := Nat.ne_of_lt hlt
      simp [h.count_closed n hn, hne]
    · have heq : n = events.length := by
        have := (List.getElem?_eq_some_iff.mp hn).1
        simp only [List.length_append, List.length_singleton] at this
        omega
      -- nothing behind the end of the log has been closed yet
      have hcount : events.count (.closed n) = 0 := by
        refine List.count_eq_zero.mpr fun hmem => hlt ?_
        exact (List.getElem?_eq_some_iff.mp (getElem_of_closed_mem h.orderly hmem)).1
      rw [hcount, heq]
      simp

/-- A segment that is closed is held no longer. -/
theorem closeSegment {before after : List Nat} {n : Nat}
    (h : ClosingDiscipline (before ++ n :: after) events) :
    ClosingDiscipline (before ++ after) (events ++ [.closed n]) := by
  have hmem : n ∈ before ++ n :: after := by simp
  have hnodup : n ∉ before ++ after ∧ (before ++ after).Nodup :=
    List.nodup_cons.mp (List.nodup_middle.mp h.nodup)
  refine ⟨orderly_concat h.orderly (h.fits fun m hm => ?_), hnodup.2, ?_, ?_⟩
  · rw [← Option.some.inj hm]
    exact hmem
  · intro m hm
    refine getElem_concat (h.opened m ?_)
    rcases List.mem_append.mp hm with hm | hm
    · exact List.mem_append_left _ hm
    · exact List.mem_append_right _ (List.mem_cons_of_mem _ hm)
  · intro m hm
    have hopened : events[m]? = some .opened := getElem_of_concat (by simp) hm
    rw [List.count_append, h.count_closed m hopened, List.count_singleton]
    by_cases heq : m = n
    · subst heq
      rw [if_pos hmem, if_neg hnodup.1]
      simp
    · have hne : (SegmentEvent.closed n == SegmentEvent.closed m) = false := by
        simpa using Ne.symm heq
      simp [heq, hne]

end ClosingDiscipline

/-! ## watched inspectors -/

/-- Closing a segment fails with a fault of the system, if at all. -/
def Inspector.Closes (inspector : Inspector ω η) : Prop :=
  ∀ segment, Act.Meets (fun _ => True) (inspector.close segment) (fun _ _ => True)
    (fun fault _ => fault.isSystem = true)

/-- Nothing that is done with objects turns the switch. -/
def Inspector.Leaves (inspector : Inspector ω η) (switch : FastSwitch ω) : Prop :=
  ∀ on, inspector.Carries fun _ w => switch.isOn w = on

variable {inspector : Inspector ω η}

/-- The discipline of the log goes along with the segments held. -/
theorem carries_closingDiscipline (h : inspector.Closes) :
    inspector.watched.Carries fun held w => ClosingDiscipline (held.map (·.1)) w.seen where
  openRegion held region := by
    have hopen := Act.meets_watched (γ := List SegmentEvent)
      (R := ClosingDiscipline (held.map (·.1)))
      (Act.meets_true (inspector.openRegion region))
    refine Act.meets_bind (Q := fun _ w => ClosingDiscipline (held.map (·.1)) w.seen)
      (Act.meets_record fun w hw => ?_) fun _ => ?_
    · exact hw.pass (fun n hn => absurd hn (by simp [SegmentEvent.segment?])) (by simp) (by simp)
    · refine Act.meets_bind (Q := fun _ w => ClosingDiscipline (held.map (·.1)) w.seen)
        (Act.meets_mono hopen (fun _ hw => ⟨trivial, hw⟩) (fun _ _ hw => hw.2)
          fun _ _ hw => hw.2) fun segment => ?_
      refine Act.meets_bind
        (Q := fun number w => ClosingDiscipline (held.map (·.1) ++ [number]) w.seen)
        (Act.meets_record fun w hw => hw.openSegment) fun number => Act.meets_pure fun w hw => ?_
      rw [List.map_append]
      exact hw
  lookup held segment hsegment address := by
    have hrecorded := Act.meets_recorded (f := (· ++ [.asked segment.1]))
      (R := ClosingDiscipline (held.map (·.1)))
      (Act.meets_true (inspector.lookup segment.2 address))
    refine Act.meets_mono hrecorded (fun w hw => ⟨trivial, ?_⟩) (fun _ _ hw => hw.2)
      fun _ _ hw => hw.2
    exact hw.asked (List.mem_map_of_mem hsegment)
  prefetch held segment hsegment prefetch hprefetch addresses := by
    obtain ⟨plain, -, rfl⟩ := Option.map_eq_some_iff.mp hprefetch
    have hrecorded := Act.meets_recorded (f := (· ++ [.asked segment.1]))
      (R := ClosingDiscipline (held.map (·.1))) (Act.meets_true (plain addresses))
    refine Act.meets_mono hrecorded (fun w hw => ⟨trivial, ?_⟩) (fun _ _ hw => hw.2)
      fun _ _ hw => hw.2
    exact hw.asked (List.mem_map_of_mem hsegment)
  close before segment after := by
    have hrecorded := Act.meets_recorded (f := (· ++ [.closed segment.1]))
      (R := ClosingDiscipline ((before ++ after).map (·.1))) (h segment.2)
    refine Act.meets_mono hrecorded (fun w hw => ⟨trivial, ?_⟩) (fun _ _ hw => hw.2)
      fun _ _ hw => hw
    rw [List.map_append, List.map_cons] at hw
    rw [List.map_append]
    exact hw.closeSegment

/-- Whenever a segment was to be opened, the switch was on. -/
def TriedOn (events : List SegmentEvent) : Prop :=
  ∀ on?, .tried on? ∈ events → on? = some true

/-- A further event leaves it so, unless it is an attempt with the switch off. -/
theorem TriedOn.concat {events : List SegmentEvent} (h : TriedOn events) {d : SegmentEvent}
    (hd : ∀ on?, d = .tried on? → on? = some true) : TriedOn (events ++ [d]) := by
  intro on? hmem
  rcases List.mem_append.mp hmem with hmem | hmem
  · exact h on? hmem
  · exact hd on? (List.mem_singleton.mp hmem).symm

/-- While the switch stays on, it is on whenever a segment is to be opened. -/
theorem carries_triedOn {switch : FastSwitch ω} (hswitch : inspector.fastSwitch? = some switch)
    (h : inspector.Leaves switch) :
    inspector.watched.Carries fun _ w => switch.isOn w.world = true ∧ TriedOn w.seen where
  openRegion held region := by
    refine Act.meets_bind (Q := fun _ w => switch.isOn w.world = true ∧ TriedOn w.seen)
      (Act.meets_record ?_) fun _ => ?_
    · intro w hw
      obtain ⟨hon, htried⟩ := hw
      refine ⟨hon, htried.concat ?_⟩
      intro on? heq
      rw [← SegmentEvent.tried.inj heq, hswitch, Option.map_some, hon]
    · refine Act.meets_bind (Act.meets_watched ((h true).openRegion [] region)) fun segment => ?_
      refine Act.meets_bind (Q := fun _ w => switch.isOn w.world = true ∧ TriedOn w.seen)
        (Act.meets_record ?_) fun number => Act.meets_pure fun w hw => hw
      intro w hw
      obtain ⟨hon, htried⟩ := hw
      exact ⟨hon, htried.concat (by simp)⟩
  lookup held segment hsegment address := by
    refine Act.meets_mono (Act.meets_recorded (R := TriedOn)
      ((h true).lookup [segment.2] segment.2 List.mem_cons_self address))
      (fun w hw => ⟨hw.1, hw.2.concat (by simp)⟩) (fun _ _ hw => hw) fun _ _ hw => hw
  prefetch held segment hsegment prefetch hprefetch addresses := by
    obtain ⟨plain, hplain, rfl⟩ := Option.map_eq_some_iff.mp hprefetch
    exact Act.meets_mono (Act.meets_recorded (R := TriedOn)
      ((h true).prefetch [segment.2] segment.2 List.mem_cons_self plain hplain addresses))
      (fun w hw => ⟨hw.1, hw.2.concat (by simp)⟩) (fun _ _ hw => hw) fun _ _ hw => hw
  close before segment after := by
    refine Act.meets_mono (Act.meets_recorded (R := TriedOn)
      ((h true).close [] segment.2 []))
      (fun w hw => ⟨hw.1, hw.2.concat (by simp)⟩) (fun _ _ hw => hw) ?_
    exact fun _ _ hw => ⟨hw.1.1, hw.1.2, hw.2⟩

end Symbolication
