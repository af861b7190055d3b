import NetnsWatch.Proofs.Ring.Contents
import NetnsWatch.Proofs.Session.Wiring

/-!
# Records on their way through the ring

The records that a session's ring accepted are those that the drain took, in order, followed by
those that the ring still holds. Every record taken becomes one source event, and every notification
received is forwarded once, so what enters the source channel is known but for the order in which
the two kinds come together.
-/

namespace NetnsWatch

namespace Ring

/-- The ring holds the records that were accepted and not yet taken, in order. -/
def Conserves (accepted taken : List Bytes) (ring : Ring) : Prop :=
  ∃ queue, accepted = taken ++ queue ∧ Holds ring queue

section Conservation

variable {accepted taken : List Bytes} {ring after : Ring}

/-- A submission adds the record at the end if it is accepted. -/
theorem Conserves.submit (h : Conserves accepted taken ring) (hrange : InRange ring)
    (record : Bytes) : Conserves
      (accepted ++ (Traffic.ofSubmission record (ring.submit record).1).accepted) taken
      (ring.submit record).2 := by
  obtain ⟨queue, hqueue, hholds⟩ := h
  by_cases hroom : HasRoom ring queue record.length
  · obtain ⟨haccepted, hafter, -, -⟩ := submit_of_hasRoom hholds hrange hroom
    refine ⟨queue ++ [record], ?_, hafter⟩
    rw [haccepted, hqueue, List.append_assoc]
    rfl
  · rw [submit_of_not_hasRoom hholds hrange hroom]
    refine ⟨queue, ?_, hholds.withDropped _⟩
    rw [hqueue]
    exact List.append_nil _

/-- The reader takes the oldest record that was not taken yet. -/
theorem Conserves.take {record : Bytes} (h : Conserves accepted taken ring)
    (hnext : ring.next = (.ok (some record), after)) :
    Conserves accepted (taken ++ [record]) after := by
  obtain ⟨queue, hqueue, hholds⟩ := h
  cases queue with
  | nil =>
    rw [next_of_holds_nil hholds] at hnext
    cases hnext
  | cons first queue =>
    rw [next_of_holds_cons hholds] at hnext
    cases hnext
    exact ⟨queue, by rw [hqueue, List.append_assoc, List.singleton_append], holds_release hholds⟩

/-- Finding nothing leaves the ring as it is. -/
theorem Conserves.takeNothing (h : Conserves accepted taken ring)
    (hnext : ring.next = (.ok none, after)) : Conserves accepted taken after := by
  obtain ⟨queue, hqueue, hholds⟩ := h
  cases queue with
  | nil =>
    rw [next_of_holds_nil hholds] at hnext
    cases hnext
    exact ⟨[], hqueue, hholds⟩
  | cons first queue =>
    rw [next_of_holds_cons hholds] at hnext
    cases hnext

/-- The reader finds no damage. -/
theorem Conserves.next_ne_error {fault : Fault} (h : Conserves accepted taken ring) :
    ring.next ≠ (.error fault, after) := by
  obtain ⟨queue, -, hholds⟩ := h
  intro hnext
  cases queue with
  | nil =>
    rw [next_of_holds_nil hholds] at hnext
    cases hnext
  | cons first queue =>
    rw [next_of_holds_cons hholds] at hnext
    cases hnext

/-- Once the positions meet, every accepted record has been taken. -/
theorem Conserves.eq_of_empty (h : Conserves accepted taken ring)
    (hempty : ring.consumer = ring.producer) : accepted = taken := by
  obtain ⟨queue, hqueue, hholds⟩ := h
  rw [hqueue, hholds.eq_nil_of_empty hempty, List.append_nil]

end Conservation

end Ring

namespace Session

/-- Every step conserves the records. -/
theorem conserves_step {total moved : Traffic} {s s' : Session} {t : Turn}
    (h : Ring.Conserves total.accepted (total.taken.map Prod.fst) s.ring)
    (hrange : Ring.InRange s.ring) (hs : Step s t moved s') :
    Ring.Conserves (total ++ moved).accepted ((total ++ moved).taken.map Prod.fst) s'.ring := by
  have hquiet : ∀ moved : Traffic, ∀ ring, moved.accepted = [] → moved.taken = [] →
      Ring.Conserves total.accepted (total.taken.map Prod.fst) ring →
      Ring.Conserves (total ++ moved).accepted ((total ++ moved).taken.map Prod.fst) ring := by
    intro moved ring haccepted htaken hring
    rw [Traffic.accepted_append, haccepted, Traffic.taken_append, htaken, List.append_nil,
      List.append_nil]
    exact hring
  have hoffer : ∀ record, Ring.Conserves (total ++ offerRecord record s.ring).accepted
      ((total ++ offerRecord record s.ring).taken.map Prod.fst) (s.ring.submit record).2 := by
    intro record
    have htaken : (offerRecord record s.ring).taken = [] := by
      unfold offerRecord
      cases (s.ring.submit record).1 <;> rfl
    rw [Traffic.taken_append, htaken, List.append_nil]
    exact h.submit hrange record
  cases hs with
  | submit => exact hoffer _
  | takeNothing _ hnext => exact hquiet _ _ rfl rfl (h.takeNothing hnext)
  | takeRecord _ hnext =>
    rw [Traffic.accepted_append, Traffic.taken_append, List.map_append]
    change Ring.Conserves (total.accepted ++ []) _ _
    rw [List.append_nil]
    exact h.take hnext
  | findDamage _ hnext => exact absurd hnext h.next_ne_error
  | fork => exact hoffer _
  | clone =>
    rw [noteBurst_eq]
    exact hoffer _
  | _ => exact hquiet _ _ rfl rfl h

/-- The records are conserved under every schedule on whose way the positions stay exact. -/
theorem conserves_run {s : Session} (schedule : List Turn) (hfirst : Ring.Holds s.ring [])
    (hrange : ∀ i, i < schedule.length → Ring.InRange (run (schedule.take i) s).ring) :
    Ring.Conserves (trafficOf schedule s).accepted ((trafficOf schedule s).taken.map Prod.fst)
      (run schedule s).ring :=
  invariant_run (C := fun s => Ring.InRange s.ring)
    (P := fun total s => Ring.Conserves total.accepted (total.taken.map Prod.fst) s.ring)
    schedule ⟨[], rfl, hfirst⟩ hrange fun _ hrange h hs => conserves_step h hrange hs

end Session

/-- Whether an event stands for a record of the ring. -/
def SourceEvent.ringBorn (event : SourceEvent) : Bool :=
  match event.occurrence with
  | .process _ | .rejected _ => true
  | .nsid _ => false

/-- The event that the drain has in hand. -/
def DrainPhase.hand : DrainPhase → List SourceEvent
  | .sending _ event => [event]
  | .waiting | .draining _ | .ended => []

/-- The events that the listener has in hand. -/
def ListenPhase.hand : ListenPhase → List SourceEvent
  | .sending events => events
  | .waiting | .ended => []

/-- The event that the self test has in hand. -/
def BurstPhase.hand : BurstPhase → List SourceEvent
  | .sending event _ => [event]
  | .forking .. | .resting .. | .ended => []

namespace Session

/-- The event of a record stands for a record. -/
theorem ringBorn_observe (record : Bytes) (arrival : Instant) :
    (observe record arrival).ringBorn = true := by
  unfold observe
  split <;> rfl

/-- Every task has only events of its own kind in hand. -/
structure OwnKind (s : Session) : Prop where
  drain : ∀ event ∈ s.drain.hand, event.ringBorn = true
  listen : ∀ event ∈ s.listen.hand, event.ringBorn = false
  burst : ∀ event ∈ s.burst.hand, event.ringBorn = false

/-- The source events of the records that were taken are those sent, in order, the one in hand, and
at most one that the closed channel refused, which ended the drain. -/
def RecordsSent (total : Traffic) (drain : DrainPhase) : Prop :=
  ∃ refused : List SourceEvent, refused.length ≤ 1 ∧
    (refused ≠ [] → drain = .ended ∧ ∃ fault, (drainTask, fault) ∈ total.vain) ∧
    total.sent.filter SourceEvent.ringBorn ++ (drain.hand ++ refused) =
      total.taken.map fun p => observe p.1 p.2

/-- The events of the notifications that were received are those sent, in order, those in hand, and
those that were lost when the listener ended. -/
def NotificationsSent (total : Traffic) (listen : ListenPhase) : Prop :=
  ∃ lost : List SourceEvent, (listen.alive = true → lost = []) ∧
    total.sent.filter (fun event => !event.ringBorn) ++ (listen.hand ++ lost) = total.forwarded

variable {total moved : Traffic} {s s' : Session} {t : Turn}

/-- The event that the drain is about to send stands for a record. -/
theorem OwnKind.of_drain {count : Nat} {event : SourceEvent} (h : s.OwnKind)
    (hdrain : s.drain = .sending count event) : event.ringBorn = true :=
  h.drain event (by rw [hdrain]; exact List.mem_singleton.mpr rfl)

/-- The event that the listener is about to send stands for a notification. -/
theorem OwnKind.of_listen {event : SourceEvent} {later : List SourceEvent} (h : s.OwnKind)
    (hlisten : s.listen = .sending (event :: later)) : event.ringBorn = false :=
  h.listen event (by rw [hlisten]; exact List.mem_cons_self)

/-- The event that the self test is about to send stands for a notification. -/
theorem OwnKind.of_burst {event : SourceEvent} {dropped : Nat} (h : s.OwnKind)
    (hburst : s.burst = .sending event dropped) : event.ringBorn = false :=
  h.burst event (by rw [hburst]; exact List.mem_singleton.mpr rfl)

/-- Every step leaves the tasks with events of their own kind. -/
theorem OwnKind.step (h : s.OwnKind) (hs : Step s t moved s') : s'.OwnKind := by
  have hempty : ∀ kind : Bool, ∀ event ∈ ([] : List SourceEvent), event.ringBorn = kind :=
    fun _ _ hevent => absurd hevent List.not_mem_nil
  cases hs with
  | wakeDrain | takeNothing | findDamage | sendRecord | loseRecord | stopDrain =>
    exact ⟨hempty _, h.listen, h.burst⟩
  | @takeRecord _ record =>
    refine ⟨?_, h.listen, h.burst⟩
    intro event hevent
    rw [List.mem_singleton.mp hevent]
    exact ringBorn_observe _ _
  | receiveFault | sendNothing | loseNotification | stopListen =>
    exact ⟨h.drain, hempty _, h.burst⟩
  | receive =>
    refine ⟨h.drain, ?_, h.burst⟩
    intro event hevent
    obtain ⟨notification, -, rfl⟩ := List.mem_map.mp hevent
    rfl
  | @sendNotification event later hlisten =>
    refine ⟨h.drain, ?_, h.burst⟩
    have hold := h.listen
    rw [hlisten] at hold
    cases later with
    | nil => exact hempty _
    | cons next later => exact fun other hother => hold other (List.mem_cons_of_mem event hother)
  | fork | sendAnnouncement | loseAnnouncement => exact ⟨h.drain, h.listen, hempty _⟩
  | announce =>
    refine ⟨h.drain, h.listen, ?_⟩
    intro event hevent
    rw [List.mem_singleton.mp hevent]
    rfl
  | clone =>
    rw [noteBurst_eq]
    exact ⟨h.drain, h.listen, hempty _⟩
  | _ => exact ⟨h.drain, h.listen, h.burst⟩

/-- While the drain runs, no event of it was refused. -/
theorem RecordsSent.account {drain : DrainPhase} (h : RecordsSent total drain)
    (halive : drain ≠ .ended) : total.sent.filter SourceEvent.ringBorn ++ drain.hand =
      total.taken.map fun p => observe p.1 p.2 := by
  obtain ⟨refused, -, hended, haccount⟩ := h
  have hnone : refused = [] := by
    by_contra hrefused
    exact halive (hended hrefused).1
  rw [← haccount, hnone, List.append_nil]

/-- An account without refused events is enough. -/
theorem RecordsSent.of_account {drain : DrainPhase}
    (h : total.sent.filter SourceEvent.ringBorn ++ drain.hand =
      total.taken.map fun p => observe p.1 p.2) : RecordsSent total drain :=
  ⟨[], Nat.zero_le 1, fun hrefused => absurd rfl hrefused, by rw [List.append_nil, h]⟩

/-- Traffic without taken records and their events keeps the account of the drain's records. -/
theorem RecordsSent.quiet {drain : DrainPhase} (h : RecordsSent total drain)
    (hsent : moved.sent.filter SourceEvent.ringBorn = []) (htaken : moved.taken = []) :
    RecordsSent (total ++ moved) drain := by
  obtain ⟨refused, hlength, hended, haccount⟩ := h
  refine ⟨refused, hlength, fun hrefused => ?_, ?_⟩
  · obtain ⟨hdrain, fault, hfault⟩ := hended hrefused
    exact ⟨hdrain, fault, List.mem_append_left _ hfault⟩
  · rw [Traffic.sent_append, List.filter_append, hsent, Traffic.taken_append, htaken,
      List.append_nil, List.append_nil, haccount]

/-- Every step keeps the account of the drain's records. -/
theorem RecordsSent.step (h : RecordsSent total s.drain) (hkind : s.OwnKind)
    (hs : Step s t moved s') : RecordsSent (total ++ moved) s'.drain := by
  cases hs with
  | submit | fork =>
    obtain ⟨htaken, hsent, -, -⟩ := offerRecord_moves _ s.ring
    exact h.quiet (by rw [hsent]; rfl) htaken
  | clone =>
    obtain ⟨htaken, hsent, -, -⟩ := offerRecord_moves (Burst.record .clone Burst.clonePid "ip") s.ring
    rw [noteBurst_eq]
    exact h.quiet (by rw [hsent]; rfl) htaken
  | wakeDrain hdrain | takeNothing hdrain | findDamage hdrain | stopDrain hdrain =>
    rw [hdrain] at h
    refine RecordsSent.quiet ?_ rfl rfl
    exact .of_account (h.account (by simp))
  | @takeRecord count record _ hdrain =>
    rw [hdrain] at h
    refine .of_account ?_
    rw [Traffic.taken_append, List.map_append, ← h.account (by simp)]
    simp [Traffic.none, DrainPhase.hand]
  | @sendRecord count event hdrain =>
    have hborn : event.ringBorn = true := hkind.of_drain hdrain
    rw [hdrain] at h
    refine .of_account ?_
    rw [Traffic.taken_append, List.map_append, ← h.account (by simp)]
    simp [Traffic.none, DrainPhase.hand, hborn]
  | @loseRecord count event hdrain =>
    rw [hdrain] at h
    refine ⟨[event], Nat.le_refl 1, fun _ => ⟨rfl, closed s.source, ?_⟩, ?_⟩
    · exact List.mem_append_right _ (List.mem_singleton.mpr rfl)
    · change _ ++ ([] ++ [event]) = _
      rw [Traffic.taken_append, List.map_append, ← h.account (by simp)]
      simp [Traffic.none, DrainPhase.hand]
  | @sendNotification event later hlisten =>
    have hkept : event.ringBorn = false := hkind.of_listen hlisten
    exact h.quiet (by simp [hkept]) rfl
  | @sendAnnouncement event _ hburst =>
    have hkept : event.ringBorn = false := hkind.of_burst hburst
    exact h.quiet (by simp [hkept]) rfl
  | _ => exact h.quiet rfl rfl

/-- Traffic without notifications keeps the account of the listener's notifications. -/
theorem NotificationsSent.quiet {listen : ListenPhase} (h : NotificationsSent total listen)
    (hsent : moved.sent.filter (fun event => !event.ringBorn) = []) (hforwarded : moved.forwarded = []) :
    NotificationsSent (total ++ moved) listen := by
  obtain ⟨lost, halive, haccount⟩ := h
  refine ⟨lost, halive, ?_⟩
  rw [Traffic.sent_append, List.filter_append, hsent, Traffic.forwarded_append, hforwarded,
    List.append_nil, List.append_nil, haccount]

/-- Every step of a session without a self test keeps the account of the notifications. -/
theorem NotificationsSent.step (h : NotificationsSent total s.listen) (hkind : s.OwnKind)
    (hburst : s.burst = .ended) (hs : Step s t moved s') :
    NotificationsSent (total ++ moved) s'.listen := by
  cases hs with
  | submit =>
    obtain ⟨-, hsent, hforwarded, -⟩ := offerRecord_moves _ s.ring
    exact h.quiet (by rw [hsent]; rfl) hforwarded
  | fork hphase | announce hphase | sendAnnouncement hphase | loseAnnouncement hphase
  | clone hphase =>
    rw [hburst] at hphase
    cases hphase
  | @sendRecord count event hdrain =>
    have hborn : event.ringBorn = true := hkind.of_drain hdrain
    exact h.quiet (by simp [hborn]) rfl
  | receiveFault hlisten | sendNothing hlisten | stopListen hlisten =>
    rw [hlisten] at h
    obtain ⟨lost, hnone, haccount⟩ := h
    refine NotificationsSent.quiet ⟨lost, fun _ => hnone rfl, ?_⟩ rfl rfl
    exact haccount
  | receive hlisten =>
    rw [hlisten] at h
    obtain ⟨lost, hnone, haccount⟩ := h
    rw [hnone rfl] at haccount
    refine ⟨[], fun _ => rfl, ?_⟩
    rw [Traffic.forwarded_append, ← haccount]
    simp [Traffic.none, ListenPhase.hand]
  | @sendNotification event later hlisten =>
    have hkept : event.ringBorn = false := hkind.of_listen hlisten
    rw [hlisten] at h
    obtain ⟨lost, hnone, haccount⟩ := h
    rw [hnone rfl] at haccount
    refine ⟨[], fun _ => rfl, ?_⟩
    rw [Traffic.forwarded_append, ← haccount]
    cases later <;> simp [Traffic.none, ListenPhase.hand, hkept]
  | @loseNotification event later hlisten =>
    rw [hlisten] at h
    obtain ⟨lost, hnone, haccount⟩ := h
    rw [hnone rfl] at haccount
    refine ⟨event :: later, fun halive => absurd halive Bool.false_ne_true, ?_⟩
    change _ ++ ([] ++ event :: later) = _
    rw [Traffic.forwarded_append, ← haccount]
    simp [Traffic.none, ListenPhase.hand]
  | _ => exact h.quiet rfl rfl

/-- A self test that has ended stays ended. -/
theorem burst_ended_step (h : s.burst = .ended) (hs : Step s t moved s') : s'.burst = .ended := by
  cases hs with
  | fork hphase | announce hphase | sendAnnouncement hphase | loseAnnouncement hphase
  | clone hphase =>
    rw [h] at hphase
    cases hphase
  | _ => exact h

/-- A step never gives the source channel a receiver again, and leaves its name alone. -/
theorem source_step (hs : Step s t moved s') : closed s'.source = closed s.source ∧
    (s.source.receiving = false → s'.source.receiving = false) := by
  cases hs with
  | clone =>
    rw [noteBurst_eq]
    exact ⟨rfl, id⟩
  | sourceClosed | loseEntry | stopCorrelate => exact ⟨rfl, fun _ => rfl⟩
  | _ => exact ⟨rfl, id⟩

end Session

end NetnsWatch
