import NetnsWatch.Session.Turn
import Mathlib.Data.List.Induction

/-!
# What a turn can do

The traffic of a turn is what it moves: records into and out of the ring, events into the source
channel, notifications into the listener, and sends that nobody receives any more. A step says
everything that a turn can do, with the state of the task that does it, and its traffic. Properties
of all schedules follow from what a step preserves.
-/

namespace NetnsWatch

/-- What a turn or a schedule moves, each kind in order. -/
structure Traffic where
  /-- The records that the ring accepted. -/
  accepted : List Bytes
  /-- The records that the drain took, each with the time. -/
  taken : List (Bytes × Instant)
  /-- The events that entered the source channel. -/
  sent : List SourceEvent
  /-- The events of the notifications that the listener received. -/
  forwarded : List SourceEvent
  /-- The tasks that sent where nobody receives, with the fault that this is. -/
  vain : List (String × Fault)

namespace Traffic

/-- Nothing moves. -/
def none : Traffic :=
  { accepted := [], taken := [], sent := [], forwarded := [], vain := [] }

/-- First one traffic, then the other. -/
def append (a b : Traffic) : Traffic where
  accepted := a.accepted ++ b.accepted
  taken := a.taken ++ b.taken
  sent := a.sent ++ b.sent
  forwarded := a.forwarded ++ b.forwarded
  vain := a.vain ++ b.vain

/-- One traffic after another is written as appending it. -/
instance : Append Traffic := ⟨append⟩

/-- A submission moves the record if it is accepted. -/
def ofSubmission (record : Bytes) : Submission → Traffic
  | .accepted => { none with accepted := [record] }
  | .dropped => none

variable (a b : Traffic)

/-- Appending appends the accepted records. -/
@[simp] theorem accepted_append : (a ++ b).accepted = a.accepted ++ b.accepted := rfl

/-- Appending appends the taken records. -/
@[simp] theorem taken_append : (a ++ b).taken = a.taken ++ b.taken := rfl

/-- Appending appends the sent events. -/
@[simp] theorem sent_append : (a ++ b).sent = a.sent ++ b.sent := rfl

/-- Appending appends the forwarded events. -/
@[simp] theorem forwarded_append : (a ++ b).forwarded = a.forwarded ++ b.forwarded := rfl

/-- Appending appends the sends in vain. -/
@[simp] theorem vain_append : (a ++ b).vain = a.vain ++ b.vain := rfl

/-- After a traffic nothing more moves. -/
@[simp] theorem append_none : a ++ none = a := by
  obtain ⟨accepted, taken, sent, forwarded, vain⟩ := a
  change append _ _ = _
  simp [append, none]

/-- Traffic is appended in any grouping. -/
theorem append_assoc (c : Traffic) : a ++ b ++ c = a ++ (b ++ c) := by
  change append (append a b) c = append a (append b c)
  simp [append]

end Traffic

namespace Session

/-- The fault of a send on a channel that nobody receives from. -/
def closed {α : Type} (c : Channel α) : Fault :=
  .send (c.name ++ " channel closed")

/-- The traffic of a task that sends a source event. -/
def offer (task : String) (event : SourceEvent) (source : Channel SourceEvent) : Traffic :=
  if source.receiving then { Traffic.none with sent := [event] }
  else { Traffic.none with vain := [(task, closed source)] }

/-- The traffic of a task that sends an entry. -/
def offerEntry (entries : Channel Entry) : Traffic :=
  if entries.receiving then Traffic.none
  else { Traffic.none with vain := [(correlateTask, closed entries)] }

/-- The traffic of a submission to the ring. -/
def offerRecord (record : Bytes) (ring : Ring) : Traffic :=
  .ofSubmission record (ring.submit record).1

/-- A submission moves nothing but the record. -/
theorem offerRecord_moves (record : Bytes) (ring : Ring) :
    (offerRecord record ring).taken = [] ∧ (offerRecord record ring).sent = [] ∧
      (offerRecord record ring).forwarded = [] ∧ (offerRecord record ring).vain = [] := by
  unfold offerRecord
  cases (ring.submit record).1 <;> exact ⟨rfl, rfl, rfl, rfl⟩

/-- The traffic of a turn. -/
@[grind =] def traffic (s : Session) : Turn → Traffic
  | .submit record => offerRecord record s.ring
  | .takeRecord =>
    match s.drain, s.ring.next.1 with
    | .draining _, .ok (some record) => { Traffic.none with taken := [(record, s.now)] }
    | _, _ => .none
  | .sendRecord =>
    match s.drain with
    | .sending _ event => offer drainTask event s.source
    | _ => .none
  | .receive outcome =>
    match s.listen, outcome with
    | .waiting, .ok batch =>
      { Traffic.none with forwarded := batch.notifications.map fun n => ⟨s.now, .nsid n⟩ }
    | _, _ => .none
  | .sendNotification =>
    match s.listen with
    | .sending (event :: _) => offer listenTask event s.source
    | _ => .none
  | .sendEntry =>
    match s.correlate with
    | .sending _ => offerEntry s.entries
    | _ => .none
  | .fork pid =>
    match s.burst with
    | .forking left _ =>
      if pid ∈ left then offerRecord (Burst.record .fork pid "bash") s.ring else .none
    | _ => .none
  | .sendAnnouncement =>
    match s.burst with
    | .sending event _ => offer burstTask event s.source
    | _ => .none
  | .clone =>
    match s.burst with
    | .resting due _ =>
      if due ≤ s.now then offerRecord (Burst.record .clone Burst.clonePid "ip") s.ring else .none
    | _ => .none
  | _ => .none

/-- The traffic of turns taken one after another. -/
def trafficOf : List Turn → Session → Traffic
  | [], _ => .none
  | t :: schedule, s => s.traffic t ++ trafficOf schedule (s.turn t)

/-- A session whose source channel holds one event more. -/
def deliver (event : SourceEvent) (s : Session) : Session :=
  { s with source := { s.source with queue := s.source.queue ++ [event] } }

/-- A session whose ring was offered a record. -/
def offered (record : Bytes) (s : Session) : Session :=
  (s.submit record).2

/-- What the self test logs at its end. -/
def noteBurst (dropped : Nat) (s : Session) : Session :=
  (if dropped = 0 then s else s.note (.burstDropped dropped)).note .burstSubmitted

/-- What a turn can do, its traffic, and the session that it leaves. -/
inductive Step (s : Session) : Turn → Traffic → Session → Prop
  /-- The task is not ready. -/
  | rest {t : Turn} : Step s t .none s
  | advance {d : Duration} : Step s (.advance d) .none (s.advance d)
  | submit {record : Bytes} : Step s (.submit record) (offerRecord record s.ring) (s.offered record)
  | cancel : Step s .cancel .none s.cancel
  | beginShutdown : Step s .beginShutdown .none s.beginShutdown
  | joinNext : Step s .joinNext .none s.joinNext
  | wakeDrain : s.drain = .waiting → Step s .wakeDrain .none { s with drain := .draining 0 }
  | takeNothing {count : Nat} {ring : Ring} : s.drain = .draining count →
      s.ring.next = (.ok none, ring) →
      Step s .takeRecord .none { s with ring, drain := .waiting, drained := s.drained + count }
  | takeRecord {count : Nat} {record : Bytes} {ring : Ring} : s.drain = .draining count →
      s.ring.next = (.ok (some record), ring) →
      Step s .takeRecord { Traffic.none with taken := [(record, s.now)] }
        { s with
          ring
          drain := .sending count (observe record s.now)
          journal := s.journal ++ observed (observe record s.now) }
  | findDamage {count : Nat} {fault : Fault} {ring : Ring} : s.drain = .draining count →
      s.ring.next = (.error fault, ring) →
      Step s .takeRecord .none (endDrain (.failed fault) { s with ring })
  | sendRecord {count : Nat} {event : SourceEvent} : s.drain = .sending count event →
      s.source.receiving = true →
      Step s .sendRecord { Traffic.none with sent := [event] }
        { s.deliver event with drain := .draining (count + 1) }
  | loseRecord {count : Nat} {event : SourceEvent} : s.drain = .sending count event →
      s.source.receiving = false →
      Step s .sendRecord { Traffic.none with vain := [(drainTask, closed s.source)] }
        (endDrain (.failed (closed s.source)) s)
  | stopDrain : s.drain = .waiting → s.cancelled = true →
      Step s .stopDrain .none (endDrain .finished (s.note (.drainStopped s.drained)))
  | receiveFault {fault : Fault} : s.listen = .waiting →
      Step s (.receive (.error fault)) .none (endListen (.failed fault) s)
  | receiveNothing {batch : NsidBatch} : s.listen = .waiting → batch.notifications = [] →
      Step s (.receive (.ok batch)) .none (s.note (.emptyBatch batch.nsid))
  | receive {batch : NsidBatch} : s.listen = .waiting → batch.notifications ≠ [] →
      Step s (.receive (.ok batch))
        { Traffic.none with forwarded := batch.notifications.map fun n => ⟨s.now, .nsid n⟩ }
        { s with listen := .sending (batch.notifications.map fun n => ⟨s.now, .nsid n⟩) }
  | sendNothing : s.listen = .sending [] → Step s .sendNotification .none { s with listen := .waiting }
  | sendNotification {event : SourceEvent} {later : List SourceEvent} :
      s.listen = .sending (event :: later) → s.source.receiving = true →
      Step s .sendNotification { Traffic.none with sent := [event] }
        { s.deliver event with listen := if later.isEmpty then .waiting else .sending later }
  | loseNotification {event : SourceEvent} {later : List SourceEvent} :
      s.listen = .sending (event :: later) → s.source.receiving = false →
      Step s .sendNotification { Traffic.none with vain := [(listenTask, closed s.source)] }
        (endListen (.failed (closed s.source)) s)
  | stopListen : s.listen = .waiting → s.cancelled = true →
      Step s .stopListen .none (endListen .finished s)
  | takeEvent {event : SourceEvent} {later : List SourceEvent} : s.correlate = .waiting →
      s.source.queue = event :: later →
      Step s .takeEvent .none
        { s with
          source := { s.source with queue := later }
          correlator := (s.correlator.accept event).2
          correlate := .sending (s.correlator.accept event).1 }
  | sourceClosed : s.correlate = .waiting → s.source.queue = [] → s.source.senders = 0 →
      Step s .takeEvent .none (endCorrelate .finished (s.note (.channelClosed s.source.name)))
  | sendEntry {entry : Entry} : s.correlate = .sending entry → s.entries.receiving = true →
      Step s .sendEntry .none
        { s with
          entries := { s.entries with queue := s.entries.queue ++ [entry] }
          correlate := .waiting }
  | loseEntry {entry : Entry} : s.correlate = .sending entry → s.entries.receiving = false →
      Step s .sendEntry { Traffic.none with vain := [(correlateTask, closed s.entries)] }
        (endCorrelate (.failed (closed s.entries)) s)
  | stopCorrelate : s.correlate = .waiting → s.cancelled = true →
      Step s .stopCorrelate .none (endCorrelate .finished s)
  | takeEntry {entry : Entry} {later : List Entry} : s.report = .waiting →
      s.entries.queue = entry :: later →
      Step s .takeEntry .none
        (note (.entry entry)
          { s with entries := { s.entries with queue := later }, reported := s.reported + 1 })
  | entriesClosed : s.report = .waiting → s.entries.queue = [] → s.entries.senders = 0 →
      Step s .takeEntry .none (endReport (s.note (.channelClosed s.entries.name)))
  | stopReport : s.report = .waiting → s.cancelled = true → Step s .stopReport .none (endReport s)
  | fork {pid : UInt32} {left : List UInt32} {dropped : Nat} : s.burst = .forking left dropped →
      pid ∈ left →
      Step s (.fork pid) (offerRecord (Burst.record .fork pid "bash") s.ring)
        { s.offered (Burst.record .fork pid "bash") with
          burst := .forking (left.erase pid)
            (countDropped (s.submit (Burst.record .fork pid "bash")).1 dropped) }
  | announce {dropped : Nat} : s.burst = .forking [] dropped →
      Step s .announce .none { s with burst := .sending ⟨s.now, .nsid Burst.notification⟩ dropped }
  | sendAnnouncement {event : SourceEvent} {dropped : Nat} : s.burst = .sending event dropped →
      s.source.receiving = true →
      Step s .sendAnnouncement { Traffic.none with sent := [event] }
        { s.deliver event with burst := .resting (s.now + Burst.rest) dropped }
  | loseAnnouncement {event : SourceEvent} {dropped : Nat} : s.burst = .sending event dropped →
      s.source.receiving = false →
      Step s .sendAnnouncement { Traffic.none with vain := [(burstTask, closed s.source)] }
        (endBurst (.failed (closed s.source)) s)
  | clone {due : Instant} {dropped : Nat} : s.burst = .resting due dropped → due ≤ s.now →
      Step s .clone (offerRecord (Burst.record .clone Burst.clonePid "ip") s.ring)
        (endBurst .finished ((s.offered (Burst.record .clone Burst.clonePid "ip")).noteBurst
          (countDropped (s.submit (Burst.record .clone Burst.clonePid "ip")).1 dropped)))

section Turns

variable (s : Session)

/-- The drain's turns do what a step says. -/
theorem step_takeRecord : Step s .takeRecord (s.traffic .takeRecord) s.takeRecord := by
  unfold takeRecord
  split
  · rename_i count hdrain
    split
    · rename_i fault ring hnext
      have htraffic : s.traffic .takeRecord = .none := by simp only [traffic, hdrain, hnext]
      rw [htraffic]
      exact .findDamage hdrain hnext
    · rename_i ring hnext
      have htraffic : s.traffic .takeRecord = .none := by simp only [traffic, hdrain, hnext]
      rw [htraffic]
      exact .takeNothing hdrain hnext
    · rename_i record ring hnext
      have htraffic : s.traffic .takeRecord = { Traffic.none with taken := [(record, s.now)] } := by
        simp only [traffic, hdrain, hnext]
      rw [htraffic]
      exact .takeRecord hdrain hnext
  all_goals
    rename_i hdrain
    simp only [traffic, hdrain]
    exact .rest

/-- Sending the event of a record does what a step says. -/
theorem step_sendRecord : Step s .sendRecord (s.traffic .sendRecord) s.sendRecord := by
  unfold sendRecord
  split
  · rename_i count event hdrain
    simp only [traffic, hdrain, offer]
    cases hreceiving : s.source.receiving with
    | true =>
      rw [Channel.send_of_receiving hreceiving]
      exact .sendRecord hdrain hreceiving
    | false =>
      rw [Channel.send_of_not_receiving hreceiving]
      exact .loseRecord hdrain hreceiving
  all_goals
    rename_i hdrain
    simp only [traffic, hdrain]
    exact .rest

/-- Stopping the drain does what a step says. -/
theorem step_stopDrain : Step s .stopDrain (s.traffic .stopDrain) s.stopDrain := by
  unfold stopDrain
  split
  · rename_i hdrain
    split
    · rename_i hcancelled
      exact .stopDrain hdrain hcancelled
    · exact .rest
  all_goals exact .rest

/-- Receiving a datagram does what a step says. -/
theorem step_receive (outcome : Except Fault NsidBatch) :
    Step s (.receive outcome) (s.traffic (.receive outcome)) (s.receive outcome) := by
  unfold receive
  split
  · rename_i hlisten
    simp only [traffic, hlisten]
    cases outcome with
    | error fault => exact .receiveFault hlisten
    | ok batch =>
      by_cases hempty : batch.notifications.isEmpty = true
      · have hbatch := List.isEmpty_iff.mp hempty
        simp only [hbatch, List.isEmpty_nil, if_true, List.map_nil]
        exact .receiveNothing hlisten hbatch
      · simp only [if_neg hempty]
        exact .receive hlisten (by simpa using hempty)
  all_goals
    rename_i hlisten
    simp only [traffic, hlisten]
    exact .rest

/-- Sending a notification does what a step says. -/
theorem step_sendNotification :
    Step s .sendNotification (s.traffic .sendNotification) s.sendNotification := by
  unfold sendNotification
  split
  · rename_i hlisten
    simp only [traffic, hlisten]
    exact .sendNothing hlisten
  · rename_i event later hlisten
    simp only [traffic, hlisten, offer]
    cases hreceiving : s.source.receiving with
    | true =>
      rw [Channel.send_of_receiving hreceiving]
      exact .sendNotification hlisten hreceiving
    | false =>
      rw [Channel.send_of_not_receiving hreceiving]
      exact .loseNotification hlisten hreceiving
  all_goals
    rename_i hlisten
    simp only [traffic, hlisten]
    exact .rest

/-- Stopping the listener does what a step says. -/
theorem step_stopListen : Step s .stopListen (s.traffic .stopListen) s.stopListen := by
  unfold stopListen
  split
  · rename_i hlisten
    split
    · rename_i hcancelled
      exact .stopListen hlisten hcancelled
    · exact .rest
  all_goals exact .rest

/-- Taking an event does what a step says. -/
theorem step_takeEvent : Step s .takeEvent (s.traffic .takeEvent) s.takeEvent := by
  unfold takeEvent
  split
  · rename_i hcorrelate
    cases hqueue : s.source.queue with
    | nil =>
      rw [Channel.receive_of_nil hqueue]
      by_cases hsenders : s.source.senders = 0
      · rw [if_pos hsenders]
        exact .sourceClosed hcorrelate hqueue hsenders
      · rw [if_neg hsenders]
        exact .rest
    | cons event later =>
      rw [Channel.receive_of_cons hqueue]
      exact .takeEvent hcorrelate hqueue
  all_goals exact .rest

/-- Sending an entry does what a step says. -/
theorem step_sendEntry : Step s .sendEntry (s.traffic .sendEntry) s.sendEntry := by
  unfold sendEntry
  split
  · rename_i entry hcorrelate
    simp only [traffic, hcorrelate, offerEntry]
    cases hreceiving : s.entries.receiving with
    | true =>
      rw [Channel.send_of_receiving hreceiving]
      exact .sendEntry hcorrelate hreceiving
    | false =>
      rw [Channel.send_of_not_receiving hreceiving]
      exact .loseEntry hcorrelate hreceiving
  all_goals
    rename_i hcorrelate
    simp only [traffic, hcorrelate]
    exact .rest

/-- Stopping the correlation does what a step says. -/
theorem step_stopCorrelate : Step s .stopCorrelate (s.traffic .stopCorrelate) s.stopCorrelate := by
  unfold stopCorrelate
  split
  · rename_i hcorrelate
    split
    · rename_i hcancelled
      exact .stopCorrelate hcorrelate hcancelled
    · exact .rest
  all_goals exact .rest

/-- Taking an entry does what a step says. -/
theorem step_takeEntry : Step s .takeEntry (s.traffic .takeEntry) s.takeEntry := by
  unfold takeEntry
  split
  · rename_i hreport
    cases hqueue : s.entries.queue with
    | nil =>
      rw [Channel.receive_of_nil hqueue]
      by_cases hsenders : s.entries.senders = 0
      · rw [if_pos hsenders]
        exact .entriesClosed hreport hqueue hsenders
      · rw [if_neg hsenders]
        exact .rest
    | cons entry later =>
      rw [Channel.receive_of_cons hqueue]
      exact .takeEntry hreport hqueue
  · exact .rest

/-- Stopping the report does what a step says. -/
theorem step_stopReport : Step s .stopReport (s.traffic .stopReport) s.stopReport := by
  unfold stopReport
  split
  · rename_i hreport
    split
    · rename_i hcancelled
      exact .stopReport hreport hcancelled
    · exact .rest
  · exact .rest

/-- A writer's submission does what a step says. -/
theorem step_fork (pid : UInt32) : Step s (.fork pid) (s.traffic (.fork pid)) (s.fork pid) := by
  unfold fork
  split
  · rename_i left dropped hburst
    by_cases hpid : pid ∈ left
    · simp only [traffic, hburst, if_pos hpid]
      exact .fork hburst hpid
    · simp only [traffic, hburst, if_neg hpid]
      exact .rest
  all_goals
    rename_i hburst
    simp only [traffic, hburst]
    exact .rest

/-- Stamping the announcement does what a step says. -/
theorem step_announce : Step s .announce (s.traffic .announce) s.announce := by
  unfold announce
  split
  · rename_i dropped hburst
    exact .announce hburst
  all_goals exact .rest

/-- Sending the announcement does what a step says. -/
theorem step_sendAnnouncement :
    Step s .sendAnnouncement (s.traffic .sendAnnouncement) s.sendAnnouncement := by
  unfold sendAnnouncement
  split
  · rename_i event dropped hburst
    simp only [traffic, hburst, offer]
    cases hreceiving : s.source.receiving with
    | true =>
      rw [Channel.send_of_receiving hreceiving]
      exact .sendAnnouncement hburst hreceiving
    | false =>
      rw [Channel.send_of_not_receiving hreceiving]
      exact .loseAnnouncement hburst hreceiving
  all_goals
    rename_i hburst
    simp only [traffic, hburst]
    exact .rest

/-- The last submission of the self test does what a step says. -/
theorem step_clone : Step s .clone (s.traffic .clone) s.clone := by
  unfold clone
  split
  · rename_i due dropped hburst
    by_cases hdue : due ≤ s.now
    · simp only [traffic, hburst, if_pos hdue]
      exact .clone hburst hdue
    · simp only [traffic, hburst, if_neg hdue]
      exact .rest
  all_goals
    rename_i hburst
    simp only [traffic, hburst]
    exact .rest

/-- Every turn does what a step says. -/
theorem step_turn (t : Turn) : Step s t (s.traffic t) (s.turn t) := by
  cases t with
  | advance d => exact .advance
  | submit record => exact .submit
  | wakeDrain =>
    unfold turn wakeDrain
    cases hdrain : s.drain with
    | waiting => exact .wakeDrain hdrain
    | draining count => exact .rest
    | sending count event => exact .rest
    | ended => exact .rest
  | takeRecord => exact s.step_takeRecord
  | sendRecord => exact s.step_sendRecord
  | stopDrain => exact s.step_stopDrain
  | receive outcome => exact s.step_receive outcome
  | sendNotification => exact s.step_sendNotification
  | stopListen => exact s.step_stopListen
  | takeEvent => exact s.step_takeEvent
  | sendEntry => exact s.step_sendEntry
  | stopCorrelate => exact s.step_stopCorrelate
  | takeEntry => exact s.step_takeEntry
  | stopReport => exact s.step_stopReport
  | fork pid => exact s.step_fork pid
  | announce => exact s.step_announce
  | sendAnnouncement => exact s.step_sendAnnouncement
  | clone => exact s.step_clone
  | cancel => exact .cancel
  | beginShutdown => exact .beginShutdown
  | joinNext => exact .joinNext

end Turns

/-- One turn more at the end of a schedule. -/
theorem run_append_singleton (schedule : List Turn) (t : Turn) (s : Session) :
    run (schedule ++ [t]) s = (run schedule s).turn t := by
  rw [run, List.foldl_append]
  rfl

/-- The traffic of a schedule with one turn more. -/
theorem trafficOf_append_singleton (schedule : List Turn) (t : Turn) (s : Session) :
    trafficOf (schedule ++ [t]) s = trafficOf schedule s ++ (run schedule s).traffic t := by
  induction schedule generalizing s with
  | nil => exact (s.traffic t).append_none
  | cons first schedule ih =>
    rw [List.cons_append, trafficOf, ih, trafficOf]
    simp [run, Traffic.append_assoc]

/-- What holds at first, and is preserved by every step that starts where a condition holds, holds
after every schedule that meets the condition on its way. -/
theorem invariant_run {P : Traffic → Session → Prop} {C : Session → Prop} {s : Session}
    (schedule : List Turn) (hfirst : P .none s)
    (hcondition : ∀ i, i < schedule.length → C (run (schedule.take i) s))
    (hstep : ∀ {total s t moved s'}, t ∈ schedule → C s → P total s → Step s t moved s' →
      P (total ++ moved) s') :
    P (trafficOf schedule s) (run schedule s) := by
  induction schedule using List.reverseRecOn with
  | nil => exact hfirst
  | append_singleton schedule t ih =>
    rw [trafficOf_append_singleton, run_append_singleton]
    have hbefore : ∀ i, i < schedule.length → C (run (schedule.take i) s) := by
      intro i hi
      have h := hcondition i (by rw [List.length_append]; omega)
      rwa [List.take_append_of_le_length (Nat.le_of_lt hi)] at h
    have hnow : C (run schedule s) := by
      have h := hcondition schedule.length (by rw [List.length_append, List.length_singleton]; omega)
      rwa [List.take_left] at h
    refine hstep (List.mem_append_right _ (List.mem_singleton.mpr rfl)) hnow
      (ih hbefore fun ht => hstep (List.mem_append_left _ ht)) (step_turn _ t)

end Session

end NetnsWatch
