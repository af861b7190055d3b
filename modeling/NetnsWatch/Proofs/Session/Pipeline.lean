import NetnsWatch.Proofs.Session.Flow
import NetnsWatch.Proofs.Session.Records

/-!
# The pipeline loses and reorders nothing

Records go from the ring through the drain, the source channel, the correlation and the channel of
entries to the report, and notifications join them in the source channel. Whatever the order of the
turns, the report logs a prefix of the entries of what entered the source channel, and while the
token is not cancelled nothing on the way is lost.
-/

namespace NetnsWatch

open Correlator

/-- What a record is reported as: the event in it, or why there is none. -/
def Occurrence.ofRecord (record : Bytes) : Occurrence :=
  match Event.decode record with
  | .ok event => .process event
  | .error error => .rejected error

namespace Session

variable {window : Duration} {total moved : Traffic} {s s' : Session} {t : Turn}

/-- While the token is not cancelled, every task of the pipeline runs. -/
def Steady (s : Session) : Prop :=
  s.supervisor.cancelled = false → s.drain.alive = true ∧ s.listen.alive = true ∧
    s.correlate.alive = true ∧ s.report.alive = true

/-- A task ends only with a fault, which cancels the token, or once the token is cancelled. -/
theorem Steady.step (h : s.Steady) (hw : s.Wired) (hs : Step s t moved s') : s'.Steady := by
  intro hopen
  cases hs with
  | cancel => cases hopen
  | beginShutdown =>
    have hbefore : s.supervisor.cancelled = false := by
      revert hopen
      simp only [beginShutdown, Supervisor.beginShutdown]
      split
      · intro hopen
        cases hopen
      all_goals exact id
    exact h hbefore
  | joinNext =>
    have hbefore : s.supervisor.cancelled = false := by
      revert hopen
      simp only [joinNext, Supervisor.joinNext]
      repeat' split
      all_goals exact id
    exact h hbefore
  | wakeDrain | takeNothing | takeRecord | sendRecord => exact ⟨rfl, (h hopen).2⟩
  | findDamage | loseRecord | receiveFault | loseNotification | loseEntry | loseAnnouncement =>
    cases hopen
  | stopDrain _ hcancelled | stopListen _ hcancelled | stopCorrelate _ hcancelled
  | stopReport _ hcancelled =>
    exact absurd (hopen.symm.trans hcancelled) Bool.false_ne_true
  | receive | sendNothing => exact ⟨(h hopen).1, rfl, (h hopen).2.2⟩
  | @sendNotification _ later =>
    refine ⟨(h hopen).1, ?_, (h hopen).2.2⟩
    cases later <;> rfl
  | takeEvent | sendEntry => exact ⟨(h hopen).1, (h hopen).2.1, rfl, (h hopen).2.2.2⟩
  | sourceClosed _ _ hsenders =>
    have hcount := hw.source_senders
    rw [hsenders, (h hopen).1, Bool.toNat_true] at hcount
    omega
  | entriesClosed _ _ hsenders =>
    have hcount := hw.entries_senders
    rw [hsenders, (h hopen).2.2.1, Bool.toNat_true] at hcount
    omega
  | clone =>
    rw [noteBurst_eq] at hopen ⊢
    exact h hopen
  | _ => exact h hopen

/-- What is known of the pipeline after any schedule. -/
structure Piped (window : Duration) (total : Traffic) (s : Session) : Prop where
  wired : s.Wired
  own : s.OwnKind
  burst : s.burst = .ended
  steady : s.Steady
  flows : Flows window total s
  records : RecordsSent total s.drain
  notifications : NotificationsSent total s.listen

/-- Nothing is known to be missing at first. -/
theorem piped_pipeline (ring : Ring) (window : Duration) :
    Piped window .none (pipeline ring window) where
  wired := wired_pipeline ring window
  own := by
    constructor <;> exact fun _ hevent => absurd hevent List.not_mem_nil
  burst := rfl
  steady := fun _ => ⟨rfl, rfl, rfl, rfl⟩
  flows := ⟨[], [], ⟨List.prefix_rfl, fun _ => rfl, rfl, List.prefix_rfl, fun _ _ => rfl⟩, rfl, rfl⟩
  records := .of_account rfl
  notifications := ⟨[], fun _ => rfl, rfl⟩

/-- Every step keeps what is known of the pipeline. -/
theorem Piped.step (h : Piped window total s) (hs : Step s t moved s') :
    Piped window (total ++ moved) s' where
  wired := h.wired.step hs
  own := h.own.step hs
  burst := burst_ended_step h.burst hs
  steady := h.steady.step h.wired hs
  flows := h.flows.step h.wired hs
  records := h.records.step h.own hs
  notifications := h.notifications.step h.own h.burst hs

/-- What is known of the pipeline holds after every schedule. -/
theorem piped_run (ring : Ring) (window : Duration) (schedule : List Turn) :
    Piped window (trafficOf schedule (pipeline ring window)) (run schedule (pipeline ring window)) :=
  invariant_run (C := fun _ => True) schedule (piped_pipeline ring window) (fun _ _ => trivial)
    fun _ _ h hs => h.step hs

/-- Nothing is on its way: no record in the ring, no event or entry queued or in hand. -/
structure Settled (s : Session) : Prop where
  ring : s.ring.consumer = s.ring.producer
  drain : s.drain.hand = []
  listen : s.listen.hand = []
  source : s.source.queue = []
  correlate : s.correlate.hand = []
  entries : s.entries.queue = []

/-- A drain has at most one event in hand. -/
theorem length_hand_le (drain : DrainPhase) : drain.hand.length ≤ 1 := by
  cases drain <;> simp [DrainPhase.hand]

/-- The event of a record carries what the record is reported as. -/
theorem observe_eq (record : Bytes) (arrival : Instant) :
    observe record arrival = ⟨arrival, .ofRecord record⟩ := by
  unfold observe Occurrence.ofRecord
  cases Event.decode record <;> rfl

/-- Every record that was taken made one event, and all but the last of them were sent. -/
theorem RecordsSent.ofRecord {drain : DrainPhase} (h : RecordsSent total drain) :
    ∃ unsent : List SourceEvent, unsent.length ≤ 1 ∧
      (unsent = drain.hand ∨ drain = .ended ∧ ∃ fault, (drainTask, fault) ∈ total.vain) ∧
      total.sent.filter SourceEvent.ringBorn ++ unsent =
        total.taken.map fun p => ⟨p.2, .ofRecord p.1⟩ := by
  have hobserve : (fun p : Bytes × Instant => observe p.1 p.2) = fun p => ⟨p.2, .ofRecord p.1⟩ := by
    funext p
    exact observe_eq p.1 p.2
  obtain ⟨refused, hlength, hended, haccount⟩ := h
  rw [hobserve] at haccount
  by_cases hrefused : refused = []
  · subst hrefused
    rw [List.append_nil] at haccount
    exact ⟨drain.hand, length_hand_le drain, Or.inl rfl, haccount⟩
  · obtain ⟨rfl, hvain⟩ := hended hrefused
    exact ⟨refused, hlength, Or.inr ⟨rfl, hvain⟩, haccount⟩

/-- The report logs entries of what was sent, in order, and at its end their count. Every record that
was taken is one event, sent unless it is in hand or was refused by the closed channel. Once nothing
is on its way, and the token is not cancelled, nothing is missing. -/
structure Accounted (window : Duration) (total : Traffic) (s : Session) (logged : List Entry) :
    Prop where
  lines : s.picked Notice.reportLine? = logged.map .entry ++
    (if s.report.alive then [] else [.count logged.length])
  logged_isPrefix : logged <+: entriesOf window total.sent
  numbered : logged.map (·.seq) = List.range' 1 logged.length
  records : ∃ unsent : List SourceEvent, unsent.length ≤ 1 ∧
    (unsent = s.drain.hand ∨ s.drain = .ended ∧ ∃ fault, (drainTask, fault) ∈ total.vain) ∧
    total.sent.filter SourceEvent.ringBorn ++ unsent =
      total.taken.map fun p => ⟨p.2, .ofRecord p.1⟩
  complete : s.supervisor.cancelled = false → s.Settled →
    logged = entriesOf window total.sent ∧
    total.sent.filter SourceEvent.ringBorn = (total.taken.map fun p => ⟨p.2, .ofRecord p.1⟩) ∧
    total.sent.filter (fun event => !event.ringBorn) = total.forwarded

/-- What is known of the pipeline accounts for everything that it logs. -/
theorem Piped.accounted (h : Piped window total s) : ∃ logged, Accounted window total s logged := by
  obtain ⟨taken, logged, hflow, -, hlines⟩ := h.flows
  have hprefix : logged <+: entriesOf window total.sent :=
    (List.prefix_append logged s.entries.queue).trans
      (hflow.logged_isPrefix.trans (isPrefix_entriesOf window hflow.taken_isPrefix))
  refine ⟨logged, hlines, hprefix, ?_, h.records.ofRecord, fun hopen hsettled => ?_⟩
  · have hseq := hprefix.map (·.seq)
    rw [map_seq_entriesOf] at hseq
    have htake := List.prefix_iff_eq_take.mp hseq
    have hlength := hprefix.length_le
    rw [length_entriesOf] at hlength
    rw [List.length_map, List.take_range'_of_length_ge hlength] at htake
    exact htake
  · obtain ⟨hdrain, hlisten, hcorrelate, hreport⟩ := h.steady hopen
    rw [hsettled.source, hsettled.entries] at hflow
    have hlogged := hflow.logged_eq hcorrelate hreport hsettled.correlate
    obtain ⟨unsent, -, hunsent, haccount⟩ := h.records.ofRecord
    have hnone : unsent = [] := by
      rcases hunsent with hhand | ⟨hended, -⟩
      · rw [hhand, hsettled.drain]
      · rw [hended] at hdrain
        cases hdrain
    obtain ⟨lost, hlost, hforwarded⟩ := h.notifications
    rw [hlost hlisten, hsettled.listen, List.append_nil, List.append_nil] at hforwarded
    rw [hnone, List.append_nil] at haccount
    exact ⟨hlogged, haccount, hforwarded⟩

/-- The positions of the ring are exact numbers on the way of a schedule. -/
def ExactOn (schedule : List Turn) (s : Session) : Prop :=
  ∀ i, i < schedule.length → Ring.InRange (run (schedule.take i) s).ring

/-- Under every schedule the report logs what came in, in order and numbered, with nothing missing
once all is settled; and the records come out of the ring in the order in which it accepted them, all
of them once it is empty. -/
theorem pipeline_accounts {capacity : UInt64} {ring : Ring} (hcreate : Ring.create capacity = .ok ring)
    (window : Duration) (schedule : List Turn) :
    (∃ logged, Accounted window (trafficOf schedule (pipeline ring window))
      (run schedule (pipeline ring window)) logged) ∧
    (ExactOn schedule (pipeline ring window) →
      (trafficOf schedule (pipeline ring window)).taken.map Prod.fst <+:
        (trafficOf schedule (pipeline ring window)).accepted ∧
      ((run schedule (pipeline ring window)).Settled →
        (trafficOf schedule (pipeline ring window)).taken.map Prod.fst =
          (trafficOf schedule (pipeline ring window)).accepted)) := by
  refine ⟨(piped_run ring window schedule).accounted, fun hexact => ?_⟩
  have hconserves := conserves_run (s := pipeline ring window) schedule
    (Ring.holds_create hcreate).1 hexact
  refine ⟨?_, fun hsettled => (hconserves.eq_of_empty hsettled.ring).symm⟩
  obtain ⟨queue, hqueue, -⟩ := hconserves
  rw [hqueue]
  exact List.prefix_append _ _

/-- A session with room for a few records, which joins within fifty milliseconds. -/
def roomyPipeline : Session :=
  pipeline (.ofMemory ⟨128, .replicate 16 0, ⟨7, rfl⟩, by decide, rfl⟩) (Duration.ofMillis 50)

/-- A process that enters a new namespace. -/
def newcomer : Event :=
  ⟨.clone, 200, 200, 0, 0, 1, .ofName [105, 112]⟩

/-- Two notifications of one datagram. -/
def assignedThenRemoved : NsidBatch :=
  ⟨some 5, [⟨.assigned, some 5, some 5⟩, ⟨.removed, some 6, none⟩]⟩

/-- The record of a clone and one that cannot be read are drained while a batch is forwarded: the
clone is sent between the two notifications. -/
def interwoven : List Turn :=
  [.submit newcomer.encode, .submit [1, 2, 3], .wakeDrain, .receive (.ok assignedThenRemoved),
    .sendNotification, .advance (Duration.ofMillis 10), .takeRecord, .sendRecord, .sendNotification,
    .takeRecord, .sendRecord, .takeRecord] ++
    (List.replicate 4 [.takeEvent, .sendEntry, .takeEntry]).flatten

/-- Both sources come through whole and in order, the clone is joined with the assignment that was
sent before it, and a cancelled report ends with the count of all four entries. -/
theorem interwoven_accounts :
    ∃ logged, Accounted (Duration.ofMillis 50) (trafficOf interwoven roomyPipeline)
      (run interwoven roomyPipeline) logged ∧
    (trafficOf interwoven roomyPipeline).sent =
      [⟨0, .nsid ⟨.assigned, some 5, some 5⟩⟩,
        ⟨Duration.ofMillis 10, .process newcomer⟩,
        ⟨0, .nsid ⟨.removed, some 6, none⟩⟩,
        ⟨Duration.ofMillis 10, .rejected (.length 40 3)⟩] ∧
    logged = entriesOf (Duration.ofMillis 50) (trafficOf interwoven roomyPipeline).sent ∧
    (logged.map fun entry => (entry.seq, entry.association)) =
      [(1, none), (2, some ⟨5, 1, 200, Duration.ofMillis 10⟩), (3, none), (4, none)] ∧
    (trafficOf interwoven roomyPipeline).sent.filter SourceEvent.ringBorn =
      ((trafficOf interwoven roomyPipeline).taken.map fun p => ⟨p.2, .ofRecord p.1⟩) ∧
    (trafficOf interwoven roomyPipeline).sent.filter (fun event => !event.ringBorn) =
      (trafficOf interwoven roomyPipeline).forwarded ∧
    (trafficOf interwoven roomyPipeline).accepted = [newcomer.encode, [1, 2, 3]] ∧
    (trafficOf interwoven roomyPipeline).taken.map Prod.fst =
      (trafficOf interwoven roomyPipeline).accepted ∧
    (run (interwoven ++ [.cancel, .stopReport]) roomyPipeline).picked Notice.reportLine? =
      logged.map .entry ++ [.count 4] := by
  have hcreate : Ring.create 128 =
      .ok (.ofMemory ⟨128, .replicate 16 0, ⟨7, rfl⟩, by decide, rfl⟩) := rfl
  have hexact : ExactOn interwoven roomyPipeline := by
    unfold ExactOn
    decide +kernel
  have hsettled : (run interwoven roomyPipeline).Settled :=
    ⟨by decide +kernel, by decide +kernel, by decide +kernel, by decide +kernel, by decide +kernel,
      by decide +kernel⟩
  obtain ⟨⟨logged, haccounted⟩, hring⟩ :=
    pipeline_accounts hcreate (Duration.ofMillis 50) interwoven
  obtain ⟨hlogged, hborn, hforwarded⟩ := haccounted.complete (by decide +kernel) hsettled
  refine ⟨logged, haccounted, by decide +kernel, hlogged, ?_, hborn, hforwarded, by decide +kernel,
    (hring hexact).2 hsettled, ?_⟩
  · rw [hlogged]
    decide +kernel
  · rw [hlogged]
    decide +kernel

end Session

end NetnsWatch
