import NetnsWatch.Proofs.Correlator.Tracks
import NetnsWatch.Proofs.Session.Wiring

/-!
# From source events to reported entries

The correlation takes events in the order in which they were sent, so its state is that of a
correlator which was given the events taken so far. What the report has logged, what is queued for
it, and what the correlation has in hand are together the entries of those events. Where one of the
two tasks has ended, what was queued for it is lost, and the report's log stays a prefix.
-/

namespace NetnsWatch

open Correlator

/-- The entry that the correlation has in hand. -/
def CorrelatePhase.hand : CorrelatePhase → List Entry
  | .sending entry => [entry]
  | .waiting | .ended => []

/-- A line of the report: an entry, or the count at its end. -/
inductive ReportLine where
  | entry (entry : Entry)
  | count (count : Nat)
  deriving DecidableEq

/-- The line of the report that a notice is, if it is one. -/
def Notice.reportLine? : Notice → Option ReportLine
  | .entry reported => some (.entry reported)
  | .entriesReported total => some (.count total)
  | _ => none

/-- Events taken in the order in which they were sent, entries queued and logged in the order in
which they were made; each part is complete while the tasks run that it passes through. -/
structure Flow (window : Duration) (taken sent queue : List SourceEvent) (correlate : CorrelatePhase)
    (correlator : Correlator) (entries logged : List Entry) (report : ReportPhase) : Prop where
  taken_isPrefix : taken <+: sent
  sent_eq : correlate.alive = true → sent = taken ++ queue
  correlator_eq : correlator = stateOf window taken
  logged_isPrefix : logged ++ entries <+: entriesOf window taken
  entries_eq : correlate.alive = true → report.alive = true →
    entriesOf window taken = logged ++ entries ++ correlate.hand

section Operations

variable {window : Duration} {taken sent queue : List SourceEvent} {correlate : CorrelatePhase}
  {correlator : Correlator} {entries logged : List Entry} {report : ReportPhase}

/-- An event that is sent is the last in the queue. -/
theorem Flow.send (h : Flow window taken sent queue correlate correlator entries logged report)
    (event : SourceEvent) : Flow window taken (sent ++ [event]) (queue ++ [event]) correlate correlator
      entries logged report := by
  refine ⟨h.taken_isPrefix.trans (List.prefix_append _ _), fun halive => ?_, h.correlator_eq,
    h.logged_isPrefix, h.entries_eq⟩
  rw [h.sent_eq halive, List.append_assoc]

/-- The event that is taken is accepted, and its entry comes into the correlation's hand. -/
theorem Flow.takeEvent {event : SourceEvent}
    (h : Flow window taken sent (event :: queue) .waiting correlator entries logged report) :
    Flow window (taken ++ [event]) sent queue (.sending (correlator.accept event).1)
      (correlator.accept event).2 entries logged report := by
  have hsent : sent = taken ++ [event] ++ queue := by
    rw [h.sent_eq rfl, List.append_assoc, List.singleton_append]
  have hentries := entriesOf_append_singleton window taken event
  rw [← h.correlator_eq] at hentries
  refine ⟨⟨queue, hsent.symm⟩, fun _ => hsent, ?_, ?_, fun _ halive => ?_⟩
  · rw [stateOf_append_singleton, ← h.correlator_eq]
  · rw [hentries]
    exact h.logged_isPrefix.trans (List.prefix_append _ _)
  · rw [hentries, h.entries_eq rfl halive]
    simp [CorrelatePhase.hand]

/-- The entry in hand is the last that is queued for the report. -/
theorem Flow.sendEntry {entry : Entry}
    (h : Flow window taken sent queue (.sending entry) correlator entries logged report)
    (halive : report.alive = true) :
    Flow window taken sent queue .waiting correlator (entries ++ [entry]) logged report := by
  have hhand : (CorrelatePhase.sending entry).hand = [entry] := rfl
  have hentries : entriesOf window taken = logged ++ (entries ++ [entry]) := by
    rw [h.entries_eq rfl halive, hhand, List.append_assoc]
  refine ⟨h.taken_isPrefix, fun _ => h.sent_eq rfl, h.correlator_eq, ?_, fun _ _ => ?_⟩
  · exact hentries.symm ▸ List.prefix_rfl
  · rw [hentries]
    exact (List.append_nil _).symm

/-- The entry that is logged is the first that was queued. -/
theorem Flow.takeEntry {entry : Entry}
    (h : Flow window taken sent queue correlate correlator (entry :: entries) logged report) :
    Flow window taken sent queue correlate correlator entries (logged ++ [entry]) report := by
  have hmoved : logged ++ [entry] ++ entries = logged ++ entry :: entries := by
    rw [List.append_assoc, List.singleton_append]
  refine ⟨h.taken_isPrefix, h.sent_eq, h.correlator_eq, ?_, fun hcorrelate hreport => ?_⟩
  · rw [hmoved]
    exact h.logged_isPrefix
  · rw [hmoved]
    exact h.entries_eq hcorrelate hreport

/-- The correlation loses what was queued for it, and its entry, when it ends. -/
theorem Flow.endCorrelate
    (h : Flow window taken sent queue correlate correlator entries logged report) :
    Flow window taken sent [] .ended correlator entries logged report :=
  ⟨h.taken_isPrefix, fun halive => absurd halive Bool.false_ne_true, h.correlator_eq,
    h.logged_isPrefix, fun halive => absurd halive Bool.false_ne_true⟩

/-- The report loses what was queued for it when it ends. -/
theorem Flow.endReport
    (h : Flow window taken sent queue correlate correlator entries logged report) :
    Flow window taken sent queue correlate correlator [] logged .ended := by
  refine ⟨h.taken_isPrefix, h.sent_eq, h.correlator_eq, ?_,
    fun _ halive => absurd halive Bool.false_ne_true⟩
  rw [List.append_nil]
  exact (List.prefix_append logged entries).trans h.logged_isPrefix

/-- While both tasks run and nothing is on its way, every entry of what was sent is logged. -/
theorem Flow.logged_eq (h : Flow window taken sent [] correlate correlator [] logged report)
    (hcorrelate : correlate.alive = true) (hreport : report.alive = true)
    (hhand : correlate.hand = []) : logged = entriesOf window sent := by
  have hentries := h.entries_eq hcorrelate hreport
  rw [hhand, List.append_nil, List.append_nil] at hentries
  rw [h.sent_eq hcorrelate, List.append_nil, hentries]

end Operations

namespace Session

/-- The flow through a session, and the lines of its report: the entries, and once it has ended
their count. -/
def Flows (window : Duration) (total : Traffic) (s : Session) : Prop :=
  ∃ taken logged, Flow window taken total.sent s.source.queue s.correlate s.correlator
      s.entries.queue logged s.report ∧
    s.reported = logged.length ∧
    s.picked Notice.reportLine? = logged.map .entry ++
      (if s.report.alive then [] else [.count logged.length])

variable {window : Duration} {total moved : Traffic} {s s' : Session} {t : Turn}

/-- Traffic without sent events keeps the flow where nothing that it passes through changes. -/
theorem Flows.quiet (h : Flows window total s) (hsent : moved.sent = [])
    (hsource : s'.source.queue = s.source.queue) (hcorrelate : s'.correlate = s.correlate)
    (hcorrelator : s'.correlator = s.correlator) (hentries : s'.entries.queue = s.entries.queue)
    (hreport : s'.report = s.report) (hreported : s'.reported = s.reported)
    (hlines : s'.picked Notice.reportLine? = s.picked Notice.reportLine?) :
    Flows window (total ++ moved) s' := by
  unfold Flows
  rw [Traffic.sent_append, hsent, List.append_nil, hsource, hcorrelate, hcorrelator, hentries,
    hreport, hreported, hlines]
  exact h

/-- A notice that is no line of the report keeps the flow. -/
theorem Flows.note (h : Flows window total s) {notice : Notice} (hnotice : notice.reportLine? = none) :
    Flows window total (s.note notice) := by
  obtain ⟨taken, logged, hflow, hreported, hlines⟩ := h
  exact ⟨taken, logged, hflow, hreported, (picked_note s hnotice).trans hlines⟩

/-- The end of the correlation keeps the flow. -/
theorem Flows.endCorrelate (h : Flows window total s) (ending : Ending) :
    Flows window total (endCorrelate ending s) := by
  obtain ⟨taken, logged, hflow, hreported, hlines⟩ := h
  refine ⟨taken, logged, hflow.endCorrelate, hreported, ?_⟩
  rw [Session.endCorrelate, picked_finish _ _ _ fun _ => rfl]
  exact hlines

/-- The end of the report logs the count and keeps the flow. -/
theorem Flows.endReport (h : Flows window total s) (halive : s.report.alive = true) :
    Flows window total s.endReport := by
  obtain ⟨taken, logged, hflow, hreported, hlines⟩ := h
  refine ⟨taken, logged, hflow.endReport, hreported, ?_⟩
  rw [Session.endReport, picked_finish _ _ _ fun _ => rfl]
  have hcount : Notice.reportLine? (.entriesReported s.reported) = some (.count s.reported) := rfl
  change (s.note (.entriesReported s.reported)).picked Notice.reportLine? =
    logged.map .entry ++ [.count logged.length]
  rw [picked_note_some s hcount, hlines, halive, hreported, if_pos rfl, List.append_nil]

/-- Every step keeps the flow. -/
theorem Flows.step (h : Flows window total s) (hw : s.Wired) (hs : Step s t moved s') :
    Flows window (total ++ moved) s' := by
  have hnone : Flows window (total ++ Traffic.none) s := by
    rw [Traffic.append_none]
    exact h
  cases hs with
  | submit => exact h.quiet (offerRecord_moves _ _).2.1 rfl rfl rfl rfl rfl rfl rfl
  | fork => exact h.quiet (offerRecord_moves _ _).2.1 rfl rfl rfl rfl rfl rfl rfl
  | clone =>
    rw [noteBurst_eq]
    refine h.quiet (offerRecord_moves _ _).2.1 rfl rfl rfl rfl rfl rfl ?_
    rw [endBurst, picked_finish _ _ _ fun _ => rfl]
    exact picked_noteBurst (s.offered _) _ (fun _ => rfl) rfl
  | beginShutdown => exact h.quiet rfl rfl rfl rfl rfl rfl rfl (picked_beginShutdown s rfl)
  | joinNext => exact h.quiet rfl rfl rfl rfl rfl rfl rfl (picked_joinNext s rfl)
  | takeRecord =>
    exact h.quiet rfl rfl rfl rfl rfl rfl rfl (picked_observed s.journal _ fun _ => rfl)
  | findDamage | loseRecord =>
    refine h.quiet rfl rfl rfl rfl rfl rfl rfl ?_
    exact picked_finish _ _ _ fun _ => rfl
  | stopDrain =>
    refine h.quiet rfl rfl rfl rfl rfl rfl rfl ?_
    rw [endDrain, picked_finish _ _ _ fun _ => rfl]
    exact picked_note s rfl
  | receiveFault | loseNotification | stopListen | loseAnnouncement =>
    refine h.quiet rfl rfl rfl rfl rfl rfl rfl ?_
    exact picked_finish _ _ _ fun _ => rfl
  | receiveNothing => exact h.quiet rfl rfl rfl rfl rfl rfl rfl (picked_note s rfl)
  | @sendRecord _ event | @sendNotification event | @sendAnnouncement event =>
    obtain ⟨taken, logged, hflow, hrest⟩ := h
    exact ⟨taken, logged, hflow.send event, hrest⟩
  | takeEvent hcorrelate hqueue =>
    obtain ⟨taken, logged, hflow, hrest⟩ := hnone
    rw [hcorrelate, hqueue] at hflow
    exact ⟨_, logged, hflow.takeEvent, hrest⟩
  | sourceClosed =>
    exact Flows.endCorrelate (hnone.note rfl) _
  | sendEntry hcorrelate hreceiving =>
    obtain ⟨taken, logged, hflow, hrest⟩ := hnone
    rw [hcorrelate] at hflow
    exact ⟨taken, logged, hflow.sendEntry (hw.entries_receiving.symm.trans hreceiving), hrest⟩
  | loseEntry => exact Flows.endCorrelate (h.quiet rfl rfl rfl rfl rfl rfl rfl rfl) _
  | stopCorrelate => exact hnone.endCorrelate _
  | @takeEntry entry _ hreport hqueue =>
    obtain ⟨taken, logged, hflow, hreported, hlines⟩ := hnone
    rw [hqueue] at hflow
    refine ⟨taken, logged ++ [entry], hflow.takeEntry, ?_, ?_⟩
    · rw [List.length_append, ← hreported]
      rfl
    · have hentry : Notice.reportLine? (.entry entry) = some (.entry entry) := rfl
      rw [picked_note_some _ hentry]
      change s.picked Notice.reportLine? ++ _ = _ ++ (if s.report.alive then _ else _)
      rw [hlines, hreport]
      simp [ReportPhase.alive]
  | entriesClosed hreport =>
    have halive : s.report.alive = true := by rw [hreport]; rfl
    exact Flows.endReport (hnone.note rfl) halive
  | stopReport hreport =>
    have halive : s.report.alive = true := by rw [hreport]; rfl
    exact hnone.endReport halive
  | _ => exact h.quiet rfl rfl rfl rfl rfl rfl rfl rfl

end Session

end NetnsWatch
