import NetnsWatch.Proofs.Session.Stamps
import NetnsWatch.Proofs.Session.WindDown

/-!
# A self test can always be completed

While nobody cancels the token, whatever is on its way can go on: a record is taken and sent, an event
becomes an entry, and an entry is logged. Each of these turns leaves less to do, counted from the ring
to the log, so after any schedule some more turns end the self test with everything logged. Once that
is so nothing more is logged, also when the token is cancelled then.
-/

namespace NetnsWatch

/-- The entry in a line of the report, if there is one. -/
def ReportLine.entry? : ReportLine → Option Entry
  | .entry reported => some reported
  | .count _ => none

/-- The entry that a notice reports, if it reports one. -/
def Notice.entry? (notice : Notice) : Option Entry :=
  notice.reportLine?.bind ReportLine.entry?

namespace Session

variable {window : Duration} {total moved : Traffic} {s s' : Session} {t : Turn}

/-- The self test has ended, and nothing is on its way. -/
structure Finished (s : Session) : Prop where
  burst : s.burst = .ended
  settled : s.Settled

/-- The entries that were logged, oldest first. -/
def logged (s : Session) : List Entry :=
  s.picked Notice.entry?

/-- The entries that were logged are those in the lines of the report. -/
theorem logged_eq (s : Session) : s.logged = (s.picked Notice.reportLine?).filterMap ReportLine.entry? := by
  rw [logged, picked, picked, List.filterMap_filterMap]
  rfl

/-- What is left to do until everything is logged. -/
def toDo (s : Session) : Nat :=
  200 * s.burst.work + 4 * s.ring.load + 4 * s.drain.hand.length + 3 * s.source.queue.length +
    2 * s.correlate.hand.length + s.entries.queue.length

/-- Some turns leave less to do, and do not cancel the token. -/
def Progresses (s : Session) : Prop :=
  ∃ more, Own more ∧ Open more ∧ (run more s).toDo < s.toDo

/-- A self test that runs goes on. -/
theorem progresses_burst (hburst : s.burst ≠ .ended) : s.Progresses := by
  obtain ⟨more, hown, hopen, hpushes⟩ := exists_pushes hburst
  have hwork := hpushes.burst
  have hload := hpushes.load
  have hsource := hpushes.source
  refine ⟨more, hown, hopen, ?_⟩
  unfold toDo
  rw [hpushes.drain, hpushes.correlate, hpushes.entries]
  omega

/-- The drain sends the event in its hand. -/
theorem progresses_drain_hand (hw : s.Wired) (hrunning : s.Running) (hhand : s.drain.hand ≠ []) :
    s.Progresses := by
  cases hdrain : s.drain with
  | sending count event =>
    have hreceiving := hw.source_receiving.trans hrunning.correlate
    have hturn : run [.sendRecord] s = { s.deliver event with drain := .draining (count + 1) } := by
      simp only [run, List.foldl, turn, sendRecord, hdrain, Channel.send_of_receiving hreceiving]
      rfl
    refine ⟨[.sendRecord], by simp [Own], by simp [Open], ?_⟩
    rw [hturn]
    simp only [toDo, hdrain, DrainPhase.hand, deliver, List.length_append, List.length_singleton,
      List.length_nil]
    omega
  | waiting | draining | ended =>
    rw [hdrain] at hhand
    exact absurd rfl hhand

/-- A drain takes the next record of a ring. -/
theorem progresses_draining {count : Nat} {record : Bytes} {queue : List Bytes}
    (hdrain : s.drain = .draining count) (hholds : Ring.Holds s.ring (record :: queue)) :
    (run [.takeRecord] s).toDo < s.toDo := by
  have hturn : run [.takeRecord] s = { s with
      ring := s.ring.release record.length
      drain := .sending count (observe record s.now)
      journal := s.journal ++ observed (observe record s.now) } := by
    simp only [run, List.foldl, turn, takeRecord, hdrain, Ring.next_of_holds_cons hholds]
  have hload := Ring.load_release_lt hholds
  rw [hturn]
  simp only [toDo, hdrain, DrainPhase.hand, List.length_singleton, List.length_nil]
  omega

/-- A ring with a record is drained. -/
theorem progresses_ring {record : Bytes} {queue : List Bytes} (hrunning : s.Running)
    (hhand : s.drain.hand = []) (hholds : Ring.Holds s.ring (record :: queue)) : s.Progresses := by
  cases hdrain : s.drain with
  | waiting =>
    have hwoken : run [.wakeDrain] s = { s with drain := .draining 0 } := by
      simp only [run, List.foldl, turn, wakeDrain, hdrain]
    have hless := progresses_draining (s := { s with drain := .draining 0 }) rfl hholds
    refine ⟨[.wakeDrain, .takeRecord], by simp [Own], by simp [Open], ?_⟩
    change (run [.takeRecord] (run [.wakeDrain] s)).toDo < _
    rw [hwoken]
    refine Nat.lt_of_lt_of_eq hless ?_
    simp only [toDo, hdrain, DrainPhase.hand]
  | draining count =>
    exact ⟨[.takeRecord], by simp [Own], by simp [Open], progresses_draining hdrain hholds⟩
  | sending count event =>
    rw [hdrain] at hhand
    cases hhand
  | ended =>
    have halive := hrunning.drain
    rw [hdrain] at halive
    cases halive

/-- The correlation sends the entry in its hand. -/
theorem progresses_correlate_hand (hw : s.Wired) (hrunning : s.Running)
    (hhand : s.correlate.hand ≠ []) : s.Progresses := by
  cases hcorrelate : s.correlate with
  | sending entry =>
    have hreceiving := hw.entries_receiving.trans hrunning.report
    have hturn : run [.sendEntry] s = { s with
        entries := { s.entries with queue := s.entries.queue ++ [entry] }
        correlate := .waiting } := by
      simp only [run, List.foldl, turn, sendEntry, hcorrelate, Channel.send_of_receiving hreceiving]
    refine ⟨[.sendEntry], by simp [Own], by simp [Open], ?_⟩
    rw [hturn]
    simp only [toDo, hcorrelate, CorrelatePhase.hand, List.length_append, List.length_singleton,
      List.length_nil]
    omega
  | waiting | ended =>
    rw [hcorrelate] at hhand
    exact absurd rfl hhand

/-- The correlation takes the next event. -/
theorem progresses_source (hrunning : s.Running) (hhand : s.correlate.hand = [])
    (hsource : s.source.queue ≠ []) : s.Progresses := by
  obtain ⟨event, later, hqueue⟩ := List.exists_cons_of_ne_nil hsource
  cases hcorrelate : s.correlate with
  | waiting =>
    have hturn : run [.takeEvent] s = { s with
        source := { s.source with queue := later }
        correlator := (s.correlator.accept event).2
        correlate := .sending (s.correlator.accept event).1 } := by
      simp only [run, List.foldl, turn, takeEvent, hcorrelate, Channel.receive_of_cons hqueue]
    refine ⟨[.takeEvent], by simp [Own], by simp [Open], ?_⟩
    rw [hturn]
    simp only [toDo, hcorrelate, hqueue, CorrelatePhase.hand, List.length_cons, List.length_nil]
    omega
  | sending entry =>
    rw [hcorrelate] at hhand
    cases hhand
  | ended =>
    have halive := hrunning.correlate
    rw [hcorrelate] at halive
    cases halive

/-- The report logs the next entry. -/
theorem progresses_entries (hrunning : s.Running) (hentries : s.entries.queue ≠ []) :
    s.Progresses := by
  obtain ⟨entry, later, hqueue⟩ := List.exists_cons_of_ne_nil hentries
  cases hreport : s.report with
  | waiting =>
    have hturn : run [.takeEntry] s = note (.entry entry)
        { s with entries := { s.entries with queue := later }, reported := s.reported + 1 } := by
      simp only [run, List.foldl, turn, takeEntry, hreport, Channel.receive_of_cons hqueue]
    refine ⟨[.takeEntry], by simp [Own], by simp [Open], ?_⟩
    rw [hturn]
    simp only [toDo, hqueue, note, List.length_cons]
    omega
  | ended =>
    have halive := hrunning.report
    rw [hreport] at halive
    cases halive

/-- While something is on its way, or the self test has not ended, there is a turn that goes on. -/
theorem Underway.progresses (h : Underway window total s) (hfinished : ¬ s.Finished) :
    s.Progresses := by
  obtain ⟨queue, -, hholds⟩ := h.tested.conserves
  by_contra hstuck
  have hburst : s.burst = .ended := by_contra fun hne => hstuck (progresses_burst hne)
  have hdrain : s.drain.hand = [] :=
    by_contra fun hne => hstuck (progresses_drain_hand h.tested.wired h.running hne)
  have hring : s.ring.consumer = s.ring.producer := by
    cases queue with
    | nil => exact UInt64.toNat_inj.mp hholds.producer_eq.symm
    | cons record queue => exact absurd (progresses_ring h.running hdrain hholds) hstuck
  have hlisten : s.listen.hand = [] := by rw [h.tested.listen]; rfl
  have hcorrelate : s.correlate.hand = [] :=
    by_contra fun hne => hstuck (progresses_correlate_hand h.tested.wired h.running hne)
  have hsource : s.source.queue = [] :=
    by_contra fun hne => hstuck (progresses_source h.running hcorrelate hne)
  have hentries : s.entries.queue = [] :=
    by_contra fun hne => hstuck (progresses_entries h.running hne)
  exact hfinished ⟨hburst, hring, hdrain, hlisten, hsource, hcorrelate, hentries⟩

/-- The self test can be completed, whatever its tasks have done so far. -/
theorem Underway.exists_finished (h : Underway window total s) :
    ∃ more, Own more ∧ Open more ∧ (Session.run more s).Finished := by
  induction hleft : s.toDo using Nat.strongRecOn generalizing total s with
  | ind left ih =>
    by_cases hfinished : s.Finished
    · exact ⟨[], by simp [Own], by simp [Open], hfinished⟩
    · obtain ⟨more, hown, hopen, hless⟩ := h.progresses hfinished
      obtain ⟨later, hlaterOwn, hlaterOpen, hend⟩ := ih _ (hleft ▸ hless) (h.run hown hopen) rfl
      refine ⟨more ++ later, hown.append hlaterOwn, hopen.append hlaterOpen, ?_⟩
      rw [Session.run, List.foldl_append]
      exact hend

/-- Once the self test has finished, the entries of all events that were sent are logged. -/
theorem Underway.logged_eq (h : Underway window total s) (hfinished : s.Finished) :
    s.logged = Correlator.entriesOf window total.sent := by
  obtain ⟨taken, logged, hflow, -, hlines⟩ := h.flows
  rw [hfinished.settled.source, hfinished.settled.entries] at hflow
  have hall := hflow.logged_eq h.running.correlate h.running.report hfinished.settled.correlate
  rw [Session.logged_eq, hlines, h.running.report, if_pos rfl, List.append_nil, hall,
    List.filterMap_map]
  exact List.filterMap_some

/-- A session that has finished and changes neither its ring nor what is in flight has finished. -/
theorem Finished.of_eq (h : s.Finished) (hburst : s'.burst = s.burst) (hring : s'.ring = s.ring)
    (hlisten : s'.listen = s.listen) (hdrain : s'.drain.hand = []) (hsource : s'.source.queue = [])
    (hcorrelate : s'.correlate.hand = []) (hentries : s'.entries.queue = []) : s'.Finished :=
  ⟨hburst.trans h.burst, by rw [hring]; exact h.settled.ring, hdrain,
    by rw [hlisten]; exact h.settled.listen, hsource, hcorrelate, hentries⟩

/-- What has finished stays so, and logs no further entry, whatever happens then. -/
theorem Finished.step (h : s.Finished) (htested : Tested total s)
    (hown : ∀ record, t ≠ .submit record) (hs : Step s t moved s') :
    s'.Finished ∧ s'.logged = s.logged := by
  obtain ⟨hburst, hring, hdrain, hlisten, hsource, hcorrelate, hentries⟩ := id h
  have hempty : ∀ result, s.ring.next = result → result = (.ok none, s.ring) := by
    obtain ⟨queue, -, hholds⟩ := htested.conserves
    rw [hholds.eq_nil_of_empty hring] at hholds
    exact fun result hnext => hnext.symm.trans (Ring.next_of_holds_nil hholds)
  have hfinish : ∀ (s : Session) (task : String) (ending : Ending),
      (s.finish task ending).logged = s.logged :=
    fun s task ending => picked_finish s task ending fun _ => rfl
  cases hs with
  | rest => exact ⟨h, rfl⟩
  | submit => exact absurd rfl (hown _)
  | beginShutdown =>
    exact ⟨h.of_eq rfl rfl rfl hdrain hsource hcorrelate hentries, picked_beginShutdown s rfl⟩
  | joinNext =>
    exact ⟨h.of_eq rfl rfl rfl hdrain hsource hcorrelate hentries, picked_joinNext s rfl⟩
  | advance | cancel => exact ⟨h.of_eq rfl rfl rfl hdrain hsource hcorrelate hentries, rfl⟩
  | wakeDrain => exact ⟨h.of_eq rfl rfl rfl rfl hsource hcorrelate hentries, rfl⟩
  | takeNothing _ hnext =>
    cases hempty _ hnext
    exact ⟨h.of_eq rfl rfl rfl rfl hsource hcorrelate hentries, rfl⟩
  | takeRecord _ hnext | findDamage _ hnext => cases hempty _ hnext
  | sendRecord hphase | loseRecord hphase =>
    rw [hphase] at hdrain
    cases hdrain
  | stopDrain =>
    refine ⟨h.of_eq rfl rfl rfl rfl hsource hcorrelate hentries, ?_⟩
    exact (hfinish _ _ _).trans (picked_note s rfl)
  | receiveFault hphase | receiveNothing hphase | receive hphase | sendNothing hphase
  | sendNotification hphase | loseNotification hphase | stopListen hphase =>
    exact absurd (htested.listen.symm.trans hphase) nofun
  | takeEvent _ hqueue =>
    rw [hsource] at hqueue
    cases hqueue
  | sendEntry hphase | loseEntry hphase =>
    rw [hphase] at hcorrelate
    cases hcorrelate
  | sourceClosed =>
    refine ⟨h.of_eq rfl rfl rfl hdrain rfl rfl hentries, ?_⟩
    exact (hfinish _ _ _).trans (picked_note s rfl)
  | stopCorrelate =>
    exact ⟨h.of_eq rfl rfl rfl hdrain rfl rfl hentries, hfinish _ _ _⟩
  | takeEntry _ hqueue =>
    rw [hentries] at hqueue
    cases hqueue
  | entriesClosed =>
    refine ⟨h.of_eq rfl rfl rfl hdrain hsource hcorrelate rfl, (hfinish _ _ _).trans ?_⟩
    exact (picked_note _ rfl).trans (picked_note s rfl)
  | stopReport =>
    refine ⟨h.of_eq rfl rfl rfl hdrain hsource hcorrelate rfl, (hfinish _ _ _).trans ?_⟩
    exact picked_note s rfl
  | fork hphase | announce hphase | sendAnnouncement hphase | loseAnnouncement hphase
  | clone hphase =>
    exact absurd (hburst.symm.trans hphase) nofun

/-- The log of entries is complete once the self test has finished. -/
theorem Finished.logged_run (h : s.Finished) (htested : Tested total s) {later : List Turn}
    (hown : Own later) : (Session.run later s).logged = s.logged := by
  have hboth := invariant_run (C := fun _ => True)
    (P := fun moved s' => Tested (total ++ moved) s' ∧ s'.Finished ∧ s'.logged = s.logged) later
    ⟨by rw [Traffic.append_none]; exact htested, h, rfl⟩ (fun _ _ => trivial)
    fun {before s' t moved s''} ht _ hold hs => by
      obtain ⟨htested, hfinished, hlogged⟩ := hold
      have hturn : ∀ record, t ≠ .submit record := fun record hrecord => hown record (hrecord ▸ ht)
      obtain ⟨hstill, hsame⟩ := hfinished.step htested hturn hs
      refine ⟨?_, hstill, hsame.trans hlogged⟩
      rw [← Traffic.append_assoc]
      exact htested.step hturn hs
  exact hboth.2.2

end Session

end NetnsWatch
