import NetnsWatch.Proofs.Session.SelfTest

/-!
# A shutdown can always come to its end

Once the shutdown of a self test has begun, some task always has a turn that brings it closer to its
end, and when all tasks have ended, so does the shutdown. What is left to do is a number: the tasks
come in the order self test, drain, correlation and report, and the work of one outweighs what its
turns leave to those behind it.
-/

namespace NetnsWatch

/-- The bytes of a ring in use. -/
def Ring.load (r : Ring) : Nat :=
  r.producer.toNat - r.consumer.toNat

/-- What a drain has left to do, given the bytes of the ring in use. -/
def DrainPhase.work (load : Nat) : DrainPhase → Nat
  | .sending .. => load + 4
  | .draining _ => load + 3
  | .waiting => 2
  | .ended => 0

/-- What a correlation has left to do before it can stop. -/
def CorrelatePhase.work : CorrelatePhase → Nat
  | .sending _ => 3
  | .waiting => 2
  | .ended => 0

/-- What a report has left to do before it can stop. -/
def ReportPhase.work : ReportPhase → Nat
  | .waiting => 2
  | .ended => 0

/-- What a self test has left to do. -/
def BurstPhase.work : BurstPhase → Nat
  | .forking left _ => left.length + 3
  | .sending .. => 2
  | .resting .. => 1
  | .ended => 0

/-- What a shutdown has left to do: to join the tasks that have ended, and to return. -/
def Supervisor.work (s : Supervisor) : Nat :=
  match s.shutdown with
  | .idle | .joining _ => s.ended.length + 1
  | .returned _ => s.ended.length

/-- A task that ends is one more to join. -/
theorem Supervisor.work_finish (s : Supervisor) (task : String) (ending : Ending) :
    (s.finish task ending).1.work = s.work + 1 := by
  obtain ⟨cancelled, running, ended, shutdown⟩ := s
  cases ending <;> cases shutdown <;> simp [finish, work, cancel]

/-- While a shutdown has not returned and no task runs, joining brings it closer to its end. -/
theorem Supervisor.work_joinNext_lt {s : Supervisor} {first : Option Fault}
    (hshutdown : s.shutdown = .joining first) (hrunning : s.running = []) :
    s.joinNext.1.work < s.work := by
  obtain ⟨cancelled, running, ended, shutdown⟩ := s
  subst hshutdown
  subst hrunning
  cases ended with
  | nil => exact Nat.lt_succ_self 0
  | cons ending rest =>
    cases ending with
    | finished => exact Nat.lt_succ_self _
    | failed fault => exact Nat.lt_succ_self _
    | crashed => exact Nat.lt_succ_of_lt (Nat.lt_succ_self _)

namespace Ring

/-- The bytes in use are those of the records that a ring holds. -/
theorem load_eq {r : Ring} {queue : List Bytes} (h : Holds r queue) :
    r.load = 8 * (layout queue).length := by
  have hproducer := h.producer_eq
  unfold load
  omega

/-- Releasing a record makes room. -/
theorem load_release_lt {r : Ring} {record : Bytes} {queue : List Bytes}
    (h : Holds r (record :: queue)) : (r.release record.length).load + 1 < r.load := by
  have hbefore := load_eq h
  rw [layout_cons, List.length_append, length_frame] at hbefore
  have hafter := load_eq (holds_release h)
  omega

end Ring

namespace Session

variable {total : Traffic} {s s' : Session}

/-- What a session has left to do before its shutdown can return. -/
def work (s : Session) : Nat :=
  64 * s.burst.work + s.drain.work s.ring.load + s.correlate.work + s.report.work +
    s.supervisor.work

/-- Some turns of the self test's own tasks bring the end closer. -/
def Works (s : Session) : Prop :=
  ∃ more, Own more ∧ (run more s).work < s.work

/-- Bytes that come into the ring are as much more work for the drain at most. -/
theorem work_drain_le (drain : DrainPhase) {load load' : Nat} (h : load' ≤ load + 48) :
    drain.work load' ≤ drain.work load + 48 := by
  cases drain <;> simp only [DrainPhase.work] <;> omega

/-- A turn of the self test brings it closer to its end, and leaves little to the other tasks: a record
in the ring, an event in the source channel, or itself to be joined. -/
structure Pushes (s s' : Session) : Prop where
  burst : s'.burst.work < s.burst.work
  load : s'.ring.load ≤ s.ring.load + 48
  drain : s'.drain = s.drain
  source : s'.source.queue.length ≤ s.source.queue.length + 1
  correlate : s'.correlate = s.correlate
  entries : s'.entries = s.entries
  report : s'.report = s.report
  supervisor : s'.supervisor.work ≤ s.supervisor.work + 1

/-- It does more work than it leaves. -/
theorem Pushes.work_lt (h : Pushes s s') : s'.work < s.work := by
  have hle := work_drain_le s.drain h.load
  have hburst := h.burst
  have hsupervisor := h.supervisor
  unfold work
  rw [h.drain, h.correlate, h.report]
  omega

/-- A record of the self test fills 48 bytes of the ring at most. -/
theorem load_offered_le (kind : Kind) (pid : UInt32) (name : String) (s : Session) :
    (s.offered (Burst.record kind pid name)).ring.load ≤ s.ring.load + 48 := by
  have hproducer := producer_offered_le kind pid name s
  have hconsumer := Ring.consumer_submit s.ring (Burst.record kind pid name)
  change (s.offered (Burst.record kind pid name)).ring.consumer = _ at hconsumer
  unfold Ring.load
  rw [hconsumer]
  omega

/-- The announcement is stamped. -/
theorem pushes_announce {dropped : Nat} (hburst : s.burst = .forking [] dropped) :
    Pushes s s.announce := by
  have hturn : s.announce = { s with burst := .sending ⟨s.now, .nsid Burst.notification⟩ dropped } := by
    simp only [announce, hburst]
  rw [hturn]
  refine ⟨?_, Nat.le_add_right _ _, rfl, Nat.le_succ _, rfl, rfl, rfl, Nat.le_succ _⟩
  rw [hburst]
  exact Nat.lt_succ_self 2

/-- A writer has submitted its record. -/
theorem pushes_fork {pid : UInt32} {left : List UInt32} {dropped : Nat}
    (hburst : s.burst = .forking (pid :: left) dropped) : Pushes s (s.fork pid) := by
  have hturn : s.fork pid = { s.offered (Burst.record .fork pid "bash") with
      burst := .forking ((pid :: left).erase pid)
        (countDropped (s.submit (Burst.record .fork pid "bash")).1 dropped) } := by
    simp only [fork, hburst, List.mem_cons_self, if_true]
    rfl
  rw [hturn]
  refine ⟨?_, load_offered_le _ _ _ s, rfl, Nat.le_succ _, rfl, rfl, rfl, Nat.le_succ _⟩
  rw [hburst, List.erase_cons_head]
  exact Nat.lt_succ_self _

/-- The announcement is sent, or it ends the self test. -/
theorem pushes_sendAnnouncement {event : SourceEvent} {dropped : Nat}
    (hburst : s.burst = .sending event dropped) : Pushes s s.sendAnnouncement := by
  cases hreceiving : s.source.receiving with
  | true =>
    have hturn : s.sendAnnouncement =
        { s.deliver event with burst := .resting (s.now + Burst.rest) dropped } := by
      simp only [sendAnnouncement, hburst, Channel.send_of_receiving hreceiving]
      rfl
    rw [hturn]
    refine ⟨?_, Nat.le_add_right _ _, rfl, ?_, rfl, rfl, rfl, Nat.le_succ _⟩
    · rw [hburst]
      exact Nat.lt_succ_self 1
    · exact Nat.le_of_eq List.length_append
  | false =>
    have hturn : s.sendAnnouncement = endBurst (.failed (closed s.source)) s := by
      simp only [sendAnnouncement, hburst, Channel.send_of_not_receiving hreceiving]
      rfl
    rw [hturn]
    refine ⟨?_, Nat.le_add_right _ _, rfl, Nat.le_succ _, rfl, rfl, rfl, ?_⟩
    · rw [hburst]
      exact Nat.zero_lt_two
    · exact Nat.le_of_eq (Supervisor.work_finish s.supervisor burstTask (.failed (closed s.source)))

/-- The last record is submitted, and the self test ends. -/
theorem pushes_clone {due : Instant} {dropped : Nat} (hburst : s.burst = .resting due dropped)
    (hdue : due ≤ s.now) : Pushes s s.clone := by
  have hturn : s.clone = endBurst .finished
      ((s.offered (Burst.record .clone Burst.clonePid "ip")).noteBurst
        (countDropped (s.submit (Burst.record .clone Burst.clonePid "ip")).1 dropped)) := by
    simp only [clone, hburst, if_pos hdue]
    rfl
  rw [hturn, noteBurst_eq]
  refine ⟨?_, load_offered_le _ _ _ s, rfl, Nat.le_succ _, rfl, rfl, rfl, ?_⟩
  · rw [hburst]
    exact Nat.zero_lt_one
  · exact Nat.le_of_eq (Supervisor.work_finish s.supervisor burstTask .finished)

/-- A self test that runs has turns that bring it closer to its end. -/
theorem exists_pushes (hburst : s.burst ≠ .ended) :
    ∃ more, Own more ∧ Open more ∧ Pushes s (run more s) := by
  cases hphase : s.burst with
  | ended => exact absurd hphase hburst
  | forking left dropped =>
    cases left with
    | nil => exact ⟨[.announce], by simp [Own], by simp [Open], pushes_announce hphase⟩
    | cons pid left => exact ⟨[.fork pid], by simp [Own], by simp [Open], pushes_fork hphase⟩
  | sending event dropped =>
    exact ⟨[.sendAnnouncement], by simp [Own], by simp [Open], pushes_sendAnnouncement hphase⟩
  | resting due dropped =>
    have hdue : due ≤ s.now + (due - s.now) := by
      unfold Instant at *
      omega
    obtain ⟨hwork, hload, hdrain, hsource, hcorrelate, hentries, hreport, hsupervisor⟩ :=
      pushes_clone (s := s.advance (due - s.now)) hphase hdue
    exact ⟨[.advance (due - s.now), .clone], by simp [Own], by simp [Open], hwork, hload, hdrain,
      hsource, hcorrelate, hentries, hreport, hsupervisor⟩

/-- A self test that runs has a turn that brings the end closer. -/
theorem burst_works (hburst : s.burst ≠ .ended) : s.Works := by
  obtain ⟨more, hown, -, hpushes⟩ := exists_pushes hburst
  exact ⟨more, hown, hpushes.work_lt⟩

/-- The drain takes a record, or finds that none is left. -/
theorem work_takeRecord_lt {count : Nat} {queue : List Bytes} (hdrain : s.drain = .draining count)
    (hholds : Ring.Holds s.ring queue) : s.takeRecord.work < s.work := by
  cases queue with
  | nil =>
    have hturn : s.takeRecord =
        { s with ring := s.ring, drain := .waiting, drained := s.drained + count } := by
      simp only [takeRecord, hdrain, Ring.next_of_holds_nil hholds]
    rw [hturn]
    simp only [work, hdrain, DrainPhase.work]
    omega
  | cons record queue =>
    have hturn : s.takeRecord = { s with
        ring := s.ring.release record.length
        drain := .sending count (observe record s.now)
        journal := s.journal ++ observed (observe record s.now) } := by
      simp only [takeRecord, hdrain, Ring.next_of_holds_cons hholds]
    have hload := Ring.load_release_lt hholds
    rw [hturn]
    simp only [work, hdrain, DrainPhase.work]
    omega

/-- The end of the drain is one task more to join and nothing else. -/
theorem work_endDrain_lt (ending : Ending) (hdrain : 1 < s.drain.work s.ring.load) :
    (endDrain ending s).work < s.work := by
  have hfinish := Supervisor.work_finish s.supervisor drainTask ending
  change 64 * s.burst.work + 0 + s.correlate.work + s.report.work +
    (s.supervisor.finish drainTask ending).1.work < _
  unfold work
  omega

/-- The drain sends the event of a record, or it ends. -/
theorem work_sendRecord_lt {count : Nat} {event : SourceEvent}
    (hdrain : s.drain = .sending count event) : s.sendRecord.work < s.work := by
  cases hreceiving : s.source.receiving with
  | true =>
    have hturn : s.sendRecord = { s.deliver event with drain := .draining (count + 1) } := by
      simp only [sendRecord, hdrain, Channel.send_of_receiving hreceiving]
      rfl
    rw [hturn]
    simp only [work, hdrain, DrainPhase.work, deliver]
    omega
  | false =>
    have hturn : s.sendRecord = endDrain (.failed (closed s.source)) s := by
      simp only [sendRecord, hdrain, Channel.send_of_not_receiving hreceiving]
      rfl
    rw [hturn]
    refine work_endDrain_lt _ ?_
    rw [hdrain]
    exact Nat.lt_add_left _ (by decide)

/-- A drain that runs has a turn that brings the end closer, once the token is cancelled. -/
theorem drain_works {queue : List Bytes} (hdrain : s.drain ≠ .ended)
    (hholds : Ring.Holds s.ring queue) (hcancelled : s.cancelled = true) : s.Works := by
  cases hphase : s.drain with
  | ended => exact absurd hphase hdrain
  | waiting =>
    refine ⟨[.stopDrain], by simp [Own], ?_⟩
    have hturn : run [.stopDrain] s = endDrain .finished (s.note (.drainStopped s.drained)) := by
      simp only [run, List.foldl, turn, stopDrain, hphase, if_pos hcancelled]
    rw [hturn]
    refine work_endDrain_lt (s := s.note _) _ ?_
    change 1 < s.drain.work _
    rw [hphase]
    exact Nat.one_lt_two
  | draining count => exact ⟨[.takeRecord], by simp [Own], work_takeRecord_lt hphase hholds⟩
  | sending count event => exact ⟨[.sendRecord], by simp [Own], work_sendRecord_lt hphase⟩

/-- The end of the correlation is one task more to join and nothing else. -/
theorem work_endCorrelate_lt (ending : Ending) (hcorrelate : 1 < s.correlate.work) :
    (endCorrelate ending s).work < s.work := by
  have hfinish := Supervisor.work_finish s.supervisor correlateTask ending
  change 64 * s.burst.work + s.drain.work s.ring.load + 0 + s.report.work +
    (s.supervisor.finish correlateTask ending).1.work < _
  unfold work
  omega

/-- A correlation that runs has a turn that brings the end closer, once the token is cancelled. -/
theorem correlate_works (hcorrelate : s.correlate ≠ .ended) (hcancelled : s.cancelled = true) :
    s.Works := by
  cases hphase : s.correlate with
  | ended => exact absurd hphase hcorrelate
  | waiting =>
    refine ⟨[.stopCorrelate], by simp [Own], ?_⟩
    have hturn : run [.stopCorrelate] s = endCorrelate .finished s := by
      simp only [run, List.foldl, turn, stopCorrelate, hphase, if_pos hcancelled]
    rw [hturn]
    refine work_endCorrelate_lt _ ?_
    rw [hphase]
    exact Nat.one_lt_two
  | sending entry =>
    refine ⟨[.sendEntry], by simp [Own], ?_⟩
    cases hreceiving : s.entries.receiving with
    | true =>
      have hturn : run [.sendEntry] s = { s with
          entries := { s.entries with queue := s.entries.queue ++ [entry] }
          correlate := .waiting } := by
        simp only [run, List.foldl, turn, sendEntry, hphase, Channel.send_of_receiving hreceiving]
      rw [hturn]
      simp only [work, hphase, CorrelatePhase.work]
      omega
    | false =>
      have hturn : run [.sendEntry] s = endCorrelate (.failed (closed s.entries)) s := by
        simp only [run, List.foldl, turn, sendEntry, hphase, Channel.send_of_not_receiving hreceiving]
        rfl
      rw [hturn]
      refine work_endCorrelate_lt _ ?_
      rw [hphase]
      exact Nat.lt_succ_of_lt Nat.one_lt_two

/-- A report that runs has a turn that brings the end closer, once the token is cancelled. -/
theorem report_works (hreport : s.report ≠ .ended) (hcancelled : s.cancelled = true) : s.Works := by
  cases hphase : s.report with
  | ended => exact absurd hphase hreport
  | waiting =>
    refine ⟨[.stopReport], by simp [Own], ?_⟩
    have hturn : run [.stopReport] s = endReport s := by
      simp only [run, List.foldl, turn, stopReport, hphase, if_pos hcancelled]
    have hfinish := Supervisor.work_finish s.supervisor reportTask .finished
    rw [hturn]
    change 64 * s.burst.work + s.drain.work s.ring.load + s.correlate.work + 0 +
      (s.supervisor.finish reportTask .finished).1.work < _
    simp only [work, hphase, ReportPhase.work]
    omega

/-- A task that ends does not undo a shutdown that has begun. -/
theorem begun_finish (h : s.supervisor.shutdown ≠ .idle) (task : String) (ending : Ending) :
    (s.finish task ending).supervisor.shutdown ≠ .idle := by
  cases ending <;> exact h

/-- A shutdown that has begun is not undone. -/
theorem begun_step {t : Turn} {moved : Traffic} (h : s.supervisor.shutdown ≠ .idle)
    (hs : Step s t moved s') : s'.supervisor.shutdown ≠ .idle := by
  cases hs with
  | beginShutdown =>
    simp only [beginShutdown, Supervisor.beginShutdown]
    split
    · simp
    all_goals exact h
  | joinNext =>
    simp only [joinNext, Supervisor.joinNext]
    repeat' split
    all_goals first | exact h | simp
  | findDamage | loseRecord | stopDrain | receiveFault | loseNotification | stopListen | sourceClosed
  | loseEntry | stopCorrelate | entriesClosed | stopReport | loseAnnouncement =>
    refine begun_finish ?_ _ _
    exact h
  | clone =>
    rw [noteBurst_eq]
    refine begun_finish ?_ _ _
    exact h
  | _ => exact h

/-- A shutdown that has begun is not undone under any schedule. -/
theorem begun_run (h : s.supervisor.shutdown ≠ .idle) (schedule : List Turn) :
    (run schedule s).supervisor.shutdown ≠ .idle :=
  invariant_run (P := fun _ s => s.supervisor.shutdown ≠ .idle) (C := fun _ => True) schedule h
    (fun _ _ => trivial) fun _ _ h hs => begun_step h hs

/-- While a shutdown has not returned, some task, or the shutdown itself, has a turn that brings the
end closer. -/
theorem Tested.works {first : Option Fault} (h : Tested total s)
    (hjoining : s.supervisor.shutdown = .joining first) : s.Works := by
  have hcancelled : s.cancelled = true := h.judged.sound.cancelled (by simp [hjoining])
  obtain ⟨queue, -, hholds⟩ := h.conserves
  by_cases hburst : s.burst = .ended
  · by_cases hdrain : s.drain = .ended
    · by_cases hcorrelate : s.correlate = .ended
      · by_cases hreport : s.report = .ended
        · have hrunning := h.wired.running_eq
          rw [hburst, hdrain, hcorrelate, hreport, h.listen] at hrunning
          have hjoin := Supervisor.work_joinNext_lt hjoining hrunning
          exact ⟨[.joinNext], by simp [Own], Nat.add_lt_add_left hjoin _⟩
        · exact report_works hreport hcancelled
      · exact correlate_works hcorrelate hcancelled
    · exact drain_works hdrain hholds hcancelled
  · exact burst_works hburst

/-- A shutdown that has begun can come to its end, whatever the tasks have done so far. -/
theorem Tested.returns (h : Tested total s) (hbegun : s.supervisor.shutdown ≠ .idle) :
    ∃ more failure, Own more ∧
      (Session.run more s).supervisor.shutdown = .returned failure := by
  induction hwork : s.work using Nat.strongRecOn generalizing total s with
  | ind work ih =>
    cases hshutdown : s.supervisor.shutdown with
    | idle => exact absurd hshutdown hbegun
    | returned failure => exact ⟨[], failure, by simp [Own], hshutdown⟩
    | joining first =>
      obtain ⟨more, hown, hless⟩ := h.works hshutdown
      obtain ⟨later, failure, hlater, hreturned⟩ :=
        ih _ (hwork ▸ hless) (h.run hown) (begun_run hbegun more) rfl
      refine ⟨more ++ later, failure, hown.append hlater, ?_⟩
      rw [Session.run, List.foldl_append]
      exact hreturned

end Session

end NetnsWatch
