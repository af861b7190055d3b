import NetnsWatch.Proofs.Session.Journal

/-!
# Which tasks are alive

A channel is open for sends exactly while the task that receives from it runs, it counts the tasks
that send on it, and the supervisor lists the tasks that run. So the state of every channel and of
the supervisor's list can be read off the phases of the tasks.
-/

namespace NetnsWatch

/-- Whether the drain runs. -/
def DrainPhase.alive : DrainPhase → Bool
  | .waiting | .draining _ | .sending .. => true
  | .ended => false

/-- Whether the listener runs. -/
def ListenPhase.alive : ListenPhase → Bool
  | .waiting | .sending _ => true
  | .ended => false

/-- Whether the correlation runs. -/
def CorrelatePhase.alive : CorrelatePhase → Bool
  | .waiting | .sending _ => true
  | .ended => false

/-- Whether the report runs. -/
def ReportPhase.alive : ReportPhase → Bool
  | .waiting => true
  | .ended => false

/-- Whether the self test runs. -/
def BurstPhase.alive : BurstPhase → Bool
  | .forking .. | .sending .. | .resting .. => true
  | .ended => false

namespace Session

/-- The names of tasks, given which of them run. -/
def aliveTasks (drain listen burst correlate report : Bool) : List String :=
  (if drain then [drainTask] else []) ++ (if listen then [listenTask] else []) ++
    (if burst then [burstTask] else []) ++ (if correlate then [correlateTask] else []) ++
    (if report then [reportTask] else [])

/-- The tasks of a session that run. -/
def alive (s : Session) : List String :=
  aliveTasks s.drain.alive s.listen.alive s.burst.alive s.correlate.alive s.report.alive

/-- Channels and supervisor agree with which tasks run. -/
structure Wiring (source : Channel SourceEvent) (entries : Channel Entry) (running : List String)
    (drain listen burst correlate report : Bool) : Prop where
  source_name : source.name = "source"
  entries_name : entries.name = "entries"
  source_receiving : source.receiving = correlate
  entries_receiving : entries.receiving = report
  source_senders : source.senders = drain.toNat + listen.toNat + burst.toNat
  entries_senders : entries.senders = correlate.toNat
  running_eq : running = aliveTasks drain listen burst correlate report

/-- The wiring of a session is in order. -/
def Wired (s : Session) : Prop :=
  Wiring s.source s.entries s.supervisor.running s.drain.alive s.listen.alive s.burst.alive
    s.correlate.alive s.report.alive

section Erase

/-- A drain that has ended is no longer listed. -/
theorem erase_drainTask : ∀ listen burst correlate report,
    (aliveTasks true listen burst correlate report).erase drainTask =
      aliveTasks false listen burst correlate report := by decide

/-- A listener that has ended is no longer listed. -/
theorem erase_listenTask : ∀ drain burst correlate report,
    (aliveTasks drain true burst correlate report).erase listenTask =
      aliveTasks drain false burst correlate report := by decide

/-- A self test that has ended is no longer listed. -/
theorem erase_burstTask : ∀ drain listen correlate report,
    (aliveTasks drain listen true correlate report).erase burstTask =
      aliveTasks drain listen false correlate report := by decide

/-- A correlation that has ended is no longer listed. -/
theorem erase_correlateTask : ∀ drain listen burst report,
    (aliveTasks drain listen burst true report).erase correlateTask =
      aliveTasks drain listen burst false report := by decide

/-- A report that has ended is no longer listed. -/
theorem erase_reportTask : ∀ drain listen burst correlate,
    (aliveTasks drain listen burst correlate true).erase reportTask =
      aliveTasks drain listen burst correlate false := by decide

/-- While any task runs, the list is not empty. -/
theorem aliveTasks_ne_nil : ∀ drain listen burst correlate report,
    (drain || listen || burst || correlate || report) = true →
      aliveTasks drain listen burst correlate report ≠ [] := by decide

end Erase

section Ends

variable {source : Channel SourceEvent} {entries : Channel Entry} {running : List String}
  {drain listen burst correlate report : Bool}

/-- The wiring does not depend on what is in flight. -/
theorem Wiring.withQueues (h : Wiring source entries running drain listen burst correlate report)
    (events : List SourceEvent) (queue : List Entry) :
    Wiring { source with queue := events } { entries with queue } running drain listen burst
      correlate report :=
  ⟨h.source_name, h.entries_name, h.source_receiving, h.entries_receiving, h.source_senders,
    h.entries_senders, h.running_eq⟩

/-- The wiring is in order after the drain has ended. -/
theorem Wiring.endDrain (h : Wiring source entries running true listen burst correlate report) :
    Wiring source.dropSender entries (running.erase drainTask) false listen burst correlate
      report := by
  refine ⟨h.source_name, h.entries_name, h.source_receiving, h.entries_receiving, ?_,
    h.entries_senders, ?_⟩
  · change source.senders - 1 = _
    rw [h.source_senders, Bool.toNat_true, Bool.toNat_false]
    omega
  · rw [h.running_eq, erase_drainTask]

/-- The wiring is in order after the listener has ended. -/
theorem Wiring.endListen (h : Wiring source entries running drain true burst correlate report) :
    Wiring source.dropSender entries (running.erase listenTask) drain false burst correlate
      report := by
  refine ⟨h.source_name, h.entries_name, h.source_receiving, h.entries_receiving, ?_,
    h.entries_senders, ?_⟩
  · change source.senders - 1 = _
    rw [h.source_senders, Bool.toNat_true, Bool.toNat_false]
    omega
  · rw [h.running_eq, erase_listenTask]

/-- The wiring is in order after the self test has ended. -/
theorem Wiring.endBurst (h : Wiring source entries running drain listen true correlate report) :
    Wiring source.dropSender entries (running.erase burstTask) drain listen false correlate
      report := by
  refine ⟨h.source_name, h.entries_name, h.source_receiving, h.entries_receiving, ?_,
    h.entries_senders, ?_⟩
  · change source.senders - 1 = _
    rw [h.source_senders, Bool.toNat_true, Bool.toNat_false]
    omega
  · rw [h.running_eq, erase_burstTask]

/-- The wiring is in order after the correlation has ended. -/
theorem Wiring.endCorrelate (h : Wiring source entries running drain listen burst true report) :
    Wiring source.dropReceiver entries.dropSender (running.erase correlateTask) drain listen burst
      false report := by
  refine ⟨h.source_name, h.entries_name, rfl, h.entries_receiving, h.source_senders, ?_, ?_⟩
  · change entries.senders - 1 = _
    rw [h.entries_senders]
    rfl
  · rw [h.running_eq, erase_correlateTask]

/-- The wiring is in order after the report has ended. -/
theorem Wiring.endReport (h : Wiring source entries running drain listen burst correlate true) :
    Wiring source entries.dropReceiver (running.erase reportTask) drain listen burst correlate
      false := by
  refine ⟨h.source_name, h.entries_name, h.source_receiving, rfl, h.source_senders,
    h.entries_senders, ?_⟩
  rw [h.running_eq, erase_reportTask]

end Ends

/-- While any task runs, the supervisor lists one. -/
theorem Wired.running_ne_nil {s : Session} (h : s.Wired)
    (halive : (s.drain.alive || s.listen.alive || s.burst.alive || s.correlate.alive ||
      s.report.alive) = true) : s.supervisor.running ≠ [] := by
  rw [h.running_eq]
  exact aliveTasks_ne_nil _ _ _ _ _ halive

/-- A shutdown that begins leaves the list of running tasks alone. -/
theorem running_beginShutdown (s : Session) :
    s.beginShutdown.supervisor.running = s.supervisor.running := by
  simp only [beginShutdown, Supervisor.beginShutdown]
  split <;> rfl

/-- Joining a task leaves the list of running tasks alone. -/
theorem running_joinNext (s : Session) :
    s.joinNext.supervisor.running = s.supervisor.running := by
  simp only [joinNext, Supervisor.joinNext]
  repeat' split
  all_goals rfl

/-- Every step keeps the wiring in order. -/
theorem Wired.step {s s' : Session} {t : Turn} {moved : Traffic} (h : s.Wired)
    (hs : Step s t moved s') : s'.Wired := by
  unfold Wired at h
  cases hs with
  | beginShutdown =>
    unfold Wired
    rw [running_beginShutdown]
    exact h
  | joinNext =>
    unfold Wired
    rw [running_joinNext]
    exact h
  | wakeDrain hphase | takeNothing hphase | takeRecord hphase | receive hphase | sendNothing hphase
  | fork hphase | announce hphase =>
    rw [hphase] at h
    exact h
  | sendRecord hphase | takeEvent hphase | sendEntry hphase | sendAnnouncement hphase =>
    rw [hphase] at h
    exact h.withQueues _ _
  | @sendNotification event later hphase =>
    rw [hphase] at h
    cases later with
    | nil => exact h.withQueues _ _
    | cons next later => exact h.withQueues _ _
  | takeEntry => exact h.withQueues _ _
  | findDamage hphase | loseRecord hphase | stopDrain hphase =>
    rw [hphase] at h
    exact h.endDrain
  | receiveFault hphase | loseNotification hphase | stopListen hphase =>
    rw [hphase] at h
    exact h.endListen
  | sourceClosed hphase | loseEntry hphase | stopCorrelate hphase =>
    rw [hphase] at h
    exact h.endCorrelate
  | entriesClosed hphase | stopReport hphase =>
    rw [hphase] at h
    exact h.endReport
  | loseAnnouncement hphase =>
    rw [hphase] at h
    exact h.endBurst
  | clone hphase =>
    rw [hphase] at h
    rw [noteBurst_eq]
    exact h.endBurst
  | _ => exact h

/-- The wiring of the pipeline is in order at first. -/
theorem wired_pipeline (ring : Ring) (window : Duration) : (pipeline ring window).Wired :=
  ⟨rfl, rfl, rfl, rfl, rfl, rfl, rfl⟩

/-- The wiring of the self test is in order at first. -/
theorem wired_selfTest (ring : Ring) (window : Duration) : (selfTest ring window).Wired :=
  ⟨rfl, rfl, rfl, rfl, rfl, rfl, rfl⟩

/-- The wiring is in order after every schedule. -/
theorem Wired.run {s : Session} (h : s.Wired) (schedule : List Turn) : (run schedule s).Wired :=
  invariant_run (P := fun _ s => s.Wired) (C := fun _ => True) schedule h (fun _ _ => trivial)
    fun _ _ h hs => h.step hs

end Session

end NetnsWatch
