import NetnsWatch.Proofs.Session.Wiring

/-!
# What a shutdown will return

The verdict of a supervisor is the first fault among the tasks that have ended, whether they have
been joined or not. A task that ends adds its fault behind those of the others, joining one changes
nothing, and what a shutdown returns is the verdict. Every fault is logged when its task ends.
-/

namespace NetnsWatch

/-- A task that finishes does not crash. -/
theorem Ending.finished_ne_crashed : finished ≠ crashed := by simp

/-- A task that fails does not crash. -/
theorem Ending.failed_ne_crashed (fault : Fault) : failed fault ≠ crashed := by simp

/-- The task that failed and its fault, if that is what a notice says. -/
def Notice.failure? : Notice → Option (String × Fault)
  | .taskFailed task fault => some (task, fault)
  | _ => none

namespace Supervisor

/-- The first fault of all tasks that have ended. -/
def verdict (s : Supervisor) : Option Fault :=
  match s.shutdown with
  | .joining (some fault) | .returned (some (.fault fault)) => some fault
  | .idle | .joining none | .returned none | .returned (some .crash) => s.ended.findSome? Ending.fault?

/-- No task crashed, and a shutdown that has returned left nothing behind and gave the verdict. -/
structure Sound (s : Supervisor) : Prop where
  no_crash : Ending.crashed ∉ s.ended
  returned : ∀ failure, s.shutdown = .returned failure →
    s.ended = [] ∧ s.running = [] ∧ failure = s.verdict.map .fault
  cancelled : s.shutdown ≠ .idle → s.cancelled = true

variable {s : Supervisor}

/-- A task that ends adds its fault behind the others. -/
theorem verdict_finish (s : Supervisor) (task : String) (ending : Ending) :
    (s.finish task ending).1.verdict = s.verdict.or ending.fault? := by
  obtain ⟨cancelled, running, ended, shutdown⟩ := s
  have happend : (ended ++ [ending]).findSome? Ending.fault? =
      (ended.findSome? Ending.fault?).or ending.fault? := by
    rw [List.findSome?_append, List.findSome?_singleton]
  cases ending <;> simp only [finish, verdict, cancel] <;> split <;> first | rfl | exact happend

/-- A shutdown that begins leaves the verdict alone. -/
theorem verdict_beginShutdown (s : Supervisor) : s.beginShutdown.1.verdict = s.verdict := by
  obtain ⟨cancelled, running, ended, shutdown⟩ := s
  cases shutdown <;> rfl

/-- Joining a task leaves the verdict alone. -/
theorem verdict_joinNext (hcrash : Ending.crashed ∉ s.ended) :
    s.joinNext.1.verdict = s.verdict := by
  obtain ⟨cancelled, running, ended, shutdown⟩ := s
  cases shutdown with
  | idle => rfl
  | returned failure => rfl
  | joining first =>
    cases ended with
    | nil =>
      simp only [joinNext]
      split
      · cases first <;> rfl
      · rfl
    | cons ending rest =>
      cases ending with
      | finished => cases first <;> rfl
      | failed fault => cases first <;> rfl
      | crashed => exact absurd List.mem_cons_self hcrash

/-- A task that ends without a crash keeps the supervisor sound while no shutdown has returned. -/
theorem Sound.finish (h : s.Sound) (task : String) {ending : Ending} (hending : ending ≠ .crashed)
    (hrunning : s.running ≠ []) : (s.finish task ending).1.Sound := by
  have hreturned : ∀ failure, s.shutdown ≠ .returned failure :=
    fun failure hshutdown => hrunning (h.returned failure hshutdown).2.1
  have hcrash : Ending.crashed ∉ s.ended ++ [ending] := by
    intro hmem
    rcases List.mem_append.mp hmem with hold | hnew
    · exact h.no_crash hold
    · exact hending (List.mem_singleton.mp hnew).symm
  cases ending with
  | crashed => exact absurd rfl hending
  | finished =>
    exact ⟨hcrash, fun failure hshutdown => absurd hshutdown (hreturned failure), h.cancelled⟩
  | failed fault =>
    exact ⟨hcrash, fun failure hshutdown => absurd hshutdown (hreturned failure), fun _ => rfl⟩

/-- Beginning a shutdown keeps the supervisor sound. -/
theorem Sound.beginShutdown (h : s.Sound) : s.beginShutdown.1.Sound := by
  obtain ⟨cancelled, running, ended, shutdown⟩ := s
  cases shutdown with
  | idle => exact ⟨h.no_crash, fun _ hreturned => (by cases hreturned), fun _ => rfl⟩
  | joining first => exact h
  | returned failure => exact h

/-- Joining a task keeps the supervisor sound. -/
theorem Sound.joinNext (h : s.Sound) : s.joinNext.1.Sound := by
  have hverdict := verdict_joinNext h.no_crash
  obtain ⟨cancelled, running, ended, shutdown⟩ := s
  cases shutdown with
  | idle => exact h
  | returned failure => exact h
  | joining first =>
    have hcancelled : cancelled = true := h.cancelled (by simp)
    cases ended with
    | nil =>
      cases running with
      | cons task running => exact h
      | nil =>
        refine ⟨List.not_mem_nil, ?_, fun _ => hcancelled⟩
        intro failure hshutdown
        cases hshutdown
        refine ⟨rfl, rfl, ?_⟩
        cases first <;> rfl
    | cons ending rest =>
      have hcrash : Ending.crashed ∉ rest := fun hmem =>
        h.no_crash (List.mem_cons_of_mem ending hmem)
      cases ending with
      | finished => exact ⟨hcrash, fun _ hreturned => (by cases hreturned), fun _ => hcancelled⟩
      | failed fault => exact ⟨hcrash, fun _ hreturned => (by cases hreturned), fun _ => hcancelled⟩
      | crashed => exact absurd List.mem_cons_self h.no_crash

end Supervisor

namespace Session

/-- The failures that were logged, oldest first. -/
def failures (s : Session) : List (String × Fault) :=
  s.picked Notice.failure?

/-- The supervisor is sound, and its verdict is the first failure that was logged. -/
structure Judged (s : Session) : Prop where
  sound : s.supervisor.Sound
  verdict_eq : s.supervisor.verdict = s.failures.head?.map Prod.snd

variable {s s' : Session}

/-- A task that ends adds the failure that it ends with. -/
theorem failures_finish (s : Session) (task : String) (ending : Ending) :
    (s.finish task ending).failures =
      s.failures ++ (ending.fault?.map fun fault => (task, fault)).toList := by
  cases ending <;> simp [finish, Supervisor.finish, failures, picked, Ending.fault?, Notice.failure?]

/-- A notice that is not about a failure leaves a session judged. -/
theorem Judged.note (h : s.Judged) {notice : Notice} (hnotice : notice.failure? = none) :
    (s.note notice).Judged :=
  ⟨h.sound, h.verdict_eq.trans (by rw [failures, failures, picked_note s hnotice])⟩

/-- A task that runs and ends without a crash leaves the session judged. -/
theorem Judged.finish (h : s.Judged) (task : String) {ending : Ending} (hending : ending ≠ .crashed)
    (hrunning : s.supervisor.running ≠ []) : (s.finish task ending).Judged := by
  refine ⟨h.sound.finish task hending hrunning, ?_⟩
  change (s.supervisor.finish task ending).1.verdict = _
  rw [failures_finish, Supervisor.verdict_finish, h.verdict_eq, List.head?_append]
  cases s.failures.head? <;> cases ending <;> rfl

/-- A session whose supervisor and failures are those of a judged one is judged. -/
theorem Judged.of_eq (h : s.Judged) (hsupervisor : s'.supervisor = s.supervisor)
    (hfailures : s'.failures = s.failures) : s'.Judged :=
  ⟨hsupervisor ▸ h.sound, by rw [hsupervisor, hfailures, h.verdict_eq]⟩

section Ends

variable {ending : Ending} (h : s.Judged) (hending : ending ≠ .crashed)
  (hrunning : s.supervisor.running ≠ [])

include h hending hrunning

/-- The end of the drain leaves a session judged. -/
theorem Judged.endDrain : (endDrain ending s).Judged :=
  Judged.finish (s := { s with drain := .ended, source := s.source.dropSender })
    ⟨h.sound, h.verdict_eq⟩ drainTask hending hrunning

/-- The end of the listener leaves a session judged. -/
theorem Judged.endListen : (endListen ending s).Judged :=
  Judged.finish (s := { s with listen := .ended, source := s.source.dropSender })
    ⟨h.sound, h.verdict_eq⟩ listenTask hending hrunning

/-- The end of the self test leaves a session judged. -/
theorem Judged.endBurst : (endBurst ending s).Judged :=
  Judged.finish (s := { s with burst := .ended, source := s.source.dropSender })
    ⟨h.sound, h.verdict_eq⟩ burstTask hending hrunning

/-- The end of the correlation leaves a session judged. -/
theorem Judged.endCorrelate : (endCorrelate ending s).Judged :=
  Judged.finish (s := { s with
      correlate := .ended
      source := s.source.dropReceiver
      entries := s.entries.dropSender })
    ⟨h.sound, h.verdict_eq⟩ correlateTask hending hrunning

end Ends

/-- The end of the report leaves a session judged. -/
theorem Judged.endReport (h : s.Judged) (hrunning : s.supervisor.running ≠ []) :
    s.endReport.Judged := by
  have hnoted : (s.note (.entriesReported s.reported)).Judged := h.note rfl
  exact Judged.finish (s := { s.note (.entriesReported s.reported) with
      report := .ended
      entries := s.entries.dropReceiver })
    ⟨hnoted.sound, hnoted.verdict_eq⟩ reportTask Ending.finished_ne_crashed hrunning

/-- Every step leaves a session judged. -/
theorem Judged.step {t : Turn} {moved : Traffic} (h : s.Judged) (hw : s.Wired)
    (hs : Step s t moved s') : s'.Judged := by
  have hdrain : ∀ {phase}, s.drain = phase → phase.alive = true → s.supervisor.running ≠ [] :=
    fun hphase halive => hw.running_ne_nil (by simp [hphase, halive])
  have hlisten : ∀ {phase}, s.listen = phase → phase.alive = true → s.supervisor.running ≠ [] :=
    fun hphase halive => hw.running_ne_nil (by simp [hphase, halive])
  have hburst : ∀ {phase}, s.burst = phase → phase.alive = true → s.supervisor.running ≠ [] :=
    fun hphase halive => hw.running_ne_nil (by simp [hphase, halive])
  have hcorrelate : ∀ {phase}, s.correlate = phase → phase.alive = true → s.supervisor.running ≠ [] :=
    fun hphase halive => hw.running_ne_nil (by simp [hphase, halive])
  have hreport : ∀ {phase}, s.report = phase → phase.alive = true → s.supervisor.running ≠ [] :=
    fun hphase halive => hw.running_ne_nil (by simp [hphase, halive])
  cases hs with
  | cancel => exact ⟨⟨h.sound.no_crash, h.sound.returned, fun _ => rfl⟩, h.verdict_eq⟩
  | beginShutdown =>
    refine ⟨h.sound.beginShutdown, ?_⟩
    rw [failures, picked_beginShutdown s rfl, ← failures, ← h.verdict_eq]
    exact Supervisor.verdict_beginShutdown _
  | joinNext =>
    refine ⟨h.sound.joinNext, ?_⟩
    rw [failures, picked_joinNext s rfl, ← failures, ← h.verdict_eq]
    exact Supervisor.verdict_joinNext h.sound.no_crash
  | takeRecord => exact h.of_eq rfl (picked_observed s.journal _ fun _ => rfl)
  | findDamage hphase =>
    exact Judged.endDrain (h.of_eq rfl rfl) (Ending.failed_ne_crashed _) (hdrain hphase rfl)
  | loseRecord hphase => exact h.endDrain (Ending.failed_ne_crashed _) (hdrain hphase rfl)
  | stopDrain hphase =>
    exact Judged.endDrain (h.note rfl) Ending.finished_ne_crashed (hdrain hphase rfl)
  | receiveFault hphase => exact h.endListen (Ending.failed_ne_crashed _) (hlisten hphase rfl)
  | receiveNothing => exact h.note rfl
  | loseNotification hphase => exact h.endListen (Ending.failed_ne_crashed _) (hlisten hphase rfl)
  | stopListen hphase => exact h.endListen Ending.finished_ne_crashed (hlisten hphase rfl)
  | sourceClosed hphase =>
    exact Judged.endCorrelate (h.note rfl) Ending.finished_ne_crashed (hcorrelate hphase rfl)
  | loseEntry hphase => exact h.endCorrelate (Ending.failed_ne_crashed _) (hcorrelate hphase rfl)
  | stopCorrelate hphase => exact h.endCorrelate Ending.finished_ne_crashed (hcorrelate hphase rfl)
  | takeEntry =>
    refine Judged.note ?_ rfl
    exact ⟨h.sound, h.verdict_eq⟩
  | entriesClosed hphase =>
    exact Judged.endReport (h.note rfl) (hreport hphase rfl)
  | stopReport hphase => exact h.endReport (hreport hphase rfl)
  | loseAnnouncement hphase => exact h.endBurst (Ending.failed_ne_crashed _) (hburst hphase rfl)
  | clone hphase =>
    rw [noteBurst_eq]
    refine Judged.endBurst (h.of_eq rfl ?_) Ending.finished_ne_crashed (hburst hphase rfl)
    exact picked_noteBurst (s.offered _) _ (fun _ => rfl) rfl
  | _ => exact ⟨h.sound, h.verdict_eq⟩

/-- A session with a fresh supervisor and an empty journal is judged. -/
theorem judged_of_create {tasks : List String} (hsupervisor : s.supervisor = .create tasks)
    (hjournal : s.journal = []) : s.Judged := by
  have hfailures : s.failures = [] := by rw [failures, picked, hjournal, List.filterMap_nil]
  refine ⟨?_, ?_⟩
  · rw [hsupervisor]
    exact ⟨List.not_mem_nil, fun _ hreturned => (by cases hreturned), fun h => absurd rfl h⟩
  · rw [hsupervisor, hfailures]
    rfl

/-- A session stays judged under every schedule. -/
theorem Judged.run (h : s.Judged) (hw : s.Wired) (schedule : List Turn) :
    (Session.run schedule s).Judged := by
  have hboth : (Session.run schedule s).Judged ∧ (Session.run schedule s).Wired :=
    invariant_run (P := fun _ s => s.Judged ∧ s.Wired) (C := fun _ => True) schedule ⟨h, hw⟩
      (fun _ _ => trivial) fun _ _ h hs => ⟨h.1.step h.2 hs, h.2.step hs⟩
  exact hboth.1

end Session

end NetnsWatch
