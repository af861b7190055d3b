import NetnsWatch.Proofs.Session.Step

/-!
# What a session logs

The journal only grows. What is of interest in it is picked out by a function on notices; a notice
that the function passes over changes nothing that was picked. Where only notices about one task are
picked, the turns of all others change nothing.
-/

namespace NetnsWatch

/-- The task of a session that takes a turn. -/
def Turn.task : Turn → Option String
  | .wakeDrain | .takeRecord | .sendRecord | .stopDrain => some Session.drainTask
  | .receive _ | .sendNotification | .stopListen => some Session.listenTask
  | .takeEvent | .sendEntry | .stopCorrelate => some Session.correlateTask
  | .takeEntry | .stopReport => some Session.reportTask
  | .fork _ | .announce | .sendAnnouncement | .clone => some Session.burstTask
  | .advance _ | .submit _ | .cancel | .beginShutdown | .joinNext => none

/-- The one task that a notice is about. -/
def Notice.task : Notice → Option String
  | .taskFailed task _ => some task
  | .rejectedRecord _ | .drainStopped _ => some Session.drainTask
  | .emptyBatch _ => some Session.listenTask
  | .entry _ | .entriesReported _ => some Session.reportTask
  | .burstDropped _ | .burstSubmitted => some Session.burstTask
  | .malformedHeader .. | .undecodable _ | .channelClosed _ | .shutdownStarting | .shutdownComplete
  | .timeElapsed | .recordsDropped _ => none

end NetnsWatch

namespace NetnsWatch.Session

variable {α : Type} {pick : Notice → Option α}

/-- What is picked out of the journal, oldest first. -/
def picked (pick : Notice → Option α) (s : Session) : List α :=
  s.journal.filterMap pick

/-- Notices that are passed over add nothing. -/
theorem filterMap_append_of_none (journal : List Notice) {notices : List Notice}
    (h : ∀ notice ∈ notices, pick notice = none) :
    (journal ++ notices).filterMap pick = journal.filterMap pick := by
  have hnone : notices.filterMap pick = [] := by
    rw [List.filterMap_eq_nil_iff]
    exact h
  rw [List.filterMap_append, hnone, List.append_nil]

/-- A notice that is picked comes last. -/
theorem picked_note_some (s : Session) {notice : Notice} {value : α} (h : pick notice = some value) :
    (s.note notice).picked pick = s.picked pick ++ [value] := by
  simp only [picked, note, List.filterMap_append, List.filterMap_cons, h, List.filterMap_nil]

/-- A notice that is passed over adds nothing. -/
theorem picked_note (s : Session) {notice : Notice} (h : pick notice = none) :
    (s.note notice).picked pick = s.picked pick := by
  refine filterMap_append_of_none s.journal ?_
  intro other hother
  rw [List.mem_singleton.mp hother, h]

/-- What is logged about a source event adds nothing where rejected records are passed over. -/
theorem picked_observed (journal : List Notice) (event : SourceEvent)
    (h : ∀ error, pick (.rejectedRecord error) = none) :
    (journal ++ observed event).filterMap pick = journal.filterMap pick := by
  refine filterMap_append_of_none journal ?_
  intro notice hnotice
  unfold observed at hnotice
  split at hnotice
  · rw [List.mem_singleton.mp hnotice, h]
  all_goals exact absurd hnotice List.not_mem_nil

/-- The end of a task adds nothing where its failures are passed over. -/
theorem picked_finish (s : Session) (task : String) (ending : Ending)
    (h : ∀ fault, pick (.taskFailed task fault) = none) :
    (s.finish task ending).picked pick = s.picked pick := by
  refine filterMap_append_of_none s.journal ?_
  intro notice hnotice
  cases ending with
  | finished => exact absurd hnotice List.not_mem_nil
  | crashed => exact absurd hnotice List.not_mem_nil
  | failed fault => rw [List.mem_singleton.mp hnotice, h]

/-- A shutdown that begins adds nothing where that is passed over. -/
theorem picked_beginShutdown (s : Session) (h : pick .shutdownStarting = none) :
    s.beginShutdown.picked pick = s.picked pick := by
  refine filterMap_append_of_none s.journal ?_
  split <;> simp [h]

/-- Joining a task adds nothing where the end of a shutdown is passed over. -/
theorem picked_joinNext (s : Session) (h : pick .shutdownComplete = none) :
    s.joinNext.picked pick = s.picked pick := by
  refine filterMap_append_of_none s.journal ?_
  repeat' split
  all_goals simp [h]

/-- What the self test logs at its end adds nothing where it is passed over. -/
theorem picked_noteBurst (s : Session) (dropped : Nat)
    (hdropped : ∀ count, pick (.burstDropped count) = none) (hsubmitted : pick .burstSubmitted = none) :
    (s.noteBurst dropped).picked pick = s.picked pick := by
  unfold noteBurst
  rw [picked_note _ hsubmitted]
  split
  · rfl
  · exact picked_note _ (hdropped dropped)

/-- What the self test logs at its end leaves everything but the journal alone. -/
theorem noteBurst_eq (s : Session) (dropped : Nat) :
    s.noteBurst dropped = { s with journal := (s.noteBurst dropped).journal } := by
  unfold noteBurst
  split <;> rfl

/-- Where only notices about one task are picked, a step that another task takes picks nothing. -/
theorem picked_step_of_other {moved : Traffic} {s s' : Session} {t : Turn} {task : String}
    (hpick : ∀ notice, notice.task ≠ some task → pick notice = none) (hs : Step s t moved s')
    (hother : t.task ≠ some task) : s'.picked pick = s.picked pick := by
  have hnobody : (none : Option String) ≠ some task := (Option.some_ne_none task).symm
  cases hs with
  | beginShutdown => exact picked_beginShutdown s (hpick _ hnobody)
  | joinNext => exact picked_joinNext s (hpick _ hnobody)
  | takeRecord => exact picked_observed s.journal _ fun _ => hpick _ hother
  | findDamage | loseRecord => exact picked_finish _ _ _ fun _ => hpick _ hother
  | stopDrain =>
    exact (picked_finish _ _ _ fun _ => hpick _ hother).trans (picked_note s (hpick _ hother))
  | receiveFault | loseNotification | stopListen => exact picked_finish _ _ _ fun _ => hpick _ hother
  | receiveNothing => exact picked_note s (hpick _ hother)
  | loseEntry | stopCorrelate => exact picked_finish _ _ _ fun _ => hpick _ hother
  | sourceClosed =>
    exact (picked_finish _ _ _ fun _ => hpick _ hother).trans (picked_note s (hpick _ hnobody))
  | takeEntry => exact picked_note _ (hpick (.entry _) hother)
  | entriesClosed =>
    refine (picked_finish _ _ _ fun _ => hpick _ hother).trans ?_
    exact (picked_note _ (hpick (.entriesReported _) hother)).trans (picked_note s (hpick _ hnobody))
  | stopReport =>
    exact (picked_finish _ _ _ fun _ => hpick _ hother).trans (picked_note s (hpick _ hother))
  | loseAnnouncement => exact picked_finish _ _ _ fun _ => hpick _ hother
  | clone =>
    exact (picked_finish _ _ _ fun _ => hpick _ hother).trans
      (picked_noteBurst _ _ (fun _ => hpick _ hother) (hpick _ hother))
  | _ => rfl

end NetnsWatch.Session
