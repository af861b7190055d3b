import NetnsWatch.Proofs.Session.Flow
import NetnsWatch.Proofs.Session.WindDown

/-!
# What the shutdown of a self test returns

A task of the self test fails only where it sends what it has in hand after the task that receives
it has ended, and the token ends tasks in any order. The shutdown can always come to its end, every
task has ended by then, and it returns the first such failure; it succeeds exactly if no task sent
too late. A record that is in flight when the token is cancelled can make a shutdown fail.
-/

namespace NetnsWatch.Session

variable {total : Traffic} {s : Session} {schedule : List Turn}

/-- The failure of a task that sends what it has in hand after its receiver has ended. -/
def lateSend? (s : Session) : Turn → Option (String × Fault)
  | .sendRecord =>
    if s.drain.hand ≠ [] ∧ s.correlate = .ended then
      some (drainTask, .send "source channel closed")
    else none
  | .sendAnnouncement =>
    if s.burst.hand ≠ [] ∧ s.correlate = .ended then
      some (burstTask, .send "source channel closed")
    else none
  | .sendEntry =>
    if s.correlate.hand ≠ [] ∧ s.report = .ended then
      some (correlateTask, .send "entries channel closed")
    else none
  | _ => none

/-- The failures of all tasks that send too late in a schedule, in order. -/
def lateSends : List Turn → Session → List (String × Fault)
  | [], _ => []
  | t :: schedule, s => (s.lateSend? t).toList ++ lateSends schedule (s.turn t)

/-- An event that is offered is in vain exactly if the correlation has ended. -/
theorem vain_offer (hw : s.Wired) (task : String) (event : SourceEvent) :
    (offer task event s.source).vain =
      (if s.correlate = .ended then some (task, Fault.send "source channel closed") else none).toList := by
  have hreceiving := hw.source_receiving
  unfold offer closed
  rw [hreceiving, hw.source_name]
  cases s.correlate <;> rfl

/-- An entry that is offered is in vain exactly if the report has ended. -/
theorem vain_offerEntry (hw : s.Wired) :
    (offerEntry s.entries).vain =
      (if s.report = .ended then some (correlateTask, Fault.send "entries channel closed")
        else none).toList := by
  have hreceiving := hw.entries_receiving
  unfold offerEntry closed
  rw [hreceiving, hw.entries_name]
  cases s.report <;> rfl

/-- The sends of a turn in vain are those that come too late. -/
theorem vain_traffic (hw : s.Wired) (hlisten : s.listen = .ended) (t : Turn) :
    (s.traffic t).vain = (s.lateSend? t).toList := by
  cases t with
  | submit record => exact (offerRecord_moves record s.ring).2.2.2
  | takeRecord =>
    simp only [traffic]
    split <;> rfl
  | sendRecord =>
    cases hdrain : s.drain with
    | sending count event =>
      simp only [traffic, hdrain, lateSend?, DrainPhase.hand, ne_eq, List.cons_ne_nil,
        not_false_eq_true, true_and]
      exact vain_offer hw _ _
    | waiting | draining count | ended =>
      simp only [traffic, hdrain, lateSend?, DrainPhase.hand, ne_eq, not_true_eq_false, false_and]
      rfl
  | receive | sendNotification =>
    simp only [traffic, hlisten]
    rfl
  | sendEntry =>
    cases hcorrelate : s.correlate with
    | sending entry =>
      simp only [traffic, hcorrelate, lateSend?, CorrelatePhase.hand, ne_eq, List.cons_ne_nil,
        not_false_eq_true, true_and]
      exact vain_offerEntry hw
    | waiting | ended =>
      simp only [traffic, hcorrelate, lateSend?, CorrelatePhase.hand, ne_eq, not_true_eq_false, false_and]
      rfl
  | fork pid =>
    simp only [traffic]
    split
    · split
      · exact (offerRecord_moves _ s.ring).2.2.2
      · rfl
    · rfl
  | sendAnnouncement =>
    cases hburst : s.burst with
    | sending event dropped =>
      simp only [traffic, hburst, lateSend?, BurstPhase.hand, ne_eq, List.cons_ne_nil,
        not_false_eq_true, true_and]
      exact vain_offer hw _ _
    | forking left dropped | resting due dropped | ended =>
      simp only [traffic, hburst, lateSend?, BurstPhase.hand, ne_eq, not_true_eq_false, false_and]
      rfl
  | clone =>
    simp only [traffic]
    split
    · split
      · exact (offerRecord_moves _ s.ring).2.2.2
      · rfl
    · rfl
  | _ => rfl

/-- The sends of a schedule in vain are those that come too late. -/
theorem vain_trafficOf (h : Tested total s) (hown : Own schedule) :
    (trafficOf schedule s).vain = lateSends schedule s := by
  induction schedule generalizing total s with
  | nil => rfl
  | cons t schedule ih =>
    have hfirst : ∀ record, t ≠ .submit record := fun record hrecord =>
      hown record (hrecord ▸ List.mem_cons_self)
    have hrest : Own schedule := fun record hrecord => hown record (List.mem_cons_of_mem t hrecord)
    rw [trafficOf, lateSends, Traffic.vain_append, vain_traffic h.wired h.listen,
      ih (h.step hfirst (step_turn s t)) hrest]

/-- The tasks of a self test that fail are those that send too late. A shutdown that has returned has
joined every task and gives the first of these failures, so it succeeds exactly if there is none; and
after every schedule the shutdown can still come to its end. -/
theorem shutdown_selfTest {capacity : UInt64} {ring : Ring} (hcreate : Ring.create capacity = .ok ring)
    (window : Duration) (hown : Own schedule) :
    (run schedule (selfTest ring window)).failures = lateSends schedule (selfTest ring window) ∧
    (∀ failure, (run schedule (selfTest ring window)).supervisor.shutdown = .returned failure →
      (run schedule (selfTest ring window)).alive = [] ∧
      failure = ((lateSends schedule (selfTest ring window)).head?.map fun p => .fault p.2) ∧
      (failure = none ↔ lateSends schedule (selfTest ring window) = [])) ∧
    ∃ more failure, Own more ∧
      (run (schedule ++ more) (selfTest ring window)).supervisor.shutdown = .returned failure := by
  have hfirst := tested_selfTest hcreate window
  have hrun : Tested (trafficOf schedule (selfTest ring window)) (run schedule (selfTest ring window)) :=
    hfirst.run hown
  have hvain := vain_trafficOf hfirst hown
  have hfailures := hrun.failures_eq.trans hvain
  refine ⟨hfailures, fun failure hreturned => ?_, ?_⟩
  · obtain ⟨-, hrunning, hfailure⟩ := hrun.judged.sound.returned failure hreturned
    rw [hrun.judged.verdict_eq, hfailures, Option.map_map] at hfailure
    refine ⟨hrun.wired.running_eq.symm.trans hrunning, hfailure, ?_⟩
    rw [hfailure, Option.map_eq_none_iff, List.head?_eq_none_iff]
  · have hshutdown : Own (schedule ++ [.beginShutdown]) := hown.append (by simp [Own])
    have hbegun : (run (schedule ++ [.beginShutdown]) (selfTest ring window)).supervisor.shutdown ≠
        .idle := by
      rw [run_append_singleton]
      simp only [turn, beginShutdown, Supervisor.beginShutdown]
      split
      · simp
      · rename_i hjoining
        simp [hjoining]
      · rename_i hreturned
        simp [hreturned]
    obtain ⟨more, failure, hmore, hreturned⟩ := (hfirst.run hshutdown).returns hbegun
    refine ⟨[.beginShutdown] ++ more, failure, Own.append (by simp [Own]) hmore, ?_⟩
    rw [← List.append_assoc, run, List.foldl_append]
    exact hreturned

/-- A ring with room for one record of the self test. -/
def smallRing : Ring :=
  .ofMemory ⟨64, .replicate 8 0, ⟨6, rfl⟩, by decide, rfl⟩

/-- A shutdown with an entry on its way, which the report leaves in the queue as it stops. -/
def interrupted : List Turn :=
  [.fork 100, .fork 101, .fork 102, .wakeDrain, .takeRecord, .sendRecord, .announce, .sendAnnouncement,
    .takeEvent, .beginShutdown, .sendEntry, .stopReport, .stopCorrelate, .takeRecord, .stopDrain,
    .advance Burst.rest, .clone, .joinNext, .joinNext, .joinNext, .joinNext, .joinNext]

/-- Where every task sends before its receiver stops, a shutdown succeeds, with entries still queued. -/
theorem interrupted_succeeds :
    (run interrupted (selfTest smallRing 0)).supervisor.shutdown = .returned none ∧
    lateSends interrupted (selfTest smallRing 0) = [] ∧
    (run interrupted (selfTest smallRing 0)).alive = [] := by
  have hcreate : Ring.create 64 = .ok smallRing := rfl
  have hown : Own interrupted := by simp [Own, interrupted]
  have hreturned : (run interrupted (selfTest smallRing 0)).supervisor.shutdown = .returned none := by
    decide +kernel
  obtain ⟨-, hall, -⟩ := shutdown_selfTest hcreate 0 hown
  obtain ⟨halive, -, hsucceeds⟩ := hall none hreturned
  exact ⟨hreturned, hsucceeds.mp rfl, halive⟩

/-- A shutdown in which the report stops before the correlation sends the entry that it has in hand. -/
def overtaken : List Turn :=
  [.fork 100, .wakeDrain, .takeRecord, .sendRecord, .takeEvent, .beginShutdown, .stopReport, .sendEntry,
    .takeRecord, .stopDrain, .fork 101, .fork 102, .announce, .sendAnnouncement, .joinNext, .joinNext,
    .joinNext, .joinNext, .joinNext]

/-- A record in flight when the token is cancelled can make a shutdown fail. -/
theorem not_always_succeeds : ¬ ∀ (capacity : UInt64) (ring : Ring) (window : Duration)
    (schedule : List Turn), Ring.create capacity = .ok ring → Own schedule →
    ∀ failure, (run schedule (selfTest ring window)).supervisor.shutdown = .returned failure →
      failure = none := by
  intro h
  have hcreate : Ring.create 64 = .ok smallRing := rfl
  have hown : Own overtaken := by simp [Own, overtaken]
  have hreturned : (run overtaken (selfTest smallRing 0)).supervisor.shutdown =
      .returned (some (.fault (.send "entries channel closed"))) := by decide +kernel
  have hnone := h 64 smallRing 0 overtaken hcreate hown _ hreturned
  cases hnone

end NetnsWatch.Session
