import NetnsWatch.Proofs.Ring.Operation
import NetnsWatch.Proofs.Session.Records
import NetnsWatch.Proofs.Session.Verdict

/-!
# What can fail in the self test

The self test submits four records at most, so its ring never comes near the end of its positions and
the drain never finds damage. What is left to fail are sends to a task that has ended. So the failures
that the session logs are exactly the sends in vain, in order, and a shutdown returns the first.
-/

namespace NetnsWatch

namespace Ring

/-- A producer that has not come far leaves the positions exact. -/
theorem inRange_of_le {r : Ring} (h : r.producer.toNat ≤ 192) : InRange r := by
  have hcapacity := r.memory.capacity_le
  have hsize : UInt64.size = 18446744073709551616 := rfl
  unfold InRange
  omega

end Ring

/-- The number of records that the self test may still submit. -/
def BurstPhase.left : BurstPhase → Nat
  | .forking left _ => left.length + 1
  | .sending .. | .resting .. => 1
  | .ended => 0

namespace Session

variable {total moved : Traffic} {s s' : Session} {t : Turn}

/-- No record comes from outside; every turn is one of the self test's own tasks, or of the clock. -/
def Own (schedule : List Turn) : Prop :=
  ∀ record, Turn.submit record ∉ schedule

/-- Schedules of the self test's own tasks come one after another. -/
theorem Own.append {schedule later : List Turn} (h : Own schedule) (hlater : Own later) :
    Own (schedule ++ later) := by
  intro record hrecord
  rcases List.mem_append.mp hrecord with hfirst | hsecond
  · exact h record hfirst
  · exact hlater record hsecond

/-- Nobody cancels the token or asks for a shutdown. -/
def Open (schedule : List Turn) : Prop :=
  .cancel ∉ schedule ∧ .beginShutdown ∉ schedule

/-- Schedules in which nobody cancels the token come one after another. -/
theorem Open.append {schedule later : List Turn} (h : Open schedule) (hlater : Open later) :
    Open (schedule ++ later) := by
  simp only [Open, List.mem_append, not_or]
  exact ⟨⟨h.1, hlater.1⟩, h.2, hlater.2⟩

/-- The producer has room for the records that are left of four. -/
def Budget (s : Session) : Prop :=
  s.ring.producer.toNat + 48 * s.burst.left ≤ 192

/-- A record of the self test takes 48 bytes at most. -/
theorem producer_offered_le (kind : Kind) (pid : UInt32) (name : String) (s : Session) :
    (s.offered (Burst.record kind pid name)).ring.producer.toNat ≤ s.ring.producer.toNat + 48 := by
  have hle := Ring.producer_submit_le s.ring (Burst.record kind pid name)
  have hlength : (Burst.record kind pid name).length = 40 := Record.length_toBytes _
  rw [hlength, Ring.toNat_frameSize (by decide)] at hle
  exact hle

/-- Every turn of the self test's own tasks keeps to the budget. -/
theorem Budget.step (h : s.Budget) (hown : ∀ record, t ≠ .submit record)
    (hs : Step s t moved s') : s'.Budget := by
  unfold Budget at *
  cases hs with
  | submit => exact absurd rfl (hown _)
  | takeNothing _ hnext | takeRecord _ hnext | findDamage _ hnext =>
    have hproducer := Ring.producer_next s.ring
    rw [hnext] at hproducer
    exact hproducer ▸ h
  | @fork pid left _ hburst hpid =>
    have hle := producer_offered_le .fork pid "bash" s
    have hlength := List.length_erase_of_mem hpid
    have hpos := List.length_pos_of_mem hpid
    rw [hburst] at h
    change _ + 48 * (left.length + 1) ≤ 192 at h
    change (s.offered _).ring.producer.toNat + 48 * ((left.erase pid).length + 1) ≤ 192
    omega
  | announce hburst | sendAnnouncement hburst =>
    rw [hburst] at h
    exact h
  | loseAnnouncement => exact Nat.le_trans (Nat.add_le_add_left (Nat.zero_le _) _) h
  | clone hburst =>
    have hle := producer_offered_le .clone Burst.clonePid "ip" s
    rw [hburst] at h
    change _ + 48 * 1 ≤ 192 at h
    rw [noteBurst_eq]
    change (s.offered _).ring.producer.toNat + 48 * 0 ≤ 192
    omega
  | _ => exact h

/-- A listener that has ended stays ended. -/
theorem listen_ended_step (h : s.listen = .ended) (hs : Step s t moved s') : s'.listen = .ended := by
  cases hs with
  | receiveFault hphase | receiveNothing hphase | receive hphase | sendNothing hphase
  | sendNotification hphase | loseNotification hphase | stopListen hphase =>
    rw [h] at hphase
    cases hphase
  | clone =>
    rw [noteBurst_eq]
    exact h
  | _ => exact h

/-- What is known of the self test after any schedule of its own tasks. -/
structure Tested (total : Traffic) (s : Session) : Prop where
  wired : s.Wired
  judged : s.Judged
  listen : s.listen = .ended
  budget : s.Budget
  conserves : Ring.Conserves total.accepted (total.taken.map Prod.fst) s.ring
  failures_eq : s.failures = total.vain

/-- Nothing has happened at first. -/
theorem tested_selfTest {capacity : UInt64} {ring : Ring}
    (hcreate : Ring.create capacity = .ok ring) (window : Duration) :
    Tested .none (selfTest ring window) := by
  obtain ⟨hholds, -, -, hproducer⟩ := Ring.holds_create hcreate
  refine ⟨wired_selfTest ring window, judged_of_create rfl rfl, rfl, ?_, ⟨[], rfl, hholds⟩, rfl⟩
  change ring.producer.toNat + 48 * 4 ≤ 192
  rw [hproducer]
  decide

/-- The failures of a step are its sends in vain. -/
theorem failures_step (h : Tested total s) (hs : Step s t moved s') :
    s'.failures = s.failures ++ moved.vain := by
  have hquiet : s.failures = s.failures ++ Traffic.none.vain := (List.append_nil _).symm
  have hfinished : ∀ task (s : Session), (s.finish task .finished).failures = s.failures :=
    fun task s => (failures_finish s task .finished).trans (List.append_nil _)
  cases hs with
  | submit | fork =>
    rw [(offerRecord_moves _ _).2.2.2, List.append_nil]
    rfl
  | clone =>
    rw [(offerRecord_moves _ _).2.2.2, List.append_nil, endBurst, hfinished]
    exact picked_noteBurst (s.offered _) _ (fun _ => rfl) rfl
  | beginShutdown => exact (picked_beginShutdown s rfl).trans hquiet
  | joinNext => exact (picked_joinNext s rfl).trans hquiet
  | takeRecord => exact (picked_observed s.journal _ fun _ => rfl).trans hquiet
  | findDamage _ hnext => exact absurd hnext h.conserves.next_ne_error
  | loseRecord | loseNotification | loseEntry | loseAnnouncement => exact failures_finish _ _ _
  | stopDrain => exact (hfinished _ _).trans ((picked_note s rfl).trans hquiet)
  | receiveFault hphase =>
    rw [h.listen] at hphase
    cases hphase
  | receiveNothing => exact (picked_note s rfl).trans hquiet
  | stopListen | stopCorrelate => exact (hfinished _ _).trans hquiet
  | sourceClosed => exact (hfinished _ _).trans ((picked_note s rfl).trans hquiet)
  | takeEntry => exact (picked_note _ rfl).trans hquiet
  | entriesClosed =>
    refine (hfinished _ _).trans ((picked_note _ rfl).trans ?_)
    exact (picked_note s rfl).trans hquiet
  | stopReport => exact (hfinished _ _).trans ((picked_note s rfl).trans hquiet)
  | _ => exact hquiet

/-- Every turn of the self test's own tasks keeps what is known of it. -/
theorem Tested.step (h : Tested total s) (hown : ∀ record, t ≠ .submit record)
    (hs : Step s t moved s') : Tested (total ++ moved) s' where
  wired := h.wired.step hs
  judged := h.judged.step h.wired hs
  listen := listen_ended_step h.listen hs
  budget := h.budget.step hown hs
  conserves := by
    refine conserves_step h.conserves (Ring.inRange_of_le ?_) hs
    exact Nat.le_trans (Nat.le_add_right _ _) h.budget
  failures_eq := by rw [failures_step h hs, h.failures_eq, Traffic.vain_append]

/-- What is known of the self test stays known under every schedule of its own tasks. -/
theorem Tested.run (h : Tested total s) {schedule : List Turn} (hown : Own schedule) :
    Tested (total ++ trafficOf schedule s) (run schedule s) := by
  refine invariant_run (C := fun _ => True) (P := fun moved s => Tested (total ++ moved) s) schedule ?_
    (fun _ _ => trivial) fun {before s t moved s'} ht _ h hs => ?_
  · rw [Traffic.append_none]
    exact h
  · rw [← Traffic.append_assoc]
    exact h.step (fun record hrecord => hown record (hrecord ▸ ht)) hs

end Session

end NetnsWatch
