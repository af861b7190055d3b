import NetnsWatch.Proofs.Event.Pairs
import NetnsWatch.Proofs.Session.Pipeline
import NetnsWatch.Proofs.Session.SelfTest

/-!
# What the self test has handed over

A ring with room for four records drops none of the self test's. While nobody cancels the token, the
tasks behind the self test keep running, so where it stands tells which records the ring has accepted
and whether the announcement was sent: the forks in any order, then the announcement, and after the
rest the clone.
-/

namespace NetnsWatch

namespace Burst

/-- What a fork of the self test is reported as. -/
def forked (pid : UInt32) : Occurrence :=
  .process ⟨.fork, pid, pid, 0, 0, 1, Command.ofName "bash".toUTF8.toList⟩

/-- What the clone of the self test is reported as. -/
def cloned : Occurrence :=
  .process ⟨.clone, clonePid, clonePid, 0, 0, 1, Command.ofName "ip".toUTF8.toList⟩

/-- The records of some forks. -/
def forkRecords (pids : List UInt32) : List Bytes :=
  pids.map fun pid => record .fork pid "bash"

/-- The record of the clone. -/
def cloneRecord : Bytes :=
  record .clone clonePid "ip"

/-- The announcement with its stamp. -/
def announcement (stamp : Instant) : SourceEvent :=
  ⟨stamp, .nsid notification⟩

/-- The high half of a pair of one id with itself is the id, and so is the low half. -/
theorem halves_of_pair (pid : UInt32) :
    (((pid.toUInt64 <<< 32) ||| pid.toUInt64) >>> 32).toUInt32 = pid ∧
      ((pid.toUInt64 <<< 32) ||| pid.toUInt64).toUInt32 = pid := by
  have hlt : pid.toNat < 2 ^ 32 := pid.toNat_lt
  have hpair : ((pid.toUInt64 <<< 32) ||| pid.toUInt64).toNat = pid.toNat <<< 32 + pid.toNat := by
    rw [Nat.shiftLeft_add_eq_or_of_lt hlt, UInt64.toNat_or, UInt64.toNat_shiftLeft,
      UInt32.toNat_toUInt64, Nat.mod_eq_of_lt (a := pid.toNat <<< _)]
    · rfl
    · change pid.toNat <<< 32 < 2 ^ 64
      rw [Nat.shiftLeft_eq]
      omega
  rw [Nat.shiftLeft_eq] at hpair
  refine (halves_shift_truncate _).unique ⟨?_, ?_⟩ <;>
    rw [hpair, UInt32.size] <;> omega

/-- A record of the self test is read back as the process it was written for. -/
theorem ofRecord_record (kind : Kind) (pid : UInt32) (name : String) :
    Occurrence.ofRecord (record kind pid name) =
      .process ⟨kind, pid, pid, 0, 0, 1, Command.ofName name.toUTF8.toList⟩ := by
  obtain ⟨hhigh, hlow⟩ := halves_of_pair pid
  have hencode : record kind pid name =
      Event.encode ⟨kind, pid, pid, 0, 0, 1, Command.ofName name.toUTF8.toList⟩ := by
    rw [record, Record.ofPairs, hhigh, hlow]
    rfl
  rw [Occurrence.ofRecord, hencode, Event.decode_encode, Command.canonical_ofName]

/-- The record of the clone is read back as the clone. -/
theorem ofRecord_clone : Occurrence.ofRecord cloneRecord = cloned :=
  ofRecord_record .clone clonePid "ip"

/-- No fork is the clone. -/
theorem forked_ne_cloned (pid : UInt32) : forked pid ≠ cloned := by
  intro h
  injection h with hevent
  injection hevent with hkind
  cases hkind

/-- The records that were accepted and the announcements that were sent, by where the self test
stands. -/
inductive Ledger (now : Instant) (accepted : List Bytes) (announced : List SourceEvent) :
    BurstPhase → Prop
  | forking {forks left : List UInt32} (hforks : (forks ++ left).Perm forkPids)
      (haccepted : accepted = forkRecords forks) (hannounced : announced = []) :
      Ledger now accepted announced (.forking left 0)
  | sending {forks : List UInt32} {stamp : Instant} (hforks : forks.Perm forkPids)
      (haccepted : accepted = forkRecords forks) (hannounced : announced = [])
      (hstamp : stamp ≤ now) : Ledger now accepted announced (.sending (announcement stamp) 0)
  | resting {forks : List UInt32} {stamp due : Instant} (hforks : forks.Perm forkPids)
      (haccepted : accepted = forkRecords forks) (hannounced : announced = [announcement stamp])
      (hdue : stamp + rest ≤ due) : Ledger now accepted announced (.resting due 0)
  | ended {forks : List UInt32} {stamp : Instant} (hforks : forks.Perm forkPids)
      (haccepted : accepted = forkRecords forks ++ [cloneRecord])
      (hannounced : announced = [announcement stamp]) (hrested : stamp + rest ≤ now) :
      Ledger now accepted announced .ended

section Ledger

variable {now later : Instant} {accepted : List Bytes} {announced : List SourceEvent}
  {phase : BurstPhase}

/-- Time may pass. -/
theorem Ledger.mono (h : Ledger now accepted announced phase) (hlater : now ≤ later) :
    Ledger later accepted announced phase := by
  cases h with
  | forking hforks haccepted hannounced => exact .forking hforks haccepted hannounced
  | sending hforks haccepted hannounced hstamp =>
    exact .sending hforks haccepted hannounced (Nat.le_trans hstamp hlater)
  | resting hforks haccepted hannounced hdue => exact .resting hforks haccepted hannounced hdue
  | ended hforks haccepted hannounced hrested =>
    exact .ended hforks haccepted hannounced (Nat.le_trans hrested hlater)

/-- Records of forks are read back as these forks. -/
theorem map_ofRecord_forkRecords (forks : List UInt32) :
    (forkRecords forks).map Occurrence.ofRecord = forks.map forked := by
  rw [forkRecords, List.map_map]
  exact List.map_congr_left fun pid _ => ofRecord_record .fork pid "bash"

/-- Each of them is read back as a fork. -/
theorem exists_forked_of_mem {forks : List UInt32} {bytes : Bytes}
    (hbytes : bytes ∈ forkRecords forks) : ∃ pid, Occurrence.ofRecord bytes = forked pid := by
  obtain ⟨pid, -, rfl⟩ := List.mem_map.mp hbytes
  exact ⟨pid, ofRecord_record .fork pid "bash"⟩

/-- All accepted records but the last are forks. -/
theorem Ledger.forked_of_mem_dropLast (h : Ledger now accepted announced phase) {bytes : Bytes}
    (hbytes : bytes ∈ accepted.dropLast) : ∃ pid, Occurrence.ofRecord bytes = forked pid := by
  cases h with
  | forking _ haccepted | sending _ haccepted | resting _ haccepted =>
    exact exists_forked_of_mem (haccepted ▸ List.mem_of_mem_dropLast hbytes)
  | ended _ haccepted =>
    rw [haccepted, List.dropLast_concat] at hbytes
    exact exists_forked_of_mem hbytes

/-- While the self test runs, all accepted records are forks. -/
theorem Ledger.forked_of_mem (h : Ledger now accepted announced phase) (halive : phase ≠ .ended)
    {bytes : Bytes} (hbytes : bytes ∈ accepted) : ∃ pid, Occurrence.ofRecord bytes = forked pid := by
  cases h with
  | forking _ haccepted | sending _ haccepted | resting _ haccepted =>
    exact exists_forked_of_mem (haccepted ▸ hbytes)
  | ended => exact absurd rfl halive

end Ledger

end Burst

namespace Session

open Burst

variable {total moved : Traffic} {s s' : Session} {t : Turn}

/-- The ring has room for four records of the self test, and has dropped none. -/
structure Roomy (s : Session) : Prop where
  le_capacity : 192 ≤ s.ring.memory.capacity.toNat
  dropped : s.ring.dropped = 0

/-- A record of the self test is accepted. -/
theorem Roomy.submit (h : s.Roomy) (htested : Tested total s) (hleft : 1 ≤ s.burst.left)
    (kind : Kind) (pid : UInt32) (name : String) :
    (s.submit (record kind pid name)).1 = .accepted ∧
      (s.offered (record kind pid name)).Roomy := by
  obtain ⟨queue, -, hholds⟩ := htested.conserves
  have hproducer := hholds.producer_eq
  have hbudget := htested.budget
  have hcapacity := h.le_capacity
  have hlength : (record kind pid name).length = 40 := Record.length_toBytes _
  have hroom : Ring.HasRoom s.ring queue (record kind pid name).length := by
    unfold Budget at hbudget
    rw [hlength]
    refine ⟨by decide, by decide, ?_⟩
    have hwords : Ring.payloadWords 40 = 5 := rfl
    rw [hwords]
    omega
  have hrange : Ring.InRange s.ring :=
    Ring.inRange_of_le (Nat.le_trans (Nat.le_add_right _ _) hbudget)
  obtain ⟨haccepted, -, hdropped, hkept⟩ := Ring.submit_of_hasRoom hholds hrange hroom
  refine ⟨haccepted, ?_, hdropped.trans h.dropped⟩
  change 192 ≤ (s.ring.submit _).2.memory.capacity.toNat
  rw [hkept]
  exact hcapacity

/-- Taking a record leaves the capacity and the count of drops. -/
theorem Roomy.next {ring : Ring} {result : Except Fault (Option Bytes)} (h : s.Roomy)
    (hnext : s.ring.next = (result, ring)) :
    192 ≤ ring.memory.capacity.toNat ∧ ring.dropped = 0 := by
  have hring : ring = s.ring.next.2 := by rw [hnext]
  rw [hring]
  unfold Ring.next
  split
  · exact ⟨h.le_capacity, h.dropped⟩
  · exact ⟨h.le_capacity, h.dropped⟩
  · refine ⟨?_, h.dropped⟩
    rw [Ring.capacity_release]
    exact h.le_capacity

/-- Every turn of the self test's own tasks leaves room for what is to come. -/
theorem Roomy.step (h : s.Roomy) (htested : Tested total s) (hown : ∀ record, t ≠ .submit record)
    (hs : Step s t moved s') : s'.Roomy := by
  cases hs with
  | submit => exact absurd rfl (hown _)
  | takeNothing _ hnext | takeRecord _ hnext | findDamage _ hnext =>
    exact ⟨(h.next hnext).1, (h.next hnext).2⟩
  | fork hburst =>
    have hleft : 1 ≤ s.burst.left := by
      rw [hburst]
      exact Nat.succ_le_succ (Nat.zero_le _)
    obtain ⟨-, hroomy⟩ := h.submit htested hleft .fork _ "bash"
    exact ⟨hroomy.le_capacity, hroomy.dropped⟩
  | clone hburst =>
    have hleft : 1 ≤ s.burst.left := by
      rw [hburst]
      exact Nat.le_refl 1
    obtain ⟨-, hroomy⟩ := h.submit htested hleft .clone clonePid "ip"
    rw [noteBurst_eq]
    exact ⟨hroomy.le_capacity, hroomy.dropped⟩
  | _ => exact ⟨h.le_capacity, h.dropped⟩

/-- The token is not cancelled, and the drain, the correlation and the report run. -/
structure Running (s : Session) : Prop where
  cancelled : s.supervisor.cancelled = false
  drain : s.drain.alive = true
  correlate : s.correlate.alive = true
  report : s.report.alive = true

/-- A drain that runs has not ended. -/
theorem Running.drain_ne_ended (h : s.Running) : s.drain ≠ .ended := by
  intro hended
  have hdrain := h.drain
  rw [hended] at hdrain
  cases hdrain

/-- Joining a task leaves the token as it is. -/
theorem cancelled_joinNext (s : Supervisor) : s.joinNext.1.cancelled = s.cancelled := by
  unfold Supervisor.joinNext
  repeat' split
  all_goals rfl

/-- No turn of the self test's own tasks ends one of those while nobody cancels the token. -/
theorem Running.step (h : s.Running) (htested : Tested total s) (hcancel : t ≠ .cancel)
    (hbegin : t ≠ .beginShutdown) (hs : Step s t moved s') : s'.Running := by
  have hsource := htested.wired.source_receiving.trans h.correlate
  have hentries := htested.wired.entries_receiving.trans h.report
  have hsenders := htested.wired.source_senders
  have hsender := htested.wired.entries_senders
  rw [h.drain, Bool.toNat_true] at hsenders
  rw [h.correlate, Bool.toNat_true] at hsender
  cases hs with
  | cancel => exact absurd rfl hcancel
  | beginShutdown => exact absurd rfl hbegin
  | joinNext =>
    exact ⟨(cancelled_joinNext s.supervisor).trans h.cancelled, h.drain, h.correlate, h.report⟩
  | wakeDrain | takeNothing | takeRecord | sendRecord =>
    exact ⟨h.cancelled, rfl, h.correlate, h.report⟩
  | takeEvent | sendEntry => exact ⟨h.cancelled, h.drain, rfl, h.report⟩
  | findDamage _ hnext => exact absurd hnext htested.conserves.next_ne_error
  | loseRecord _ hclosed | loseNotification _ hclosed | loseAnnouncement _ hclosed =>
    exact absurd (hsource.symm.trans hclosed) nofun
  | loseEntry _ hclosed => exact absurd (hentries.symm.trans hclosed) nofun
  | stopDrain _ hcancelled | stopListen _ hcancelled | stopCorrelate _ hcancelled
  | stopReport _ hcancelled =>
    exact absurd (h.cancelled.symm.trans hcancelled) nofun
  | receiveFault hphase => exact absurd (htested.listen.symm.trans hphase) nofun
  | sourceClosed _ _ hnone => omega
  | entriesClosed _ _ hnone => omega
  | clone =>
    rw [noteBurst_eq]
    exact ⟨h.cancelled, h.drain, h.correlate, h.report⟩
  | _ => exact ⟨h.cancelled, h.drain, h.correlate, h.report⟩

/-- The clock does not go back. -/
theorem now_le_step (hs : Step s t moved s') : s.now ≤ s'.now := by
  cases hs with
  | advance => exact Nat.le_add_right _ _
  | clone =>
    rw [noteBurst_eq]
    exact Nat.le_refl _
  | _ => exact Nat.le_refl _

/-- The events that were sent and stand for no record. -/
def announced (total : Traffic) : List SourceEvent :=
  total.sent.filter fun event => !event.ringBorn

/-- The ledger of a session with a self test. -/
def Entered (total : Traffic) (s : Session) : Prop :=
  Ledger s.now total.accepted (announced total) s.burst

/-- Traffic without accepted records and announcements leaves the ledger, while time may pass. -/
theorem Entered.quiet (h : Entered total s) (haccepted : moved.accepted = [])
    (hsent : moved.sent.filter (fun event => !event.ringBorn) = []) (hnow : s.now ≤ s'.now)
    (hburst : s'.burst = s.burst) : Entered (total ++ moved) s' := by
  unfold Entered announced
  rw [Traffic.accepted_append, haccepted, Traffic.sent_append, List.filter_append, hsent,
    List.append_nil, List.append_nil, hburst]
  exact h.mono hnow

/-- A record that is accepted is all that a submission moves. -/
theorem offerRecord_of_accepted {bytes : Bytes} {ring : Ring}
    (h : (ring.submit bytes).1 = .accepted) :
    offerRecord bytes ring = { Traffic.none with accepted := [bytes] } := by
  rw [offerRecord, h]
  rfl

/-- An accepted record is entered behind the others, and no announcement. -/
theorem entered_accepted (total : Traffic) (bytes : Bytes) :
    (total ++ { Traffic.none with accepted := [bytes] }).accepted = total.accepted ++ [bytes] ∧
      announced (total ++ { Traffic.none with accepted := [bytes] }) = announced total := by
  refine ⟨rfl, ?_⟩
  rw [announced, Traffic.sent_append]
  exact congrArg _ (List.append_nil _)

/-- Every turn of the self test's own tasks enters what it does. -/
theorem Entered.step (h : Entered total s) (htested : Tested total s) (hroomy : s.Roomy)
    (hrunning : s.Running) (hkind : s.OwnKind) (hown : ∀ record, t ≠ .submit record)
    (hs : Step s t moved s') : Entered (total ++ moved) s' := by
  have hnow := now_le_step hs
  cases hs with
  | submit => exact absurd rfl (hown _)
  | @sendRecord count event hdrain =>
    have hborn : event.ringBorn = true := hkind.of_drain hdrain
    exact h.quiet rfl (by simp [hborn]) hnow rfl
  | sendNotification hlisten => exact absurd (htested.listen.symm.trans hlisten) nofun
  | @fork pid left dropped hburst hpid =>
    have hleft : 1 ≤ s.burst.left := by
      rw [hburst]
      exact Nat.succ_le_succ (Nat.zero_le _)
    obtain ⟨hsubmission, -⟩ := hroomy.submit htested hleft .fork pid "bash"
    obtain ⟨haccepted, hsame⟩ := entered_accepted total (record .fork pid "bash")
    rw [Entered, hburst] at h
    rw [offerRecord_of_accepted hsubmission, hsubmission, Entered, haccepted, hsame]
    cases h with
    | @forking forks _ hforks hentered hannounced =>
      have hmoved : ((forks ++ [pid]) ++ left.erase pid).Perm forkPids := by
        rw [List.append_assoc, List.singleton_append]
        exact ((List.perm_cons_erase hpid).symm.append_left forks).trans hforks
      refine .forking hmoved ?_ hannounced
      rw [hentered, forkRecords, forkRecords, List.map_append, List.map_singleton]
  | announce hburst =>
    rw [Entered, hburst] at h
    rw [Traffic.append_none]
    cases h with
    | forking hforks hentered hannounced =>
      rw [List.append_nil] at hforks
      exact .sending hforks hentered hannounced (Nat.le_refl _)
  | @sendAnnouncement event dropped hburst =>
    rw [Entered, hburst] at h
    cases h with
    | sending hforks hentered hannounced hstamp =>
      refine .resting hforks ?_ ?_ (Nat.add_le_add_right hstamp rest)
      · rw [Traffic.accepted_append, hentered]
        exact List.append_nil _
      · rw [announced, Traffic.sent_append, List.filter_append, ← announced, hannounced]
        rfl
  | loseAnnouncement _ hclosed =>
    have hopen := htested.wired.source_receiving.trans hrunning.correlate
    exact absurd (hopen.symm.trans hclosed) nofun
  | clone hburst hdue =>
    have hleft : 1 ≤ s.burst.left := by
      rw [hburst]
      exact Nat.le_refl 1
    obtain ⟨hsubmission, -⟩ := hroomy.submit htested hleft .clone clonePid "ip"
    obtain ⟨haccepted, hsame⟩ := entered_accepted total (record .clone clonePid "ip")
    rw [Entered, hburst] at h
    rw [offerRecord_of_accepted hsubmission, Entered, noteBurst_eq]
    change Ledger s.now _ _ .ended
    rw [haccepted, hsame]
    cases h with
    | resting hforks hentered hannounced hrested =>
      exact .ended hforks (congrArg (· ++ [cloneRecord]) hentered) hannounced (Nat.le_trans hrested hdue)
  | _ => exact h.quiet rfl rfl hnow rfl

end Session

end NetnsWatch
