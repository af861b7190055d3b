import NetnsWatch.Proofs.Ring.Draining
import NetnsWatch.Session.Settle

/-!
# One round of the drain

A round takes every record that the ring gives and sends its event. It comes back to waiting only in
front of a ring that shows nothing, so it does not wait while something is to be read; and it never
comes back empty-handed from a ring that showed something, so it does not spin. Damage ends the drain
behind the events of the records in front of it.
-/

namespace NetnsWatch

/-- Repeating in two rows, the later one outside. -/
theorem repeat_add {α : Type} (f : α → α) (later earlier : Nat) (a : α) :
    Nat.repeat f (later + earlier) a = Nat.repeat f later (Nat.repeat f earlier a) := by
  induction later with
  | zero => rw [Nat.zero_add, Nat.repeat]
  | succ later ih => rw [Nat.succ_add, Nat.repeat, ih, Nat.repeat]

/-- Repeating what changes nothing. -/
theorem repeat_of_fixed {α : Type} {f : α → α} {a : α} (h : f a = a) (n : Nat) :
    Nat.repeat f n a = a := by
  induction n with
  | zero => rfl
  | succ n ih => rw [Nat.repeat, ih, h]

namespace Session

/-- A session whose drain has taken these records and sent their events, all at one time and after
this many others. -/
def forward (records : List Bytes) (rest : Ring) (count : Nat) (s : Session) : Session :=
  { s with
    ring := rest
    source := { s.source with
      queue := s.source.queue ++ records.map fun record => observe record s.now }
    drain := .draining (count + records.length)
    journal := s.journal ++ records.flatMap fun record => observed (observe record s.now) }

/-- What becomes of a drain that gets no more record after this many: it waits again, or it ends with
the damage. -/
def endRound (count : Nat) (s : Session) : Session :=
  match s.ring.damage? with
  | none => { s with drain := .waiting, drained := s.drained + count }
  | some fault => endDrain (.failed fault) s

section

variable {s : Session} {count : Nat} {record : Bytes} {records : List Bytes} {rest last : Ring}

/-- The drain takes a record and sends its event. -/
theorem takeRecord_sendRecord (hdrain : s.drain = .draining count)
    (hopen : s.source.receiving = true) (hnext : s.ring.next = (.ok (some record), rest)) :
    s.takeRecord.sendRecord = s.forward [record] rest count := by
  have htaken : s.takeRecord = { s with
      ring := rest
      drain := .sending count (observe record s.now)
      journal := s.journal ++ observed (observe record s.now) } := by
    simp only [takeRecord, hdrain, hnext]
  simp only [htaken, sendRecord, Channel.send_of_receiving hopen, forward, List.map_singleton,
    List.flatMap_singleton, List.length_singleton]

/-- The drain gets no more record. -/
theorem takeRecord_of_spent (hdrain : s.drain = .draining count) (hspent : s.ring.Spent) :
    s.takeRecord = s.endRound count := by
  obtain ⟨hnext, hdamage⟩ | ⟨fault, hnext, hdamage⟩ := hspent.next_fst
  · have hboth : s.ring.next = (.ok none, s.ring) := Prod.ext hnext hspent.next_snd
    simp only [takeRecord, hdrain, hboth, endRound, hdamage]
  · have hboth : s.ring.next = (.error fault, s.ring) := Prod.ext hnext hspent.next_snd
    simp only [takeRecord, hdrain, hboth, endRound, hdamage]
    rfl

/-- After its round the drain has nothing to send. -/
theorem sendRecord_endRound (count : Nat) (s : Session) :
    (s.endRound count).sendRecord = s.endRound count := by
  unfold endRound
  split <;> rfl

/-- After its round the drain takes nothing. -/
theorem takeRecord_endRound (count : Nat) (s : Session) :
    (s.endRound count).takeRecord = s.endRound count := by
  unfold endRound
  split <;> rfl

/-- As many turns as there are records forward them all. -/
theorem repeat_takeRecord (hyields : s.ring.Yields records last) (hdrain : s.drain = .draining count)
    (hopen : s.source.receiving = true) :
    Nat.repeat (fun s => s.takeRecord.sendRecord) records.length s = s.forward records last count := by
  induction records generalizing s count with
  | nil =>
    cases hyields
    simp [Nat.repeat, forward, ← hdrain]
  | cons record records ih =>
    cases hyields with
    | @record _ rest _ _ _ hnext hlater =>
      have hothers := ih (s := s.forward [record] rest count) hlater rfl hopen
      rw [List.length_cons, repeat_add]
      change Nat.repeat _ records.length s.takeRecord.sendRecord = _
      rw [takeRecord_sendRecord hdrain hopen hnext, hothers]
      simp [forward, Nat.add_assoc, Nat.add_comm 1]

/-- A round forwards all records that the ring gives, and then ends. -/
theorem drainOnce_eq (hyields : s.ring.Yields records last) (hspent : last.Spent)
    (hle : s.ring.consumer ≤ s.ring.producer) (hhalf : s.ring.producer.toNat < Ring.half)
    (hdrain : s.drain = .waiting) (hopen : s.source.receiving = true) :
    s.drainOnce = (s.forward records last 0).endRound records.length := by
  have hlength := hyields.length_le hle hhalf
  -- The bound leaves a turn for the end of the round, and the turns beyond it change nothing.
  obtain ⟨more, hbound⟩ : ∃ more, s.recordBound = more + (1 + records.length) := by
    refine Nat.exists_eq_add_of_le' ?_
    rw [recordBound, UInt64.toNat_sub_of_le _ _ hle]
    omega
  have hwoken : s.wakeDrain = { s with drain := .draining 0 } := by
    simp only [wakeDrain, hdrain]
  have hforwarded : Nat.repeat (fun s => s.takeRecord.sendRecord) records.length s.wakeDrain =
      s.forward records last 0 := by
    rw [hwoken]
    exact repeat_takeRecord (s := { s with drain := .draining 0 }) hyields rfl hopen
  have hphase : (s.forward records last 0).drain = .draining records.length :=
    congrArg DrainPhase.draining (Nat.zero_add _)
  have hended : (s.forward records last 0).takeRecord.sendRecord =
      (s.forward records last 0).endRound records.length := by
    rw [takeRecord_of_spent hphase hspent, sendRecord_endRound]
  rw [drainOnce, hbound, repeat_add, repeat_add, hforwarded]
  change Nat.repeat _ more (s.forward records last 0).takeRecord.sendRecord = _
  rw [hended]
  refine repeat_of_fixed ?_ more
  rw [takeRecord_endRound, sendRecord_endRound]

/-- After a round the drain waits, having counted what it sent, or it has ended with the damage. -/
theorem endRound_cases (count : Nat) (s : Session) :
    s.ring.damage? = none ∧
        s.endRound count = { s with drain := .waiting, drained := s.drained + count } ∨
      ∃ fault, s.ring.damage? = some fault ∧ s.endRound count = endDrain (.failed fault) s := by
  unfold endRound
  cases s.ring.damage? with
  | none => exact Or.inl ⟨rfl, rfl⟩
  | some fault => exact Or.inr ⟨fault, rfl, rfl⟩

/-- What a round of the drain does in a session whose ring gives these records: it sends their events
and no others. Then it waits, and nothing is to be read, or it has ended with the damage that is in
front of the reader. Where something was to be read before it, it has sent an event or ended. -/
structure Rounds (records : List Bytes) (s : Session) : Prop where
  queue_eq : s.drainOnce.source.queue =
    s.source.queue ++ records.map fun record => observe record s.now
  ends : s.drainOnce.drain = .waiting ∧ s.drainOnce.drained = s.drained + records.length ∧
      s.drainOnce.ring.hasCommitted = false ∨
    ∃ fault, s.drainOnce.ring.next.1 = .error fault ∧
      s.drainOnce = endDrain (.failed fault) (s.forward records s.drainOnce.ring 0)
  progress : s.ring.hasCommitted = true → s.drainOnce.drain = .ended ∨ records ≠ []

/-- A waiting drain whose channel is open goes through a round as the ring says. -/
theorem rounds_of_yields (hyields : s.ring.Yields records last) (hspent : last.Spent)
    (hle : s.ring.consumer ≤ s.ring.producer) (hhalf : s.ring.producer.toNat < Ring.half)
    (hdrain : s.drain = .waiting) (hopen : s.source.receiving = true) : s.Rounds records := by
  have honce := drainOnce_eq hyields hspent hle hhalf hdrain hopen
  have hsomething := hyields.damage_or_record hspent
  obtain ⟨hnone, hend⟩ | ⟨fault, hdamage, hend⟩ :=
    (s.forward records last 0).endRound_cases records.length
  · rw [hend] at honce
    refine ⟨by rw [honce]; rfl, Or.inl ?_, fun hready => Or.inr ?_⟩
    · rw [honce]
      exact ⟨rfl, rfl, hspent.hasCommitted_eq_false hnone⟩
    · obtain hdamaged | hpos := hsomething hready
      · exact absurd hnone hdamaged
      · exact List.ne_nil_of_length_pos hpos
  · rw [hend] at honce
    have hring : s.drainOnce.ring = last := congrArg Session.ring honce
    refine ⟨by rw [honce]; rfl, Or.inr ⟨fault, ?_, ?_⟩, fun _ => Or.inl (by rw [honce]; rfl)⟩
    · obtain ⟨-, hnone⟩ | ⟨other, hnext, hother⟩ := hspent.next_fst
      · exact absurd (hdamage.symm.trans hnone) (Option.some_ne_none _)
      · rw [hring, hnext, Option.some.inj (hother.symm.trans hdamage)]
    · rw [hring]
      exact honce

end

/-- A drain comes to an end on every ring, whatever has happened to it, after as many records as the
reader gets; and the rounds of a waiting drain in any session with that ring come to the same. -/
theorem drain_exhausts {capacity : UInt64} {fresh : Ring} (hcreate : Ring.create capacity = .ok fresh)
    (operations : List Ring.Operation) (hlow : Ring.StaysLow operations fresh) {σ : Type}
    (sink : Bytes → σ → σ × Option Fault) (hsink : ∀ record state, (sink record state).2 = none)
    (state : σ) :
    ∃ records, Ring.Exhausts sink state (Ring.operate operations fresh) records ∧
      ∀ s : Session, s.ring = Ring.operate operations fresh → s.drain = .waiting →
        s.source.receiving = true → s.Rounds records := by
  obtain ⟨hordered, hhalf⟩ := (Ring.ordered_create hcreate).operate operations hlow
  obtain ⟨records, last, hyields, hspent⟩ := (Ring.operate operations fresh).exists_yields
  refine ⟨records, hyields.exhausts hspent hordered.consumer_le hhalf hsink state, ?_⟩
  intro s hring hdrain hopen
  rw [← hring] at hyields hordered hhalf
  exact rounds_of_yields hyields hspent hordered.consumer_le hhalf hdrain hopen

/-- A sink that keeps what it is handed. -/
def keep (record : Bytes) (kept : List Bytes) : List Bytes × Option Fault :=
  (kept ++ [record], none)

/-- Two records, and a stray word over the header of the second. -/
def garbledSecond : List Ring.Operation :=
  [.submit [1], .submit [2], .overwrite 16 7]

/-- The first record comes out, and a monitor's drain forwards it and ends. -/
theorem garbledSecond_exhausts :
    Ring.Exhausts keep [] (Ring.operate garbledSecond (.ofMemory Ring.fourWords)) [[1]] ∧
      (monitor (Ring.operate garbledSecond (.ofMemory Ring.fourWords)) 0).Rounds [[1]] := by
  have hcreate : Ring.create 32 = .ok (.ofMemory Ring.fourWords) := rfl
  obtain ⟨records, hexhausts, hrounds⟩ := drain_exhausts hcreate garbledSecond (by decide +kernel)
    keep (fun _ _ => rfl) []
  have hread : Ring.delivered (List.replicate 2 .next)
      (Ring.operate garbledSecond (.ofMemory Ring.fourWords)) = [[1]] := by
    decide +kernel
  have hroom : ((Ring.operate garbledSecond (.ofMemory Ring.fourWords)).producer.toNat -
      (Ring.operate garbledSecond (.ofMemory Ring.fourWords)).consumer.toNat) / 16 = 2 := by
    decide +kernel
  have hlength := hexhausts.length_le
  rw [hroom] at hlength
  rw [hexhausts.reads 2, List.take_of_length_le hlength] at hread
  subst hread
  exact ⟨hexhausts, hrounds _ rfl rfl rfl⟩

end Session

end NetnsWatch
