import NetnsWatch.Proofs.Ring.Contents

/-!
# A ring is a bounded queue of records

The specification is a plain list of byte strings with a capacity: a record is queued when its frame
fits beside the frames already queued, and is turned away and counted otherwise. Every sequence of
calls on the two ends of a ring is answered as that queue answers it, as long as the positions stay
exact numbers.
-/

namespace NetnsWatch

/-- A queue of records whose frames share a capacity, and the count of records it turned away. -/
structure Fifo where
  capacity : Nat
  records : List Bytes
  dropped : UInt64

namespace Fifo

/-- A queue that holds nothing and has turned nothing away. -/
def empty (capacity : Nat) : Fifo :=
  { capacity, records := [], dropped := 0 }

/-- The room of a record: a word for its header, and its bytes rounded up to whole words. -/
def room (record : Bytes) : Nat :=
  8 + (record.length + 7) / 8 * 8

/-- The room of all queued records together. -/
def load (q : Fifo) : Nat :=
  (q.records.map room).sum

/-- Whether a record is of a permitted length and fits beside the queued ones. -/
def Admits (q : Fifo) (record : Bytes) : Prop :=
  1 ≤ record.length ∧ record.length ≤ 4294967295 ∧ q.load + room record ≤ q.capacity

/-- Whether a record is admitted can be computed. -/
instance (q : Fifo) (record : Bytes) : Decidable (q.Admits record) :=
  inferInstanceAs (Decidable (_ ∧ _ ∧ _))

/-- Queue a record that is admitted; turn any other away. -/
def submit (record : Bytes) (q : Fifo) : Submission × Fifo :=
  if q.Admits record then (.accepted, { q with records := q.records ++ [record] })
  else (.dropped, { q with dropped := q.dropped + 1 })

/-- Take the oldest record. -/
def next (q : Fifo) : Except Fault (Option Bytes) × Fifo :=
  (.ok q.records.head?, { q with records := q.records.tail })

end Fifo

namespace Ring

/-- A call on one of the two ends. -/
inductive Call where
  | submit (record : Bytes)
  | next

/-- What a call returns. -/
inductive Answer where
  | submitted (submission : Submission)
  | taken (result : Except Fault (Option Bytes))

/-- Make calls in order with given operations: the answers, and the state they leave. -/
def perform {σ : Type} (submit : Bytes → σ → Submission × σ)
    (next : σ → Except Fault (Option Bytes) × σ) : List Call → σ → List Answer × σ
  | [], s => ([], s)
  | .submit record :: calls, s =>
    let (submission, s) := submit record s
    let (answers, s) := perform submit next calls s
    (.submitted submission :: answers, s)
  | .next :: calls, s =>
    let (result, s) := next s
    let (answers, s) := perform submit next calls s
    (.taken result :: answers, s)

/-- Make calls on a ring. -/
def calls : List Call → Ring → List Answer × Ring :=
  perform submit next

/-- Make calls on a bounded queue. -/
def callsFifo : List Call → Fifo → List Answer × Fifo :=
  perform Fifo.submit Fifo.next

/-- The ring and the queue have the same capacity, records and count. -/
structure Matches (r : Ring) (q : Fifo) : Prop where
  capacity : q.capacity = r.memory.capacity.toNat
  holds : Holds r q.records
  dropped : r.dropped = q.dropped

/-- The room of the queued records is that of their frames. -/
theorem load_eq_length_layout (q : Fifo) : q.load = 8 * (layout q.records).length := by
  unfold Fifo.load
  induction q.records with
  | nil => rfl
  | cons record queue ih =>
    rw [List.map_cons, List.sum_cons, ih, layout_cons, List.length_append, length_frame]
    simp only [Fifo.room, payloadWords]
    omega

/-- A queue admits a record exactly when the ring has room for it. -/
theorem Matches.admits_iff {r : Ring} {q : Fifo} (h : Matches r q) (record : Bytes) :
    q.Admits record ↔ HasRoom r q.records record.length := by
  have hroom : Fifo.room record = 8 * (1 + payloadWords record.length) := by
    simp only [Fifo.room, payloadWords]
    omega
  rw [Fifo.Admits, HasRoom, load_eq_length_layout, h.capacity, hroom]
  exact Iff.rfl

/-- A submission is answered alike, and leaves ring and queue alike. -/
theorem Matches.submit {r : Ring} {q : Fifo} (h : Matches r q) (hrange : InRange r)
    (record : Bytes) : (r.submit record).1 = (q.submit record).1 ∧
      Matches (r.submit record).2 (q.submit record).2 := by
  by_cases hroom : HasRoom r q.records record.length
  · obtain ⟨haccepted, hholds, hdropped, hcapacity⟩ := submit_of_hasRoom h.holds hrange hroom
    rw [Fifo.submit, if_pos ((h.admits_iff record).mpr hroom)]
    exact ⟨haccepted, h.capacity.trans (congrArg _ hcapacity.symm), hholds,
      hdropped.trans h.dropped⟩
  · rw [submit_of_not_hasRoom h.holds hrange hroom, Fifo.submit,
      if_neg (fun hadmits => hroom ((h.admits_iff record).mp hadmits))]
    exact ⟨rfl, h.capacity, h.holds.withDropped _, congrArg (· + 1) h.dropped⟩

/-- The reader is answered alike, and leaves ring and queue alike. -/
theorem Matches.next {r : Ring} {q : Fifo} (h : Matches r q) :
    r.next.1 = q.next.1 ∧ Matches r.next.2 q.next.2 := by
  obtain ⟨capacity, records, dropped⟩ := q
  cases records with
  | nil =>
    rw [next_of_holds_nil h.holds]
    exact ⟨rfl, h⟩
  | cons record queue =>
    rw [next_of_holds_cons h.holds]
    refine ⟨rfl, h.capacity.trans (congrArg _ ?_), holds_release h.holds, h.dropped⟩
    rw [capacity_release]

/-- Ring and queue that match answer every sequence of calls alike, and still match after it. -/
theorem Matches.perform {r : Ring} {q : Fifo} (h : Matches r q) (sequence : List Call)
    (hrange : ∀ i, i < sequence.length → InRange (calls (sequence.take i) r).2) :
    (calls sequence r).1 = (callsFifo sequence q).1 ∧
      Matches (calls sequence r).2 (callsFifo sequence q).2 := by
  induction sequence generalizing r q with
  | nil => exact ⟨rfl, h⟩
  | cons call sequence ih =>
    have hnow : InRange r := hrange 0 (Nat.zero_lt_succ _)
    cases call with
    | submit record =>
      obtain ⟨hanswer, hafter⟩ := h.submit hnow record
      have hlater : ∀ i, i < sequence.length →
          InRange (calls (sequence.take i) (r.submit record).2).2 :=
        fun i hi => hrange (i + 1) (Nat.succ_lt_succ hi)
      obtain ⟨hanswers, hend⟩ := ih hafter hlater
      refine ⟨?_, hend⟩
      exact congrArg₂ (fun answer answers => Answer.submitted answer :: answers) hanswer hanswers
    | next =>
      obtain ⟨hanswer, hafter⟩ := h.next
      have hlater : ∀ i, i < sequence.length → InRange (calls (sequence.take i) r.next.2).2 :=
        fun i hi => hrange (i + 1) (Nat.succ_lt_succ hi)
      obtain ⟨hanswers, hend⟩ := ih hafter hlater
      refine ⟨?_, hend⟩
      exact congrArg₂ (fun answer answers => Answer.taken answer :: answers) hanswer hanswers

/-- A ring, made for any capacity that it accepts and used from its two ends in any order, answers
as a bounded queue of records does; a record that it turns away changes the count of drops alone. -/
theorem answers_eq_fifo {capacity : UInt64} {r : Ring} (hcreate : create capacity = .ok r)
    (sequence : List Call)
    (hrange : ∀ i, i < sequence.length → InRange (calls (sequence.take i) r).2) :
    (calls sequence r).1 = (callsFifo sequence (Fifo.empty capacity.toNat)).1 ∧
      (calls sequence r).2.dropped = (callsFifo sequence (Fifo.empty capacity.toNat)).2.dropped ∧
      ∀ i record, sequence[i]? = some (.submit record) →
        ((calls (sequence.take i) r).2.submit record).1 = .dropped →
        ((calls (sequence.take i) r).2.submit record).2 =
          { (calls (sequence.take i) r).2 with dropped := (calls (sequence.take i) r).2.dropped + 1 } := by
  obtain ⟨hholds, hcapacity, hdropped, -⟩ := holds_create hcreate
  have hfresh : Matches r (Fifo.empty capacity.toNat) :=
    ⟨congrArg UInt64.toNat hcapacity.symm, hholds, hdropped⟩
  obtain ⟨hanswers, hend⟩ := hfresh.perform sequence hrange
  refine ⟨hanswers, hend.dropped, ?_⟩
  intro i record hcall hturned
  have hi : i < sequence.length := (List.getElem?_eq_some_iff.mp hcall).1
  have hbefore : ∀ j, j < (sequence.take i).length →
      InRange (calls ((sequence.take i).take j) r).2 := by
    intro j hj
    rw [List.length_take] at hj
    rw [List.take_take, Nat.min_eq_left (by omega)]
    exact hrange j (by omega)
  have hmatch := (hfresh.perform (sequence.take i) hbefore).2
  refine congrArg Prod.snd (submit_of_not_hasRoom hmatch.holds (hrange i hi) fun hroom => ?_)
  rw [(submit_of_hasRoom hmatch.holds (hrange i hi) hroom).1] at hturned
  cases hturned

/-- Calls that fill the least ring, turn a record away, and use the space again. -/
def refill : List Call :=
  [.submit [1, 2, 3], .submit [4], .next, .next, .submit [5, 6]]

/-- The least ring answers these calls as a queue of sixteen bytes does. -/
theorem refill_answers_eq_fifo :
    (calls refill (ofMemory Memory.least)).1 = (callsFifo refill (Fifo.empty 16)).1 := by
  have hcreate : create 16 = .ok (ofMemory Memory.least) := rfl
  have hrange : ∀ i, i < refill.length →
      InRange (calls (refill.take i) (ofMemory Memory.least)).2 := by
    decide +kernel
  exact (answers_eq_fifo hcreate refill hrange).1

end Ring

end NetnsWatch
