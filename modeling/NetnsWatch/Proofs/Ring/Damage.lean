import NetnsWatch.Proofs.Ring.Containment
import NetnsWatch.Proofs.Ring.Draining

/-!
# A damaged header is found where it is

A stray word over the header of a queued record leaves the frames in front of it as they were. So the
reader gets the records of these, comes to the damaged header itself, and goes no further: it reports
the header's position, or takes a zero for a frame that is not committed yet.
-/

namespace NetnsWatch.Ring

open Memory

/-- A word in the place of a header at `start` is damage, and this is what it is reported as: no
committed header, the header of an empty record, or that of a frame that ends behind the producer. -/
inductive Damages (start producer word : UInt64) : String → Prop
  | uncommitted : word ≠ 0 → word &&& commitBit = 0 → Damages start producer word notCommitted
  | stray : word &&& ~~~(commitBit ||| lengthMask) ≠ 0 → Damages start producer word notCommitted
  | empty : lengthOfHeader? word = some 0 → Damages start producer word overrun
  | long {length : Nat} : lengthOfHeader? word = some length →
      producer.toNat < start.toNat + (frameSize length).toNat → Damages start producer word overrun

/-- A reader gets these records from a ring and no others, however often it reads; and a drain into a
sink that never fails hands them over, leaves the consumer at this position, and comes to this fault
or to none. -/
structure StopsBehind (r : Ring) (records : List Bytes) (position : UInt64) (fault : Option Fault) :
    Prop where
  reads : ∀ n, delivered (List.replicate n .next) r = records.take n
  drains : ∃ last : Ring, last.consumer = position ∧
    ∀ {σ : Type} (sink : Bytes → σ → σ × Option Fault),
      (∀ record state, (sink record state).2 = none) → ∀ state : σ,
        drain sink state r = ⟨last,
          records.foldl (fun state record => (sink record state).1) state, records.length, fault⟩

section

variable {r last : Ring} {queue older : List Bytes} {record : Bytes} {position word : UInt64}
  {words : List UInt64} {reason : String}

/-- A ring whose first words are the frames of some records gives these, up to the word behind
them. -/
theorem Spans.yields (h : r.Spans (layout older ++ words))
    (hlengths : ∀ record ∈ older, 1 ≤ record.length ∧ record.length ≤ maxLength) :
    ∃ last, r.Yields older last ∧ last.Spans words ∧ last.producer = r.producer ∧
      last.consumer = behind r.consumer older := by
  induction older generalizing r with
  | nil => exact ⟨r, .nothing r, h, rfl, rfl⟩
  | cons record older ih =>
    obtain ⟨hpos, hmax⟩ := hlengths record List.mem_cons_self
    rw [layout_cons, List.append_assoc] at h
    obtain ⟨last, hyields, hspans, hproducer, hconsumer⟩ := ih (h.released hmax)
      fun other hother => hlengths other (List.mem_cons_of_mem record hother)
    exact ⟨last, .record (h.next_frame hpos hmax) hyields, hspans, hproducer, hconsumer⟩

/-- The reader finds a zero in front of it to be nothing. -/
theorem Spans.spent_zero (h : r.Spans (0 :: words)) : r.Spent ∧ r.damage? = none := by
  have hhead := h.head_zero
  simp [Spent, damage?, next, hhead]

/-- Damage keeps the reader, with its reason as the objection. -/
theorem Damages.blocks {start producer : UInt64} (h : Damages start producer word reason) :
    word ≠ 0 ∧ Blocks start word producer ∧ objection word = reason := by
  cases h with
  | uncommitted hne hbit =>
    have hheader : lengthOfHeader? word = none := if_neg fun hboth => hboth.1 hbit
    exact ⟨hne, blocks_of_not_header hheader, objection_of_not_header hheader⟩
  | stray hbits =>
    have hheader : lengthOfHeader? word = none := if_neg fun hboth => hbits hboth.2
    refine ⟨?_, blocks_of_not_header hheader, objection_of_not_header hheader⟩
    rintro rfl
    exact hbits UInt64.zero_and
  | empty hheader =>
    exact ⟨ne_zero_of_lengthOfHeader? hheader, (blocks_iff_of_header hheader).mpr (Or.inl rfl),
      objection_of_header hheader⟩
  | long hheader hpast =>
    exact ⟨ne_zero_of_lengthOfHeader? hheader, (blocks_iff_of_header hheader).mpr (Or.inr hpast),
      objection_of_header hheader⟩

/-- The reader reports damage in front of it. -/
theorem Damages.spent (hdamages : Damages r.consumer r.producer word reason)
    (h : r.Spans (word :: words)) (hhalf : r.producer.toNat < half) :
    r.Spent ∧ r.damage? = some (.desync r.consumer reason) := by
  obtain ⟨hne, hblocks, rfl⟩ := hdamages.blocks
  have hlt : r.consumer < r.producer := by
    rw [UInt64.lt_iff_toNat_lt, h.producer_eq, List.length_cons]
    omega
  obtain rfl : r.memory.load r.consumer = word := h.load_consumer
  obtain ⟨-, hhead⟩ | ⟨hfree, -⟩ := head_of_word hlt hhalf hne
  · simp [Spent, damage?, next, hhead]
  · exact absurd hblocks hfree

/-- Reading and draining stop behind the records that a ring gives. -/
theorem Yields.stopsBehind (h : r.Yields older last) (hspent : last.Spent) :
    r.StopsBehind older last.consumer last.damage? :=
  ⟨h.delivered_replicate hspent, last, rfl, fun _ hsink state => h.drain_eq hspent hsink state⟩

/-- A stray word over the header of a queued record leaves the records in front of it, and the reader
comes to the word behind them. -/
theorem FrameWord.yields (hframe : FrameWord r queue position older record 0) (h : Holds r queue)
    (word : UInt64) : ∃ last words, (r.overwrite position word).Yields older last ∧
      last.Spans (word :: words) ∧ last.producer = r.producer ∧
      last.consumer = behind r.consumer older := by
  obtain ⟨newer, rfl⟩ := hframe.queued
  have hslot : r.memory.slot (r.consumer + 8 * UInt64.ofNat (layout older).length) =
      r.memory.slot position := by
    rw [← behind_eq, ← hframe.slot_eq, add_eight_mul_zero]
  have hwords : layout (older ++ [record] ++ newer) =
      layout older ++ header record.length :: (payload record ++ layout newer) := by
    simp [layout, frame]
  have hspans := h.spans
  rw [hwords] at hspans
  have hstruck := hspans.overwrite word hslot
  obtain ⟨last, hyields, hlast, hproducer, hconsumer⟩ := hstruck.yields
    fun other hother => h.lengths other (by simp [hother])
  exact ⟨last, _, hyields, hlast, hproducer, hconsumer⟩

end

/-- After calls on a fresh ring its contents are what a queue would hold. -/
theorem holds_calls {capacity : UInt64} {fresh : Ring} (hcreate : create capacity = .ok fresh)
    {earlier : List Call} (hbelow : StaysBelow earlier fresh) :
    Holds (calls earlier fresh).2 (queued capacity earlier) ∧
      (calls earlier fresh).2.producer.toNat < half := by
  obtain ⟨hfresh, hcapacity, hdropped, -⟩ := holds_create hcreate
  have hmatches : Matches fresh (Fifo.empty capacity.toNat) :=
    ⟨congrArg UInt64.toNat hcapacity.symm, hfresh, hdropped⟩
  have hend := hbelow earlier.length (Nat.le_refl _)
  rw [List.take_length] at hend
  have hrange : RangeOn earlier fresh := fun i hi => inRange_of_lt_half (hbelow i (Nat.le_of_lt hi))
  exact ⟨(hmatches.perform earlier hrange).2.holds, hend⟩

end NetnsWatch.Ring
