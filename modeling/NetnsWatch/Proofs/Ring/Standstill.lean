import NetnsWatch.Proofs.Ring.Passage
import NetnsWatch.Proofs.Ring.Stray

/-!
# How long damage stands in the way

A reader that finds damage stays where it is, and writers go on behind it: they fill the space that
is left and never reach the damaged word, which lies a whole lap ahead of them. So the damage is
found again and again. Only a forged header whose frame the memory could hold is passed one day, when
the producer has come to the end of that frame; any other keeps the reader for good.
-/

namespace NetnsWatch.Ring

open Memory

/-- The reader stands at this position, in front of this word. -/
structure Faces (position word : UInt64) (r : Ring) : Prop where
  consumer_eq : r.consumer = position
  load_eq : r.memory.load r.consumer = word
  lt_producer : r.consumer < r.producer

/-- A word begins no frame that a memory of this capacity could hold. -/
def Hopeless (capacity word : UInt64) : Prop :=
  ∀ length, lengthOfHeader? word = some length → length = 0 ∨ capacity < frameSize length

section

variable {capacity position word : UInt64} {r : Ring}

/-- The reader reports the word in front of it as long as that keeps it, and otherwise takes a
record of the length that the word says. -/
theorem Faces.next_cases (h : r.Faces position word) (hne : word ≠ 0) (hordered : Ordered capacity r)
    (hhalf : r.producer.toNat < half) :
    Blocks position word r.producer ∧ r.next = (.error (.desync position (objection word)), r) ∨
      ¬ Blocks position word r.producer ∧ position < r.next.2.consumer ∧
        ∃ record, r.next.1 = .ok (some record) ∧ lengthOfHeader? word = some record.length := by
  obtain ⟨rfl, rfl, hlt⟩ := h
  obtain ⟨hblocks, hhead⟩ | ⟨hfree, length, hheader, hhead⟩ := head_of_word hlt hhalf hne
  · exact Or.inl ⟨hblocks, by rw [next, hhead]⟩
  · have htakes := takes_next hordered.consumer_le hhalf
    rw [next, hhead] at htakes ⊢
    cases htakes with
    | record hready hpos hlow hmoved hbehind hmemory hcleared =>
      refine Or.inr ⟨hfree, ?_, _, rfl, ?_⟩
      · change r.consumer < r.consumer + frameSize length
        rw [UInt64.lt_iff_toNat_lt]
        omega
      · rw [hlow, ← (length_of_lengthOfHeader? hheader).1]
        exact hheader

/-- A reader that reports damage faces a word that keeps it. -/
theorem faces_of_error (hordered : Ordered capacity r) (hhalf : r.producer.toNat < half)
    {fault : Fault} (hfault : r.next.1 = .error fault) :
    r.Faces r.consumer (r.memory.load r.consumer) ∧ r.memory.load r.consumer ≠ 0 ∧
      Blocks r.consumer (r.memory.load r.consumer) r.producer ∧
      fault = .desync r.consumer (objection (r.memory.load r.consumer)) := by
  have hready : r.hasCommitted = true := by
    by_contra hnothing
    have hhead := r.head_eq_none_iff.mpr (Bool.eq_false_of_not_eq_true hnothing)
    rw [next, hhead] at hfault
    cases hfault
  simp only [hasCommitted, Bool.and_eq_true, bne_iff_ne] at hready
  have hfaces : r.Faces r.consumer (r.memory.load r.consumer) :=
    ⟨rfl, rfl, UInt64.lt_of_le_of_ne hordered.consumer_le hready.1⟩
  obtain ⟨hblocks, hnext⟩ | ⟨-, -, record, hnext, -⟩ := hfaces.next_cases hready.2 hordered hhalf
  · rw [hnext] at hfault
    cases hfault
    exact ⟨hfaces, hready.2, hblocks, rfl⟩
  · rw [hnext] at hfault
    cases hfault

/-- The reader reports the word in front of it exactly as long as that keeps it. -/
theorem Faces.next_eq_error_iff (h : r.Faces position word) (hne : word ≠ 0)
    (hordered : Ordered capacity r) (hhalf : r.producer.toNat < half) :
    r.next.1 = .error (.desync position (objection word)) ↔ Blocks position word r.producer := by
  obtain ⟨hblocks, hnext⟩ | ⟨hfree, -, record, hnext, -⟩ := h.next_cases hne hordered hhalf
  · simp only [hnext, hblocks]
  · simp only [hnext, hfree, reduceCtorEq]

/-- A reader that has passed a position reports no damage there. -/
theorem next_ne_error_of_lt (hordered : Ordered capacity r) (hhalf : r.producer.toNat < half)
    (hpast : position < r.consumer) (reason : String) :
    r.next.1 ≠ .error (.desync position reason) := by
  intro herror
  obtain ⟨-, -, -, hsame⟩ := faces_of_error hordered hhalf herror
  rw [(Fault.desync.inj hsame).1] at hpast
  exact UInt64.lt_irrefl _ hpast

/-- The words that a writer may still store into do not include the one that the reader faces. -/
theorem Ordered.not_covers_consumer (h : Ordered capacity r) (hhalf : r.producer.toNat < half)
    (hlt : r.consumer < r.producer) {count : Nat}
    (hroom : r.producer.toNat + 8 * count ≤ r.consumer.toNat + r.memory.capacity.toNat) :
    ¬ r.memory.Covers r.producer count r.consumer := by
  rintro ⟨i, hi, hslot⟩
  obtain ⟨first, hfirst⟩ := h.consumer_aligned
  obtain ⟨last, hlast⟩ := h.producer_aligned
  have hcapacity := r.memory.capacity_eq
  have hlimit := (h.exact hhalf).limit
  rw [UInt64.lt_iff_toNat_lt] at hlt
  have hplace : r.producer = r.consumer + 8 * UInt64.ofNat (last - first) := by
    apply UInt64.toNat_inj.mp
    rw [toNat_add_eight_mul (by omega)]
    omega
  have hzero : r.consumer = r.consumer + 8 * UInt64.ofNat 0 := (UInt64.add_zero _).symm
  rw [hplace, add_eight_mul_add] at hslot
  nth_rewrite 2 [hzero] at hslot
  exact slot_add_ne r.memory h.consumer_aligned (by omega) (by omega) (by omega) (by omega) hslot

/-- A submission leaves the reader in front of its word. -/
theorem Submits.faces {record : Bytes} {outcome : Submission × Ring}
    (hs : r.Submits record outcome) (h : r.Faces position word) (hordered : Ordered capacity r)
    (hhalf : r.producer.toNat < half) : outcome.2.Faces position word := by
  obtain ⟨rfl, rfl, hlt⟩ := h
  cases hs with
  | dropped => exact ⟨rfl, rfl, hlt⟩
  | @accepted memory producer hfits hmoved hroom hmemory =>
    refine ⟨rfl, hmemory.load_eq _ (hordered.not_covers_consumer hhalf hlt (hmoved ▸ hroom)), ?_⟩
    change r.consumer < producer
    rw [UInt64.lt_iff_toNat_lt] at hlt ⊢
    omega

/-- Reservations leave the reader in front of its word. -/
theorem Faces.reserve (h : r.Faces position word) (hhalf : r.producer.toNat < half) (length : Nat) :
    ((Operation.reserve length).apply r).Faces position word := by
  obtain ⟨rfl, rfl, hlt⟩ := h
  rw [Operation.apply]
  obtain ⟨-, hnone⟩ | ⟨hfits, hsome⟩ := r.reserve_cases length
  · rw [hnone]
    exact ⟨rfl, rfl, hlt⟩
  · rw [hsome]
    refine ⟨rfl, rfl, ?_⟩
    change r.consumer < r.producer + frameSize length
    rw [UInt64.lt_iff_toNat_lt] at hlt ⊢
    rw [(hfits.producer_le hhalf).1]
    omega

/-- An operation leaves the reader in front of its word and delivers nothing, or it is the read that
passes the word. -/
theorem Faces.apply (h : r.Faces position word) (hne : word ≠ 0) (hordered : Ordered capacity r)
    (hhalf : r.producer.toNat < half) {operation : Operation}
    (hclean : ∀ position value, operation ≠ .overwrite position value) :
    (operation.apply r).Faces position word ∧ operation.delivers r = [] ∨
      ¬ Blocks position word r.producer ∧ position < (operation.apply r).consumer ∧
        operation.delivers r ≠ [] := by
  cases operation with
  | submit record => exact Or.inl ⟨(submits_submit hhalf record).faces h hordered hhalf, rfl⟩
  | reserve length => exact Or.inl ⟨h.reserve hhalf length, rfl⟩
  | overwrite position value => exact absurd rfl (hclean position value)
  | next =>
    obtain ⟨-, hnext⟩ | ⟨hfree, hmoved, record, hnext, -⟩ := h.next_cases hne hordered hhalf
    · refine Or.inl ⟨?_, ?_⟩
      · rw [Operation.apply, hnext]
        exact h
      · simp only [Operation.delivers, hnext]
    · refine Or.inr ⟨hfree, hmoved, ?_⟩
      simp only [Operation.delivers, hnext]
      exact List.cons_ne_nil _ _

/-- The reader never moves back. -/
theorem Takes.consumer_le {outcome : Except Fault (Option Bytes) × Ring} (hs : r.Takes outcome) :
    r.consumer ≤ outcome.2.consumer := by
  cases hs with
  | nothing => exact UInt64.le_refl _
  | damage => exact UInt64.le_refl _
  | @record record memory consumer hready hpos hlength hmoved =>
    change r.consumer ≤ consumer
    rw [UInt64.le_iff_toNat_le]
    omega

/-- No operation moves the consumer back. -/
theorem Ordered.consumer_le_apply (h : Ordered capacity r) (hhalf : r.producer.toNat < half)
    (operation : Operation) : r.consumer ≤ (operation.apply r).consumer := by
  cases operation with
  | submit record =>
    rw [Operation.apply, consumer_submit]
    exact UInt64.le_refl _
  | reserve length =>
    rw [Operation.apply]
    obtain ⟨-, hnone⟩ | ⟨-, hsome⟩ := r.reserve_cases length
    · rw [hnone]
      exact UInt64.le_refl _
    · rw [hsome]
      exact UInt64.le_refl _
  | next => exact (takes_next h.consumer_le hhalf).consumer_le
  | overwrite position value => exact UInt64.le_refl _

/-- No row of operations moves the consumer back. -/
theorem Ordered.consumer_le_operate (h : Ordered capacity r) (operations : List Operation)
    (hlow : StaysLow operations r) : r.consumer ≤ (Ring.operate operations r).consumer := by
  induction operations generalizing r with
  | nil => exact UInt64.le_refl _
  | cons operation later ih =>
    obtain ⟨hhalf, hlater⟩ := (staysLow_cons operation later r).mp hlow
    exact UInt64.le_trans (h.consumer_le_apply hhalf operation)
      (ih (h.apply hhalf operation) hlater)

/-- Operations leave the reader in front of its word and deliver nothing, unless one of them was a
read at a time when the word did not keep it. -/
theorem Faces.persists (h : r.Faces position word) (hne : word ≠ 0) (hordered : Ordered capacity r)
    (operations : List Operation) (hclean : Clean operations) (hlow : StaysLow operations r) :
    (operate operations r).Faces position word ∧ delivered operations r = [] ∨
      (∃ passed, Ordered capacity passed ∧ passed.Faces position word ∧
        ¬ Blocks position word passed.producer ∧
        passed.producer.toNat ≤ (operate operations r).producer.toNat) ∧
      position < (operate operations r).consumer ∧ delivered operations r ≠ [] := by
  induction operations generalizing r with
  | nil => exact Or.inl ⟨h, rfl⟩
  | cons operation later ih =>
    obtain ⟨hhalf, hlater⟩ := (staysLow_cons operation later r).mp hlow
    have hafter := hordered.apply hhalf operation
    obtain ⟨hthis, hother⟩ := List.forall_mem_cons.mp hclean
    rw [delivered]
    obtain ⟨hfaces, hnothing⟩ | ⟨hfree, hpast, hsome⟩ := h.apply hne hordered hhalf hthis
    · rw [hnothing, List.nil_append]
      exact ih hfaces hafter hother hlater
    · have hproducer := producer_operate (operation :: later) hlow
      refine Or.inr ⟨⟨r, hordered, h, hfree, ?_⟩, ?_, ?_⟩
      · omega
      · exact UInt64.lt_of_lt_of_le hpast (hafter.consumer_le_operate later hlater)
      · exact fun hnil => hsome (List.append_eq_nil_iff.mp hnil).1

/-- A word without hope keeps every reader that stands in front of it. -/
theorem Hopeless.blocks (h : Hopeless capacity word) (hordered : Ordered capacity r)
    (hfaces : r.Faces position word) : Blocks position word r.producer := by
  intro length hheader
  refine (h length hheader).imp_right fun hlarge => ?_
  have hle := hordered.producer_le
  rw [hfaces.consumer_eq] at hle
  rw [UInt64.lt_iff_toNat_lt] at hlarge
  omega

section Later

variable (h : r.Faces position word) (hne : word ≠ 0) (hordered : Ordered capacity r)
  {later : List Operation} (hclean : Clean later) (hlow : StaysLow later r)

include h hne hordered hclean hlow

/-- A word without hope is reported again, lets nothing pass, and leaves writers the space that was
free. -/
theorem Faces.reports_for_good (hhopeless : Hopeless capacity word) :
    (operate later r).next.1 = .error (.desync position (objection word)) ∧
      delivered later r = [] ∧ ((booked later r).map Booking.room).sum ≤
        capacity.toNat - (r.producer.toNat - r.consumer.toNat) := by
  obtain ⟨hend, hendhalf⟩ := hordered.operate later hlow
  obtain ⟨hstill, hnothing⟩ | ⟨⟨passed, hplace, hthere, hfree, -⟩, -⟩ :=
    h.persists hne hordered later hclean hlow
  · refine ⟨?_, hnothing, ?_⟩
    · rw [hstill.next_eq_error_iff hne hend hendhalf]
      exact hhopeless.blocks hend hstill
    · have hproducer := producer_operate later hlow
      have hlimit := hend.producer_le
      have hbehind := UInt64.le_iff_toNat_le.mp hordered.consumer_le
      rw [hstill.consumer_eq, ← h.consumer_eq] at hlimit
      omega
  · exact absurd (hhopeless.blocks hplace hthere) hfree

/-- A header is reported exactly until the producer has come to the end of its frame. -/
theorem Faces.reports_iff {length : Nat} (hheader : lengthOfHeader? word = some length)
    (hpos : length ≠ 0) :
    (operate later r).next.1 = .error (.desync position (objection word)) ↔
      (operate later r).producer.toNat < position.toNat + (frameSize length).toNat := by
  obtain ⟨hend, hendhalf⟩ := hordered.operate later hlow
  obtain ⟨hstill, -⟩ | ⟨⟨passed, -, -, hfree, hle⟩, hpast, -⟩ :=
    h.persists hne hordered later hclean hlow
  · rw [hstill.next_eq_error_iff hne hend hendhalf, blocks_iff_of_header hheader, or_iff_right hpos]
  · rw [blocks_iff_of_header hheader, or_iff_right hpos] at hfree
    refine iff_of_false (next_ne_error_of_lt hend hendhalf hpast _) ?_
    omega

/-- The first read after that takes a record of the length that the header says. -/
theorem Faces.takes_length {length : Nat} (hheader : lengthOfHeader? word = some length)
    (hpos : length ≠ 0)
    (hpassed : position.toNat + (frameSize length).toNat ≤ (operate later r).producer.toNat)
    (hnothing : delivered later r = []) :
    ∃ record, (operate later r).next.1 = .ok (some record) ∧ record.length = length := by
  obtain ⟨hend, hendhalf⟩ := hordered.operate later hlow
  obtain ⟨hstill, -⟩ | ⟨-, -, hsome⟩ := h.persists hne hordered later hclean hlow
  · obtain ⟨hblocks, -⟩ | ⟨-, -, record, hnext, hlength⟩ := hstill.next_cases hne hend hendhalf
    · rw [blocks_iff_of_header hheader, or_iff_right hpos] at hblocks
      omega
    · rw [hheader] at hlength
      exact ⟨record, hnext, (Option.some.inj hlength).symm⟩
  · exact absurd hnothing hsome

end Later

end

/-- How damage lasts that the reader has reported as this fault, when these operations come after it.

A word without hope is reported again by every read, nothing is delivered any more, and writers book
no more than the space that was free. Any other is the header of a frame that the memory could hold:
it is reported until the producer has come to the end of that frame, and the first read after that
takes a record of its length. -/
structure Lasts (fault : Fault) (later : List Operation) (r : Ring) : Prop where
  fault_eq : fault = .desync r.consumer (objection (r.memory.load r.consumer))
  for_good : Hopeless r.memory.capacity (r.memory.load r.consumer) →
    (operate later r).next.1 = .error fault ∧ delivered later r = [] ∧
      ((booked later r).map Booking.room).sum ≤
        r.memory.capacity.toNat - (r.producer.toNat - r.consumer.toNat)
  until_end : ∀ length, lengthOfHeader? (r.memory.load r.consumer) = some length → length ≠ 0 →
    frameSize length ≤ r.memory.capacity →
    ((operate later r).next.1 = .error fault ↔
        (operate later r).producer.toNat < r.consumer.toNat + (frameSize length).toNat) ∧
      (r.consumer.toNat + (frameSize length).toNat ≤ (operate later r).producer.toNat →
        delivered later r = [] →
        ∃ record, (operate later r).next.1 = .ok (some record) ∧ record.length = length)

/-- Damage that the reader meets, whatever has happened to the ring before, lasts as long as the word
says that it is made of, whatever the two ends do after that. -/
theorem desync_lasts {capacity : UInt64} {fresh : Ring} (hcreate : create capacity = .ok fresh)
    (earlier later : List Operation) (hclean : Clean later)
    (hlow : StaysLow (earlier ++ later) fresh) {fault : Fault}
    (hfault : (operate earlier fresh).next.1 = .error fault) :
    (operate earlier fresh).Lasts fault later := by
  obtain ⟨hbefore, hafter⟩ := staysLow_append hlow
  obtain ⟨hordered, hhalf⟩ := (ordered_create hcreate).operate earlier hbefore
  obtain ⟨hfaces, hne, -, rfl⟩ := faces_of_error hordered hhalf hfault
  refine ⟨rfl, fun hhopeless => ?_, fun length hheader hpos _ => ⟨?_, ?_⟩⟩
  · rw [hordered.capacity_eq] at hhopeless ⊢
    exact hfaces.reports_for_good hne hordered hclean hafter hhopeless
  · exact hfaces.reports_iff hne hordered hclean hafter hheader hpos
  · exact hfaces.takes_length hne hordered hclean hafter hheader hpos

/-- A header forged to a length whose frame fills the memory. -/
def stretched : List Operation :=
  [.submit [1], .overwrite 0 (header 17)]

/-- It is reported while one record is in the ring, and taken for a record of seventeen bytes as soon
as there are two. -/
theorem stretched_lasts :
    (operate stretched (ofMemory fourWords)).Lasts (.desync 0 overrun) [.next, .submit [2]] ∧
      (operate stretched (ofMemory fourWords)).next.1 = .error (.desync 0 overrun) ∧
      (operate (stretched ++ [.next, .submit [2]]) (ofMemory fourWords)).next.1 =
        .ok (some [1, 0, 0, 0, 0, 0, 0, 0, 1, 0, 0, 0, 0, 0, 0, 128, 2]) := by
  have hcreate : create 32 = .ok (ofMemory fourWords) := rfl
  have hfault : (operate stretched (ofMemory fourWords)).next.1 = .error (.desync 0 overrun) := by
    decide +kernel
  have hclean : Clean [.next, .submit [2]] := by simp [Clean]
  exact ⟨desync_lasts hcreate stretched _ hclean (by decide +kernel) hfault, hfault,
    by decide +kernel⟩

end NetnsWatch.Ring
