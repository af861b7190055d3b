import NetnsWatch.Proofs.Ring.Window

/-!
# Which words an operation touches

Words stored side by side change the words that their positions name and no others, wherever the run
begins and also where it wraps. So what an operation leaves alone can be said of every position,
without cutting the memory open.
-/

namespace NetnsWatch.Memory

/-- The position names one of `count` words side by side, the first of them at `start`. -/
def Covers (m : Memory) (start : UInt64) (count : Nat) (position : UInt64) : Prop :=
  ∃ i, i < count ∧ m.slot (start + 8 * UInt64.ofNat i) = m.slot position

/-- The second memory has the words of the first one, but for `count` words from `start` on. -/
structure AgreesOutside (before after : Memory) (start : UInt64) (count : Nat) : Prop where
  capacity_eq : after.capacity = before.capacity
  load_eq : ∀ position, ¬ before.Covers start count position →
    after.load position = before.load position

/-- No words cover nothing. -/
theorem not_covers_zero (m : Memory) (start position : UInt64) : ¬ m.Covers start 0 position := by
  rintro ⟨i, hi, -⟩
  exact Nat.not_lt_zero i hi

/-- No words further is the position itself. -/
theorem add_eight_mul_zero (start : UInt64) : start + 8 * UInt64.ofNat 0 = start :=
  UInt64.add_zero start

/-- One word more, counted from the front, begins the others eight bytes further. -/
theorem add_eight_mul_succ (start : UInt64) (i : Nat) :
    start + 8 * UInt64.ofNat (i + 1) = start + 8 + 8 * UInt64.ofNat i := by
  have hone : UInt64.ofNat 1 = 1 := rfl
  rw [Nat.add_comm i 1, UInt64.ofNat_add, UInt64.mul_add, hone, UInt64.mul_one, UInt64.add_assoc]

/-- The first word is covered, and the words behind it. -/
theorem covers_succ (m : Memory) (start : UInt64) (count : Nat) (position : UInt64) :
    m.Covers start (count + 1) position ↔
      m.slot start = m.slot position ∨ m.Covers (start + 8) count position := by
  constructor
  · rintro ⟨i, hi, hslot⟩
    cases i with
    | zero => exact Or.inl (add_eight_mul_zero start ▸ hslot)
    | succ i =>
      rw [add_eight_mul_succ] at hslot
      exact Or.inr ⟨i, Nat.lt_of_succ_lt_succ hi, hslot⟩
  · rintro (hslot | ⟨i, hi, hslot⟩)
    · exact ⟨0, Nat.zero_lt_succ count, by rw [add_eight_mul_zero]; exact hslot⟩
    · exact ⟨i + 1, Nat.succ_lt_succ hi, by rw [add_eight_mul_succ]; exact hslot⟩

/-- Storing several words keeps which word a position names. -/
@[simp] theorem slot_storeAll (words : List UInt64) (start : UInt64) (m : Memory)
    (position : UInt64) : (storeAll words start m).slot position = m.slot position := by
  rw [slot, slot, capacity_storeAll]

/-- Storing words changes no word but theirs. -/
theorem load_storeAll_of_not_covers (words : List UInt64) (start : UInt64) (m : Memory)
    {position : UInt64} (h : ¬ m.Covers start words.length position) :
    (storeAll words start m).load position = m.load position := by
  induction words generalizing start m with
  | nil => rfl
  | cons word words ih =>
    rw [List.length_cons, covers_succ, not_or] at h
    rw [storeAll, ih (start + 8) (m.store start word) h.2, load_store, if_neg h.1]

/-- Clearing words changes no word but them. -/
theorem load_clear_of_not_covers (count : Nat) (start : UInt64) (m : Memory) {position : UInt64}
    (h : ¬ m.Covers start count position) :
    (clear count start m).load position = m.load position := by
  rw [clear_eq_storeAll]
  exact load_storeAll_of_not_covers _ start m (by rwa [List.length_replicate])

/-- Cleared words are zero. -/
theorem load_clear_of_covers (count : Nat) (start : UInt64) (m : Memory) {position : UInt64}
    (h : m.Covers start count position) : (clear count start m).load position = 0 := by
  induction count generalizing start m with
  | zero => exact absurd h (m.not_covers_zero start position)
  | succ count ih =>
    rw [clear]
    by_cases hbehind : m.Covers (start + 8) count position
    · exact ih (start + 8) (m.store start 0) hbehind
    · have hslot := ((m.covers_succ start count position).mp h).resolve_right hbehind
      rw [load_clear_of_not_covers count (start + 8) (m.store start 0) hbehind, load_store,
        if_pos hslot]

/-- Words stored behind a first one, and then that one, are all that changes. -/
theorem agreesOutside_store_storeAll (word : UInt64) (words : List UInt64) (start : UInt64)
    (m : Memory) : AgreesOutside m ((storeAll words (start + 8) m).store start word) start
      (words.length + 1) where
  capacity_eq := by rw [capacity_store, capacity_storeAll]
  load_eq position h := by
    rw [covers_succ, not_or] at h
    rw [load_store, slot_storeAll, slot_storeAll, if_neg h.1,
      load_storeAll_of_not_covers words (start + 8) m h.2]

/-- Words cleared behind a first one, and then that one, are zero. -/
theorem load_store_clear_of_covers {m : Memory} {start position : UInt64} {count : Nat}
    (h : m.Covers start (count + 1) position) :
    ((clear count (start + 8) m).store start 0).load position = 0 := by
  rw [load_store]
  split
  · rfl
  · rename_i hslot
    rw [clear_eq_storeAll, slot_storeAll, slot_storeAll] at hslot
    exact load_clear_of_covers count (start + 8) m
      (((m.covers_succ start count position).mp h).resolve_left hslot)

end NetnsWatch.Memory
