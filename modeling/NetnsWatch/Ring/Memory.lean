/-!
# The words under a ring

A ring's memory is a power of two of bytes, kept as 64-bit words. Any 64-bit position names a word:
it is masked into the memory and rounded down to a word boundary, so positions that differ by the
capacity name the same word. Storing changes the named word and nothing else.
-/

namespace NetnsWatch

/-- Words addressed by masked positions. -/
structure Memory where
  capacity : UInt64
  words : Array UInt64
  capacity_pow : capacity.toNat.isPowerOfTwo
  le_capacity : 16 ≤ capacity.toNat
  size_words : words.size = capacity.toNat / 8

namespace Memory

/-- Cleared words for a capacity that is a power of two and holds at least two words. -/
def ofCapacity? (capacity : UInt64) : Option Memory :=
  if h : 16 ≤ capacity.toNat ∧ capacity.toNat.isPowerOfTwo then
    some {
      capacity
      words := Array.replicate (capacity.toNat / 8) 0
      capacity_pow := h.2
      le_capacity := h.1
      size_words := Array.size_replicate }
  else none

/-- The least memory, of two cleared words. -/
def least : Memory where
  capacity := 16
  words := #[0, 0]
  capacity_pow := ⟨4, rfl⟩
  le_capacity := Nat.le_refl 16
  size_words := rfl

/-- The index of the word that a position names. -/
def slot (m : Memory) (position : UInt64) : Nat :=
  ((position &&& (m.capacity - 1)) / 8).toNat

/-- The word at a position. -/
def load (m : Memory) (position : UInt64) : UInt64 :=
  m.words.getD (m.slot position) 0

/-- Replace the word at a position. -/
def store (m : Memory) (position value : UInt64) : Memory :=
  { m with
    words := m.words.setIfInBounds (m.slot position) value
    size_words := by rw [Array.size_setIfInBounds, m.size_words] }

/-- Clear `count` words from a position on. -/
def clear : (count : Nat) → UInt64 → Memory → Memory
  | 0, _, m => m
  | count + 1, position, m => clear count (position + 8) (m.store position 0)

/-- The number of words that are not zero. -/
def used (m : Memory) : Nat :=
  m.words.countP (· ≠ 0)

/-- Storing keeps the capacity. -/
@[simp] theorem capacity_store (m : Memory) (position value : UInt64) :
    (m.store position value).capacity = m.capacity := rfl

/-- Storing keeps which word a position names. -/
@[simp] theorem slot_store (m : Memory) (position value other : UInt64) :
    (m.store position value).slot other = m.slot other := rfl

/-- A masked position is the position modulo the capacity. -/
theorem toNat_masked (m : Memory) (position : UInt64) :
    (position &&& (m.capacity - 1)).toNat = position.toNat % m.capacity.toNat := by
  obtain ⟨exponent, hpow⟩ := m.capacity_pow
  have hone : (m.capacity - 1).toNat = 2 ^ exponent - 1 := by
    rw [UInt64.toNat_sub_of_le, hpow]
    · rfl
    · rw [UInt64.le_iff_toNat_le]
      exact Nat.le_trans (by decide) m.le_capacity
  rw [UInt64.toNat_and, hone, Nat.and_two_pow_sub_one_eq_mod, hpow]

/-- A position names the word at its offset modulo the capacity. -/
theorem slot_eq (m : Memory) (position : UInt64) :
    m.slot position = position.toNat % m.capacity.toNat / 8 := by
  rw [slot, UInt64.toNat_div, toNat_masked]
  rfl

/-- The capacity counts eight bytes for each word. -/
theorem capacity_eq (m : Memory) : m.capacity.toNat = 8 * m.words.size := by
  obtain ⟨exponent, hpow⟩ := m.capacity_pow
  have hmin := m.le_capacity
  have hdvd : 8 ∣ m.capacity.toNat := by
    rw [hpow]
    refine Nat.pow_dvd_pow 2 (m := 3) (Nat.le_of_not_lt fun hlt => ?_)
    have : 2 ^ exponent ≤ 2 ^ 2 := Nat.pow_le_pow_right (by decide) (Nat.le_of_lt_succ hlt)
    omega
  rw [m.size_words, Nat.mul_div_cancel' hdvd]

/-- Every position names a word of the memory. -/
theorem slot_lt (m : Memory) (position : UInt64) : m.slot position < m.words.size := by
  have hmin := m.le_capacity
  have hmod := Nat.mod_lt position.toNat (show 0 < m.capacity.toNat by omega)
  rw [slot_eq]
  rw [m.capacity_eq] at hmod ⊢
  exact Nat.div_lt_of_lt_mul hmod

/-- The word at a position is a word of the memory. -/
theorem load_eq (m : Memory) (position : UInt64) :
    m.load position = getElem m.words (m.slot position) (m.slot_lt position) := by
  rw [load, Array.getD_eq_getD_getElem?, Array.getElem?_eq_getElem (m.slot_lt position)]
  rfl

/-- The stored word is read back at every position that names it. -/
theorem load_store (m : Memory) (position value other : UInt64) :
    (m.store position value).load other =
      if m.slot position = m.slot other then value else m.load other := by
  simp only [load_eq, slot_store]
  exact Array.getElem_setIfInBounds (m.slot_lt other)

/-- Clearing a word never adds a nonzero one. -/
theorem used_store_zero_le (m : Memory) (position : UInt64) :
    (m.store position 0).used ≤ m.used := by
  have hslot := m.slot_lt position
  simp only [used, store, Array.setIfInBounds, hslot, dite_true, Array.countP_set]
  simp only [ne_eq, not_true_eq_false, decide_false, Bool.false_eq_true, if_false]
  omega

/-- Clearing a nonzero word leaves one fewer. -/
theorem used_store_zero_lt (m : Memory) (position : UInt64) (h : m.load position ≠ 0) :
    (m.store position 0).used < m.used := by
  have hslot := m.slot_lt position
  have hpos : 0 < m.words.countP (· ≠ 0) := by
    rw [Array.countP_pos_iff]
    exact ⟨m.load position, by rw [load_eq]; exact Array.getElem_mem hslot, by simpa using h⟩
  rw [load_eq] at h
  simp only [used, store, Array.setIfInBounds, hslot, dite_true, Array.countP_set]
  simp only [h, ne_eq, not_true_eq_false, not_false_eq_true, decide_true, decide_false,
    Bool.false_eq_true, if_true, if_false] at hpos ⊢
  omega

/-- Clearing words never adds a nonzero one. -/
theorem used_clear_le (count : Nat) (position : UInt64) (m : Memory) :
    (clear count position m).used ≤ m.used := by
  induction count generalizing position m with
  | zero => exact Nat.le_refl _
  | succ count ih => exact Nat.le_trans (ih _ _) (used_store_zero_le m position)

/-- Clearing a nonzero word, among others, leaves fewer. -/
theorem used_clear_lt (count : Nat) (position : UInt64) (m : Memory) {other : UInt64}
    (hbefore : m.load other ≠ 0) (hafter : (clear count position m).load other = 0) :
    (clear count position m).used < m.used := by
  induction count generalizing position m with
  | zero => exact absurd hafter hbefore
  | succ count ih =>
    by_cases hslot : m.slot position = m.slot other
    · have hload : m.load position ≠ 0 := by
        simpa only [load, hslot] using hbefore
      exact Nat.lt_of_le_of_lt (used_clear_le count _ (m.store position 0))
        (used_store_zero_lt m position hload)
    · have hkept : (m.store position 0).load other ≠ 0 := by
        rwa [load_store, if_neg hslot]
      exact Nat.lt_of_lt_of_le (ih _ _ hkept hafter) (used_store_zero_le m position)

end Memory

end NetnsWatch
