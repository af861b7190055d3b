import NetnsWatch.Ring
import Mathlib.Data.List.Rotate
import Mathlib.Data.Nat.ModEq

/-!
# The memory seen from a position

A memory is a circle of words. Cut open at an offset it is a list, its window, in which the words of
a run of positions stand side by side even where the run crosses the end of the memory. Storing words
replaces a segment of the window, and moving the cut rotates it.

All positions here are exact: a run of positions that ends below the largest word never wraps, so
its offsets are those of ordinary numbers.
-/

namespace NetnsWatch.Memory

/-- All words of the memory, beginning at an offset counted in words. -/
def window (m : Memory) (base : Nat) : List UInt64 :=
  m.words.toList.rotate base

/-- A memory holds at least two words. -/
theorem two_le_size (m : Memory) : 2 ≤ m.words.size := by
  have hmin := m.le_capacity
  have hcap := m.capacity_eq
  omega

/-- A capacity is at most half of the positions there are. -/
theorem capacity_le (m : Memory) : m.capacity.toNat ≤ 9223372036854775808 := by
  obtain ⟨exponent, hpow⟩ := m.capacity_pow
  have hlt := m.capacity.toNat_lt
  by_cases hexponent : exponent ≤ 63
  · have hle := Nat.pow_le_pow_right (show 0 < 2 by decide) hexponent
    omega
  · have hle := Nat.pow_le_pow_right (show 0 < 2 by decide) (show 64 ≤ exponent by omega)
    omega

/-- A position names the word at its offset, counted around the circle. -/
theorem slot_eq_mod (m : Memory) (position : UInt64) :
    m.slot position = position.toNat / 8 % m.words.size := by
  rw [slot_eq, m.capacity_eq, Nat.mod_mul_right_div_self]

/-- A window shows every word once. -/
@[simp] theorem length_window (m : Memory) (base : Nat) : (m.window base).length = m.words.size := by
  rw [window, List.length_rotate, Array.length_toList]

/-- Moving the cut forward rotates the window. -/
theorem window_add (m : Memory) (base count : Nat) :
    m.window (base + count) = (m.window base).rotate count := by
  rw [window, window, List.rotate_rotate]

/-- An offset counted around the circle is the index of a word. -/
theorem offset_lt (m : Memory) (offset : Nat) : offset % m.words.size < m.words.size := by
  have hsize := m.two_le_size
  exact Nat.mod_lt _ (by omega)

/-- The entry of a window at an index is the word that many words after the cut. -/
theorem getElem_window (m : Memory) (base i : Nat) (hi : i < (m.window base).length) :
    (m.window base)[i] = getElem m.words ((i + base) % m.words.size) (m.offset_lt (i + base)) := by
  simp only [window, List.getElem_rotate, Array.length_toList, Array.getElem_toList]

/-- A load reads the window at the position's distance from the cut. -/
theorem load_eq_getElem_window (m : Memory) {position : UInt64} (base i : Nat)
    (hposition : position.toNat / 8 = base + i) (hi : i < (m.window base).length) :
    m.load position = (m.window base)[i] := by
  rw [load_eq, getElem_window]
  congr 1
  rw [slot_eq_mod, hposition, Nat.add_comm]

/-- Two entries of a window are different words of the memory. -/
theorem offset_inj {size base i j : Nat} (hi : i < size) (hj : j < size)
    (h : (i + base) % size = (j + base) % size) : i = j := by
  have hmod : i ≡ j [MOD size] := Nat.ModEq.add_right_cancel' base h
  exact Nat.ModEq.eq_of_lt_of_lt hmod hi hj

/-- A store replaces one entry of a window. -/
theorem window_store (m : Memory) {position : UInt64} (value : UInt64) {base i : Nat}
    (hposition : position.toNat / 8 = base + i) (hi : i < m.words.size) :
    (m.store position value).window base = (m.window base).set i value := by
  have hslot : m.slot position = (i + base) % m.words.size := by
    rw [slot_eq_mod, hposition, Nat.add_comm]
  apply List.ext_getElem
  · simp only [List.length_set, length_window, store, Array.size_setIfInBounds]
  · intro j hj hj'
    rw [List.length_set, length_window] at hj'
    rw [getElem_window, List.getElem_set, getElem_window]
    simp only [store, Array.size_setIfInBounds, hslot]
    rw [Array.getElem_setIfInBounds]
    by_cases hij : i = j
    · rw [if_pos hij, if_pos (by rw [hij])]
    · rw [if_neg hij, if_neg (fun h => hij (offset_inj hi hj' h))]

/-- Store words side by side from a position on. -/
def storeAll : List UInt64 → UInt64 → Memory → Memory
  | [], _, m => m
  | word :: words, position, m => storeAll words (position + 8) (m.store position word)

/-- Storing keeps the capacity. -/
@[simp] theorem capacity_storeAll (words : List UInt64) (position : UInt64) (m : Memory) :
    (storeAll words position m).capacity = m.capacity := by
  induction words generalizing position m with
  | nil => rfl
  | cons word words ih => rw [storeAll, ih, capacity_store]

/-- Storing keeps the number of words. -/
@[simp] theorem size_store (m : Memory) (position value : UInt64) :
    (m.store position value).words.size = m.words.size :=
  Array.size_setIfInBounds

/-- Storing several words keeps the number of words. -/
@[simp] theorem size_storeAll (words : List UInt64) (position : UInt64) (m : Memory) :
    (storeAll words position m).words.size = m.words.size := by
  induction words generalizing position m with
  | nil => rfl
  | cons word words ih => rw [storeAll, ih, size_store]

/-- Clearing is storing zeros. -/
theorem clear_eq_storeAll (count : Nat) (position : UInt64) (m : Memory) :
    clear count position m = storeAll (List.replicate count 0) position m := by
  induction count generalizing position m with
  | zero => rfl
  | succ count ih => rw [clear, ih, List.replicate_succ, storeAll]

/-- The next word's position is eight bytes further while the sum fits. -/
theorem toNat_add_eight {position : UInt64} (h : position.toNat + 8 < UInt64.size) :
    (position + 8).toNat = position.toNat + 8 := by
  rw [UInt64.toNat_add]
  exact Nat.mod_eq_of_lt h

/-- Whole words further, a position is exact while the sum fits. -/
theorem toNat_add_eight_mul {start : UInt64} {count : Nat}
    (hend : start.toNat + 8 * count < UInt64.size) :
    (start + 8 * UInt64.ofNat count).toNat = start.toNat + 8 * count := by
  have hoffset : (8 * UInt64.ofNat count).toNat = 8 * count := by
    rw [UInt64.toNat_mul, UInt64.toNat_ofNat']
    change 8 * (count % UInt64.size) % UInt64.size = 8 * count
    rw [Nat.mod_eq_of_lt (a := count) (by omega), Nat.mod_eq_of_lt (by omega)]
  rw [UInt64.toNat_add, hoffset]
  exact Nat.mod_eq_of_lt hend

/-- Replacing an entry and then the segment behind it replaces both at once. -/
theorem set_segment {words : List UInt64} {i : Nat} (hi : i < words.length) (word : UInt64)
    (segment : List UInt64) (count : Nat) :
    (words.set i word).take (i + 1) ++ segment ++ (words.set i word).drop (i + 1 + count) =
      words.take i ++ word :: segment ++ words.drop (i + (count + 1)) := by
  have hset : words.set i word = (words.take i ++ [word]) ++ words.drop (i + 1) := by
    rw [List.set_eq_take_append_cons_drop, if_pos hi, List.append_assoc, List.singleton_append]
  have hlen : (words.take i ++ [word]).length = i + 1 := by
    rw [List.length_append, List.length_take, List.length_singleton]
    omega
  rw [hset, List.take_left' hlen, ← List.drop_drop, List.drop_left' hlen, List.drop_drop]
  simp only [List.append_assoc, List.cons_append, List.nil_append]
  rw [Nat.add_assoc, Nat.add_comm 1 count]

/-- Stored words replace a segment of the window. -/
theorem window_storeAll (words : List UInt64) (m : Memory) (position : UInt64) (base i : Nat)
    (hposition : position.toNat = 8 * (base + i)) (hi : i + words.length ≤ m.words.size)
    (hend : position.toNat + 8 * words.length < UInt64.size) :
    (storeAll words position m).window base =
      (m.window base).take i ++ words ++ (m.window base).drop (i + words.length) := by
  induction words generalizing position m i with
  | nil => simp [storeAll]
  | cons word words ih =>
    rw [List.length_cons] at hi hend
    have hnext : (position + 8).toNat = position.toNat + 8 := toNat_add_eight (by omega)
    have hlt : i < m.words.size := by omega
    rw [storeAll, ih (m.store position word) (position + 8) (i + 1) (by omega)
      (by rw [size_store]; omega) (by omega), window_store m word (by omega) hlt, List.length_cons]
    exact set_segment (by rw [length_window]; exact hlt) word words words.length

/-- A word stored after the words behind it completes their segment. -/
theorem window_store_storeAll (word : UInt64) (words : List UInt64) (m : Memory)
    (position : UInt64) (base i : Nat) (hposition : position.toNat = 8 * (base + i))
    (hi : i + (words.length + 1) ≤ m.words.size)
    (hend : position.toNat + 8 * (words.length + 1) < UInt64.size) :
    ((storeAll words (position + 8) m).store position word).window base =
      (m.window base).take i ++ word :: words ++ (m.window base).drop (i + (words.length + 1)) := by
  have hnext : (position + 8).toNat = position.toNat + 8 := toNat_add_eight (by omega)
  have hlen : ((m.window base).take i).length = i := by
    rw [List.length_take, length_window]
    omega
  have hsplit : (m.window base).take (i + 1) =
      (m.window base).take i ++ ((m.window base).drop i).take 1 := List.take_add
  have hone : (((m.window base).drop i).take 1).length = 1 := by
    rw [List.length_take, List.length_drop, length_window]
    omega
  obtain ⟨old, hold⟩ := List.length_eq_one_iff.mp hone
  rw [window_store _ word (i := i) (by omega) (by rw [size_storeAll]; omega),
    window_storeAll words m (position + 8) base (i + 1) (by omega) (by omega) (by omega), hsplit, hold]
  simp only [List.append_assoc, List.singleton_append]
  rw [List.set_append_right i word (by omega), hlen, Nat.sub_self, List.cons_append,
    List.set_cons_zero, Nat.add_assoc, Nat.add_comm 1, List.cons_append]

end NetnsWatch.Memory
