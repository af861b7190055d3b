/-!
# Little-endian words

Every number on a wire is a fixed count of bytes, least significant first. Writing a number and
reading it back keeps it whenever it fits into that count.
-/

namespace NetnsWatch

/-- A string of bytes. -/
abbrev Bytes := List UInt8

namespace LittleEndian

/-- The number that a string of bytes spells, least significant byte first. -/
def value : Bytes → Nat
  | [] => 0
  | byte :: rest => byte.toNat + 256 * value rest

/-- The lowest `count` bytes of a number, least significant first. -/
def bytes : (count number : Nat) → Bytes
  | 0, _ => []
  | count + 1, number => UInt8.ofNat number :: bytes count (number / 256)

/-- The first two bytes as a word. -/
def word16 (b : Bytes) : UInt16 :=
  UInt16.ofNat (value (b.take 2))

/-- The first four bytes as a word. -/
def word32 (b : Bytes) : UInt32 :=
  UInt32.ofNat (value (b.take 4))

/-- The first eight bytes as a word. -/
def word64 (b : Bytes) : UInt64 :=
  UInt64.ofNat (value (b.take 8))

/-- The two bytes of a word. -/
def bytes16 (w : UInt16) : Bytes :=
  bytes 2 w.toNat

/-- The four bytes of a word. -/
def bytes32 (w : UInt32) : Bytes :=
  bytes 4 w.toNat

/-- The eight bytes of a word. -/
def bytes64 (w : UInt64) : Bytes :=
  bytes 8 w.toNat

/-- Exactly the requested number of bytes is written. -/
@[simp] theorem bytes_length (count number : Nat) : (bytes count number).length = count := by
  induction count generalizing number with
  | zero => rfl
  | succ count ih => simp [bytes, ih]

/-- Reading back gives the part of the number that fits. -/
theorem value_bytes (count number : Nat) :
    value (bytes count number) = number % Nat.pow 256 count := by
  induction count generalizing number with
  | zero => simp [bytes, value, Nat.mod_one]
  | succ count ih =>
    have hbyte : (UInt8.ofNat number).toNat = number % 256 := by simp
    have hpow : Nat.pow 256 (count + 1) = 256 * Nat.pow 256 count := Nat.mul_comm _ 256
    rw [bytes, value, ih, hbyte, hpow, Nat.mod_mul]

/-- Writing what a string of bytes spells gives that string back. -/
theorem bytes_value (b : Bytes) : bytes b.length (value b) = b := by
  induction b with
  | nil => rfl
  | cons byte rest ih =>
    have hlt := byte.toNat_lt
    have hdiv : (byte.toNat + 256 * value rest) / 256 = value rest := by omega
    have hbyte : UInt8.ofNat (byte.toNat + 256 * value rest) = byte := by
      apply UInt8.toNat_inj.mp
      rw [UInt8.toNat_ofNat']
      omega
    simp [bytes, value, hdiv, hbyte, ih]

/-- A string of bytes spells a number below the count of strings of its length. -/
theorem value_lt (b : Bytes) : value b < Nat.pow 256 b.length := by
  have hvalue : value b = value b % Nat.pow 256 b.length := by
    rw [← value_bytes, bytes_value]
  rw [hvalue]
  exact Nat.mod_lt _ (Nat.pow_pos (by decide))

/-- A word of two bytes is the number that they spell. -/
theorem toNat_word16 (b : Bytes) : (word16 b).toNat = value (b.take 2) := by
  have hlt : value (b.take 2) < 65536 :=
    Nat.lt_of_lt_of_le (value_lt _) (Nat.pow_le_pow_right (by decide) (List.length_take_le 2 b))
  rw [word16, UInt16.toNat_ofNat']
  exact Nat.mod_eq_of_lt hlt

/-- A word of four bytes is the number that they spell. -/
theorem toNat_word32 (b : Bytes) : (word32 b).toNat = value (b.take 4) := by
  have hlt : value (b.take 4) < 4294967296 :=
    Nat.lt_of_lt_of_le (value_lt _) (Nat.pow_le_pow_right (by decide) (List.length_take_le 4 b))
  rw [word32, UInt32.toNat_ofNat']
  exact Nat.mod_eq_of_lt hlt

/-- A word of eight bytes is the number that they spell. -/
theorem toNat_word64 (b : Bytes) : (word64 b).toNat = value (b.take 8) := by
  have hlt : value (b.take 8) < 18446744073709551616 :=
    Nat.lt_of_lt_of_le (value_lt _) (Nat.pow_le_pow_right (by decide) (List.length_take_le 8 b))
  rw [word64, UInt64.toNat_ofNat']
  exact Nat.mod_eq_of_lt hlt

/-- A word of four bytes is read from the first bytes if it ends there. -/
theorem word32_drop_take (b : Bytes) {n count : Nat} (h : n + 4 ≤ count) :
    word32 ((b.take count).drop n) = word32 (b.drop n) := by
  rw [word32, List.drop_take, List.take_take, Nat.min_eq_left (by omega), word32]

/-- A word of eight bytes is read from the first bytes if there are as many. -/
theorem word64_take (b : Bytes) {count : Nat} (h : 8 ≤ count) :
    word64 (b.take count) = word64 b := by
  rw [word64, List.take_take, Nat.min_eq_left h, word64]

/-- A word of two bytes is written as those bytes. -/
theorem bytes16_word16 {b : Bytes} (h : 2 ≤ b.length) : bytes16 (word16 b) = b.take 2 := by
  have hwritten := bytes_value (b.take 2)
  rw [List.length_take_of_le h] at hwritten
  rw [bytes16, toNat_word16, hwritten]

/-- A word of four bytes is written as those bytes. -/
theorem bytes32_word32 {b : Bytes} (h : 4 ≤ b.length) : bytes32 (word32 b) = b.take 4 := by
  have hwritten := bytes_value (b.take 4)
  rw [List.length_take_of_le h] at hwritten
  rw [bytes32, toNat_word32, hwritten]

/-- A written word of two bytes reads back. -/
@[simp] theorem word16_bytes16_append (w : UInt16) (rest : Bytes) :
    word16 (bytes16 w ++ rest) = w := by
  have htake : (bytes16 w ++ rest).take 2 = bytes16 w := by
    simp [bytes16]
  apply UInt16.toNat_inj.mp
  have hvalue : value (bytes16 w) = w.toNat := by
    rw [bytes16, value_bytes]
    exact Nat.mod_eq_of_lt w.toNat_lt
  rw [toNat_word16, htake, hvalue]

/-- A written word of four bytes reads back. -/
@[simp] theorem word32_bytes32_append (w : UInt32) (rest : Bytes) :
    word32 (bytes32 w ++ rest) = w := by
  have htake : (bytes32 w ++ rest).take 4 = bytes32 w := by
    simp [bytes32]
  apply UInt32.toNat_inj.mp
  have hvalue : value (bytes32 w) = w.toNat := by
    rw [bytes32, value_bytes]
    exact Nat.mod_eq_of_lt w.toNat_lt
  rw [word32, htake, hvalue, UInt32.ofNat_toNat]

/-- What stands behind written bytes. -/
theorem drop_bytes_append (count number : Nat) (rest : Bytes) {n : Nat} (h : count ≤ n) :
    (bytes count number ++ rest).drop n = rest.drop (n - count) := by
  have hlength := bytes_length count number
  rw [List.drop_append, List.drop_of_length_le (by omega), hlength, List.nil_append]

/-- Written bytes and some of what stands behind them. -/
theorem take_bytes_append (count number : Nat) (rest : Bytes) {n : Nat} (h : count ≤ n) :
    (bytes count number ++ rest).take n = bytes count number ++ rest.take (n - count) := by
  have hlength := bytes_length count number
  rw [List.take_append, List.take_of_length_le (by omega), hlength]

/-- What stands behind a written word of two bytes. -/
theorem drop_bytes16_append (w : UInt16) (rest : Bytes) {n : Nat} (h : 2 ≤ n) :
    (bytes16 w ++ rest).drop n = rest.drop (n - 2) :=
  drop_bytes_append 2 w.toNat rest h

/-- What stands behind a written word of four bytes. -/
theorem drop_bytes32_append (w : UInt32) (rest : Bytes) {n : Nat} (h : 4 ≤ n) :
    (bytes32 w ++ rest).drop n = rest.drop (n - 4) :=
  drop_bytes_append 4 w.toNat rest h

/-- A written word of four bytes and some of what stands behind it. -/
theorem take_bytes32_append (w : UInt32) (rest : Bytes) {n : Nat} (h : 4 ≤ n) :
    (bytes32 w ++ rest).take n = bytes32 w ++ rest.take (n - 4) :=
  take_bytes_append 4 w.toNat rest h

end LittleEndian

end NetnsWatch
