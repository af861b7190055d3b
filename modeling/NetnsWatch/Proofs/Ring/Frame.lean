import NetnsWatch.Proofs.Ring.Window

/-!
# Frames as words

A record stands in the ring as a header word followed by its payload: its bytes in words of eight,
the last one filled up with zeros. The header gives the length back, and the payload cut to that
length gives the bytes back, so a row of frames determines the records in it.
-/

namespace NetnsWatch

namespace LittleEndian

/-- Zero is written with zeros alone. -/
theorem bytes_zero (count : Nat) : bytes count 0 = List.replicate count 0 := by
  induction count with
  | zero => rfl
  | succ count ih =>
    rw [bytes, Nat.zero_div, ih, List.replicate_succ]
    rfl

/-- Written with more bytes than it came from, a number is followed by zeros. -/
theorem bytes_value_append (b : Bytes) (count : Nat) :
    bytes (b.length + count) (value b) = b ++ List.replicate count 0 := by
  induction b with
  | nil => rw [List.length_nil, Nat.zero_add, value, bytes_zero, List.nil_append]
  | cons byte rest ih =>
    have hlt := byte.toNat_lt
    have hdiv : (byte.toNat + 256 * value rest) / 256 = value rest := by omega
    have hbyte : UInt8.ofNat (byte.toNat + 256 * value rest) = byte := by
      apply UInt8.toNat_inj.mp
      rw [UInt8.toNat_ofNat']
      omega
    rw [List.length_cons, Nat.add_right_comm, bytes, value, hdiv, hbyte, ih, List.cons_append]

/-- A word read from bytes and written again gives them back, with zeros for those it lacked. -/
theorem bytes64_word64 (b : Bytes) :
    bytes64 (word64 b) = b.take 8 ++ List.replicate (8 - b.length) 0 := by
  have hlen : (b.take 8).length + (8 - b.length) = 8 := by
    rw [List.length_take]
    omega
  rw [bytes64, toNat_word64, ← bytes_value_append, hlen]

end LittleEndian

namespace Ring

open LittleEndian Memory

/-- The words that hold the bytes of a record, the last one filled up with zeros. -/
def payload : Bytes → List UInt64
  | [] => []
  | byte :: rest => word64 (byte :: rest) :: payload (rest.drop 7)
  termination_by b => b.length
  decreasing_by
    rw [List.length_drop, List.length_cons]
    omega

/-- A payload fills as many words as its bytes need. -/
@[simp] theorem length_payload (b : Bytes) : (payload b).length = payloadWords b.length := by
  fun_induction payload b with
  | case1 => rfl
  | case2 byte rest ih =>
    rw [List.length_cons, ih]
    simp only [payloadWords, List.length_drop, List.length_cons]
    omega

/-- Storing bytes stores their payload. -/
theorem storeBytes_eq_storeAll (m : Memory) (position : UInt64) (b : Bytes) :
    storeBytes m position b = storeAll (payload b) position m := by
  fun_induction storeBytes m position b with
  | case1 m position => rw [payload, storeAll]
  | case2 m position byte rest ih => rw [payload, storeAll, ih]

/-- The bytes of a payload, cut to the length of the record, are the record. -/
theorem take_flatMap_payload (b : Bytes) : ((payload b).flatMap bytes64).take b.length = b := by
  fun_induction payload b with
  | case1 => rfl
  | case2 byte rest ih =>
    rw [List.flatMap_cons, bytes64_word64]
    by_cases hlong : 8 ≤ (byte :: rest).length
    · have hzeros : 8 - (byte :: rest).length = 0 := by omega
      have hhead : ((byte :: rest).take 8).length = 8 := List.length_take_of_le hlong
      have htail : (byte :: rest).drop 8 = rest.drop 7 := rfl
      rw [hzeros, List.replicate_zero, List.append_nil, List.take_append, hhead,
        List.take_take, Nat.min_eq_right hlong, ← List.length_drop, htail, ih, ← htail,
        List.take_append_drop]
    · have hrest : rest.drop 7 = [] := by
        rw [List.drop_eq_nil_iff]
        rw [List.length_cons] at hlong
        omega
      rw [hrest, payload, List.flatMap_nil, List.append_nil, List.take_of_length_le (i := 8) (by omega),
        List.take_left]

/-- Loading reads a segment of the window. -/
theorem loadBytes_eq (m : Memory) (position : UInt64) (base i count : Nat)
    (hposition : position.toNat = 8 * (base + i)) (hi : i + count ≤ m.words.size)
    (hend : position.toNat + 8 * count < UInt64.size) :
    loadBytes m position count = (((m.window base).drop i).take count).flatMap bytes64 := by
  have hbound : ∀ k, k < count → i + k < (m.window base).length := by
    intro k hk
    rw [length_window]
    omega
  have hload : ∀ k (hk : k < count), m.load (position + 8 * UInt64.ofNat k) =
      getElem (m.window base) (i + k) (hbound k hk) := by
    intro k hk
    apply load_eq_getElem_window
    rw [toNat_add_eight_mul (by omega)]
    omega
  have hwords : (List.range count).map (fun k => m.load (position + 8 * UInt64.ofNat k)) =
      ((m.window base).drop i).take count := by
    apply List.ext_getElem
    · simp only [List.length_map, List.length_range, List.length_take, List.length_drop,
        length_window]
      omega
    · intro k hk hk'
      rw [List.length_map, List.length_range] at hk
      rw [List.getElem_map, List.getElem_range, List.getElem_take, List.getElem_drop, hload k hk]
  rw [loadBytes, ← hwords, List.flatMap_map]

/-- The bits of a length all lie in the part of a header that holds it. -/
theorem ofNat_and_lengthMask {length : Nat} (h : length ≤ maxLength) :
    UInt64.ofNat length &&& lengthMask = UInt64.ofNat length := by
  have hlt : length < 4294967296 := Nat.lt_succ_of_le h
  apply UInt64.toNat_inj.mp
  have hmask : lengthMask.toNat = 2 ^ 32 - 1 := rfl
  rw [UInt64.toNat_and, UInt64.toNat_ofNat', hmask, Nat.and_two_pow_sub_one_eq_mod]
  omega

/-- Masking a header masks its commit bit and its length. -/
theorem header_and (length : Nat) (mask : UInt64) :
    header length &&& mask = (commitBit &&& mask) ||| (UInt64.ofNat length &&& mask) :=
  UInt64.toBitVec_inj.mp BitVec.and_or_distrib_right

/-- A committed header gives the length of its record back. -/
theorem lengthOfHeader?_header {length : Nat} (h : length ≤ maxLength) :
    lengthOfHeader? (header length) = some length := by
  have hmask := ofNat_and_lengthMask h
  have hcommit : header length &&& commitBit ≠ 0 := by
    rw [header_and, Ne, UInt64.or_eq_zero_iff]
    exact fun hzero => absurd hzero.1 (by decide)
  have hstray : header length &&& ~~~(commitBit ||| lengthMask) = 0 := by
    have hclosed : commitBit &&& ~~~(commitBit ||| lengthMask) = 0 ∧
        lengthMask &&& ~~~(commitBit ||| lengthMask) = 0 := by decide
    rw [header_and, hclosed.1, ← hmask, UInt64.and_assoc, hclosed.2, UInt64.and_zero,
      UInt64.or_zero]
  have hlength : (header length &&& lengthMask).toNat = length := by
    have hclosed : commitBit &&& lengthMask = 0 := by decide
    rw [header_and, hclosed, UInt64.zero_or, hmask, UInt64.toNat_ofNat']
    exact Nat.mod_eq_of_lt (Nat.lt_of_le_of_lt h (by decide))
  rw [lengthOfHeader?, if_pos ⟨hcommit, hstray⟩, hlength]

/-- The words of a record's frame. -/
def frame (record : Bytes) : List UInt64 :=
  header record.length :: payload record

/-- The words of a row of frames. -/
def layout (queue : List Bytes) : List UInt64 :=
  queue.flatMap frame

/-- A frame has one word more than its payload. -/
@[simp] theorem length_frame (record : Bytes) :
    (frame record).length = 1 + payloadWords record.length := by
  rw [frame, List.length_cons, length_payload, Nat.add_comm]

/-- The first frame of a row comes first. -/
theorem layout_cons (record : Bytes) (queue : List Bytes) :
    layout (record :: queue) = frame record ++ layout queue := List.flatMap_cons

/-- A frame added to a row comes last. -/
theorem layout_append_singleton (queue : List Bytes) (record : Bytes) :
    layout (queue ++ [record]) = layout queue ++ frame record := by
  rw [layout, layout, List.flatMap_append, List.flatMap_cons, List.flatMap_nil, List.append_nil]

/-- The room of a frame in bytes is that of its words. -/
theorem toNat_frameSize {length : Nat} (h : length ≤ maxLength) :
    (frameSize length).toNat = 8 * (1 + payloadWords length) := by
  have hbound : payloadWords length * 8 ≤ 4294967304 := by
    unfold payloadWords
    have : length ≤ 4294967295 := h
    omega
  rw [frameSize, UInt64.toNat_add, UInt64.toNat_ofNat']
  change (8 + payloadWords length * 8 % UInt64.size) % UInt64.size = _
  have hsize : UInt64.size = 18446744073709551616 := rfl
  rw [hsize, Nat.mod_eq_of_lt (a := payloadWords length * 8) (by omega), Nat.mod_eq_of_lt (by omega)]
  omega

end Ring

end NetnsWatch
