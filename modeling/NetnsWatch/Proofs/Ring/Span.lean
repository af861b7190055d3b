import NetnsWatch.Proofs.Ring.Operation

/-!
# The words between the positions

As long as every word outside the positions is zero, what an operation does follows from the words
between them, whatever these are: frames, reserved space, or damage. A reservation adds zeros behind
them and a submission a frame; the reader looks at the first word alone to decide what it finds, and
takes a frame away from the front. So a ring is described by one list of words.
-/

namespace NetnsWatch

namespace Memory

/-- Positions that name the same word are stored to alike. -/
theorem store_of_slot_eq (m : Memory) {position other : UInt64} (value : UInt64)
    (h : m.slot position = m.slot other) : m.store position value = m.store other value := by
  simp only [store, h]

/-- Positions that name the same word are loaded from alike. -/
theorem load_of_slot_eq (m : Memory) {position other : UInt64}
    (h : m.slot position = m.slot other) : m.load position = m.load other := by
  simp only [load, h]

/-- Counted from any position, one lap names every word. -/
theorem exists_slot_eq (m : Memory) {start : UInt64}
    (hlap : start.toNat + 8 * m.words.size ≤ UInt64.size) (position : UInt64) :
    ∃ i, i < m.words.size ∧ m.slot (start + 8 * UInt64.ofNat i) = m.slot position := by
  have hlt := m.slot_lt position
  have hfirst := m.offset_lt (start.toNat / 8)
  have hdivide := Nat.mod_add_div (start.toNat / 8) m.words.size
  have hword : ∀ i, i < m.words.size →
      m.slot (start + 8 * UInt64.ofNat i) = (start.toNat / 8 + i) % m.words.size := by
    intro i hi
    rw [slot_eq_mod, toNat_add_eight_mul (by omega)]
    congr 1
    omega
  refine ⟨(m.slot position + (m.words.size - start.toNat / 8 % m.words.size)) % m.words.size,
    m.offset_lt _, ?_⟩
  calc m.slot (start + 8 * UInt64.ofNat _)
      = (m.slot position + m.words.size * (start.toNat / 8 / m.words.size + 1)) %
          m.words.size := by
        rw [hword _ (m.offset_lt _), Nat.add_mod_mod, Nat.mul_add]
        congr 1
        omega
    _ = m.slot position := by rw [Nat.add_mul_mod_self_left, Nat.mod_eq_of_lt hlt]

end Memory

namespace Ring

open LittleEndian Memory

/-- A word keeps the reader at its position while the producer is here: it is no committed header,
or one of an empty record, or its frame ends further on. -/
def Blocks (position word producer : UInt64) : Prop :=
  ∀ length, lengthOfHeader? word = some length →
    length = 0 ∨ producer.toNat < position.toNat + (frameSize length).toNat

/-- Why the reader does not pass a word. -/
def objection (word : UInt64) : String :=
  if (lengthOfHeader? word).isSome then overrun else notCommitted

section Head

variable {r : Ring} {position word producer : UInt64} {length : Nat}

/-- A word that is no committed header keeps the reader wherever the producer is. -/
theorem blocks_of_not_header (h : lengthOfHeader? word = none) : Blocks position word producer := by
  simp [Blocks, h]

/-- A committed header keeps the reader if its record is empty or its frame ends behind the
producer. -/
theorem blocks_iff_of_header (h : lengthOfHeader? word = some length) :
    Blocks position word producer ↔
      length = 0 ∨ producer.toNat < position.toNat + (frameSize length).toNat := by
  simp [Blocks, h]

/-- The objection to a word that is no committed header. -/
theorem objection_of_not_header (h : lengthOfHeader? word = none) : objection word = notCommitted := by
  simp [objection, h]

/-- The objection to a committed header. -/
theorem objection_of_header (h : lengthOfHeader? word = some length) : objection word = overrun := by
  simp [objection, h]

/-- A committed header is not zero. -/
theorem ne_zero_of_lengthOfHeader? (h : lengthOfHeader? word = some length) :
    word ≠ 0 := by
  rintro rfl
  cases h

/-- A word that is neither zero nor a committed header is damage. -/
theorem head_of_not_header (hapart : r.consumer ≠ r.producer)
    (hne : r.memory.load r.consumer ≠ 0)
    (hheader : lengthOfHeader? (r.memory.load r.consumer) = none) :
    r.head = .damaged notCommitted := by
  have hfound : ¬ (r.consumer = r.producer ∨ r.memory.load r.consumer = 0) :=
    not_or.mpr ⟨hapart, hne⟩
  simp only [head, if_neg hfound, hheader]

/-- What the reader finds at a committed header depends on where its frame would end. -/
theorem head_of_header (hapart : r.consumer ≠ r.producer)
    (hheader : lengthOfHeader? (r.memory.load r.consumer) = some length)
    (hexact : r.consumer.toNat + (frameSize length).toNat < UInt64.size) :
    r.head = if length = 0 ∨ r.producer.toNat < r.consumer.toNat + (frameSize length).toNat then
      .damaged overrun else .frame length := by
  have hfound : ¬ (r.consumer = r.producer ∨ r.memory.load r.consumer = 0) :=
    not_or.mpr ⟨hapart, ne_zero_of_lengthOfHeader? hheader⟩
  have hsum : (r.consumer + frameSize length).toNat =
      r.consumer.toNat + (frameSize length).toNat := by
    rw [UInt64.toNat_add]
    exact Nat.mod_eq_of_lt hexact
  simp only [head, if_neg hfound, hheader, UInt64.lt_iff_toNat_lt, hsum]

/-- Below half of the positions, a frame of any length that a header can hold ends exactly. -/
theorem frame_lt_size (hle : r.consumer.toNat ≤ r.producer.toNat) (hhalf : r.producer.toNat < half)
    (hmax : length ≤ maxLength) : r.consumer.toNat + (frameSize length).toNat < UInt64.size := by
  have hsize : UInt64.size = 18446744073709551616 := rfl
  rw [toNat_frameSize hmax]
  unfold payloadWords
  unfold maxLength at hmax
  unfold half at hhalf
  omega

/-- A word that is not zero is damage to the reader if it keeps it, and otherwise the header of a
frame. -/
theorem head_of_word (hlt : r.consumer < r.producer) (hhalf : r.producer.toNat < half)
    (hne : r.memory.load r.consumer ≠ 0) :
    Blocks r.consumer (r.memory.load r.consumer) r.producer ∧
        r.head = .damaged (objection (r.memory.load r.consumer)) ∨
      ¬ Blocks r.consumer (r.memory.load r.consumer) r.producer ∧
        ∃ length, lengthOfHeader? (r.memory.load r.consumer) = some length ∧
          r.head = .frame length := by
  have hapart : r.consumer ≠ r.producer := UInt64.ne_of_lt hlt
  have hle : r.consumer.toNat ≤ r.producer.toNat := Nat.le_of_lt (UInt64.lt_iff_toNat_lt.mp hlt)
  cases hheader : lengthOfHeader? (r.memory.load r.consumer) with
  | none =>
    rw [objection_of_not_header hheader]
    exact Or.inl ⟨blocks_of_not_header hheader, head_of_not_header hapart hne hheader⟩
  | some length =>
    have hmax := (length_of_lengthOfHeader? hheader).2
    have hhead := head_of_header hapart hheader (frame_lt_size hle hhalf hmax)
    rw [blocks_iff_of_header hheader, objection_of_header hheader]
    by_cases hkept : length = 0 ∨ r.producer.toNat < r.consumer.toNat + (frameSize length).toNat
    · exact Or.inl ⟨hkept, by rw [hhead, if_pos hkept]⟩
    · exact Or.inr ⟨hkept, length, rfl, by rw [hhead, if_neg hkept]⟩

end Head

/-- These words stand between the positions, oldest first, and every other word is zero. -/
structure Spans (r : Ring) (words : List UInt64) : Prop where
  aligned : 8 ∣ r.consumer.toNat
  producer_eq : r.producer.toNat = r.consumer.toNat + 8 * words.length
  window_eq : r.memory.window (r.consumer.toNat / 8) =
    words ++ List.replicate (r.memory.words.size - words.length) 0

/-- A frame of a permitted length has room behind a number of words in use. -/
def Room (r : Ring) (used length : Nat) : Prop :=
  1 ≤ length ∧ length ≤ maxLength ∧
    8 * used + 8 * (1 + payloadWords length) ≤ r.memory.capacity.toNat

section Spans

variable {r : Ring} {word : UInt64} {words : List UInt64} {record : Bytes}

/-- The words between the positions fit into the memory. -/
theorem Spans.length_le (h : r.Spans words) : words.length ≤ r.memory.words.size := by
  have hlen := congrArg List.length h.window_eq
  rw [length_window, List.length_append, List.length_replicate] at hlen
  omega

/-- The consumer position lies a whole number of words into the memory. -/
theorem Spans.toNat_consumer (h : r.Spans words) :
    r.consumer.toNat = 8 * (r.consumer.toNat / 8) :=
  (Nat.mul_div_cancel' h.aligned).symm

/-- No words between the positions means that they meet. -/
theorem Spans.consumer_eq_producer (h : r.Spans []) : r.consumer = r.producer :=
  UInt64.toNat_inj.mp h.producer_eq.symm

/-- A word between the positions keeps them apart. -/
theorem Spans.consumer_ne_producer (h : r.Spans (word :: words)) : r.consumer ≠ r.producer := by
  intro hequal
  have hproducer := h.producer_eq
  rw [hequal, List.length_cons] at hproducer
  omega

/-- A word between the positions is loaded from its place behind the consumer. -/
theorem Spans.load_eq (h : r.Spans words) {i : Nat} (hi : i < words.length) :
    r.memory.load (r.consumer + 8 * UInt64.ofNat i) = words[i] := by
  have hlength := h.length_le
  have hproducer := h.producer_eq
  have hlt := r.producer.toNat_lt
  have hsize : UInt64.size = 18446744073709551616 := rfl
  have hposition : (r.consumer + 8 * UInt64.ofNat i).toNat / 8 = r.consumer.toNat / 8 + i := by
    rw [toNat_add_eight_mul (by omega)]
    omega
  rw [load_eq_getElem_window r.memory _ i hposition (by rw [length_window]; omega)]
  simp only [h.window_eq, List.getElem_append_left hi]

/-- A word that is not zero is one of those between the positions. -/
theorem Spans.exists_of_load_ne_zero (h : r.Spans words)
    (hlap : r.consumer.toNat + 8 * r.memory.words.size ≤ UInt64.size) {position : UInt64}
    (hload : r.memory.load position ≠ 0) :
    ∃ i, words[i]? = some (r.memory.load position) ∧
      r.memory.slot (r.consumer + 8 * UInt64.ofNat i) = r.memory.slot position := by
  obtain ⟨i, hi, hslot⟩ := r.memory.exists_slot_eq hlap position
  have hposition : (r.consumer + 8 * UInt64.ofNat i).toNat / 8 = r.consumer.toNat / 8 + i := by
    rw [toNat_add_eight_mul (by omega)]
    omega
  have hword := load_eq_getElem_window r.memory _ i hposition (by rw [length_window]; exact hi)
  rw [load_of_slot_eq r.memory hslot] at hword
  refine ⟨i, ?_, hslot⟩
  by_cases hused : i < words.length
  · simp only [h.window_eq, List.getElem_append_left hused] at hword
    rw [hword, List.getElem?_eq_getElem hused]
  · simp only [h.window_eq, List.getElem_append_right (Nat.le_of_not_lt hused),
      List.getElem_replicate] at hword
    exact absurd hword hload

/-- The reader's position names the first word. -/
theorem Spans.load_consumer (h : r.Spans (word :: words)) : r.memory.load r.consumer = word := by
  have hzero : r.consumer + 8 * UInt64.ofNat 0 = r.consumer := UInt64.add_zero _
  rw [← hzero]
  exact h.load_eq (Nat.zero_lt_succ _)

/-- A frame fits exactly when there is room for it behind the words. -/
theorem Spans.fits_iff (h : r.Spans words)
    (hrange : r.producer.toNat + r.memory.capacity.toNat < UInt64.size) (length : Nat) :
    r.Fits length ↔ r.Room words.length length := by
  have hcap := r.memory.capacity_eq
  have hfull := h.length_le
  have hproducer := h.producer_eq
  have hlimit : (r.consumer + r.memory.capacity).toNat =
      r.consumer.toNat + r.memory.capacity.toNat := by
    rw [UInt64.toNat_add]
    exact Nat.mod_eq_of_lt (show _ < UInt64.size by omega)
  have hsum : (frameSize length).toNat ≤ r.memory.capacity.toNat →
      (r.producer + frameSize length).toNat = r.producer.toNat + (frameSize length).toNat := by
    intro hsmall
    rw [UInt64.toNat_add]
    exact Nat.mod_eq_of_lt (show _ < UInt64.size by omega)
  constructor
  · rintro ⟨hpos, hmax, hsmall, hend⟩
    rw [UInt64.le_iff_toNat_le] at hsmall hend
    rw [hsum hsmall, hlimit, toNat_frameSize hmax] at hend
    exact ⟨hpos, hmax, by omega⟩
  · rintro ⟨hpos, hmax, hroom⟩
    have hsmall : (frameSize length).toNat ≤ r.memory.capacity.toNat := by
      rw [toNat_frameSize hmax]
      omega
    refine ⟨hpos, hmax, UInt64.le_iff_toNat_le.mpr hsmall, ?_⟩
    rw [UInt64.le_iff_toNat_le, hsum hsmall, hlimit, toNat_frameSize hmax]
    omega

/-- Moving the producer over free space adds zeros behind the words. -/
theorem Spans.moveProducer (h : r.Spans words) {producer : UInt64} {count : Nat}
    (hmoved : producer.toNat = r.producer.toNat + 8 * count)
    (hroom : words.length + count ≤ r.memory.words.size) :
    Spans { r with producer } (words ++ List.replicate count 0) := by
  refine ⟨h.aligned, ?_, ?_⟩
  · change producer.toNat = r.consumer.toNat + _
    rw [hmoved, h.producer_eq, List.length_append, List.length_replicate]
    omega
  · change r.memory.window _ = _ ++ List.replicate (r.memory.words.size - _) 0
    rw [h.window_eq, List.append_assoc, List.replicate_append_replicate, List.length_append,
      List.length_replicate]
    congr 2
    omega

/-- Moving the consumer over zeros leaves the words behind them. -/
theorem Spans.moveConsumer {count : Nat} (h : r.Spans (List.replicate count 0 ++ words))
    {consumer : UInt64} (hmoved : consumer.toNat = r.consumer.toNat + 8 * count) :
    Spans { r with consumer } words := by
  have hfull := h.length_le
  have hproducer := h.producer_eq
  rw [List.length_append, List.length_replicate] at hfull hproducer
  refine ⟨?_, ?_, ?_⟩
  · change 8 ∣ consumer.toNat
    rw [hmoved]
    exact Nat.dvd_add h.aligned (Nat.dvd_mul_right 8 count)
  · change r.producer.toNat = consumer.toNat + _
    omega
  · have hoffset : consumer.toNat / 8 = r.consumer.toNat / 8 + count := by omega
    have hrotate := List.rotate_append_length_eq (List.replicate count (0 : UInt64))
      (words ++ List.replicate (r.memory.words.size - (count + words.length)) 0)
    rw [List.length_replicate] at hrotate
    change r.memory.window (consumer.toNat / 8) =
      words ++ List.replicate (r.memory.words.size - words.length) 0
    rw [hoffset, window_add, h.window_eq, List.append_assoc, List.length_append,
      List.length_replicate, hrotate, List.append_assoc, List.replicate_append_replicate]
    congr 2
    omega

/-- Storing over words between the positions replaces them. -/
theorem Spans.fill {before old after : List UInt64} (h : r.Spans (before ++ old ++ after))
    (word : UInt64) (words : List UInt64) {position : UInt64}
    (hlength : old.length = words.length + 1)
    (hposition : position.toNat = r.consumer.toNat + 8 * before.length) :
    Spans { r with memory := (storeAll words (position + 8) r.memory).store position word }
      (before ++ word :: words ++ after) := by
  have hconsumer := h.toNat_consumer
  have hfull := h.length_le
  have hproducer := h.producer_eq
  have hlt := r.producer.toNat_lt
  have hsize : UInt64.size = 18446744073709551616 := rfl
  simp only [List.length_append, hlength] at hfull hproducer
  have hwindow := window_store_storeAll word words r.memory position (r.consumer.toNat / 8)
    before.length (by omega) (by omega) (by omega)
  have hbehind : (before ++ old).length = before.length + (words.length + 1) := by
    rw [List.length_append, hlength]
  refine ⟨h.aligned, ?_, ?_⟩
  · change r.producer.toNat = r.consumer.toNat + _
    simp only [List.length_append, List.length_cons]
    exact hproducer
  · change ((storeAll words (position + 8) r.memory).store position word).window _ = _
    rw [hwindow, h.window_eq, size_store, size_storeAll, List.append_assoc (before ++ old),
      ← hbehind, List.drop_left, List.append_assoc before old, List.take_left]
    simp only [List.length_append, List.length_cons, List.append_assoc, hlength]

/-- A stray store to a word between the positions replaces that word. -/
theorem Spans.overwrite {before after : List UInt64} (h : r.Spans (before ++ word :: after))
    {position : UInt64} (value : UInt64)
    (hslot : r.memory.slot (r.consumer + 8 * UInt64.ofNat before.length) = r.memory.slot position) :
    (r.overwrite position value).Spans (before ++ value :: after) := by
  have hproducer := h.producer_eq
  have hlt := r.producer.toNat_lt
  have hsize : UInt64.size = 18446744073709551616 := rfl
  rw [List.length_append, List.length_cons] at hproducer
  rw [← List.singleton_append, ← List.append_assoc] at h
  have hfilled := h.fill value [] rfl (toNat_add_eight_mul (by omega))
  rw [List.append_assoc, List.singleton_append] at hfilled
  rw [Ring.overwrite, ← store_of_slot_eq r.memory value hslot]
  exact hfilled

/-- A reservation with room adds zeros behind the words. -/
theorem Spans.reserved (h : r.Spans words)
    (hrange : r.producer.toNat + r.memory.capacity.toNat < UInt64.size) {length : Nat}
    (hroom : r.Room words.length length) :
    Spans { r with producer := r.producer + frameSize length }
      (words ++ List.replicate (1 + payloadWords length) 0) := by
  obtain ⟨-, hmax, hfits⟩ := hroom
  have hcap := r.memory.capacity_eq
  have hframe := toNat_frameSize hmax
  refine h.moveProducer ?_ (by omega)
  rw [UInt64.toNat_add, hframe]
  exact Nat.mod_eq_of_lt (show _ < UInt64.size by omega)

/-- A submission with room stores its frame behind the words. -/
theorem Spans.submit_eq (h : r.Spans words)
    (hrange : r.producer.toNat + r.memory.capacity.toNat < UInt64.size)
    (hroom : r.Room words.length record.length) :
    r.submit record = (.accepted, { r with
      producer := r.producer + frameSize record.length
      memory := (storeAll (payload record) (r.producer + 8) r.memory).store r.producer
        (header record.length) }) := by
  obtain ⟨hfull, -⟩ | ⟨-, hreserve⟩ := r.reserve_cases record.length
  · exact absurd ((h.fits_iff hrange _).mpr hroom) hfull
  · rw [submit, hreserve, ← storeBytes_eq_storeAll]

/-- A submission with room adds its frame behind the words. -/
theorem Spans.submitted (h : r.Spans words)
    (hrange : r.producer.toNat + r.memory.capacity.toNat < UInt64.size)
    (hroom : r.Room words.length record.length) :
    (r.submit record).2.Spans (words ++ frame record) := by
  have hreserved := h.reserved hrange hroom
  rw [← List.append_nil (_ ++ List.replicate _ _)] at hreserved
  have hfilled := hreserved.fill (header record.length) (payload record)
    (by rw [List.length_replicate, length_payload, Nat.add_comm]) h.producer_eq
  rw [List.append_nil] at hfilled
  rw [h.submit_eq hrange hroom]
  exact hfilled

/-- Without words between the positions the reader finds nothing. -/
theorem Spans.head_nil (h : r.Spans []) : r.head = .none := by
  rw [head, if_pos (Or.inl h.consumer_eq_producer)]

/-- A zero is not committed. -/
theorem Spans.head_zero (h : r.Spans (0 :: words)) : r.head = .none := by
  rw [head, if_pos (Or.inr h.load_consumer)]

/-- The end of the first frame lies before the producer. -/
theorem Spans.frame_le (h : r.Spans (frame record ++ words)) (hmax : record.length ≤ maxLength) :
    r.consumer.toNat + (frameSize record.length).toNat + 8 * words.length = r.producer.toNat := by
  have hproducer := h.producer_eq
  rw [List.length_append, length_frame] at hproducer
  rw [hproducer, toNat_frameSize hmax]
  omega

/-- The reader finds the first frame. -/
theorem Spans.head_frame (h : r.Spans (frame record ++ words)) (hpos : 1 ≤ record.length)
    (hmax : record.length ≤ maxLength) : r.head = .frame record.length := by
  have hend := h.frame_le hmax
  have hlt := r.producer.toNat_lt
  have hsize : UInt64.size = 18446744073709551616 := rfl
  rw [frame, List.cons_append] at h
  have hheader : lengthOfHeader? (r.memory.load r.consumer) = some record.length := by
    rw [h.load_consumer]
    exact lengthOfHeader?_header hmax
  rw [head_of_header h.consumer_ne_producer hheader (by omega), if_neg]
  omega

/-- The bytes behind the first header are those of the first record. -/
theorem Spans.loadBytes_frame (h : r.Spans (frame record ++ words))
    (hmax : record.length ≤ maxLength) :
    (loadBytes r.memory (r.consumer + 8) (payloadWords record.length)).take record.length =
      record := by
  have hconsumer := h.toNat_consumer
  have hend := h.frame_le hmax
  have hfull := h.length_le
  have hframe := toNat_frameSize hmax
  rw [List.length_append, length_frame] at hfull
  have hlt := r.producer.toNat_lt
  have hsize : UInt64.size = 18446744073709551616 := rfl
  have hnext : (r.consumer + 8).toNat = r.consumer.toNat + 8 := toNat_add_eight (by omega)
  rw [loadBytes_eq r.memory (r.consumer + 8) (r.consumer.toNat / 8) 1 (payloadWords record.length)
    (by omega) (by omega) (by omega), h.window_eq, frame, List.cons_append, List.cons_append,
    List.drop_succ_cons, List.drop_zero, List.append_assoc, ← length_payload, List.take_left,
    take_flatMap_payload]

/-- Releasing the first frame leaves the words behind it. -/
theorem Spans.released (h : r.Spans (frame record ++ words)) (hmax : record.length ≤ maxLength) :
    (r.release record.length).Spans words := by
  have hend := h.frame_le hmax
  have hlt := r.producer.toNat_lt
  have hsize : UInt64.size = 18446744073709551616 := rfl
  rw [← List.nil_append (frame record)] at h
  have hcleared := h.fill 0 (List.replicate (payloadWords record.length) 0)
    (by rw [length_frame, List.length_replicate, Nat.add_comm]) rfl
  rw [← clear_eq_storeAll, List.nil_append, ← List.replicate_succ] at hcleared
  refine hcleared.moveConsumer ?_
  rw [UInt64.toNat_add, toNat_frameSize hmax, Nat.add_comm 1]
  refine Nat.mod_eq_of_lt ?_
  rw [Nat.add_comm _ 1, ← toNat_frameSize hmax]
  exact show _ < UInt64.size by omega

/-- The reader takes the first frame's record, byte for byte. -/
theorem Spans.next_frame (h : r.Spans (frame record ++ words)) (hpos : 1 ≤ record.length)
    (hmax : record.length ≤ maxLength) : r.next = (.ok (some record), r.release record.length) := by
  simp only [next, h.head_frame hpos hmax, h.loadBytes_frame hmax]

end Spans

end Ring

end NetnsWatch
