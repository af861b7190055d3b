import NetnsWatch.Proofs.Ring.Contents
import NetnsWatch.Proofs.Ring.Operation

/-!
# A stray store against the operations

A word that a faulty writer stores is lost as soon as an operation stores in the same place, and an
operation that neither reads nor writes it cannot tell that it is there. So every operation forgets a
stray store or commutes with it, and only a record whose bytes the word lies in comes out changed.
-/

namespace NetnsWatch

namespace Memory

variable (m : Memory)

/-- Memories of one capacity with the same words are the same. -/
theorem ext_words {m m' : Memory} (hcapacity : m.capacity = m'.capacity)
    (hwords : m.words = m'.words) : m = m' := by
  cases m
  cases m'
  cases hcapacity
  cases hwords
  rfl

/-- Of two words stored in one place the later one stays. -/
theorem store_store_of_slot_eq {position other : UInt64} (value word : UInt64)
    (h : m.slot position = m.slot other) :
    (m.store position value).store other word = m.store other word := by
  refine ext_words rfl ?_
  change (m.words.setIfInBounds (m.slot position) value).setIfInBounds (m.slot other) word =
    m.words.setIfInBounds (m.slot other) word
  rw [h, Array.setIfInBounds_setIfInBounds]

/-- Words stored in different places may be stored in any order. -/
theorem store_comm {position other : UInt64} (value word : UInt64)
    (h : m.slot position ≠ m.slot other) :
    (m.store position value).store other word = (m.store other word).store position value := by
  refine ext_words rfl ?_
  change (m.words.setIfInBounds (m.slot position) value).setIfInBounds (m.slot other) word =
    (m.words.setIfInBounds (m.slot other) word).setIfInBounds (m.slot position) value
  exact Array.setIfInBounds_comm value word h

/-- A word is lost when words are stored over it. -/
theorem storeAll_store_of_covers (words : List UInt64) {start position : UInt64} (value : UInt64)
    (h : m.Covers start words.length position) :
    storeAll words start (m.store position value) = storeAll words start m := by
  induction words generalizing start m with
  | nil => exact absurd h (m.not_covers_zero start position)
  | cons word words ih =>
    rw [storeAll, storeAll]
    by_cases hslot : m.slot start = m.slot position
    · rw [store_store_of_slot_eq m value word hslot.symm]
    · rw [store_comm m value word (Ne.symm hslot)]
      exact ih (m.store start word) (((m.covers_succ _ _ _).mp h).resolve_left hslot)

/-- A word commutes with words that are stored elsewhere. -/
theorem storeAll_store_of_not_covers (words : List UInt64) {start position : UInt64}
    (value : UInt64) (h : ¬ m.Covers start words.length position) :
    storeAll words start (m.store position value) =
      (storeAll words start m).store position value := by
  induction words generalizing start m with
  | nil => rfl
  | cons word words ih =>
    rw [List.length_cons, covers_succ, not_or] at h
    rw [storeAll, storeAll, store_comm m value word (Ne.symm h.1)]
    exact ih (m.store start word) h.2

/-- A word is lost when a frame is stored over it. -/
theorem storeFrame_store_of_covers (word : UInt64) (words : List UInt64) {start position : UInt64}
    (value : UInt64) (h : m.Covers start (words.length + 1) position) :
    (storeAll words (start + 8) (m.store position value)).store start word =
      (storeAll words (start + 8) m).store start word := by
  by_cases hbehind : m.Covers (start + 8) words.length position
  · rw [storeAll_store_of_covers m words value hbehind]
  · have hslot := ((m.covers_succ _ _ _).mp h).resolve_right hbehind
    rw [storeAll_store_of_not_covers m words value hbehind, store_store_of_slot_eq]
    rw [slot_storeAll, slot_storeAll, hslot]

/-- A word commutes with a frame that is stored elsewhere. -/
theorem storeFrame_store_of_not_covers (word : UInt64) (words : List UInt64)
    {start position : UInt64} (value : UInt64) (h : ¬ m.Covers start (words.length + 1) position) :
    (storeAll words (start + 8) (m.store position value)).store start word =
      ((storeAll words (start + 8) m).store start word).store position value := by
  rw [covers_succ, not_or] at h
  rw [storeAll_store_of_not_covers m words value h.2, store_comm]
  rw [slot_storeAll, slot_storeAll]
  exact Ne.symm h.1

/-- Words of one lap, counted from a position on, are different words. -/
theorem slot_add_ne {start : UInt64} {i j : Nat} (haligned : 8 ∣ start.toNat)
    (hi : i < m.words.size) (hj : j < m.words.size) (hne : i ≠ j)
    (hend : start.toNat + 8 * m.words.size ≤ UInt64.size) :
    m.slot (start + 8 * UInt64.ofNat i) ≠ m.slot (start + 8 * UInt64.ofNat j) := by
  have hword : ∀ k, k < m.words.size →
      (start + 8 * UInt64.ofNat k).toNat / 8 = k + start.toNat / 8 := by
    intro k hk
    rw [toNat_add_eight_mul (by omega)]
    omega
  rw [slot_eq_mod, slot_eq_mod, hword i hi, hword j hj]
  exact fun hslot => hne (offset_inj hi hj hslot)

end Memory

namespace Ring

open LittleEndian Memory

/-- Where the frames of some records end that begin at a position. -/
def behind (start : UInt64) (older : List Bytes) : UInt64 :=
  older.foldl (fun position record => position + frameSize record.length) start

/-- The room of a frame is that of its words. -/
theorem frameSize_eq (length : Nat) :
    frameSize length = 8 * UInt64.ofNat (payloadWords length + 1) := by
  have hone : UInt64.ofNat 1 = 1 := rfl
  have height : UInt64.ofNat 8 = 8 := rfl
  rw [frameSize, UInt64.ofNat_mul, UInt64.ofNat_add, UInt64.mul_add, height, hone, UInt64.mul_one,
    UInt64.mul_comm, UInt64.add_comm]

/-- Words further and then further still are as many words further together. -/
theorem add_eight_mul_add (start : UInt64) (i j : Nat) :
    start + 8 * UInt64.ofNat i + 8 * UInt64.ofNat j = start + 8 * UInt64.ofNat (i + j) := by
  rw [UInt64.ofNat_add, UInt64.mul_add, UInt64.add_assoc]

/-- The frames end where their words do. -/
theorem behind_eq (start : UInt64) (older : List Bytes) :
    behind start older = start + 8 * UInt64.ofNat (layout older).length := by
  induction older generalizing start with
  | nil => exact (UInt64.add_zero start).symm
  | cons record older ih =>
    change behind (start + frameSize record.length) older = _
    rw [ih, frameSize_eq, add_eight_mul_add, layout_cons, List.length_append, length_frame,
      Nat.add_comm (payloadWords record.length)]

section Operations

variable {r : Ring} {record : Bytes} {queue : List Bytes} {position value : UInt64}

/-- A stray store has no part in whether a record finds room. -/
theorem reserve_overwrite (r : Ring) (length : Nat) (position value : UInt64) :
    (r.overwrite position value).reserve length =
      (r.reserve length).map fun claimed => (claimed.1, claimed.2.overwrite position value) := by
  obtain ⟨hfull, hnone⟩ | ⟨hfits, hsome⟩ := r.reserve_cases length
  · obtain ⟨-, hstruck⟩ | ⟨hstruck, -⟩ := (r.overwrite position value).reserve_cases length
    · rw [hnone, hstruck, Option.map_none]
    · exact absurd ⟨hstruck.pos, hstruck.le_max, hstruck.le_capacity, hstruck.le_limit⟩ hfull
  · obtain ⟨hstruck, -⟩ | ⟨-, hstruck⟩ := (r.overwrite position value).reserve_cases length
    · exact absurd ⟨hfits.pos, hfits.le_max, hfits.le_capacity, hfits.le_limit⟩ hstruck
    · rw [hsome, hstruck, Option.map_some]
      rfl

/-- A record that is stored over a stray word leaves nothing of it. -/
theorem submit_overwrite_of_covers (hfits : r.Fits record.length)
    (hcovers : r.memory.Covers r.producer (payloadWords record.length + 1) position) :
    (r.overwrite position value).submit record = r.submit record := by
  obtain ⟨hnot, -⟩ | ⟨-, hreserve⟩ := r.reserve_cases record.length
  · exact absurd hfits hnot
  · rw [← length_payload] at hcovers
    have hforgotten := storeFrame_store_of_covers r.memory (header record.length) (payload record)
      value hcovers
    simp only [submit, reserve_overwrite, hreserve, Option.map_some, storeBytes_eq_storeAll]
    change (Submission.accepted, { r with
      producer := r.producer + frameSize record.length
      memory := (storeAll (payload record) (r.producer + 8)
        (r.memory.store position value)).store r.producer (header record.length) }) = _
    rw [hforgotten]

/-- A record that is stored elsewhere, or dropped, leaves a stray word where it is. -/
theorem submit_overwrite_of_not_covers (h : r.Fits record.length →
      ¬ r.memory.Covers r.producer (payloadWords record.length + 1) position) :
    (r.overwrite position value).submit record =
      ((r.submit record).1, (r.submit record).2.overwrite position value) := by
  obtain ⟨-, hreserve⟩ | ⟨hfits, hreserve⟩ := r.reserve_cases record.length
  · simp only [submit, reserve_overwrite, hreserve, Option.map_none]
    rfl
  · have hcovers := h hfits
    rw [← length_payload] at hcovers
    have hkept := storeFrame_store_of_not_covers r.memory (header record.length) (payload record)
      value hcovers
    simp only [submit, reserve_overwrite, hreserve, Option.map_some, storeBytes_eq_storeAll]
    change (Submission.accepted, { r with
      producer := r.producer + frameSize record.length
      memory := (storeAll (payload record) (r.producer + 8)
        (r.memory.store position value)).store r.producer (header record.length) }) = _
    rw [hkept]
    rfl

/-- A stray word that is not the header in front of the reader does not change what it finds. -/
theorem head_overwrite (value : UInt64) (h : r.memory.slot position ≠ r.memory.slot r.consumer) :
    (r.overwrite position value).head = r.head := by
  have hload : (r.memory.store position value).load r.consumer = r.memory.load r.consumer := by
    rw [load_store, if_neg h]
  unfold head overwrite
  simp only [hload]

/-- The reader of an empty ring finds nothing, whatever stray words are there. -/
theorem next_overwrite_of_holds_nil (h : Holds r []) :
    (r.overwrite position value).next = (.ok none, r.overwrite position value) := by
  have hequal : r.consumer = r.producer := UInt64.toNat_inj.mp h.producer_eq.symm
  have hhead : (r.overwrite position value).head = .none := if_pos (Or.inl hequal)
  rw [next, hhead]

/-- Bytes are read as before where no stray word lies. -/
theorem loadBytes_store_of_not_covers (m : Memory) {start : UInt64} {count : Nat}
    (h : ¬ m.Covers start count position) :
    loadBytes (m.store position value) start count = loadBytes m start count := by
  refine List.flatMap_congr fun i hi => ?_
  have hother : m.slot position ≠ m.slot (start + 8 * UInt64.ofNat i) := fun hslot =>
    h ⟨i, List.mem_range.mp hi, hslot.symm⟩
  rw [load_store, if_neg hother]

/-- The reader takes the first record as it is if no stray word lies in its frame. -/
theorem next_overwrite_of_not_covers (h : Holds r (record :: queue))
    (hcovers : ¬ r.memory.Covers r.consumer (payloadWords record.length + 1) position) :
    (r.overwrite position value).next =
      (.ok (some record), (r.release record.length).overwrite position value) := by
  obtain ⟨hheader, hpayload⟩ := not_or.mp (mt (r.memory.covers_succ _ _ _).mpr hcovers)
  have hhead := (head_overwrite value (Ne.symm hheader)).trans (head_of_holds_cons h)
  have hrelease : (r.overwrite position value).release record.length =
      (r.release record.length).overwrite position value := by
    have hkept := storeFrame_store_of_not_covers r.memory 0
      (List.replicate (payloadWords record.length) 0) value
      (by rw [List.length_replicate]; exact hcovers)
    simp only [release, overwrite, clear_eq_storeAll, hkept]
  have hbytes : (loadBytes (r.overwrite position value).memory (r.consumer + 8)
      (payloadWords record.length)).take record.length = record :=
    (congrArg _ (loadBytes_store_of_not_covers r.memory hpayload)).trans
      (loadBytes_of_holds_cons h)
  rw [next, hhead, ← hrelease]
  exact congrArg (fun bytes => (Except.ok (some bytes), _)) hbytes

/-- A record in which one of its words is another; what is beyond its length is left out. -/
def withWord (i : Nat) (word : UInt64) (record : Bytes) : Bytes :=
  record.mapIdx fun j byte => if j / 8 = i then (bytes64 word).getD (j % 8) 0 else byte

/-- Another word leaves the length. -/
@[simp] theorem length_withWord (i : Nat) (word : UInt64) (record : Bytes) :
    (withWord i word record).length = record.length :=
  List.length_mapIdx

/-- Another word leaves the bytes of all others. -/
theorem getElem?_withWord_of_ne {i j : Nat} (h : j / 8 ≠ i) (word : UInt64) (record : Bytes) :
    (withWord i word record)[j]? = record[j]? := by
  rw [withWord, List.getElem?_mapIdx]
  simp only [if_neg h, Option.map_id']

/-- A record is cut after a word was replaced as it is before. -/
theorem take_withWord (i : Nat) (word : UInt64) (record : Bytes) (length : Nat) :
    (withWord i word record).take length = withWord i word (record.take length) := by
  apply List.ext_getElem?
  intro j
  rw [withWord, withWord, List.getElem?_mapIdx, List.getElem?_take, List.getElem?_take]
  split
  · rw [List.getElem?_mapIdx]
  · rfl

/-- The bytes of words side by side lie in the words at their eighths. -/
theorem getElem?_flatMap_bytes64 (words : Nat → UInt64) {count j : Nat} (hj : j < 8 * count) :
    ((List.range count).flatMap fun i => bytes64 (words i))[j]? =
      some ((bytes64 (words (j / 8))).getD (j % 8) 0) := by
  induction count with
  | zero => omega
  | succ count ih =>
    have hlength : ((List.range count).flatMap fun i => bytes64 (words i)).length = 8 * count := by
      simp [List.length_flatMap, bytes64, bytes_length, Nat.mul_comm]
    rw [List.range_succ, List.flatMap_append, List.flatMap_singleton]
    by_cases hbefore : j < 8 * count
    · rw [List.getElem?_append_left (by omega), ih hbefore]
    · have hword : j / 8 = count := by omega
      have hbyte : j - 8 * count = j % 8 := by omega
      have hlt : j % 8 < (bytes64 (words count)).length := by
        rw [bytes64, bytes_length]
        omega
      rw [List.getElem?_append_right (by omega), hlength, hword, hbyte,
        List.getD_eq_getElem?_getD, List.getElem?_eq_getElem hlt, Option.getD_some]

/-- Bytes are read with the stray word in its place. -/
theorem loadBytes_store_of_word (m : Memory) {start : UInt64} {count i : Nat}
    (hslot : m.slot (start + 8 * UInt64.ofNat i) = m.slot position)
    (hothers : ∀ j, j < count → j ≠ i → m.slot (start + 8 * UInt64.ofNat j) ≠ m.slot position) :
    loadBytes (m.store position value) start count = withWord i value (loadBytes m start count) := by
  have hloads : loadBytes (m.store position value) start count = (List.range count).flatMap fun j =>
      bytes64 (if j = i then value else m.load (start + 8 * UInt64.ofNat j)) := by
    refine List.flatMap_congr fun j hj => ?_
    by_cases hji : j = i
    · rw [if_pos hji, load_store, hji, if_pos hslot.symm]
    · rw [if_neg hji, load_store, if_neg (Ne.symm (hothers j (List.mem_range.mp hj) hji))]
  apply List.ext_getElem?
  intro j
  rw [hloads, withWord, List.getElem?_mapIdx]
  by_cases hj : j < 8 * count
  · rw [getElem?_flatMap_bytes64 _ hj, loadBytes, getElem?_flatMap_bytes64 _ hj, Option.map_some]
    by_cases hji : j / 8 = i
    · rw [if_pos hji, if_pos hji]
    · rw [if_neg hji, if_neg hji]
  · rw [List.getElem?_eq_none, List.getElem?_eq_none, Option.map_none]
    · rw [length_loadBytes]
      omega
    · simp [List.length_flatMap, bytes64, bytes_length]
      omega

/-- The reader takes the first record with the stray word in its place, and clears that word. -/
theorem next_overwrite_of_word (h : Holds r (record :: queue)) {i : Nat}
    (hi : i < payloadWords record.length)
    (hslot : r.memory.slot (r.consumer + 8 * UInt64.ofNat (i + 1)) = r.memory.slot position)
    (hend : r.consumer.toNat + 8 * r.memory.words.size ≤ UInt64.size) :
    (r.overwrite position value).next =
      (.ok (some (withWord i value record)), r.release record.length) := by
  have hfull := h.length_layout_le
  rw [layout_cons, List.length_append, length_frame] at hfull
  have hothers : ∀ j, j ≤ payloadWords record.length → j ≠ i + 1 →
      r.memory.slot (r.consumer + 8 * UInt64.ofNat j) ≠ r.memory.slot position := by
    intro j hj hne
    rw [← hslot]
    exact slot_add_ne _ h.aligned (by omega) (by omega) hne hend
  have hheader : r.memory.slot r.consumer ≠ r.memory.slot position := by
    have hfirst := hothers 0 (Nat.zero_le _) (by omega)
    rwa [add_eight_mul_zero] at hfirst
  have hbytes : loadBytes (r.memory.store position value) (r.consumer + 8)
      (payloadWords record.length) =
        withWord i value (loadBytes r.memory (r.consumer + 8) (payloadWords record.length)) := by
    refine loadBytes_store_of_word r.memory ?_ fun j hj hne => ?_
    · rw [← add_eight_mul_succ]
      exact hslot
    · rw [← add_eight_mul_succ]
      exact hothers (j + 1) hj (fun hsame => hne (Nat.succ.inj hsame))
  have hrelease : (r.overwrite position value).release record.length = r.release record.length := by
    have hcovered : r.memory.Covers r.consumer
        ((List.replicate (payloadWords record.length) (0 : UInt64)).length + 1) position :=
      ⟨i + 1, by rw [List.length_replicate]; omega, hslot⟩
    have hforgotten := storeFrame_store_of_covers r.memory 0 _ value hcovered
    simp only [release, overwrite, clear_eq_storeAll, hforgotten]
  have hrecord : (loadBytes (r.overwrite position value).memory (r.consumer + 8)
      (payloadWords record.length)).take record.length = withWord i value record := by
    change (loadBytes (r.memory.store position value) _ _).take _ = _
    rw [hbytes, take_withWord, loadBytes_of_holds_cons h]
  rw [next, (head_overwrite value (Ne.symm hheader)).trans (head_of_holds_cons h), ← hrelease]
  exact congrArg (fun bytes => (Except.ok (some bytes), _)) hrecord

end Operations

end Ring

end NetnsWatch
