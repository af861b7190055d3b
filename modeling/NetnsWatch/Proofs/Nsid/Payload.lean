import NetnsWatch.Nsid.Datagram

/-!
# What a report's payload holds

Attributes stand one behind another, each a length, a type and a value, and each padded to four
bytes; only the last may lack some of its padding. A payload is four bytes and such a row, in which
the attributes of a known type have values of their size. The reader finds the attributes of a
payload exactly when there are some that it holds in this sense, and never any others.
-/

namespace NetnsWatch

open LittleEndian

namespace Attribute

/-- So many bytes are padded to four; less padding does where nothing stands behind it. -/
def Padded (length : Nat) (padding rest : Bytes) : Prop :=
  length + padding.length = align4 length ∨ length + padding.length < align4 length ∧ rest = []

/-- The bytes hold these attributes, one behind another.

Two bits of a type are flags. -/
inductive Laid : Bytes → List Attribute → Prop
  | nil : Laid [] []
  | cons {type : UInt16} {value padding rest : Bytes} {attributes : List Attribute}
      (hlength : 4 + value.length < 65536)
      (hpadding : Padded (4 + value.length) padding rest)
      (hrest : Laid rest attributes) :
      Laid (bytes 2 (4 + value.length) ++ (bytes16 type ++ (value ++ (padding ++ rest))))
        ({ type := type &&& 0x3FFF, value } :: attributes)

/-- Alignment moves a length up, by less than four. -/
theorem le_align4 (n : Nat) : n ≤ align4 n ∧ align4 n < n + 4 := by
  unfold align4
  omega

/-- The first attribute is read, then those behind its padding. -/
theorem readAll_eq {b : Bytes} (hfour : 4 ≤ b.length) (hle : (word16 b).toNat ≤ b.length)
    (hmin : 4 ≤ (word16 b).toNat) : readAll b =
      (readAll (b.drop (align4 (word16 b).toNat))).map fun rest =>
        { type := word16 (b.drop 2) &&& 0x3FFF, value := (b.take (word16 b).toNat).drop 4 } ::
          rest := by
  have hempty : ¬ b.isEmpty = true := by
    rw [List.isEmpty_iff_length_eq_zero]
    omega
  rw [readAll, if_neg hempty, if_neg (by omega)]
  cases readAll (b.drop (align4 (word16 b).toNat)) <;> rfl

/-- What stands behind a value and its padding; where the padding is cut short, that is nothing. -/
theorem drop_padded {value padding rest : Bytes}
    (hpadding : Padded (4 + value.length) padding rest) :
    (value ++ (padding ++ rest)).drop (align4 (4 + value.length) - 4) = rest := by
  rw [← List.append_assoc]
  rcases hpadding with hfull | ⟨hcut, rfl⟩
  · exact List.drop_left' (by rw [List.length_append]; omega)
  · rw [List.append_nil, List.drop_of_length_le (by rw [List.length_append]; omega)]

/-- An attribute that stands first is read first, and those behind its padding follow. -/
theorem readAll_append {type : UInt16} {value padding rest : Bytes}
    (hlength : 4 + value.length < 65536) (hpadding : Padded (4 + value.length) padding rest) :
    readAll (bytes 2 (4 + value.length) ++ (bytes16 type ++ (value ++ (padding ++ rest)))) =
      (readAll rest).map fun attributes => { type := type &&& 0x3FFF, value } :: attributes := by
  obtain ⟨hle, -⟩ := le_align4 (4 + value.length)
  generalize hb : bytes 2 (4 + value.length) ++ (bytes16 type ++ (value ++ (padding ++ rest))) = b
  have hword : (word16 b).toNat = 4 + value.length := by
    rw [← hb, toNat_word16, take_bytes_append _ _ _ (Nat.le_refl 2), Nat.sub_self, List.take_zero,
      List.append_nil, value_bytes]
    exact Nat.mod_eq_of_lt hlength
  have htype : b.drop 2 = bytes16 type ++ (value ++ (padding ++ rest)) := by
    rw [← hb, drop_bytes_append _ _ _ (Nat.le_refl 2), Nat.sub_self, List.drop_zero]
  have hbody : b.drop 4 = value ++ (padding ++ rest) := by
    rw [← List.drop_drop (i := 2) (j := 2), htype, drop_bytes16_append _ _ (Nat.le_refl 2),
      Nat.sub_self, List.drop_zero]
  have hsize : b.length = 4 + (value.length + (padding.length + rest.length)) := by
    rw [← hb]
    simp only [List.length_append, bytes_length, bytes16]
    omega
  have hvalue : (b.take (4 + value.length)).drop 4 = value := by
    rw [List.drop_take, hbody, Nat.add_sub_cancel_left, List.take_left]
  have hbehind : b.drop (align4 (4 + value.length)) = rest := by
    have hsplit : align4 (4 + value.length) = 4 + (align4 (4 + value.length) - 4) := by omega
    rw [hsplit, ← List.drop_drop, hbody, drop_padded hpadding]
  rw [readAll_eq (by omega) (by omega) (by omega), hword, hbehind, htype, word16_bytes16_append,
    hvalue]

/-- The reader finds the attributes that the bytes hold. -/
theorem readAll_of_laid {b : Bytes} {attributes : List Attribute} (h : Laid b attributes) :
    readAll b = some attributes := by
  induction h with
  | nil => rw [readAll]; rfl
  | cons hlength hpadding _ ih =>
    rw [readAll_append hlength hpadding, ih]
    rfl

/-- A segment of some bytes, followed by what stands behind it. -/
theorem segment_append (b : Bytes) {i j : Nat} (h : i ≤ j) :
    (b.take j).drop i ++ b.drop j = b.drop i := by
  have hbehind : b.drop j = (b.drop i).drop (j - i) := by
    rw [List.drop_drop, Nat.add_sub_cancel' h]
  rw [List.drop_take, hbehind, List.take_append_drop]

/-- What bytes hold between a length and its alignment pads that length. -/
theorem padded_of_le {b : Bytes} {length : Nat} (h : length ≤ b.length) :
    Padded length ((b.take (align4 length)).drop length) (b.drop (align4 length)) := by
  obtain ⟨hle, -⟩ := le_align4 length
  have hpad : ((b.take (align4 length)).drop length).length =
      min (align4 length) b.length - length := by
    rw [List.length_drop, List.length_take]
  rw [Padded, hpad]
  by_cases hfull : align4 length ≤ b.length
  · exact Or.inl (by omega)
  · exact Or.inr ⟨by omega, List.drop_of_length_le (by omega)⟩

/-- Bytes that begin with an attribute hold it, if what stands behind its padding holds the rest. -/
theorem laid_of_drop {b : Bytes} {attributes : List Attribute} (hle : (word16 b).toNat ≤ b.length)
    (hmin : 4 ≤ (word16 b).toNat)
    (hrest : Laid (b.drop (align4 (word16 b).toNat)) attributes) :
    Laid b ({ type := word16 (b.drop 2) &&& 0x3FFF, value := (b.take (word16 b).toNat).drop 4 } ::
      attributes) := by
  generalize hlength : (word16 b).toNat = length at hle hmin hrest ⊢
  obtain ⟨halign, -⟩ := le_align4 length
  have hlt : length < 65536 := hlength ▸ (word16 b).toNat_lt
  have hvalue : 4 + ((b.take length).drop 4).length = length := by
    rw [List.length_drop, List.length_take]
    omega
  have hfront : bytes 2 length = (b.take 2).drop 0 := by
    rw [← hlength]
    exact bytes16_word16 (by omega)
  have htype : bytes16 (word16 (b.drop 2)) = (b.take 4).drop 2 := by
    rw [bytes16_word16 (by rw [List.length_drop]; omega), List.drop_take]
  have hparts : bytes 2 (4 + ((b.take length).drop 4).length) ++ (bytes16 (word16 (b.drop 2)) ++
      ((b.take length).drop 4 ++ ((b.take (align4 length)).drop length ++
        b.drop (align4 length)))) = b := by
    rw [hvalue, hfront, htype, segment_append b halign, segment_append b hmin,
      segment_append b (show 2 ≤ 4 by decide), segment_append b (Nat.zero_le 2), List.drop_zero]
  have hlaid := @Laid.cons (word16 (b.drop 2)) ((b.take length).drop 4)
    ((b.take (align4 length)).drop length) _ _ (by omega) (hvalue.symm ▸ padded_of_le hle) hrest
  rwa [hparts] at hlaid

/-- The bytes hold the attributes that the reader finds. -/
theorem laid_of_readAll {b : Bytes} {attributes : List Attribute}
    (h : readAll b = some attributes) : Laid b attributes := by
  fun_induction readAll b generalizing attributes with
  | case1 b hempty =>
    cases h
    rw [List.isEmpty_iff.mp hempty]
    exact .nil
  | case2 => cases h
  | case3 => cases h
  | case4 b length hempty hgood rest hrest =>
    cases h
    rename_i ih
    obtain ⟨-, hle, hmin⟩ := (not_or.mp hgood).imp id not_or.mp
    exact laid_of_drop (Nat.le_of_not_lt hle) (Nat.le_of_not_lt hmin) (ih hrest)

/-- The attribute names this number: it is of the type for that, and its value are the number's
four bytes. -/
def Names (a : Attribute) (id : Int32) : Prop :=
  a.type = 1 ∧ a.value = bytes32 id.toUInt32

/-- The first number that attributes name, of those that are not negative. -/
def FirstNumber (attributes : List Attribute) : Option Int32 → Prop
  | none => ∀ a ∈ attributes, ∀ id, a.Names id → id < 0
  | some id => ∃ before a after, attributes = before ++ a :: after ∧ a.Names id ∧ 0 ≤ id ∧
      ∀ b ∈ before, ∀ other, b.Names other → other < 0

/-- An attribute whose value has the size for its type, if its type is a known one. -/
def Sized (a : Attribute) : Prop :=
  1 ≤ a.type → a.type ≤ 5 → a.value.length = 4

/-- Sizes are checked as they should be. -/
theorem wellFormed_iff (a : Attribute) : a.wellFormed = true ↔ a.Sized := by
  unfold wellFormed Sized
  split
  · rename_i h
    rw [beq_iff_eq]
    exact ⟨fun hlength _ _ => hlength, fun hsized => hsized h.1 h.2⟩
  · rename_i h
    exact ⟨fun _ hone hfive => absurd ⟨hone, hfive⟩ h, fun _ => rfl⟩

/-- A sized attribute of the type for it names the number that its value spells. -/
theorem names_iff {a : Attribute} (h : a.Sized) (id : Int32) :
    a.Names id ↔ a.type = 1 ∧ (word32 a.value).toInt32 = id := by
  refine and_congr_right fun htype => ?_
  have hlength : a.value.length = 4 := h (by rw [htype]; decide) (by rw [htype]; decide)
  have hvalue : bytes32 (word32 a.value) = a.value := by
    rw [bytes32_word32 (Nat.le_of_eq hlength.symm), List.take_of_length_le (Nat.le_of_eq hlength)]
  constructor
  · intro hid
    have hword := word32_bytes32_append id.toUInt32 []
    rw [List.append_nil, ← hid] at hword
    rw [hword, Int32.toInt32_toUInt32]
  · rintro rfl
    rw [UInt32.toUInt32_toInt32, hvalue]

/-- The number found in a sized attribute is the one that it names, unless that is negative. -/
theorem nsid?_eq_some_iff {a : Attribute} (h : a.Sized) (id : Int32) :
    a.nsid? = some id ↔ a.Names id ∧ 0 ≤ id := by
  rw [names_iff h]
  constructor
  · intro hfound
    simp only [nsid?] at hfound
    split at hfound
    · rename_i hnumber
      cases hfound
      exact ⟨⟨hnumber.1, rfl⟩, hnumber.2⟩
    · cases hfound
  · rintro ⟨⟨htype, rfl⟩, hle⟩
    exact if_pos ⟨htype, hle⟩

/-- An attribute in which no number is found names none, or a negative one. -/
theorem neg_of_nsid?_eq_none {a : Attribute} (h : a.Sized) (hnone : a.nsid? = none) (id : Int32)
    (hid : a.Names id) : id < 0 := by
  rw [← Int32.not_le]
  intro hle
  rw [(nsid?_eq_some_iff h id).mpr ⟨hid, hle⟩] at hnone
  cases hnone

/-- The first number found is the first one named. -/
theorem firstNumber_bodyNsid {attributes : List Attribute} (h : ∀ a ∈ attributes, a.Sized) :
    FirstNumber attributes (bodyNsid attributes) := by
  cases hfound : bodyNsid attributes with
  | none =>
    intro a ha
    exact neg_of_nsid?_eq_none (h a ha) (List.findSome?_eq_none_iff.mp hfound a ha)
  | some id =>
    obtain ⟨before, a, after, rfl, ha, hbefore⟩ := List.findSome?_eq_some_iff.mp hfound
    have hsized := h a (List.mem_append_right _ List.mem_cons_self)
    obtain ⟨hnames, hle⟩ := (nsid?_eq_some_iff hsized id).mp ha
    refine ⟨before, a, after, rfl, hnames, hle, fun b hb => ?_⟩
    exact neg_of_nsid?_eq_none (h b (List.mem_append_left _ hb)) (hbefore b hb)

end Attribute

/-- The payload is four bytes and the attributes behind them, each of the size for its type. -/
def Decodes (payload : Bytes) (attributes : List Attribute) : Prop :=
  ∃ header area, payload = header ++ area ∧ header.length = 4 ∧ Attribute.Laid area attributes ∧
    ∀ a ∈ attributes, a.Sized

/-- A payload is decoded to the attributes that it holds. -/
theorem attributes?_eq_some_iff (payload : Bytes) (attributes : List Attribute) :
    attributes? payload = some attributes ↔ Decodes payload attributes := by
  have hall : attributes.all Attribute.wellFormed = true ↔ ∀ a ∈ attributes, a.Sized := by
    rw [List.all_eq_true]
    exact forall₂_congr fun a _ => a.wellFormed_iff
  constructor
  · intro h
    unfold attributes? at h
    split at h
    · cases h
    · rename_i hfour
      split at h
      · cases h
      · rename_i found hfound
        split at h
        · rename_i hsized
          cases h
          refine ⟨payload.take 4, payload.drop 4, (List.take_append_drop 4 payload).symm,
            List.length_take_of_le (Nat.le_of_not_lt hfour), Attribute.laid_of_readAll hfound,
            hall.mp hsized⟩
        · cases h
  · rintro ⟨header, area, rfl, hheader, hlaid, hsized⟩
    have hlength : ¬ (header ++ area).length < 4 := by
      rw [List.length_append]
      omega
    rw [attributes?, if_neg hlength, List.drop_left' hheader]
    simp only [Attribute.readAll_of_laid hlaid, hall.mpr hsized, if_true]

end NetnsWatch
