import NetnsWatch.Text.Utf8

/-!
# Characters of seven bits in a decoded text

A character of seven bits is one byte, and decoding makes it of no other bytes: the bytes of a longer
sequence have the eighth bit, a sequence that could be shorter is never begun, and what cannot be
decoded is replaced by a character of sixteen bits. So a text has every such character exactly as
often as its byte occurs. NUL is left out: it also stands for numbers that are no character.
-/

namespace NetnsWatch.Utf8

/-- A sequence whose character will need more than seven bits, and that goes on with a byte that has
the eighth bit. -/
structure Unfinished.Wide (u : Unfinished) : Prop where
  low : 128 ≤ u.low.toNat
  bits : 2 ≤ u.bits ∨
    2 ≤ u.missing ∧ (1 ≤ u.bits ∨ 144 ≤ u.low.toNat ∧ u.high.toNat ≤ 191)

/-- Whatever sequence a byte begins, its character will need more than seven bits. -/
theorem wide_begin {byte : UInt8} {u : Unfinished} (h : (begin byte).2 = some u) : u.Wide := by
  simp only [begin, UInt8.lt_iff_toNat_lt, ← UInt8.toNat_inj, UInt8.reduceToNat] at h
  repeat' split at h
  all_goals cases h
  all_goals
    refine ⟨by simp, ?_⟩
    simp only [UInt8.reduceToNat]
    omega

/-- The bits of a continued sequence make it wide, and its character one of more than seven bits. -/
theorem Unfinished.Wide.bits_continued {u : Unfinished} (h : u.Wide) {byte : UInt8}
    (hlow : u.low ≤ byte) (hhigh : byte ≤ u.high) :
    2 ≤ u.bits * 64 + byte.toNat % 64 ∧ (u.missing ≤ 1 → 128 ≤ u.bits * 64 + byte.toNat % 64) := by
  obtain ⟨-, hbits⟩ := h
  rw [UInt8.le_iff_toNat_le] at hlow hhigh
  omega

/-- A character of seven bits other than NUL. -/
structure SevenBit (c : Char) : Prop where
  ne_nul : c ≠ '\x00'
  lt : c.toNat < 128

section Count

variable {c : Char} (hc : SevenBit c)
include hc

/-- Only its own number is decoded as a character of seven bits. -/
theorem eq_toNat_of_ofNat {n : Nat} (h : Char.ofNat n = c) : n = c.toNat := by
  by_cases hvalid : n.isValidChar
  · have hsame : c = Char.ofNatAux n hvalid := h.symm.trans (dif_pos hvalid)
    rw [hsame]
    rfl
  · exact absurd (h.symm.trans (dif_neg hvalid)) hc.ne_nul

/-- A number of more than seven bits is another character. -/
theorem count_ofNat_of_le {n : Nat} (h : 128 ≤ n) : [Char.ofNat n].count c = 0 := by
  rw [List.count_eq_zero, List.mem_singleton]
  intro hsame
  rw [eq_toNat_of_ofNat hc hsame.symm] at h
  exact absurd hc.lt (Nat.not_lt.mpr h)

/-- The replacement is another character. -/
theorem count_replacement : [replacement].count c = 0 := by
  rw [List.count_eq_zero, List.mem_singleton]
  rintro rfl
  exact absurd hc.lt (by decide)

/-- A byte with the eighth bit is not the byte of the character. -/
theorem count_of_le {byte : UInt8} (h : 128 ≤ byte.toNat) :
    [byte].count (UInt8.ofNat c.toNat) = 0 := by
  rw [List.count_eq_zero, List.mem_singleton]
  rintro rfl
  have hlt := hc.lt
  rw [UInt8.toNat_ofNat'] at h
  omega

/-- Outside any sequence a byte gives the character exactly if it is its byte. -/
theorem count_begin (byte : UInt8) :
    (begin byte).1.count c = [byte].count (UInt8.ofNat c.toNat) := by
  by_cases hbyte : byte < 0x80
  · have hiff : Char.ofNat byte.toNat = c ↔ byte = UInt8.ofNat c.toNat := by
      constructor
      · intro h
        rw [← eq_toNat_of_ofNat hc h, UInt8.ofNat_toNat]
      · rintro rfl
        have hlt := hc.lt
        rw [UInt8.toNat_ofNat', Nat.mod_eq_of_lt (by omega), Char.ofNat_toNat]
    rw [begin, if_pos hbyte, List.count_singleton, List.count_singleton]
    simp only [beq_iff_eq, hiff]
  · have hreplaced : (begin byte).1 = [] ∨ (begin byte).1 = [replacement] := by
      rw [begin, if_neg hbyte]
      repeat' split
      all_goals simp
    rw [count_of_le hc (UInt8.le_iff_toNat_le.mp (UInt8.not_lt.mp hbyte))]
    rcases hreplaced with h | h
    · rw [h, List.count_nil]
    · rw [h, count_replacement hc]

/-- A byte gives the character exactly if it is its byte, and leaves a sequence that is wide. -/
theorem count_advance (byte : UInt8) {state : Option Unfinished} (h : ∀ u ∈ state, u.Wide) :
    (advance byte state).1.count c = [byte].count (UInt8.ofNat c.toNat) ∧
      ∀ u ∈ (advance byte state).2, u.Wide := by
  cases state with
  | none => exact ⟨count_begin hc byte, fun u hu => wide_begin hu⟩
  | some u =>
    have hwide := h u rfl
    simp only [advance]
    split
    · rename_i hrange
      obtain ⟨hbits, hlast⟩ := hwide.bits_continued hrange.1 hrange.2
      have hbyte := Nat.le_trans hwide.low (UInt8.le_iff_toNat_le.mp hrange.1)
      rw [count_of_le hc hbyte]
      split
      · rename_i hmissing
        refine ⟨count_ofNat_of_le hc (hlast hmissing), fun v hv => ?_⟩
        exact absurd hv (Option.not_mem_none v)
      · refine ⟨List.count_nil, fun v hv => ?_⟩
        rw [← Option.mem_some.mp hv]
        exact ⟨by simp, Or.inl hbits⟩
    · refine ⟨?_, fun v hv => wide_begin hv⟩
      rw [← List.singleton_append, List.count_append, count_replacement hc, Nat.zero_add,
        count_begin hc]

/-- From any sequence that may be unfinished, the character occurs as often as its byte. -/
theorem count_decodeFrom (b : Bytes) {state : Option Unfinished} (h : ∀ u ∈ state, u.Wide) :
    (decodeFrom state b).count c = b.count (UInt8.ofNat c.toNat) := by
  induction b generalizing state with
  | nil =>
    cases state with
    | none => rfl
    | some u => exact count_replacement hc
  | cons byte rest ih =>
    obtain ⟨hfirst, hnext⟩ := count_advance hc byte h
    have hstep : decodeFrom state (byte :: rest) =
        (advance byte state).1 ++ decodeFrom (advance byte state).2 rest := by
      cases state <;> rfl
    rw [hstep, List.count_append, hfirst, ih hnext, ← List.singleton_append (l := rest),
      List.count_append]

/-- A text has a character of seven bits exactly as often as its byte occurs. -/
theorem count_decode (b : Bytes) :
    (decode b).toList.count c = b.count (UInt8.ofNat c.toNat) := by
  have hnone : ∀ u ∈ (none : Option Unfinished), u.Wide :=
    fun u hu => absurd hu (Option.not_mem_none u)
  rw [decode, String.toList_ofList, count_decodeFrom hc b hnone]

end Count

end NetnsWatch.Utf8
