import NetnsWatch.Proofs.Event.RoundTrip

/-!
# What a command field keeps of a name

A name is cut to the width of the field, then at its first NUL, and the rest of the field is filled
with zeros. All that is kept is the longest beginning of the name that has no NUL and fits into the
field: it is what the field says, two names with the same one are stored alike, and storing it again
gives the field back. So the fields that names are stored in are the canonical ones.
-/

namespace NetnsWatch.Command

/-- The longest beginning of a name that has no NUL and fits into the field. -/
structure Stem (name stem : Bytes) : Prop where
  isPrefix : stem <+: name
  noNul : 0 ∉ stem
  fits : stem.length ≤ 16
  longest : ∀ other, other <+: name → 0 ∉ other → other.length ≤ 16 → other <+: stem

/-- A name has one stem. -/
theorem Stem.unique {name stem stem' : Bytes} (h : Stem name stem) (h' : Stem name stem') :
    stem = stem' := by
  have hle : stem <+: stem' := h'.longest stem h.isPrefix h.noNul h.fits
  have hge : stem' <+: stem := h.longest stem' h'.isPrefix h'.noNul h'.fits
  exact hle.eq_of_length_le hge.length_le

/-- Bytes without a NUL pass the test for it. -/
theorem ne_nul_of_not_mem {b : Bytes} (h : 0 ∉ b) : ∀ byte ∈ b, (byte != 0) = true :=
  fun _ hbyte => bne_iff_ne.mpr fun hzero => h (hzero ▸ hbyte)

/-- What stands before the first NUL has none. -/
theorem not_mem_takeWhile (b : Bytes) : 0 ∉ b.takeWhile (· != 0) := by
  intro hmem
  have hne := List.all_eq_true.mp (List.all_takeWhile (p := (· != 0)) (l := b)) 0 hmem
  exact absurd rfl (bne_iff_ne.mp hne)

/-- What a cut name has before its first NUL is the stem of the name. -/
theorem stem_takeWhile_take (name : Bytes) : Stem name ((name.take 16).takeWhile (· != 0)) where
  isPrefix := (List.takeWhile_prefix _).trans (List.take_prefix 16 name)
  noNul := not_mem_takeWhile _
  fits := Nat.le_trans (List.takeWhile_prefix _).length_le (List.length_take_le 16 name)
  longest := by
    intro other hbegins hnul hfits
    obtain ⟨rest, hrest⟩ := List.prefix_take_iff.mpr ⟨hbegins, hfits⟩
    rw [← hrest, List.takeWhile_append_of_pos (ne_nul_of_not_mem hnul)]
    exact List.prefix_append other _

/-- Zeros at the end add nothing before the first NUL. -/
theorem takeWhile_append_zeros (b : Bytes) (count : Nat) :
    (b ++ List.replicate count 0).takeWhile (· != 0) = b.takeWhile (· != 0) := by
  induction b with
  | nil => simp
  | cons byte rest ih =>
    by_cases hzero : byte = 0
    · simp [hzero]
    · simp [hzero, ih]

/-- Zeroing from the first NUL on keeps what stands before it. -/
theorem takeWhile_zeroFromNul (b : Bytes) :
    (zeroFromNul b).takeWhile (· != 0) = b.takeWhile (· != 0) := by
  induction b with
  | nil => rfl
  | cons byte rest ih =>
    by_cases hzero : byte = 0
    · simp [zeroFromNul, hzero, List.replicate_succ]
    · simp [zeroFromNul, hzero, ih]

/-- The canonical form of a field says the same name. -/
@[simp] theorem name_canonical (c : Command) : c.canonical.name = c.name :=
  takeWhile_zeroFromNul c.bytes

/-- A stored name says what the name, cut to the field's width, has before its first NUL. -/
theorem name_ofName (name : Bytes) : (ofName name).name = (name.take 16).takeWhile (· != 0) := by
  change (zeroFromNul (pad name)).takeWhile (· != 0) = _
  rw [takeWhile_zeroFromNul, pad, takeWhile_append_zeros, width]

/-- A NUL right behind the width of the field is cut off with what follows it. -/
example : (ofName (List.replicate 16 97 ++ [0, 98])).name = List.replicate 16 97 := by decide

/-- A stored name says the stem of the name. -/
theorem stem_name_ofName (name : Bytes) : Stem name (ofName name).name := by
  rw [name_ofName]
  exact stem_takeWhile_take name

/-- A canonical field is known by the name that it says. -/
theorem canonical_eq_iff (c d : Command) : c.canonical = d.canonical ↔ c.name = d.name := by
  constructor
  · intro h
    rw [← name_canonical c, h, name_canonical]
  · intro h
    have hbytes : c.canonical.bytes = d.canonical.bytes := by
      rw [bytes_canonical, bytes_canonical, cutAtNul, cutAtNul, c.length_eq, d.length_eq]
      change c.name.rightpad 16 0 = d.name.rightpad 16 0
      rw [h]
    simpa only [canonical, mk.injEq] using hbytes

/-- Two names are stored alike exactly when the fields say the same. -/
theorem ofName_eq_iff (name other : Bytes) :
    ofName name = ofName other ↔ (ofName name).name = (ofName other).name := by
  rw [← canonical_eq_iff, canonical_ofName, canonical_ofName]

/-- What a field says is its own stem. -/
theorem stem_name (c : Command) : Stem c.name c.name where
  isPrefix := List.prefix_refl _
  noNul := not_mem_takeWhile _
  fits := by
    have hle := (List.takeWhile_prefix (l := c.bytes) (· != 0)).length_le
    rwa [c.length_eq] at hle
  longest := fun _ hbegins _ _ => hbegins

/-- Storing the name that a field says gives the canonical form of the field. -/
theorem ofName_name (c : Command) : ofName c.name = c.canonical := by
  have hname : (ofName c.name).name = c.name := (stem_name_ofName c.name).unique c.stem_name
  rw [← canonical_ofName, canonical_eq_iff, hname]

/-- A name is stored as its longest beginning without a NUL that fits into the field. Storing what a
field says zeroes the field from its first NUL on, so it changes nothing exactly where all is zero
from there already; and two names are stored alike exactly when they have such a beginning in
common. -/
theorem stored_by_stem :
    (∀ name : Bytes, Stem name (ofName name).name) ∧
    (∀ c : Command, (ofName c.name).bytes = cutAtNul c.bytes ∧
      (ofName c.name = c ↔ ZeroFromNul c.bytes)) ∧
    ∀ name other : Bytes, ofName name = ofName other ↔ ∃ stem, Stem name stem ∧ Stem other stem := by
  refine ⟨stem_name_ofName, fun c => ⟨?_, ?_⟩, fun name other => ?_⟩
  · rw [ofName_name, bytes_canonical]
  · rw [ofName_name, canonical_eq_self_iff]
  · rw [ofName_eq_iff]
    constructor
    · intro h
      exact ⟨(ofName name).name, stem_name_ofName name, h ▸ stem_name_ofName other⟩
    · rintro ⟨stem, hname, hother⟩
      rw [(stem_name_ofName name).unique hname, (stem_name_ofName other).unique hother]

end NetnsWatch.Command
