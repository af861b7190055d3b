import NetnsWatch.Proofs.Nsid.ControlWalk

/-!
# The entries of a control buffer

The kernel puts entries one behind the other, each at the multiple of eight that follows the last
byte of the one before; nothing need fill up the last one. Such a buffer is read for the number of the
first entry that names a namespace with a whole number, whatever stands around it. A buffer that is
cut somewhere is read for the same number or for none: the header in front of the cut still says how
long its entry was.
-/

namespace NetnsWatch

open LittleEndian

/-- The number in an entry that names a namespace, if it holds a whole one. -/
def ControlEntry.number? (e : ControlEntry) : Option Int32 :=
  if e.level = Control.netlinkLevel ∧ e.type = Control.nsidType ∧ 4 ≤ e.data.length then
    some (word32 e.data).toInt32
  else none

namespace Region

/-- The first bytes of a region. -/
def cut (r : Region) (count : Nat) : Region :=
  { r with bytes := r.bytes.take count }

/-- Behind the region, filled up to a multiple of eight, there is still room for a header in front of
the last address, as there is behind all memory that a process can have. -/
def Roomy (r : Region) : Prop :=
  r.base.toNat + Control.padTo8 r.bytes.length + 16 < UInt64.size

instance (r : Region) : Decidable r.Roomy :=
  inferInstanceAs (Decidable (_ < _))

/-- Where there is room behind a region, it does not reach the end of the address space. -/
theorem Roomy.placed {r : Region} (h : r.Roomy) : r.Placed := by
  have hpad := (Control.le_padTo8 r.bytes.length).1
  unfold Roomy at h
  unfold Placed stop
  omega

end Region

namespace Control

/-- The number of a namespace; a negative one means that there is none. -/
def assigned (id : Int32) : Option NsId :=
  if 0 ≤ id then some id.toUInt32 else none

/-- The number that some entries tell: what the first of them says that holds one. -/
def told (entries : List ControlEntry) : Option NsId :=
  (entries.findSome? ControlEntry.number?).bind assigned

/-- The length of an entry, with its header. -/
def extent (e : ControlEntry) : Nat :=
  headerSize + e.data.length

/-- An entry, and what stands behind its data. -/
def lay (e : ControlEntry) (behind : Bytes) : Bytes :=
  bytes 8 (extent e) ++ (bytes32 e.level ++ (bytes32 e.type ++ (e.data ++ behind)))

/-- So many bytes are padded to eight; less padding does where nothing stands behind it. -/
def Padded (length : Nat) (padding rest : Bytes) : Prop :=
  length + padding.length = padTo8 length ∨ length + padding.length < padTo8 length ∧ rest = []

/-- The kernel lays these entries out in this buffer, one behind another. -/
inductive Laid : Bytes → List ControlEntry → Prop
  | nil : Laid [] []
  | cons {e : ControlEntry} {padding rest : Bytes} {entries : List ControlEntry}
      (hpadding : Padded (extent e) padding rest) (hrest : Laid rest entries) :
      Laid (lay e (padding ++ rest)) (e :: entries)

/-- Encoded entries are laid out in front of others. -/
theorem laid_encode_append (entries : List ControlEntry) {rest : Bytes} {later : List ControlEntry}
    (h : Laid rest later) : Laid (entries.flatMap encode ++ rest) (entries ++ later) := by
  induction entries with
  | nil => exact h
  | cons e entries ih =>
    obtain ⟨hle, -⟩ := le_padTo8 (extent e)
    have hpadding : Padded (extent e) (List.replicate (padTo8 (extent e) - extent e) 0)
        (entries.flatMap encode ++ rest) := by
      refine Or.inl ?_
      rw [List.length_replicate]
      omega
    have hcons := Laid.cons hpadding ih
    rw [List.flatMap_cons, List.cons_append]
    simpa only [lay, encode, extent, List.append_assoc] using hcons

section Front

variable (e : ControlEntry) (behind : Bytes)

/-- The bytes of an entry and of what stands behind it. -/
theorem length_lay : (lay e behind).length = extent e + behind.length := by
  simp only [lay, extent, headerSize, bytes32, List.length_append, bytes_length]
  omega

/-- Behind the header stand the data. -/
theorem drop_lay {n : Nat} (h : 16 ≤ n) : (lay e behind).drop n = (e.data ++ behind).drop (n - 16) := by
  rw [lay, drop_bytes_append _ _ _ (by omega), drop_bytes32_append _ _ (by omega),
    drop_bytes32_append _ _ (by omega)]
  rfl

/-- An entry states its length, if that is an address. -/
theorem stated_lay (h : extent e < UInt64.size) : stated (lay e behind) = extent e := by
  have hfront : (lay e behind).take 8 = bytes 8 (extent e) := by
    rw [lay, take_bytes_append _ _ _ (Nat.le_refl 8), Nat.sub_self, List.take_zero, List.append_nil]
  rw [stated, toNat_word64, hfront, value_bytes]
  exact Nat.mod_eq_of_lt h

/-- An entry is sought if it names a namespace with a whole number. -/
theorem sought_lay (h : extent e < UInt64.size) :
    Sought (lay e behind) ↔ e.level = netlinkLevel ∧ e.type = nsidType ∧ 4 ≤ e.data.length := by
  have hlevel : word32 ((lay e behind).drop 8) = e.level := by
    rw [lay, drop_bytes_append _ _ _ (Nat.le_refl 8), Nat.sub_self, List.drop_zero,
      word32_bytes32_append]
  have htype : word32 ((lay e behind).drop 12) = e.type := by
    rw [lay, drop_bytes_append _ _ _ (by decide), drop_bytes32_append _ _ (by decide), List.drop_zero,
      word32_bytes32_append]
  have hlong : 20 ≤ extent e ↔ 4 ≤ e.data.length := by
    unfold extent headerSize
    omega
  rw [Sought, hlevel, htype, stated_lay e behind h, hlong]

/-- A whole number behind the header is the one held. -/
theorem held_lay (h : 4 ≤ e.data.length) :
    held (lay e behind) = assigned (word32 e.data).toInt32 := by
  have hdata : word32 ((lay e behind).drop 16) = word32 e.data := by
    rw [drop_lay e behind (Nat.le_refl 16), List.drop_zero, word32, List.take_append_of_le_length h,
      word32]
  rw [held, hdata]
  rfl

/-- An entry fits into a buffer in which it is laid out. -/
theorem fits_lay (h : extent e < UInt64.size) : ¬ Misfit (lay e behind) := by
  rw [Misfit, stated_lay e behind h, length_lay, extent, headerSize]
  omega

/-- The exact reader takes the number of an entry that holds one, and else goes on behind it. -/
theorem seek_lay (h : extent e < UInt64.size) : seek (lay e behind) =
    match e.number? with
    | some id => assigned id
    | none => seek ((lay e behind).drop (padTo8 (extent e))) := by
  have hlong : ¬ (lay e behind).length < 16 := by
    rw [length_lay, extent, headerSize]
    omega
  have hsought := sought_lay e behind h
  have hfits := fits_lay e behind h
  rw [ControlEntry.number?]
  by_cases hnumber : e.level = netlinkLevel ∧ e.type = nsidType ∧ 4 ≤ e.data.length
  · rw [if_pos hnumber, seek, if_neg hlong, if_neg hfits, if_pos (hsought.mpr hnumber),
      held_lay e behind hnumber.2.2]
  · rw [if_neg hnumber, seek_of_other hfits (mt hsought.mp hnumber), stated_lay e behind h]

/-- Behind an entry and its padding stands the next one, or nothing where the padding is cut short. -/
theorem drop_extent {padding rest : Bytes} (hpadding : Padded (extent e) padding rest) :
    (lay e (padding ++ rest)).drop (padTo8 (extent e)) = rest := by
  have hpad := (le_padTo8 (extent e)).1
  rcases hpadding with hfull | ⟨hcut, rfl⟩
  · have hmin : 16 ≤ padTo8 (extent e) := Nat.le_trans (Nat.le_add_right _ _) hpad
    rw [drop_lay e _ hmin, ← List.append_assoc]
    refine List.drop_left' ?_
    unfold extent headerSize at *
    rw [List.length_append]
    omega
  · refine List.drop_of_length_le ?_
    rw [length_lay, List.append_nil]
    omega

end Front

/-- What entries tell is what the first one says, or else what the rest of them tell. -/
theorem told_cons (e : ControlEntry) (entries : List ControlEntry) : told (e :: entries) =
    match e.number? with
    | some id => assigned id
    | none => told entries := by
  rw [told, List.findSome?_cons]
  cases e.number? <;> rfl

/-- A negative number is what entries tell, whatever stands behind it. -/
example : told [{ level := 270, type := 8, data := [255, 255, 255, 255] },
    { level := 270, type := 8, data := [5, 0, 0, 0] }] = none := by
  decide

/-- Of entries that are laid out the exact reader finds what they tell. -/
theorem seek_of_laid {b : Bytes} {entries : List ControlEntry} (hlaid : Laid b entries)
    (hsize : b.length < UInt64.size) : seek b = told entries := by
  induction hlaid with
  | nil => exact seek_of_short (by decide)
  | @cons e padding rest entries hpadding hrest ih =>
    rw [length_lay, List.length_append] at hsize
    rw [seek_lay e _ (by omega), drop_extent e hpadding, ih (by omega), told_cons]

/-- Behind the first entry the rest of them is laid out. -/
theorem laid_drop {b : Bytes} {entries : List ControlEntry} (hlaid : Laid b entries)
    (hheader : 16 ≤ b.length) (hsize : b.length < UInt64.size) :
    ∃ later, Laid (b.drop (padTo8 (stated b))) later := by
  cases hlaid with
  | nil => exact absurd hheader (by decide)
  | @cons e padding rest later hpadding hrest =>
    rw [length_lay] at hsize
    rw [stated_lay e _ (by omega), drop_extent e hpadding]
    exact ⟨later, hrest⟩

section Cut

variable {b : Bytes} {count : Nat}

/-- The length that an entry states is in its first bytes. -/
theorem stated_take (h : 8 ≤ count) : stated (b.take count) = stated b :=
  congrArg UInt64.toNat (word64_take b h)

/-- Whether an entry is sought is in its header. -/
theorem sought_take (h : 16 ≤ count) : Sought (b.take count) ↔ Sought b := by
  rw [Sought, word32_drop_take b (by omega), word32_drop_take b (by omega), stated_take (by omega),
    Sought]

/-- The number that an entry holds is in the four bytes behind its header. -/
theorem held_take (h : 20 ≤ count) : held (b.take count) = held b :=
  congrArg nsidOfWord (word32_drop_take b h)

/-- An entry that fits into the first bytes fits into all of them. -/
theorem fits_of_take (h : 8 ≤ count) (hfits : ¬ Misfit (b.take count)) : ¬ Misfit b := by
  have hle : (b.take count).length ≤ b.length := List.length_take_le' count b
  rw [Misfit, stated_take h] at hfits
  unfold Misfit
  omega

/-- In the first bytes of a buffer the exact reader finds nothing, or what it finds in all of it. -/
theorem seek_take (b : Bytes) (count : Nat) :
    seek (b.take count) = none ∨ seek (b.take count) = seek b := by
  induction hlength : b.length using Nat.strongRecOn generalizing b count with
  | ind length ih =>
    by_cases hshort : (b.take count).length < 16
    · exact Or.inl (seek_of_short hshort)
    by_cases hmisfit : Misfit (b.take count)
    · exact Or.inl (seek_of_misfit hmisfit)
    rw [List.length_take] at hshort
    have hlong : ¬ b.length < 16 := by omega
    have hfits := fits_of_take (by omega) hmisfit
    have hstated : stated (b.take count) = stated b := stated_take (by omega)
    have hsame : Sought (b.take count) ↔ Sought b := sought_take (by omega)
    by_cases hsought : Sought b
    · have htwenty := hsought.2.2
      rw [Misfit, hstated, List.length_take] at hmisfit
      refine Or.inr ?_
      rw [seek, if_neg (by rwa [List.length_take]), if_neg (by rwa [Misfit, hstated, List.length_take]),
        if_pos (hsame.mpr hsought), held_take (by omega), seek, if_neg hlong, if_neg hfits,
        if_pos hsought]
    · have hmin : 16 ≤ stated b := by
        unfold Misfit at hfits
        omega
      have hpad := (le_padTo8 (stated b)).1
      rw [seek_of_other hmisfit (mt hsame.mp hsought), seek_of_other hfits hsought, hstated,
        List.drop_take]
      exact ih _ (by rw [← hlength, List.length_drop]; omega) _ _ rfl

end Cut

section Region

variable {r : Region} {address : UInt64}

/-- A region that is cut still begins where it did. -/
theorem offset_cut (r : Region) (count : Nat) (address : UInt64) :
    (r.cut count).offset address = r.offset address :=
  rfl

/-- What stands behind an address, in the first bytes of a region. -/
theorem behind_cut (r : Region) (count : Nat) (address : UInt64) :
    (r.cut count).behind address = (r.behind address).take (count - r.offset address) :=
  List.drop_take

/-- A header inside a cut region is in front of the cut. -/
theorem header_of_cut {count : Nat} (hin : r.offset address + 16 ≤ (r.cut count).bytes.length) :
    16 ≤ count - r.offset address := by
  rw [Region.cut, List.length_take] at hin
  omega

/-- A sum that is too large at an entry of a cut region is so in the whole region. -/
theorem overflows_of_cut {count : Nat} (hin : r.offset address + 16 ≤ (r.cut count).bytes.length)
    (hover : Overflows (r.cut count) address) : Overflows r address := by
  have hleft := header_of_cut hin
  rw [Overflows, behind_cut, stated_take (by omega), sought_take hleft] at hover
  exact hover.imp_right (Or.imp_right (And.imp_left (fits_of_take (by omega))))

/-- A region that is cut reaches no further. -/
theorem length_cut_le (r : Region) (count : Nat) : (r.cut count).bytes.length ≤ r.bytes.length :=
  List.length_take_le' count r.bytes

/-- A region that is cut is placed where it was. -/
theorem placed_cut (h : r.Placed) (count : Nat) : (r.cut count).Placed :=
  Nat.lt_of_le_of_lt (Nat.add_le_add_left (length_cut_le r count) _) h

/-- From an entry in front of a cut the walk goes on only to where it goes on in the whole region. -/
theorem visit_of_cut {count : Nat} {next : UInt64} (h : r.Placed)
    (hin : r.offset address + 16 ≤ (r.cut count).bytes.length) (hsums : ¬ Overflows r address)
    (hnext : visit (r.cut count) address = .inr next) :
    visit r address = .inr next ∧ r.offset next + 16 ≤ (r.cut count).bytes.length := by
  have hcut := comes_visit (placed_cut h count) hin
  have hwhole := comes_visit h (Nat.le_trans hin (length_cut_le r count))
  have hleft := header_of_cut hin
  rw [hnext] at hcut
  cases hcut with
  | next hfits hother hoffset hinside =>
    rw [behind_cut] at hfits
    rw [behind_cut, sought_take hleft] at hother
    rw [offset_cut, offset_cut, behind_cut, stated_take (by omega)] at hoffset
    rw [offset_cut] at hinside
    refine ⟨?_, hinside⟩
    generalize visit r address = outcome at hwhole ⊢
    cases hwhole with
    | overflow hover => exact absurd hover hsums
    | misfit hmisfit => exact absurd hmisfit (fits_of_take (by omega) hfits)
    | sought _ hsought => exact absurd hsought hother
    | last _ _ hend =>
      have hheader := Nat.le_trans hinside (length_cut_le r count)
      rw [length_behind] at hend
      omega
    | next _ _ hplace _ => exact congrArg Sum.inr (offset_inj (hplace.trans hoffset.symm))

/-- In a cut region the walk comes to no other entry than in the whole one. -/
theorem met_of_cut {count : Nat} (h : r.Placed)
    (hsums : ∀ other, Met r other → ¬ Overflows r other)
    (hmet : Met (r.cut count) address) :
    Met r address ∧ r.offset address + 16 ≤ (r.cut count).bytes.length := by
  induction hmet with
  | first _ hheader =>
    refine ⟨.first h (Nat.le_trans hheader (length_cut_le r count)), ?_⟩
    rwa [show (r.cut count).base = r.base from rfl, offset_base, Nat.zero_add]
  | @next address next hmet hnext ih =>
    obtain ⟨hwhole, hin⟩ := ih
    obtain ⟨hvisit, hinside⟩ := visit_of_cut h hin (hsums address hwhole) hnext
    exact ⟨hwhole.next hvisit, hinside⟩

/-- Where no sum is too large, a cut region is read for the same number or for none. -/
theorem scan_cut (h : r.Placed) (hsums : ∀ other, Met r other → ¬ Overflows r other) (count : Nat) :
    scan (r.cut count) = .answer none ∨ scan (r.cut count) = scan r := by
  have hwhole := scan_eq_seek h hsums
  have hcut := scan_eq_seek (placed_cut h count) fun other hmet hover => by
    obtain ⟨hother, hin⟩ := met_of_cut h hsums hmet
    exact hsums other hother (overflows_of_cut hin hover)
  rw [hcut, hwhole]
  exact (seek_take r.bytes count).imp (congrArg Scan.answer) (congrArg Scan.answer)

/-- At an entry that is laid out at a multiple of eight no sum is too large. -/
theorem not_overflows_of_laid {entries : List ControlEntry} (hroom : r.Roomy)
    (hin : r.offset address + 16 ≤ r.bytes.length) (halign : r.offset address % 8 = 0)
    (hlaid : Laid (r.behind address) entries) : ¬ Overflows r address := by
  have haddress := toNat_address hroom.placed (Nat.le_of_add_right_le hin)
  have hleft := length_behind r address
  have hpad := (le_padTo8 r.bytes.length).1
  unfold Region.Roomy at hroom
  rw [Overflows]
  generalize r.behind address = b at hlaid hleft ⊢
  cases hlaid with
  | nil =>
    rw [List.length_nil] at hleft
    omega
  | @cons e padding rest later hpadding hrest =>
    rw [length_lay] at hleft
    have hround : r.offset address + padTo8 (extent e) ≤ padTo8 r.bytes.length := by
      unfold padTo8
      omega
    rw [stated_lay e _ (by omega)]
    omega

/-- Wherever the walk has come, the rest of the entries is laid out, at a multiple of eight. -/
theorem laid_of_met {entries : List ControlEntry} (hroom : r.Roomy) (hlaid : Laid r.bytes entries)
    (hmet : Met r address) : r.offset address % 8 = 0 ∧
      ∃ later, Laid (r.behind address) later := by
  induction hmet with
  | first =>
    rw [Region.behind, offset_base, List.drop_zero]
    exact ⟨rfl, entries, hlaid⟩
  | @next address next hmet hnext ih =>
    obtain ⟨halign, later, hlater⟩ := ih
    have hcomes := hmet.comes
    rw [hnext] at hcomes
    cases hcomes with
    | next hfits hother hoffset hinside =>
      refine ⟨by rw [hoffset, padTo8]; omega, ?_⟩
      have hin := hmet.header_le
      have hleft := length_behind r address
      have hplaced := hroom.placed
      unfold Region.Placed Region.stop at hplaced
      rw [behind_of_offset hoffset]
      exact laid_drop hlater (by omega) (by omega)

end Region

/-- A buffer of entries that the kernel laid out is read for what they tell, and what is left of it in
front of a cut is read for the same number or for none. -/
theorem scan_laid {r : Region} {entries : List ControlEntry} (hroom : r.Roomy)
    (hlaid : Laid r.bytes entries) : scan r = .answer (told entries) ∧
      ∀ count, scan (r.cut count) = .answer none ∨ scan (r.cut count) = .answer (told entries) := by
  have hplaced := hroom.placed
  have hsums : ∀ other, Met r other → ¬ Overflows r other := by
    intro other hmet
    obtain ⟨halign, later, hlater⟩ := laid_of_met hroom hlaid hmet
    exact not_overflows_of_laid hroom hmet.header_le halign hlater
  have hsize : r.bytes.length < UInt64.size := Nat.lt_of_le_of_lt (Nat.le_add_left _ _) hplaced
  have hscan : scan r = .answer (told entries) := by
    rw [scan_eq_seek hplaced hsums, seek_of_laid hlaid hsize]
  exact ⟨hscan, fun count => hscan ▸ scan_cut hplaced hsums count⟩

/-- An entry of another level, one whose number is not whole, and one that names a namespace. -/
def paddedEntries : List ControlEntry :=
  [{ level := 1, type := 1, data := [9] },
    { level := netlinkLevel, type := nsidType, data := [7, 0, 0] },
    { level := netlinkLevel, type := nsidType, data := [5, 0, 0, 0] }]

/-- An entry with a negative number. -/
def lastEntry : ControlEntry :=
  { level := netlinkLevel, type := nsidType, data := [255, 255, 255, 255] }

/-- A buffer with these entries, which nothing fills up behind the last. -/
def mixedBuffer : Region :=
  ⟨4096, paddedEntries.flatMap encode ++ lay lastEntry []⟩

/-- The number of the third entry is found, and none if the buffer is cut inside that entry. -/
theorem mixedBuffer_scan : mixedBuffer.Roomy ∧
    Laid mixedBuffer.bytes (paddedEntries ++ [lastEntry]) ∧
    scan mixedBuffer = .answer (some 5) ∧ scan (mixedBuffer.cut 67) = .answer none := by
  have hroom : mixedBuffer.Roomy := by decide
  have hlast : Laid (lay lastEntry []) [lastEntry] :=
    @Laid.cons lastEntry [] [] [] (Or.inr ⟨by decide, rfl⟩) .nil
  have hlaid : Laid mixedBuffer.bytes (paddedEntries ++ [lastEntry]) :=
    laid_encode_append paddedEntries hlast
  obtain ⟨hscan, hcut⟩ := scan_laid hroom hlaid
  exact ⟨hroom, hlaid, hscan, (hcut 67).resolve_right (by decide)⟩

end Control

end NetnsWatch
