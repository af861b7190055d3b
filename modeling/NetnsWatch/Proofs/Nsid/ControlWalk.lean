import NetnsWatch.Nsid.Control

/-!
# Walking a control buffer

The reader goes from entry to entry by sixty-four bit addresses, and refuses an entry whose end lies
behind the buffer's. Whatever lengths the entries state, the walk goes forward, looks at nothing
outside the buffer and so ends; and where it answers, its answer is that of a reader that counts
exactly. But the end of an entry is added up before it is compared. A length that carries this sum
past the last address is not refused: the walk stops with a panic instead. The buffers on which it
comes to such a sum are exactly those on which it is not contained.
-/

namespace NetnsWatch

open LittleEndian

namespace Region

/-- How far behind the base an address lies. -/
def offset (r : Region) (address : UInt64) : Nat :=
  (address - r.base).toNat

/-- The bytes from an address on. -/
def behind (r : Region) (address : UInt64) : Bytes :=
  r.bytes.drop (r.offset address)

end Region

namespace Control

/-- The length that the entry at the front states for itself. -/
def stated (b : Bytes) : Nat :=
  (word64 b).toNat

/-- The entry at the front is shorter than a header, or longer than the bytes that are left. -/
def Misfit (b : Bytes) : Prop :=
  stated b < 16 ∨ b.length < stated b

/-- The entry at the front is one that names a namespace. -/
def Sought (b : Bytes) : Prop :=
  word32 (b.drop 8) = netlinkLevel ∧ word32 (b.drop 12) = nsidType ∧ 20 ≤ stated b

/-- The number that the entry at the front holds, unless it is negative. -/
def held (b : Bytes) : Option NsId :=
  nsidOfWord (word32 (b.drop 16))

instance (b : Bytes) : Decidable (Misfit b) :=
  inferInstanceAs (Decidable (_ ∨ _))

instance (b : Bytes) : Decidable (Sought b) :=
  inferInstanceAs (Decidable (_ ∧ _))

/-- The number beside a datagram, by a reader that counts exactly. -/
def seek (b : Bytes) : Option NsId :=
  if b.length < 16 then none
  else if Misfit b then none
  else if Sought b then held b
  else seek (b.drop (padTo8 (stated b)))
  termination_by b.length
  decreasing_by
    rename_i hshort hfits _
    unfold Misfit at hfits
    rw [List.length_drop, padTo8]
    omega

/-- The walk comes to an entry at this address. -/
inductive Met (r : Region) : UInt64 → Prop
  | first (hplaced : r.Placed) (hheader : 16 ≤ r.bytes.length) : Met r r.base
  | next {address next : UInt64} (h : Met r address) (hnext : visit r address = .inr next) :
      Met r next

/-- A sum that is taken at an entry has more than sixty-four bits: that of the entry's end, or, if the
entry fits and is passed over, that of the next entry's address. The end of an entry that is shorter
than a header is not looked at. -/
def Overflows (r : Region) (address : UInt64) : Prop :=
  16 ≤ stated (r.behind address) ∧
    (UInt64.size ≤ address.toNat + stated (r.behind address) ∨
      ¬ Misfit (r.behind address) ∧ ¬ Sought (r.behind address) ∧
        UInt64.size ≤ address.toNat + padTo8 (stated (r.behind address)))

instance (r : Region) (address : UInt64) : Decidable (Overflows r address) :=
  inferInstanceAs (Decidable (_ ∧ _))

/-- What holds of every walk. It ends, with an answer or with a panic; it goes forward and looks for
nothing outside the buffer; an answer is that of the exact reader; and an entry that does not fit ends
it, with no number or with a panic. -/
structure Guarded (r : Region) : Prop where
  ends : (∃ nsid, scan r = .answer nsid) ∨ scan r = .overflow
  forward : ∀ address next, Met r address → visit r address = .inr next →
    r.offset address < r.offset next
  inside : ∀ address, Met r address → r.offset address + 16 ≤ r.bytes.length ∧
    ∀ other, visit r address ≠ .inl (.outside other)
  answers : ∀ nsid, scan r = .answer nsid → nsid = seek r.bytes
  refuses : ∀ address, Met r address → Misfit (r.behind address) →
    visit r address = .inl (scan r) ∧ (scan r = .answer none ∨ scan r = .overflow)

/-- The walk ends with an answer. It goes forward, looks for nothing outside the buffer, and answers
that there is no number as soon as it comes to an entry that does not fit. -/
structure Contained (r : Region) : Prop where
  ends : ∃ nsid, scan r = .answer nsid
  forward : ∀ address next, Met r address → visit r address = .inr next →
    r.offset address < r.offset next
  inside : ∀ address, Met r address → r.offset address + 16 ≤ r.bytes.length ∧
    ∀ other, visit r address ≠ .inl (.outside other)
  stops : ∀ address, Met r address → Misfit (r.behind address) →
    visit r address = .inl (.answer none) ∧ scan r = .answer none

/-- A part of a number under a mask and the part beside the mask add up to the number. -/
theorem and_not_add_and (n mask : UInt64) : (n &&& ~~~mask) + (n &&& mask) = n := by
  have hdisjoint : (n.toBitVec &&& ~~~mask.toBitVec) &&& (n.toBitVec &&& mask.toBitVec) = 0#64 := by
    ext i hi
    simp only [BitVec.getElem_and, BitVec.getElem_not, BitVec.getElem_zero]
    cases n.toBitVec[i] <;> cases mask.toBitVec[i] <;> rfl
  apply UInt64.toBitVec_inj.mp
  refine (BitVec.add_eq_or_of_and_eq_zero _ _ hdisjoint).trans ?_
  ext i hi
  simp only [BitVec.getElem_or, BitVec.getElem_and, BitVec.getElem_not]
  cases n.toBitVec[i] <;> cases mask.toBitVec[i] <;> rfl

/-- Clearing the lowest three bits rounds down to a multiple of eight. -/
theorem toNat_and_not_seven (n : UInt64) : (n &&& ~~~7).toNat = n.toNat / 8 * 8 := by
  have hlow : (n &&& 7).toNat = n.toNat % 8 := by
    have hmask : (7 : UInt64).toNat = 2 ^ 3 - 1 := rfl
    rw [UInt64.toNat_and, hmask, Nat.and_two_pow_sub_one_eq_mod]
  have hhigh : (n &&& ~~~7).toNat ≤ n.toNat := by
    rw [UInt64.toNat_and]
    exact Nat.and_le_left
  have hsum := congrArg UInt64.toNat (and_not_add_and n 7)
  have hlt := n.toNat_lt
  rw [UInt64.toNat_add, hlow] at hsum
  omega

/-- Padding moves a length up, by less than eight. -/
theorem le_padTo8 (n : Nat) : n ≤ padTo8 n ∧ padTo8 n < n + 8 := by
  unfold padTo8
  omega

section Sums

/-- A word that stands for a number, if the number has no more bits than a word. -/
def WordOf (sum : Option UInt64) (n : Nat) : Prop :=
  ∀ word, sum = some word ↔ word.toNat = n

variable {sum : Option UInt64} {n : Nat}

/-- A number with more bits than a word has no word. -/
theorem WordOf.eq_none (h : WordOf sum n) (hlarge : UInt64.size ≤ n) : sum = none := by
  refine Option.eq_none_iff_forall_ne_some.mpr fun word hword => ?_
  have hlt := word.toNat_lt
  rw [(h word).mp hword] at hlt
  exact absurd hlt (Nat.not_lt.mpr hlarge)

/-- Any other number has one. -/
theorem WordOf.exists_word (h : WordOf sum n) (hsmall : n < UInt64.size) :
    ∃ word, sum = some word ∧ word.toNat = n := by
  have hword : (UInt64.ofNat n).toNat = n := by
    rw [UInt64.toNat_ofNat']
    exact Nat.mod_eq_of_lt hsmall
  exact ⟨UInt64.ofNat n, (h _).mpr hword, hword⟩

/-- Sums of words are exact. -/
theorem wordOf_add? (a b : UInt64) : WordOf (add? a b) (a.toNat + b.toNat) := by
  intro word
  have hword := word.toNat_lt
  rw [add?]
  split
  · rename_i hsmall
    rw [Option.some.injEq, ← UInt64.toNat_inj, UInt64.toNat_add, Nat.mod_eq_of_lt hsmall]
    exact eq_comm
  · rename_i hlarge
    refine iff_of_false (fun hnone => by cases hnone) fun hsame => hlarge ?_
    rw [← hsame]
    exact hword

/-- Rounding up in words is rounding up. -/
theorem wordOf_align8? (a : UInt64) : WordOf (align8? a) (padTo8 a.toNat) := by
  intro word
  have hword := word.toNat_lt
  have hseven : (7 : UInt64).toNat = 7 := rfl
  have hadd := wordOf_add? a 7
  rw [hseven] at hadd
  rw [align8?, padTo8]
  by_cases hsmall : a.toNat + 7 < UInt64.size
  · obtain ⟨raised, hraised, hvalue⟩ := hadd.exists_word hsmall
    rw [hraised, Option.map_some, Option.some.injEq, ← UInt64.toNat_inj, toNat_and_not_seven, hvalue]
    exact eq_comm
  · rw [hadd.eq_none (Nat.le_of_not_lt hsmall), Option.map_none]
    refine iff_of_false (fun hnone => by cases hnone) fun hsame => ?_
    unfold UInt64.size at hsmall
    omega

/-- The address of the next entry is the exact one. -/
theorem wordOf_onward? (address length : UInt64) :
    WordOf (onward? address length) (address.toNat + padTo8 length.toNat) := by
  intro word
  have hword : word.toNat < UInt64.size := word.toNat_lt
  rw [onward?]
  by_cases hsmall : padTo8 length.toNat < UInt64.size
  · obtain ⟨padded, hpadded, hvalue⟩ := (wordOf_align8? length).exists_word hsmall
    rw [hpadded, Option.bind_some, ← hvalue]
    exact wordOf_add? address padded word
  · rw [(wordOf_align8? length).eq_none (Nat.le_of_not_lt hsmall), Option.bind_none]
    refine iff_of_false (fun hnone => by cases hnone) fun hsame => hsmall ?_
    omega

end Sums

section Addresses

variable {r : Region} {address : UInt64}

/-- An address inside the region is the base and the offset. -/
theorem toNat_address (h : r.Placed) (hin : r.offset address ≤ r.bytes.length) :
    address.toNat = r.base.toNat + r.offset address := by
  unfold Region.Placed Region.stop at h
  have hbase := r.base.toNat_lt
  have haddress := address.toNat_lt
  rw [Region.offset, UInt64.toNat_sub] at *
  unfold UInt64.size at h
  omega

/-- An address that is the base and a number lies so far behind the base. -/
theorem offset_of_toNat {count : Nat} (h : address.toNat = r.base.toNat + count) :
    r.offset address = count := by
  have hbase := r.base.toNat_lt
  have haddress := address.toNat_lt
  rw [Region.offset, UInt64.toNat_sub]
  omega

/-- An address is known by its offset. -/
theorem offset_inj {other : UInt64} (h : r.offset address = r.offset other) : address = other := by
  have hsub := UInt64.toNat_inj.mp h
  rw [← UInt64.sub_add_cancel address r.base, hsub, UInt64.sub_add_cancel]

/-- What stands behind an address further on. -/
theorem behind_of_offset {next : UInt64} {count : Nat}
    (h : r.offset next = r.offset address + count) :
    r.behind next = (r.behind address).drop count := by
  rw [Region.behind, Region.behind, List.drop_drop, h]

/-- At the base is the whole region. -/
theorem offset_base (r : Region) : r.offset r.base = 0 := by
  rw [Region.offset, UInt64.sub_self]
  rfl

/-- The bytes behind an address. -/
theorem length_behind (r : Region) (address : UInt64) :
    (r.behind address).length = r.bytes.length - r.offset address :=
  List.length_drop

end Addresses

section Visit

variable {r : Region} {address : UInt64}

/-- What looking for the number of an entry comes to. -/
def number (r : Region) (address : UInt64) : Scan :=
  match r.read? (address + 16) 4 with
  | none => .outside (address + 16)
  | some data => .answer (nsidOfWord (word32 data))

/-- The number of an entry that has room for one is the one held. -/
theorem number_eq (h : r.Placed) (hin : r.offset address + 20 ≤ r.bytes.length) :
    number r address = .answer (held (r.behind address)) := by
  have haddress := toNat_address h (Nat.le_of_add_right_le hin)
  have hsixteen : (16 : UInt64).toNat = 16 := rfl
  have hoffset : r.offset (address + 16) = r.offset address + 16 := by
    unfold Region.Placed Region.stop UInt64.size at h
    refine offset_of_toNat ?_
    rw [UInt64.toNat_add, hsixteen]
    omega
  have hread : r.read? (address + 16) 4 = some ((r.behind (address + 16)).take 4) := by
    refine if_pos ?_
    change r.offset (address + 16) + 4 ≤ r.bytes.length
    rwa [hoffset]
  have hword : word32 ((r.behind (address + 16)).take 4) = word32 ((r.behind address).drop 16) := by
    rw [behind_of_offset hoffset, word32, List.take_take, word32]
    rfl
  rw [number, hread]
  exact congrArg (fun word => Scan.answer (nsidOfWord word)) hword

/-- An entry whose header is inside the buffer is judged by what stands behind its address. -/
theorem visit_eq (hin : r.offset address + 16 ≤ r.bytes.length) : visit r address =
    if stated (r.behind address) < 16 then .inl (.answer none)
    else match add? address (word64 (r.behind address)) with
      | none => .inl .overflow
      | some last =>
        if r.stop < last.toNat then .inl (.answer none)
        else if Sought (r.behind address) then .inl (number r address)
        else match onward? address (word64 (r.behind address)) with
          | none => .inl .overflow
          | some next =>
            if r.stop < next.toNat + 16 then .inl (.answer none) else .inr next := by
  have hread : r.read? address headerSize = some ((r.behind address).take 16) := if_pos hin
  have hlength : word64 ((r.behind address).take 16) = word64 (r.behind address) :=
    word64_take _ (by decide)
  have hlevel : word32 (((r.behind address).take 16).drop 8) = word32 ((r.behind address).drop 8) :=
    word32_drop_take _ (by decide)
  have htype : word32 (((r.behind address).take 16).drop 12) = word32 ((r.behind address).drop 12) :=
    word32_drop_take _ (by decide)
  have hsought : Sought (r.behind address) ↔ word32 ((r.behind address).drop 8) = netlinkLevel ∧
      word32 ((r.behind address).drop 12) = nsidType ∧ 20 ≤ word64 (r.behind address) := by
    rw [UInt64.le_iff_toNat_le]
    rfl
  have hshort : stated (r.behind address) < 16 ↔ word64 (r.behind address) < 16 := by
    rw [UInt64.lt_iff_toNat_lt]
    rfl
  simp only [visit, hread, hlength, hlevel, htype, hsought, hshort]
  unfold number
  cases r.read? (address + 16) 4 <;> rfl

/-- An entry whose end is an address is refused exactly if it does not fit. -/
theorem visit_of_end (h : r.Placed) (hin : r.offset address + 16 ≤ r.bytes.length)
    (hlong : 16 ≤ stated (r.behind address))
    (hend : address.toNat + stated (r.behind address) < UInt64.size) : visit r address =
    if Misfit (r.behind address) then .inl (.answer none)
    else if Sought (r.behind address) then .inl (number r address)
    else match onward? address (word64 (r.behind address)) with
      | none => .inl .overflow
      | some next => if r.stop < next.toNat + 16 then .inl (.answer none) else .inr next := by
  have haddress := toNat_address h (Nat.le_of_add_right_le hin)
  have hleft := length_behind r address
  obtain ⟨last, hlast, hvalue⟩ := (wordOf_add? address (word64 (r.behind address))).exists_word hend
  have hbeyond : r.stop < last.toNat ↔ Misfit (r.behind address) := by
    rw [hvalue, ← stated, Region.stop, Misfit]
    omega
  rw [visit_eq hin, if_neg (Nat.not_lt.mpr hlong), hlast]
  simp only [hbeyond]

/-- Where a sum has more bits than a word, the walk stops with a panic. -/
theorem visit_of_overflows (h : r.Placed) (hin : r.offset address + 16 ≤ r.bytes.length)
    (hover : Overflows r address) : visit r address = .inl .overflow := by
  obtain ⟨hlong, hsum⟩ := hover
  by_cases hcarry : UInt64.size ≤ address.toNat + stated (r.behind address)
  · rw [visit_eq hin, if_neg (Nat.not_lt.mpr hlong), (wordOf_add? address _).eq_none hcarry]
  · obtain ⟨hfits, hother, hstep⟩ := hsum.resolve_left hcarry
    rw [visit_of_end h hin hlong (Nat.lt_of_not_le hcarry), if_neg hfits, if_neg hother,
      (wordOf_onward? address _).eq_none hstep]

/-- What an entry comes to. -/
inductive Comes (r : Region) (address : UInt64) : Scan ⊕ UInt64 → Prop
  | overflow (hover : Overflows r address) : Comes r address (.inl .overflow)
  | misfit (hmisfit : Misfit (r.behind address)) : Comes r address (.inl (.answer none))
  | sought (hfits : ¬ Misfit (r.behind address)) (hsought : Sought (r.behind address)) :
      Comes r address (.inl (.answer (held (r.behind address))))
  | last (hfits : ¬ Misfit (r.behind address)) (hother : ¬ Sought (r.behind address))
      (hend : (r.behind address).length < padTo8 (stated (r.behind address)) + 16) :
      Comes r address (.inl (.answer none))
  | next {next : UInt64} (hfits : ¬ Misfit (r.behind address))
      (hother : ¬ Sought (r.behind address))
      (hoffset : r.offset next = r.offset address + padTo8 (stated (r.behind address)))
      (hinside : r.offset next + 16 ≤ r.bytes.length) : Comes r address (.inr next)

/-- Every entry whose header is inside the buffer comes to one of these. -/
theorem comes_visit (h : r.Placed) (hin : r.offset address + 16 ≤ r.bytes.length) :
    Comes r address (visit r address) := by
  by_cases hover : Overflows r address
  · rw [visit_of_overflows h hin hover]
    exact .overflow hover
  by_cases hshort : stated (r.behind address) < 16
  · rw [visit_eq hin, if_pos hshort]
    exact .misfit (Or.inl hshort)
  have hlong : 16 ≤ stated (r.behind address) := Nat.le_of_not_lt hshort
  have hend : address.toNat + stated (r.behind address) < UInt64.size :=
    Nat.lt_of_not_le fun hcarry => hover ⟨hlong, Or.inl hcarry⟩
  rw [visit_of_end h hin hlong hend]
  by_cases hmisfit : Misfit (r.behind address)
  · rw [if_pos hmisfit]
    exact .misfit hmisfit
  rw [if_neg hmisfit]
  have hleft := length_behind r address
  by_cases hsought : Sought (r.behind address)
  · have hwhole := hsought.2.2
    have hroom : r.offset address + 20 ≤ r.bytes.length := by
      unfold Misfit at hmisfit
      omega
    rw [if_pos hsought, number_eq h hroom]
    exact .sought hmisfit hsought
  have hstep : address.toNat + padTo8 (stated (r.behind address)) < UInt64.size :=
    Nat.lt_of_not_le fun hcarry => hover ⟨hlong, Or.inr ⟨hmisfit, hsought, hcarry⟩⟩
  obtain ⟨next, hnext, hplace⟩ :=
    (wordOf_onward? address (word64 (r.behind address))).exists_word hstep
  rw [← stated, toNat_address h (Nat.le_of_add_right_le hin), Nat.add_assoc] at hplace
  rw [if_neg hsought, hnext]
  dsimp only
  by_cases hheader : r.stop < next.toNat + 16
  · rw [if_pos hheader]
    rw [hplace, Region.stop] at hheader
    exact .last hmisfit hsought (by omega)
  · rw [if_neg hheader]
    rw [hplace, Region.stop] at hheader
    exact .next hmisfit hsought (offset_of_toNat hplace) (by rw [offset_of_toNat hplace]; omega)

end Visit

section Walk

variable {r : Region} {address : UInt64} {outcome : Scan}

/-- Fewer bytes than a header has hold no number. -/
theorem seek_of_short {b : Bytes} (h : b.length < 16) : seek b = none := by
  rw [seek, if_pos h]

/-- The exact reader goes on behind an entry that fits and is not the one sought. -/
theorem seek_of_other {b : Bytes} (hfits : ¬ Misfit b) (hother : ¬ Sought b) :
    seek b = seek (b.drop (padTo8 (stated b))) := by
  by_cases hshort : b.length < 16
  · rw [seek_of_short hshort, seek_of_short (by rw [List.length_drop]; omega)]
  · conv => lhs; rw [seek, if_neg hshort, if_neg hfits, if_neg hother]

/-- An entry that does not fit ends the exact reader's search. -/
theorem seek_of_misfit {b : Bytes} (hmisfit : Misfit b) : seek b = none := by
  rw [seek, if_pos hmisfit, ite_self]

/-- A walk begins only where the buffer's end is an address. -/
theorem Met.placed (hmet : Met r address) : r.Placed := by
  induction hmet with
  | first hplaced => exact hplaced
  | next _ _ ih => exact ih

/-- Every entry that the walk comes to has its header inside the buffer. -/
theorem Met.header_le (hmet : Met r address) : r.offset address + 16 ≤ r.bytes.length := by
  induction hmet with
  | first _ hheader => rwa [offset_base, Nat.zero_add]
  | next hmet hnext ih =>
    have hcomes := comes_visit hmet.placed ih
    rw [hnext] at hcomes
    cases hcomes with
    | next _ _ _ hinside => exact hinside

/-- What an entry of the walk comes to. -/
theorem Met.comes (hmet : Met r address) : Comes r address (visit r address) :=
  comes_visit hmet.placed hmet.header_le

/-- A step goes forward by a header at least. -/
theorem Met.forward {next : UInt64} (hmet : Met r address) (hnext : visit r address = .inr next) :
    r.offset address + 16 ≤ r.offset next := by
  have hcomes := hmet.comes
  rw [hnext] at hcomes
  cases hcomes with
  | next hfits _ hoffset _ =>
    have hpad := (le_padTo8 (stated (r.behind address))).1
    unfold Misfit at hfits
    omega

/-- From this address the walk ends with this outcome. -/
inductive Ends (r : Region) : UInt64 → Scan → Prop
  | here {address : UInt64} {outcome : Scan} (h : visit r address = .inl outcome) :
      Ends r address outcome
  | onward {address next : UInt64} {outcome : Scan} (h : visit r address = .inr next)
      (hrest : Ends r next outcome) : Ends r address outcome

/-- As many steps as there is room for headers end the walk. -/
theorem Met.ends_follow (steps : Nat) (hmet : Met r address)
    (hsteps : r.bytes.length < r.offset address + 16 * steps) :
    Ends r address (follow r steps address) := by
  induction steps generalizing address with
  | zero =>
    have hheader := hmet.header_le
    omega
  | succ steps ih =>
    rw [follow]
    cases hvisit : visit r address with
    | inl outcome => exact .here hvisit
    | inr next =>
      have hforward := hmet.forward hvisit
      exact .onward hvisit (ih (hmet.next hvisit) (by omega))

/-- Wherever the walk has come, it ends with what the scan comes to. -/
theorem Met.ends (hmet : Met r address) : Ends r address (scan r) := by
  induction hmet with
  | first hplaced hheader =>
    have hmet : Met r r.base := .first hplaced hheader
    rw [scan, if_neg (not_not_intro hplaced), headerSize, if_neg (Nat.not_lt.mpr hheader)]
    exact hmet.ends_follow _ (by rw [offset_base]; omega)
  | next _ hnext ih =>
    cases ih with
    | here hvisit =>
      rw [hnext] at hvisit
      cases hvisit
    | onward hvisit hrest =>
      rw [hnext] at hvisit
      cases hvisit
      exact hrest

/-- The outcome at an entry of the walk is that of the scan. -/
theorem Met.scan_eq (hmet : Met r address) (hvisit : visit r address = .inl outcome) :
    scan r = outcome := by
  cases hmet.ends with
  | here hhere =>
    rw [hvisit] at hhere
    exact (Sum.inl.inj hhere).symm
  | onward hnext =>
    rw [hvisit] at hnext
    cases hnext

/-- A walk ends with the exact reader's answer, or at an entry where a sum has more bits than a
word. -/
theorem Ends.answer_or_overflow (hends : Ends r address outcome) (hmet : Met r address) :
    outcome = .answer (seek (r.behind address)) ∨
      outcome = .overflow ∧ ∃ other, Met r other ∧ Overflows r other := by
  induction hends with
  | @here address outcome hvisit =>
    have hheader := hmet.header_le
    have hleft := length_behind r address
    have hlong : ¬ (r.behind address).length < 16 := by omega
    have hcomes := hmet.comes
    rw [hvisit] at hcomes
    cases hcomes with
    | overflow hover => exact Or.inr ⟨rfl, address, hmet, hover⟩
    | misfit hmisfit => exact Or.inl (by rw [seek_of_misfit hmisfit])
    | sought hfits hsought => exact Or.inl (by rw [seek, if_neg hlong, if_neg hfits, if_pos hsought])
    | last hfits hother hend =>
      refine Or.inl ?_
      rw [seek_of_other hfits hother, seek_of_short (by rw [List.length_drop]; omega)]
  | @onward address next outcome hvisit hrest ih =>
    have hcomes := hmet.comes
    rw [hvisit] at hcomes
    cases hcomes with
    | next hfits hother hoffset _ =>
      rw [seek_of_other hfits hother, ← behind_of_offset hoffset]
      exact ih (hmet.next hvisit)

/-- A scan comes to the exact reader's answer, or to a sum that has more bits than a word. -/
theorem scan_cases (r : Region) : scan r = .answer (seek r.bytes) ∨
    scan r = .overflow ∧ (¬ r.Placed ∨ ∃ address, Met r address ∧ Overflows r address) := by
  by_cases hplaced : r.Placed
  · by_cases hshort : r.bytes.length < 16
    · rw [scan, if_neg (not_not_intro hplaced), headerSize, if_pos hshort, seek_of_short hshort]
      exact Or.inl rfl
    · have hmet : Met r r.base := .first hplaced (Nat.le_of_not_lt hshort)
      have hends := hmet.ends.answer_or_overflow hmet
      rw [Region.behind, offset_base, List.drop_zero] at hends
      exact hends.imp_right (And.imp_right Or.inr)
  · rw [scan, if_pos hplaced]
    exact Or.inr ⟨rfl, Or.inl hplaced⟩

/-- Where no sum has more bits than a word, a scan comes to the exact reader's answer. -/
theorem scan_eq_seek (h : r.Placed) (hsums : ∀ other, Met r other → ¬ Overflows r other) :
    scan r = .answer (seek r.bytes) := by
  rcases scan_cases r with hanswer | ⟨-, hunplaced | ⟨other, hmet, hover⟩⟩
  · exact hanswer
  · exact absurd h hunplaced
  · exact absurd hover (hsums other hmet)

/-- Every walk is guarded. -/
theorem guarded (r : Region) : Guarded r where
  ends := (scan_cases r).imp (fun hanswer => ⟨_, hanswer⟩) And.left
  forward address next hmet hnext := by
    have hforward := hmet.forward hnext
    omega
  inside address hmet := by
    refine ⟨hmet.header_le, fun other hother => ?_⟩
    have hcomes := hmet.comes
    rw [hother] at hcomes
    cases hcomes
  answers nsid hnsid := by
    rcases scan_cases r with hanswer | ⟨hoverflow, -⟩
    · rw [hanswer] at hnsid
      exact (Scan.answer.inj hnsid).symm
    · rw [hoverflow] at hnsid
      cases hnsid
  refuses address hmet hmisfit := by
    have hcomes := hmet.comes
    generalize hvisit : visit r address = result at hcomes
    cases hcomes with
    | overflow =>
      have hscan := hmet.scan_eq hvisit
      exact ⟨by rw [hscan], Or.inr hscan⟩
    | misfit =>
      have hscan := hmet.scan_eq hvisit
      exact ⟨by rw [hscan], Or.inl hscan⟩
    | sought hfits => exact absurd hmisfit hfits
    | last hfits => exact absurd hmisfit hfits
    | next hfits => exact absurd hmisfit hfits

end Walk

/-- Every walk is guarded, and it is contained on exactly those buffers whose end is an address and on
which no sum has more bits than a word at an entry that it comes to. -/
theorem contained_iff (r : Region) : Guarded r ∧
    (Contained r ↔ r.Placed ∧ ∀ address, Met r address → ¬ Overflows r address) := by
  have hguarded := guarded r
  refine ⟨hguarded, fun hcontained => ?_, fun ⟨hplaced, hsums⟩ => ?_⟩
  · obtain ⟨nsid, hanswer⟩ := hcontained.ends
    refine ⟨?_, fun address hmet hover => ?_⟩
    · refine Decidable.byContradiction fun hunplaced => ?_
      rw [scan, if_pos hunplaced] at hanswer
      cases hanswer
    · rw [hmet.scan_eq (visit_of_overflows hmet.placed hmet.header_le hover)] at hanswer
      cases hanswer
  · have hanswer := scan_eq_seek hplaced hsums
    refine ⟨⟨_, hanswer⟩, hguarded.forward, hguarded.inside, fun address hmet hmisfit => ?_⟩
    obtain ⟨hvisit, hscan⟩ := hguarded.refuses address hmet hmisfit
    have hnone : scan r = .answer none := by
      refine hscan.resolve_right fun hoverflow => ?_
      rw [hanswer] at hoverflow
      cases hoverflow
    exact ⟨hnone ▸ hvisit, hnone⟩

/-- An entry of another level, and behind it one that is sought but states a length close to the
greatest, which ends just below the last address. -/
def overlongSecond : Region :=
  ⟨4096, encode { level := 1, type := 1, data := [3, 0, 0, 0] } ++
    (bytes 8 (UInt64.size - 8192) ++ (bytes32 netlinkLevel ++ (bytes32 nsidType ++
      [5, 0, 0, 0, 0, 0, 0, 0])))⟩

/-- The walk of this buffer is contained: it comes to both entries, and stops at the second. -/
theorem overlongSecond_contained : overlongSecond.Placed ∧
    (∀ address, Met overlongSecond address → ¬ Overflows overlongSecond address) ∧
    Contained overlongSecond ∧ Met overlongSecond 4120 ∧
    scan overlongSecond = .answer none := by
  have hplaced : overlongSecond.Placed := by decide
  have hfirst : visit overlongSecond 4096 = .inr 4120 := by decide
  have hsecond : visit overlongSecond 4120 = .inl (.answer none) := by decide
  have hmet : ∀ address, Met overlongSecond address → address = 4096 ∨ address = 4120 := by
    intro address hmet
    induction hmet with
    | first => exact Or.inl rfl
    | next _ hnext ih =>
      rcases ih with rfl | rfl
      · rw [hfirst] at hnext
        exact Or.inr (Sum.inr.inj hnext).symm
      · rw [hsecond] at hnext
        cases hnext
  have hsums : ∀ address, Met overlongSecond address → ¬ Overflows overlongSecond address := by
    intro address hat
    rcases hmet address hat with rfl | rfl
    · decide
    · decide
  exact ⟨hplaced, hsums, (contained_iff overlongSecond).2.mpr ⟨hplaced, hsums⟩,
    (Met.first hplaced (by decide)).next hfirst, by decide⟩

/-- One entry that is sought, whose length carries its end past the last address. -/
def carriedPast : Region :=
  ⟨4096, bytes 8 (UInt64.size - 8) ++ (bytes32 netlinkLevel ++ (bytes32 nsidType ++
    [5, 0, 0, 0, 0, 0, 0, 0]))⟩

/-- The walk does not refuse this entry, although it is longer than the buffer: it panics there. -/
theorem carriedPast_not_contained : carriedPast.Placed ∧ Met carriedPast 4096 ∧
    Misfit (carriedPast.behind 4096) ∧ nsid carriedPast = .error .overflow ∧
    ¬ Contained carriedPast := by
  have hplaced : carriedPast.Placed := by decide
  have hmet : Met carriedPast 4096 := .first hplaced (by decide)
  have hmisfit : Misfit (carriedPast.behind 4096) := by decide
  have hscan : scan carriedPast = .overflow := by decide
  have hpanic : nsid carriedPast = .error .overflow := by rw [nsid, hscan]
  refine ⟨hplaced, hmet, hmisfit, hpanic, fun hcontained => ?_⟩
  have hnone := (hcontained.stops 4096 hmet hmisfit).2
  rw [hscan] at hnone
  cases hnone

end Control

end NetnsWatch
