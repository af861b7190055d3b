import NetnsWatch.Proofs.Ring.Contents
import NetnsWatch.Proofs.Ring.Passage
import NetnsWatch.Proofs.Ring.Stray

/-!
# Reserved space that is never committed

A writer that reserves space and does not commit it leaves zeros there, and the reader takes these
for a frame that is still to come. So it delivers what was committed before the first such space and
then waits for ever, while writers go on behind it as long as there is room. No word outside a
committed frame is ever anything but zero, so no old bytes are taken for a header, however often the
space has been used before.
-/

namespace NetnsWatch.Ring

open Memory

/-- The records that were committed before the first reservation. -/
def unblocked : List Booking → List Bytes
  | .committed record :: later => record :: unblocked later
  | .reserved _ :: _ => []
  | [] => []

/-- The words of a row of stretches. -/
def spread (pending : List Booking) : List UInt64 :=
  pending.flatMap Booking.words

/-- The room of a row of stretches. -/
def roomOf (pending : List Booking) : Nat :=
  (pending.map Booking.room).sum

/-- These stretches stand between the positions, each for a record of a permitted length. -/
structure Queues (r : Ring) (pending : List Booking) : Prop where
  spans : r.Spans (spread pending)
  lengths : ∀ booking ∈ pending, 1 ≤ booking.length ∧ booking.length ≤ maxLength

/-- What a ring in which these stretches are pending shows to its two ends: every word outside the
committed frames is zero, the reader gets the records before the first reservation and finds nothing
after them, and a writer is turned away exactly when its record does not fit beside the stretches. -/
structure Presents (capacity : UInt64) (r : Ring) (pending : List Booking) : Prop where
  cleared : ∀ position, r.memory.load position ≠ 0 → ∃ before record after,
    pending = before ++ .committed record :: after ∧
      r.memory.Covers (r.consumer + 8 * UInt64.ofNat (spread before).length)
        (1 + payloadWords record.length) position
  next_eq : r.next.1 = .ok (unblocked pending).head?
  hasCommitted_eq : r.hasCommitted = !(unblocked pending).isEmpty
  submit_iff : ∀ record, (r.submit record).1 = .accepted ↔
    1 ≤ record.length ∧ record.length ≤ maxLength ∧
      roomOf pending + (Booking.committed record).room ≤ capacity.toNat
  reserve_iff : ∀ length, (r.reserve length).isSome = true ↔
    1 ≤ length ∧ length ≤ maxLength ∧
      roomOf pending + (Booking.reserved length).room ≤ capacity.toNat

section

variable {capacity : UInt64} {r : Ring} {pending : List Booking}

/-- A stretch takes eight bytes for each of its words, and so does a row of them. -/
theorem roomOf_eq (pending : List Booking) : roomOf pending = 8 * (spread pending).length := by
  induction pending with
  | nil => rfl
  | cons booking later ih =>
    unfold roomOf spread at *
    rw [List.map_cons, List.sum_cons, List.flatMap_cons, List.length_append, ih, booking.room_eq,
      Nat.mul_add]

/-- A stretch added to a row comes last. -/
theorem spread_append_singleton (pending : List Booking) (booking : Booking) :
    spread (pending ++ [booking]) = spread pending ++ booking.words := by
  rw [spread, List.flatMap_append, List.flatMap_singleton, spread]

/-- What was delivered comes before what is not blocked. -/
theorem unblocked_map_append (records : List Bytes) (pending : List Booking) :
    unblocked (records.map .committed ++ pending) = records ++ unblocked pending := by
  induction records with
  | nil => rfl
  | cons record records ih => rw [List.map_cons, List.cons_append, unblocked, ih, List.cons_append]

/-- A word of a row of stretches that is not zero is one of a committed frame. -/
theorem exists_committed_of_ne_zero (pending : List Booking) {i : Nat} {word : UInt64}
    (hword : (spread pending)[i]? = some word) (hne : word ≠ 0) :
    ∃ before record after, pending = before ++ .committed record :: after ∧
      (spread before).length ≤ i ∧ i < (spread before).length + (1 + payloadWords record.length) := by
  induction pending generalizing i with
  | nil => cases hword
  | cons booking later ih =>
    rw [spread, List.flatMap_cons] at hword
    by_cases hfirst : i < booking.words.length
    · rw [List.getElem?_append_left hfirst] at hword
      cases booking with
      | committed record =>
        rw [Booking.words, length_frame] at hfirst
        exact ⟨[], record, later, rfl, Nat.zero_le _, by simpa [spread] using hfirst⟩
      | reserved length =>
        have hzero := List.eq_of_mem_replicate (List.mem_of_getElem? hword)
        exact absurd hzero hne
    · rw [List.getElem?_append_right (Nat.le_of_not_lt hfirst)] at hword
      obtain ⟨before, record, after, hlater, hle, hlt⟩ := ih hword
      refine ⟨booking :: before, record, after, by rw [hlater, List.cons_append], ?_⟩
      have hlength : (spread (booking :: before)).length =
          booking.words.length + (spread before).length := by
        rw [spread, List.flatMap_cons, List.length_append, spread]
      omega

/-- A fresh ring queues nothing. -/
theorem queues_create (hcreate : create capacity = .ok r) : r.Queues [] :=
  ⟨(holds_create hcreate).1.spans, fun _ hmem => absurd hmem List.not_mem_nil⟩

/-- A stretch that is booked comes last. -/
theorem Queues.book (h : r.Queues pending) (booking : Booking) (hfits : r.Fits booking.length)
    {after : Ring} (hspans : after.Spans (spread pending ++ booking.words)) :
    after.Queues (pending ++ [booking]) := by
  refine ⟨by rw [spread_append_singleton]; exact hspans, fun other hother => ?_⟩
  rcases List.mem_append.mp hother with hold | hnew
  · exact h.lengths other hold
  · rw [List.mem_singleton.mp hnew]
    exact ⟨hfits.pos, hfits.le_max⟩

/-- A reader takes the first stretch if it is committed, and finds nothing otherwise. -/
theorem Queues.next_cases (h : r.Queues pending) :
    (unblocked pending = [] ∧ r.head = .none ∧ r.next = (.ok none, r)) ∨
      ∃ record later, pending = .committed record :: later ∧ r.head = .frame record.length ∧
        r.next = (.ok (some record), r.release record.length) ∧
        (r.release record.length).Queues later := by
  cases pending with
  | nil =>
    have hhead := h.spans.head_nil
    exact Or.inl ⟨rfl, hhead, by rw [next, hhead]⟩
  | cons booking later =>
    have hlater : ∀ other ∈ later, 1 ≤ other.length ∧ other.length ≤ maxLength :=
      fun other hother => h.lengths other (List.mem_cons_of_mem _ hother)
    obtain ⟨hpos, hmax⟩ := h.lengths booking List.mem_cons_self
    have hspans := h.spans
    rw [spread, List.flatMap_cons] at hspans
    cases booking with
    | committed record =>
      exact Or.inr ⟨record, later, rfl, hspans.head_frame hpos hmax, hspans.next_frame hpos hmax,
        hspans.released hmax, hlater⟩
    | reserved length =>
      rw [Booking.words, Nat.add_comm, List.replicate_succ, List.cons_append] at hspans
      have hhead := hspans.head_zero
      exact Or.inl ⟨rfl, hhead, by rw [next, hhead]⟩

/-- An operation books stretches behind those that are pending, and delivers from the front. -/
theorem Queues.apply (h : r.Queues pending) (hrange : InRange r) {operation : Operation}
    (hclean : ∀ position value, operation ≠ .overwrite position value) :
    ∃ later, pending ++ operation.books r = (operation.delivers r).map .committed ++ later ∧
      (operation.apply r).Queues later := by
  cases operation with
  | overwrite position value => exact absurd rfl (hclean position value)
  | submit record =>
    by_cases hfits : r.Fits record.length
    · have hroom := (h.spans.fits_iff hrange _).mp hfits
      have hbooks : (Operation.submit record).books r = [.committed record] :=
        if_pos ((submit_accepted_iff r record).mpr hfits)
      refine ⟨pending ++ [.committed record], by rw [hbooks]; rfl, ?_⟩
      exact h.book (.committed record) hfits (h.spans.submitted hrange hroom)
    · have hbooks : (Operation.submit record).books r = [] :=
        if_neg (mt (submit_accepted_iff r record).mp hfits)
      obtain ⟨-, hnone⟩ | ⟨hyes, -⟩ := r.reserve_cases record.length
      · refine ⟨pending, by rw [hbooks, List.append_nil]; rfl, ?_⟩
        rw [Operation.apply, submit, hnone]
        exact ⟨⟨h.spans.aligned, h.spans.producer_eq, h.spans.window_eq⟩, h.lengths⟩
      · exact absurd hyes hfits
  | reserve length =>
    rw [Operation.apply, Operation.books]
    obtain ⟨-, hnone⟩ | ⟨hfits, hsome⟩ := r.reserve_cases length
    · rw [hnone]
      exact ⟨pending, List.append_nil pending, h⟩
    · have hroom := (h.spans.fits_iff hrange _).mp hfits
      have hqueues := h.book (.reserved length) hfits (h.spans.reserved hrange hroom)
      refine ⟨pending ++ [.reserved length], ?_, ?_⟩
      · rw [hsome]
        rfl
      · rw [hsome]
        exact hqueues
  | next =>
    rw [Operation.apply, Operation.books, Operation.delivers, List.append_nil]
    obtain ⟨-, -, hnext⟩ | ⟨record, later, rfl, -, hnext, hqueues⟩ := h.next_cases
    · rw [hnext]
      exact ⟨pending, rfl, h⟩
    · rw [hnext]
      exact ⟨later, rfl, hqueues⟩

/-- What some operations book stands behind what was pending, and what they deliver comes from the
front. -/
theorem Queues.operate (h : r.Queues pending) (operations : List Operation)
    (hclean : Clean operations) (hlow : StaysLow operations r) :
    ∃ later, pending ++ booked operations r = (delivered operations r).map .committed ++ later ∧
      (Ring.operate operations r).Queues later := by
  induction operations generalizing r pending with
  | nil => exact ⟨pending, List.append_nil pending, h⟩
  | cons operation operations ih =>
    obtain ⟨hhalf, hafter⟩ := (staysLow_cons operation operations r).mp hlow
    obtain ⟨hthis, hother⟩ := List.forall_mem_cons.mp hclean
    obtain ⟨between, hbetween, hqueues⟩ := h.apply (inRange_of_lt_half hhalf) hthis
    obtain ⟨later, hlater, hend⟩ := ih hqueues hother hafter
    refine ⟨later, ?_, hend⟩
    rw [booked, delivered, ← List.append_assoc, hbetween, List.append_assoc, hlater,
      ← List.append_assoc, List.map_append]

/-- What is pending determines what the two ends are shown. -/
theorem Queues.presents (h : r.Queues pending) (hordered : Ordered capacity r)
    (hhalf : r.producer.toNat < half) : Presents capacity r pending := by
  have hrange := inRange_of_lt_half hhalf
  have hlimit := (hordered.exact hhalf).limit
  have hcapacity := r.memory.capacity_eq
  have hfits : ∀ length, r.Fits length ↔ 1 ≤ length ∧ length ≤ maxLength ∧
      roomOf pending + (8 + (length + 7) / 8 * 8) ≤ capacity.toNat := by
    intro length
    rw [h.spans.fits_iff hrange, Room, hordered.capacity_eq, roomOf_eq, payloadWords]
    omega
  refine ⟨fun position hload => ?_, ?_, ?_, fun record => ?_, fun length => ?_⟩
  · obtain ⟨i, hword, hslot⟩ := h.spans.exists_of_load_ne_zero (by omega) hload
    obtain ⟨before, record, after, hpending, hle, hlt⟩ := exists_committed_of_ne_zero _ hword hload
    refine ⟨before, record, after, hpending, i - (spread before).length, by omega, ?_⟩
    rw [add_eight_mul_add, Nat.add_sub_cancel' hle]
    exact hslot
  · obtain ⟨hnone, -, hnext⟩ | ⟨record, later, rfl, -, hnext, -⟩ := h.next_cases
    · rw [hnext, hnone]
      rfl
    · rw [hnext]
      rfl
  · obtain ⟨hnone, hhead, -⟩ | ⟨record, later, rfl, hhead, -⟩ := h.next_cases
    · rw [hnone, r.head_eq_none_iff.mp hhead]
      rfl
    · have hready : r.head ≠ .none := by simp [hhead]
      exact Bool.eq_true_of_not_eq_false (mt r.head_eq_none_iff.mpr hready)
  · rw [submit_accepted_iff, hfits]
    rfl
  · rw [isSome_reserve_iff, hfits]
    rfl

/-- A row of stretches that begins with a reservation keeps the reader for good. -/
theorem Queues.blocked (h : r.Queues pending) (hnone : unblocked pending = [])
    (hne : pending ≠ []) (operations : List Operation)
    (hclean : Clean operations) (hlow : StaysLow operations r) :
    delivered operations r = [] ∧ (Ring.operate operations r).next.1 = .ok none ∧
      (Ring.operate operations r).hasCommitted = false := by
  obtain ⟨later, hlater, hqueues⟩ := h.operate operations hclean hlow
  have hblocked := congrArg unblocked hlater
  rw [unblocked_map_append] at hblocked
  have hfirst : unblocked (pending ++ booked operations r) = [] := by
    cases pending with
    | nil => exact absurd rfl hne
    | cons booking pending =>
      cases booking with
      | committed record => cases hnone
      | reserved length => rfl
  rw [hfirst] at hblocked
  obtain ⟨hdelivered, hwaiting⟩ := List.append_eq_nil_iff.mp hblocked.symm
  obtain ⟨-, hhead, hnext⟩ | ⟨record, others, rfl, -⟩ := hqueues.next_cases
  · exact ⟨hdelivered, congrArg Prod.fst hnext, (Ring.head_eq_none_iff _).mp hhead⟩
  · cases hwaiting

end

/-- These stretches are what some operations have left behind in a fresh ring: the last of what was
booked, behind the committed frames of what was delivered. The records that were committed before the
first reservation are those that were delivered and those that still will be, and once all of them
are delivered, the reader finds nothing any more, whatever the two ends do. -/
structure LeavesPending (capacity : UInt64) (operations : List Operation) (fresh : Ring)
    (pending : List Booking) : Prop where
  booked_eq : booked operations fresh = (delivered operations fresh).map .committed ++ pending
  unblocked_eq : unblocked (booked operations fresh) = delivered operations fresh ++ unblocked pending
  presents : Presents capacity (operate operations fresh) pending
  blocked : (∃ length, .reserved length ∈ booked operations fresh) → unblocked pending = [] →
    ∀ later, Clean later → StaysLow later (operate operations fresh) →
      delivered later (operate operations fresh) = [] ∧
        (operate later (operate operations fresh)).next.1 = .ok none ∧
        (operate later (operate operations fresh)).hasCommitted = false

/-- Whatever submissions, reads and reservations that nobody commits a fresh ring goes through, the
reader gets what was committed before the first reservation, and everything else that was booked is
still in the ring, with nothing but zeros outside the committed frames. -/
theorem reserved_waits {capacity : UInt64} {fresh : Ring} (hcreate : create capacity = .ok fresh)
    (operations : List Operation)
    (hclean : Clean operations) (hlow : StaysLow operations fresh) :
    ∃ pending, LeavesPending capacity operations fresh pending := by
  obtain ⟨pending, hbooked, hqueues⟩ := (queues_create hcreate).operate operations hclean hlow
  obtain ⟨hordered, hhalf⟩ := (ordered_create hcreate).operate operations hlow
  rw [List.nil_append] at hbooked
  refine ⟨pending, hbooked, ?_, hqueues.presents hordered hhalf, ?_⟩
  · rw [hbooked, unblocked_map_append]
  · rintro ⟨length, hreserved⟩ hnone later hclean hlow
    have hne : pending ≠ [] := by
      rintro rfl
      rw [hbooked, List.append_nil] at hreserved
      simp at hreserved
    exact hqueues.blocked hnone hne later hclean hlow

/-- Space that was used before is reserved, and a record is committed behind it. -/
def reservedBetween : List Operation :=
  [.submit [1], .next, .submit [2], .reserve 5, .next, .submit [3]]

/-- The reader gets both records from before the reservation, and nothing of the one behind it. -/
theorem reservedBetween_waits :
    LeavesPending 32 reservedBetween (ofMemory fourWords) [.reserved 5, .committed [3]] ∧
      delivered reservedBetween (ofMemory fourWords) = [[1], [2]] := by
  have hcreate : create 32 = .ok (ofMemory fourWords) := rfl
  have hclean : Clean reservedBetween := by simp [Clean, reservedBetween]
  have hdelivered : delivered reservedBetween (ofMemory fourWords) = [[1], [2]] := by
    decide +kernel
  have hbooked : booked reservedBetween (ofMemory fourWords) =
      [.committed [1], .committed [2], .reserved 5, .committed [3]] := by
    decide +kernel
  obtain ⟨pending, hleft⟩ := reserved_waits hcreate reservedBetween hclean (by decide +kernel)
  have hpending := hleft.booked_eq
  rw [hbooked, hdelivered] at hpending
  have hleftover : [.reserved 5, .committed [3]] = pending := by
    simpa using hpending
  subst hleftover
  exact ⟨hleft, hdelivered⟩

end NetnsWatch.Ring
