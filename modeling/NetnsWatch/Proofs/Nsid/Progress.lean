import NetnsWatch.Proofs.Nsid.Truncation
import Mathlib.Data.List.Chain

/-!
# Progress through a datagram

A message states its own length, and the next one is looked for behind its padding, which may lie
beyond the end of the bytes. Whatever the bytes are, the reader takes none from outside of them, goes
on by at least a header with each message, and accounts for each message that it visits once: by a
report, by a notice, or, where the type is not one of a report, by nothing. A last notice stands for
the bytes that are left where a header makes no sense.
-/

namespace NetnsWatch

open LittleEndian

/-- The bytes from one place up to another, if both places are in order and inside. -/
def slice? (b : Bytes) (start stop : Nat) : Option Bytes :=
  if start ≤ stop ∧ stop ≤ b.length then some ((b.take stop).drop start) else none

/-- What is left from a place inside the bytes is there. -/
theorem slice?_to_end {b : Bytes} {start : Nat} (h : start ≤ b.length) :
    slice? b start b.length = some (b.drop start) := by
  rw [slice?, if_pos ⟨h, Nat.le_refl _⟩, List.take_length]

/-- Some bytes from a place on are there, if no more are asked for than are left. -/
theorem slice?_add {b : Bytes} {start count : Nat} (h : start + count ≤ b.length) :
    slice? b start (start + count) = some ((b.drop start).take count) := by
  rw [slice?, if_pos ⟨Nat.le_add_right start count, h⟩, List.drop_take, Nat.add_sub_cancel_left]

namespace Message

/-- The length of a message at the front is the one that its header states. -/
theorem length_atFront {b : Bytes} (hmin : 16 ≤ (word32 b).toNat)
    (hle : (word32 b).toNat ≤ b.length) : (atFront b).length = (word32 b).toNat := by
  have hpayload : (atFront b).payload.length = (word32 b).toNat - 16 := by
    rw [atFront, List.length_drop, List.length_take, Nat.min_eq_left hle, headerSize]
  rw [length, hpayload, headerSize]
  omega

/-- A message that was read is as long as a header at least, and no longer than the bytes. -/
theorem length_bounds {b : Bytes} {m : Message} (h : read b = .ok m) :
    16 ≤ m.length ∧ m.length ≤ b.length :=
  ⟨Nat.le_add_right 16 m.payload.length, length_le_of_read h⟩

/-- A message is read from its own bytes, without any behind them. -/
theorem read_take {b : Bytes} {m : Message} (h : read b = .ok m) :
    read (b.take m.length) = .ok m := by
  obtain ⟨⟨-, hmin, hle⟩, rfl⟩ := (read_eq_ok_iff b m).mp h
  have hlength := length_atFront hmin hle
  have hsize : (b.take (atFront b).length).length = (word32 b).toNat := by
    rw [List.length_take, hlength, Nat.min_eq_left hle]
  have hword : word32 (b.take (atFront b).length) = word32 b := by
    conv_rhs => rw [← List.take_append_drop (atFront b).length b]
    exact (word32_append _ (by omega)).symm
  have hfront : atFront b = atFront (b.take (atFront b).length) := by
    conv_lhs => rw [← List.take_append_drop (atFront b).length b]
    exact atFront_append _ (by omega) (by rw [hword, hsize])
  rw [read_eq_ok_iff, hword, hsize]
  exact ⟨⟨hmin, hmin, Nat.le_refl _⟩, hfront⟩

end Message

/-- The reader goes through a body from one offset to another and visits these messages on its way.

It looks at all that is left of the body for a header, takes as many bytes as that states, and goes
on behind their padding. -/
inductive Traverses (body : Bytes) : Nat → List (Nat × Message) → Nat → Prop
  | rest (offset : Nat) : Traverses body offset [] offset
  | visit {offset stop : Nat} {m : Message} {visits : List (Nat × Message)} {left bytes : Bytes}
      (hinside : offset < body.length)
      (hleft : slice? body offset body.length = some left)
      (hheader : Message.read left = .ok m)
      (hbytes : slice? body offset (offset + m.length) = some bytes)
      (hmessage : Message.read bytes = .ok m)
      (hbehind : Traverses body (offset + align4 m.length) visits stop) :
      Traverses body offset ((offset, m) :: visits) stop

/-- Where the reader stops, either nothing of the body is left, or what is left begins with a header
that makes no sense, and a last notice says so. -/
inductive Stops (body : Bytes) (stop : Nat) : List Notice → Prop
  | done (hbeyond : body.length ≤ stop) : Stops body stop []
  | malformed {left : Bytes} {fault : HeaderFault} (hinside : stop < body.length)
      (hleft : slice? body stop body.length = some left)
      (hheader : Message.read left = .error fault) : Stops body stop [.malformedHeader stop fault]

/-- What is logged about a walk that ended early. -/
def Walk.last (w : Walk) : List Notice :=
  (w.fault.map fun fault => Notice.malformedHeader fault.1 fault.2).toList

/-- A walk from any offset goes through the body and stops. -/
theorem traverses_walkFrom (body : Bytes) (offset : Nat) : ∃ stop,
    Traverses body offset (walkFrom offset (body.drop offset)).visits stop ∧
      Stops body stop (walkFrom offset (body.drop offset)).last := by
  generalize hb : body.drop offset = b
  fun_induction walkFrom offset b with
  | case1 offset b hempty =>
    rw [← hb, List.isEmpty_iff, List.drop_eq_nil_iff] at hempty
    exact ⟨offset, .rest offset, .done hempty⟩
  | case2 offset b hempty fault hread =>
    rw [← hb, List.isEmpty_iff, List.drop_eq_nil_iff, Nat.not_le] at hempty
    exact ⟨offset, .rest offset, .malformed hempty (slice?_to_end (Nat.le_of_lt hempty)) (hb ▸ hread)⟩
  | case3 offset b hempty m hread rest ih =>
    rw [← hb, List.isEmpty_iff, List.drop_eq_nil_iff, Nat.not_le] at hempty
    obtain ⟨stop, htraverses, hstops⟩ := ih (by rw [← hb, List.drop_drop])
    have hlength := Message.length_le_of_read hread
    rw [← hb, List.length_drop] at hlength
    have hmessage := Message.read_take hread
    rw [← hb] at hread hmessage
    exact ⟨stop, .visit hempty (slice?_to_end (Nat.le_of_lt hempty)) hread (slice?_add (by omega)) hmessage
      htraverses, hstops⟩

namespace Traverses

variable {body : Bytes} {offset stop : Nat} {visits : List (Nat × Message)}

/-- A visited message lies inside the body, and its padding ends at most three bytes beyond. -/
theorem visit_bounds {m : Message} {left : Bytes} (hinside : offset < body.length)
    (hleft : slice? body offset body.length = some left) (hheader : Message.read left = .ok m) :
    16 ≤ m.length ∧ offset + m.length ≤ body.length := by
  rw [slice?_to_end (Nat.le_of_lt hinside), Option.some.injEq] at hleft
  obtain ⟨hmin, hle⟩ := Message.length_bounds hheader
  rw [← hleft, List.length_drop] at hle
  omega

/-- Each visited message lies inside the body. -/
theorem inside (h : Traverses body offset visits stop) :
    ∀ visit ∈ visits, 16 ≤ visit.2.length ∧ visit.1 + visit.2.length ≤ body.length := by
  induction h with
  | rest => exact fun visit hmem => absurd hmem List.not_mem_nil
  | visit hinside hleft hheader _ _ _ ih =>
    exact List.forall_mem_cons.mpr ⟨visit_bounds hinside hleft hheader, ih⟩

/-- From a multiple of four the reader comes to multiples of four only. -/
theorem aligned (h : Traverses body offset visits stop) (halign : offset % 4 = 0) :
    ∀ place ∈ visits.map Prod.fst ++ [stop], place % 4 = 0 := by
  induction h with
  | rest => simpa using halign
  | visit _ _ _ _ _ _ ih =>
    exact List.forall_mem_cons.mpr ⟨halign, ih (by unfold align4; omega)⟩

/-- The first place that the reader comes to is where it begins. -/
theorem head_places (h : Traverses body offset visits stop) :
    (visits.map Prod.fst ++ [stop]).head? = some offset := by
  cases h <;> rfl

/-- The reader goes on by sixteen bytes at least with each message. -/
theorem grows (h : Traverses body offset visits stop) :
    (visits.map Prod.fst ++ [stop]).IsChain fun place next => place + 16 ≤ next := by
  induction h with
  | rest => exact .singleton _
  | @visit offset stop m visits left bytes hinside hleft hheader _ _ hbehind ih =>
    refine ih.cons fun next hnext => ?_
    rw [Option.mem_def, head_places hbehind, Option.some.injEq] at hnext
    have hmin := (visit_bounds hinside hleft hheader).1
    have hround := (Attribute.le_align4 m.length).1
    omega

/-- Beyond the end of the body nothing is visited. -/
theorem visits_eq_nil (h : Traverses body offset visits stop) (hbeyond : body.length ≤ offset) :
    visits = [] := by
  cases h with
  | rest => rfl
  | visit hinside => exact absurd hbeyond (Nat.not_le_of_lt hinside)

/-- Every visited message takes sixteen bytes of the body at least. -/
theorem count_le (h : Traverses body offset visits stop) (hinside : offset ≤ body.length) :
    offset + 16 * visits.length ≤ body.length := by
  induction h with
  | rest => simpa using hinside
  | @visit offset stop m visits left bytes hstart hleft hheader _ _ hbehind ih =>
    obtain ⟨hmin, hle⟩ := visit_bounds hstart hleft hheader
    have hround := (Attribute.le_align4 m.length).1
    rw [List.length_cons]
    by_cases hnext : offset + align4 m.length ≤ body.length
    · have hrest := ih hnext
      omega
    · -- The padding of this message is cut short, so it is the last one.
      rw [visits_eq_nil hbehind (Nat.le_of_not_le hnext), List.length_nil]
      omega

/-- The reader stops at most three bytes beyond the end of the body. -/
theorem stop_lt (h : Traverses body offset visits stop) (hinside : offset < body.length + 4) :
    stop < body.length + 4 := by
  induction h with
  | rest => exact hinside
  | @visit offset stop m visits left bytes hstart hleft hheader _ _ _ ih =>
    have hle := (visit_bounds hstart hleft hheader).2
    have hround := (Attribute.le_align4 m.length).2
    exact ih (by omega)

end Traverses

/-- A message of one of the two types of a report gives one report or one notice, any other nothing. -/
theorem Message.Yields.count {nsid : Option NsId} {m : Message} {reports : List NsidNotification}
    {notices : List Notice} (h : m.Yields nsid reports notices) :
    reports.length + notices.length = if m.type = 88 ∨ m.type = 89 then 1 else 0 := by
  cases h with
  | report htype => rw [if_pos (htype.imp And.left And.left)]; rfl
  | undecodable htype => rw [if_pos htype]; rfl
  | foreign hassigned hremoved => rw [if_neg (not_or.mpr ⟨hassigned, hremoved⟩)]; rfl

/-- What is picked from the findings of a datagram is picked from those of each visited message, and
then from the header that ended the reading. -/
theorem filterMap_findings {β : Type} (pick : Finding → Option β) (nsid : Option NsId)
    (body : Bytes) : (findings nsid body).filterMap pick =
      ((walk body).visits.flatMap fun visit => (visit.2.finding? nsid).toList.filterMap pick) ++
        ((walk body).fault.map fun fault =>
          Finding.malformed fault.1 fault.2).toList.filterMap pick := by
  have hvisits : (walk body).visits.filterMap (fun visit => visit.2.finding? nsid) =
      (walk body).visits.flatMap fun visit => (visit.2.finding? nsid).toList :=
    List.filterMap_eq_flatMap_toList _ _
  rw [findings, List.filterMap_append, hvisits, List.filterMap_flatMap]

/-- Whatever the bytes of a datagram are, the reader ends, and on its way to where it stops it takes no
bytes from outside of them: it comes to multiples of four only, goes on by sixteen bytes at least with
each message, and so visits no more messages than sixteen goes into the number of bytes and stops less
than four bytes beyond their end. Each visited message gives, in order, one report or one notice if it
is of the type of a report, and nothing otherwise. One last notice follows exactly if the reader stops
with bytes left. -/
theorem datagram_accounts (nsid : Option NsId) (body : Bytes) :
    ∃ (stop : Nat) (parts : List (List NsidNotification × List Notice)) (last : List Notice),
      Traverses body 0 (walk body).visits stop ∧ Stops body stop last ∧
      (∀ place ∈ (walk body).visits.map Prod.fst ++ [stop], place % 4 = 0) ∧
      ((walk body).visits.map Prod.fst ++ [stop]).IsChain (fun place next => place + 16 ≤ next) ∧
      (∀ visit ∈ (walk body).visits, visit.1 + visit.2.length ≤ body.length) ∧
      (walk body).visits.length ≤ body.length / 16 ∧ stop < body.length + 4 ∧
      List.Forall₂ (fun visit part => visit.2.Yields nsid part.1 part.2 ∧
        part.1.length + part.2.length =
          if visit.2.type = 88 ∨ visit.2.type = 89 then 1 else 0) (walk body).visits parts ∧
      notifications nsid body = parts.flatMap Prod.fst ∧
      Notice.ofDatagram nsid body = parts.flatMap Prod.snd ++ last := by
  have hwalk : ∃ stop, Traverses body 0 (walk body).visits stop ∧ Stops body stop (walk body).last :=
    traverses_walkFrom body 0
  obtain ⟨stop, htraverses, hstops⟩ := hwalk
  have hcount := htraverses.count_le (Nat.zero_le _)
  refine ⟨stop, (walk body).visits.map fun visit =>
    ((visit.2.finding? nsid).toList.filterMap Finding.notification?,
      (visit.2.finding? nsid).toList.filterMap Notice.ofFinding), (walk body).last, htraverses, hstops,
    htraverses.aligned rfl, htraverses.grows, fun visit hmem => (htraverses.inside visit hmem).2, ?_,
    htraverses.stop_lt (by omega), ?_, ?_, ?_⟩
  · omega
  · rw [List.forall₂_map_right_iff, List.forall₂_same]
    exact fun visit _ => ⟨visit.2.yields_finding? nsid, (visit.2.yields_finding? nsid).count⟩
  · have hnone : ((walk body).fault.map fun fault =>
        Finding.malformed fault.1 fault.2).toList.filterMap Finding.notification? = [] := by
      cases (walk body).fault <;> rfl
    rw [notifications, filterMap_findings, hnone, List.append_nil, List.flatMap_map]
  · have hlast : ((walk body).fault.map fun fault =>
        Finding.malformed fault.1 fault.2).toList.filterMap Notice.ofFinding = (walk body).last := by
      unfold Walk.last
      cases (walk body).fault <;> rfl
    rw [Notice.ofDatagram, filterMap_findings, hlast, List.flatMap_map]

/-- A message of seventeen bytes whose padding is missing is visited, and nothing is left; without its
last byte it is not visited. -/
example :
    let body := (Message.encode { type := 88, flags := 0, seq := 1, portId := 0, payload := [9] })
    ((walk (body.take 17)).visits.map Prod.fst = [0] ∧ (walk (body.take 17)).fault = none) ∧
      walk (body.take 16) = ⟨[], some (0, .overlong 17 16)⟩ := by
  decide +kernel

end NetnsWatch
