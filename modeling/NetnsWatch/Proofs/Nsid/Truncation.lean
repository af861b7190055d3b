import NetnsWatch.Proofs.Nsid.Datagram
import Mathlib.Algebra.GroupWithZero.Nat

/-!
# Datagrams cut short and datagrams joined

A message is read from its own bytes alone, so whatever follows some bytes, the messages that they
begin with stay the ones that are read first. A datagram cut anywhere, in a header, in a payload or
in padding, gives the first reports of the whole one. Where the walk of some bytes ends exactly at
their end, the next message begins right behind them, so two such datagrams joined give the reports
of the one and then those of the other.
-/

namespace NetnsWatch

open LittleEndian

namespace LittleEndian

/-- A word of two bytes does not depend on what stands behind them. -/
theorem word16_append {b : Bytes} (rest : Bytes) (h : 2 ≤ b.length) :
    word16 (b ++ rest) = word16 b := by
  rw [word16, List.take_append_of_le_length h, word16]

/-- A word of four bytes does not depend on what stands behind them. -/
theorem word32_append {b : Bytes} (rest : Bytes) (h : 4 ≤ b.length) :
    word32 (b ++ rest) = word32 b := by
  rw [word32, List.take_append_of_le_length h, word32]

end LittleEndian

namespace Message

/-- The message whose header and payload stand at the beginning of the bytes. -/
def atFront (b : Bytes) : Message where
  type := word16 (b.drop 4)
  flags := word16 (b.drop 6)
  seq := word32 (b.drop 8)
  portId := word32 (b.drop 12)
  payload := (b.take (word32 b).toNat).drop headerSize

/-- A message is read exactly where there is room for a header and for the length that it states,
and that length is at least a header's. -/
theorem read_eq_ok_iff (b : Bytes) (m : Message) : read b = .ok m ↔
    (16 ≤ b.length ∧ 16 ≤ (word32 b).toNat ∧ (word32 b).toNat ≤ b.length) ∧ m = atFront b := by
  unfold read headerSize
  constructor
  · intro h
    by_cases hheader : b.length < 16
    · simp only [if_pos hheader, reduceCtorEq] at h
    · by_cases hover : b.length < (word32 b).toNat
      · simp only [if_neg hheader, if_pos hover, reduceCtorEq] at h
      · by_cases hunder : (word32 b).toNat < 16
        · simp only [if_neg hheader, if_neg hover, if_pos hunder, reduceCtorEq] at h
        · simp only [if_neg hheader, if_neg hover, if_neg hunder, Except.ok.injEq] at h
          exact ⟨by omega, h.symm⟩
  · rintro ⟨⟨hheader, hmin, hle⟩, rfl⟩
    simp only [if_neg (Nat.not_lt_of_le hheader), if_neg (Nat.not_lt_of_le hle),
      if_neg (Nat.not_lt_of_le hmin)]
    rfl

/-- A message at the front does not depend on what follows it. -/
theorem atFront_append {b : Bytes} (rest : Bytes) (hheader : 16 ≤ b.length)
    (hle : (word32 b).toNat ≤ b.length) : atFront (b ++ rest) = atFront b := by
  have hdrop {n : Nat} (hn : n ≤ 12) : (b ++ rest).drop n = b.drop n ++ rest :=
    List.drop_append_of_le_length (by omega)
  have hleft {n : Nat} (hn : n ≤ 12) : 4 ≤ (b.drop n).length := by
    rw [List.length_drop]
    omega
  have hshort {n : Nat} (hn : n ≤ 12) : word16 ((b ++ rest).drop n) = word16 (b.drop n) := by
    rw [hdrop hn, word16_append rest (Nat.le_trans (by decide) (hleft hn))]
  have hlong {n : Nat} (hn : n ≤ 12) : word32 ((b ++ rest).drop n) = word32 (b.drop n) := by
    rw [hdrop hn, word32_append rest (hleft hn)]
  have hlength : word32 (b ++ rest) = word32 b := hlong (Nat.zero_le 12)
  have hpayload : (b ++ rest).take (word32 b).toNat = b.take (word32 b).toNat :=
    List.take_append_of_le_length hle
  rw [atFront, hshort (by decide), hshort (by decide), hlong (by decide), hlong (by decide), hlength,
    hpayload, atFront]

/-- A message that was read is read whatever follows the bytes. -/
theorem read_append {b : Bytes} {m : Message} (rest : Bytes) (h : read b = .ok m) :
    read (b ++ rest) = .ok m := by
  obtain ⟨⟨hheader, hmin, hle⟩, rfl⟩ := (read_eq_ok_iff b m).mp h
  have hlength : word32 (b ++ rest) = word32 b := word32_append rest (by omega)
  have hsize : b.length ≤ (b ++ rest).length := (List.prefix_append b rest).length_le
  rw [read_eq_ok_iff, hlength, atFront_append rest hheader hle]
  exact ⟨⟨Nat.le_trans hheader hsize, hmin, Nat.le_trans hle hsize⟩, rfl⟩

end Message

/-- How many bytes the visited messages take, with the padding of each. -/
def Walk.span (w : Walk) : Nat :=
  (w.visits.map fun visit => align4 visit.2.length).sum

/-- The walk of the bytes ends exactly at their end, and no header on the way is malformed. -/
def Whole (body : Bytes) : Prop :=
  (walk body).fault = none ∧ (walk body).span = body.length

/-- Which messages are visited does not depend on the offset at which they stand. -/
theorem messages_walkFrom (offset other : Nat) (b : Bytes) :
    (walkFrom offset b).visits.map Prod.snd = (walkFrom other b).visits.map Prod.snd := by
  fun_induction walkFrom offset b generalizing other with
  | case1 offset b hempty => rw [walkFrom, if_pos hempty]
  | case2 offset b hempty fault hread => rw [walkFrom_of_fault other hempty hread]
  | case3 offset b hempty m hread rest ih =>
    rw [walkFrom_of_read other hread]
    exact congrArg (m :: ·) (ih _)

/-- What was visited is visited whatever follows the bytes. -/
theorem visits_walkFrom_append (offset : Nat) (a b : Bytes) :
    (walkFrom offset a).visits <+: (walkFrom offset (a ++ b)).visits := by
  fun_induction walkFrom offset a with
  | case1 => exact List.nil_prefix
  | case2 => exact List.nil_prefix
  | case3 offset a hempty m hread rest ih =>
    rw [walkFrom_of_read offset (Message.read_append b hread), List.cons_prefix_cons]
    refine ⟨rfl, ?_⟩
    by_cases hpadded : align4 m.length ≤ a.length
    · rwa [List.drop_append_of_le_length hpadded]
    · -- The padding is cut short, so nothing was visited after this message.
      have hnothing : rest.visits = [] := by
        change (walkFrom (offset + align4 m.length) (a.drop (align4 m.length))).visits = []
        rw [List.drop_of_length_le (by omega), walkFrom_nil]
      rw [hnothing]
      exact List.nil_prefix

/-- A walk that ends exactly at the end of some bytes goes on with those behind them. -/
theorem walkFrom_append_of_span (offset : Nat) {a : Bytes} (b : Bytes)
    (hfault : (walkFrom offset a).fault = none) (hspan : (walkFrom offset a).span = a.length) :
    walkFrom offset (a ++ b) =
      ⟨(walkFrom offset a).visits ++ (walkFrom (offset + a.length) b).visits,
        (walkFrom (offset + a.length) b).fault⟩ := by
  fun_induction walkFrom offset a with
  | case1 offset a hempty =>
    rw [List.isEmpty_iff.mp hempty]
    rfl
  | case2 => cases hfault
  | case3 offset a hempty m hread rest ih =>
    have hsum : align4 m.length + rest.span = a.length := hspan
    have hdrop : (a.drop (align4 m.length)).length = a.length - align4 m.length :=
      List.length_drop
    have hnext := ih hfault (by rw [hdrop]; change rest.span = _; omega)
    have hplace : offset + align4 m.length + (a.drop (align4 m.length)).length =
        offset + a.length := by omega
    rw [hplace] at hnext
    rw [walkFrom_of_read offset (Message.read_append b hread),
      List.drop_append_of_le_length (by omega), hnext, List.cons_append]

/-- The reports of a datagram are those of the messages that are visited. -/
theorem notifications_eq (nsid : Option NsId) (body : Bytes) : notifications nsid body =
    ((walk body).visits.map Prod.snd).filterMap fun m =>
      (m.finding? nsid).bind Finding.notification? := by
  have hmalformed : ((walk body).fault.map fun fault =>
      Finding.malformed fault.1 fault.2).toList.filterMap Finding.notification? = [] := by
    cases (walk body).fault <;> rfl
  rw [notifications, findings, List.filterMap_append, hmalformed, List.append_nil,
    List.filterMap_filterMap, List.filterMap_map]
  rfl

/-- Damage never changes what was read before it: some bytes give the first reports of any bytes that
begin with them, so a datagram cut anywhere gives the first reports of the whole one. Where the walk
of the bytes ends exactly at their end, what follows them adds the reports that it gives by itself. -/
theorem reports_append (nsid : Option NsId) (a b : Bytes) :
    notifications nsid a <+: notifications nsid (a ++ b) ∧
    (∀ count, notifications nsid (a.take count) <+: notifications nsid a) ∧
    (Whole a → notifications nsid (a ++ b) = notifications nsid a ++ notifications nsid b) := by
  have happend (a b : Bytes) : notifications nsid a <+: notifications nsid (a ++ b) := by
    rw [notifications_eq, notifications_eq]
    exact ((visits_walkFrom_append 0 a b).map Prod.snd).filterMap _
  refine ⟨happend a b, fun count => ?_, fun hwhole => ?_⟩
  · have hcut := happend (a.take count) (a.drop count)
    rwa [List.take_append_drop] at hcut
  · obtain ⟨hfault, hspan⟩ := hwhole
    have hwalk : walk (a ++ b) = _ := walkFrom_append_of_span 0 b hfault hspan
    rw [notifications_eq, notifications_eq nsid a, notifications_eq nsid b, hwalk, List.map_append,
      List.filterMap_append, messages_walkFrom (0 + a.length) 0 b]
    rfl

/-- A datagram of three messages, and behind it the same one without its last four bytes: the walk of
the first ends at its end, so each of the two adds the report that it gives by itself. -/
theorem mixedMessages_reports_append :
    Whole (mixedMessages.flatMap Message.encode) ∧
    notifications (some 3) (mixedMessages.flatMap Message.encode ++
        (mixedMessages.flatMap Message.encode).take 72) =
      notifications (some 3) (mixedMessages.flatMap Message.encode) ++
        notifications (some 3) ((mixedMessages.flatMap Message.encode).take 72) ∧
    notifications (some 3) ((mixedMessages.flatMap Message.encode).take 72) =
      [{ change := .assigned, nsid := some 3, bodyNsid := some 5 }] := by
  have hwhole : Whole (mixedMessages.flatMap Message.encode) := by
    constructor <;> decide +kernel
  exact ⟨hwhole, (reports_append (some 3) _ _).2.2 hwhole, by decide +kernel⟩

end NetnsWatch
