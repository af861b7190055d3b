import NetnsWatch.Notice
import NetnsWatch.Proofs.Nsid.Payload
import Mathlib.Data.List.Forall2

/-!
# Reading a datagram of messages

A message laid out with its padding is read back whatever follows it, and the next one begins right
behind. So a row of messages is visited in order and to its end, and what is reported and what is
logged is the concatenation of what each message amounts to by itself: a message of a reporting type
gives a report or, if its payload cannot be decoded, one notice, and any other message gives nothing.
-/

namespace NetnsWatch

open LittleEndian

namespace Message

/-- A message takes its length, rounded up to four bytes. -/
theorem length_encode (m : Message) : m.encode.length = align4 m.length := by
  have hle := (Attribute.le_align4 m.length).1
  simp only [encode, List.length_append, bytes_length, bytes16, bytes32, List.length_replicate]
  unfold length headerSize at *
  omega

/-- A message is read back, whatever follows it. -/
theorem read_encode_append (m : Message) (rest : Bytes) (h : m.length < 4294967296) :
    read (m.encode ++ rest) = .ok m := by
  have hsize : (m.encode ++ rest).length = align4 m.length + rest.length := by
    rw [List.length_append, length_encode]
  have hle := (Attribute.le_align4 m.length).1
  have hmin : 16 ≤ m.length := Nat.le_add_right 16 m.payload.length
  have hparts : m.encode ++ rest = bytes 4 m.length ++ (bytes16 m.type ++ (bytes16 m.flags ++
      (bytes32 m.seq ++ (bytes32 m.portId ++ (m.payload ++
        (List.replicate (align4 m.length - m.length) 0 ++ rest)))))) := by
    simp only [encode, List.append_assoc]
  generalize m.encode ++ rest = b at hsize hparts
  have hlength : (word32 b).toNat = m.length := by
    rw [hparts, toNat_word32, take_bytes_append _ _ _ (Nat.le_refl 4), Nat.sub_self,
      List.take_zero, List.append_nil, value_bytes]
    exact Nat.mod_eq_of_lt h
  have hpayload : (b.take m.length).drop headerSize = m.payload := by
    have hrest : m.length - 16 = m.payload.length := Nat.add_sub_cancel_left 16 m.payload.length
    rw [headerSize, List.drop_take, hrest, hparts]
    simp (disch := decide) only [drop_bytes_append, drop_bytes16_append, drop_bytes32_append,
      Nat.reduceSub, List.drop_zero, List.take_left]
  have hshort : ¬ b.length < headerSize := by unfold headerSize; omega
  have hover : ¬ b.length < m.length := by omega
  have hunder : ¬ m.length < headerSize := Nat.not_lt_of_le hmin
  simp only [read, hlength, if_neg hshort, if_neg hover, if_neg hunder, hpayload]
  rw [hparts]
  simp (disch := decide) only [drop_bytes_append, drop_bytes16_append, drop_bytes32_append,
    Nat.reduceSub, List.drop_zero, word16_bytes16_append, word32_bytes32_append]

end Message

/-- In no bytes there is nothing to visit. -/
theorem walkFrom_nil (offset : Nat) : walkFrom offset [] = ⟨[], none⟩ := by
  rw [walkFrom]
  rfl

/-- A message that the bytes begin with is visited first, then what stands behind its padding. -/
theorem walkFrom_of_read (offset : Nat) {b : Bytes} {m : Message} (h : Message.read b = .ok m) :
    walkFrom offset b =
      ⟨(offset, m) :: (walkFrom (offset + align4 m.length) (b.drop (align4 m.length))).visits,
        (walkFrom (offset + align4 m.length) (b.drop (align4 m.length))).fault⟩ := by
  have hempty : ¬ b.isEmpty = true := by
    rw [List.isEmpty_iff]
    rintro rfl
    cases h
  rw [walkFrom, if_neg hempty]
  split
  · rename_i fault hfault
    rw [h] at hfault
    cases hfault
  · rename_i read hok
    rw [h] at hok
    cases hok
    rfl

/-- A header that makes no sense ends the walk. -/
theorem walkFrom_of_fault (offset : Nat) {b : Bytes} {fault : HeaderFault} (hempty : ¬ b.isEmpty = true)
    (h : Message.read b = .error fault) : walkFrom offset b = ⟨[], some (offset, fault)⟩ := by
  rw [walkFrom, if_neg hempty]
  split
  · rename_i other hother
    rw [h] at hother
    cases hother
    rfl
  · rename_i m hok
    rw [h] at hok
    cases hok

/-- A message laid out is visited first, then what stands behind it. -/
theorem walkFrom_encode_append (offset : Nat) (m : Message) (rest : Bytes)
    (h : m.length < 4294967296) : walkFrom offset (m.encode ++ rest) =
      ⟨(offset, m) :: (walkFrom (offset + align4 m.length) rest).visits,
        (walkFrom (offset + align4 m.length) rest).fault⟩ := by
  rw [walkFrom_of_read offset (m.read_encode_append rest h), ← m.length_encode, List.drop_left]

/-- A row of messages is visited in order and to its end. -/
theorem walkFrom_encode (offset : Nat) (messages : List Message)
    (h : ∀ m ∈ messages, m.length < 4294967296) :
    (walkFrom offset (messages.flatMap Message.encode)).visits.map Prod.snd = messages ∧
      (walkFrom offset (messages.flatMap Message.encode)).fault = none := by
  induction messages generalizing offset with
  | nil =>
    rw [List.flatMap_nil, walkFrom_nil]
    exact ⟨rfl, rfl⟩
  | cons m rest ih =>
    obtain ⟨hvisits, hfault⟩ := ih (offset + align4 m.length)
      fun other hother => h other (List.mem_cons_of_mem m hother)
    rw [List.flatMap_cons, walkFrom_encode_append offset m _ (h m List.mem_cons_self)]
    exact ⟨congrArg (m :: ·) hvisits, hfault⟩

/-- What is found in a row of messages is what is found in each of them, in order. -/
theorem findings_encode (nsid : Option NsId) (messages : List Message)
    (h : ∀ m ∈ messages, m.length < 4294967296) :
    findings nsid (messages.flatMap Message.encode) = messages.filterMap (Message.finding? nsid) := by
  obtain ⟨hvisits, hfault⟩ := walkFrom_encode 0 messages h
  have hfound : (walk (messages.flatMap Message.encode)).visits.filterMap
      (fun visit => visit.2.finding? nsid) = messages.filterMap (Message.finding? nsid) := by
    conv_rhs => rw [← hvisits, List.filterMap_map]
    rfl
  have hend : (walk (messages.flatMap Message.encode)).fault = none := hfault
  simp only [findings, hfound, hend, Option.map_none, Option.toList_none, List.append_nil]

/-- What a message by itself gives: the reports that are returned, and the notices that are logged. -/
inductive Message.Yields (nsid : Option NsId) (m : Message) :
    List NsidNotification → List Notice → Prop
  /-- A message that assigns or removes a number, with a payload that can be decoded. -/
  | report {change : NsidChange} {attributes : List Attribute} {bodyNsid : Option Int32}
      (htype : m.type = 88 ∧ change = .assigned ∨ m.type = 89 ∧ change = .removed)
      (hpayload : Decodes m.payload attributes)
      (hnumber : Attribute.FirstNumber attributes bodyNsid) :
      Yields nsid m [{ change, nsid, bodyNsid }] []
  /-- A message of such a type with any other payload. -/
  | undecodable (htype : m.type = 88 ∨ m.type = 89)
      (hpayload : ∀ attributes, ¬ Decodes m.payload attributes) :
      Yields nsid m [] [.undecodable m.type]
  /-- A message of any other type. -/
  | foreign (hassigned : m.type ≠ 88) (hremoved : m.type ≠ 89) : Yields nsid m [] []

/-- The change that a type stands for. -/
theorem Message.change?_eq_some_iff (type : UInt16) (change : NsidChange) :
    change? type = some change ↔
      type = 88 ∧ change = .assigned ∨ type = 89 ∧ change = .removed := by
  unfold change? assignedType removedType
  by_cases hassigned : type = 88
  · subst hassigned
    cases change <;> decide
  · by_cases hremoved : type = 89
    · subst hremoved
      cases change <;> decide
    · simp [hassigned, hremoved]

/-- What is found in a message is what the message gives. -/
theorem Message.yields_finding? (nsid : Option NsId) (m : Message) :
    m.Yields nsid ((m.finding? nsid).toList.filterMap Finding.notification?)
      ((m.finding? nsid).toList.filterMap Notice.ofFinding) := by
  unfold finding?
  cases hchange : change? m.type with
  | none =>
    have hother := fun change => mt (change?_eq_some_iff m.type change).mpr (by rw [hchange]; simp)
    exact .foreign (fun htype => hother .assigned (Or.inl ⟨htype, rfl⟩))
      (fun htype => hother .removed (Or.inr ⟨htype, rfl⟩))
  | some change =>
    have htype := (change?_eq_some_iff m.type change).mp hchange
    cases hpayload : attributes? m.payload with
    | none =>
      refine .undecodable (htype.imp And.left And.left) fun attributes hdecodes => ?_
      rw [(attributes?_eq_some_iff m.payload attributes).mpr hdecodes] at hpayload
      cases hpayload
    | some attributes =>
      have hdecodes := (attributes?_eq_some_iff m.payload attributes).mp hpayload
      have hsized : ∀ a ∈ attributes, a.Sized := by
        obtain ⟨-, -, -, -, -, hsized⟩ := hdecodes
        exact hsized
      exact .report htype hdecodes (Attribute.firstNumber_bodyNsid hsized)

/-- A datagram of messages gives what its messages give, one after another: the reports that it
returns and the notices that it logs are those of the messages, in order, and nothing else. -/
theorem datagram_yields (nsid : Option NsId) (messages : List Message)
    (h : ∀ m ∈ messages, m.length < 4294967296) :
    ∃ parts : List (List NsidNotification × List Notice),
      List.Forall₂ (fun m part => m.Yields nsid part.1 part.2) messages parts ∧
      notifications nsid (messages.flatMap Message.encode) = parts.flatMap Prod.fst ∧
      Notice.ofDatagram nsid (messages.flatMap Message.encode) = parts.flatMap Prod.snd := by
  have hfindings := findings_encode nsid messages h
  rw [List.filterMap_eq_flatMap_toList] at hfindings
  refine ⟨messages.map fun m => ((m.finding? nsid).toList.filterMap Finding.notification?,
    (m.finding? nsid).toList.filterMap Notice.ofFinding), ?_, ?_, ?_⟩
  · rw [List.forall₂_map_right_iff, List.forall₂_same]
    exact fun m _ => m.yields_finding? nsid
  · rw [notifications, hfindings, List.filterMap_flatMap, List.flatMap_map]
  · rw [Notice.ofDatagram, hfindings, List.filterMap_flatMap, List.flatMap_map]

/-- A report whose first number is negative, a message of another type with an odd length, and a
report that is too short for its header. -/
def mixedMessages : List Message :=
  [{ type := 88, flags := 0, seq := 1, portId := 0, payload := [0, 0, 0, 0] ++
      Attribute.encode { type := 1, value := [255, 255, 255, 255] } ++
      Attribute.encode { type := 1, value := [5, 0, 0, 0] } },
    { type := 16, flags := 2, seq := 2, portId := 7, payload := [1, 2, 3] },
    { type := 89, flags := 0, seq := 3, portId := 0, payload := [9] }]

/-- These messages, one behind another, give what each of them gives: a report and a notice. -/
theorem mixedMessages_yield :
    (∃ parts : List (List NsidNotification × List Notice),
      List.Forall₂ (fun m part => m.Yields (some 3) part.1 part.2) mixedMessages parts ∧
      notifications (some 3) (mixedMessages.flatMap Message.encode) = parts.flatMap Prod.fst ∧
      Notice.ofDatagram (some 3) (mixedMessages.flatMap Message.encode) =
        parts.flatMap Prod.snd) ∧
    notifications (some 3) (mixedMessages.flatMap Message.encode) =
      [{ change := .assigned, nsid := some 3, bodyNsid := some 5 }] ∧
    Notice.ofDatagram (some 3) (mixedMessages.flatMap Message.encode) = [.undecodable 89] :=
  ⟨datagram_yields (some 3) mixedMessages (by decide), by decide +kernel, by decide +kernel⟩

end NetnsWatch
