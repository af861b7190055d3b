import NetnsWatch.Event.Record

/-!
# Events and records, there and back

Reading undoes writing except in the command field, where only what stands before the first NUL is
kept; writing undoes reading in the same sense. So the events that can be read are those whose
command is zero from its first NUL on, and each of them has one record of that form. A record is
refused for its length first and for its kind second, and for nothing else.
-/

namespace NetnsWatch

open LittleEndian

namespace Command

/-- Bytes cut before the first NUL and filled up with zeros to their old length. -/
def cutAtNul (b : Bytes) : Bytes :=
  (b.takeWhile (· != 0)).rightpad b.length 0

/-- Zero from the first NUL on: whatever follows a NUL is one. -/
def ZeroFromNul (b : Bytes) : Prop :=
  b.Pairwise fun earlier later => earlier = 0 → later = 0

/-- Whether bytes are zero from their first NUL on can be computed. -/
instance (b : Bytes) : Decidable (ZeroFromNul b) :=
  inferInstanceAs (Decidable (b.Pairwise _))

/-- Zeroing from the first NUL on keeps what stands before it. -/
theorem zeroFromNul_eq_cutAtNul (b : Bytes) : zeroFromNul b = cutAtNul b := by
  induction b with
  | nil => rfl
  | cons byte rest ih =>
    by_cases hzero : byte = 0
    · simp [zeroFromNul, cutAtNul, List.rightpad, hzero]
    · simp [zeroFromNul, cutAtNul, List.rightpad, hzero, ih]

/-- Zeroing from the first NUL on changes nothing exactly when all is zero from there already. -/
theorem zeroFromNul_eq_self_iff (b : Bytes) : zeroFromNul b = b ↔ ZeroFromNul b := by
  unfold ZeroFromNul
  induction b with
  | nil => simp [zeroFromNul]
  | cons byte rest ih =>
    by_cases hzero : byte = 0
    · have hreplicate : List.replicate rest.length 0 = rest ↔ ∀ later ∈ rest, later = 0 := by
        rw [eq_comm, List.eq_replicate_iff, and_iff_right rfl]
      rw [List.pairwise_cons, zeroFromNul, if_pos hzero, List.replicate_succ, hzero,
        List.cons.injEq, and_iff_right rfl, hreplicate]
      refine ⟨fun hzeros => ⟨fun later hlater _ => hzeros later hlater, ?_⟩, fun h later hlater => ?_⟩
      · exact List.pairwise_of_forall_mem_list fun _ _ later hlater _ => hzeros later hlater
      · exact h.1 later hlater rfl
    · rw [List.pairwise_cons, zeroFromNul, if_neg hzero, List.cons.injEq, and_iff_right rfl, ih]
      exact ⟨fun h => ⟨fun _ _ hnul => absurd hnul hzero, h⟩, fun h => h.2⟩

/-- The bytes of a canonical field. -/
theorem bytes_canonical (c : Command) : c.canonical.bytes = cutAtNul c.bytes :=
  zeroFromNul_eq_cutAtNul c.bytes

/-- A field is its own canonical form exactly when it is zero from its first NUL on. -/
theorem canonical_eq_self_iff (c : Command) : c.canonical = c ↔ ZeroFromNul c.bytes := by
  rw [← zeroFromNul_eq_self_iff]
  exact ⟨congrArg Command.bytes, fun h => by cases c; simpa [canonical] using h⟩

/-- What has been zeroed from its first NUL on is zero from there. -/
theorem zeroFromNul_zeroFromNul (b : Bytes) : zeroFromNul (zeroFromNul b) = zeroFromNul b := by
  induction b with
  | nil => rfl
  | cons byte rest ih =>
    by_cases hzero : byte = 0
    · simp [zeroFromNul, hzero, List.replicate_succ]
    · simp [zeroFromNul, hzero, ih]

/-- A canonical field is its own canonical form. -/
@[simp] theorem canonical_canonical (c : Command) : c.canonical.canonical = c.canonical := by
  simp only [canonical, zeroFromNul_zeroFromNul]

/-- A stored name is canonical. -/
@[simp] theorem canonical_ofName (name : Bytes) : (ofName name).canonical = ofName name := by
  simp only [canonical, ofName, zeroFromNul_zeroFromNul]

end Command

namespace Kind

/-- A code above the last kind is refused by its number. -/
theorem ofCode_of_not_le {code : UInt32} (h : ¬ code ≤ 5) :
    ofCode code = .error (.unknownKind code) := by
  have hne : ∀ known : UInt32, known ≤ 5 → code ≠ known :=
    fun known hknown heq => h (heq ▸ hknown)
  rw [ofCode, if_neg (hne 0 (by decide)), if_neg (hne 1 (by decide)), if_neg (hne 2 (by decide)),
    if_neg (hne 3 (by decide)), if_neg (hne 4 (by decide)), if_neg (hne 5 (by decide))]

/-- The kind that a code names has that code. -/
theorem code_of_ofCode {code : UInt32} {kind : Kind} (h : ofCode code = .ok kind) :
    kind.code = code := by
  unfold ofCode at h
  repeat' split at h
  all_goals cases h
  all_goals rename_i hcode; exact hcode.symm

end Kind

namespace Record

/-- A record is read back from its wire form. -/
theorem ofBytes_toBytes (r : Record) : ofBytes r.toBytes = .ok r := by
  obtain ⟨kind, pid, tid, uid, gid, parentPid, command⟩ := r
  rw [ofBytes, dif_pos (length_toBytes _)]
  simp (disch := decide) [toBytes, drop_bytes32_append]

/-- A word read at some place in the bytes, followed by what stands behind it. -/
theorem bytes32_word32_append_drop {b : Bytes} (place : Nat) (h : place + 4 ≤ b.length) :
    bytes32 (word32 (b.drop place)) ++ b.drop (place + 4) = b.drop place := by
  rw [bytes32_word32 (by rw [List.length_drop]; omega), ← List.drop_drop, List.take_append_drop]

/-- What a record is read from is its wire form. -/
theorem toBytes_of_ofBytes {b : Bytes} {r : Record} (h : ofBytes b = .ok r) : r.toBytes = b := by
  unfold ofBytes at h
  split at h
  · rename_i hsize
    unfold size at hsize
    cases h
    have hfirst : bytes32 (word32 b) ++ b.drop 4 = b :=
      bytes32_word32_append_drop 0 (by omega)
    simp only [toBytes]
    rw [bytes32_word32_append_drop 20 (by omega),
      bytes32_word32_append_drop 16 (by omega),
      bytes32_word32_append_drop 12 (by omega),
      bytes32_word32_append_drop 8 (by omega),
      bytes32_word32_append_drop 4 (by omega), hfirst]
  · cases h

/-- The command stands behind the six words of a wire form. -/
theorem drop_toBytes (r : Record) : r.toBytes.drop 24 = r.command.bytes := by
  simp (disch := decide) [toBytes, drop_bytes32_append]

/-- Another command changes what stands behind the six words, and nothing else. -/
theorem toBytes_withCommand (r : Record) (command : Command) :
    { r with command }.toBytes = r.toBytes.take 24 ++ command.bytes := by
  simp (disch := decide) [toBytes, take_bytes32_append]

/-- Bytes of a record's size are read as a record whose kind is their first word. -/
theorem ofBytes_of_length {b : Bytes} (h : b.length = size) :
    ∃ r, ofBytes b = .ok r ∧ r.kind = word32 b := by
  rw [ofBytes, dif_pos h]
  exact ⟨_, rfl, rfl⟩

end Record

namespace Event

/-- Reading what was written keeps all but the command behind its first NUL. -/
theorem decode_encode (e : Event) :
    decode e.encode = .ok { e with command := e.command.canonical } := by
  rw [decode, encode, Record.ofBytes_toBytes]
  change ofRecord e.toRecord = _
  rw [ofRecord, toRecord, Kind.ofCode_code]
  rfl

/-- The record of an event that was made from a record differs from it in the command alone. -/
theorem toRecord_of_ofRecord {r : Record} {e : Event} (h : ofRecord r = .ok e) :
    e.toRecord = { r with command := r.command.canonical } := by
  unfold ofRecord at h
  cases hkind : Kind.ofCode r.kind with
  | error error =>
    rw [hkind] at h
    cases h
  | ok kind =>
    rw [hkind] at h
    cases h
    rw [toRecord, Kind.code_of_ofCode hkind]

/-- Writing an event that was read gives its bytes back, zeroed from the command's first NUL on, and
reading them again gives the event. -/
theorem encode_of_decode {b : Bytes} {e : Event} (h : decode b = .ok e) :
    e.encode = b.take 24 ++ Command.cutAtNul (b.drop 24) ∧ decode e.encode = .ok e := by
  unfold decode at h
  cases hrecord : Record.ofBytes b with
  | error error =>
    rw [hrecord] at h
    cases h
  | ok r =>
    rw [hrecord] at h
    have hevent := toRecord_of_ofRecord (r := r) h
    have hcommand : e.command = r.command.canonical := congrArg Record.command hevent
    have hbytes := Record.toBytes_of_ofBytes hrecord
    refine ⟨?_, ?_⟩
    · rw [encode, hevent, Record.toBytes_withCommand, Command.bytes_canonical,
        ← Record.drop_toBytes, hbytes]
    · rw [decode_encode, hcommand, Command.canonical_canonical, ← hcommand]

/-- Bytes that are not of a record's size are refused for their length. -/
theorem decode_of_length_ne {b : Bytes} (h : b.length ≠ Record.size) :
    decode b = .error (.length Record.size b.length) := by
  rw [decode, Record.ofBytes, dif_neg h]
  rfl

/-- Bytes of a record's size that begin with no kind are refused for their first word. -/
theorem decode_of_not_le {b : Bytes} (h : b.length = Record.size) (hnot : ¬ word32 b ≤ 5) :
    decode b = .error (.unknownKind (word32 b)) := by
  obtain ⟨r, hrecord, hkind⟩ := Record.ofBytes_of_length h
  rw [decode, hrecord]
  change ofRecord r = _
  rw [ofRecord, hkind, Kind.ofCode_of_not_le hnot]
  rfl

/-- Bytes of a record's size that begin with a kind are an event. -/
theorem decode_of_le {b : Bytes} (h : b.length = Record.size) (hle : word32 b ≤ 5) :
    ∃ e, decode b = .ok e := by
  obtain ⟨r, hrecord, hkind⟩ := Record.ofBytes_of_length h
  obtain ⟨kind, hcode⟩ := (Kind.ofCode_eq_ok_iff (word32 b)).mpr hle
  rw [decode, hrecord]
  change ∃ e, ofRecord r = .ok e
  rw [ofRecord, hkind, hcode]
  exact ⟨_, rfl⟩

/-- Bytes are an event exactly when they have a record's size and begin with a kind. -/
theorem decode_eq_ok_iff (b : Bytes) :
    (∃ e, decode b = .ok e) ↔ b.length = Record.size ∧ word32 b ≤ 5 := by
  refine ⟨?_, fun h => decode_of_le h.1 h.2⟩
  rintro ⟨e, he⟩
  by_cases hlength : b.length = Record.size
  · refine ⟨hlength, Decidable.byContradiction fun hnot => ?_⟩
    rw [decode_of_not_le hlength hnot] at he
    cases he
  · rw [decode_of_length_ne hlength] at he
    cases he

/-- Events and records agree in both directions: reading what was written zeroes the command from
its first NUL on, writing what was read zeroes the last sixteen bytes likewise, and bytes are
refused exactly for their length, or else for their first word. -/
theorem decode_encode_agree :
    (∀ e : Event, ∃ command : Command, command.bytes = Command.cutAtNul e.command.bytes ∧
      decode e.encode = .ok { e with command } ∧
      (decode e.encode = .ok e ↔ Command.ZeroFromNul e.command.bytes)) ∧
    ∀ b : Bytes,
      ((∃ e, decode b = .ok e) ↔ b.length = 40 ∧ word32 b ≤ 5) ∧
      (∀ e, decode b = .ok e →
        e.encode = b.take 24 ++ Command.cutAtNul (b.drop 24) ∧ decode e.encode = .ok e) ∧
      (b.length ≠ 40 → decode b = .error (.length 40 b.length)) ∧
      (b.length = 40 → ¬ word32 b ≤ 5 → decode b = .error (.unknownKind (word32 b))) := by
  refine ⟨fun e => ⟨e.command.canonical, e.command.bytes_canonical, decode_encode e, ?_⟩,
    fun b => ⟨decode_eq_ok_iff b, fun _ => encode_of_decode, decode_of_length_ne,
      decode_of_not_le⟩⟩
  rw [decode_encode, ← Command.canonical_eq_self_iff, Except.ok.injEq]
  exact ⟨congrArg Event.command, fun h => by rw [h]⟩

/-- An event whose command field holds more bytes behind its first NUL. -/
def garbled : Event where
  kind := .setns
  pid := 9
  tid := 9
  uid := 0
  gid := 0
  parentPid := 1
  command := ⟨[105, 112, 0, 103, 97, 114, 98, 97, 103, 101, 45, 98, 121, 116, 101, 255], rfl⟩

/-- Its record loses what stands behind the NUL; cut short it is refused for its length, and with
another first byte for its kind. -/
theorem garbled_decode_encode :
    decode garbled.encode = .ok { garbled with command := Command.ofName [105, 112] } ∧
      decode garbled.encode ≠ .ok garbled ∧
      decode (garbled.encode.take 39) = .error (.length 40 39) ∧
      decode (6 :: garbled.encode.tail) = .error (.unknownKind 6) := by
  obtain ⟨hevents, hbytes⟩ := decode_encode_agree
  obtain ⟨command, hcommand, hdecode, hsame⟩ := hevents garbled
  have hname : command = Command.ofName [105, 112] := by
    cases command
    cases hcommand
    rfl
  refine ⟨hname ▸ hdecode, fun h => absurd (hsame.mp h) (by decide), ?_, ?_⟩
  · exact (hbytes (garbled.encode.take 39)).2.2.1 (by decide)
  · exact (hbytes (6 :: garbled.encode.tail)).2.2.2 (by decide) (by decide)

end Event

end NetnsWatch
