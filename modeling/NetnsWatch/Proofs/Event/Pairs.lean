import NetnsWatch.Proofs.Event.RoundTrip

/-!
# Paired ids on the wire

The kernel hands out ids in pairs of words, and the two pairs have opposite orders: the process id is
the high half of its pair, the user id the low half of its own. A record that was built from pairs is
the record of the event that has these halves, so what is read from it tells the pairs themselves.
-/

namespace NetnsWatch

/-- A word of eight bytes is cut into two of four. -/
structure Halves (pair : UInt64) (high low : UInt32) : Prop where
  high_eq : high.toNat = pair.toNat / UInt32.size
  low_eq : low.toNat = pair.toNat % UInt32.size

/-- Shifting and truncating cut a word into its halves. -/
theorem halves_shift_truncate (pair : UInt64) :
    Halves pair (pair >>> 32).toUInt32 pair.toUInt32 where
  high_eq := by
    have hlt : pair.toNat / UInt32.size < UInt32.size :=
      Nat.div_lt_of_lt_mul pair.toNat_lt
    rw [UInt64.toNat_toUInt32, UInt64.toNat_shiftRight, Nat.shiftRight_eq_div_pow]
    exact Nat.mod_eq_of_lt hlt
  low_eq := UInt64.toNat_toUInt32 pair

/-- The halves put together are the word. -/
theorem Halves.join {pair : UInt64} {high low : UInt32} (h : Halves pair high low) :
    high.toNat * UInt32.size + low.toNat = pair.toNat := by
  rw [h.high_eq, h.low_eq, Nat.div_add_mod']

/-- A word has one high half and one low half. -/
theorem Halves.unique {pair : UInt64} {high low high' low' : UInt32} (h : Halves pair high low)
    (h' : Halves pair high' low') : high = high' ∧ low = low' :=
  ⟨UInt32.toNat_inj.mp (h.high_eq.trans h'.high_eq.symm),
    UInt32.toNat_inj.mp (h.low_eq.trans h'.low_eq.symm)⟩

namespace Event

variable (kind : Kind) (pidTgid uidGid : UInt64) (parentPid : UInt32) (command : Command)

/-- What an event of paired ids has in its fields. -/
structure OfPairs (e : Event) : Prop where
  kind_eq : e.kind = kind
  process : Halves pidTgid e.pid e.tid
  user : Halves uidGid e.gid e.uid
  parentPid_eq : e.parentPid = parentPid
  command_eq : e.command = command

variable {kind pidTgid uidGid parentPid command}

/-- The record that is built from pairs is the record of every event that has their halves. -/
theorem OfPairs.toRecord_eq {e : Event} (h : OfPairs kind pidTgid uidGid parentPid command e) :
    Record.ofPairs kind pidTgid uidGid parentPid command = e.toRecord := by
  obtain ⟨hpid, htid⟩ := (halves_shift_truncate pidTgid).unique h.process
  obtain ⟨hgid, huid⟩ := (halves_shift_truncate uidGid).unique h.user
  rw [Record.ofPairs, toRecord, hpid, htid, hgid, huid, h.kind_eq, h.parentPid_eq, h.command_eq]

/-- Pairs of ids make one event. -/
theorem exists_ofPairs (kind : Kind) (pidTgid uidGid : UInt64) (parentPid : UInt32)
    (command : Command) : ∃ e, OfPairs kind pidTgid uidGid parentPid command e :=
  ⟨⟨kind, _, _, _, _, parentPid, command⟩, rfl, halves_shift_truncate pidTgid,
    halves_shift_truncate uidGid, rfl, rfl⟩

/-- The bytes of a record that is built from pairs are the forty bytes that the event of their halves
is written as. They are read as that event with its command zeroed from the first NUL on, and the
pairs can be put together again from what is read. -/
theorem ofPairs_encode_agree (kind : Kind) (pidTgid uidGid : UInt64) (parentPid : UInt32)
    (command : Command) :
    ∃ e, OfPairs kind pidTgid uidGid parentPid command e ∧
      (Record.ofPairs kind pidTgid uidGid parentPid command).toBytes = e.encode ∧
      e.encode.length = 40 ∧
      ∃ read : Event,
        decode (Record.ofPairs kind pidTgid uidGid parentPid command).toBytes = .ok read ∧
        read = { e with command := read.command } ∧
        read.command.bytes = Command.cutAtNul command.bytes ∧
        read.pid.toNat * UInt32.size + read.tid.toNat = pidTgid.toNat ∧
        read.gid.toNat * UInt32.size + read.uid.toNat = uidGid.toNat := by
  obtain ⟨e, he⟩ := exists_ofPairs kind pidTgid uidGid parentPid command
  have hbytes : (Record.ofPairs kind pidTgid uidGid parentPid command).toBytes = e.encode := by
    rw [he.toRecord_eq, encode]
  have hread := e.decode_encode
  rw [← hbytes] at hread
  refine ⟨e, he, hbytes, Record.length_toBytes e.toRecord, _, hread, rfl, ?_, he.process.join,
    he.user.join⟩
  rw [← he.command_eq]
  exact e.command.bytes_canonical

end Event

end NetnsWatch
