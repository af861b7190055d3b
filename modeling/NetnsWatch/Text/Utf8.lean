import NetnsWatch.Bytes

/-!
# Lenient decoding of UTF-8

Every string of bytes has a text. A well-formed sequence gives its character; each longest start
of a well-formed sequence that cannot be continued, and each byte that starts none, gives one
replacement character. The reader is a small state machine over the bytes of an unfinished sequence.
-/

namespace NetnsWatch.Utf8

/-- The character that stands for undecodable bytes. -/
def replacement : Char := '\uFFFD'

/-- An unfinished sequence: its bits so far, the bytes still missing, and the range of the next one. -/
structure Unfinished where
  bits : Nat
  missing : Nat
  low : UInt8
  high : UInt8
  deriving DecidableEq, Repr

/-- What a byte outside any sequence gives: characters, and possibly an unfinished sequence. -/
def begin (byte : UInt8) : List Char × Option Unfinished :=
  if byte < 0x80 then ([Char.ofNat byte.toNat], none)
  else if byte < 0xC2 then ([replacement], none)
  else if byte < 0xE0 then ([], some ⟨byte.toNat % 32, 1, 0x80, 0xBF⟩)
  else if byte = 0xE0 then ([], some ⟨0, 2, 0xA0, 0xBF⟩)
  else if byte = 0xED then ([], some ⟨13, 2, 0x80, 0x9F⟩)
  else if byte < 0xF0 then ([], some ⟨byte.toNat % 16, 2, 0x80, 0xBF⟩)
  else if byte = 0xF0 then ([], some ⟨0, 3, 0x90, 0xBF⟩)
  else if byte < 0xF4 then ([], some ⟨byte.toNat % 8, 3, 0x80, 0xBF⟩)
  else if byte = 0xF4 then ([], some ⟨4, 3, 0x80, 0x8F⟩)
  else ([replacement], none)

/-- Read one byte: continue the unfinished sequence, or replace it and begin anew. -/
def advance (byte : UInt8) : Option Unfinished → List Char × Option Unfinished
  | none => begin byte
  | some u =>
    if u.low ≤ byte ∧ byte ≤ u.high then
      let bits := u.bits * 64 + byte.toNat % 64
      if u.missing ≤ 1 then ([Char.ofNat bits], none)
      else ([], some ⟨bits, u.missing - 1, 0x80, 0xBF⟩)
    else
      let (chars, next) := begin byte
      (replacement :: chars, next)

/-- The characters of the remaining bytes. -/
def decodeFrom : Option Unfinished → Bytes → List Char
  | none, [] => []
  | some _, [] => [replacement]
  | state, byte :: rest =>
    let (chars, next) := advance byte state
    chars ++ decodeFrom next rest

/-- The text of a string of bytes. -/
def decode (b : Bytes) : String :=
  String.ofList (decodeFrom none b)

end NetnsWatch.Utf8
