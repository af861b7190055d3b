import NetnsWatch.Text.Utf8

/-!
# Command names

A command occupies a field of sixteen bytes. Its name ends before the first NUL, so the bytes after
a NUL carry nothing; a field is canonical when they are all zero.
-/

namespace NetnsWatch

/-- A command field of exactly sixteen bytes. -/
structure Command where
  bytes : Bytes
  length_eq : bytes.length = 16
  deriving DecidableEq, Repr

namespace Command

/-- The width of the field. -/
def width : Nat := 16

/-- Replace the first NUL and everything after it by zeros. -/
def zeroFromNul : Bytes → Bytes
  | [] => []
  | byte :: rest =>
    if byte = 0 then List.replicate (rest.length + 1) 0 else byte :: zeroFromNul rest

/-- Zeroing keeps the length. -/
@[simp] theorem length_zeroFromNul (b : Bytes) : (zeroFromNul b).length = b.length := by
  induction b with
  | nil => rfl
  | cons byte rest ih =>
    by_cases h : byte = 0 <;> simp [zeroFromNul, h, ih]

/-- Fill up with zeros to the field's width, cutting what is beyond it. -/
def pad (b : Bytes) : Bytes :=
  b.take width ++ List.replicate (width - b.length) 0

/-- Padding gives exactly the field's width. -/
@[simp] theorem length_pad (b : Bytes) : (pad b).length = 16 := by
  simp only [pad, List.length_append, List.length_take, List.length_replicate, width]
  omega

/-- The field without what follows its first NUL. -/
def canonical (c : Command) : Command :=
  ⟨zeroFromNul c.bytes, by rw [length_zeroFromNul, c.length_eq]⟩

/-- Store a command name, cut to the field's width. -/
def ofName (name : Bytes) : Command :=
  ⟨zeroFromNul (pad name), by simp⟩

/-- The bytes before the first NUL. -/
def name (c : Command) : Bytes :=
  c.bytes.takeWhile (· != 0)

/-- The name as text. -/
def text (c : Command) : String :=
  Utf8.decode c.name

end Command

end NetnsWatch
