import NetnsWatch.Event.Command

/-!
# Process events

A process event names one of six kinds, the ids of the process, and its command. The kinds have
fixed numeric codes; a code above the last kind is refused, and so is a record of the wrong length.
-/

namespace NetnsWatch

/-- What a process did. -/
inductive Kind where
  | fork
  | exec
  | exit
  | clone
  | unshare
  | setns
  deriving DecidableEq, Repr

/-- Why a record is not a process event. -/
inductive SchemaError where
  | length (expected actual : Nat)
  | unknownKind (code : UInt32)
  deriving DecidableEq, Repr

namespace Kind

/-- The numeric code of a kind. -/
def code : Kind → UInt32
  | fork => 0
  | exec => 1
  | exit => 2
  | clone => 3
  | unshare => 4
  | setns => 5

/-- The kind with a given code. -/
def ofCode (code : UInt32) : Except SchemaError Kind :=
  if code = 0 then .ok fork
  else if code = 1 then .ok exec
  else if code = 2 then .ok exit
  else if code = 3 then .ok clone
  else if code = 4 then .ok unshare
  else if code = 5 then .ok setns
  else .error (.unknownKind code)

/-- The name of a kind in reports. -/
def name : Kind → String
  | fork => "FORK"
  | exec => "EXEC"
  | exit => "EXIT"
  | clone => "CLONE"
  | unshare => "UNSHARE"
  | setns => "SETNS"

/-- Kinds that create, leave or join a namespace. -/
def touchesNamespace : Kind → Bool
  | clone | unshare | setns => true
  | fork | exec | exit => false

/-- Every kind is found again by its code. -/
@[simp] theorem ofCode_code (kind : Kind) : ofCode kind.code = .ok kind := by
  cases kind <;> rfl

/-- A code names a kind exactly when it is at most five. -/
theorem ofCode_eq_ok_iff (code : UInt32) :
    (∃ kind, ofCode code = .ok kind) ↔ code ≤ 5 := by
  constructor
  · rintro ⟨kind, h⟩
    unfold ofCode at h
    repeat' split at h
    all_goals first | (subst_vars; decide) | cases h
  · intro h
    have hcode : code = 0 ∨ code = 1 ∨ code = 2 ∨ code = 3 ∨ code = 4 ∨ code = 5 := by
      have := UInt32.le_iff_toNat_le.mp h
      simp only [← UInt32.toNat_inj]
      simp at this ⊢
      omega
    rcases hcode with rfl | rfl | rfl | rfl | rfl | rfl <;> exact ⟨_, rfl⟩

end Kind

namespace SchemaError

/-- The reason in words. -/
def message : SchemaError → String
  | length expected actual =>
    "record length mismatch (expected " ++ toString expected ++ " bytes, got " ++
      toString actual ++ ")"
  | unknownKind code => "unknown event kind " ++ toString code.toNat

end SchemaError

/-- A validated process event. -/
structure Event where
  kind : Kind
  pid : UInt32
  tid : UInt32
  uid : UInt32
  gid : UInt32
  parentPid : UInt32
  command : Command
  deriving DecidableEq, Repr

end NetnsWatch
