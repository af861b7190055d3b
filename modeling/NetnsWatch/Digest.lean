import NetnsWatch.Notice

/-!
# What two runs have in common

Sequence numbers, delays and the order of lines depend on how tasks happen to interleave. A digest
leaves them out, so runs of the same script have the same digest.
-/

namespace NetnsWatch

/-- The line of an entry without its number, and with only the number that it is joined to. -/
def Entry.digest (e : Entry) : String :=
  match e.association with
  | some association =>
    e.occurrence.text ++ " <-> nsid " ++ toString association.nsid.toNat
  | none => e.occurrence.text

/-- The line of a notice, with the digest of an entry. -/
def Notice.digest (n : Notice) : String :=
  match n with
  | .entry e => n.level.name ++ " " ++ e.digest
  | _ => n.line

/-- Whether a notice depends on which of two ready inputs a task takes first. -/
def Notice.isRace : Notice → Bool
  | channelClosed _ => true
  | _ => false

/-- The sorted digests of what was logged. -/
def Notice.digests (notices : List Notice) : List String :=
  ((notices.filter fun n => !n.isRace).map digest).mergeSort (fun a b => a ≤ b)

namespace Entry

/-- Whether an entry is about a process of a given kind. -/
def isKind (kind : Kind) (e : Entry) : Bool :=
  match e.occurrence with
  | .process event => event.kind = kind
  | .nsid _ | .rejected _ => false

/-- Entries sorted by what they say. -/
def sorted (entries : List Entry) : List Entry :=
  entries.mergeSort fun a b => a.occurrence.text ≤ b.occurrence.text

end Entry

end NetnsWatch
