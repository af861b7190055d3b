import NetnsWatch.Ring

/-!
# Draining a ring

A drain hands every committed record to a sink, in ring order, until nothing is committed, the
frames do not make sense, or the sink fails. A record whose sink fails has been taken. Each record
taken clears a header, so the nonzero words bound the number of rounds.
-/

namespace NetnsWatch.Ring

/-- How a drain ended: what is left, the sink's state, and the records that the sink took. -/
structure Drained (σ : Type) where
  ring : Ring
  state : σ
  count : Nat
  fault : Option Fault

/-- Drain into a sink, counting on from `count`. -/
def drainFrom {σ : Type} (sink : Bytes → σ → σ × Option Fault) (r : Ring) (state : σ) (count : Nat) :
    Drained σ :=
  match _h : r.next with
  | (.error fault, rest) => ⟨rest, state, count, some fault⟩
  | (.ok none, rest) => ⟨rest, state, count, none⟩
  | (.ok (some record), rest) =>
    match sink record state with
    | (state, some fault) => ⟨rest, state, count, some fault⟩
    | (state, none) => drainFrom sink rest state (count + 1)
  termination_by r.memory.used
  decreasing_by exact used_next_lt _h

/-- Hand every committed record to a sink. -/
def drain {σ : Type} (sink : Bytes → σ → σ × Option Fault) (state : σ) (r : Ring) : Drained σ :=
  drainFrom sink r state 0

end NetnsWatch.Ring
