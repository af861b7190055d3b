import NetnsWatch.Supervisor

/-!
# Rehearsing a supervisor

Tasks of the simplest kind on one thread: each may first wait for the token, and then ends in a
given way. Tasks run in the order in which they were spawned or woken; a cancelled token wakes
those that wait for it.

A shutdown shares the thread with the tasks, so the two go in rounds. In each round it joins what
has ended, up to a limit, and then some of the tasks that are ready run. Where the limit stopped
it, the task that it could not join any more goes behind all others that have ended by the next
round. A crash that is joined ends the shutdown, and the tasks that are still ready never run.
-/

namespace NetnsWatch

/-- A task that does nothing but end, possibly after waiting for the token. -/
structure Part where
  name : String
  waits : Bool
  ending : Ending
  deriving DecidableEq, Repr

/-- The supervisor, the tasks that are ready to run, those that wait, and the log. -/
structure Rehearsal where
  supervisor : Supervisor
  ready : List Part
  waiting : List Part
  journal : List Notice
  deriving DecidableEq, Repr

namespace Rehearsal

/-- A rehearsal without tasks. -/
def create : Rehearsal :=
  { supervisor := .create [], ready := [], waiting := [], journal := [] }

/-- Add a task behind those that are ready. -/
def spawn (part : Part) (r : Rehearsal) : Rehearsal :=
  { r with supervisor := r.supervisor.spawn part.name, ready := r.ready ++ [part] }

/-- Let the tasks that wait run again if the token is cancelled. -/
def wake (r : Rehearsal) : Rehearsal :=
  if r.supervisor.cancelled then { r with ready := r.ready ++ r.waiting, waiting := [] } else r

/-- Run the first task that is ready: it waits, or it ends. -/
def runNext (r : Rehearsal) : Rehearsal :=
  match r.ready with
  | [] => r
  | part :: rest =>
    if part.waits && !r.supervisor.cancelled then
      { r with ready := rest, waiting := r.waiting ++ [part] }
    else
      let (supervisor, notices) := r.supervisor.finish part.name part.ending
      wake { r with supervisor, ready := rest, journal := r.journal ++ notices }

/-- Run all tasks until none is ready; each runs at most twice. -/
def settle (r : Rehearsal) : Rehearsal :=
  Nat.repeat runNext (2 * (r.ready.length + r.waiting.length)) r

/-- The tasks that a shutdown joins in one round. -/
def joinLimit : Nat := 128

/-- The tasks that run in one round. -/
def runLimit : Nat := 61

/-- Join the next task that has ended. -/
def joinNext (r : Rehearsal) : Rehearsal :=
  let (supervisor, notices) := r.supervisor.joinNext
  { r with supervisor, journal := r.journal ++ notices }

/-- Let ready tasks run; if there is still one to join, it was one too many for this round. -/
def runSome (r : Rehearsal) : Rehearsal :=
  let after := Nat.repeat runNext runLimit r
  if r.supervisor.ended.isEmpty then after
  else { after with supervisor := after.supervisor.postpone }

/-- One round of a shutdown. -/
def round (r : Rehearsal) : Rehearsal :=
  let r := Nat.repeat joinNext joinLimit r
  match r.supervisor.shutdown with
  | .returned _ => r
  | .idle | .joining _ => r.runSome

/-- Shut down, in rounds; each joins a task or lets one end, and the last one returns. -/
def shutdown (r : Rehearsal) : Rehearsal :=
  let (supervisor, notices) := r.supervisor.beginShutdown
  let r := wake { r with supervisor, journal := r.journal ++ notices }
  Nat.repeat round (2 * r.supervisor.size + 1) r

/-- Take the notices that were logged. -/
def takeNotices (r : Rehearsal) : List Notice × Rehearsal :=
  (r.journal, { r with journal := [] })

end Rehearsal

end NetnsWatch
