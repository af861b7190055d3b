import NetnsWatch.Notice

/-!
# Supervision of tasks

The supervisor owns the tasks and the token that stops them. A task that ends with an error is
logged and cancels the token; one that crashes ends silently. A shutdown cancels the token and then
joins the tasks in the order in which they ended: it remembers the first error and goes on, but a
crash ends it at once, with the tasks that still run left behind.
-/

namespace NetnsWatch

/-- How a task ended. -/
inductive Ending where
  | finished
  | failed (fault : Fault)
  | crashed
  deriving DecidableEq, Repr

/-- The fault with which a task ended. -/
def Ending.fault? : Ending → Option Fault
  | .failed fault => some fault
  | .finished | .crashed => none

/-- Why a shutdown did not succeed. -/
inductive TaskFailure where
  | fault (fault : Fault)
  | crash
  deriving DecidableEq, Repr

/-- How far a shutdown has come. -/
inductive Shutdown where
  /-- Nobody has asked for it. -/
  | idle
  /-- Tasks are being joined; the first error so far. -/
  | joining (first : Option Fault)
  /-- It has returned. -/
  | returned (failure : Option TaskFailure)
  deriving DecidableEq, Repr

/-- The token, the tasks that run, and those that ended but were not joined yet. -/
structure Supervisor where
  cancelled : Bool
  running : List String
  ended : List Ending
  shutdown : Shutdown
  deriving DecidableEq, Repr

namespace Supervisor

/-- A supervisor of tasks that have just been spawned. -/
def create (tasks : List String) : Supervisor :=
  { cancelled := false, running := tasks, ended := [], shutdown := .idle }

/-- Add a task. -/
def spawn (task : String) (s : Supervisor) : Supervisor :=
  { s with running := s.running ++ [task] }

/-- The number of tasks that were not joined yet. -/
def size (s : Supervisor) : Nat :=
  s.running.length + s.ended.length

/-- Cancel the token. -/
def cancel (s : Supervisor) : Supervisor :=
  { s with cancelled := true }

/-- Note that a task has ended. -/
def finish (task : String) (ending : Ending) (s : Supervisor) : Supervisor × List Notice :=
  let s := { s with running := s.running.erase task, ended := s.ended ++ [ending] }
  match ending with
  | .finished | .crashed => (s, [])
  | .failed fault => (s.cancel, [.taskFailed task fault])

/-- Ask all tasks to stop. -/
def beginShutdown (s : Supervisor) : Supervisor × List Notice :=
  match s.shutdown with
  | .idle => ({ s.cancel with shutdown := .joining none }, [.shutdownStarting])
  | .joining _ | .returned _ => (s, [])

/-- Join the task that ended first among those left, or return once no task is left. -/
def joinNext (s : Supervisor) : Supervisor × List Notice :=
  match s.shutdown with
  | .idle | .returned _ => (s, [])
  | .joining first =>
    match s.ended with
    | .finished :: rest => ({ s with ended := rest }, [])
    | .failed fault :: rest =>
      ({ s with ended := rest, shutdown := .joining (some (first.getD fault)) }, [])
    | .crashed :: rest => ({ s with ended := rest, shutdown := .returned (some .crash) }, [])
    | [] =>
      if s.running.isEmpty then
        ({ s with shutdown := .returned (first.map .fault) }, [.shutdownComplete])
      else (s, [])

/-- Put the task that would be joined next behind the others that have ended. -/
def postpone (s : Supervisor) : Supervisor :=
  match s.ended with
  | [] => s
  | ending :: rest => { s with ended := rest ++ [ending] }

/-- Join every task that has ended, and return if no task is left. -/
def joinEnded (s : Supervisor) : Supervisor × List Notice :=
  (List.range (s.ended.length + 1)).foldl
    (fun (s, notices) _ =>
      let (s, more) := s.joinNext
      (s, notices ++ more))
    (s, [])

/-- The failure that the shutdown returned, if there was one. -/
def failure? (s : Supervisor) : Option TaskFailure :=
  match s.shutdown with
  | .returned failure => failure
  | .idle | .joining _ => none

end Supervisor

end NetnsWatch
