import NetnsWatch.Supervisor
import Mathlib.Data.List.Induction

/-!
# The course of a supervisor

Tasks are spawned and end in any order and in any way, whoever holds the token may cancel it, and the
program shuts down when it is told to stop or finds the token cancelled. A course is what a row of
such moves comes to: the supervisor, and how its tasks ended, in the order in which they ended and in
the order in which the shutdown joined them.

The token is cancelled by a task that ends with an error. A task that crashes does not cancel it.
-/

namespace NetnsWatch.Supervisor

/-- What may happen around a supervisor. -/
inductive Move where
  /-- A task is added. -/
  | spawn (task : String)
  /-- A task ends. -/
  | finish (task : String) (ending : Ending)
  /-- Someone who holds the token cancels it. -/
  | cancel
  /-- The program is told to stop, by the user or because its time is over. -/
  | interrupt
  /-- The program looks at the token, and shuts down if it is cancelled. -/
  | look
  /-- The shutdown joins a task, or returns. -/
  | join
  /-- The shutdown passes over the task that it would join next. -/
  | postpone
  deriving DecidableEq

/-- A supervisor, and the endings of its tasks as they ended and as they were joined. -/
structure Course where
  supervisor : Supervisor
  endings : List Ending
  joined : List Ending

namespace Course

/-- Whether the shutdown has returned; the tasks that still ran are left behind then. -/
def returned (c : Course) : Bool :=
  match c.supervisor.shutdown with
  | .returned _ => true
  | .idle | .joining _ => false

/-- Put another supervisor in the place of the one there is. -/
def withSupervisor (c : Course) (supervisor : Supervisor) : Course :=
  { c with supervisor }

/-- What a move does; one that is not possible does nothing. -/
def move (c : Course) : Move → Course
  | .spawn task =>
    if c.supervisor.shutdown = .idle then c.withSupervisor (c.supervisor.spawn task) else c
  | .finish task ending =>
    if task ∈ c.supervisor.running ∧ c.returned = false then
      { c with
        supervisor := (c.supervisor.finish task ending).1
        endings := c.endings ++ [ending] }
    else c
  | .cancel => c.withSupervisor c.supervisor.cancel
  | .interrupt => c.withSupervisor c.supervisor.beginShutdown.1
  | .look =>
    if c.supervisor.cancelled then c.withSupervisor c.supervisor.beginShutdown.1 else c
  | .join =>
    match c.supervisor.shutdown with
    | .joining _ =>
      { c with
        supervisor := c.supervisor.joinNext.1
        joined := c.joined ++ c.supervisor.ended.head?.toList }
    | .idle | .returned _ => c
  | .postpone =>
    match c.supervisor.shutdown with
    | .joining _ => c.withSupervisor c.supervisor.postpone
    | .idle | .returned _ => c

/-- Make moves in order. -/
def moves (c : Course) (row : List Move) : Course :=
  row.foldl move c

/-- The course of some moves with tasks that have just been spawned. -/
def ofMoves (tasks : List String) (row : List Move) : Course :=
  moves { supervisor := .create tasks, endings := [], joined := [] } row

variable {tasks : List String} {row : List Move} {c : Course}

/-- A move made after others. -/
theorem ofMoves_append_singleton (tasks : List String) (row : List Move) (m : Move) :
    ofMoves tasks (row ++ [m]) = (ofMoves tasks row).move m :=
  List.foldl_append

/-- All that a move can do. -/
inductive Step (c : Course) : Move → Course → Prop
  | stay {m : Move} (hcancel : m ≠ .cancel)
      (hinterrupt : m = .interrupt → c.supervisor.shutdown ≠ .idle)
      (hjoin : m = .join → c.supervisor.running = [] →
        ∀ first, c.supervisor.shutdown ≠ .joining first) : Step c m c
  | spawn {task : String} (hidle : c.supervisor.shutdown = .idle) :
      Step c (.spawn task) (c.withSupervisor (c.supervisor.spawn task))
  | finish {task : String} {ending : Ending} (hrunning : task ∈ c.supervisor.running)
      (hopen : c.returned = false) :
      Step c (.finish task ending) { c with
        supervisor := (c.supervisor.finish task ending).1
        endings := c.endings ++ [ending] }
  | cancel : Step c .cancel (c.withSupervisor c.supervisor.cancel)
  | begin {m : Move} (hasked : m = .interrupt ∨ c.supervisor.cancelled = true)
      (hidle : c.supervisor.shutdown = .idle) :
      Step c m (c.withSupervisor { c.supervisor.cancel with shutdown := .joining none })
  | join {first : Option Fault} {ending : Ending} {rest : List Ending}
      (hjoining : c.supervisor.shutdown = .joining first)
      (hended : c.supervisor.ended = ending :: rest) (hkind : ending ≠ .crashed) :
      Step c .join { c with
        supervisor := { c.supervisor with
          ended := rest
          shutdown := .joining (first.or ending.fault?) }
        joined := c.joined ++ [ending] }
  | crash {first : Option Fault} {rest : List Ending}
      (hjoining : c.supervisor.shutdown = .joining first)
      (hended : c.supervisor.ended = .crashed :: rest) :
      Step c .join { c with
        supervisor := { c.supervisor with ended := rest, shutdown := .returned (some .crash) }
        joined := c.joined ++ [.crashed] }
  | complete {first : Option Fault} (hjoining : c.supervisor.shutdown = .joining first)
      (hended : c.supervisor.ended = []) (hrunning : c.supervisor.running = []) :
      Step c .join (c.withSupervisor
        { c.supervisor with shutdown := .returned (first.map .fault) })
  | postpone {first : Option Fault} {ending : Ending} {rest : List Ending}
      (hjoining : c.supervisor.shutdown = .joining first)
      (hended : c.supervisor.ended = ending :: rest) :
      Step c .postpone (c.withSupervisor { c.supervisor with ended := rest ++ [ending] })

/-- Asking for a shutdown begins it, or does nothing where there is one already. -/
theorem step_beginShutdown {m : Move} (hcancel : m ≠ .cancel) (hjoin : m ≠ .join)
    (hasked : m = .interrupt ∨ c.supervisor.cancelled = true) :
    Step c m (c.withSupervisor c.supervisor.beginShutdown.1) := by
  cases hshutdown : c.supervisor.shutdown with
  | idle =>
    rw [beginShutdown, hshutdown]
    exact .begin hasked hshutdown
  | joining first =>
    rw [beginShutdown, hshutdown]
    exact .stay hcancel (fun _ => by simp [hshutdown]) fun h => absurd h hjoin
  | returned failure =>
    rw [beginShutdown, hshutdown]
    exact .stay hcancel (fun _ => by simp [hshutdown]) fun h => absurd h hjoin

/-- Joining takes one task, crashed or not, or returns where no task is left, or waits. -/
theorem step_join {first : Option Fault} (hjoining : c.supervisor.shutdown = .joining first) :
    Step c .join { c with
      supervisor := c.supervisor.joinNext.1
      joined := c.joined ++ c.supervisor.ended.head?.toList } := by
  cases hended : c.supervisor.ended with
  | nil =>
    by_cases hrunning : c.supervisor.running = []
    · have hdone := Step.complete hjoining hended hrunning
      simpa [joinNext, hjoining, hended, hrunning, withSupervisor] using hdone
    · have hwait : Step c .join c := .stay nofun nofun fun _ hnone => absurd hnone hrunning
      simpa [joinNext, hjoining, hended, hrunning] using hwait
  | cons ending rest =>
    cases ending with
    | finished =>
      have hstep := Step.join hjoining hended nofun
      simpa [joinNext, hjoining, hended, Ending.fault?] using hstep
    | failed fault =>
      have hstep := Step.join hjoining hended nofun
      cases first with
      | none => simpa [joinNext, hjoining, hended, Ending.fault?] using hstep
      | some earlier => simpa [joinNext, hjoining, hended, Ending.fault?] using hstep
    | crashed =>
      have hstep := Step.crash hjoining hended
      simpa [joinNext, hjoining, hended] using hstep

/-- Every move does one of these things. -/
theorem step_move (c : Course) (m : Move) : Step c m (c.move m) := by
  have hstay : ∀ m : Move, m ≠ .cancel → m ≠ .interrupt → m ≠ .join → Step c m c :=
    fun m hcancel hinterrupt hjoin =>
      .stay hcancel (fun h => absurd h hinterrupt) fun h => absurd h hjoin
  cases m with
  | spawn task =>
    rw [move]
    split
    · rename_i hidle
      exact .spawn hidle
    · exact hstay _ nofun nofun nofun
  | finish task ending =>
    rw [move]
    split
    · rename_i hcan
      exact .finish hcan.1 hcan.2
    · exact hstay _ nofun nofun nofun
  | cancel => exact .cancel
  | interrupt => exact step_beginShutdown nofun nofun (Or.inl rfl)
  | look =>
    rw [move]
    split
    · rename_i hcancelled
      exact step_beginShutdown nofun nofun (Or.inr hcancelled)
    · exact hstay _ nofun nofun nofun
  | join =>
    rw [move]
    split
    · rename_i hjoining
      exact step_join hjoining
    · rename_i hidle
      exact .stay nofun nofun fun _ _ first => by simp [hidle]
    · rename_i hreturned
      exact .stay nofun nofun fun _ _ first => by simp [hreturned]
  | postpone =>
    rw [move]
    split
    · rename_i hjoining
      cases hended : c.supervisor.ended with
      | nil =>
        rw [Supervisor.postpone, hended]
        exact hstay _ nofun nofun nofun
      | cons ending rest =>
        rw [Supervisor.postpone, hended]
        exact .postpone hjoining hended
    · exact hstay _ nofun nofun nofun
    · exact hstay _ nofun nofun nofun

/-- Why the token is cancelled: someone asked for it or for a stop, or a task ended with an error. -/
structure Called (row : List Move) (c : Course) : Prop where
  of_begun : c.supervisor.shutdown ≠ .idle → c.supervisor.cancelled = true
  cancelled_iff : c.supervisor.cancelled = true ↔
    .cancel ∈ row ∨ .interrupt ∈ row ∨ ∃ fault, .failed fault ∈ c.endings

/-- A move that has nothing to do with the token leaves the reasons. -/
theorem Called.of_same {m : Move} {c' : Course} (h : Called row c) (hcancel : m ≠ .cancel)
    (hinterrupt : m ≠ .interrupt) (hcancelled : c'.supervisor.cancelled = c.supervisor.cancelled)
    (hendings : ∀ fault, .failed fault ∈ c'.endings ↔ .failed fault ∈ c.endings)
    (hshutdown : c.supervisor.shutdown = .idle → c'.supervisor.shutdown = .idle) :
    Called (row ++ [m]) c' where
  of_begun hbegun := by
    rw [hcancelled]
    exact h.of_begun (mt hshutdown hbegun)
  cancelled_iff := by
    have hrow : ∀ asked : Move, m ≠ asked → (asked ∈ row ++ [m] ↔ asked ∈ row) := by
      intro asked hne
      rw [List.mem_append, List.mem_singleton, or_iff_left (Ne.symm hne)]
    rw [hcancelled, h.cancelled_iff, hrow _ hcancel, hrow _ hinterrupt]
    simp only [hendings]

/-- A move that cancels the token has a reason for it. -/
theorem Called.of_cancelled {m : Move} {c' : Course} (hcancelled : c'.supervisor.cancelled = true)
    (hreason : .cancel ∈ row ++ [m] ∨ .interrupt ∈ row ++ [m] ∨
      ∃ fault, .failed fault ∈ c'.endings) : Called (row ++ [m]) c' where
  of_begun _ := hcancelled
  cancelled_iff := iff_of_true hcancelled hreason

/-- Reasons stay reasons. -/
theorem Called.mono {m : Move} {c' : Course} (h : Called row c)
    (hcancelled : c.supervisor.cancelled = true)
    (hendings : ∀ fault, .failed fault ∈ c.endings → .failed fault ∈ c'.endings) :
    .cancel ∈ row ++ [m] ∨ .interrupt ∈ row ++ [m] ∨ ∃ fault, .failed fault ∈ c'.endings := by
  obtain hcancel | hinterrupt | ⟨fault, hfailed⟩ := h.cancelled_iff.mp hcancelled
  · exact Or.inl (List.mem_append_left _ hcancel)
  · exact Or.inr (Or.inl (List.mem_append_left _ hinterrupt))
  · exact Or.inr (Or.inr ⟨fault, hendings fault hfailed⟩)

/-- A move cancels the token for one of these reasons only, and for each of them. -/
theorem Step.called {m : Move} {c' : Course} (hstep : Step c m c') (h : Called row c) :
    Called (row ++ [m]) c' := by
  cases hstep with
  | stay hcancel hinterrupt hjoin =>
    by_cases hm : m = .interrupt
    · have hcancelled := h.of_begun (hinterrupt hm)
      exact .of_cancelled hcancelled (h.mono hcancelled fun _ hfailed => hfailed)
    · exact h.of_same hcancel hm rfl (fun _ => Iff.rfl) id
  | spawn | postpone => exact h.of_same nofun nofun rfl (fun _ => Iff.rfl) id
  | @finish task ending hrunning hopen =>
    cases ending with
    | finished => exact h.of_same nofun nofun rfl (fun _ => by simp) id
    | crashed => exact h.of_same nofun nofun rfl (fun _ => by simp) id
    | failed fault => exact .of_cancelled rfl (Or.inr (Or.inr ⟨fault, by simp⟩))
  | cancel => exact .of_cancelled rfl (Or.inl (by simp))
  | begin hasked hidle =>
    refine .of_cancelled rfl ?_
    obtain rfl | hcancelled := hasked
    · exact Or.inr (Or.inl (by simp))
    · exact h.mono hcancelled fun _ hfailed => hfailed
  | join hjoining | crash hjoining | complete hjoining =>
    exact h.of_same nofun nofun rfl (fun _ => Iff.rfl) fun hidle => by simp [hjoining] at hidle

/-- The reasons of a whole course. -/
theorem called_ofMoves (tasks : List String) (row : List Move) :
    Called row (ofMoves tasks row) := by
  induction row using List.reverseRecOn with
  | nil => exact ⟨fun hbegun => absurd rfl hbegun, by simp [ofMoves, moves, create]⟩
  | append_singleton row m ih =>
    rw [ofMoves_append_singleton]
    exact (step_move _ m).called ih

/-- The token is cancelled exactly if someone asked for that or for a stop, or a task has ended
with an error, and that is exactly when the program, looking at it, has begun to shut down. -/
theorem cancelled_iff_called (tasks : List String) (row : List Move) :
    ((ofMoves tasks row).supervisor.cancelled = true ↔
      .cancel ∈ row ∨ .interrupt ∈ row ∨
        ∃ fault, .failed fault ∈ (ofMoves tasks row).endings) ∧
      ((ofMoves tasks row).supervisor.cancelled = true ↔
        (ofMoves tasks (row ++ [.look])).supervisor.shutdown ≠ .idle) := by
  have hcalled := called_ofMoves tasks row
  refine ⟨hcalled.cancelled_iff, ?_⟩
  rw [ofMoves_append_singleton, move]
  by_cases hcancelled : (ofMoves tasks row).supervisor.cancelled = true
  · rw [if_pos hcancelled, withSupervisor, beginShutdown]
    refine iff_of_true hcancelled ?_
    cases hshutdown : (ofMoves tasks row).supervisor.shutdown with
    | idle => nofun
    | joining first => simp [hshutdown]
    | returned failure => simp [hshutdown]
  · rw [if_neg hcancelled]
    exact iff_of_false hcancelled (mt hcalled.of_begun hcancelled)

/-- It is not enough that a task has ended badly: after a crash the token is as it was, and the
other task waits for a shutdown that nothing begins. -/
theorem not_cancelled_by_crash : ¬ ∀ (tasks : List String) (row : List Move),
    (∃ ending ∈ (ofMoves tasks row).endings, ending ≠ .finished) →
      (ofMoves tasks row).supervisor.cancelled = true := by
  intro h
  have hcancelled := h ["idle", "b"] [.finish "b" .crashed] ⟨.crashed, by decide, by decide⟩
  exact absurd hcancelled (by decide)

end Course

end NetnsWatch.Supervisor
