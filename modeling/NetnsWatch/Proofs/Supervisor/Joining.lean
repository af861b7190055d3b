import NetnsWatch.Proofs.Supervisor.Course

/-!
# What a shutdown returns

A shutdown joins the tasks one after another and remembers the first error it meets. While no task
has crashed it goes on to the last of them, and then returns that error or success. A crash that it
joins ends it at once: the error it remembered is lost, and the tasks that still run are left behind.
-/

namespace NetnsWatch

/-- The failure that an ending is. -/
def Ending.failure? : Ending → Option TaskFailure
  | .finished => none
  | .failed fault => some (.fault fault)
  | .crashed => some .crash

/-- Where nothing crashed, the first failure is the first error. -/
theorem findSome?_failure? {endings : List Ending} (h : .crashed ∉ endings) :
    endings.findSome? Ending.failure? = (endings.findSome? Ending.fault?).map .fault := by
  induction endings with
  | nil => rfl
  | cons ending rest ih =>
    obtain ⟨hhead, hrest⟩ := not_or.mp (mt List.mem_cons.mpr h)
    cases ending with
    | finished => exact ih hrest
    | failed fault => rfl
    | crashed => exact absurd rfl hhead

/-- No ending is a failure exactly if all are good. -/
theorem findSome?_failure?_eq_none_iff (endings : List Ending) :
    endings.findSome? Ending.failure? = none ↔ ∀ ending ∈ endings, ending = .finished := by
  rw [List.findSome?_eq_none_iff]
  refine forall₂_congr fun ending _ => ?_
  cases ending <;> simp [Ending.failure?]

namespace Supervisor.Course

variable {tasks : List String} {row more : List Move} {c c' : Course} {m : Move}

/-- The endings of the tasks that the supervisor no longer runs: those joined, then the others. -/
def accounted (c : Course) : List Ending :=
  c.joined ++ c.supervisor.ended

/-- A task that ends leaves the shutdown as it is. -/
theorem finish_shutdown (task : String) (ending : Ending) (s : Supervisor) :
    (s.finish task ending).1.shutdown = s.shutdown := by
  cases ending <;> rfl

/-- A task that ends waits behind those that ended before it. -/
theorem finish_ended (task : String) (ending : Ending) (s : Supervisor) :
    (s.finish task ending).1.ended = s.ended ++ [ending] := by
  cases ending <;> rfl

/-- A move adds at most one ending, which is accounted for behind the others; only where a task is
passed over do those come in another order. -/
theorem Step.accounted (hstep : Step c m c') :
    (c'.endings = c.endings ∧ c'.accounted.Perm c.accounted ∧
        (m ≠ .postpone → c'.accounted = c.accounted)) ∨
      ∃ ending, c'.endings = c.endings ++ [ending] ∧ c'.accounted = c.accounted ++ [ending] := by
  have hmoved : ∀ {ending : Ending} {rest : List Ending}, c.supervisor.ended = ending :: rest →
      c.joined ++ [ending] ++ rest = c.accounted := by
    intro ending rest hended
    rw [Course.accounted, hended, List.append_assoc, List.singleton_append]
  cases hstep with
  | stay | spawn | cancel | begin | complete => exact Or.inl ⟨rfl, .refl _, fun _ => rfl⟩
  | @finish task ending =>
    refine Or.inr ⟨ending, rfl, ?_⟩
    rw [Course.accounted, finish_ended, ← List.append_assoc]
    rfl
  | join hjoining hended | crash hjoining hended =>
    exact Or.inl ⟨rfl, .of_eq (hmoved hended), fun _ => hmoved hended⟩
  | @postpone first ending rest hjoining hended =>
    refine Or.inl ⟨rfl, ?_, fun hm => absurd rfl hm⟩
    rw [Course.accounted, Course.accounted, hended]
    exact (List.perm_append_singleton ending rest).append_left c.joined

/-- Every ending is accounted for, and in the order of ending if no task is passed over. -/
theorem accounted_ofMoves (tasks : List String) (row : List Move) :
    (ofMoves tasks row).accounted.Perm (ofMoves tasks row).endings ∧
      (.postpone ∉ row → (ofMoves tasks row).accounted = (ofMoves tasks row).endings) := by
  induction row using List.reverseRecOn with
  | nil => exact ⟨.refl _, fun _ => rfl⟩
  | append_singleton row m ih =>
    obtain ⟨hperm, horder⟩ := ih
    have hearlier : .postpone ∉ row ++ [m] → .postpone ∉ row ∧ m ≠ .postpone := by
      intro hnone
      rw [List.mem_append, List.mem_singleton, not_or] at hnone
      exact ⟨hnone.1, Ne.symm hnone.2⟩
    rw [ofMoves_append_singleton]
    obtain ⟨hendings, hkept, hsame⟩ | ⟨ending, hendings, hadded⟩ := (step_move _ m).accounted
    · rw [hendings]
      refine ⟨hkept.trans hperm, fun hnone => ?_⟩
      rw [hsame (hearlier hnone).2, horder (hearlier hnone).1]
    · rw [hendings, hadded]
      refine ⟨hperm.append_right _, fun hnone => ?_⟩
      rw [horder (hearlier hnone).1]

/-- What a shutdown remembers or has returned is what the endings that it joined come to. -/
structure Remembers (c : Course) : Prop where
  of_idle : c.supervisor.shutdown = .idle → c.joined = []
  of_joining : ∀ first, c.supervisor.shutdown = .joining first →
    .crashed ∉ c.joined ∧ first = c.joined.findSome? Ending.fault?
  of_returned : ∀ failure, c.supervisor.shutdown = .returned failure →
    .crashed ∈ c.joined ∧ failure = some .crash ∨
      .crashed ∉ c.joined ∧ c.supervisor.running = [] ∧ c.supervisor.ended = [] ∧
        failure = (c.joined.findSome? Ending.fault?).map .fault

/-- Every move keeps that. -/
theorem Step.remembers (hstep : Step c m c') (h : Remembers c) : Remembers c' := by
  cases hstep with
  | stay => exact h
  | spawn hidle =>
    refine ⟨h.of_idle, h.of_joining, fun failure hreturned => ?_⟩
    exact absurd (hidle.symm.trans hreturned) nofun
  | finish hrunning hopen =>
    refine ⟨?_, ?_, ?_⟩
    · rw [finish_shutdown]
      exact h.of_idle
    · rw [finish_shutdown]
      exact h.of_joining
    · rw [finish_shutdown]
      intro failure hreturned
      simp [returned, hreturned] at hopen
  | cancel => exact ⟨h.of_idle, h.of_joining, h.of_returned⟩
  | begin hasked hidle =>
    refine ⟨nofun, fun first hjoining => ?_, nofun⟩
    cases hjoining
    change .crashed ∉ c.joined ∧ none = c.joined.findSome? Ending.fault?
    rw [h.of_idle hidle]
    exact ⟨List.not_mem_nil, rfl⟩
  | @join first ending rest hjoining hended hkind =>
    obtain ⟨hcrash, hfirst⟩ := h.of_joining first hjoining
    refine ⟨nofun, fun other hother => ?_, nofun⟩
    cases hother
    constructor
    · simp [hcrash, Ne.symm hkind]
    · rw [List.findSome?_append, ← hfirst]
      simp
  | crash hjoining hended =>
    refine ⟨nofun, nofun, fun failure hreturned => ?_⟩
    cases hreturned
    exact Or.inl ⟨List.mem_append_right _ List.mem_cons_self, rfl⟩
  | @complete first hjoining hended hrunning =>
    obtain ⟨hcrash, hfirst⟩ := h.of_joining first hjoining
    refine ⟨nofun, nofun, fun failure hreturned => ?_⟩
    cases hreturned
    exact Or.inr ⟨hcrash, hrunning, hended, congrArg _ hfirst⟩
  | @postpone first ending rest hjoining hended =>
    refine ⟨h.of_idle, h.of_joining, fun failure hreturned => ?_⟩
    exact absurd (hjoining.symm.trans hreturned) nofun

/-- So it is after every course. -/
theorem remembers_ofMoves (tasks : List String) (row : List Move) :
    Remembers (ofMoves tasks row) := by
  induction row using List.reverseRecOn with
  | nil => exact ⟨fun _ => rfl, nofun, nofun⟩
  | append_singleton row m ih =>
    rw [ofMoves_append_singleton]
    exact (step_move _ m).remembers ih

/-- A shutdown that has returned has returned for good. -/
theorem Step.stays_returned {failure : Option TaskFailure} (hstep : Step c m c')
    (h : c.supervisor.shutdown = .returned failure) :
    c'.supervisor.shutdown = .returned failure := by
  cases hstep with
  | finish =>
    rw [finish_shutdown]
    exact h
  | begin hasked hidle => exact absurd (hidle.symm.trans h) nofun
  | join hjoining | crash hjoining | complete hjoining =>
    exact absurd (hjoining.symm.trans h) nofun
  | stay | spawn | cancel | postpone => exact h

/-- Whatever happens after the return, it stays so. -/
theorem stays_returned_moves {failure : Option TaskFailure}
    (h : c.supervisor.shutdown = .returned failure) (more : List Move) :
    (c.moves more).supervisor.shutdown = .returned failure := by
  induction more generalizing c with
  | nil => exact h
  | cons m more ih => exact ih ((step_move c m).stays_returned h)

/-- Where no task runs any more, a move of the shutdown has it return or leaves it one task less. -/
theorem Step.approaches {first : Option Fault} (hstep : Step c m c')
    (hjoining : c.supervisor.shutdown = .joining first) (hrunning : c.supervisor.running = []) :
    (∃ failure, c'.supervisor.shutdown = .returned failure) ∨
      (∃ first, c'.supervisor.shutdown = .joining first) ∧ c'.supervisor.running = [] ∧
        c'.supervisor.ended.length + [m].count .join = c.supervisor.ended.length := by
  cases hstep with
  | stay hcancel hinterrupt hjoin =>
    have hm : m ≠ .join := fun hm => hjoin hm hrunning first hjoining
    exact Or.inr ⟨⟨first, hjoining⟩, hrunning, by simp [hm]⟩
  | spawn hidle => exact absurd (hidle.symm.trans hjoining) nofun
  | finish hmem => simp [hrunning] at hmem
  | cancel => exact Or.inr ⟨⟨first, hjoining⟩, hrunning, rfl⟩
  | begin hasked hidle => exact absurd (hidle.symm.trans hjoining) nofun
  | join hthis hended => exact Or.inr ⟨⟨_, rfl⟩, hrunning, by simp [hended]⟩
  | crash | complete => exact Or.inl ⟨_, rfl⟩
  | postpone hthis hended => exact Or.inr ⟨⟨first, hjoining⟩, hrunning, by simp [withSupervisor, hended]⟩

/-- Where no task runs any more, a shutdown returns after as many joins as tasks are left and one. -/
theorem returns_of_count {first : Option Fault} (more : List Move)
    (hjoining : c.supervisor.shutdown = .joining first) (hrunning : c.supervisor.running = [])
    (hcount : c.supervisor.ended.length < more.count .join) :
    ∃ failure, (c.moves more).supervisor.shutdown = .returned failure := by
  induction more generalizing c first with
  | nil => exact absurd hcount (Nat.not_lt_zero _)
  | cons m more ih =>
    obtain ⟨failure, hreturned⟩ | ⟨⟨later, hlater⟩, hnone, hleft⟩ :=
      (step_move c m).approaches hjoining hrunning
    · exact ⟨failure, stays_returned_moves hreturned more⟩
    · rw [← List.singleton_append, List.count_append] at hcount
      exact ih hlater hnone (by omega)

/-- A shutdown that has returned has joined all tasks, and the first of their failures in the order
of joining is what it returned, unless a task has crashed: then it returned that crash. And if no task
runs any more, it returns. -/
theorem shutdown_outcome (tasks : List String) (row : List Move) :
    (∀ failure, (ofMoves tasks row).supervisor.shutdown = .returned failure →
      (.crashed ∈ (ofMoves tasks row).endings → failure = some .crash) ∧
      (.crashed ∉ (ofMoves tasks row).endings →
        (ofMoves tasks row).supervisor.running = [] ∧
        (ofMoves tasks row).joined.Perm (ofMoves tasks row).endings ∧
        (.postpone ∉ row → (ofMoves tasks row).joined = (ofMoves tasks row).endings) ∧
        failure = (ofMoves tasks row).joined.findSome? Ending.failure?) ∧
      (failure = none ↔ (ofMoves tasks row).supervisor.running = [] ∧
        ∀ ending ∈ (ofMoves tasks row).endings, ending = .finished)) ∧
      ∀ first more, (ofMoves tasks row).supervisor.shutdown = .joining first →
        (ofMoves tasks row).supervisor.running = [] →
        (ofMoves tasks row).supervisor.ended.length < more.count .join →
        ∃ failure, (ofMoves tasks (row ++ more)).supervisor.shutdown = .returned failure := by
  obtain ⟨hperm, horder⟩ := accounted_ofMoves tasks row
  constructor
  · intro failure hreturned
    obtain ⟨hcrash, rfl⟩ | ⟨hcrash, hrunning, hended, rfl⟩ :=
      (remembers_ofMoves tasks row).of_returned failure hreturned
    · have hin : .crashed ∈ (ofMoves tasks row).endings :=
        hperm.mem_iff.mp (List.mem_append_left _ hcrash)
      refine ⟨fun _ => rfl, fun hnone => absurd hin hnone, iff_of_false nofun ?_⟩
      rintro ⟨-, hgood⟩
      exact absurd (hgood _ hin) nofun
    · have hjoined : (ofMoves tasks row).accounted = (ofMoves tasks row).joined := by
        rw [accounted, hended, List.append_nil]
      rw [hjoined] at hperm horder
      rw [← findSome?_failure? hcrash]
      refine ⟨fun hin => absurd (hperm.mem_iff.mpr hin) hcrash,
        fun _ => ⟨hrunning, hperm, horder, rfl⟩, ?_⟩
      rw [findSome?_failure?_eq_none_iff]
      simp only [hrunning, true_and, hperm.mem_iff]
  · intro first more hjoining hrunning hcount
    rw [ofMoves, moves, List.foldl_append]
    exact returns_of_count more hjoining hrunning hcount

/-- Two tasks fail and a third one is well; the first failure is returned. -/
def twoFailures : List Move :=
  [.finish "a" (.failed (.custom "boom")), .look, .finish "b" .finished,
    .finish "c" (.failed (.custom "late")), .join, .join, .join, .join]

/-- All three have ended when the first of the two failures is returned, and a shutdown with one task
to join returns after two joins. -/
theorem twoFailures_outcome :
    ((ofMoves ["a", "b", "c"] twoFailures).supervisor.running = [] ∧
      some (.fault (.custom "boom")) =
        (ofMoves ["a", "b", "c"] twoFailures).endings.findSome? Ending.failure?) ∧
      ∃ failure, (ofMoves ["a"] ([.finish "a" .finished, .interrupt] ++
        [.join, .join])).supervisor.shutdown = .returned failure := by
  have hreturned : (ofMoves ["a", "b", "c"] twoFailures).supervisor.shutdown =
      .returned (some (.fault (.custom "boom"))) := by decide
  obtain ⟨-, hclean, -⟩ :=
    (shutdown_outcome ["a", "b", "c"] twoFailures).1 _ hreturned
  obtain ⟨hrunning, -, horder, hfailure⟩ := hclean (by decide)
  rw [horder (by decide)] at hfailure
  have hreturns := (shutdown_outcome ["a"] [.finish "a" .finished, .interrupt]).2 none [.join, .join]
    (by decide) (by decide) (by decide)
  exact ⟨⟨hrunning, hfailure⟩, hreturns⟩

/-- It is not always the first failure that a shutdown returns: here an error is lost to a later
crash. -/
theorem not_first_failure : ¬ ∀ (tasks : List String) (row : List Move) (failure : Option TaskFailure),
    (ofMoves tasks row).supervisor.shutdown = .returned failure →
      (ofMoves tasks row).supervisor.running = [] ∧
        failure = (ofMoves tasks row).endings.findSome? Ending.failure? := by
  intro h
  obtain ⟨-, hfailure⟩ := h ["a", "b"]
    [.finish "a" (.failed (.custom "boom")), .finish "b" .crashed, .look, .join, .join]
    (some .crash) (by decide)
  exact absurd hfailure (by decide)

end Supervisor.Course

end NetnsWatch
