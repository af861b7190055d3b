import NetnsWatch.Correlator
import Mathlib.Data.List.Induction

/-!
# The history behind a correlator

What a correlator keeps is a function of the events it was given and of the entries it returned:
an assignment is pending when no entry names it, nothing has removed its number since, and the
newest arrival has not left it behind. Every step adds one event and one entry at the end, so the
state is followed along the stream from its beginning.
-/

namespace NetnsWatch

/-- Events with their numbers, counted from one. -/
def numbered (events : List SourceEvent) : List (SourceEvent × Nat) :=
  events.zipIdx 1

/-- The assignment that a numbered event makes, if it makes one of a known number. -/
def assignment? : SourceEvent × Nat → Option Assignment
  | (⟨arrivedAt, .nsid ⟨.assigned, some nsid, _⟩⟩, seq) => some { seq, nsid, arrivedAt }
  | _ => none

namespace SourceEvent

/-- The known number that an event removes, if it removes one. -/
def removes? : SourceEvent → Option NsId
  | ⟨_, .nsid ⟨.removed, nsid, _⟩⟩ => nsid
  | _ => none

/-- The process event that may claim an assignment, if an event is one. -/
def claimant? : SourceEvent → Option Event
  | ⟨_, .process event⟩ => if event.kind.touchesNamespace then some event else none
  | _ => none

end SourceEvent

/-- The assignments of known numbers in a stream. -/
def assignments (events : List SourceEvent) : List Assignment :=
  (numbered events).filterMap assignment?

/-- The greatest arrival in a stream. -/
def newestArrival (events : List SourceEvent) : Instant :=
  events.foldl (fun newest event => max newest event.arrivedAt) 0

/-- An assignment that is unclaimed, unretracted and not left behind after these events. -/
structure Outstanding (window : Duration) (events : List SourceEvent) (entries : List Entry)
    (a : Assignment) : Prop where
  assigned : a ∈ assignments events
  unclaimed : ∀ entry ∈ entries, ∀ association, entry.association = some association →
    association.nsidSeq ≠ a.seq
  kept : ∀ event seq, (event, seq) ∈ numbered events → a.seq < seq → event.removes? ≠ some a.nsid
  fresh : a.seq < events.length → newestArrival events - a.arrivedAt ≤ window

section Stream

variable (events : List SourceEvent) (event : SourceEvent)

/-- A new event gets the next number. -/
theorem numbered_append_singleton :
    numbered (events ++ [event]) = numbered events ++ [(event, events.length + 1)] := by
  simp only [numbered, List.zipIdx_append, List.zipIdx_cons, List.zipIdx_nil, Nat.add_comm]

/-- A new event brings at most one assignment. -/
theorem assignments_append_singleton : assignments (events ++ [event]) =
    assignments events ++ (assignment? (event, events.length + 1)).toList := by
  rw [assignments, numbered_append_singleton, List.filterMap_append, ← assignments]
  cases h : assignment? (event, events.length + 1) <;> simp [h]

/-- The newest arrival takes a new one into account. -/
theorem newestArrival_append_singleton :
    newestArrival (events ++ [event]) = max (newestArrival events) event.arrivedAt := by
  rw [newestArrival, List.foldl_append]
  rfl

/-- No arrival in a stream is later than the newest. -/
theorem newestArrival_le_iff (arrival : Instant) :
    newestArrival events ≤ arrival ↔ ∀ event ∈ events, event.arrivedAt ≤ arrival := by
  induction events using List.reverseRecOn with
  | nil => simp [newestArrival]
  | append_singleton events event ih =>
    rw [newestArrival_append_singleton, Nat.max_le, ih, List.forall_mem_append,
      List.forall_mem_singleton]

/-- Numbers do not exceed the count of events. -/
theorem le_length_of_mem_numbered {events : List SourceEvent} {event : SourceEvent} {seq : Nat}
    (h : (event, seq) ∈ numbered events) : seq ≤ events.length := by
  have hlt := List.snd_lt_of_mem_zipIdx h
  exact Nat.le_of_lt_succ hlt

/-- The assignment that an event makes has the event's number. -/
theorem seq_of_assignment? {event : SourceEvent} {seq : Nat} {a : Assignment}
    (h : assignment? (event, seq) = some a) : a.seq = seq := by
  unfold assignment? at h
  split at h
  · rename_i heq
    obtain ⟨-, rfl⟩ := Prod.mk.inj heq
    cases h
    rfl
  · cases h

/-- An assignment's number does not exceed the count of events. -/
theorem seq_le_length_of_mem_assignments {events : List SourceEvent} {a : Assignment}
    (h : a ∈ assignments events) : a.seq ≤ events.length := by
  obtain ⟨⟨event, seq⟩, hevent, ha⟩ := List.mem_filterMap.mp h
  rw [seq_of_assignment? ha]
  exact le_length_of_mem_numbered hevent

end Stream

namespace Assignment

/-- Earlier in arrival, or arrived together and not later in the stream. -/
def NotAfter (a b : Assignment) : Prop :=
  a.arrivedAt < b.arrivedAt ∨ a.arrivedAt = b.arrivedAt ∧ a.seq ≤ b.seq

/-- The order of assignments is transitive. -/
theorem NotAfter.trans {a b c : Assignment} (hab : a.NotAfter b) (hbc : b.NotAfter c) :
    a.NotAfter c := by
  unfold NotAfter Instant at *
  omega

/-- The computed order decides which of two assignments comes later. -/
theorem notAfter_of_before {a b : Assignment} (h : a.before b = true) : a.NotAfter b := by
  simp only [before, Bool.or_eq_true, Bool.and_eq_true, decide_eq_true_eq, beq_iff_eq] at h
  unfold NotAfter
  unfold Instant at *
  omega

/-- Of two assignments one does not come after the other. -/
theorem notAfter_of_not_before {a b : Assignment} (h : ¬ a.before b = true) : b.NotAfter a := by
  simp only [before, Bool.or_eq_true, Bool.and_eq_true, decide_eq_true_eq, beq_iff_eq] at h
  unfold NotAfter
  unfold Instant at *
  omega

end Assignment

/-- There is a latest assignment exactly when there is any. -/
theorem latest?_eq_none_iff (candidates : List Assignment) :
    latest? candidates = none ↔ candidates = [] := by
  cases candidates with
  | nil => simp [latest?]
  | cons a rest =>
    rw [latest?]
    cases latest? rest with
    | none => simp
    | some b => by_cases h : b.before a = true <;> simp [h]

/-- The latest assignment is one of them, and none of them comes after it. -/
theorem latest?_spec {candidates : List Assignment} {a : Assignment}
    (h : latest? candidates = some a) : a ∈ candidates ∧ ∀ b ∈ candidates, b.NotAfter a := by
  induction candidates generalizing a with
  | nil => cases h
  | cons first rest ih =>
    rw [latest?] at h
    cases hrest : latest? rest with
    | none =>
      rw [hrest] at h
      cases h
      rw [latest?_eq_none_iff] at hrest
      subst hrest
      refine ⟨List.mem_singleton.mpr rfl, fun b hb => ?_⟩
      rw [List.mem_singleton.mp hb]
      exact Or.inr ⟨rfl, Nat.le_refl _⟩
    | some other =>
      obtain ⟨hmem, hmax⟩ := ih hrest
      rw [hrest] at h
      by_cases hbefore : other.before first = true
      · simp only [hbefore, if_true] at h
        cases h
        refine ⟨List.mem_cons_self, fun b hb => ?_⟩
        rcases List.mem_cons.mp hb with rfl | hb
        · exact Or.inr ⟨rfl, Nat.le_refl _⟩
        · exact (hmax b hb).trans (Assignment.notAfter_of_before hbefore)
      · simp only [hbefore, if_false, Bool.false_eq_true] at h
        cases h
        refine ⟨List.mem_cons_of_mem _ hmem, fun b hb => ?_⟩
        rcases List.mem_cons.mp hb with rfl | hb
        · exact Assignment.notAfter_of_not_before hbefore
        · exact hmax b hb

end NetnsWatch
