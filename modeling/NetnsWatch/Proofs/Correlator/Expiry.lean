import NetnsWatch.Proofs.Correlator.Noise

/-!
# Dropping what has expired

Every arrival makes the correlator drop the assignments that lie more than a window behind the
newest one. A correlator that keeps them all and looks at the window only when an event claims has
more and more pending, but while arrivals do not decrease it returns the same entries: what one
arrival leaves behind, no later one can claim. So the two states differ at any time only in
assignments that nothing to come can be joined with.
-/

namespace NetnsWatch.Correlator

/-- Number the next event, note its arrival, and drop nothing. -/
def noteArrivalKeeping (arrival : Instant) (c : Correlator) : Correlator :=
  { c with nextSeq := c.nextSeq + 1, newest := some (c.newestWith arrival) }

/-- Turn the next source event into an entry, and drop nothing for its age. -/
def acceptKeeping (event : SourceEvent) (c : Correlator) : Entry × Correlator :=
  (c.noteArrivalKeeping event.arrivedAt).settle event c.nextSeq

/-- The entries of a sequence of source events, and the state after it, if nothing is dropped for
its age. -/
def acceptAllKeeping : List SourceEvent → Correlator → List Entry × Correlator
  | [], c => ([], c)
  | event :: rest, c =>
    let (entry, c) := c.acceptKeeping event
    let (entries, c) := acceptAllKeeping rest c
    (entry :: entries, c)

/-- What is within the window of an arrival is left standing by it. -/
theorem filter_within_standing (window : Duration) (arrival : Instant) (pending : List Assignment) :
    (standing window arrival pending).filter (·.within window arrival) =
      pending.filter (·.within window arrival) := by
  rw [standing, List.filter_filter]
  refine List.filter_congr fun a _ => ?_
  rw [Bool.and_eq_left_iff_imp, Assignment.within, Bool.and_eq_true]
  exact And.right

/-- What is taken away for another reason does not matter to what an arrival leaves standing. -/
theorem standing_filter (window : Duration) (arrival : Instant) (stays : Assignment → Bool)
    (pending : List Assignment) : standing window arrival (pending.filter stays) =
      (standing window arrival pending).filter stays := by
  rw [standing, standing, List.filter_filter, List.filter_filter]
  exact List.filter_congr fun a _ => Bool.and_comm _ _

/-- What an arrival leaves standing of assignments in two parts. -/
theorem standing_append (window : Duration) (arrival : Instant) (earlier later : List Assignment) :
    standing window arrival (earlier ++ later) =
      standing window arrival earlier ++ standing window arrival later :=
  List.filter_append ..

/-- What is pending after a step that drops nothing for its age, in stream order. -/
theorem pending_acceptKeeping (event : SourceEvent) (c : Correlator) :
    (c.acceptKeeping event).2.pending =
      (c.pending.filter fun a => (c.acceptKeeping event).1.association.all (·.nsidSeq != a.seq) &&
        event.removes?.all (· != a.nsid)) ++ (assignment? (event, c.nextSeq)).toList :=
  pending_settle event c.nextSeq (c.noteArrivalKeeping event.arrivedAt)

/-- An entry is settled by what is pending within the window of its event. -/
theorem entry_settle_congr {event : SourceEvent} {seq : Nat} {c kept : Correlator}
    (hpending : c.pending.filter (·.within c.window event.arrivedAt) =
      kept.pending.filter (·.within kept.window event.arrivedAt)) :
    (c.settle event seq).1 = (kept.settle event seq).1 := by
  have hassociation : (c.settle event seq).1.association = (kept.settle event seq).1.association := by
    rw [association_settle, association_settle, hpending]
  exact congrArg (Entry.mk seq event.arrivedAt event.occurrence) hassociation

/-- The first state is the second without assignments that no arrival from an instant on can claim. -/
structure Trims (now : Instant) (c kept : Correlator) : Prop where
  window_eq : c.window = kept.window
  nextSeq_eq : c.nextSeq = kept.nextSeq
  newest_le : ∀ newest, c.newest = some newest → newest ≤ now
  standing_eq : ∀ arrival, now ≤ arrival →
    standing c.window arrival c.pending = standing c.window arrival kept.pending

/-- A fresh correlator has nothing to trim. -/
theorem trims_create (window : Duration) : Trims 0 (create window) (create window) where
  window_eq := rfl
  nextSeq_eq := rfl
  newest_le := fun _ h => nomatch h
  standing_eq := fun _ _ => rfl

section Step

variable {now : Instant} {c kept : Correlator} {event : SourceEvent}

/-- An arrival that is not earlier than the others is the newest. -/
theorem Trims.newestWith (h : Trims now c kept) (hnow : now ≤ event.arrivedAt) :
    c.newestWith event.arrivedAt = event.arrivedAt := by
  unfold Correlator.newestWith
  cases hnewest : c.newest with
  | none => rfl
  | some newest => exact Nat.max_eq_right (Nat.le_trans (h.newest_le newest hnewest) hnow)

/-- Such an arrival leaves of the trimmed state what it leaves of the other one. -/
theorem Trims.pending_noteArrival (h : Trims now c kept) (hnow : now ≤ event.arrivedAt) :
    (c.noteArrival event.arrivedAt).pending =
      standing c.window event.arrivedAt kept.pending := by
  rw [← h.standing_eq event.arrivedAt hnow]
  simp only [noteArrival, h.newestWith hnow, standing]

/-- Both states return the same entry for an event that is not earlier than the others. -/
theorem Trims.entry_eq (h : Trims now c kept) (hnow : now ≤ event.arrivedAt) :
    (c.accept event).1 = (kept.acceptKeeping event).1 := by
  rw [accept_eq_settle, acceptKeeping, ← h.nextSeq_eq]
  refine entry_settle_congr ?_
  rw [h.pending_noteArrival hnow]
  change _ = kept.pending.filter (·.within kept.window event.arrivedAt)
  rw [← h.window_eq]
  exact filter_within_standing c.window event.arrivedAt kept.pending

/-- Whatever arrives later, it leaves the same of both states once the event is accepted. -/
theorem Trims.standing_accept (h : Trims now c kept) (hnow : now ≤ event.arrivedAt)
    {arrival : Instant} (harrival : event.arrivedAt ≤ arrival) :
    standing c.window arrival (c.accept event).2.pending =
      standing c.window arrival (kept.acceptKeeping event).2.pending := by
  rw [pending_accept, pending_acceptKeeping, h.pending_noteArrival hnow, h.entry_eq hnow,
    h.nextSeq_eq, standing_append, standing_append, standing_filter, standing_filter,
    standing_standing harrival]

/-- Accepting an event that is not earlier than the others keeps the states alike. -/
theorem Trims.accept (h : Trims now c kept) (hnow : now ≤ event.arrivedAt) :
    Trims event.arrivedAt (c.accept event).2 (kept.acceptKeeping event).2 := by
  obtain ⟨hseq, hwindow, hnewest⟩ := counters_accept event c
  obtain ⟨hseqKept, hwindowKept, -⟩ :=
    counters_settle event kept.nextSeq (kept.noteArrivalKeeping event.arrivedAt)
  refine ⟨?_, ?_, ?_, ?_⟩
  · exact hwindow.trans (h.window_eq.trans hwindowKept.symm)
  · rw [hseq, h.nextSeq_eq]
    exact hseqKept.symm
  · intro newest hsome
    rw [hnewest, h.newestWith hnow] at hsome
    exact Nat.le_of_eq (Option.some.inj hsome).symm
  · intro arrival harrival
    rw [hwindow]
    exact h.standing_accept hnow harrival

end Step

/-- From states that are alike, a stream in order of arrival gives the same entries. -/
theorem Trims.entries_eq {now : Instant} {c kept : Correlator} (h : Trims now c kept)
    {events : List SourceEvent} (hnow : ∀ event ∈ events, now ≤ event.arrivedAt)
    (hordered : events.Pairwise fun earlier later => earlier.arrivedAt ≤ later.arrivedAt) :
    (acceptAll events c).1 = (acceptAllKeeping events kept).1 := by
  induction events generalizing now c kept with
  | nil => rfl
  | cons event events ih =>
    obtain ⟨hlater, hrest⟩ := List.pairwise_cons.mp hordered
    have hfirst := hnow event List.mem_cons_self
    have hentries := ih (h.accept hfirst) hlater hrest
    rw [acceptAll_cons, h.entry_eq hfirst, hentries]
    rfl

/-- Dropping what has expired cannot be told from the entries: a stream in order of arrival gives
those of a correlator that keeps every assignment until it is claimed or retracted. -/
theorem expiry_unnoticed (window : Duration) (events : List SourceEvent)
    (hordered : events.Pairwise fun earlier later => earlier.arrivedAt ≤ later.arrivedAt) :
    (acceptAll events (create window)).1 = (acceptAllKeeping events (create window)).1 :=
  (trims_create window).entries_eq (fun _ _ => Nat.zero_le _) hordered

/-- Two assignments, a fork that leaves the first one behind, and two clones that would have either. -/
def leftBehind : List SourceEvent :=
  [⟨100, .nsid ⟨.assigned, some 7, none⟩⟩,
    ⟨108, .nsid ⟨.assigned, some 8, none⟩⟩,
    ⟨112, .process ⟨.fork, 90, 90, 0, 0, 1, Command.ofName [112]⟩⟩,
    ⟨118, .process ⟨.clone, 200, 200, 0, 0, 1, Command.ofName [112]⟩⟩,
    ⟨118, .process ⟨.setns, 201, 201, 0, 0, 1, Command.ofName [112]⟩⟩]

/-- The clone has the second assignment, exactly a window before it, and the other event has none,
although the first assignment is still kept by the correlator that drops nothing. -/
theorem leftBehind_expiry_unnoticed :
    (acceptAll leftBehind (create 10)).1 = (acceptAllKeeping leftBehind (create 10)).1 ∧
    (acceptAll leftBehind (create 10)).1.map (·.association) =
      [none, none, none, some { nsid := 8, nsidSeq := 2, pid := 200, delay := 10 }, none] ∧
    (acceptAll leftBehind (create 10)).2.pending = [] ∧
    (acceptAllKeeping leftBehind (create 10)).2.pending =
      [{ seq := 1, nsid := 7, arrivedAt := 100 }] :=
  ⟨expiry_unnoticed 10 leftBehind (by decide), by decide, by decide, by decide⟩

end NetnsWatch.Correlator
