import NetnsWatch.Proofs.Correlator.History

/-!
# The correlator follows the history

One step of the correlator keeps what the newest arrival leaves standing, takes away what the new
entry names or the new event removes, and adds what the new event assigns. The outstanding
assignments of a stream change in the same way when the stream grows, so after any stream the
pending assignments are the outstanding ones.
-/

namespace NetnsWatch.Correlator

/-- The entries that a fresh correlator returns for a stream. -/
def entriesOf (window : Duration) (events : List SourceEvent) : List Entry :=
  (acceptAll events (create window)).1

/-- The state in which a stream leaves a fresh correlator. -/
def stateOf (window : Duration) (events : List SourceEvent) : Correlator :=
  (acceptAll events (create window)).2

/-- What an event comes to, under its number, in a state that has noted its arrival. -/
def settle (event : SourceEvent) (seq : Nat) (c : Correlator) : Entry × Correlator :=
  let (association, c) := match event.occurrence with
    | .process e => c.join e event.arrivedAt
    | .nsid n => (none, c.notify n seq event.arrivedAt)
    | .rejected _ => (none, c)
  ({ seq, arrivedAt := event.arrivedAt, occurrence := event.occurrence, association }, c)

section Settle

variable (event : SourceEvent) (seq : Nat) (c : Correlator)

/-- A step notes the arrival and settles the event. -/
theorem accept_eq_settle :
    c.accept event = (c.noteArrival event.arrivedAt).settle event c.nextSeq := rfl

/-- The association of a claimant is with the latest pending assignment within the window. -/
theorem association_settle : (c.settle event seq).1.association =
    event.claimant?.bind fun process =>
      (latest? (c.pending.filter (·.within c.window event.arrivedAt))).map fun a =>
        { nsid := a.nsid, nsidSeq := a.seq, pid := process.pid,
          delay := event.arrivedAt - a.arrivedAt } := by
  obtain ⟨arrivedAt, occurrence⟩ := event
  cases occurrence with
  | process process =>
    by_cases htouches : process.kind.touchesNamespace = true
    · simp only [settle, join, claim, SourceEvent.claimant?, htouches, if_true, Option.bind_some]
      cases latest? (c.pending.filter (·.within c.window arrivedAt)) <;> rfl
    · simp [settle, join, SourceEvent.claimant?, htouches]
  | nsid notification => rfl
  | rejected error => rfl

/-- Settling an event changes what is pending and nothing else. -/
theorem counters_settle : (c.settle event seq).2.nextSeq = c.nextSeq ∧
    (c.settle event seq).2.window = c.window ∧ (c.settle event seq).2.newest = c.newest := by
  obtain ⟨arrivedAt, occurrence⟩ := event
  cases occurrence with
  | process process =>
    simp only [settle, join, claim]
    split
    · cases latest? (c.pending.filter (·.within c.window arrivedAt)) <;> exact ⟨rfl, rfl, rfl⟩
    · exact ⟨rfl, rfl, rfl⟩
  | nsid notification =>
    obtain ⟨change, nsid, bodyNsid⟩ := notification
    cases change <;> cases nsid <;> exact ⟨rfl, rfl, rfl⟩
  | rejected error => exact ⟨rfl, rfl, rfl⟩

/-- What is pending once an event is settled, in stream order. -/
theorem pending_settle : (c.settle event seq).2.pending =
    (c.pending.filter fun a =>
      (c.settle event seq).1.association.all (·.nsidSeq != a.seq) &&
        event.removes?.all (· != a.nsid)) ++ (assignment? (event, seq)).toList := by
  have hall (pending : List Assignment) : pending.filter (fun _ => true) = pending :=
    List.filter_eq_self.mpr fun _ _ => rfl
  obtain ⟨arrivedAt, occurrence⟩ := event
  cases occurrence with
  | process process =>
    simp only [settle, join, claim, SourceEvent.removes?, assignment?]
    split
    · cases latest? (c.pending.filter (·.within c.window arrivedAt)) with
      | none => simp [hall]
      | some claimed => simp [bne_comm]
    · simp [hall]
  | nsid notification =>
    obtain ⟨change, nsid, bodyNsid⟩ := notification
    cases change with
    | assigned =>
      cases nsid <;> simp [settle, notify, SourceEvent.removes?, assignment?, hall]
    | removed =>
      cases nsid <;>
        simp [settle, notify, SourceEvent.removes?, assignment?, bne_comm, hall]
  | rejected error => simp [settle, SourceEvent.removes?, assignment?, hall]

end Settle

section Step

variable (event : SourceEvent) (c : Correlator)

/-- The association of a claimant is with the latest pending assignment within the window. -/
theorem association_accept : (c.accept event).1.association =
    event.claimant?.bind fun process =>
      (latest? ((c.noteArrival event.arrivedAt).pending.filter
        (·.within c.window event.arrivedAt))).map fun a =>
          { nsid := a.nsid, nsidSeq := a.seq, pid := process.pid,
            delay := event.arrivedAt - a.arrivedAt } :=
  association_settle event c.nextSeq (c.noteArrival event.arrivedAt)

/-- The entry of an event keeps its arrival and its occurrence, and gets the next number. -/
theorem entry_accept : (c.accept event).1.seq = c.nextSeq ∧
    (c.accept event).1.arrivedAt = event.arrivedAt ∧
    (c.accept event).1.occurrence = event.occurrence :=
  ⟨rfl, rfl, rfl⟩

/-- Numbering, window and newest arrival do not depend on what occurred. -/
theorem counters_accept : (c.accept event).2.nextSeq = c.nextSeq + 1 ∧
    (c.accept event).2.window = c.window ∧
    (c.accept event).2.newest = some (c.newestWith event.arrivedAt) :=
  counters_settle event c.nextSeq (c.noteArrival event.arrivedAt)

/-- What is pending after a step, in stream order. -/
theorem pending_accept : (c.accept event).2.pending =
    ((c.noteArrival event.arrivedAt).pending.filter fun a =>
      (c.accept event).1.association.all (·.nsidSeq != a.seq) &&
        event.removes?.all (· != a.nsid)) ++ (assignment? (event, c.nextSeq)).toList :=
  pending_settle event c.nextSeq (c.noteArrival event.arrivedAt)

/-- What is pending after a step: what was left standing, less what the entry names or the event
removes, and what the event assigns. -/
theorem mem_pending_accept (a : Assignment) : a ∈ (c.accept event).2.pending ↔
    (a ∈ (c.noteArrival event.arrivedAt).pending ∧
      (∀ association, (c.accept event).1.association = some association →
        association.nsidSeq ≠ a.seq) ∧
      event.removes? ≠ some a.nsid) ∨
    assignment? (event, c.nextSeq) = some a := by
  have hremoved : event.removes?.all (· != a.nsid) = true ↔ event.removes? ≠ some a.nsid := by
    cases event.removes? <;> simp
  rw [pending_accept, List.mem_append, List.mem_filter, Option.mem_toList, Bool.and_eq_true,
    hremoved, Option.all_eq_true]
  simp only [bne_iff_ne]

end Step

/-- An entry names only what was pending. -/
theorem nsidSeq_accept {event : SourceEvent} {c : Correlator} {association : Association}
    (h : (c.accept event).1.association = some association) :
    ∃ process a, event.claimant? = some process ∧
      a ∈ (c.noteArrival event.arrivedAt).pending ∧ a.within c.window event.arrivedAt = true ∧
      (∀ b ∈ (c.noteArrival event.arrivedAt).pending,
        b.within c.window event.arrivedAt = true → b.NotAfter a) ∧
      association = { nsid := a.nsid, nsidSeq := a.seq, pid := process.pid,
                      delay := event.arrivedAt - a.arrivedAt } := by
  rw [association_accept] at h
  obtain ⟨process, hprocess, h⟩ := Option.bind_eq_some_iff.mp h
  obtain ⟨a, hlatest, rfl⟩ := Option.map_eq_some_iff.mp h
  obtain ⟨hmem, hmax⟩ := latest?_spec hlatest
  obtain ⟨hpending, hwithin⟩ := List.mem_filter.mp hmem
  exact ⟨process, a, hprocess, hpending, hwithin,
    fun b hb hbwithin => hmax b (List.mem_filter.mpr ⟨hb, hbwithin⟩), rfl⟩

/-- The state agrees with the history. -/
structure Tracks (window : Duration) (events : List SourceEvent) (entries : List Entry)
    (c : Correlator) : Prop where
  window_eq : c.window = window
  nextSeq_eq : c.nextSeq = events.length + 1
  newest_eq : ∀ arrival, c.newestWith arrival = max (newestArrival events) arrival
  pending_iff : ∀ a, a ∈ c.pending ↔ Outstanding window events entries a
  named : ∀ entry ∈ entries, ∀ association, entry.association = some association →
    association.nsidSeq ≤ events.length

/-- A fresh correlator agrees with the empty history. -/
theorem tracks_create (window : Duration) : Tracks window [] [] (create window) where
  window_eq := rfl
  nextSeq_eq := rfl
  newest_eq := fun arrival => (Nat.zero_max arrival).symm
  pending_iff := by
    intro a
    refine ⟨fun h => absurd h List.not_mem_nil, fun h => absurd h.assigned List.not_mem_nil⟩
  named := fun _ h => absurd h List.not_mem_nil

variable {window : Duration} {events : List SourceEvent} {entries : List Entry} {c : Correlator}

/-- What an arrival leaves standing is outstanding and not left behind by the newest arrival. -/
theorem Tracks.mem_noteArrival (h : Tracks window events entries c) (event : SourceEvent)
    (a : Assignment) : a ∈ (c.noteArrival event.arrivedAt).pending ↔
      Outstanding window events entries a ∧
        newestArrival (events ++ [event]) - a.arrivedAt ≤ window := by
  rw [newestArrival_append_singleton, ← h.newest_eq, ← h.pending_iff, ← h.window_eq]
  simp only [noteArrival, List.mem_filter, decide_eq_true_eq]

/-- How the outstanding assignments change when the stream grows. -/
theorem outstanding_append_iff {event : SourceEvent} {entry : Entry}
    (hnamed : ∀ entry ∈ entries, ∀ association, entry.association = some association →
      association.nsidSeq ≤ events.length)
    (hentry : ∀ association, entry.association = some association →
      association.nsidSeq ≤ events.length) (a : Assignment) :
    Outstanding window (events ++ [event]) (entries ++ [entry]) a ↔
      ((Outstanding window events entries a ∧
          newestArrival (events ++ [event]) - a.arrivedAt ≤ window) ∧
        (∀ association, entry.association = some association → association.nsidSeq ≠ a.seq) ∧
        event.removes? ≠ some a.nsid) ∨
      assignment? (event, events.length + 1) = some a := by
  have hnewest := newestArrival_append_singleton events event
  constructor
  · intro h
    have hassigned := h.assigned
    rw [assignments_append_singleton, List.mem_append, Option.mem_toList] at hassigned
    rcases hassigned with hold | hnew
    · have hseq := seq_le_length_of_mem_assignments hold
      have hfresh : newestArrival (events ++ [event]) - a.arrivedAt ≤ window :=
        h.fresh (by rw [List.length_append, List.length_singleton]; omega)
      refine Or.inl ⟨⟨⟨hold, ?_, ?_, ?_⟩, hfresh⟩, ?_, ?_⟩
      · exact fun other hother => h.unclaimed other (List.mem_append_left _ hother)
      · intro other seq hother
        refine h.kept other seq ?_
        rw [numbered_append_singleton]
        exact List.mem_append_left _ hother
      · intro _
        rw [hnewest] at hfresh
        exact Nat.le_trans (Nat.sub_le_sub_right (Nat.le_max_left _ _) _) hfresh
      · exact h.unclaimed entry (List.mem_append_right _ (List.mem_singleton.mpr rfl))
      · refine h.kept event (events.length + 1) ?_ (Nat.lt_succ_of_le hseq)
        rw [numbered_append_singleton]
        exact List.mem_append_right _ (List.mem_singleton.mpr rfl)
    · exact Or.inr hnew
  · rintro (⟨⟨h, hfresh⟩, hunnamed, hunremoved⟩ | hnew)
    · refine ⟨?_, ?_, ?_, fun _ => hfresh⟩
      · rw [assignments_append_singleton]
        exact List.mem_append_left _ h.assigned
      · intro other hother
        rcases List.mem_append.mp hother with hold | hlast
        · exact h.unclaimed other hold
        · rw [List.mem_singleton.mp hlast]
          exact hunnamed
      · intro other seq hother hlater
        rw [numbered_append_singleton] at hother
        rcases List.mem_append.mp hother with hold | hlast
        · exact h.kept other seq hold hlater
        · obtain ⟨rfl, -⟩ := Prod.mk.inj (List.mem_singleton.mp hlast)
          exact hunremoved
    · have hseq := seq_of_assignment? hnew
      refine ⟨?_, ?_, ?_, ?_⟩
      · rw [assignments_append_singleton, hnew]
        exact List.mem_append_right _ (List.mem_singleton.mpr rfl)
      · intro other hother association hassociation
        have hle : association.nsidSeq ≤ events.length := by
          rcases List.mem_append.mp hother with hold | hlast
          · exact hnamed other hold association hassociation
          · rw [List.mem_singleton.mp hlast] at hassociation
            exact hentry association hassociation
        omega
      · intro other seq hother hlater
        have hle := le_length_of_mem_numbered hother
        rw [List.length_append, List.length_singleton] at hle
        omega
      · intro hlater
        rw [List.length_append, List.length_singleton] at hlater
        omega

/-- A step keeps the state in agreement with the history. -/
theorem Tracks.accept (h : Tracks window events entries c) (event : SourceEvent) :
    Tracks window (events ++ [event]) (entries ++ [(c.accept event).1]) (c.accept event).2 := by
  obtain ⟨hseq, hwindow, hnewest⟩ := counters_accept event c
  have hentry : ∀ association, (c.accept event).1.association = some association →
      association.nsidSeq ≤ events.length := by
    intro association hassociation
    obtain ⟨process, a, -, hpending, -, -, rfl⟩ := nsidSeq_accept hassociation
    exact seq_le_length_of_mem_assignments ((h.mem_noteArrival event a).mp hpending).1.assigned
  refine ⟨hwindow.trans h.window_eq, ?_, ?_, ?_, ?_⟩
  · rw [hseq, h.nextSeq_eq, List.length_append, List.length_singleton]
  · intro arrival
    rw [newestWith, hnewest, h.newest_eq, newestArrival_append_singleton]
  · intro a
    rw [mem_pending_accept, outstanding_append_iff h.named hentry, h.mem_noteArrival, h.nextSeq_eq]
  · intro entry hmem association hassociation
    rw [List.length_append, List.length_singleton]
    rcases List.mem_append.mp hmem with hold | hlast
    · exact Nat.le_succ_of_le (h.named entry hold association hassociation)
    · rw [List.mem_singleton.mp hlast] at hassociation
      exact Nat.le_succ_of_le (hentry association hassociation)

/-- The first event of a stream gives the first entry, and the state that the others find. -/
theorem acceptAll_cons (event : SourceEvent) (events : List SourceEvent) (c : Correlator) :
    acceptAll (event :: events) c =
      ((c.accept event).1 :: (acceptAll events (c.accept event).2).1,
        (acceptAll events (c.accept event).2).2) := rfl

/-- A stream in two parts is accepted one part after the other. -/
theorem acceptAll_append (earlier later : List SourceEvent) (c : Correlator) :
    acceptAll (earlier ++ later) c =
      ((acceptAll earlier c).1 ++ (acceptAll later (acceptAll earlier c).2).1,
        (acceptAll later (acceptAll earlier c).2).2) := by
  induction earlier generalizing c with
  | nil => rfl
  | cons event earlier ih =>
    rw [List.cons_append, acceptAll_cons, ih, acceptAll_cons, List.cons_append]

/-- There is one entry for each event. -/
theorem length_acceptAll (events : List SourceEvent) (c : Correlator) :
    (acceptAll events c).1.length = events.length := by
  induction events generalizing c with
  | nil => rfl
  | cons event events ih =>
    rw [acceptAll_cons, List.length_cons, List.length_cons, ih]

/-- There is one entry for each event of a stream. -/
@[simp] theorem length_entriesOf (window : Duration) (events : List SourceEvent) :
    (entriesOf window events).length = events.length :=
  length_acceptAll events (create window)

/-- A new event adds the entry that the state returns for it. -/
theorem entriesOf_append_singleton (window : Duration) (events : List SourceEvent)
    (event : SourceEvent) : entriesOf window (events ++ [event]) =
      entriesOf window events ++ [((stateOf window events).accept event).1] := by
  rw [entriesOf, acceptAll_append]
  rfl

/-- A new event moves the state by one step. -/
theorem stateOf_append_singleton (window : Duration) (events : List SourceEvent)
    (event : SourceEvent) : stateOf window (events ++ [event]) =
      ((stateOf window events).accept event).2 := by
  rw [stateOf, acceptAll_append]
  rfl

/-- After every stream the state agrees with the history. -/
theorem tracks_stateOf (window : Duration) (events : List SourceEvent) :
    Tracks window events (entriesOf window events) (stateOf window events) := by
  induction events using List.reverseRecOn with
  | nil => exact tracks_create window
  | append_singleton events event ih =>
    rw [entriesOf_append_singleton, stateOf_append_singleton]
    exact ih.accept event

/-- Entries are numbered one after another, from one. -/
theorem map_seq_entriesOf (window : Duration) (events : List SourceEvent) :
    (entriesOf window events).map (·.seq) = List.range' 1 events.length := by
  induction events using List.reverseRecOn with
  | nil => rfl
  | append_singleton events event ih =>
    have hnext := (tracks_stateOf window events).nextSeq_eq
    rw [entriesOf_append_singleton, List.map_append, ih, List.length_append, List.length_singleton,
      List.range'_1_concat, List.map_singleton, (entry_accept event _).1, hnext, Nat.add_comm 1]

/-- The entries of a stream's beginning are the beginning of its entries. -/
theorem isPrefix_entriesOf (window : Duration) {earlier events : List SourceEvent}
    (h : earlier <+: events) : entriesOf window earlier <+: entriesOf window events := by
  obtain ⟨later, rfl⟩ := h
  refine ⟨(acceptAll later (stateOf window earlier)).1, ?_⟩
  rw [entriesOf, entriesOf, acceptAll_append]
  rfl

end NetnsWatch.Correlator
