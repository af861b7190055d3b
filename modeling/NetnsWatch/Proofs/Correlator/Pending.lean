import NetnsWatch.Proofs.Correlator.Tracks

/-!
# What is pending

Every step drops from the pending assignments and adds at most one at their end, so they stay a part
of the stream's assignments, in stream order. An assignment is looked at by every later step, never
by its own: one that arrived long before the others is pending until the next event comes. That is
the only pending assignment that the newest arrival can have left behind.
-/

namespace NetnsWatch.Correlator

/-- An assignment of a stream that no entry names, no later event removes, and no later step finds
left behind by the arrivals up to it. -/
structure Lasting (window : Duration) (events : List SourceEvent) (a : Assignment) : Prop where
  assigned : a ∈ assignments events
  unclaimed : ∀ entry ∈ entriesOf window events, ∀ association,
    entry.association = some association → association.nsidSeq ≠ a.seq
  unretracted : ∀ event seq, (event, seq) ∈ numbered events → a.seq < seq →
    event.removes? ≠ some a.nsid
  reached : ∀ count, a.seq < count → count ≤ events.length →
    newestArrival (events.take count) ≤ a.arrivedAt + window

/-- The assignments of a stream that its newest arrival has not left behind. -/
def unexpired (window : Duration) (events : List SourceEvent) : List Assignment :=
  (assignments events).filter fun a => newestArrival events ≤ a.arrivedAt + window

/-- The newest arrival of a stream's beginning is not beyond that of the stream. -/
theorem newestArrival_take_le (events : List SourceEvent) (count : Nat) :
    newestArrival (events.take count) ≤ newestArrival events := by
  have hall := (newestArrival_le_iff events _).mp (Nat.le_refl _)
  exact (newestArrival_le_iff _ _).mpr fun event hevent => hall event (List.mem_of_mem_take hevent)

/-- Outstanding at the end of a stream is lasting through every step behind the assignment. -/
theorem outstanding_iff_lasting (window : Duration) (events : List SourceEvent) (a : Assignment) :
    Outstanding window events (entriesOf window events) a ↔ Lasting window events a := by
  constructor
  · intro h
    refine ⟨h.assigned, h.unclaimed, h.kept, fun count hlater hcount => ?_⟩
    have hfresh := h.fresh (Nat.lt_of_lt_of_le hlater hcount)
    exact Nat.le_trans (newestArrival_take_le events count) (Nat.sub_le_iff_le_add'.mp hfresh)
  · intro h
    refine ⟨h.assigned, h.unclaimed, h.unretracted, fun hlater => ?_⟩
    have hreached := h.reached events.length hlater (Nat.le_refl _)
    rw [List.take_length] at hreached
    exact Nat.sub_le_iff_le_add'.mpr hreached

/-- The assignments of a stream have increasing numbers. -/
theorem pairwise_seq_assignments (events : List SourceEvent) :
    (assignments events).Pairwise fun a b => a.seq < b.seq := by
  induction events using List.reverseRecOn with
  | nil => exact List.Pairwise.nil
  | append_singleton events event ih =>
    rw [assignments_append_singleton]
    cases hnew : assignment? (event, events.length + 1) with
    | none =>
      rw [Option.toList_none, List.append_nil]
      exact ih
    | some last =>
      rw [Option.toList_some, List.pairwise_append]
      refine ⟨ih, List.pairwise_singleton _ _, fun a ha b hb => ?_⟩
      rw [List.mem_singleton.mp hb, seq_of_assignment? hnew]
      exact Nat.lt_succ_of_le (seq_le_length_of_mem_assignments ha)

/-- What is pending is a part of the stream's assignments, in stream order. -/
theorem pending_sublist_assignments (window : Duration) (events : List SourceEvent) :
    (stateOf window events).pending.Sublist (assignments events) := by
  induction events using List.reverseRecOn with
  | nil => exact List.Sublist.refl _
  | append_singleton events event ih =>
    have hnoted : ((stateOf window events).noteArrival event.arrivedAt).pending.Sublist
        (assignments events) := List.filter_sublist.trans ih
    rw [stateOf_append_singleton, pending_accept, assignments_append_singleton,
      (tracks_stateOf window events).nextSeq_eq]
    exact (List.filter_sublist.trans hnoted).append (List.Sublist.refl _)

/-- What is pending has increasing numbers. -/
theorem pairwise_seq_pending (window : Duration) (events : List SourceEvent) :
    (stateOf window events).pending.Pairwise fun a b => a.seq < b.seq :=
  (pairwise_seq_assignments events).sublist (pending_sublist_assignments window events)

/-- The state knows the newest arrival once there is any. -/
theorem newest_stateOf (window : Duration) {events : List SourceEvent} (h : events ≠ []) :
    (stateOf window events).newest = some (newestArrival events) := by
  induction events using List.reverseRecOn with
  | nil => exact absurd rfl h
  | append_singleton events event _ =>
    obtain ⟨-, -, hnewest⟩ := counters_accept event (stateOf window events)
    rw [stateOf_append_singleton, hnewest, (tracks_stateOf window events).newest_eq,
      newestArrival_append_singleton]

/-- All but the last pending assignment have been reached by the newest arrival. -/
theorem dropLast_pending_sublist (window : Duration) (events : List SourceEvent) :
    (stateOf window events).pending.dropLast.Sublist (unexpired window events) := by
  have hpart : (stateOf window events).pending.dropLast.Sublist (assignments events) :=
    (List.dropLast_sublist _).trans (pending_sublist_assignments window events)
  have hall : ∀ a ∈ (stateOf window events).pending.dropLast,
      decide (newestArrival events ≤ a.arrivedAt + window) = true := by
    intro a ha
    have hpending : a ∈ (stateOf window events).pending := List.dropLast_subset _ ha
    have hne : (stateOf window events).pending ≠ [] := List.ne_nil_of_mem hpending
    -- The last one has a greater number, so a later event than this one has come.
    have hsplit := List.dropLast_concat_getLast hne
    have hordered := pairwise_seq_pending window events
    rw [← hsplit, List.pairwise_append] at hordered
    have hlater := hordered.2.2 a ha _ (List.mem_singleton.mpr rfl)
    have hlast := seq_le_length_of_mem_assignments
      ((pending_sublist_assignments window events).subset (List.getLast_mem hne))
    have hlasting := (outstanding_iff_lasting window events a).mp
      (((tracks_stateOf window events).pending_iff a).mp hpending)
    have hreached := hlasting.reached events.length (Nat.lt_of_lt_of_le hlater hlast)
      (Nat.le_refl _)
    rw [List.take_length] at hreached
    exact decide_eq_true hreached
  have hkept := hpart.filter fun a => decide (newestArrival events ≤ a.arrivedAt + window)
  rwa [List.filter_eq_self.mpr hall] at hkept

/-- After every stream the pending assignments are those that last, once each and in stream order,
under numbers already given. All but one of the last event are within a window of the newest arrival,
so there is at most one more than assignments that have not expired. -/
theorem pending_content (window : Duration) (events : List SourceEvent) :
    (∀ a, a ∈ (stateOf window events).pending ↔ Lasting window events a) ∧
    (stateOf window events).pending.Pairwise (fun a b => a.seq < b.seq) ∧
    (∀ a ∈ (stateOf window events).pending, a.seq < (stateOf window events).nextSeq) ∧
    (∀ a ∈ (stateOf window events).pending, a.seq ≠ events.length →
      ∃ newest, (stateOf window events).newest = some newest ∧ newest ≤ a.arrivedAt + window) ∧
    (stateOf window events).pending.length ≤ (unexpired window events).length + 1 := by
  have htracks := tracks_stateOf window events
  have hcontent (a : Assignment) :
      a ∈ (stateOf window events).pending ↔ Lasting window events a :=
    (htracks.pending_iff a).trans (outstanding_iff_lasting window events a)
  have hseq (a : Assignment) (ha : a ∈ (stateOf window events).pending) : a.seq ≤ events.length :=
    seq_le_length_of_mem_assignments ((hcontent a).mp ha).assigned
  refine ⟨hcontent, pairwise_seq_pending window events, fun a ha => ?_, fun a ha hother => ?_, ?_⟩
  · rw [htracks.nextSeq_eq]
    exact Nat.lt_succ_of_le (hseq a ha)
  · have hlater : a.seq < events.length := Nat.lt_of_le_of_ne (hseq a ha) hother
    have hreached := ((hcontent a).mp ha).reached events.length hlater (Nat.le_refl _)
    rw [List.take_length] at hreached
    have hne : events ≠ [] := List.ne_nil_of_length_pos (Nat.zero_lt_of_lt hlater)
    exact ⟨newestArrival events, newest_stateOf window hne, hreached⟩
  · have hle := (dropLast_pending_sublist window events).length_le
    rw [List.length_dropLast] at hle
    omega

/-- An assignment that is still near, one that was left behind, and one that arrives late. -/
def lateAssignment : List SourceEvent :=
  [⟨50, .nsid ⟨.assigned, some 6, none⟩⟩,
    ⟨95, .nsid ⟨.assigned, some 7, none⟩⟩,
    ⟨100, .process ⟨.fork, 90, 90, 0, 0, 1, Command.ofName [112]⟩⟩,
    ⟨50, .nsid ⟨.assigned, some 8, none⟩⟩]

/-- The late one is pending although it has expired: it is the one beyond those that have not. -/
theorem lateAssignment_pending_content :
    Lasting 10 lateAssignment ⟨4, 8, 50⟩ ∧
    (stateOf 10 lateAssignment).pending = [⟨2, 7, 95⟩, ⟨4, 8, 50⟩] ∧
    (stateOf 10 lateAssignment).pending.length ≤ [(⟨2, 7, 95⟩ : Assignment)].length + 1 ∧
    ∃ newest, (stateOf 10 lateAssignment).newest = some newest ∧ newest ≤ 95 + 10 := by
  obtain ⟨hcontent, -, -, hnear, hlength⟩ := pending_content 10 lateAssignment
  exact ⟨(hcontent ⟨4, 8, 50⟩).mp (by decide), by decide, hlength,
    hnear ⟨2, 7, 95⟩ (by decide) (by decide)⟩

end NetnsWatch.Correlator
