import NetnsWatch.Proofs.Correlator.Tracks

/-!
# The join policy

Which assignment an event is joined with can be read off the stream itself: it is the latest of
those that came before the event, near enough to it and to the newest arrival so far, and that no
earlier entry names and no event in between removes. The correlator decides the same from what it
keeps.
-/

namespace NetnsWatch.Correlator

/-- An assignment that an event may claim, by the events and the entries before it. -/
structure Eligible (window : Duration) (earlier : List SourceEvent) (entries : List Entry)
    (event : SourceEvent) (a : Assignment) : Prop where
  assigned : a ∈ assignments earlier
  notLater : a.arrivedAt ≤ event.arrivedAt
  near : event.arrivedAt - a.arrivedAt ≤ window
  fresh : newestArrival (earlier ++ [event]) - a.arrivedAt ≤ window
  unclaimed : ∀ entry ∈ entries, ∀ association, entry.association = some association →
    association.nsidSeq ≠ a.seq
  kept : ∀ other seq, (other, seq) ∈ numbered earlier → a.seq < seq → other.removes? ≠ some a.nsid

/-- What an event may claim is what its arrival leaves standing, within the window. -/
theorem Tracks.eligible_iff {window : Duration} {events : List SourceEvent} {entries : List Entry}
    {c : Correlator} (h : Tracks window events entries c) (event : SourceEvent) (a : Assignment) :
    Eligible window events entries event a ↔
      a ∈ (c.noteArrival event.arrivedAt).pending ∧ a.within c.window event.arrivedAt = true := by
  rw [h.mem_noteArrival, h.window_eq, Assignment.within, Bool.and_eq_true, decide_eq_true_eq,
    decide_eq_true_eq]
  constructor
  · intro e
    refine ⟨⟨⟨e.assigned, e.unclaimed, e.kept, fun _ => ?_⟩, e.fresh⟩, e.notLater, e.near⟩
    have hfresh := e.fresh
    rw [newestArrival_append_singleton] at hfresh
    exact Nat.le_trans (Nat.sub_le_sub_right (Nat.le_max_left _ _) _) hfresh
  · rintro ⟨⟨o, hfresh⟩, hnotLater, hnear⟩
    exact ⟨o.assigned, hnotLater, hnear, hfresh, o.unclaimed, o.kept⟩

/-- An entry is joined exactly when its event is a claimant and there is something to claim. -/
theorem Tracks.isSome_association_iff {window : Duration} {events : List SourceEvent}
    {entries : List Entry} {c : Correlator} (h : Tracks window events entries c)
    (event : SourceEvent) : (c.accept event).1.association.isSome ↔
      event.claimant?.isSome ∧ ∃ a, Eligible window events entries event a := by
  constructor
  · intro hsome
    obtain ⟨association, hassociation⟩ := Option.isSome_iff_exists.mp hsome
    obtain ⟨process, a, hprocess, hpending, hwithin, -, -⟩ := nsidSeq_accept hassociation
    exact ⟨by rw [hprocess]; rfl, a, (h.eligible_iff event a).mpr ⟨hpending, hwithin⟩⟩
  · rintro ⟨hclaimant, a, ha⟩
    obtain ⟨process, hprocess⟩ := Option.isSome_iff_exists.mp hclaimant
    obtain ⟨hpending, hwithin⟩ := (h.eligible_iff event a).mp ha
    have hmem := List.mem_filter.mpr ⟨hpending, hwithin⟩
    rw [association_accept, hprocess, Option.bind_some, Option.isSome_map]
    cases hlatest : latest? ((c.noteArrival event.arrivedAt).pending.filter
        (·.within c.window event.arrivedAt)) with
    | none =>
      rw [(latest?_eq_none_iff _).mp hlatest] at hmem
      exact absurd hmem List.not_mem_nil
    | some found => rfl

/-- Cut at an event, a stream's entries are those of the events before it, its own, and others. -/
theorem entriesOf_cut (window : Duration) (earlier later : List SourceEvent) (event : SourceEvent) :
    ∃ rest, entriesOf window (earlier ++ event :: later) =
      entriesOf window earlier ++ ((stateOf window earlier).accept event).1 :: rest := by
  refine ⟨(acceptAll later ((stateOf window earlier).accept event).2).1, ?_⟩
  rw [entriesOf, acceptAll_append, acceptAll_cons]
  rfl

/-- Every event gets an entry with its number, arrival and occurrence. The entry is joined exactly
when the event is a claimant with an eligible assignment before it, and then with the latest one. -/
theorem entry_by_policy (window : Duration) (events : List SourceEvent) (i : Nat)
    (event : SourceEvent) (hevent : events[i]? = some event) :
    ∃ entry, (entriesOf window events)[i]? = some entry ∧
      entry.seq = i + 1 ∧ entry.arrivedAt = event.arrivedAt ∧ entry.occurrence = event.occurrence ∧
      (entry.association.isSome ↔ event.claimant?.isSome ∧
        ∃ a, Eligible window (events.take i) ((entriesOf window events).take i) event a) ∧
      ∀ association, entry.association = some association →
        ∃ process a, event.claimant? = some process ∧
          Eligible window (events.take i) ((entriesOf window events).take i) event a ∧
          (∀ b, Eligible window (events.take i) ((entriesOf window events).take i) event b →
            b.arrivedAt < a.arrivedAt ∨ b.arrivedAt = a.arrivedAt ∧ b.seq ≤ a.seq) ∧
          association = { nsid := a.nsid, nsidSeq := a.seq, pid := process.pid,
                          delay := event.arrivedAt - a.arrivedAt } := by
  obtain ⟨hi, rfl⟩ := List.getElem?_eq_some_iff.mp hevent
  have hcut : events.take i ++ events[i] :: events.drop (i + 1) = events := by
    rw [List.getElem_cons_drop, List.take_append_drop]
  have hlen : (entriesOf window (events.take i)).length = i := by
    rw [length_entriesOf, List.length_take]
    omega
  obtain ⟨rest, hentries⟩ := entriesOf_cut window (events.take i) (events.drop (i + 1)) events[i]
  rw [hcut] at hentries
  have htake : (entriesOf window events).take i = entriesOf window (events.take i) := by
    rw [hentries, List.take_left' hlen]
  have htracks := tracks_stateOf window (events.take i)
  obtain ⟨hseq, harrived, hoccurrence⟩ := entry_accept events[i] (stateOf window (events.take i))
  rw [htake]
  refine ⟨((stateOf window (events.take i)).accept events[i]).1, ?_, ?_, harrived, hoccurrence,
    htracks.isSome_association_iff events[i], ?_⟩
  · rw [hentries, List.getElem?_append_right (Nat.le_of_eq hlen), hlen, Nat.sub_self]
    rfl
  · rw [hseq, htracks.nextSeq_eq, List.length_take]
    omega
  · intro association hassociation
    obtain ⟨process, a, hprocess, hpending, hwithin, hmax, rfl⟩ := nsidSeq_accept hassociation
    refine ⟨process, a, hprocess, (htracks.eligible_iff _ a).mpr ⟨hpending, hwithin⟩, ?_, rfl⟩
    intro b hb
    obtain ⟨hbpending, hbwithin⟩ := (htracks.eligible_iff _ b).mp hb
    exact hmax b hbpending hbwithin

/-- An assignment, a clone soon after it, and a clone that comes too late. -/
def twoClones : List SourceEvent :=
  [⟨100, .nsid ⟨.assigned, some 7, none⟩⟩,
    ⟨105, .process ⟨.clone, 200, 200, 0, 0, 1, Command.ofName [112]⟩⟩,
    ⟨109, .process ⟨.clone, 201, 201, 0, 0, 1, Command.ofName [112]⟩⟩]

/-- The first clone is joined with the assignment five nanoseconds before it. -/
theorem twoClones_entry_by_policy : ∃ entry, (entriesOf 10 twoClones)[1]? = some entry ∧
    entry.seq = 2 ∧
    entry.association = some { nsid := 7, nsidSeq := 1, pid := 200, delay := 5 } := by
  obtain ⟨entry, hentry, hseq, -⟩ := entry_by_policy 10 twoClones 1 _ rfl
  refine ⟨entry, hentry, hseq, ?_⟩
  cases hentry
  rfl

end NetnsWatch.Correlator
