import NetnsWatch.Proofs.Correlator.Noise

/-!
# A stream with one assignment

Where one event of a stream is an assignment and all others are inert, no entry is joined. A claimant
that comes next, and not before any of them, is joined exactly if it is near enough: then no arrival
in between can have made the correlator drop the assignment.
-/

namespace NetnsWatch.Correlator

/-- The event of an assignment of a known number. -/
def assigning (arrival : Instant) (nsid : NsId) (body : Option Int32) : SourceEvent :=
  ⟨arrival, .nsid ⟨.assigned, some nsid, body⟩⟩

section Sole

variable {window : Duration} {before after events : List SourceEvent} {event : SourceEvent}
  {arrival : Instant} {nsid : NsId} {body : Option Int32}

/-- An event that claims nothing gets an unjoined entry. -/
theorem association_accept_eq_none (h : event.claimant? = none) (c : Correlator) :
    (c.accept event).1.association = none := by
  rw [association_accept, h, Option.bind_none]

/-- Where no event claims anything, no entry is joined. -/
theorem association_entriesOf_eq_none (window : Duration)
    (h : ∀ event ∈ events, event.claimant? = none) :
    ∀ entry ∈ entriesOf window events, entry.association = none := by
  induction events using List.reverseRecOn with
  | nil => exact fun entry hentry => absurd hentry List.not_mem_nil
  | append_singleton events event ih =>
    intro entry hentry
    rw [entriesOf_append_singleton] at hentry
    obtain hearlier | hlast := List.mem_append.mp hentry
    · exact ih (fun other hother => h other (List.mem_append_left _ hother)) entry hearlier
    · rw [List.mem_singleton.mp hlast]
      exact association_accept_eq_none (h event (by simp)) _

/-- Entries carry the arrivals and the occurrences of their events. -/
theorem map_entriesOf (window : Duration) (events : List SourceEvent) :
    (entriesOf window events).map (fun entry => SourceEvent.mk entry.arrivedAt entry.occurrence) =
      events := by
  induction events using List.reverseRecOn with
  | nil => rfl
  | append_singleton events event ih =>
    obtain ⟨-, harrived, hoccurrence⟩ := entry_accept event (stateOf window events)
    rw [entriesOf_append_singleton, List.map_append, ih, List.map_singleton, harrived, hoccurrence]

/-- Inert events assign nothing. -/
theorem filterMap_assignment?_eq_nil (h : ∀ event ∈ events, event.Inert) (start : Nat) :
    (events.zipIdx start).filterMap assignment? = [] := by
  rw [List.filterMap_eq_nil_iff]
  rintro ⟨event, seq⟩ hevent
  exact (h event (List.fst_mem_of_mem_zipIdx hevent)).assignment?_eq_none seq

/-- Among inert events one assignment is all there is. -/
theorem assignments_of_sole (arrival : Instant) (nsid : NsId) (body : Option Int32)
    (hinert : ∀ other ∈ before ++ after, other.Inert) :
    assignments (before ++ assigning arrival nsid body :: after) =
      [{ seq := before.length + 1, nsid, arrivedAt := arrival }] := by
  obtain ⟨hbefore, hafter⟩ := List.forall_mem_append.mp hinert
  rw [assignments, numbered, List.zipIdx_append, List.zipIdx_cons, List.filterMap_append,
    filterMap_assignment?_eq_nil hbefore, List.nil_append, Nat.add_comm 1]
  simp only [List.filterMap_cons, filterMap_assignment?_eq_nil hafter]
  rfl

/-- Among inert events an assignment claims nothing and removes nothing. -/
theorem silent_of_sole (arrival : Instant) (nsid : NsId) (body : Option Int32)
    (hinert : ∀ other ∈ before ++ after, other.Inert) :
    ∀ other ∈ before ++ assigning arrival nsid body :: after,
      other.claimant? = none ∧ other.removes? = none := by
  obtain ⟨hbefore, hafter⟩ := List.forall_mem_append.mp hinert
  intro other hother
  obtain hearlier | rfl | hlater := List.mem_append.mp hother |>.imp_right List.mem_cons.mp
  · exact ⟨(hbefore other hearlier).claimant?_eq_none, (hbefore other hearlier).removes?_eq_none⟩
  · exact ⟨rfl, rfl⟩
  · exact ⟨(hafter other hlater).claimant?_eq_none, (hafter other hlater).removes?_eq_none⟩

/-- The one assignment there is may be claimed exactly if it is near enough. -/
theorem eligible_iff_of_sole (window : Duration) (hinert : ∀ other ∈ before ++ after, other.Inert)
    (hlast : ∀ other ∈ before ++ assigning arrival nsid body :: after,
      other.arrivedAt ≤ event.arrivedAt) (a : Assignment) :
    Eligible window (before ++ assigning arrival nsid body :: after)
        (entriesOf window (before ++ assigning arrival nsid body :: after)) event a ↔
      a = { seq := before.length + 1, nsid, arrivedAt := arrival } ∧
        event.arrivedAt - arrival ≤ window := by
  have hsole := assignments_of_sole arrival nsid body hinert
  have hsilent := silent_of_sole arrival nsid body hinert
  constructor
  · intro e
    obtain rfl := List.mem_singleton.mp (hsole ▸ e.assigned)
    exact ⟨rfl, e.near⟩
  · rintro ⟨rfl, hnear⟩
    refine ⟨hsole ▸ List.mem_singleton.mpr rfl, ?_, hnear, ?_, ?_, ?_⟩
    · exact hlast (assigning arrival nsid body) (by simp)
    · rw [newestArrival_append_singleton, Nat.max_eq_right ((newestArrival_le_iff _ _).mpr hlast)]
      exact hnear
    · intro entry hentry association hassociation
      have hnone := association_entriesOf_eq_none window fun other hother =>
        (hsilent other hother).1
      rw [hnone entry hentry] at hassociation
      cases hassociation
    · intro removal seq hremoval _
      rw [(hsilent removal (List.fst_mem_of_mem_zipIdx hremoval)).2]
      exact nofun

/-- The claimant behind one assignment among inert events is joined exactly if it is near enough. -/
theorem association_of_sole {process : Event} (hprocess : event.claimant? = some process)
    (hinert : ∀ other ∈ before ++ after, other.Inert)
    (hlast : ∀ other ∈ before ++ assigning arrival nsid body :: after,
      other.arrivedAt ≤ event.arrivedAt) :
    ((stateOf window (before ++ assigning arrival nsid body :: after)).accept event).1.association =
      if event.arrivedAt - arrival ≤ window then
        some { nsid, nsidSeq := before.length + 1, pid := process.pid,
               delay := event.arrivedAt - arrival }
      else none := by
  have htracks := tracks_stateOf window (before ++ assigning arrival nsid body :: after)
  have heligible := eligible_iff_of_sole window hinert hlast
  cases hassociation : ((stateOf window (before ++ assigning arrival nsid body :: after)).accept
      event).1.association with
  | none =>
    have hfar : ¬ event.arrivedAt - arrival ≤ window := by
      intro hnear
      have hsome := (htracks.isSome_association_iff event).mpr
        ⟨by rw [hprocess]; rfl, _, (heligible _).mpr ⟨rfl, hnear⟩⟩
      rw [hassociation] at hsome
      cases hsome
    rw [if_neg hfar]
  | some association =>
    obtain ⟨claimant, a, hclaims, hpending, hwithin, -, rfl⟩ := nsidSeq_accept hassociation
    obtain ⟨rfl, hnear⟩ := (heligible a).mp ((htracks.eligible_iff event a).mpr ⟨hpending, hwithin⟩)
    rw [hprocess] at hclaims
    cases hclaims
    rw [if_pos hnear]

end Sole

end NetnsWatch.Correlator
