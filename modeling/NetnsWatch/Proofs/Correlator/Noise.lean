import NetnsWatch.Proofs.Correlator.Policy

/-!
# Events that take no part in any join

Forks, execs, exits, rejected records and notifications of no known number are neither claimed nor
claim anything; all that they do is to take a number and to move the newest arrival. While arrivals
do not decrease, an assignment that such an event has made the correlator drop could not have been
claimed by a later one. So a stream with some of them deleted has the joins of the whole stream, up
to the numbers that the deletion closes up.
-/

namespace NetnsWatch

/-- An event that takes no part in any join. -/
def SourceEvent.Inert : SourceEvent → Prop
  | ⟨_, .process event⟩ => event.kind = .fork ∨ event.kind = .exec ∨ event.kind = .exit
  | ⟨_, .nsid notification⟩ => notification.nsid = none
  | ⟨_, .rejected _⟩ => True

/-- An inert event claims nothing. -/
theorem SourceEvent.Inert.claimant?_eq_none {event : SourceEvent} (h : event.Inert) :
    event.claimant? = none := by
  obtain ⟨arrivedAt, occurrence⟩ := event
  cases occurrence with
  | process process =>
    have hkind : process.kind.touchesNamespace = false := by
      rcases h with h | h | h <;> rw [h] <;> rfl
    simp only [claimant?, hkind, Bool.false_eq_true, if_false]
  | nsid notification => rfl
  | rejected error => rfl

/-- An inert event removes nothing. -/
theorem SourceEvent.Inert.removes?_eq_none {event : SourceEvent} (h : event.Inert) :
    event.removes? = none := by
  obtain ⟨arrivedAt, occurrence⟩ := event
  cases occurrence with
  | process process => rfl
  | nsid notification =>
    obtain ⟨change, nsid, bodyNsid⟩ := notification
    have hnsid : nsid = none := h
    cases change
    · rfl
    · exact hnsid
  | rejected error => rfl

/-- An inert event assigns nothing. -/
theorem SourceEvent.Inert.assignment?_eq_none {event : SourceEvent} (h : event.Inert) (seq : Nat) :
    assignment? (event, seq) = none := by
  obtain ⟨arrivedAt, occurrence⟩ := event
  cases occurrence with
  | process process => rfl
  | nsid notification =>
    obtain ⟨change, nsid, bodyNsid⟩ := notification
    have hnsid : nsid = none := h
    subst hnsid
    cases change <;> rfl
  | rejected error => rfl

/-- A stream whose events are marked: those marked `false` are to be deleted. -/
abbrev Marked := List (SourceEvent × Bool)

namespace Marked

/-- The whole stream. -/
def full (m : Marked) : List SourceEvent :=
  m.map Prod.fst

/-- The stream without what is to be deleted. -/
def kept (m : Marked) : List SourceEvent :=
  (m.filter Prod.snd).map Prod.fst

/-- How many of the first `count` events are kept. -/
def rank (m : Marked) (count : Nat) : Nat :=
  (m.take count).countP Prod.snd

/-- An assignment under the number that the kept stream gives it. -/
def renumber (m : Marked) (a : Assignment) : Assignment :=
  { a with seq := m.rank a.seq }

/-- The event of this number is kept. -/
def KeptAt (m : Marked) (seq : Nat) : Prop :=
  ∃ place event, seq = place + 1 ∧ m[place]? = some (event, true)

variable {m : Marked} {s t : Nat}

/-- A number does not depend on what follows. -/
theorem rank_append (later : Marked) (h : s ≤ m.length) : rank (m ++ later) s = rank m s := by
  rw [rank, rank, List.take_append_of_le_length h]

/-- The kept events of a stream number as many as its rank says. -/
theorem rank_length (m : Marked) : rank m m.length = m.kept.length := by
  rw [rank, List.take_length, kept, List.length_map, List.countP_eq_length_filter]

/-- An assignment's number does not depend on what follows. -/
theorem renumber_append {a : Assignment} (later : Marked) (h : m.KeptAt a.seq) :
    renumber (m ++ later) a = m.renumber a := by
  obtain ⟨place, event, hplace, hevent⟩ := h
  have hlt := (List.getElem?_eq_some_iff.mp hevent).1
  rw [renumber, renumber, rank_append _ (by omega)]

/-- Kept events of a stream in two parts. -/
theorem kept_append (m later : Marked) : kept (m ++ later) = m.kept ++ later.kept := by
  rw [kept, List.filter_append, List.map_append, ← kept, ← kept]

/-- The number of a kept event behind others. -/
theorem rank_full_succ (m : Marked) (event : SourceEvent) :
    rank (m ++ [(event, true)]) (m.full.length + 1) = m.kept.length + 1 := by
  have hall := rank_length (m ++ [(event, true)])
  rw [kept_append, List.length_append, List.length_append] at hall
  rw [full, List.length_map]
  exact hall

/-- A kept event has the number after those of the kept events before it. -/
theorem rank_succ {place : Nat} {event : SourceEvent} (h : m[place]? = some (event, true)) :
    m.rank (place + 1) = m.rank place + 1 := by
  rw [rank, List.take_add_one, List.countP_append, h]
  rfl

/-- A kept event has a greater number than those before it. -/
theorem rank_lt_rank (ht : m.KeptAt t) (h : s < t) : m.rank s < m.rank t := by
  obtain ⟨place, event, rfl, hevent⟩ := ht
  have hbefore : m.rank s ≤ m.rank place :=
    (List.take_prefix_take_left (Nat.le_of_lt_succ h)).sublist.countP_le
  rw [rank_succ hevent]
  exact Nat.lt_succ_of_le hbefore

/-- Kept events stand in the same order under both numbers. -/
theorem rank_lt_rank_iff (hs : m.KeptAt s) (ht : m.KeptAt t) : m.rank s < m.rank t ↔ s < t := by
  refine ⟨fun h => ?_, rank_lt_rank ht⟩
  by_contra hnot
  rcases Nat.lt_or_eq_of_le (Nat.le_of_not_lt hnot) with hlt | rfl
  · exact absurd (rank_lt_rank hs hlt) (Nat.not_lt_of_lt h)
  · exact Nat.lt_irrefl _ h

/-- Different kept events have different numbers. -/
theorem rank_eq_rank_iff (hs : m.KeptAt s) (ht : m.KeptAt t) : m.rank s = m.rank t ↔ s = t := by
  have hlt := rank_lt_rank_iff hs ht
  have hgt := rank_lt_rank_iff ht hs
  omega

/-- A stream cut at one of its events. -/
theorem cut {place : Nat} {event : SourceEvent} {mark : Bool} (h : m[place]? = some (event, mark)) :
    m.take place ++ (event, mark) :: m.drop (place + 1) = m ∧ (m.take place).length = place := by
  obtain ⟨hplace, hevent⟩ := List.getElem?_eq_some_iff.mp h
  refine ⟨?_, List.length_take_of_le (Nat.le_of_lt hplace)⟩
  rw [← hevent, List.getElem_cons_drop, List.take_append_drop]

/-- A kept event is found at its rank. -/
theorem getElem?_kept {place : Nat} {event : SourceEvent} (h : m[place]? = some (event, true)) :
    m.kept[m.rank place]? = some event := by
  obtain ⟨hcut, -⟩ := cut h
  have hlength : (kept (m.take place)).length = m.rank place := by
    rw [kept, List.length_map, rank, List.countP_eq_length_filter]
  have hkept : m.kept = kept (m.take place) ++ kept ((event, true) :: m.drop (place + 1)) := by
    rw [← kept_append, hcut]
  rw [← hlength, hkept, List.getElem?_append_right (Nat.le_refl _), Nat.sub_self]
  rfl

end Marked

/-- Taking the latest commutes with any change that keeps the order. -/
theorem latest?_map {change : Assignment → Assignment} {candidates : List Assignment}
    (h : ∀ a ∈ candidates, ∀ b ∈ candidates, (change a).before (change b) = a.before b) :
    latest? (candidates.map change) = (latest? candidates).map change := by
  induction candidates with
  | nil => rfl
  | cons a rest ih =>
    have hrest := ih fun b hb c hc => h b (List.mem_cons_of_mem _ hb) c (List.mem_cons_of_mem _ hc)
    rw [List.map_cons, latest?, hrest, latest?]
    cases hlatest : latest? rest with
    | none => rfl
    | some b =>
      have hmem := List.mem_cons_of_mem a (latest?_spec hlatest).1
      have hbefore := h b hmem a List.mem_cons_self
      simp only [Option.map_some, hbefore]
      split <;> rfl

/-- The latest of some kept assignments is the latest under the new numbers too. -/
theorem Marked.latest?_map_renumber {m : Marked} {candidates : List Assignment}
    (h : ∀ a ∈ candidates, m.KeptAt a.seq) :
    latest? (candidates.map m.renumber) = (latest? candidates).map m.renumber := by
  refine latest?_map fun a ha b hb => ?_
  have hseq : decide (m.rank a.seq < m.rank b.seq) = decide (a.seq < b.seq) :=
    decide_eq_decide.mpr (rank_lt_rank_iff (h a ha) (h b hb))
  change (decide (a.arrivedAt < b.arrivedAt) ||
    (a.arrivedAt == b.arrivedAt && decide (m.rank a.seq < m.rank b.seq))) = a.before b
  rw [hseq, Assignment.before]

namespace Correlator

/-- What an arrival leaves standing of some assignments. -/
def standing (window : Duration) (arrival : Instant) (pending : List Assignment) :
    List Assignment :=
  pending.filter fun a => arrival - a.arrivedAt ≤ window

/-- What a later arrival leaves standing does not depend on an earlier one. -/
theorem standing_standing {window : Duration} {arrival later : Instant} (h : arrival ≤ later)
    (pending : List Assignment) :
    standing window later (standing window arrival pending) = standing window later pending := by
  rw [standing, standing, List.filter_filter, standing]
  refine List.filter_congr fun a _ => ?_
  rw [Bool.and_eq_left_iff_imp]
  intro hlater
  rw [decide_eq_true_eq] at hlater ⊢
  exact Nat.le_trans (Nat.sub_le_sub_right h _) hlater

section Simulation

variable {window : Duration} {m : Marked} {event : SourceEvent}

/-- Whatever arrives next, it leaves the same assignments standing after the kept stream as after
the whole stream, under their new numbers. -/
def Mirrors (window : Duration) (m : Marked) : Prop :=
  ∀ arrival, (∀ earlier ∈ m.full, earlier.arrivedAt ≤ arrival) →
    standing window arrival (stateOf window m.kept).pending =
      (standing window arrival (stateOf window m.full).pending).map m.renumber

/-- What is pending was assigned by an event that is kept. -/
theorem keptAt_of_mem_pending (hinert : ∀ event, (event, false) ∈ m → event.Inert) {a : Assignment}
    (h : a ∈ (stateOf window m.full).pending) : m.KeptAt a.seq := by
  have hassigned := (((tracks_stateOf window m.full).pending_iff a).mp h).assigned
  obtain ⟨⟨event, seq⟩, hnumbered, ha⟩ := List.mem_filterMap.mp hassigned
  obtain ⟨hseq, hevent⟩ := List.mem_zipIdx_iff_le_and_getElem?_sub.mp hnumbered
  rw [Marked.full, List.getElem?_map] at hevent
  obtain ⟨⟨event, mark⟩, hmarked, rfl⟩ := Option.map_eq_some_iff.mp hevent
  cases mark with
  | false =>
    rw [(hinert event (List.mem_of_getElem? hmarked)).assignment?_eq_none] at ha
    cases ha
  | true =>
    rw [seq_of_assignment? ha]
    exact ⟨seq - 1, event, by omega, hmarked⟩

/-- The arrival of an event that is not earlier than the others is the newest. -/
theorem pending_noteArrival {events : List SourceEvent}
    (h : ∀ earlier ∈ events, earlier.arrivedAt ≤ event.arrivedAt) :
    ((stateOf window events).noteArrival event.arrivedAt).pending =
      standing window event.arrivedAt (stateOf window events).pending := by
  have htracks := tracks_stateOf window events
  have hnewest : (stateOf window events).newestWith event.arrivedAt = event.arrivedAt := by
    rw [htracks.newest_eq]
    exact Nat.max_eq_right ((newestArrival_le_iff _ _).mpr h)
  simp only [noteArrival, hnewest, htracks.window_eq, standing]

/-- What is kept is part of the whole stream. -/
theorem arrivedAt_le_of_kept (hlate : ∀ earlier ∈ m.full, earlier.arrivedAt ≤ event.arrivedAt) :
    ∀ earlier ∈ m.kept, earlier.arrivedAt ≤ event.arrivedAt :=
  fun earlier hearlier => hlate earlier
    ((List.filter_sublist.map Prod.fst).subset hearlier)

/-- The next event is joined in the kept stream as in the whole one, under the new numbers. -/
theorem Mirrors.association (h : Mirrors window m)
    (hinert : ∀ event, (event, false) ∈ m → event.Inert)
    (hlate : ∀ earlier ∈ m.full, earlier.arrivedAt ≤ event.arrivedAt) :
    ((stateOf window m.kept).accept event).1.association =
      ((stateOf window m.full).accept event).1.association.map fun association =>
        { association with nsidSeq := m.rank association.nsidSeq } := by
  have hkept : ∀ a ∈ (standing window event.arrivedAt (stateOf window m.full).pending).filter
      (·.within window event.arrivedAt), m.KeptAt a.seq := fun a ha =>
    keptAt_of_mem_pending hinert (List.mem_filter.mp (List.mem_filter.mp ha).1).1
  have hwithin : (fun a : Assignment => a.within window event.arrivedAt) ∘ m.renumber =
      fun a => a.within window event.arrivedAt := rfl
  rw [association_accept, association_accept, pending_noteArrival (arrivedAt_le_of_kept hlate),
    pending_noteArrival hlate, h _ hlate, (tracks_stateOf window m.kept).window_eq,
    (tracks_stateOf window m.full).window_eq, List.filter_map, hwithin,
    Marked.latest?_map_renumber hkept]
  cases event.claimant? with
  | none => rfl
  | some process =>
    simp only [Option.bind_some, Option.map_map]
    rfl

/-- The assignment that an event makes differs under another number in that number alone. -/
theorem assignment?_number (event : SourceEvent) (seq other : Nat) :
    assignment? (event, other) =
      (assignment? (event, seq)).map fun a => { a with seq := other } := by
  unfold assignment?
  split <;> simp_all

/-- The next entry names an assignment under its new number exactly when it does so under the old. -/
theorem Mirrors.names (h : Mirrors window m) (hinert : ∀ event, (event, false) ∈ m → event.Inert)
    (hlate : ∀ earlier ∈ m.full, earlier.arrivedAt ≤ event.arrivedAt) {a : Assignment}
    (ha : a ∈ (stateOf window m.full).pending) :
    ((stateOf window m.kept).accept event).1.association.all
        (·.nsidSeq != (m.renumber a).seq) =
      ((stateOf window m.full).accept event).1.association.all (·.nsidSeq != a.seq) := by
  rw [h.association hinert hlate]
  cases hassociation : ((stateOf window m.full).accept event).1.association with
  | none => rfl
  | some association =>
    obtain ⟨process, claimed, -, hclaimed, -, -, rfl⟩ := nsidSeq_accept hassociation
    rw [pending_noteArrival hlate] at hclaimed
    have hboth := Marked.rank_eq_rank_iff (keptAt_of_mem_pending hinert (List.mem_filter.mp hclaimed).1)
      (keptAt_of_mem_pending hinert ha)
    simp only [Option.map_some, Option.all_some, Marked.renumber]
    rw [Bool.eq_iff_iff, bne_iff_ne, bne_iff_ne, Ne, hboth]

/-- After a kept event the same is pending in both streams, under the new numbers. -/
theorem Mirrors.pending (h : Mirrors window m)
    (hinert : ∀ event, (event, false) ∈ m → event.Inert)
    (hlate : ∀ earlier ∈ m.full, earlier.arrivedAt ≤ event.arrivedAt) :
    ((stateOf window m.kept).accept event).2.pending =
      ((stateOf window m.full).accept event).2.pending.map
        (Marked.renumber (m ++ [(event, true)])) := by
  have hpending : ∀ a ∈ standing window event.arrivedAt (stateOf window m.full).pending,
      a ∈ (stateOf window m.full).pending := fun a ha => (List.mem_filter.mp ha).1
  rw [pending_accept, pending_accept, pending_noteArrival (arrivedAt_le_of_kept hlate),
    pending_noteArrival hlate, h _ hlate, List.map_append, List.filter_map]
  congr 1
  · have hstays := List.filter_congr fun a ha =>
      congrArg (· && event.removes?.all (· != a.nsid)) (h.names hinert hlate (hpending a ha))
    rw [Function.comp_def]
    refine (congrArg (List.map m.renumber) hstays).trans (List.map_congr_left fun a ha => ?_)
    have hmem := hpending a (List.mem_filter.mp ha).1
    exact (Marked.renumber_append _ (keptAt_of_mem_pending hinert hmem)).symm
  · rw [(tracks_stateOf window m.kept).nextSeq_eq, (tracks_stateOf window m.full).nextSeq_eq,
      ← Marked.rank_full_succ m event, assignment?_number event (m.full.length + 1)]
    cases hassigned : assignment? (event, m.full.length + 1) with
    | none => rfl
    | some a =>
      have ha := seq_of_assignment? hassigned
      simp only [Option.map_some, Option.toList_some, List.map_singleton, Marked.renumber, ha]

/-- A kept event keeps the streams alike. -/
theorem Mirrors.keep (h : Mirrors window m) (hinert : ∀ event, (event, false) ∈ m → event.Inert)
    (hlate : ∀ earlier ∈ m.full, earlier.arrivedAt ≤ event.arrivedAt) :
    Mirrors window (m ++ [(event, true)]) := by
  intro arrival _
  have hkept : Marked.kept (m ++ [(event, true)]) = m.kept ++ [event] := Marked.kept_append _ _
  have hfull : Marked.full (m ++ [(event, true)]) = m.full ++ [event] := List.map_append
  rw [hkept, hfull, stateOf_append_singleton, stateOf_append_singleton, h.pending hinert hlate,
    standing, List.filter_map]
  rfl

/-- A deleted event keeps the streams alike. -/
theorem Mirrors.delete (h : Mirrors window m) (hinert : ∀ event, (event, false) ∈ m → event.Inert)
    (hevent : event.Inert) (hlate : ∀ earlier ∈ m.full, earlier.arrivedAt ≤ event.arrivedAt) :
    Mirrors window (m ++ [(event, false)]) := by
  intro arrival harrival
  have hkept : Marked.kept (m ++ [(event, false)]) = m.kept :=
    (Marked.kept_append _ _).trans (List.append_nil _)
  have hfull : Marked.full (m ++ [(event, false)]) = m.full ++ [event] := List.map_append
  rw [hfull] at harrival
  have hnow := harrival event (List.mem_append_right _ (List.mem_singleton.mpr rfl))
  have hquiet : ((stateOf window m.full).accept event).2.pending =
      standing window event.arrivedAt (stateOf window m.full).pending := by
    rw [pending_accept, pending_noteArrival hlate, association_accept, hevent.claimant?_eq_none,
      hevent.removes?_eq_none, hevent.assignment?_eq_none, Option.toList_none, List.append_nil]
    exact List.filter_eq_self.mpr fun _ _ => rfl
  rw [hkept, hfull, stateOf_append_singleton, hquiet, standing_standing hnow,
    h arrival fun earlier hearlier => harrival earlier (List.mem_append_left _ hearlier)]
  refine List.map_congr_left fun a ha => ?_
  exact (Marked.renumber_append _ (keptAt_of_mem_pending hinert (List.mem_filter.mp ha).1)).symm

/-- Streams with inert events deleted stay alike all along. -/
theorem mirrors_of_inert (window : Duration) (m : Marked)
    (hinert : ∀ event, (event, false) ∈ m → event.Inert)
    (hordered : m.full.Pairwise fun earlier later => earlier.arrivedAt ≤ later.arrivedAt) :
    Mirrors window m := by
  induction m using List.reverseRecOn with
  | nil => exact fun _ _ => rfl
  | append_singleton m last ih =>
    obtain ⟨event, mark⟩ := last
    have hfull : Marked.full (m ++ [(event, mark)]) = Marked.full m ++ [event] := List.map_append
    rw [hfull, List.pairwise_append] at hordered
    have hearlier : ∀ event, (event, false) ∈ m → event.Inert :=
      fun other hother => hinert other (List.mem_append_left _ hother)
    have hlate : ∀ earlier ∈ Marked.full m, earlier.arrivedAt ≤ event.arrivedAt :=
      fun earlier he => hordered.2.2 earlier he event (List.mem_singleton.mpr rfl)
    have hbefore := ih hearlier hordered.1
    cases mark with
    | true => exact hbefore.keep hearlier hlate
    | false =>
      have hevent := hinert event (List.mem_append_right _ (List.mem_singleton.mpr rfl))
      exact hbefore.delete hearlier hevent hlate

/-- The entry of an event in a stream is the one that the state before it returns. -/
theorem getElem?_entriesOf (window : Duration) (earlier later : List SourceEvent)
    (event : SourceEvent) : (entriesOf window (earlier ++ event :: later))[earlier.length]? =
      some ((stateOf window earlier).accept event).1 := by
  obtain ⟨rest, hentries⟩ := entriesOf_cut window earlier later event
  have hlength := length_entriesOf window earlier
  rw [hentries, List.getElem?_append_right (Nat.le_of_eq hlength), hlength, Nat.sub_self]
  rfl

/-- Noise cannot steal, block or move a join: deleting inert events from a stream in order of arrival
leaves every other event joined as before, with the same assignment, whose number is its new one. -/
theorem join_of_kept (window : Duration) (m : Marked)
    (hinert : ∀ event, (event, false) ∈ m → event.Inert)
    (hordered : m.full.Pairwise fun earlier later => earlier.arrivedAt ≤ later.arrivedAt)
    {i : Nat} {event : SourceEvent} (hevent : m[i]? = some (event, true)) :
    ∃ whole shortened, (entriesOf window m.full)[i]? = some whole ∧
      m.kept[m.rank i]? = some event ∧ (entriesOf window m.kept)[m.rank i]? = some shortened ∧
      (whole.association = none → shortened.association = none) ∧
      ∀ association, whole.association = some association →
        ∃ place assigned, association.nsidSeq = place + 1 ∧ m[place]? = some (assigned, true) ∧
          m.kept[m.rank place]? = some assigned ∧
          shortened.association = some { association with nsidSeq := m.rank place + 1 } := by
  obtain ⟨hcut, hlength⟩ := Marked.cut hevent
  obtain ⟨before, hbefore⟩ : ∃ before : Marked, before = m.take i := ⟨_, rfl⟩
  rw [← hbefore] at hcut hlength
  have hfull : m.full = before.full ++ event :: Marked.full (m.drop (i + 1)) :=
    (congrArg Marked.full hcut).symm.trans List.map_append
  have hkept : m.kept = before.kept ++ event :: Marked.kept (m.drop (i + 1)) :=
    (congrArg Marked.kept hcut).symm.trans (Marked.kept_append _ _)
  have hplace : before.full.length = i := (List.length_map _).trans hlength
  have hrank : before.kept.length = m.rank i := by
    rw [Marked.kept, List.length_map, hbefore, Marked.rank, List.countP_eq_length_filter]
  rw [hfull, List.pairwise_append] at hordered
  have hearlier : ∀ event, (event, false) ∈ before → event.Inert :=
    fun other hother => hinert other (List.mem_of_mem_take (hbefore ▸ hother))
  have hlate : ∀ earlier ∈ before.full, earlier.arrivedAt ≤ event.arrivedAt :=
    fun earlier he => hordered.2.2 earlier he event List.mem_cons_self
  have hmirrors := mirrors_of_inert window before hearlier hordered.1
  have hassociation := hmirrors.association hearlier hlate
  refine ⟨((stateOf window before.full).accept event).1, ((stateOf window before.kept).accept event).1,
    ?_, Marked.getElem?_kept hevent, ?_, fun hnone => by rw [hassociation, hnone]; rfl, ?_⟩
  · have hentry := getElem?_entriesOf window before.full (Marked.full (m.drop (i + 1))) event
    rwa [← hfull, hplace] at hentry
  · have hentry := getElem?_entriesOf window before.kept (Marked.kept (m.drop (i + 1))) event
    rwa [← hkept, hrank] at hentry
  · intro association hsome
    obtain ⟨process, a, -, ha, -, -, rfl⟩ := nsidSeq_accept hsome
    rw [pending_noteArrival hlate] at ha
    obtain ⟨place, assigned, hplace, hassigned⟩ :=
      keptAt_of_mem_pending hearlier (List.mem_filter.mp ha).1
    have hlt : place < before.length := (List.getElem?_eq_some_iff.mp hassigned).1
    have hm : m[place]? = some (assigned, true) := by
      rw [← hcut, List.getElem?_append_left hlt, hassigned]
    have hnumber : before.rank (place + 1) = m.rank place + 1 := by
      rw [← Marked.rank_append ((event, true) :: m.drop (i + 1)) hlt, hcut, Marked.rank_succ hm]
    refine ⟨place, assigned, hplace, hm, Marked.getElem?_kept hm, ?_⟩
    rw [hassociation, hsome, Option.map_some, hplace, hnumber]

/-- An assignment and a clone soon after it, with a fork before them and a bad record in between. -/
def noisyClone : Marked :=
  [(⟨100, .process ⟨.fork, 90, 90, 0, 0, 1, Command.ofName [112]⟩⟩, false),
    (⟨100, .nsid ⟨.assigned, some 7, none⟩⟩, true),
    (⟨104, .rejected (.unknownKind 9)⟩, false),
    (⟨105, .process ⟨.clone, 200, 200, 0, 0, 1, Command.ofName [112]⟩⟩, true)]

/-- Without the noise the clone is joined all the same, under the new number of the assignment. -/
theorem noisyClone_join_of_kept : ∃ shortened,
    (entriesOf 10 noisyClone.kept)[1]? = some shortened ∧
      shortened.association = some { nsid := 7, nsidSeq := 1, pid := 200, delay := 5 } := by
  have hinert : ∀ event, (event, false) ∈ noisyClone → event.Inert := by
    intro event hevent
    simp only [noisyClone, List.mem_cons, Prod.mk.injEq, Bool.false_eq_true, and_false, and_true,
      List.not_mem_nil, or_false, false_or] at hevent
    rcases hevent with rfl | rfl
    · exact Or.inl rfl
    · trivial
  have hordered : noisyClone.full.Pairwise fun earlier later =>
      earlier.arrivedAt ≤ later.arrivedAt := by decide
  obtain ⟨whole, shortened, hwhole, -, hshortened, -, hjoined⟩ :=
    join_of_kept 10 noisyClone hinert hordered (i := 3) rfl
  cases hwhole
  obtain ⟨place, -, hplace, -, -, hassociation⟩ := hjoined _ rfl
  cases hplace
  exact ⟨shortened, hshortened, hassociation⟩

end Simulation

end Correlator

end NetnsWatch
