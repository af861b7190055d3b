import NetnsWatch.Proofs.Correlator.SoleAssignment
import NetnsWatch.Proofs.Session.Completion

/-!
# What a completed self test tells

A self test that has finished has sent five events: three forks and the announcement in one of many
orders, and behind them the clone. The forks take no part in any join, so the entries are those of a
stream with one assignment: only the clone can be joined, and it is if the window reaches from its
stamp back to the announcement's.
-/

namespace NetnsWatch.Session

open Burst Correlator

variable {window : Duration} {total moved : Traffic} {s : Session}

/-- The events of the self test before the clone's, the clone's stamp, and how they lie in time. -/
structure Arrives (before after : List SourceEvent) (stamp clock : Instant) : Prop where
  forks : ((before ++ after).map (·.occurrence)).Perm (forkPids.map forked)
  le_clock : ∀ event ∈ before ++ announcement stamp :: after, event.arrivedAt ≤ clock
  rested : stamp + rest ≤ clock

/-- Once everything was taken from the ring, the records taken are the forks', and then the clone's. -/
theorem Underway.taken_eq (h : Underway window total s) (hfinished : s.Finished) :
    ∃ forks clock, total.taken = forks ++ [(cloneRecord, clock)] ∧
      (forks.map fun p => Occurrence.ofRecord p.1).Perm (forkPids.map forked) ∧
      (∀ p ∈ forks, p.2 ≤ clock) ∧
      ∃ stamp, announced total = [announcement stamp] ∧ stamp + rest ≤ clock := by
  have hentered := h.entered
  have haccepted := h.tested.conserves.eq_of_empty hfinished.settled.ring
  rw [Entered, hfinished.burst] at hentered
  cases hentered with
  | @ended pids stamp hpids hrecords hannounced _ =>
    rw [hrecords] at haccepted
    obtain ⟨forks, last, htaken, hforks, hlast⟩ := List.map_eq_append_iff.mp haccepted.symm
    obtain ⟨⟨bytes, clock⟩, rfl, hclone⟩ := List.map_eq_singleton_iff.mp hlast
    change bytes = cloneRecord at hclone
    subst hclone
    have horder := h.order
    refine ⟨forks, clock, htaken, ?_, ?_, stamp, hannounced, ?_⟩
    · have hoccurrences := congrArg (List.map Occurrence.ofRecord) hforks
      rw [List.map_map, map_ofRecord_forkRecords] at hoccurrences
      exact (List.Perm.of_eq hoccurrences).trans (hpids.map forked)
    · intro p hp
      have hsorted := horder.sorted
      rw [htaken] at hsorted
      exact (List.pairwise_append.mp hsorted).2.2 p hp _ (List.mem_singleton.mpr rfl)
    · have hmem : (cloneRecord, clock) ∈ total.taken := by
        rw [htaken]
        exact List.mem_append_right _ (List.mem_singleton.mpr rfl)
      exact horder.rested _ hmem rfl (announcement stamp)
        (hannounced ▸ List.mem_singleton.mpr rfl)

/-- Where one entry of a list fails a test, it stands somewhere among those that pass. -/
theorem exists_split_of_filter {α : Type} {p : α → Bool} {l : List α} {x : α}
    (h : l.filter (fun y => !p y) = [x]) :
    ∃ before after, l = before ++ x :: after ∧ before ++ after = l.filter p := by
  obtain ⟨before, after, rfl, hbefore, hx, hafter⟩ := List.filter_eq_cons_iff.mp h
  refine ⟨before, after, rfl, ?_⟩
  have hpassed : ∀ y ∈ before, p y = true := fun y hy => by simpa using hbefore y hy
  have hothers : ∀ y ∈ after, p y = true := fun y hy => by
    simpa using List.filter_eq_nil_iff.mp hafter y hy
  have hfails : ¬ p x = true := by simpa using hx
  rw [List.filter_append, List.filter_cons_of_neg hfails, List.filter_eq_self.mpr hpassed,
    List.filter_eq_self.mpr hothers]

/-- The events that were sent are those before the clone's, in one of many orders, and the clone's. -/
theorem Underway.sent_eq (h : Underway window total s) (hfinished : s.Finished) :
    ∃ before after stamp clock, Arrives before after stamp clock ∧
      total.sent = (before ++ announcement stamp :: after) ++ [⟨clock, cloned⟩] := by
  obtain ⟨forks, clock, htaken, hforks, hclock, stamp, hannounced, hrested⟩ := h.taken_eq hfinished
  have haccount := h.records.account h.running.drain_ne_ended
  rw [hfinished.settled.drain, List.append_nil, htaken, List.map_append, List.map_singleton,
    observe_eq cloneRecord, ofRecord_clone] at haccount
  have hclone : SourceEvent.mk clock cloned ∈ total.sent.filter SourceEvent.ringBorn := by
    rw [haccount]
    exact List.mem_append_right _ (List.mem_singleton.mpr rfl)
  obtain ⟨others, hsent⟩ := h.order.exists_concat (List.mem_of_mem_filter hclone) rfl
  have hborn : (SourceEvent.mk clock cloned).ringBorn = true := ringBorn_of_cloned rfl
  rw [announced, hsent, List.filter_append, List.filter_singleton, hborn, Bool.not_true, cond_false,
    List.append_nil] at hannounced
  rw [hsent, List.filter_append, List.filter_singleton, hborn, cond_true] at haccount
  have hothers := List.append_cancel_right haccount
  obtain ⟨before, after, rfl, hrest⟩ := exists_split_of_filter hannounced
  rw [hothers] at hrest
  refine ⟨before, after, stamp, clock, ⟨?_, ?_, hrested⟩, hsent⟩
  · rw [hrest, List.map_map]
    refine (List.Perm.of_eq ?_).trans hforks
    exact List.map_congr_left fun p _ => congrArg SourceEvent.occurrence (observe_eq p.1 p.2)
  · intro event hevent
    obtain hfork | rfl : event ∈ before ++ after ∨ event = announcement stamp := by
      simp only [List.mem_append, List.mem_cons] at hevent ⊢
      tauto
    · rw [hrest] at hfork
      obtain ⟨p, hp, rfl⟩ := List.mem_map.mp hfork
      rw [observe_eq]
      exact hclock p hp
    · exact Nat.le_trans (Nat.le_add_right stamp rest) hrested

/-- What the entries of a self test tell: the others before the clone's, the announcement's among
them, and the clone's. -/
structure Tells (window : Duration) (others : List Entry) (announced clone : Entry) : Prop where
  numbered : (others ++ [clone]).map (·.seq) = [1, 2, 3, 4, 5]
  occurrences : (others.map (·.occurrence)).Perm (.nsid notification :: forkPids.map forked)
  announced_mem : announced ∈ others
  announced_eq : announced.occurrence = .nsid notification
  clone_eq : clone.occurrence = cloned
  apart : ∀ entry ∈ others, entry.association = none
  joined : clone.association =
    if clone.arrivedAt - announced.arrivedAt ≤ window then
      some { nsid := nsid, nsidSeq := announced.seq, pid := clonePid,
             delay := clone.arrivedAt - announced.arrivedAt }
    else none
  rested : announced.arrivedAt + rest ≤ clone.arrivedAt
  unjoined : window < rest → clone.association = none

section Entries

variable {before after : List SourceEvent} {stamp clock : Instant}

/-- The forks take no part in any join. -/
theorem Arrives.inert (h : Arrives before after stamp clock) :
    ∀ event ∈ before ++ after, event.Inert := by
  rintro ⟨arrival, occurrence⟩ hevent
  have hmem := h.forks.subset (List.mem_map_of_mem hevent)
  obtain ⟨pid, -, hfork⟩ := List.mem_map.mp hmem
  change forked pid = occurrence at hfork
  rw [← hfork]
  exact Or.inl rfl

/-- The entries of such events tell what happened. -/
theorem Arrives.tells (h : Arrives before after stamp clock) (window : Duration) :
    ∃ others announced clone,
      entriesOf window ((before ++ announcement stamp :: after) ++ [⟨clock, cloned⟩]) =
        others ++ [clone] ∧ Tells window others announced clone := by
  have hclone : SourceEvent.claimant? ⟨clock, cloned⟩ =
      some ⟨.clone, clonePid, clonePid, 0, 0, 1, Command.ofName "ip".toUTF8.toList⟩ := rfl
  obtain ⟨rest, hcut⟩ := entriesOf_cut window before after (announcement stamp)
  have hseq : ((stateOf window before).accept (announcement stamp)).1.seq = before.length + 1 :=
    (tracks_stateOf window before).nextSeq_eq
  have hjoined : ((stateOf window (before ++ announcement stamp :: after)).accept
      ⟨clock, cloned⟩).1.association = if clock - stamp ≤ window then
        some { nsid := nsid, nsidSeq := before.length + 1, pid := clonePid, delay := clock - stamp }
      else none := association_of_sole hclone h.inert h.le_clock
  have hlength : (before ++ announcement stamp :: after).length = 4 := by
    have hforks := h.forks.length_eq
    rw [List.length_map, List.length_append] at hforks
    rw [List.length_append, List.length_cons, ← Nat.add_assoc, hforks]
    rfl
  refine ⟨_, ((stateOf window before).accept (announcement stamp)).1, _,
    entriesOf_append_singleton window _ _, ?_, ?_, ?_, rfl, rfl, ?_, ?_, h.rested, ?_⟩
  · rw [← entriesOf_append_singleton, map_seq_entriesOf, List.length_append, hlength]
    rfl
  · have hevents := congrArg (List.map (·.occurrence))
      (map_entriesOf window (before ++ announcement stamp :: after))
    rw [List.map_map] at hevents
    refine (List.Perm.of_eq hevents).trans ((List.perm_middle.map _).trans ?_)
    exact h.forks.cons _
  · rw [hcut]
    exact List.mem_append_right _ List.mem_cons_self
  · exact association_entriesOf_eq_none window fun other hother =>
      (silent_of_sole stamp nsid (some nsid.toInt32) h.inert other hother).1
  · rw [hjoined, hseq]
    rfl
  · intro hnarrow
    have hrested := h.rested
    rw [hjoined, if_neg]
    unfold Instant Duration at *
    omega

end Entries

/-- Under every schedule of the self test's own tasks, with room for its records and nobody cancelling
the token: no record is dropped, the self test can be completed, and once it has finished its five
entries tell what happened, joined as far as the window reaches, and none is added to them later. -/
theorem selfTest_tells {capacity : UInt64} {ring : Ring}
    (hcreate : Ring.create capacity = .ok ring) (hroom : 192 ≤ capacity.toNat) (window : Duration)
    {schedule : List Turn} (hown : Own schedule) (hopen : Open schedule) :
    (run schedule (selfTest ring window)).ring.dropped = 0 ∧
    ((run schedule (selfTest ring window)).Finished →
      (∃ others announced clone, (run schedule (selfTest ring window)).logged = others ++ [clone] ∧
        Tells window others announced clone) ∧
      ∀ later, Own later → (run (schedule ++ later) (selfTest ring window)).logged =
        (run schedule (selfTest ring window)).logged) ∧
    ∃ more, Own more ∧ Open more ∧
      (run (schedule ++ more) (selfTest ring window)).Finished := by
  have hrun : Underway window (trafficOf schedule (selfTest ring window))
      (run schedule (selfTest ring window)) :=
    (underway_selfTest hcreate hroom window).run hown hopen
  refine ⟨hrun.roomy.dropped, fun hfinished => ⟨?_, fun later hlater => ?_⟩, ?_⟩
  · obtain ⟨before, after, stamp, clock, harrives, hsent⟩ := hrun.sent_eq hfinished
    rw [hrun.logged_eq hfinished, hsent]
    exact harrives.tells window
  · rw [run, List.foldl_append]
    exact hfinished.logged_run hrun.tested hlater
  · obtain ⟨more, hmoreOwn, hmoreOpen, hend⟩ := hrun.exists_finished
    refine ⟨more, hmoreOwn, hmoreOpen, ?_⟩
    rw [run, List.foldl_append]
    exact hend

/-- A ring with room for all records of the self test. -/
def ampleRing : Ring :=
  .ofMemory ⟨256, .replicate 32 0, ⟨8, rfl⟩, by decide, rfl⟩

/-- One fork is taken before the announcement is stamped and sent after it; the other two are sent
behind the announcement. -/
def mingled : List Turn :=
  [.fork 102, .fork 100, .wakeDrain, .takeRecord, .fork 101, .announce, .sendAnnouncement, .sendRecord,
    .takeRecord, .advance rest, .sendRecord, .clone, .takeRecord, .sendRecord, .takeRecord,
    .sendRecord, .takeRecord] ++ (List.replicate 5 [.takeEvent, .sendEntry, .takeEntry]).flatten

/-- With a window of fifty milliseconds the clone is joined with the announcement, which comes first,
and a shutdown after that logs no further entry. -/
theorem mingled_tells : ∃ others announced clone,
    (run mingled (selfTest ampleRing (Duration.ofMillis 50))).logged = others ++ [clone] ∧
      Tells (Duration.ofMillis 50) others announced clone ∧
      (run mingled (selfTest ampleRing (Duration.ofMillis 50))).ring.dropped = 0 ∧
      clone.association = some ⟨5, 1, 200, Duration.ofMillis 10⟩ ∧
      (run (mingled ++ [.beginShutdown, .stopReport])
        (selfTest ampleRing (Duration.ofMillis 50))).logged = others ++ [clone] := by
  have hcreate : Ring.create 256 = .ok ampleRing := rfl
  have hfinished : (run mingled (selfTest ampleRing (Duration.ofMillis 50))).Finished :=
    ⟨by decide +kernel, by decide +kernel, by decide +kernel, by decide +kernel, by decide +kernel,
      by decide +kernel, by decide +kernel⟩
  have hlast : ((run mingled (selfTest ampleRing (Duration.ofMillis 50))).logged.getLast?.bind
      (·.association)) = some ⟨5, 1, 200, Duration.ofMillis 10⟩ := by decide +kernel
  have hown : Own mingled := by simp [Own, mingled]
  have hopen : Open mingled := by simp [Open, mingled]
  obtain ⟨hdropped, htells, -⟩ :=
    selfTest_tells hcreate (by decide) (Duration.ofMillis 50) hown hopen
  obtain ⟨⟨others, announced, clone, hlogged, hall⟩, hlater⟩ := htells hfinished
  have hstill := hlater [.beginShutdown, .stopReport] (by simp [Own])
  rw [hlogged, List.getLast?_append] at hlast
  exact ⟨others, announced, clone, hlogged, hall, hdropped, hlast, hstill.trans hlogged⟩

end NetnsWatch.Session
