import NetnsWatch.Proofs.Session.Ledger

/-!
# The order of the self test's events

Forks may be taken from the ring before or after the announcement is stamped and before or after it
is sent, so the events enter the source channel in many orders, and not always in that of their
stamps. But the clone's record is the last one that the ring accepts, and is accepted only when the
rest after the announcement is over. So its event is the last one that is sent, and no stamp is later
than its own.
-/

namespace NetnsWatch.Session

open Burst

variable {window : Duration} {total moved : Traffic} {s s' : Session} {t : Turn}

/-- Records are taken in the order of their stamps, the clone at least the rest after the announcement,
and no event is sent behind that of the clone. -/
structure InOrder (total : Traffic) (now : Instant) : Prop where
  sorted : total.taken.Pairwise fun p q => p.2 ≤ q.2
  le_now : ∀ p ∈ total.taken, p.2 ≤ now
  rested : ∀ p ∈ total.taken, p.1 = cloneRecord → ∀ event ∈ announced total,
    event.arrivedAt + rest ≤ p.2
  last : total.sent.Pairwise fun event _ => event.occurrence ≠ cloned

/-- Traffic without records and events leaves the order. -/
theorem InOrder.quiet {now later : Instant} (h : InOrder total now) (htaken : moved.taken = [])
    (hsent : moved.sent = []) (hnow : now ≤ later) : InOrder (total ++ moved) later := by
  have hannounced : announced (total ++ moved) = announced total := by
    rw [announced, Traffic.sent_append, hsent, List.append_nil, announced]
  refine ⟨?_, ?_, ?_, ?_⟩
  · rw [Traffic.taken_append, htaken, List.append_nil]
    exact h.sorted
  · rw [Traffic.taken_append, htaken, List.append_nil]
    exact fun p hp => Nat.le_trans (h.le_now p hp) hnow
  · rw [Traffic.taken_append, htaken, List.append_nil, hannounced]
    exact h.rested
  · rw [Traffic.sent_append, hsent, List.append_nil]
    exact h.last

/-- An event whose occurrence is the clone stands for a record. -/
theorem ringBorn_of_cloned {event : SourceEvent} (h : event.occurrence = cloned) :
    event.ringBorn = true := by
  rw [SourceEvent.ringBorn, h]
  rfl

/-- A taken record was accepted. -/
theorem mem_accepted_of_mem_taken (h : Tested total s) {p : Bytes × Instant}
    (hp : p ∈ total.taken) : p.1 ∈ total.accepted := by
  obtain ⟨queue, hqueue, -⟩ := h.conserves
  rw [hqueue]
  exact List.mem_append_left _ (List.mem_map_of_mem hp)

/-- While the self test runs, no taken record is the clone's, and no event that was sent. -/
theorem not_cloned_of_burst (htested : Tested total s) (hentered : Entered total s)
    (hrecords : RecordsSent total s.drain) (hdrain : s.drain ≠ .ended) (hburst : s.burst ≠ .ended) :
    (∀ p ∈ total.taken, p.1 ≠ cloneRecord) ∧ ∀ event ∈ total.sent, event.occurrence ≠ cloned := by
  have hforked : ∀ p ∈ total.taken, ∃ pid, Occurrence.ofRecord p.1 = forked pid := fun p hp =>
    Ledger.forked_of_mem hentered hburst (mem_accepted_of_mem_taken htested hp)
  constructor
  · intro p hp hclone
    obtain ⟨pid, hpid⟩ := hforked p hp
    rw [hclone, ofRecord_clone] at hpid
    exact forked_ne_cloned pid hpid.symm
  · intro event hevent hcloned
    have hmem := List.mem_append_left s.drain.hand
      (List.mem_filter.mpr ⟨hevent, ringBorn_of_cloned hcloned⟩)
    rw [hrecords.account hdrain] at hmem
    obtain ⟨p, hp, rfl⟩ := List.mem_map.mp hmem
    obtain ⟨pid, hpid⟩ := hforked p hp
    rw [observe_eq, hpid] at hcloned
    exact forked_ne_cloned pid hcloned

/-- While the drain has an event in hand, no event that was sent is the clone's. -/
theorem not_cloned_of_hand {count : Nat} {event : SourceEvent} (htested : Tested total s)
    (hentered : Entered total s) (hrecords : RecordsSent total s.drain)
    (hdrain : s.drain = .sending count event) :
    ∀ other ∈ total.sent, other.occurrence ≠ cloned := by
  intro other hother hcloned
  have haccount := hrecords.account (by rw [hdrain]; exact nofun)
  have hhand : s.drain.hand = [event] := by rw [hdrain]; rfl
  rw [hhand] at haccount
  obtain ⟨earlier, latest, htaken, hearlier, hlatest⟩ := List.map_eq_append_iff.mp haccount.symm
  have hborn := List.mem_filter.mpr ⟨hother, ringBorn_of_cloned hcloned⟩
  rw [← hearlier] at hborn
  obtain ⟨p, hp, rfl⟩ := List.mem_map.mp hborn
  -- The record in hand was taken behind this one, which is therefore not the last one accepted.
  have hbefore : p.1 ∈ total.accepted.dropLast := by
    obtain ⟨queue, hqueue, -⟩ := htested.conserves
    have hne : latest.map Prod.fst ++ queue ≠ [] := by
      intro hnil
      rw [List.map_eq_nil_iff.mp (List.append_eq_nil_iff.mp hnil).1] at hlatest
      cases hlatest
    rw [hqueue, htaken, List.map_append, List.append_assoc, List.dropLast_append_of_ne_nil hne]
    exact List.mem_append_left _ (List.mem_map_of_mem hp)
  obtain ⟨pid, hpid⟩ := Ledger.forked_of_mem_dropLast hentered hbefore
  rw [observe_eq, hpid] at hcloned
  exact forked_ne_cloned pid hcloned

/-- Where the clone's record was accepted, the rest after every announcement is over. -/
theorem rested_of_mem (hentered : Entered total s) (hmem : cloneRecord ∈ total.accepted) :
    ∀ event ∈ announced total, event.arrivedAt + rest ≤ s.now := by
  unfold Entered at hentered
  cases hburst : s.burst with
  | ended =>
    rw [hburst] at hentered
    cases hentered with
    | ended _ _ hannounced hrested =>
      intro event hevent
      rw [hannounced] at hevent
      rw [List.mem_singleton.mp hevent]
      exact hrested
  | forking | sending | resting =>
    obtain ⟨pid, hpid⟩ := Ledger.forked_of_mem hentered (by rw [hburst]; exact nofun) hmem
    exact absurd (ofRecord_clone.symm.trans hpid) (forked_ne_cloned pid).symm

/-- An event that is sent where none of those before is the clone's keeps the clone's last. -/
theorem InOrder.pairwise_send {now : Instant} (h : InOrder total now) (event : SourceEvent)
    (hnone : ∀ other ∈ total.sent, other.occurrence ≠ cloned) :
    (total.sent ++ [event]).Pairwise fun event _ => event.occurrence ≠ cloned := by
  refine List.pairwise_append.mpr ⟨h.last, List.pairwise_singleton _ _, ?_⟩
  exact fun other hother _ _ => hnone other hother

/-- A record is taken now, behind all others. -/
theorem InOrder.take {bytes : Bytes} {ring : Ring} (h : InOrder total s.now)
    (htested : Tested total s) (hentered : Entered total s)
    (hnext : s.ring.next = (.ok (some bytes), ring)) :
    InOrder (total ++ { Traffic.none with taken := [(bytes, s.now)] }) s.now := by
  obtain ⟨queue, hqueue, -⟩ := htested.conserves.take hnext
  have hsent : (total ++ { Traffic.none with taken := [(bytes, s.now)] }).sent = total.sent :=
    List.append_nil _
  refine ⟨?_, ?_, ?_, hsent ▸ h.last⟩
  · refine List.pairwise_append.mpr ⟨h.sorted, List.pairwise_singleton _ _, fun p hp q hq => ?_⟩
    rw [List.mem_singleton.mp hq]
    exact h.le_now p hp
  · intro p hp
    obtain hearlier | hlast := List.mem_append.mp hp
    · exact h.le_now p hearlier
    · rw [List.mem_singleton.mp hlast]
  · rw [announced, hsent, ← announced]
    intro p hp hclone
    obtain hearlier | hlast := List.mem_append.mp hp
    · exact h.rested p hearlier hclone
    · rw [List.mem_singleton.mp hlast] at hclone ⊢
      have hmem : cloneRecord ∈ total.accepted := by
        rw [hqueue, ← hclone]
        exact List.mem_append_left _ (List.mem_append_right _ (List.mem_singleton.mpr rfl))
      exact rested_of_mem hentered hmem

/-- The drain sends what it has in hand, behind all others. -/
theorem InOrder.sendRecord {count : Nat} {event : SourceEvent} (h : InOrder total s.now)
    (htested : Tested total s) (hentered : Entered total s) (hrecords : RecordsSent total s.drain)
    (hkind : s.OwnKind) (hdrain : s.drain = .sending count event) :
    InOrder (total ++ { Traffic.none with sent := [event] }) s.now := by
  have hborn : event.ringBorn = true := hkind.of_drain hdrain
  have htaken : (total ++ { Traffic.none with sent := [event] }).taken = total.taken :=
    List.append_nil _
  have hannounced : announced (total ++ { Traffic.none with sent := [event] }) =
      announced total := by
    rw [announced, Traffic.sent_append, List.filter_append, ← announced]
    simp [hborn]
  refine ⟨htaken ▸ h.sorted, htaken ▸ h.le_now, ?_, ?_⟩
  · rw [htaken, hannounced]
    exact h.rested
  · exact h.pairwise_send event (not_cloned_of_hand htested hentered hrecords hdrain)

/-- The announcement is sent before the clone's record is there. -/
theorem InOrder.sendAnnouncement {event : SourceEvent} {dropped : Nat} (h : InOrder total s.now)
    (htested : Tested total s) (hentered : Entered total s) (hrecords : RecordsSent total s.drain)
    (hrunning : s.Running) (hburst : s.burst = .sending event dropped) :
    InOrder (total ++ { Traffic.none with sent := [event] }) s.now := by
  obtain ⟨htaken, hsent⟩ :=
    not_cloned_of_burst htested hentered hrecords hrunning.drain_ne_ended
      (by rw [hburst]; exact nofun)
  have hsame : (total ++ { Traffic.none with sent := [event] }).taken = total.taken :=
    List.append_nil _
  refine ⟨hsame ▸ h.sorted, hsame ▸ h.le_now, ?_, h.pairwise_send event hsent⟩
  rw [hsame]
  exact fun p hp hclone => absurd hclone (htaken p hp)

/-- The clone's event is the last one that was sent. -/
theorem InOrder.exists_concat {now : Instant} {event : SourceEvent} (h : InOrder total now)
    (hmem : event ∈ total.sent) (hcloned : event.occurrence = cloned) :
    ∃ others, total.sent = others ++ [event] := by
  obtain hnil | ⟨others, last, hsent⟩ := List.eq_nil_or_concat' total.sent
  · rw [hnil] at hmem
    cases hmem
  · have hlast := h.last
    rw [hsent] at hmem hlast
    obtain hearlier | hsame := List.mem_append.mp hmem
    · exact absurd hcloned ((List.pairwise_append.mp hlast).2.2 event hearlier last
        (List.mem_singleton.mpr rfl))
    · exact ⟨others, by rw [hsent, List.mem_singleton.mp hsame]⟩

/-- What is known of the self test while nobody cancels the token. -/
structure Underway (window : Duration) (total : Traffic) (s : Session) : Prop where
  tested : Tested total s
  roomy : s.Roomy
  running : s.Running
  kind : s.OwnKind
  records : RecordsSent total s.drain
  flows : Flows window total s
  entered : Entered total s
  order : InOrder total s.now

/-- Every turn keeps the order of what is taken and sent. -/
theorem Underway.order_step (h : Underway window total s) (hs : Step s t moved s') :
    InOrder (total ++ moved) s'.now := by
  have hnow := now_le_step hs
  cases hs with
  | submit | fork | clone =>
    obtain ⟨htaken, hsent, -, -⟩ := offerRecord_moves _ s.ring
    exact h.order.quiet htaken hsent hnow
  | takeRecord _ hnext => exact h.order.take h.tested h.entered hnext
  | sendRecord hdrain => exact h.order.sendRecord h.tested h.entered h.records h.kind hdrain
  | sendNotification hlisten => exact absurd (h.tested.listen.symm.trans hlisten) nofun
  | sendAnnouncement hburst =>
    exact h.order.sendAnnouncement h.tested h.entered h.records h.running hburst
  | _ => exact h.order.quiet rfl rfl hnow

/-- Every turn of the self test's own tasks keeps what is known of it while nobody cancels. -/
theorem Underway.step (h : Underway window total s) (hown : ∀ record, t ≠ .submit record)
    (hcancel : t ≠ .cancel) (hbegin : t ≠ .beginShutdown) (hs : Step s t moved s') :
    Underway window (total ++ moved) s' where
  tested := h.tested.step hown hs
  roomy := h.roomy.step h.tested hown hs
  running := h.running.step h.tested hcancel hbegin hs
  kind := h.kind.step hs
  records := h.records.step h.kind hs
  flows := h.flows.step h.tested.wired hs
  entered := h.entered.step h.tested h.roomy h.running h.kind hown hs
  order := h.order_step hs

/-- What is known at first. -/
theorem underway_selfTest {capacity : UInt64} {ring : Ring}
    (hcreate : Ring.create capacity = .ok ring) (hroom : 192 ≤ capacity.toNat) (window : Duration) :
    Underway window .none (selfTest ring window) := by
  obtain ⟨-, hcapacity, hdropped, -⟩ := Ring.holds_create hcreate
  have hforks : ([] ++ forkPids).Perm forkPids := .refl _
  have hnothing : ∀ event ∈ ([] : List SourceEvent), ∀ kind, event.ringBorn = kind :=
    fun event hevent => absurd hevent List.not_mem_nil
  refine ⟨tested_selfTest hcreate window, ⟨hcapacity ▸ hroom, hdropped⟩, ⟨rfl, rfl, rfl, rfl⟩, ?_,
    .of_account rfl, ?_, .forking hforks rfl rfl, ?_⟩
  · exact ⟨fun event h => hnothing event h _, fun event h => hnothing event h _,
      fun event h => hnothing event h _⟩
  · exact ⟨[], [], ⟨List.prefix_rfl, fun _ => rfl, rfl, List.prefix_rfl, fun _ _ => rfl⟩, rfl, rfl⟩
  · exact ⟨List.Pairwise.nil, fun p hp => absurd hp List.not_mem_nil,
      fun p hp => absurd hp List.not_mem_nil, List.Pairwise.nil⟩

/-- What is known stays known under every schedule of the self test's own tasks in which nobody
cancels the token. -/
theorem Underway.run (h : Underway window total s) {schedule : List Turn} (hown : Own schedule)
    (hopen : Open schedule) :
    Underway window (total ++ trafficOf schedule s) (run schedule s) := by
  refine invariant_run (C := fun _ => True) (P := fun moved s => Underway window (total ++ moved) s)
    schedule ?_ (fun _ _ => trivial) fun {before s t moved s'} ht _ h hs => ?_
  · rw [Traffic.append_none]
    exact h
  · rw [← Traffic.append_assoc]
    exact h.step (fun record hrecord => hown record (hrecord ▸ ht)) (fun hcancel => hopen.1 (hcancel ▸ ht))
      (fun hbegin => hopen.2 (hbegin ▸ ht)) hs

end NetnsWatch.Session
