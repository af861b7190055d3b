import NetnsWatch.Proofs.Session.Damage
import NetnsWatch.Proofs.Session.Pipeline

/-!
# The account of the drain

Between any two of its records the drain may be cancelled, its channel may lose its receiver, or other
tasks may take their turns. Whatever happens, the records that the ring has accepted are those whose
events were sent, at most one that was taken and not sent, and those that the ring still holds, in this
order. The drain ends only once: with the number of events that it has sent, when it was cancelled
between drains, or with the fault of the closed channel, at the first event that it cannot send.
-/

namespace NetnsWatch

/-- How the drain ended, if a notice says so: with its total, or with a fault. -/
def Notice.drainEnd? : Notice → Option (Except Fault Nat)
  | .drainStopped total => some (.ok total)
  | .taskFailed task fault => if task = Session.drainTask then some (.error fault) else none
  | _ => none

/-- The events that the drain has sent since it waited. -/
def DrainPhase.count : DrainPhase → Nat
  | .draining count | .sending count _ => count
  | .waiting | .ended => 0

namespace Session

/-- The ends of the drain that were logged. -/
def drainEnds (s : Session) : List (Except Fault Nat) :=
  s.picked Notice.drainEnd?

/-- The source channel loses its receiver, and what was queued for it. -/
def loseReceiver (s : Session) : Session :=
  { s with source := s.source.dropReceiver }

/-- How many events the drain has sent and how many records it has taken, and what became of it. -/
inductive Tally (s : Session) (sent taken : Nat) : Prop
  /-- It has taken one record more than it has sent if it has one in hand. -/
  | running (hphase : s.drain.alive = true) (hsent : s.drained + s.drain.count = sent)
      (htaken : sent + s.drain.hand.length = taken) (hends : s.drainEnds = [])
  /-- It was stopped between drains, and has logged how many events it has sent. -/
  | stopped (hphase : s.drain = .ended) (htaken : sent = taken) (hends : s.drainEnds = [.ok sent])
  /-- It could not send the event of the last record that it has taken. -/
  | refused (hphase : s.drain = .ended) (hclosed : s.source.receiving = false)
      (htaken : sent + 1 = taken) (hends : s.drainEnds = [.error (closed s.source)])

variable {total moved : Traffic} {s s' : Session} {t : Turn} {sent taken : Nat}

/-- What leaves the drain and its log alone leaves its numbers, while the source channel may close. -/
theorem Tally.of_eq (h : Tally s sent taken) (hdrain : s'.drain = s.drain)
    (hdrained : s'.drained = s.drained) (hends : s'.drainEnds = s.drainEnds)
    (hname : closed s'.source = closed s.source)
    (hclosed : s.source.receiving = false → s'.source.receiving = false) : Tally s' sent taken := by
  cases h with
  | running hphase hsent htaken hnone =>
    exact .running (hdrain ▸ hphase) (by rw [hdrain, hdrained, hsent]) (by rw [hdrain, htaken])
      (hends.trans hnone)
  | stopped hphase htaken hend => exact .stopped (hdrain.trans hphase) htaken (hends.trans hend)
  | refused hphase hreceiving htaken hend =>
    exact .refused (hdrain.trans hphase) (hclosed hreceiving) htaken (by rw [hends, hend, hname])

/-- The numbers of a drain are those of the traffic. -/
def Tallied (total : Traffic) (s : Session) : Prop :=
  Tally s (total.sent.filter SourceEvent.ringBorn).length total.taken.length

/-- A step that takes no record, sends no event of one, and leaves the drain and its log alone. -/
theorem Tallied.quiet (h : Tallied total s) (hs : Step s t moved s')
    (hsent : moved.sent.filter SourceEvent.ringBorn = []) (htaken : moved.taken = [])
    (hdrain : s'.drain = s.drain) (hdrained : s'.drained = s.drained)
    (hends : s'.drainEnds = s.drainEnds) : Tallied (total ++ moved) s' := by
  obtain ⟨hname, hclosed⟩ := source_step hs
  unfold Tallied
  rw [Traffic.sent_append, List.filter_append, hsent, Traffic.taken_append, htaken, List.append_nil,
    List.append_nil]
  exact h.of_eq hdrain hdrained hends hname hclosed

/-- The drain ends in no turn of another task. -/
theorem drainEnds_step (hs : Step s t moved s') (hother : t.task ≠ some drainTask) :
    s'.drainEnds = s.drainEnds := by
  refine picked_step_of_other (fun notice hnotice => ?_) hs hother
  cases notice with
  | drainStopped => exact absurd rfl hnotice
  | taskFailed => exact if_neg fun hsame => hnotice (congrArg some hsame)
  | _ => rfl

/-- A drain that runs has not ended, and its numbers are those of its phase. -/
theorem Tallied.of_phase {phase : DrainPhase} (h : Tallied total s) (hdrain : s.drain = phase)
    (hrunning : phase.alive = true) :
    s.drained + phase.count = (total.sent.filter SourceEvent.ringBorn).length ∧
      (total.sent.filter SourceEvent.ringBorn).length + phase.hand.length = total.taken.length ∧
      s.drainEnds = [] := by
  subst hdrain
  cases h with
  | running _ hsent htaken hends => exact ⟨hsent, htaken, hends⟩
  | stopped hended | refused hended =>
    rw [hended] at hrunning
    cases hrunning

/-- A drain that fails is logged to have ended with the fault. -/
theorem drainEnds_endDrain (fault : Fault) (s : Session) :
    (endDrain (.failed fault) s).drainEnds = s.drainEnds ++ [.error fault] := by
  simp [drainEnds, picked, endDrain, finish, Supervisor.finish, Notice.drainEnd?]

/-- A drain that stops is logged to have ended with its total. -/
theorem drainEnds_stopDrain (s : Session) :
    (endDrain .finished (s.note (.drainStopped s.drained))).drainEnds =
      s.drainEnds ++ [.ok s.drained] := by
  simp [drainEnds, picked, endDrain, finish, note, Supervisor.finish, Notice.drainEnd?]

/-- Every step of a session whose ring is sound keeps the numbers of the drain. -/
theorem Tallied.step (h : Tallied total s) (hkind : s.OwnKind)
    (hsound : ∀ fault ring, s.ring.next ≠ (.error fault, ring)) (hs : Step s t moved s') :
    Tallied (total ++ moved) s' := by
  have hquiet := h.quiet hs
  have hends := drainEnds_step hs
  cases hs with
  | wakeDrain hdrain =>
    obtain ⟨hsent, htaken, hnone⟩ := h.of_phase hdrain rfl
    rw [Traffic.append_none]
    exact .running rfl hsent htaken hnone
  | takeNothing hdrain =>
    obtain ⟨hsent, htaken, hnone⟩ := h.of_phase hdrain rfl
    rw [Traffic.append_none]
    exact .running rfl hsent htaken hnone
  | takeRecord hdrain =>
    obtain ⟨hsent, htaken, hnone⟩ := h.of_phase hdrain rfl
    refine .running rfl ?_ ?_ ((picked_observed s.journal _ fun _ => rfl).trans hnone)
    · simpa [Traffic.none, DrainPhase.count] using hsent
    · simpa [Traffic.none, DrainPhase.hand] using htaken
  | findDamage hdrain hnext => exact absurd hnext (hsound _ _)
  | @sendRecord count event hdrain =>
    have hborn : event.ringBorn = true := hkind.of_drain hdrain
    obtain ⟨hsent, htaken, hnone⟩ := h.of_phase hdrain rfl
    refine .running rfl ?_ ?_ hnone
    · simpa [Traffic.none, hborn, deliver, DrainPhase.count, ← Nat.add_assoc] using hsent
    · simpa [Traffic.none, hborn, DrainPhase.hand] using htaken
  | loseRecord hdrain hclosed =>
    obtain ⟨-, htaken, hnone⟩ := h.of_phase hdrain rfl
    refine .refused rfl hclosed ?_ ?_
    · simpa [Traffic.none, DrainPhase.hand] using htaken
    · rw [drainEnds_endDrain, hnone]
      rfl
  | stopDrain hdrain =>
    obtain ⟨hsent, htaken, hnone⟩ := h.of_phase hdrain rfl
    rw [Traffic.append_none]
    refine .stopped rfl htaken ?_
    rw [drainEnds_stopDrain, hnone, ← hsent]
    rfl
  | submit | fork =>
    obtain ⟨htaken, hsent, -, -⟩ := offerRecord_moves _ s.ring
    exact hquiet (by rw [hsent]; rfl) htaken rfl rfl rfl
  | clone =>
    obtain ⟨htaken, hsent, -, -⟩ := offerRecord_moves (Burst.record .clone Burst.clonePid "ip") s.ring
    refine hquiet (by rw [hsent]; rfl) htaken ?_ ?_ (hends (by simp only [Turn.task]; decide))
    · rw [noteBurst_eq]
      rfl
    · rw [noteBurst_eq]
      rfl
  | @sendNotification event later hlisten =>
    have hkept : event.ringBorn = false := hkind.of_listen hlisten
    exact hquiet (by simp [hkept]) rfl rfl rfl rfl
  | @sendAnnouncement event _ hburst =>
    have hkept : event.ringBorn = false := hkind.of_burst hburst
    exact hquiet (by simp [hkept]) rfl rfl rfl rfl
  | rest => exact hquiet rfl rfl rfl rfl rfl
  | _ => exact hquiet rfl rfl rfl rfl (hends (by simp only [Turn.task]; decide))

/-- What is known of a drain whose ring is sound. -/
structure Drains (total : Traffic) (s : Session) : Prop where
  own : s.OwnKind
  conserves : Ring.Conserves total.accepted (total.taken.map Prod.fst) s.ring
  records : RecordsSent total s.drain
  tallied : Tallied total s

/-- Every step that starts with exact positions keeps what is known of the drain. -/
theorem Drains.step (h : Drains total s) (hrange : Ring.InRange s.ring) (hs : Step s t moved s') :
    Drains (total ++ moved) s' where
  own := h.own.step hs
  conserves := conserves_step h.conserves hrange hs
  records := h.records.step h.own hs
  tallied := h.tallied.step h.own (fun _ _ => h.conserves.next_ne_error) hs

/-- The loss of the receiver keeps what is known of the drain. -/
theorem Drains.loseReceiver (h : Drains total s) : Drains total s.loseReceiver where
  own := ⟨h.own.drain, h.own.listen, h.own.burst⟩
  conserves := h.conserves
  records := h.records
  tallied := Tally.of_eq h.tallied rfl rfl rfl rfl fun _ => rfl

/-- What is known of the drain stays known under every schedule on whose way the positions stay
exact. -/
theorem Drains.run (h : Drains total s) {schedule : List Turn} (hexact : ExactOn schedule s) :
    Drains (total ++ trafficOf schedule s) (run schedule s) := by
  refine invariant_run (C := fun s => Ring.InRange s.ring)
    (P := fun moved s => Drains (total ++ moved) s) schedule ?_ hexact ?_
  · rw [Traffic.append_none]
    exact h
  · intro before s t moved s' _ hrange h hs
    rw [← Traffic.append_assoc]
    exact h.step hrange hs

/-- A drain that has not begun yet waits at an empty ring. -/
structure Unbegun (s : Session) : Prop where
  ring : Ring.Holds s.ring []
  drain : s.drain = .waiting
  drained : s.drained = 0
  own : s.OwnKind
  ends : s.drainEnds = []

/-- The sessions with a drain begin with one that has not begun yet. -/
theorem unbegun_of_create {capacity : UInt64} {ring : Ring} (hcreate : Ring.create capacity = .ok ring)
    (window : Duration) : (monitor ring window).Unbegun ∧ (pipeline ring window).Unbegun ∧
      (selfTest ring window).Unbegun := by
  have hring := (Ring.holds_create hcreate).1
  refine ⟨⟨hring, rfl, rfl, ?_, rfl⟩, ⟨hring, rfl, rfl, ?_, rfl⟩, ⟨hring, rfl, rfl, ?_, rfl⟩⟩ <;>
    constructor <;> exact fun _ hevent => absurd hevent List.not_mem_nil

/-- Nothing is missing where the drain has not begun. -/
theorem Unbegun.drains (h : s.Unbegun) : Drains .none s where
  own := h.own
  conserves := ⟨[], rfl, h.ring⟩
  records := .of_account (by rw [h.drain]; rfl)
  tallied := .running (by rw [h.drain]; rfl) (by rw [h.drained, h.drain]; rfl)
    (by rw [h.drain]; rfl) h.ends

/-- The account of a drain: the records that the ring has accepted are those whose events it has sent,
at most one that it has taken and not sent, and those that the ring still holds. Each event is stamped
with the time at which its record was taken, and says that the record cannot be read where it
cannot. -/
structure DrainAccount (total : Traffic) (s : Session) (sent unsent : List (Bytes × Instant))
    (queue : List Bytes) : Prop where
  accepted_eq : total.accepted = sent.map Prod.fst ++ (unsent.map Prod.fst ++ queue)
  sent_eq : total.sent.filter SourceEvent.ringBorn = sent.map fun p => ⟨p.2, .ofRecord p.1⟩
  unsent_le : unsent.length ≤ 1
  hand_eq : s.drain.alive = true → s.drain.hand = unsent.map fun p => ⟨p.2, .ofRecord p.1⟩
  holds : Ring.Holds s.ring queue
  tally : Tally s sent.length (sent.length + unsent.length)

/-- What is known of a drain makes its account. -/
theorem Drains.account (h : Drains total s) :
    ∃ sent unsent queue, DrainAccount total s sent unsent queue := by
  obtain ⟨queue, hqueue, hholds⟩ := h.conserves
  obtain ⟨events, hle, hevents, haccount⟩ := h.records.ofRecord
  -- The records taken are cut where the events sent end, and the tally says how many are left.
  obtain ⟨sent, unsent, htaken, hsent, hunsent⟩ := List.map_eq_append_iff.mp haccount.symm
  refine ⟨sent, unsent, queue, ?_, hsent.symm, ?_, fun hrunning => ?_, hholds, ?_⟩
  · rw [hqueue, htaken, List.map_append, List.append_assoc]
  · rwa [← hunsent, List.length_map] at hle
  · rw [hunsent]
    refine (hevents.resolve_right fun ⟨hended, _⟩ => ?_).symm
    rw [hended] at hrunning
    cases hrunning
  · have htally := h.tallied
    rwa [Tallied, ← hsent, htaken, List.length_map, List.length_append] at htally

/-- No step sends an event into a source channel without a receiver. -/
theorem sent_step_of_lost (h : s.source.receiving = false) (hs : Step s t moved s') :
    moved.sent = [] := by
  cases hs with
  | submit | fork | clone => exact (offerRecord_moves _ s.ring).2.1
  | sendRecord _ hopen | sendNotification _ hopen | sendAnnouncement _ hopen =>
    exact absurd (hopen.symm.trans h) Bool.true_eq_false.mp
  | _ => rfl

/-- Once the source channel has lost its receiver, no event enters it. -/
theorem sent_of_lost (schedule : List Turn) (h : s.source.receiving = false) :
    (trafficOf schedule s).sent = [] := by
  have hinvariant : (run schedule s).source.receiving = false ∧ (trafficOf schedule s).sent = [] := by
    refine invariant_run (C := fun _ => True)
      (P := fun total s => s.source.receiving = false ∧ total.sent = []) schedule ⟨h, rfl⟩
      (fun _ _ => trivial) ?_
    intro total s t moved s' _ _ hlost hs
    refine ⟨(source_step hs).2 hlost.1, ?_⟩
    rw [Traffic.sent_append, hlost.2, sent_step_of_lost hlost.1 hs, List.append_nil]
  exact hinvariant.2

/-- Two records are submitted and taken, and the event of the first is sent. -/
def untilSecond : List Turn :=
  [.submit [1], .submit [2, 3], .wakeDrain, .takeRecord, .sendRecord, .takeRecord]

/-- A third record is submitted, and the drain goes on. -/
def fromSecond : List Turn :=
  [.submit [4], .sendRecord, .takeRecord, .cancel, .stopDrain]

/-- A monitor with a small ring. -/
def smallMonitor : Session :=
  monitor (.ofMemory Ring.fourWords) 0

/-- With its receiver the same drain sends all three events, and stops with their number. -/
example : (run ([.sendRecord] ++ fromSecond ++ [.sendRecord, .takeRecord, .stopDrain])
    (run untilSecond smallMonitor)).drainEnds = [.ok 3] := by
  decide +kernel

end Session

end NetnsWatch
