import NetnsWatch.Proofs.Session.Ledger

/-!
# Whole batches, in order

The listener looks at the token, and takes what the socket has for it, only between two batches. So
however datagrams, timeouts, faults and the cancellation come together, it has sent the notifications
of the batches that it has received, in order, all those of one batch with one stamp and none left out.
A poll that times out is no turn of the listener, which goes on waiting. A fault ends it behind all
batches that came before.
-/

namespace NetnsWatch

/-- What a notice says about the listener: that a batch of this number was empty, or that the listener
has failed. -/
def Notice.ofListener? : Notice → Option (Except Fault (Option NsId))
  | .emptyBatch nsid => some (.ok nsid)
  | .taskFailed task fault => if task = Session.listenTask then some (.error fault) else none
  | _ => none

namespace Session

/-- What is logged about the listener. -/
def listenLog (s : Session) : List (Except Fault (Option NsId)) :=
  s.picked Notice.ofListener?

/-- What the listener receives in a turn, with the time. -/
def hears (s : Session) : Turn → List (Instant × Except Fault NsidBatch)
  | .receive outcome =>
    match s.listen with
    | .waiting => [(s.now, outcome)]
    | .sending _ | .ended => []
  | _ => []

/-- What the listener receives under a schedule, in order. -/
def heard : List Turn → Session → List (Instant × Except Fault NsidBatch)
  | [], _ => []
  | t :: schedule, s => s.hears t ++ heard schedule (s.turn t)

/-- A batch as it was received. -/
def received (p : Instant × NsidBatch) : Instant × Except Fault NsidBatch :=
  (p.1, .ok p.2)

/-- The events of a batch, which all have the stamp of the batch. -/
def stamped (p : Instant × NsidBatch) : List SourceEvent :=
  p.2.notifications.map fun n => ⟨p.1, .nsid n⟩

/-- What is logged about a batch, if it is empty. -/
def emptied (p : Instant × NsidBatch) : List (Except Fault (Option NsId)) :=
  if p.2.notifications = [] then [.ok p.2.nsid] else []

/-- Where the listener stands when it has received these outcomes, with these batches among them, and
these events of notifications were sent. -/
inductive Listens (s : Session) (outcomes : List (Instant × Except Fault NsidBatch))
    (sent : List SourceEvent) (batches : List (Instant × NsidBatch)) : Prop
  /-- It has sent all batches. -/
  | waiting (hphase : s.listen = .waiting) (houtcomes : outcomes = batches.map received)
      (hsent : sent = batches.flatMap stamped) (hlog : s.listenLog = batches.flatMap emptied)
  /-- It has some events of the last batch in hand, and has sent the others and all earlier batches. -/
  | sending {earlier : List (Instant × NsidBatch)} {last : Instant × NsidBatch}
      {left : List SourceEvent} (hphase : s.listen = .sending left)
      (houtcomes : outcomes = batches.map received) (hbatches : batches = earlier ++ [last])
      (hleft : left ≠ []) (hlast : left <:+ stamped last)
      (hsent : sent ++ left = batches.flatMap stamped) (hlog : s.listenLog = batches.flatMap emptied)
  /-- It was stopped, and has sent all batches. -/
  | stopped (hphase : s.listen = .ended) (hcancelled : s.cancelled = true)
      (houtcomes : outcomes = batches.map received) (hsent : sent = batches.flatMap stamped)
      (hlog : s.listenLog = batches.flatMap emptied)
  /-- It has ended with a fault that it has received behind the batches, and has sent them all. -/
  | failed {time : Instant} {fault : Fault} (hphase : s.listen = .ended)
      (houtcomes : outcomes = batches.map received ++ [(time, .error fault)])
      (hsent : sent = batches.flatMap stamped)
      (hlog : s.listenLog = batches.flatMap emptied ++ [.error fault])
  /-- It has ended in the last batch, as the source channel has lost its receiver. -/
  | refused {earlier : List (Instant × NsidBatch)} {last : Instant × NsidBatch}
      {lost : List SourceEvent} (hphase : s.listen = .ended) (hclosed : s.source.receiving = false)
      (houtcomes : outcomes = batches.map received) (hbatches : batches = earlier ++ [last])
      (hlost : lost ≠ []) (hlast : lost <:+ stamped last)
      (hsent : sent ++ lost = batches.flatMap stamped)
      (hlog : s.listenLog = batches.flatMap emptied ++ [.error (closed s.source)])

variable {total moved : Traffic} {s s' : Session} {t : Turn} {sent : List SourceEvent}
  {outcomes : List (Instant × Except Fault NsidBatch)} {batches : List (Instant × NsidBatch)}

/-- A cancelled token stays cancelled. -/
theorem cancelled_step (h : s.cancelled = true) (hs : Step s t moved s') : s'.cancelled = true := by
  cases hs with
  | cancel => rfl
  | beginShutdown =>
    change s.supervisor.beginShutdown.1.cancelled = true
    unfold Supervisor.beginShutdown
    split
    · rfl
    all_goals exact h
  | joinNext => exact (cancelled_joinNext s.supervisor).trans h
  | findDamage | loseRecord | receiveFault | loseNotification | loseEntry | loseAnnouncement => rfl
  | clone =>
    rw [noteBurst_eq]
    exact h
  | _ => exact h

/-- What leaves the listener and its log alone leaves what it has sent. -/
theorem Listens.of_step (h : Listens s outcomes sent batches) (hs : Step s t moved s')
    (hlisten : s'.listen = s.listen) (hlog : s'.listenLog = s.listenLog) :
    Listens s' outcomes sent batches := by
  obtain ⟨hname, hlost⟩ := source_step hs
  cases h with
  | waiting hphase houtcomes hsent hbefore =>
    exact .waiting (hlisten.trans hphase) houtcomes hsent (hlog.trans hbefore)
  | sending hphase houtcomes hbatches hleft hlast hsent hbefore =>
    exact .sending (hlisten.trans hphase) houtcomes hbatches hleft hlast hsent (hlog.trans hbefore)
  | stopped hphase hcancelled houtcomes hsent hbefore =>
    exact .stopped (hlisten.trans hphase) (cancelled_step hcancelled hs) houtcomes hsent
      (hlog.trans hbefore)
  | failed hphase houtcomes hsent hbefore =>
    exact .failed (hlisten.trans hphase) houtcomes hsent (hlog.trans hbefore)
  | refused hphase hclosed houtcomes hbatches hleft hlast hsent hbefore =>
    refine .refused (hlisten.trans hphase) (hlost hclosed) houtcomes hbatches hleft hlast hsent ?_
    rw [hlog, hbefore, hname]

/-- A turn of another task logs nothing about the listener. -/
theorem listenLog_step (hs : Step s t moved s') (hother : t.task ≠ some listenTask) :
    s'.listenLog = s.listenLog := by
  refine picked_step_of_other (fun notice hnotice => ?_) hs hother
  cases notice with
  | emptyBatch => exact absurd rfl hnotice
  | taskFailed => exact if_neg fun hsame => hnotice (congrArg some hsame)
  | _ => rfl

/-- The end of the listener is logged with its fault. -/
theorem listenLog_endListen (fault : Fault) (s : Session) :
    (endListen (.failed fault) s).listenLog = s.listenLog ++ [.error fault] := by
  simp [listenLog, picked, endListen, finish, Supervisor.finish, Notice.ofListener?]

/-- Traffic in which no notification's event is sent leaves those that were sent. -/
theorem announced_append_of_nil (h : moved.sent.filter (fun event => !event.ringBorn) = []) :
    announced (total ++ moved) = announced total := by
  rw [announced, Traffic.sent_append, List.filter_append, h, List.append_nil, announced]

/-- What is known of the listener of a session without a self test. -/
structure Follows (outcomes : List (Instant × Except Fault NsidBatch)) (total : Traffic)
    (s : Session) : Prop where
  own : s.OwnKind
  burst : s.burst = .ended
  listens : ∃ batches, Listens s outcomes (announced total) batches
  sorted : outcomes.Pairwise fun p q => p.1 ≤ q.1
  le_now : ∀ p ∈ outcomes, p.1 ≤ s.now

/-- A listener that waits has sent all batches, and its log tells of the empty ones. -/
theorem Listens.of_waiting (h : Listens s outcomes sent batches) (hlisten : s.listen = .waiting) :
    outcomes = batches.map received ∧ sent = batches.flatMap stamped ∧
      s.listenLog = batches.flatMap emptied := by
  cases h with
  | waiting _ houtcomes hsent hlog => exact ⟨houtcomes, hsent, hlog⟩
  | sending hphase | stopped hphase | failed hphase | refused hphase =>
    rw [hlisten] at hphase
    cases hphase

/-- A listener with events in hand is in the middle of the last batch. -/
theorem Listens.of_sending {left : List SourceEvent} (h : Listens s outcomes sent batches)
    (hlisten : s.listen = .sending left) : ∃ earlier last, outcomes = batches.map received ∧
      batches = earlier ++ [last] ∧ left ≠ [] ∧ left <:+ stamped last ∧
      sent ++ left = batches.flatMap stamped ∧ s.listenLog = batches.flatMap emptied := by
  cases h with
  | @sending earlier last _ hphase houtcomes hbatches hleft hlast hsent hlog =>
    rw [hlisten, ListenPhase.sending.injEq] at hphase
    subst hphase
    exact ⟨earlier, last, houtcomes, hbatches, hleft, hlast, hsent, hlog⟩
  | waiting hphase | stopped hphase | failed hphase | refused hphase =>
    rw [hlisten] at hphase
    cases hphase

/-- The next event of a batch is sent, and the listener waits again behind the last one. -/
theorem Listens.send {event : SourceEvent} {later : List SourceEvent}
    (h : Listens s outcomes sent batches) (hlisten : s.listen = .sending (event :: later)) :
    Listens { s.deliver event with listen := if later.isEmpty then .waiting else .sending later }
      outcomes (sent ++ [event]) batches := by
  obtain ⟨earlier, last, houtcomes, hbatches, -, hlast, hsent, hlog⟩ := h.of_sending hlisten
  cases later with
  | nil => exact .waiting rfl houtcomes hsent hlog
  | cons next later =>
    have hsuffix : next :: later <:+ stamped last := (List.suffix_cons event _).trans hlast
    refine .sending rfl houtcomes hbatches (List.cons_ne_nil _ _) hsuffix ?_ hlog
    rw [List.append_assoc]
    exact hsent

/-- A closed channel ends the listener in the middle of a batch. -/
theorem Listens.refuse {left : List SourceEvent} (h : Listens s outcomes sent batches)
    (hlisten : s.listen = .sending left) (hclosed : s.source.receiving = false) :
    Listens (endListen (.failed (closed s.source)) s) outcomes sent batches := by
  obtain ⟨earlier, last, houtcomes, hbatches, hleft, hlast, hsent, hlog⟩ := h.of_sending hlisten
  refine .refused rfl hclosed houtcomes hbatches hleft hlast hsent ?_
  rw [listenLog_endListen, hlog]
  rfl

/-- A cancelled token ends the listener behind all batches. -/
theorem Listens.stop (h : Listens s outcomes sent batches) (hlisten : s.listen = .waiting)
    (hcancelled : s.cancelled = true) : Listens (endListen .finished s) outcomes sent batches := by
  obtain ⟨houtcomes, hsent, hlog⟩ := h.of_waiting hlisten
  have hsilent : (endListen .finished s).listenLog = s.listenLog :=
    congrArg (List.filterMap _) (List.append_nil s.journal)
  exact .stopped rfl hcancelled houtcomes hsent (hsilent.trans hlog)

/-- A fault that is received ends the listener behind all batches. -/
theorem Listens.fail (h : Listens s outcomes sent batches) (hlisten : s.listen = .waiting)
    (fault : Fault) :
    Listens (endListen (.failed fault) s) (outcomes ++ [(s.now, .error fault)]) sent batches := by
  obtain ⟨houtcomes, hsent, hlog⟩ := h.of_waiting hlisten
  refine .failed rfl (congrArg (· ++ _) houtcomes) hsent ?_
  rw [listenLog_endListen, hlog]

/-- An empty batch is logged, and nothing of it is sent. -/
theorem Listens.skip {batch : NsidBatch} (h : Listens s outcomes sent batches)
    (hlisten : s.listen = .waiting) (hempty : batch.notifications = []) :
    Listens (s.note (.emptyBatch batch.nsid)) (outcomes ++ [(s.now, .ok batch)]) sent
      (batches ++ [(s.now, batch)]) := by
  obtain ⟨houtcomes, hsent, hlog⟩ := h.of_waiting hlisten
  refine .waiting hlisten ?_ ?_ ?_
  · rw [houtcomes, List.map_append]
    rfl
  · rw [hsent, List.flatMap_append, List.flatMap_singleton, stamped, hempty, List.map_nil,
      List.append_nil]
  · rw [listenLog, picked_note_some s (rfl : Notice.ofListener? _ = some (.ok batch.nsid)),
      ← listenLog, hlog, List.flatMap_append, List.flatMap_singleton, emptied, if_pos hempty]

/-- The listener takes all events of a batch in hand, with one stamp. -/
theorem Listens.receive {batch : NsidBatch} (h : Listens s outcomes sent batches)
    (hlisten : s.listen = .waiting) (hbatch : batch.notifications ≠ []) :
    Listens { s with listen := .sending (stamped (s.now, batch)) }
      (outcomes ++ [(s.now, .ok batch)]) sent (batches ++ [(s.now, batch)]) := by
  obtain ⟨houtcomes, hsent, hlog⟩ := h.of_waiting hlisten
  refine .sending rfl ?_ rfl ?_ List.suffix_rfl ?_ ?_
  · rw [houtcomes, List.map_append]
    rfl
  · rwa [stamped, ne_eq, List.map_eq_nil_iff]
  · rw [hsent, List.flatMap_append, List.flatMap_singleton]
  · rw [List.flatMap_append, List.flatMap_singleton, emptied, if_neg hbatch, List.append_nil]
    exact hlog

/-- A step in which the listener receives nothing leaves it where it stands, or it goes on in its
batch, or it stops behind all of them. -/
theorem Follows.listens_step (h : Follows outcomes total s)
    (hsilent : ∀ outcome, t ≠ .receive outcome) (hs : Step s t moved s') :
    ∃ batches, Listens s' outcomes (announced (total ++ moved)) batches := by
  obtain ⟨batches, hlistens⟩ := h.listens
  refine ⟨batches, ?_⟩
  have hquiet (hsent : moved.sent.filter (fun event => !event.ringBorn) = [])
      (hlisten : s'.listen = s.listen) (hlog : s'.listenLog = s.listenLog) :
      Listens s' outcomes (announced (total ++ moved)) batches := by
    rw [announced_append_of_nil hsent]
    exact hlistens.of_step hs hlisten hlog
  have hlog := listenLog_step hs
  cases hs with
  | receiveFault | receiveNothing | receive => exact absurd rfl (hsilent _)
  | fork hphase | announce hphase | sendAnnouncement hphase | loseAnnouncement hphase
  | clone hphase =>
    rw [h.burst] at hphase
    cases hphase
  | submit =>
    refine hquiet ?_ rfl rfl
    rw [(offerRecord_moves _ s.ring).2.1]
    rfl
  | @sendRecord count event hdrain =>
    have hborn : event.ringBorn = true := h.own.of_drain hdrain
    exact hquiet (by simp [hborn]) rfl rfl
  | sendNothing hlisten =>
    obtain ⟨-, -, -, -, hleft, -⟩ := hlistens.of_sending hlisten
    exact absurd rfl hleft
  | @sendNotification event later hlisten =>
    have hkept : event.ringBorn = false := h.own.of_listen hlisten
    have hsent : announced (total ++ { Traffic.none with sent := [event] }) =
        announced total ++ [event] := by
      simp [announced, hkept]
    rw [hsent]
    exact hlistens.send hlisten
  | loseNotification hlisten hclosed =>
    rw [announced_append_of_nil rfl]
    exact hlistens.refuse hlisten hclosed
  | stopListen hlisten hcancelled =>
    rw [Traffic.append_none]
    exact hlistens.stop hlisten hcancelled
  | rest => exact hquiet rfl rfl rfl
  | _ => exact hquiet rfl rfl (hlog (by simp only [Turn.task]; decide))

/-- While a batch is received, nothing is sent. -/
theorem sent_of_receive {outcome : Except Fault NsidBatch} (hs : Step s (.receive outcome) moved s') :
    moved.sent = [] := by
  cases hs <;> rfl

/-- A turn of the socket leaves the listener where its outcome puts it. -/
theorem Follows.listens_receive (h : Follows outcomes total s) (outcome : Except Fault NsidBatch) :
    ∃ batches, Listens (s.receive outcome) (outcomes ++ s.hears (.receive outcome))
      (announced (total ++ s.traffic (.receive outcome))) batches := by
  obtain ⟨batches, hlistens⟩ := h.listens
  have hsent := sent_of_receive (s.step_receive outcome)
  rw [announced_append_of_nil (by rw [hsent]; rfl)]
  unfold Session.receive hears
  cases hlisten : s.listen with
  | waiting =>
    cases outcome with
    | error fault => exact ⟨batches, hlistens.fail hlisten fault⟩
    | ok batch =>
      by_cases hempty : batch.notifications = []
      · have hskip := hlistens.skip hlisten hempty
        simp only [hempty, List.isEmpty_nil, if_true]
        exact ⟨_, hskip⟩
      · have hreceive := hlistens.receive hlisten hempty
        simp only [List.isEmpty_iff, if_neg hempty]
        exact ⟨_, hreceive⟩
  | sending left =>
    rw [List.append_nil]
    exact ⟨batches, hlistens⟩
  | ended =>
    rw [List.append_nil]
    exact ⟨batches, hlistens⟩

/-- What is received in a turn is received now, and only from the socket. -/
theorem hears_cases (s : Session) (t : Turn) :
    s.hears t = [] ∨ ∃ outcome, t = .receive outcome ∧ s.hears t = [(s.now, outcome)] := by
  unfold hears
  split
  · rename_i outcome
    split
    · exact Or.inr ⟨outcome, rfl, rfl⟩
    · exact Or.inl rfl
    · exact Or.inl rfl
  · exact Or.inl rfl

/-- Every turn keeps what is known of the listener. -/
theorem Follows.turn (h : Follows outcomes total s) (t : Turn) :
    Follows (outcomes ++ s.hears t) (total ++ s.traffic t) (s.turn t) := by
  have hs := step_turn s t
  have hnow := now_le_step hs
  have hhears : ∀ p ∈ s.hears t, p.1 = s.now := by
    rcases hears_cases s t with hnone | ⟨outcome, -, hone⟩
    · rw [hnone]
      exact fun p hp => absurd hp List.not_mem_nil
    · rw [hone]
      exact fun p hp => congrArg Prod.fst (List.mem_singleton.mp hp)
  refine ⟨h.own.step hs, burst_ended_step h.burst hs, ?_, ?_, ?_⟩
  · -- A step may also rest, so what is received can be read off the turn only, not off its step.
    by_cases hreceive : ∃ outcome, t = .receive outcome
    · obtain ⟨outcome, rfl⟩ := hreceive
      exact h.listens_receive outcome
    · have hsilent : ∀ outcome, t ≠ .receive outcome := fun outcome ht => hreceive ⟨outcome, ht⟩
      have hnone : s.hears t = [] := (hears_cases s t).resolve_right
        fun ⟨outcome, ht, _⟩ => hsilent outcome ht
      rw [hnone, List.append_nil]
      exact h.listens_step hsilent hs
  · refine List.pairwise_append.mpr ⟨h.sorted, ?_, fun p hp q hq => ?_⟩
    · rcases hears_cases s t with hnone | ⟨outcome, -, hone⟩
      · rw [hnone]
        exact List.Pairwise.nil
      · rw [hone]
        exact List.pairwise_singleton _ _
    · rw [hhears q hq]
      exact h.le_now p hp
  · intro p hp
    rcases List.mem_append.mp hp with hbefore | hlast
    · exact Nat.le_trans (h.le_now p hbefore) hnow
    · rw [hhears p hlast]
      exact hnow

/-- What is known of the listener stays known under every schedule. -/
theorem Follows.run (h : Follows outcomes total s) (schedule : List Turn) :
    Follows (outcomes ++ heard schedule s) (total ++ trafficOf schedule s) (run schedule s) := by
  induction schedule generalizing outcomes total s with
  | nil =>
    rw [heard, List.append_nil, trafficOf, Traffic.append_none]
    exact h
  | cons t schedule ih =>
    rw [heard, ← List.append_assoc, trafficOf, ← Traffic.append_assoc]
    exact ih (h.turn t)

/-- A listener that has not received anything yet, in a session without a self test. -/
structure Unheard (s : Session) : Prop where
  listen : s.listen = .waiting
  burst : s.burst = .ended
  own : s.OwnKind
  log : s.listenLog = []

/-- The monitor and the pipeline begin with a listener that has not received anything yet. -/
theorem unheard_of_create (ring : Ring) (window : Duration) :
    (monitor ring window).Unheard ∧ (pipeline ring window).Unheard := by
  have hnothing {kind : Bool} : ∀ event ∈ ([] : List SourceEvent), event.ringBorn = kind :=
    fun _ hevent => absurd hevent List.not_mem_nil
  exact ⟨⟨rfl, rfl, ⟨hnothing, hnothing, hnothing⟩, rfl⟩,
    ⟨rfl, rfl, ⟨hnothing, hnothing, hnothing⟩, rfl⟩⟩

/-- Nothing was received and nothing sent at first. -/
theorem Unheard.follows (h : s.Unheard) : Follows [] .none s where
  own := h.own
  burst := h.burst
  listens := ⟨[], .waiting h.listen rfl rfl h.log⟩
  sorted := .nil
  le_now := fun _ hp => absurd hp List.not_mem_nil

/-- While its channel is open, the listener comes to the end of its batch by sends alone. -/
theorem listen_replicate_send {left : List SourceEvent} (hlisten : s.listen = .sending left)
    (hleft : left ≠ []) (hopen : s.source.receiving = true) :
    (run (List.replicate left.length .sendNotification) s).listen = .waiting := by
  induction left generalizing s with
  | nil => exact absurd rfl hleft
  | cons event later ih =>
    have hsend : s.turn .sendNotification =
        { s.deliver event with listen := if later.isEmpty then .waiting else .sending later } := by
      simp only [Session.turn, sendNotification, hlisten, Channel.send_of_receiving hopen]
      rfl
    have hrun : run (List.replicate (event :: later).length .sendNotification) s =
        run (List.replicate later.length .sendNotification) (s.turn .sendNotification) := rfl
    rw [hrun, hsend]
    cases later with
    | nil => rfl
    | cons next later => exact ih rfl (List.cons_ne_nil next later) hopen

/-- A notification that a number was assigned, and one that it was removed again. -/
def assignedAndRemoved : List NsidNotification :=
  [⟨.assigned, some 2, some 2⟩, ⟨.removed, some 2, none⟩]

/-- A batch of two notifications, whose events are sent later than it is received, then an empty batch
and a fault. -/
def untilFault : List Turn :=
  [.advance 7, .receive (.ok ⟨some 2, assignedAndRemoved⟩), .advance 1, .sendNotification, .cancel,
    .stopListen, .advance 1, .sendNotification, .receive (.ok ⟨some 3, []⟩),
    .receive (.error (.custom "socket gone")), .receive (.ok ⟨some 2, assignedAndRemoved⟩)]

end Session

end NetnsWatch
