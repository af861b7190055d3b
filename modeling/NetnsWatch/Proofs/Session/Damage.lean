import NetnsWatch.Proofs.Ring.Damage
import NetnsWatch.Proofs.Session.Journal
import NetnsWatch.Proofs.Session.Records
import NetnsWatch.Proofs.Session.Round

/-!
# Damage in the ring of a session

While nobody writes into the ring, the drain takes the records that the ring gives one after another,
whatever turns the other tasks take in between. If the ring is damaged behind them, the drain sends
the event of each and then ends with that damage; it never goes back to waiting, so it does not look
at the token before that.
-/

namespace NetnsWatch

/-- Whether a turn may write a record into the ring. -/
def Turn.fillsRing : Turn → Bool
  | .submit _ | .fork _ | .clone => true
  | _ => false

/-- The fault of the drain, if a notice says that it failed. -/
def Notice.drainFault? : Notice → Option Fault
  | .taskFailed task fault => if task = Session.drainTask then some fault else none
  | _ => none

namespace Session

/-- The faults that the drain is logged to have failed with. -/
def drainFaults (s : Session) : List Fault :=
  s.picked Notice.drainFault?

/-- A drain is on its way through a ring that gives these records and is damaged behind them: it has
taken some of them, and the ring still gives the others. It ends only behind all of them, and then
the fault is logged that it has found there. -/
structure OnWay (records : List Bytes) (last : Ring) (fault : Fault) (faults : List Fault)
    (taken : List Bytes) (s : Session) : Prop where
  left : ∃ left, records = taken ++ left ∧ s.ring.Yields left last ∧ (s.drain = .ended → left = [])
  busy : s.drain ≠ .waiting
  faults_eq : s.drainFaults = faults ++ if s.drain = .ended then [fault] else []

variable {records taken : List Bytes} {last : Ring} {fault : Fault} {faults : List Fault}
  {total moved : Traffic} {s s' : Session} {t : Turn}

/-- The end of another task is no failure of the drain. -/
theorem drainFaults_finish (s : Session) {task : String} (ending : Ending) (h : task ≠ drainTask) :
    (s.finish task ending).drainFaults = s.drainFaults :=
  picked_finish s task ending fun _ => if_neg h

/-- The end of the drain is logged with its fault. -/
theorem drainFaults_endDrain (fault : Fault) (s : Session) :
    (endDrain (.failed fault) s).drainFaults = s.drainFaults ++ [fault] := by
  simp [drainFaults, picked, endDrain, finish, Supervisor.finish, Notice.drainFault?]

/-- What leaves the ring, the drain and its failures alone leaves it on its way. -/
theorem OnWay.of_eq (h : OnWay records last fault faults taken s) (hring : s'.ring = s.ring)
    (hdrain : s'.drain = s.drain) (hfaults : s'.drainFaults = s.drainFaults) :
    OnWay records last fault faults taken s' := by
  obtain ⟨hleft, hbusy, heq⟩ := h
  rw [← hring, ← hdrain] at hleft
  rw [← hdrain] at hbusy
  rw [← hfaults, ← hdrain] at heq
  exact ⟨hleft, hbusy, heq⟩

/-- Before its end the drain has not failed. -/
theorem OnWay.faults_of_running (h : OnWay records last fault faults taken s)
    (hrunning : s.drain ≠ .ended) : s.drainFaults = faults := by
  rw [h.faults_eq, if_neg hrunning, List.append_nil]

/-- A drain that neither waits nor has ended is on its way. -/
theorem OnWay.of_running {left : List Bytes} (hleft : records = taken ++ left)
    (hyields : s.ring.Yields left last) (hbusy : s.drain ≠ .waiting) (hrunning : s.drain ≠ .ended)
    (hfaults : s.drainFaults = faults) : OnWay records last fault faults taken s := by
  refine ⟨⟨left, hleft, hyields, fun hended => absurd hended hrunning⟩, hbusy, ?_⟩
  rw [if_neg hrunning, List.append_nil, hfaults]

/-- A step that takes no record and leaves the ring, the drain and its failures alone. -/
theorem OnWay.quiet (h : OnWay records last fault faults (total.taken.map Prod.fst) s)
    (htaken : moved.taken = []) (hring : s'.ring = s.ring) (hdrain : s'.drain = s.drain)
    (hfaults : s'.drainFaults = s.drainFaults) :
    OnWay records last fault faults ((total ++ moved).taken.map Prod.fst) s' := by
  rw [Traffic.taken_append, htaken, List.append_nil]
  exact h.of_eq hring hdrain hfaults

/-- A step leaves the drain on its way if it writes nothing into the ring and the channel is open. -/
theorem OnWay.step (h : OnWay records last fault faults (total.taken.map Prod.fst) s)
    (hspent : last.Spent) (hdamage : last.damage? = some fault) (hdry : t.fillsRing = false)
    (hopen : s.source.receiving = true) (hs : Step s t moved s') :
    OnWay records last fault faults ((total ++ moved).taken.map Prod.fst) s' := by
  obtain ⟨left, hleft, hyields, hended⟩ := h.left
  cases hs with
  | submit | fork | clone => cases hdry
  | wakeDrain hdrain | stopDrain hdrain => exact absurd hdrain h.busy
  | loseRecord _ hclosed | loseNotification _ hclosed | loseAnnouncement _ hclosed =>
    exact absurd (hopen.symm.trans hclosed) Bool.true_eq_false.mp
  | @takeNothing count ring hdrain hnext =>
    -- A ring that gives no record is the last one, and there the reader finds damage.
    obtain ⟨-, hsame⟩ := hyields.of_spent fun _ => by simp [hnext]
    rw [← hsame, Ring.damage?, hnext] at hdamage
    cases hdamage
  | @takeRecord count record ring hdrain hnext =>
    obtain ⟨later, rfl, hlater⟩ := hyields.of_next hspent hnext
    have hfaults := h.faults_of_running (by simp [hdrain])
    refine .of_running ?_ hlater (by simp) (by simp) ?_
    · simp [hleft, Traffic.none]
    · exact (picked_observed s.journal _ fun _ => rfl).trans hfaults
  | @findDamage count found ring hdrain hnext =>
    obtain ⟨rfl, hsame⟩ := hyields.of_spent fun _ => by simp [hnext]
    have hring : ring = s.ring := (congrArg Prod.snd hnext).symm.trans (hsame ▸ hspent).next_snd
    have hfound : found = fault := by
      rw [← hsame, Ring.damage?, hnext] at hdamage
      exact Option.some.inj hdamage
    have hfaults := h.faults_of_running (by simp [hdrain])
    refine ⟨⟨[], ?_, ?_, fun _ => rfl⟩, by simp [endDrain, finish], ?_⟩
    · rw [Traffic.append_none]
      exact hleft
    · rw [hring]
      exact hyields
    · rw [drainFaults_endDrain, hfound]
      exact congrArg (· ++ [fault]) hfaults
  | @sendRecord count event hdrain =>
    have hfaults := h.faults_of_running (by simp [hdrain])
    refine .of_running ?_ hyields (by simp) (by simp) hfaults
    simp [hleft, Traffic.none]
  | beginShutdown => exact h.quiet rfl rfl rfl (picked_beginShutdown s rfl)
  | joinNext => exact h.quiet rfl rfl rfl (picked_joinNext s rfl)
  | receiveFault | stopListen => exact h.quiet rfl rfl rfl (drainFaults_finish _ _ (by decide))
  | receiveNothing => exact h.quiet rfl rfl rfl (picked_note s rfl)
  | takeEntry => exact h.quiet rfl rfl rfl (picked_note _ rfl)
  | loseEntry | stopCorrelate => exact h.quiet rfl rfl rfl (drainFaults_finish _ _ (by decide))
  | sourceClosed =>
    exact h.quiet rfl rfl rfl ((drainFaults_finish _ _ (by decide)).trans (picked_note s rfl))
  | entriesClosed =>
    refine h.quiet rfl rfl rfl ((drainFaults_finish _ _ (by decide)).trans ?_)
    exact (picked_note _ rfl).trans (picked_note s rfl)
  | stopReport =>
    exact h.quiet rfl rfl rfl ((drainFaults_finish _ _ (by decide)).trans (picked_note s rfl))
  | _ => exact h.quiet rfl rfl rfl rfl

/-- The drain does not send in vain while its channel is open. -/
theorem not_vain_of_receiving (hopen : s.source.receiving = true) (hs : Step s t moved s')
    (other : Fault) : (drainTask, other) ∉ moved.vain := by
  cases hs with
  | submit | fork | clone => simp [(offerRecord_moves _ s.ring).2.2.2]
  | loseRecord _ hclosed | loseNotification _ hclosed | loseAnnouncement _ hclosed =>
    exact absurd (hopen.symm.trans hclosed) Bool.true_eq_false.mp
  | loseEntry => simp [drainTask, correlateTask]
  | _ => exact List.not_mem_nil

/-- A drain is on its way, and the events of the records that it has taken are those that it has sent
and the one in hand. -/
structure Forwarding (records : List Bytes) (last : Ring) (fault : Fault) (faults : List Fault)
    (total : Traffic) (s : Session) : Prop where
  own : s.OwnKind
  sent : RecordsSent total s.drain
  not_vain : ∀ other, (drainTask, other) ∉ total.vain
  way : OnWay records last fault faults (total.taken.map Prod.fst) s

/-- A drain that wakes up is on its way. -/
theorem forwarding_wakeDrain (hyields : s.ring.Yields records last) (hdrain : s.drain = .waiting)
    (hown : s.OwnKind) : Forwarding records last fault s.drainFaults .none s.wakeDrain := by
  have hwoken : s.wakeDrain = { s with drain := .draining 0 } := by
    simp only [wakeDrain, hdrain]
  rw [hwoken]
  exact ⟨⟨fun _ hevent => absurd hevent List.not_mem_nil, hown.listen, hown.burst⟩, .of_account rfl,
    fun _ => List.not_mem_nil, .of_running rfl hyields (by simp) (by simp) rfl⟩

/-- Every schedule leaves the drain on its way if nobody writes into the ring and its channel is
open. -/
theorem Forwarding.run (h : Forwarding records last fault faults .none s) (hspent : last.Spent)
    (hdamage : last.damage? = some fault) {schedule : List Turn}
    (hdry : ∀ t ∈ schedule, t.fillsRing = false)
    (hopen : ∀ i, i < schedule.length → (run (schedule.take i) s).source.receiving = true) :
    Forwarding records last fault faults (trafficOf schedule s) (Session.run schedule s) := by
  refine invariant_run (C := fun s => s.source.receiving = true) schedule h hopen ?_
  intro total s t moved s' hmem hopen h hs
  refine ⟨h.own.step hs, h.sent.step h.own hs, fun other hvain => ?_,
    h.way.step hspent hdamage (hdry t hmem) hopen hs⟩
  rcases List.mem_append.mp hvain with hbefore | hnow
  · exact h.not_vain other hbefore
  · exact not_vain_of_receiving hopen hs other hnow

/-- What a schedule makes of a drain that wakes up at a ring with these records in front of damage at
this position: it takes the records in order. Until it ends it has not failed; when it has ended, it
has sent the events of all of them and no others, it has failed with this fault and no other, and the
consumer is at the damage. -/
structure Passes (records : List Bytes) (position : UInt64) (fault : Fault) (schedule : List Turn)
    (s : Session) : Prop where
  taken_isPrefix : (trafficOf schedule s.wakeDrain).taken.map Prod.fst <+: records
  running : (run schedule s.wakeDrain).drain ≠ .ended →
    (run schedule s.wakeDrain).drainFaults = s.drainFaults
  ended : (run schedule s.wakeDrain).drain = .ended →
    (trafficOf schedule s.wakeDrain).taken.map Prod.fst = records ∧
      (trafficOf schedule s.wakeDrain).sent.filter SourceEvent.ringBorn =
        (trafficOf schedule s.wakeDrain).taken.map (fun p => observe p.1 p.2) ∧
      (run schedule s.wakeDrain).drainFaults = s.drainFaults ++ [fault] ∧
      (run schedule s.wakeDrain).ring.consumer = position

/-- A drain that is on its way and has ended has gone all the way. -/
theorem Forwarding.passes {schedule : List Turn}
    (h : Forwarding records last fault s.drainFaults (trafficOf schedule s.wakeDrain)
      (Session.run schedule s.wakeDrain)) : s.Passes records last.consumer fault schedule := by
  obtain ⟨left, hleft, hyields, hnothing⟩ := h.way.left
  refine ⟨⟨left, hleft.symm⟩, h.way.faults_of_running, fun hended => ?_⟩
  obtain rfl := hnothing hended
  obtain ⟨refused, -, hrefused, haccount⟩ := h.sent
  have hnone : refused = [] := by
    by_contra hsome
    obtain ⟨-, other, hvain⟩ := hrefused hsome
    exact h.not_vain other hvain
  have hfaults := h.way.faults_eq
  rw [if_pos hended] at hfaults
  rw [hnone, hended] at haccount
  refine ⟨by rw [hleft, List.append_nil], ?_, hfaults, ?_⟩
  · rw [← haccount]
    exact (List.append_nil _).symm
  · cases hyields
    rfl

/-- What becomes of a waiting drain in a session whose ring has these records in front of damage: in
one round it sends their events and ends with the damage, and other tasks that take turns on the way
change nothing about that. -/
structure EndsWith (records : List Bytes) (position : UInt64) (fault : Fault) (s : Session) :
    Prop where
  once : ∃ last : Ring, last.consumer = position ∧
    s.drainOnce = endDrain (.failed fault) (s.forward records last 0)
  always : ∀ schedule : List Turn, (∀ t ∈ schedule, t.fillsRing = false) →
    (∀ i, i < schedule.length →
      (run (schedule.take i) s.wakeDrain).source.receiving = true) →
    s.Passes records position fault schedule

/-- A waiting drain ends with the damage behind the records that its ring gives. -/
theorem endsWith_of_yields (hyields : s.ring.Yields records last) (hspent : last.Spent)
    (hdamage : last.damage? = some fault) (hle : s.ring.consumer ≤ s.ring.producer)
    (hhalf : s.ring.producer.toNat < Ring.half) (hdrain : s.drain = .waiting)
    (hopen : s.source.receiving = true) (hown : s.OwnKind) :
    s.EndsWith records last.consumer fault := by
  refine ⟨⟨last, rfl, ?_⟩, fun schedule hdry hreceiving => ?_⟩
  · have hfound : (s.forward records last 0).ring.damage? = some fault := hdamage
    rw [drainOnce_eq hyields hspent hle hhalf hdrain hopen, endRound, hfound]
  · have hwoken : Forwarding records last fault s.drainFaults .none s.wakeDrain :=
      forwarding_wakeDrain hyields hdrain hown
    exact (hwoken.run hspent hdamage hdry hreceiving).passes

/-- What a stray word does that is stored, through this position, over the header at `start` behind
some records. As damage it is found there and nowhere else, by reads, by drains and by the drain of a
session; as a zero it ends a drain without a fault. -/
structure FoundBehind (older : List Bytes) (start position word : UInt64) (r : Ring) : Prop where
  damaged : ∀ reason, Ring.Damages start r.producer word reason →
    (r.overwrite position word).StopsBehind older start (some (.desync start reason)) ∧
      ∀ s : Session, s.ring = r.overwrite position word → s.drain = .waiting →
        s.source.receiving = true → s.OwnKind → s.EndsWith older start (.desync start reason)
  cleared : word = 0 → (r.overwrite position word).StopsBehind older start none

/-- Whatever word a faulty writer stores over the header of whichever queued record, in a ring that
was used from its two ends alone: if it is damage, it is found behind the records in front of it. -/
theorem struck_header_found {capacity : UInt64} {fresh : Ring}
    (hcreate : Ring.create capacity = .ok fresh) {earlier : List Ring.Call}
    (hbelow : Ring.StaysBelow earlier fresh) {older : List Bytes} {record : Bytes}
    {position : UInt64} (hheader : Ring.FrameWord (Ring.calls earlier fresh).2
      (Ring.queued capacity earlier) position older record 0) (word : UInt64) :
    FoundBehind older (Ring.behind (Ring.calls earlier fresh).2.consumer older) position word
      (Ring.calls earlier fresh).2 := by
  obtain ⟨hholds, hhalf⟩ := Ring.holds_calls hcreate hbelow
  obtain ⟨last, words, hyields, hspans, hproducer, hconsumer⟩ := hheader.yields hholds word
  have hle : (Ring.calls earlier fresh).2.consumer ≤ (Ring.calls earlier fresh).2.producer := by
    rw [UInt64.le_iff_toNat_le, hholds.producer_eq]
    exact Nat.le_add_right _ _
  rw [← hconsumer]
  refine ⟨fun reason hdamages => ?_, ?_⟩
  · rw [← hproducer] at hdamages hhalf
    obtain ⟨hspent, hdamage⟩ := hdamages.spent hspans hhalf
    refine ⟨hdamage ▸ hyields.stopsBehind hspent, fun s hring hdrain hopen hown => ?_⟩
    rw [hproducer] at hhalf
    rw [← hring] at hyields
    refine endsWith_of_yields hyields hspent hdamage ?_ ?_ hdrain hopen hown
    · rw [hring]
      exact hle
    · rw [hring]
      exact hhalf
  · rintro rfl
    obtain ⟨hspent, hnone⟩ := hspans.spent_zero
    exact hnone ▸ hyields.stopsBehind hspent

/-- A ring that was used until two records are in it. -/
def twoQueued : Ring :=
  (Ring.calls [.submit [1], .submit [2]] (.ofMemory Ring.fourWords)).2

/-- With a word over the header of the second record the first is forwarded, and the drain of a
monitor ends at that header. -/
theorem struck_second_found :
    FoundBehind [[1]] 16 16 0xDEADBEEF twoQueued ∧
      (twoQueued.overwrite 16 0xDEADBEEF).StopsBehind [[1]] 16
        (some (.desync 16 Ring.notCommitted)) ∧
      (monitor (twoQueued.overwrite 16 0xDEADBEEF) 0).EndsWith [[1]] 16
        (.desync 16 Ring.notCommitted) := by
  have hcreate : Ring.create 32 = .ok (.ofMemory Ring.fourWords) := rfl
  have hqueued : Ring.queued 32 [.submit [1], .submit [2]] = [[1], [2]] := by decide +kernel
  have hheader : Ring.FrameWord twoQueued (Ring.queued 32 [.submit [1], .submit [2]]) 16 [[1]] [2]
      0 := by
    refine ⟨?_, by decide, by decide +kernel⟩
    rw [hqueued]
    exact List.prefix_refl _
  have hstart : Ring.behind twoQueued.consumer [[1]] = 16 := by decide +kernel
  have hfound : FoundBehind [[1]] (Ring.behind twoQueued.consumer [[1]]) 16 0xDEADBEEF twoQueued :=
    struck_header_found hcreate (by decide +kernel) hheader 0xDEADBEEF
  rw [hstart] at hfound
  have hdamages : Ring.Damages 16 twoQueued.producer 0xDEADBEEF Ring.notCommitted :=
    .uncommitted (by decide) (by decide)
  obtain ⟨hstops, hsessions⟩ := hfound.damaged _ hdamages
  refine ⟨hfound, hstops, hsessions (monitor _ 0) rfl rfl rfl ?_⟩
  constructor <;> exact fun _ hevent => absurd hevent List.not_mem_nil

end Session

end NetnsWatch
