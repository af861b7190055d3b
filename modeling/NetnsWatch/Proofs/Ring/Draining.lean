import NetnsWatch.Proofs.Ring.Passage
import NetnsWatch.Ring.Drain

/-!
# Reading a ring until it gives no record

Whatever words a ring holds, reading it gives some records one after another and then no more: it
finds nothing, or damage, and then finds the same for as long as nobody else touches the ring. A
drain into a sink that never fails hands over exactly these records. Each of them takes two words at
least, so the distance of the positions bounds their number.
-/

namespace NetnsWatch.Ring

/-- Reading the first ring gives these records, one after another, and leaves the second. -/
inductive Yields : Ring → List Bytes → Ring → Prop
  | nothing (r : Ring) : Yields r [] r
  | record {r rest last : Ring} {record : Bytes} {records : List Bytes} :
      r.next = (.ok (some record), rest) → Yields rest records last →
        Yields r (record :: records) last

/-- The reader gets no record. -/
def Spent (r : Ring) : Prop :=
  ∀ record, r.next.1 ≠ .ok (some record)

/-- The damage that the reader finds, if it does. -/
def damage? (r : Ring) : Option Fault :=
  match r.next.1 with
  | .ok _ => none
  | .error fault => some fault

section Reading

variable {r last : Ring} {records : List Bytes}

/-- A reader that gets no record changes nothing. -/
theorem Spent.next_snd (h : r.Spent) : r.next.2 = r := by
  unfold Spent next at *
  split at *
  · rfl
  · rfl
  · exact absurd rfl (h _)

/-- A reader that gets no record finds nothing, or damage. -/
theorem Spent.next_fst (h : r.Spent) : r.next.1 = .ok none ∧ r.damage? = none ∨
    ∃ fault, r.next.1 = .error fault ∧ r.damage? = some fault := by
  unfold damage?
  cases hnext : r.next.1 with
  | error fault => exact Or.inr ⟨fault, rfl, rfl⟩
  | ok result =>
    cases result with
    | none => exact Or.inl ⟨rfl, rfl⟩
    | some record => exact absurd hnext (h record)

/-- The reader finds nothing exactly when nothing is committed. -/
theorem next_eq_none_iff (r : Ring) : r.next.1 = .ok none ↔ r.hasCommitted = false := by
  rw [← r.head_eq_none_iff, next]
  cases r.head <;> simp

/-- A reader that gets no record and finds no damage has nothing committed in front of it. -/
theorem Spent.hasCommitted_eq_false (h : r.Spent) (hnone : r.damage? = none) :
    r.hasCommitted = false := by
  obtain ⟨hnext, -⟩ | ⟨fault, -, hdamage⟩ := h.next_fst
  · exact r.next_eq_none_iff.mp hnext
  · rw [hdamage] at hnone
    cases hnone

/-- Every ring gives some records, and then no more. -/
theorem exists_yields (r : Ring) : ∃ records last, Yields r records last ∧ last.Spent := by
  by_cases hspent : r.Spent
  · exact ⟨[], r, .nothing r, hspent⟩
  · obtain ⟨record, hrecord⟩ := not_forall_not.mp hspent
    have hnext : r.next = (.ok (some record), r.next.2) := Prod.ext hrecord rfl
    obtain ⟨records, last, hyields, hlast⟩ := exists_yields r.next.2
    exact ⟨record :: records, last, .record hnext hyields, hlast⟩
  termination_by r.memory.used
  decreasing_by exact used_next_lt hnext

/-- A ring that gives a record gives the others after it. -/
theorem Yields.of_next {rest : Ring} {record : Bytes} (h : Yields r records last)
    (hspent : last.Spent) (hnext : r.next = (.ok (some record), rest)) :
    ∃ later, records = record :: later ∧ Yields rest later last := by
  cases h with
  | nothing => exact absurd (congrArg Prod.fst hnext) (hspent record)
  | record hfirst hlater =>
    cases hfirst.symm.trans hnext
    exact ⟨_, rfl, hlater⟩

/-- A ring that gives no record is the one that reading leaves. -/
theorem Yields.of_spent (h : Yields r records last) (hspent : r.Spent) : records = [] ∧ r = last := by
  cases h with
  | nothing => exact ⟨rfl, rfl⟩
  | record hfirst => exact absurd (congrArg Prod.fst hfirst) (hspent _)

/-- As many reads give as many of the records. -/
theorem Yields.delivered_replicate (h : Yields r records last) (hspent : last.Spent) (n : Nat) :
    delivered (List.replicate n .next) r = records.take n := by
  induction h generalizing n with
  | nothing r =>
    rw [List.take_nil]
    induction n with
    | zero => rfl
    | succ n ih =>
      have hnone : Operation.next.delivers r = [] := by
        rcases hspent.next_fst with ⟨hnext, -⟩ | ⟨fault, hnext, -⟩ <;>
          simp only [Operation.delivers, hnext]
      rw [List.replicate_succ, delivered, hnone, Operation.apply, hspent.next_snd, List.nil_append]
      exact ih
  | record hnext hlater ih =>
    cases n with
    | zero => rfl
    | succ n =>
      simp only [List.replicate_succ, delivered, Operation.delivers, Operation.apply, hnext,
        ih hspent n, List.take_succ_cons, List.singleton_append]

/-- Reading leaves the producer where it is, and moves the consumer by two words for each record at
least. -/
theorem Yields.length_le (h : Yields r records last) (hle : r.consumer ≤ r.producer)
    (hhalf : r.producer.toNat < half) :
    r.consumer.toNat + 16 * records.length ≤ r.producer.toNat := by
  induction h with
  | nothing r =>
    rw [UInt64.le_iff_toNat_le] at hle
    simpa using hle
  | record hnext hlater ih =>
    have htakes := takes_next hle hhalf
    rw [hnext] at htakes
    cases htakes with
    | record hready hpos hlength hmoved hbehind hmemory hcleared =>
      have hlater := ih hbehind hhalf
      simp only [List.length_cons, payloadWords] at hlater hmoved ⊢
      omega

/-- A ring with something committed in front of the reader gives a record, or it is damaged. -/
theorem Yields.damage_or_record (h : Yields r records last) (hspent : last.Spent)
    (hready : r.hasCommitted = true) : last.damage? ≠ none ∨ 1 ≤ records.length := by
  cases h with
  | nothing =>
    refine Or.inl fun hnone => ?_
    rw [hspent.hasCommitted_eq_false hnone] at hready
    cases hready
  | record => exact Or.inr (Nat.succ_pos _)

end Reading

section Sinks

variable {σ : Type} {sink : Bytes → σ → σ × Option Fault} {r last : Ring} {records : List Bytes}

/-- A drain goes on from where the records end that the ring gives. -/
theorem Yields.drainFrom_eq (h : Yields r records last)
    (hsink : ∀ record state, (sink record state).2 = none) (state : σ) (count : Nat) :
    drainFrom sink r state count = drainFrom sink last
      (records.foldl (fun state record => (sink record state).1) state) (count + records.length) := by
  induction h generalizing state count with
  | nothing r => rfl
  | @record r rest last record records hnext hlater ih =>
    have htaken : sink record state = ((sink record state).1, none) :=
      Prod.ext rfl (hsink record state)
    rw [drainFrom]
    split
    · rename_i hother
      rw [hnext] at hother
      cases hother
    · rename_i hother
      rw [hnext] at hother
      cases hother
    · rename_i hother
      rw [hnext] at hother
      cases hother
      rw [htaken]
      simp only [ih, List.foldl_cons, List.length_cons, Nat.add_comm records.length,
        ← Nat.add_assoc]

/-- A drain ends where the reader gets no record. -/
theorem Spent.drainFrom_eq (h : last.Spent) (state : σ) (count : Nat) :
    drainFrom sink last state count = ⟨last, state, count, last.damage?⟩ := by
  rw [drainFrom]
  split
  · rename_i fault rest hnext
    obtain rfl : last = rest := h.next_snd.symm.trans (congrArg Prod.snd hnext)
    simp only [damage?, hnext]
  · rename_i rest hnext
    obtain rfl : last = rest := h.next_snd.symm.trans (congrArg Prod.snd hnext)
    simp only [damage?, hnext]
  · rename_i record rest hnext
    exact absurd (congrArg Prod.fst hnext) (h record)

/-- A drain into a sink that never fails hands over what the ring gives. -/
theorem Yields.drain_eq (h : Yields r records last) (hspent : last.Spent)
    (hsink : ∀ record state, (sink record state).2 = none) (state : σ) :
    drain sink state r = ⟨last, records.foldl (fun state record => (sink record state).1) state,
      records.length, last.damage?⟩ := by
  rw [drain, h.drainFrom_eq hsink, hspent.drainFrom_eq, Nat.zero_add]

/-- What a drain does with a ring that gives these records: it hands them to the sink, one call for
each and no more than the positions have room for. Without a fault nothing is left to read after it,
and where something was to be read before it, it comes to a fault or has handed over a record. -/
structure Exhausts (sink : Bytes → σ → σ × Option Fault) (state : σ) (r : Ring)
    (records : List Bytes) : Prop where
  reads : ∀ n, delivered (List.replicate n .next) r = records.take n
  length_le : records.length ≤ (r.producer.toNat - r.consumer.toNat) / 16
  ready_iff : r.hasCommitted = true ↔ r.next.1 ≠ .ok none
  state_eq : (drain sink state r).state =
    records.foldl (fun state record => (sink record state).1) state
  count_eq : (drain sink state r).count = records.length
  unready : (drain sink state r).fault = none → (drain sink state r).ring.hasCommitted = false
  progress : r.hasCommitted = true →
    (drain sink state r).fault ≠ none ∨ 1 ≤ (drain sink state r).count

/-- A drain into a sink that never fails hands over all records that the ring gives. -/
theorem Yields.exhausts (h : Yields r records last) (hspent : last.Spent)
    (hle : r.consumer ≤ r.producer) (hhalf : r.producer.toNat < half)
    (hsink : ∀ record state, (sink record state).2 = none) (state : σ) :
    Exhausts sink state r records := by
  have hdrain := h.drain_eq hspent hsink state
  have hlength := h.length_le hle hhalf
  refine ⟨h.delivered_replicate hspent, by omega, ?_, ?_, ?_, ?_, ?_⟩
  · rw [Ne, r.next_eq_none_iff, Bool.not_eq_false]
  · rw [hdrain]
  · rw [hdrain]
  · rw [hdrain]
    exact hspent.hasCommitted_eq_false
  · rw [hdrain]
    exact h.damage_or_record hspent

end Sinks

end NetnsWatch.Ring
