import Blitz.SchedulerNode

/-! Where every executor is, and what it holds there. -/
namespace Blitz.Scheduler
open LittleEndian Solana Validator WorkerPool

namespace Node
variable {x : Setup} {n n' : Node} {hand : List ExecutorId}
  {held : ExecutorId → List (Bytes 32 × Bool)} {e b : ExecutorId}

/-- On its way to an executor, with it, or reported back and not yet seen. -/
def Busy (n : Node) (e : ExecutorId) : Prop :=
  (n.inbox e).isSome ∨ (n.working e).isSome ∨ e ∈ n.readyRx

/-- Every executor is in one place: busy, free, or in the scheduler's `hand`. Exactly the busy
ones hold accounts, those of their transaction. -/
structure Placed (x : Setup) (n : Node) (hand : List ExecutorId)
    (held : ExecutorId → List (Bytes 32 × Bool)) : Prop where
  count_le : n.coordinator.count ≤ maxSvmExecutors
  nodup : (hand ++ n.coordinator.readyExecutors).Nodup
  busy_iff : ∀ e, n.Busy e ↔
    e < n.coordinator.count ∧ e ∉ hand ++ n.coordinator.readyExecutors
  lt : ∀ e ∈ hand ++ n.coordinator.readyExecutors, e < n.coordinator.count
  inbox_alone : ∀ e, (n.inbox e).isSome → n.working e = none ∧ e ∉ n.readyRx
  working_alone : ∀ e, (n.working e).isSome → e ∉ n.readyRx
  reported : n.readyRx.Nodup
  locks : n.coordinator.LocksHeld held
  free : ∀ e, ¬n.Busy e → held e = []
  carried : ∀ e txn, n.inbox e = some txn ∨ n.working e = some txn →
    held e = txn.txn.claims x.isWritable

namespace Placed

lemma new {executors : ℕ} {ledger : TransactionLedger} {latestBlock : UInt64 × Bytes 32}
    {accountsdbSlot : UInt64} {slotHashes : Option (List (UInt64 × Bytes 32))} :
    (Node.new executors ledger latestBlock accountsdbSlot slotHashes).Placed x [] fun _ => [] where
  count_le := min_le_right _ _
  nodup := by simpa [Node.new, ExecutionCoordinator.new] using List.nodup_range
  busy_iff e := by simp [Node.new, ExecutionCoordinator.new, Busy]
  lt e he := by simpa [Node.new, ExecutionCoordinator.new] using he
  inbox_alone e he := by simp [Node.new] at he
  working_alone e he := by simp [Node.new] at he
  reported := List.nodup_nil
  locks := ExecutionCoordinator.locksHeld_new _
  free _ _ := rfl
  carried e txn h := by simp [Node.new] at h

lemma frame (h : n.Placed x hand held)
    (hcount : n'.coordinator.count = n.coordinator.count)
    (hready : n'.coordinator.readyExecutors = n.coordinator.readyExecutors)
    (hlocks : n'.coordinator.locks = n.coordinator.locks)
    (hacquired : n'.coordinator.acquiredLocks = n.coordinator.acquiredLocks)
    (hinbox : n'.inbox = n.inbox) (hworking : n'.working = n.working)
    (hreported : n'.readyRx = n.readyRx) : n'.Placed x hand held := by
  have hbusy : ∀ e, n'.Busy e ↔ n.Busy e := by
    intro e
    rw [Busy, Busy, hinbox, hworking, hreported]
  constructor
  · rw [hcount]
    exact h.count_le
  · rw [hready]
    exact h.nodup
  · intro e
    rw [hbusy, hcount, hready]
    exact h.busy_iff e
  · rw [hcount, hready]
    exact h.lt
  · rw [hinbox, hworking, hreported]
    exact h.inbox_alone
  · rw [hworking, hreported]
    exact h.working_alone
  · rw [hreported]
    exact h.reported
  · refine ⟨?_, ?_, h.locks.apart⟩
    · rw [hlocks]
      exact h.locks.shown
    · rw [hacquired]
      exact h.locks.acquired
  · intro e he
    rw [hbusy] at he
    exact h.free e he
  · rw [hinbox, hworking]
    exact h.carried

lemma not_busy_of_mem (h : n.Placed x hand held) (he : e ∈ hand ++ n.coordinator.readyExecutors) :
    ¬n.Busy e := fun hbusy => ((h.busy_iff e).mp hbusy).2 he

lemma busy_of_held (h : n.Placed x hand held) (he : held e ≠ []) : n.Busy e := by
  by_contra hfree
  exact he (h.free e hfree)

lemma inbox_eq_none (h : n.Placed x hand held)
    (he : e ∈ hand ++ n.coordinator.readyExecutors) : n.inbox e = none := by
  by_contra hsome
  exact h.not_busy_of_mem he (.inl (Option.isSome_iff_ne_none.mpr hsome))

lemma take {rest : List ExecutorId} (h : n.Placed x [] held)
    (hready : n.coordinator.readyExecutors = e :: rest) :
    Placed x { n with coordinator := { n.coordinator with readyExecutors := rest } } [e] held where
  count_le := h.count_le
  nodup := by simpa [hready] using h.nodup
  busy_iff i := by
    have hi := h.busy_iff i
    rw [hready] at hi
    exact hi
  lt := by simpa [hready] using h.lt
  inbox_alone := h.inbox_alone
  working_alone := h.working_alone
  reported := h.reported
  locks := ⟨h.locks.shown, h.locks.acquired, h.locks.apart⟩
  free := h.free
  carried := h.carried

lemma release (h : n.Placed x [e] held) :
    Placed x { n with coordinator := n.coordinator.releaseExecutor e } [] held where
  count_le := h.count_le
  nodup := h.nodup
  busy_iff := h.busy_iff
  lt := h.lt
  inbox_alone := h.inbox_alone
  working_alone := h.working_alone
  reported := h.reported
  locks := ⟨h.locks.shown, h.locks.acquired, h.locks.apart⟩
  free := h.free
  carried := h.carried

lemma dispatch {c : ExecutionCoordinator} {txn : ProcessableTransaction} (h : n.Placed x [e] held)
    (hc : c.LocksHeld (Function.update held e (txn.claims x.isWritable)))
    (hframe : c = { n.coordinator with locks := c.locks, acquiredLocks := c.acquiredLocks }) :
    Placed x ({ n with coordinator := c }.dispatch x e txn) []
      (Function.update held e (txn.claims x.isWritable)) := by
  have hinbox : n.inbox e = none := h.inbox_eq_none (by simp)
  have hfree : ¬n.Busy e := h.not_busy_of_mem (by simp)
  have hcount : c.count = n.coordinator.count := by rw [hframe]
  have hready : c.readyExecutors = n.coordinator.readyExecutors := by rw [hframe]
  have hboxes : ({ n with coordinator := c }.dispatch x e txn).inbox =
      Function.update n.inbox e (some
        ⟨({ n with coordinator := c }.position txn.mode).1,
          ({ n with coordinator := c }.position txn.mode).2, txn⟩) := by
    simp [Node.dispatch, hinbox]
  have hbusy : ∀ i, ({ n with coordinator := c }.dispatch x e txn).Busy i ↔ n.Busy i ∨ i = e := by
    intro i
    rw [Busy, hboxes]
    by_cases hi : i = e
    · subst hi
      simp
    · simp [hi, Busy, Node.dispatch]
  have hmem : ∀ i, i ∈ [e] ++ n.coordinator.readyExecutors ↔
      i = e ∨ i ∈ n.coordinator.readyExecutors := by simp
  have hnotready : e ∉ n.coordinator.readyExecutors := (List.nodup_cons.mp h.nodup).1
  constructor
  · exact hcount.trans_le h.count_le
  · change ([] ++ c.readyExecutors).Nodup
    rw [hready]
    exact (List.nodup_cons.mp h.nodup).2
  · intro i
    change _ ↔ i < c.count ∧ i ∉ [] ++ c.readyExecutors
    rw [hbusy, h.busy_iff, hmem, hcount, hready]
    by_cases hi : i = e
    · subst hi
      have := h.lt i (by simp)
      simp [this, hnotready]
    · simp [hi]
  · intro i hi
    change i < c.count
    rw [hcount]
    refine h.lt i (List.mem_append_right _ ?_)
    rw [← hready]
    exact hi
  · intro i hi
    change n.working i = none ∧ i ∉ n.readyRx
    by_cases hie : i = e
    · subst hie
      simp only [Busy, not_or] at hfree
      exact ⟨Option.not_isSome_iff_eq_none.mp hfree.2.1, hfree.2.2⟩
    · rw [hboxes, Function.update_of_ne hie] at hi
      exact h.inbox_alone i hi
  · exact h.working_alone
  · exact h.reported
  · exact ⟨hc.shown, hc.acquired, hc.apart⟩
  · intro i hi
    rw [hbusy, not_or] at hi
    rw [Function.update_of_ne hi.2]
    exact h.free i hi.1
  · intro i t ht
    rw [hboxes] at ht
    by_cases hie : i = e
    · subst hie
      rcases ht with ht | ht
      · rw [Function.update_self, Option.some.injEq] at ht
        rw [Function.update_self, ← ht]
      · exact absurd (.inr (.inl (Option.isSome_iff_exists.mpr ⟨t, ht⟩))) hfree
    · rw [Function.update_of_ne hie] at ht ⊢
      exact h.carried i t ht

lemma lt_max (h : n.Placed x hand held) (he : e ∈ hand ++ n.coordinator.readyExecutors) :
    e < maxSvmExecutors := (h.lt e he).trans_le h.count_le

lemma scheduleTransaction (h : n.Placed x [e] held) (txn : TransactionWithId) :
    (∃ c, n.scheduleTransaction x e txn = (none, { n with coordinator := c }.dispatch x e txn.txn) ∧
      c.LocksHeld (Function.update held e (txn.txn.claims x.isWritable)) ∧
      c = { n.coordinator with locks := c.locks, acquiredLocks := c.acquiredLocks }) ∨
    (∃ b, n.scheduleTransaction x e txn = (some b,
        { n with coordinator := (n.coordinator.releaseExecutor e).queueTransaction b txn }) ∧
      (b ≠ e → Clash (txn.txn.claims x.isWritable) (held b)) ∧
      (((txn.txn.claims x.isWritable).map Prod.fst).Nodup → b ≠ e)) := by
  have hfree : held e = [] := h.free e (h.not_busy_of_mem (by simp))
  rcases h.locks.trySchedule x.isWritable (h.lt_max (by simp)) hfree txn with
    ⟨c, hrun, hlocks, hframe⟩ | ⟨b, hrun, hclash, hself⟩
  · exact .inl ⟨c, by simp only [Node.scheduleTransaction, hrun], hlocks, hframe⟩
  · exact .inr ⟨b, by simp only [Node.scheduleTransaction, hrun], hclash, hself⟩

lemma busy_of_clash (h : n.Placed x hand held) {claims : List (Bytes 32 × Bool)}
    (hclash : Clash claims (held b)) : n.Busy b := by
  obtain ⟨_, _, _, _, hmem, _⟩ := hclash
  exact h.busy_of_held (List.ne_nil_of_mem hmem)

end Placed

/-- What can come of the queue of `b`, with an executor in hand. -/
inductive Rescheduled (x : Setup) (b : ExecutorId) :
    Node → (ExecutorId → List (Bytes 32 × Bool)) → ExecutorId →
    Node → (ExecutorId → List (Bytes 32 × Bool)) → Prop
  | empty {n : Node} {held : ExecutorId → List (Bytes 32 × Bool)} {e : ExecutorId}
      (hqueue : n.coordinator.blockedTransactions b = []) :
      Rescheduled x b n held e
        { n with coordinator := (n.coordinator.nextBlockedTransaction b).2.releaseExecutor e } held
  /-- The head of the queue waits for `b` again: the rest has to wait as well. -/
  | stuck {n : Node} {held : ExecutorId → List (Bytes 32 × Bool)} {e : ExecutorId}
      {txn : TransactionWithId} {rest : List TransactionWithId}
      (hqueue : n.coordinator.blockedTransactions b = txn :: rest)
      (hclash : b ≠ e → Clash (txn.txn.claims x.isWritable) (held b))
      (hself : ((txn.txn.claims x.isWritable).map Prod.fst).Nodup → b ≠ e) :
      Rescheduled x b n held e
        { n with coordinator :=
          ((n.coordinator.nextBlockedTransaction b).2.releaseExecutor e).queueTransaction b txn }
        held
  /-- It waits for somebody else: the executor stays in hand for the next one. -/
  | requeued {n n' : Node} {held held' : ExecutorId → List (Bytes 32 × Bool)} {e b' : ExecutorId}
      {txn : TransactionWithId} {rest : List TransactionWithId}
      (hqueue : n.coordinator.blockedTransactions b = txn :: rest) (hne : b' ≠ b)
      (hclash : b' ≠ e → Clash (txn.txn.claims x.isWritable) (held b'))
      (hself : ((txn.txn.claims x.isWritable).map Prod.fst).Nodup → b' ≠ e)
      (hnext : Rescheduled x b
        { n with coordinator :=
          (n.coordinator.nextBlockedTransaction b).2.queueTransaction b' txn } held e n' held') :
      Rescheduled x b n held e n' held'
  | last {n : Node} {held : ExecutorId → List (Bytes 32 × Bool)} {e : ExecutorId}
      {txn : TransactionWithId} {rest : List TransactionWithId} {c : ExecutionCoordinator}
      (hqueue : n.coordinator.blockedTransactions b = txn :: rest)
      (hlocks : c.LocksHeld (Function.update held e (txn.txn.claims x.isWritable)))
      (hframe : c = { (n.coordinator.nextBlockedTransaction b).2 with
        locks := c.locks, acquiredLocks := c.acquiredLocks })
      (hready : n.coordinator.readyExecutors = []) :
      Rescheduled x b n held e ({ n with coordinator := c }.dispatch x e txn.txn)
        (Function.update held e (txn.txn.claims x.isWritable))
  | next {n n' : Node} {held held' : ExecutorId → List (Bytes 32 × Bool)} {e e' : ExecutorId}
      {txn : TransactionWithId} {rest : List TransactionWithId} {ready : List ExecutorId}
      {c : ExecutionCoordinator}
      (hqueue : n.coordinator.blockedTransactions b = txn :: rest)
      (hlocks : c.LocksHeld (Function.update held e (txn.txn.claims x.isWritable)))
      (hframe : c = { (n.coordinator.nextBlockedTransaction b).2 with
        locks := c.locks, acquiredLocks := c.acquiredLocks })
      (hready : n.coordinator.readyExecutors = e' :: ready)
      (hnext : Rescheduled x b
        ({ n with coordinator := { c with readyExecutors := ready } }.dispatch x e txn.txn)
        (Function.update held e (txn.txn.claims x.isWritable)) e' n' held') :
      Rescheduled x b n held e n' held'

namespace Placed

lemma nextBlockedTransaction (h : n.Placed x hand held) (b : ExecutorId) :
    Placed x { n with coordinator := (n.coordinator.nextBlockedTransaction b).2 } hand held :=
  h.frame rfl rfl rfl rfl rfl rfl rfl

lemma queueTransaction (h : n.Placed x hand held) (b : ExecutorId) (txn : TransactionWithId) :
    Placed x { n with coordinator := n.coordinator.queueTransaction b txn } hand held :=
  h.frame rfl rfl rfl rfl rfl rfl rfl

lemma rescheduleBlocked {fuel : ℕ} (h : n.Placed x [e] held)
    (hfuel : (n.coordinator.blockedTransactions b).length < fuel) :
    ∃ held', Rescheduled x b n held e (rescheduleBlocked x b fuel e n) held' := by
  -- The loop ends before its bound, in one of these ways.
  induction fuel generalizing n e held with
  | zero => exact absurd hfuel (Nat.not_lt_zero _)
  | succ fuel ih =>
    cases hqueue : n.coordinator.blockedTransactions b with
    | nil =>
      have hpop : (n.coordinator.nextBlockedTransaction b).1 = none := by
        simp [ExecutionCoordinator.nextBlockedTransaction, hqueue]
      rw [Node.rescheduleBlocked, ← Prod.eta (n.coordinator.nextBlockedTransaction b), hpop]
      exact ⟨held, .empty hqueue⟩
    | cons txn rest =>
      have hpop : (n.coordinator.nextBlockedTransaction b).1 = some txn := by
        simp [ExecutionCoordinator.nextBlockedTransaction, hqueue]
      have hrest : (n.coordinator.nextBlockedTransaction b).2.blockedTransactions b = rest := by
        simp [ExecutionCoordinator.nextBlockedTransaction, hqueue]
      have hlength : rest.length < fuel := by
        rw [hqueue, List.length_cons] at hfuel
        omega
      rw [Node.rescheduleBlocked, ← Prod.eta (n.coordinator.nextBlockedTransaction b), hpop]
      have hpopped := h.nextBlockedTransaction b
      rcases hpopped.scheduleTransaction txn with ⟨c, hrun, hlocks, hframe⟩ |
        ⟨b', hrun, hclash, hself⟩
      · simp only [hrun, reduceCtorEq, if_false]
        cases hready : n.coordinator.readyExecutors with
        | nil =>
          have hnone : ({ n with coordinator := c }.dispatch x e txn.txn).coordinator.getReadyExecutor
              = none := by
            change c.getReadyExecutor = none
            rw [hframe]
            simp [ExecutionCoordinator.getReadyExecutor, ExecutionCoordinator.nextBlockedTransaction,
              hready]
          simp only [hnone]
          exact ⟨_, .last hqueue hlocks hframe hready⟩
        | cons e' ready =>
          have hcready : c.readyExecutors = e' :: ready := by
            rw [hframe]
            exact hready
          have hsome : ({ n with coordinator := c }.dispatch x e txn.txn).coordinator.getReadyExecutor
              = some (e', { c with readyExecutors := ready }) := by
            change c.getReadyExecutor = _
            simp [ExecutionCoordinator.getReadyExecutor, hcready]
          have hcqueue : c.blockedTransactions b = rest := by
            rw [hframe]
            exact hrest
          have hplaced := (hpopped.dispatch hlocks hframe).take hcready
          obtain ⟨held', hloop⟩ := ih hplaced (hcqueue ▸ hlength)
          simp only [hsome]
          exact ⟨held', .next hqueue hlocks hframe hready hloop⟩
      · simp only [hrun, Option.some.injEq]
        split_ifs with hsame
        · subst hsame
          exact ⟨held, .stuck hqueue hclash hself⟩
        · have hsome : ((n.coordinator.nextBlockedTransaction b).2.releaseExecutor
              e |>.queueTransaction b' txn).getReadyExecutor =
              some (e, (n.coordinator.nextBlockedTransaction b).2.queueTransaction b' txn) := rfl
          have hcqueue : ((n.coordinator.nextBlockedTransaction b).2.queueTransaction b'
              txn).blockedTransactions b = rest := by
            rw [ExecutionCoordinator.blockedTransactions_queueTransaction,
              Function.update_of_ne (Ne.symm hsame)]
            exact hrest
          obtain ⟨held', hloop⟩ := ih (hpopped.queueTransaction b' txn) (hcqueue ▸ hlength)
          simp only [hsome]
          exact ⟨held', .requeued hqueue hsame hclash hself hloop⟩

end Placed

lemma Rescheduled.placed {held' : ExecutorId → List (Bytes 32 × Bool)}
    (h : Rescheduled x b n held e n' held') (hplaced : n.Placed x [e] held) :
    n'.Placed x [] held' := by
  induction h with
  | empty hqueue => exact (hplaced.nextBlockedTransaction b).release
  | stuck hqueue hclash hself =>
    exact (hplaced.nextBlockedTransaction b).release.queueTransaction b _
  | requeued hqueue hne hclash hself hnext ih =>
    exact ih ((hplaced.nextBlockedTransaction b).queueTransaction _ _)
  | last hqueue hlocks hframe hready =>
    exact (hplaced.nextBlockedTransaction b).dispatch hlocks hframe
  | @next n n' held held' e e' txn rest ready c hqueue hlocks hframe hready hnext ih =>
    have hcready : c.readyExecutors = e' :: ready := by
      rw [hframe]
      exact hready
    exact ih (((hplaced.nextBlockedTransaction b).dispatch hlocks hframe).take hcready)

namespace Placed

lemma report {rest : List ExecutorId} (h : n.Placed x [] held) (hrx : n.readyRx = e :: rest) :
    Placed x { n with readyRx := rest, coordinator := n.coordinator.unlockAccounts e } [e]
      (Function.update held e []) := by
  have hreported : e ∉ rest ∧ rest.Nodup := List.nodup_cons.mp (hrx ▸ h.reported)
  have hseen : e ∈ n.readyRx := hrx ▸ List.mem_cons_self
  have hbusy : ∀ i, Busy { n with
      readyRx := rest, coordinator := n.coordinator.unlockAccounts e } i ↔ n.Busy i ∧ i ≠ e := by
    intro i
    simp only [Busy, hrx, List.mem_cons]
    by_cases hi : i = e
    · subst hi
      have hinbox : ¬(n.inbox i).isSome := fun hsome => (h.inbox_alone i hsome).2 hseen
      have hworking : ¬(n.working i).isSome := fun hsome => h.working_alone i hsome hseen
      simp [hinbox, hworking, hreported.1]
    · simp [hi]
  have hready : e ∉ n.coordinator.readyExecutors := ((h.busy_iff e).mp (.inr (.inr hseen))).2
  constructor
  · exact h.count_le
  · exact List.nodup_cons.mpr ⟨hready, h.nodup⟩
  · intro i
    rw [hbusy, h.busy_iff]
    simp only [List.nil_append, List.singleton_append, List.mem_cons, not_or,
      ExecutionCoordinator.count_unlockAccounts, ExecutionCoordinator.readyExecutors_unlockAccounts]
    tauto
  · intro i hi
    rcases List.mem_cons.mp hi with rfl | hi
    · exact ((h.busy_iff i).mp (.inr (.inr hseen))).1
    · exact h.lt i hi
  · intro i hi
    obtain ⟨hworking, hrx'⟩ := h.inbox_alone i hi
    rw [hrx] at hrx'
    exact ⟨hworking, fun hmem => hrx' (List.mem_cons_of_mem e hmem)⟩
  · intro i hi
    have hrx' := h.working_alone i hi
    rw [hrx] at hrx'
    exact fun hmem => hrx' (List.mem_cons_of_mem e hmem)
  · exact hreported.2
  · exact h.locks.unlockAccounts e
  · intro i hi
    rw [hbusy, not_and_not_right] at hi
    by_cases hie : i = e
    · rw [hie, Function.update_self]
    · rw [Function.update_of_ne hie]
      exact h.free i (fun hb => hie (hi hb))
  · intro i txn ht
    by_cases hie : i = e
    · subst hie
      rcases ht with ht | ht
      · exact absurd hseen (h.inbox_alone i (Option.isSome_iff_exists.mpr ⟨txn, ht⟩)).2
      · exact absurd hseen (h.working_alone i (Option.isSome_iff_exists.mpr ⟨txn, ht⟩))
    · rw [Function.update_of_ne hie]
      exact h.carried i txn ht

lemma receive {txn : IndexedTransaction} (h : n.Placed x hand held) (hinbox : n.inbox e = some txn) :
    Placed x
      { n with
        inbox := Function.update n.inbox e none
        working := Function.update n.working e (some txn) } hand held := by
  have hsome : (n.inbox e).isSome := Option.isSome_iff_exists.mpr ⟨txn, hinbox⟩
  have hbusy : ∀ i, Busy { n with
      inbox := Function.update n.inbox e none
      working := Function.update n.working e (some txn) } i ↔ n.Busy i := by
    intro i
    by_cases hi : i = e
    · subst hi
      simp [Busy, hsome]
    · simp [Busy, hi]
  constructor
  · exact h.count_le
  · exact h.nodup
  · intro i
    rw [hbusy]
    exact h.busy_iff i
  · exact h.lt
  · intro i hi
    by_cases hie : i = e
    · subst hie
      simp at hi
    · simp only [Function.update_of_ne hie] at hi ⊢
      exact h.inbox_alone i hi
  · intro i hi
    by_cases hie : i = e
    · subst hie
      exact (h.inbox_alone i hsome).2
    · simp only [Function.update_of_ne hie] at hi
      exact h.working_alone i hi
  · exact h.reported
  · exact h.locks
  · intro i hi
    rw [hbusy] at hi
    exact h.free i hi
  · intro i t ht
    by_cases hie : i = e
    · subst hie
      simp only [Function.update_self, reduceCtorEq, Option.some.injEq, false_or] at ht
      exact h.carried i t (.inl (ht ▸ hinbox))
    · simp only [Function.update_of_ne hie] at ht
      exact h.carried i t ht

lemma length_readyRx_lt (h : n.Placed x hand held) (hworking : (n.working e).isSome) :
    n.readyRx.length < n.coordinator.count := by
  -- There is room for the report, since the executor that makes it has not made one.
  have hnot := h.working_alone e hworking
  have hsub : e :: n.readyRx ⊆ List.range n.coordinator.count := by
    intro i hi
    rw [List.mem_range]
    rcases List.mem_cons.mp hi with rfl | hi
    · exact ((h.busy_iff i).mp (.inr (.inl hworking))).1
    · exact ((h.busy_iff i).mp (.inr (.inr hi))).1
  have hle := (List.nodup_cons.mpr ⟨hnot, h.reported⟩).subperm hsub |>.length_le
  simpa using hle

lemma finish {txn : IndexedTransaction} {failed : Bool} {filing : Filing}
    (h : n.Placed x hand held) (hworking : n.working e = some txn) :
    (n.finish x e failed filing txn).Placed x hand held := by
  have hsome : (n.working e).isSome := Option.isSome_iff_exists.mpr ⟨txn, hworking⟩
  have hrx : (n.finish x e failed filing txn).readyRx = n.readyRx ++ [e] :=
    if_pos (h.length_readyRx_lt hsome)
  have hinbox : n.inbox e = none := by
    by_contra hne
    have := (h.inbox_alone e (Option.isSome_iff_ne_none.mpr hne)).1
    rw [this] at hworking
    cases hworking
  have hbusy : ∀ i, (n.finish x e failed filing txn).Busy i ↔ n.Busy i := by
    intro i
    rw [Busy, hrx]
    by_cases hi : i = e
    · subst hi
      simp [Busy, hsome]
    · simp [Busy, Node.finish, hi]
  constructor
  · exact h.count_le
  · exact h.nodup
  · intro i
    rw [hbusy]
    exact h.busy_iff i
  · exact h.lt
  · intro i hi
    change (n.inbox i).isSome = true at hi
    have hie : i ≠ e := by
      rintro rfl
      rw [hinbox] at hi
      cases hi
    obtain ⟨hnone, hnot⟩ := h.inbox_alone i hi
    rw [hrx]
    simp [Node.finish, hie, hnone, hnot]
  · intro i hi
    have hie : i ≠ e := by
      rintro rfl
      simp [Node.finish] at hi
    simp only [Node.finish, Function.update_of_ne hie] at hi
    rw [hrx]
    simp [hie, h.working_alone i hi]
  · rw [hrx, ← List.concat_eq_append]
    exact h.reported.concat (h.working_alone e hsome)
  · exact h.locks
  · intro i hi
    rw [hbusy] at hi
    exact h.free i hi
  · intro i t ht
    refine h.carried i t (ht.imp_right fun ht => ?_)
    by_cases hie : i = e
    · subst hie
      simp [Node.finish] at ht
    · simpa [Node.finish, hie] using ht

end Placed

/-- Executors and queues are left alone, and so is what has been said of them. -/
structure Quiet (n n' : Node) : Prop where
  coordinator : n'.coordinator = n.coordinator
  inbox : n'.inbox = n.inbox
  working : n'.working = n.working
  readyRx : n'.readyRx = n.readyRx
  counter : n'.counter = n.counter
  accepted : n'.history.accepted = n.history.accepted
  dispatched : n'.history.dispatched = n.history.dispatched
  finished : n'.history.finished = n.history.finished

namespace Quiet
variable {m : Node}

lemma refl (n : Node) : Quiet n n := ⟨rfl, rfl, rfl, rfl, rfl, rfl, rfl, rfl⟩

lemma trans (h : Quiet m n) (h' : Quiet n n') : Quiet m n' where
  coordinator := h'.coordinator.trans h.coordinator
  inbox := h'.inbox.trans h.inbox
  working := h'.working.trans h.working
  readyRx := h'.readyRx.trans h.readyRx
  counter := h'.counter.trans h.counter
  accepted := h'.accepted.trans h.accepted
  dispatched := h'.dispatched.trans h.dispatched
  finished := h'.finished.trans h.finished

lemma releasePermit : Quiet n n.releasePermit := by
  unfold Node.releasePermit
  split_ifs
  · exact ⟨rfl, rfl, rfl, rfl, rfl, rfl, rfl, rfl⟩
  · exact refl n

lemma placed (h : Quiet n n') (hplaced : n.Placed x hand held) : n'.Placed x hand held := by
  refine hplaced.frame ?_ ?_ ?_ ?_ h.inbox h.working h.readyRx
  all_goals rw [h.coordinator]

end Quiet

/-- Only slots, blocks and the phase of the loop change. -/
def Timekeeping (n n' : Node) : Prop :=
  n' = { n with
    phase := n'.phase
    hasher := n'.hasher
    isInitialReplicaBlock := n'.isInitialReplicaBlock
    slot := n'.slot
    index := n'.index
    ledger := n'.ledger
    latestBlock := n'.latestBlock
    accountsdbSlot := n'.accountsdbSlot
    slotHashes := n'.slotHashes
    replicated := n'.replicated
    initialMismatches := n'.initialMismatches
    divergences := n'.divergences }

namespace Timekeeping
variable {m : Node}

lemma trans (h : Timekeeping m n) (h' : Timekeeping n n') : Timekeeping m n' := by
  unfold Timekeeping at h h' ⊢
  rw [h', h]

lemma sendReplication (msg : Replication.Message) : Timekeeping n (n.sendReplication x msg) := by
  unfold Node.sendReplication
  split_ifs <;> rfl

lemma finalizeBlock (out : Outside) (block : Replication.Block) :
    Timekeeping n (n.finalizeBlock out block) := by
  unfold Node.finalizeBlock
  split_ifs
  · split <;> rfl
  · rfl

lemma updateSysvars (block : Replication.Block) : Timekeeping n (n.updateSysvars block) := rfl

lemma transitionToNewSlot (out : Outside) : Timekeeping n (n.transitionToNewSlot x out) :=
  ((sendReplication _).trans (finalizeBlock out _)).trans (updateSysvars _)

lemma takeSuperblockSnapshot (out : Outside) (slot : UInt64) :
    Timekeeping n (n.takeSuperblockSnapshot x out slot) := by
  unfold Node.takeSuperblockSnapshot
  split
  · rfl
  · exact sendReplication _

lemma withPhase (h : Timekeeping n n') (phase : Phase) :
    Timekeeping n { n' with phase := phase } := by
  unfold Timekeeping at h ⊢
  rw [h]

lemma advancePrimarySlot (out : Outside) (closing : Bool) :
    Timekeeping n (n.advancePrimarySlot x out closing) := by
  unfold Node.advancePrimarySlot
  split
  · rfl
  · exact (transitionToNewSlot out).withPhase _

lemma verifyBlockAsReplica (block : Replication.Block) :
    Timekeeping n (n.verifyBlockAsReplica x block) := by
  unfold Node.verifyBlockAsReplica
  split_ifs <;> rfl

lemma adoptBlock (out : Outside) (block : Replication.Block) :
    Timekeeping n (n.adoptBlock x out block) := by
  have hwritten : Timekeeping n (n.writeBlock block) := rfl
  have hverified := hwritten.trans (verifyBlockAsReplica (x := x) block)
  have hblock : Timekeeping n ({ (n.writeBlock block).verifyBlockAsReplica x block with
      accountsdbSlot := block.slot }.updateSysvars block) := by
    refine hverified.trans ?_
    rfl
  unfold Node.adoptBlock
  dsimp only
  split
  · exact hblock.trans (takeSuperblockSnapshot out block.slot)
  · exact hblock

lemma applyReplayedBlock {out : Outside} {block : Replication.Block}
    {answer : Except String Unit × Node} (h : n.applyReplayedBlock x out block = some answer) :
    Timekeeping n answer.2 := by
  unfold Node.applyReplayedBlock at h
  split_ifs at h
  · obtain rfl := Option.some.inj h
    rfl
  · split at h
    · obtain rfl := Option.some.inj h
      rfl
    · obtain rfl := Option.some.inj h
      exact adoptBlock out block

lemma quiet (h : Timekeeping n n') : Quiet n n' := by
  unfold Timekeeping at h
  constructor
  all_goals rw [h]

end Timekeeping

lemma switchMode_fields (n : Node) (mode : SchedulerMode) :
    (n.switchMode mode).inbox = n.inbox ∧ (n.switchMode mode).working = n.working ∧
      (n.switchMode mode).readyRx = n.readyRx ∧ (n.switchMode mode).history = n.history := by
  cases mode <;> exact ⟨rfl, rfl, rfl, rfl⟩

lemma switchMode_coordinator (n : Node) (mode : SchedulerMode) :
    (n.switchMode mode).coordinator =
      { n.coordinator with mode := (n.switchMode mode).coordinator.mode } := by
  cases mode with
  | primary =>
    simp only [Node.switchMode, ExecutionCoordinator.switchToPrimaryMode]
    split <;> rfl
  | replica =>
    simp only [Node.switchMode, Node.resyncFromLedger, Node.reconstructInprogressHasher,
      ExecutionCoordinator.switchToReplicaMode]
    split <;> rfl

/-- What a step does to executors and queues. -/
inductive Moves (x : Setup) (n : Node) : Event → Node → Prop
  | quiet {event : Event} {n' : Node} (h : Quiet n n') : Moves x n event n'
  | switched (mode : SchedulerMode) : Moves x n (.switch mode) (n.switchMode mode)
  | received {e : ExecutorId} {txn : IndexedTransaction} (hinbox : n.inbox e = some txn) :
      Moves x n (.receive e)
        { n with
          inbox := Function.update n.inbox e none
          working := Function.update n.working e (some txn) }
  | finished {e : ExecutorId} {failed : Bool} {filing : Filing} {txn : IndexedTransaction}
      (hworking : n.working e = some txn) :
      Moves x n (.finish e failed filing) (n.finish x e failed filing txn)
  | accepted {out : Outside} {txn : ProcessableTransaction} {e : ExecutorId}
      {rest : List ExecutorId} (hpending : n.pendingCommand = some (.transaction txn))
      (hready : n.coordinator.readyExecutors = e :: rest) (hmode : n.coordinator.mode.isReady)
      (hallowed : n.coordinator.isTransactionAllowed txn.mode)
      (hpermit : n.schedulingPermit = true ∨ n.pausedOutside = false) :
      Moves x n (.process out)
        ((n.accepting txn rest).scheduleTransaction x e ⟨n.counter, txn⟩).2
  | reported {e : ExecutorId} {rest : List ExecutorId} {n' : Node} (hrx : n.readyRx = e :: rest)
      (h : Quiet ({ n with readyRx := rest }.handleReadyExecutor x e) n') : Moves x n .ready n'

lemma Placed.switchMode (h : n.Placed x hand held) (mode : SchedulerMode) :
    (n.switchMode mode).Placed x hand held := by
  obtain ⟨hinbox, hworking, hreadyRx, -⟩ := n.switchMode_fields mode
  refine h.frame ?_ ?_ ?_ ?_ hinbox hworking hreadyRx
  all_goals rw [switchMode_coordinator]

lemma step_moves {event : Event} (h : n.step x event = some n') : Moves x n event n' := by
  cases step_steps h with
  | received hinbox => exact .received hinbox
  | finished hworking => exact .finished hworking
  | accepted hlooping hpending hready hmode hallowed hpermit =>
    exact .accepted hpending hready hmode hallowed hpermit
  | @block out block answer n' hlooping hpending hidle hanswer =>
    have hhandled : Quiet n (n.handled (.block block)) := ⟨rfl, rfl, rfl, rfl, rfl, rfl, rfl, rfl⟩
    exact .quiet ((hhandled.trans (Timekeeping.applyReplayedBlock hanswer).quiet).trans
      ⟨rfl, rfl, rfl, rfl, rfl, rfl, rfl, rfl⟩)
  | ticked => exact .quiet (Timekeeping.advancePrimarySlot _ false).quiet
  | heard hlooping hwaits hrx => exact .reported hrx .releasePermit
  | heardDraining hphase hbusy hrx => exact .reported hrx (.refl _)
  | switched hlooping hwaits => exact .switched _
  | checkpointed hphase hidle =>
    exact .quiet (((Timekeeping.transitionToNewSlot _).trans
      (.takeSuperblockSnapshot _ _)).withPhase _).quiet
  | closed => exact .quiet (Timekeeping.advancePrimarySlot _ true).quiet
  | submitted => exact .quiet ⟨rfl, rfl, rfl, rfl, rfl, rfl, rfl, rfl⟩
  | paused => exact .quiet ⟨rfl, rfl, rfl, rfl, rfl, rfl, rfl, rfl⟩
  | resumed => exact .quiet ⟨rfl, rfl, rfl, rfl, rfl, rfl, rfl, rfl⟩
  | dropped => exact .quiet ⟨rfl, rfl, rfl, rfl, rfl, rfl, rfl, rfl⟩
  | drained => exact .quiet ⟨rfl, rfl, rfl, rfl, rfl, rfl, rfl, rfl⟩
  | skipped => exact .quiet (.refl n)
  | taken => exact .quiet ⟨rfl, rfl, rfl, rfl, rfl, rfl, rfl, rfl⟩
  | stopped => exact .quiet ⟨rfl, rfl, rfl, rfl, rfl, rfl, rfl, rfl⟩

end Node

end Blitz.Scheduler
