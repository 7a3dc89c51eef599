import Blitz.SchedulerBooks

/-! Transactions that name an account twice and write it: no executor can take the locks of
one, and they fill the queues. -/
namespace Blitz.Scheduler
open LittleEndian Receipts Solana Validator WorkerPool

namespace ExecutionCoordinator
variable {c c' : ExecutionCoordinator} {count : ℕ} {b : ExecutorId}

/-- A primary counts what waits in its queues. -/
structure Counts (c : ExecutionCoordinator) (count : ℕ) : Prop where
  executors : c.count = count
  mode : c.mode = .primary ⟨c.waiting.card, count * blockedTxnMultiplier⟩

namespace Counts

lemma frame (h : c.Counts count) (hmode : c'.mode = c.mode) (hcount : c'.count = c.count)
    (hqueues : c'.blockedTransactions = c.blockedTransactions) : c'.Counts count where
  executors := hcount.trans h.executors
  mode := by
    rw [hmode, h.mode, waiting, waiting, hcount, hqueues]

lemma grant (h : c.Counts count)
    (hframe : c' = { c with locks := c'.locks, acquiredLocks := c'.acquiredLocks }) :
    c'.Counts count := by
  rw [hframe]
  exact h.frame rfl rfl rfl

lemma queueTransaction (h : c.Counts count) (hb : b < c.count) (txn : TransactionWithId) :
    (c.queueTransaction b txn).Counts count where
  executors := h.executors
  mode := by
    rw [waiting_queueTransaction txn hb, Multiset.card_add, Multiset.card_singleton]
    simp only [ExecutionCoordinator.queueTransaction, h.mode]

lemma nextBlockedTransaction (h : c.Counts count) (hb : b < c.count) :
    (c.nextBlockedTransaction b).2.Counts count := by
  cases hqueue : c.blockedTransactions b with
  | nil =>
    refine h.frame ?_ rfl (blockedTransactions_nextBlockedTransaction_of_nil hqueue)
    simp [ExecutionCoordinator.nextBlockedTransaction, h.mode, hqueue]
  | cons txn rest =>
    have hcard : c.waiting.card = (c.nextBlockedTransaction b).2.waiting.card + 1 := by
      rw [waiting_nextBlockedTransaction hb hqueue, Multiset.card_add, Multiset.card_singleton]
    have hmode : (c.nextBlockedTransaction b).2.mode =
        .primary ⟨c.waiting.card - 1, count * blockedTxnMultiplier⟩ := by
      simp [ExecutionCoordinator.nextBlockedTransaction, h.mode, hqueue]
    exact ⟨h.executors, by rw [hmode, hcard, Nat.add_sub_cancel]⟩

end Counts

end ExecutionCoordinator

namespace Node
variable {x : Setup} {n n' start : Node} {held held' : ExecutorId → List (Bytes 32 × Bool)}
  {e b : ExecutorId} {t t' : List (Traces.Entry Node Event)} {count : ℕ}

lemma Rescheduled.counts (h : Rescheduled x b n held e n' held') (hb : b < n.coordinator.count)
    (hplaced : n.Placed x [e] held) (hcounts : n.coordinator.Counts count) :
    n'.coordinator.Counts count := by
  induction h with
  | empty hqueue => exact (hcounts.nextBlockedTransaction hb).frame rfl rfl rfl
  | stuck hqueue hclash hself =>
    exact ((hcounts.nextBlockedTransaction hb).queueTransaction (b := b) hb _).frame rfl rfl rfl
  | requeued hqueue hne hclash hself hnext ih =>
    exact ih hb ((hplaced.nextBlockedTransaction b).queueTransaction _ _)
      ((hcounts.nextBlockedTransaction hb).queueTransaction (hplaced.blocker_lt hclash) _)
  | last hqueue hlocks hframe hready => exact (hcounts.nextBlockedTransaction hb).grant hframe
  | @next n n' held held' e e' txn rest ready c hqueue hlocks hframe hready hnext ih =>
    have hcready : c.readyExecutors = e' :: ready := by
      rw [hframe]
      exact hready
    have hcount : c.count = n.coordinator.count := by rw [hframe]; rfl
    refine ih (hcount ▸ hb)
      (((hplaced.nextBlockedTransaction b).dispatch hlocks hframe).take hcready) ?_
    exact ((hcounts.nextBlockedTransaction hb).grant hframe).frame rfl rfl rfl

lemma Moves.counts {event : Event} (hmoves : Moves x n event n') (hsound : n.Sound x)
    (hstays : event ≠ .switch .replica) (hcounts : n.coordinator.Counts count) :
    n'.coordinator.Counts count := by
  obtain ⟨⟨held, hplaced⟩, -⟩ := hsound
  cases hmoves with
  | quiet hquiet => rwa [hquiet.coordinator]
  | switched mode =>
    cases mode with
    | primary =>
      have hmode : n.coordinator.switchToPrimaryMode = n.coordinator := by
        simp [ExecutionCoordinator.switchToPrimaryMode, hcounts.mode]
      change n.coordinator.switchToPrimaryMode.Counts count
      rwa [hmode]
    | replica => exact absurd rfl hstays
  | received hinbox => exact hcounts
  | finished hworking => exact hcounts
  | @accepted _ txn e rest hpending hready hmode hallowed hpermit =>
    have haccepting := hplaced.accepting hready txn
    have hcounted : (n.accepting txn rest).coordinator.Counts count := hcounts.frame rfl rfl rfl
    rcases haccepting.scheduleTransaction ⟨n.counter, txn⟩ with ⟨c, hrun, hlocks, hframe⟩ |
      ⟨b, hrun, hclash, -⟩
    · rw [hrun]
      exact hcounted.grant hframe
    · rw [hrun]
      have hqueued := hcounted.queueTransaction (haccepting.blocker_lt hclash) ⟨n.counter, txn⟩
      exact hqueued.frame rfl rfl rfl
  | @reported e rest n' hrx hquiet =>
    obtain ⟨held', hloop⟩ := hplaced.handleReadyExecutor (x := x) hrx
    have hreport := hplaced.report hrx
    rw [hquiet.coordinator]
    exact hloop.counts (hreport.lt e (by simp)) hreport (hcounts.frame rfl rfl rfl)

/-- What has been given to an executor has its locks. -/
def Granted (x : Setup) (n : Node) : Prop :=
  ∀ txn ∈ n.history.dispatched, Apart (txn.txn.claims x.isWritable)

namespace Granted

lemma of_dispatched (h : n.Granted x) (hsame : n'.history.dispatched = n.history.dispatched) :
    n'.Granted x := by
  unfold Granted
  rwa [hsame]

lemma kept : Kept x (fun _ => True) (Granted x) where
  books _ _ hsame hm := hm.of_dispatched hsame.dispatched
  dispatch m e txn _ _ hapart hm := by
    intro txn' hmem
    rcases List.mem_append.mp hmem with hmem | hmem
    · exact hm txn' hmem
    · obtain rfl := List.mem_singleton.mp hmem
      exact hapart

lemma writes {event : Event} (hn : n.Granted x) (h : Writes x n event n') : n'.Granted x := by
  cases h with
  | same hsame => exact hn.of_dispatched hsame.dispatched
  | scheduled hkeeps => exact hkeeps Granted.kept (fun _ _ => trivial) hn
  | finished hworking => exact hn
  | closed hevent _ hcloses => exact hn.of_dispatched hcloses.dispatched
  | switched mode => cases mode <;> exact hn
  | adopted hfollows hpending hidle hadopts => exact hn.of_dispatched hadopts.dispatched

lemma of_fresh (hstart : Fresh start) : start.Granted x := by
  obtain ⟨executors, ledger, latestBlock, accountsdbSlot, slotHashes, rfl⟩ := hstart
  intro txn hmem
  cases hmem

end Granted

lemma Run.granted (h : Run x start t n) (hstart : start.Sound x) (hdrains : start.Drains)
    (h0 : start.Granted x) : n.Granted x :=
  h.keeps_books (P := fun _ => True) hstart hdrains (fun _ _ => trivial) h0
    fun _ _ _ _ hwrites hn => hn.writes hwrites

lemma Fresh.drains (hstart : Fresh start) : start.Drains := by
  obtain ⟨executors, ledger, latestBlock, accountsdbSlot, slotHashes, rfl⟩ := hstart
  intro closing hphase
  cases hphase

/-- A transaction that names an account twice, and writes it under one of the two names, is
never given to an executor. -/
theorem dispatched_apart (hstart : Fresh start) (h : Run x start t n) {txn : IndexedTransaction}
    (hmem : txn ∈ n.history.dispatched) : Apart (txn.txn.claims x.isWritable) :=
  h.granted hstart.sound hstart.drains (.of_fresh hstart) txn hmem

theorem dispatched_apart_twoPayments : ∃ t n, Run Vectors.setup Vectors.twoExecutors t n ∧
    ⟨9, 0, Vectors.executed 1⟩ ∈ n.history.dispatched ∧
    Apart ((Vectors.executed 1).claims Vectors.setup.isWritable) := by
  obtain ⟨t, n, hrun, -, hmem⟩ := exists_run (x := Vectors.setup) (n := Vectors.twoExecutors)
    Vectors.twoPayments (f := fun n => decide (⟨9, 0, Vectors.executed 1⟩ ∈ n.history.dispatched))
    (v := true) (by decide +kernel)
  have hmem := of_decide_eq_true hmem
  exact ⟨t, n, hrun, hmem, dispatched_apart Vectors.twoExecutors_fresh hrun hmem⟩

/-- The accepted transactions that nobody can execute. -/
def duplicates (x : Setup) (n : Node) : ℕ :=
  n.history.accepted.countP fun txn => ¬Apart (txn.claims x.isWritable)

lemma Sound.duplicates_le (h : n.Sound x) (hgranted : n.Granted x) :
    n.duplicates x ≤ n.coordinator.waiting.card := by
  have hnone : (n.history.dispatched.map IndexedTransaction.txn).countP
      (fun txn => ¬Apart (txn.claims x.isWritable)) = 0 := by
    rw [List.countP_eq_zero]
    intro txn hmem
    obtain ⟨granted, hgiven, rfl⟩ := List.mem_map.mp hmem
    simpa using hgranted granted hgiven
  have hcount := congrArg
    (Multiset.countP fun txn : ProcessableTransaction => ¬Apart (txn.claims x.isWritable)) h.2.accepted
  rw [add_zero, Multiset.countP_add, Multiset.coe_countP, Multiset.coe_countP, hnone] at hcount
  calc n.duplicates x = _ := hcount
    _ ≤ n.coordinator.waiting.card := Multiset.countP_le_card _ _

/-- The queues of a primary are full of them. -/
structure Clogged (x : Setup) (count : ℕ) (n : Node) : Prop where
  counts : n.coordinator.Counts count
  drains : n.Drains
  granted : n.Granted x
  full : count * blockedTxnMultiplier ≤ n.duplicates x

lemma Clogged.not_ready (h : n.Clogged x count) (hsound : n.Sound x) :
    n.coordinator.mode.isReady = false := by
  rw [h.counts.mode, CoordinationMode.isReady, decide_eq_false_iff_not, not_lt]
  exact h.full.trans (hsound.duplicates_le h.granted)

lemma Clogged.step {event : Event} (h : n.Clogged x count) (hsound : n.Sound x)
    (hstays : event ≠ .switch .replica) (hstep : n.step x event = some n') :
    n'.history.accepted = n.history.accepted ∧ n'.Clogged x count := by
  have hmoves := step_moves hstep
  have haccepted : n'.history.accepted = n.history.accepted := by
    cases hmoves with
    | quiet hquiet => exact hquiet.accepted
    | switched mode => cases mode <;> rfl
    | received hinbox => rfl
    | finished hworking => rfl
    | accepted hpending hready hmode => exact absurd hmode (by simp [h.not_ready hsound])
    | reported hrx hquiet => exact hquiet.accepted.trans (hsound.untouched hrx).accepted
  refine ⟨haccepted, hmoves.counts hsound hstays h.counts, h.drains.step hsound hstep,
    h.granted.writes (step_writes hsound h.drains hstep), ?_⟩
  rw [duplicates, haccepted]
  exact h.full

lemma counts_switchMode (hfollows : n.coordinator.isPrimary = false)
    (hwaiting : n.coordinator.waiting = 0) :
    (n.switchMode .primary).coordinator.Counts n.coordinator.count := by
  have hmode : (n.switchMode .primary).coordinator.mode =
      .primary ⟨0, n.coordinator.count * blockedTxnMultiplier⟩ := by
    change n.coordinator.switchToPrimaryMode.mode = _
    unfold ExecutionCoordinator.switchToPrimaryMode
    unfold ExecutionCoordinator.isPrimary at hfollows
    split <;> simp_all
  rw [switchMode_coordinator, hmode]
  refine ⟨rfl, ?_⟩
  change _ = CoordinationMode.primary ⟨n.coordinator.waiting.card, _⟩
  rw [hwaiting]
  rfl

/-- Twice as many of them as there are executors stop a node that was made a primary while nothing
waited: whatever is sent to it and whatever its executors do, it accepts nothing any more. -/
theorem duplicates_stop_primary {t₀ : List (Traces.Entry Node Event)} {m : Node}
    (hstart : Fresh start) (h₀ : Run x start t₀ m) (hfollows : m.coordinator.isPrimary = false)
    (hwaiting : m.coordinator.waiting = 0) (h : Run x (m.switchMode .primary) t n)
    (hstays : ∀ entry ∈ t, entry.event ≠ .switch .replica)
    (hfull : n.coordinator.count * blockedTxnMultiplier ≤ n.duplicates x)
    (hlater : Run x n t' n') (hstays' : ∀ entry ∈ t', entry.event ≠ .switch .replica) :
    n'.history.accepted = n.history.accepted := by
  have hsound := (h₀.sound hstart.sound).switchMode .primary
  have hdrains : (m.switchMode .primary).Drains := fun _ _ =>
    m.coordinator.isPrimary_switchToPrimaryMode
  have hcounts : n.coordinator.Counts m.coordinator.count := by
    refine h.keeps (J := fun k => k.coordinator.Counts m.coordinator.count) hsound
      (counts_switchMode hfollows hwaiting) ?_
    intro entry hentry hbefore hone hJ
    exact (step_moves hone).counts hbefore (hstays entry hentry) hJ
  have hgranted : n.Granted x := by
    refine h.granted hsound hdrains (Granted.of_dispatched ?_ rfl)
    exact h₀.granted hstart.sound hstart.drains (.of_fresh hstart)
  have hdrains' : n.Drains := by
    refine h.keeps (J := Drains) hsound hdrains ?_
    intro entry hentry hbefore hone hJ
    exact hJ.step hbefore hone
  have hlast : n'.history.accepted = n.history.accepted ∧
      n'.Clogged x m.coordinator.count := by
    refine hlater.keeps (J := fun k => k.history.accepted = n.history.accepted ∧
      k.Clogged x m.coordinator.count) (h.sound hsound)
      ⟨rfl, hcounts, hdrains', hgranted, hcounts.executors ▸ hfull⟩ ?_
    rintro entry hentry hbefore hone ⟨haccepted, hclogged⟩
    obtain ⟨hsame, hafter⟩ := hclogged.step hbefore (hstays' entry hentry) hone
    exact ⟨hsame.trans haccepted, hafter⟩
  exact hlast.1

namespace Vectors

/-- The payer named a second time. -/
def doubled (payer : UInt8) : ProcessableTransaction := ⟨between payer payer, .execution, none⟩

def oneExecutor : Node := new 1 .empty (8, zeroHash) 8 none

lemma oneExecutor_fresh : Fresh oneExecutor := ⟨1, .empty, (8, zeroHash), 8, none, rfl⟩

end Vectors

theorem duplicates_stop_primary_doubled : ∃ t n t' n',
    Run Vectors.setup (Vectors.oneExecutor.switchMode .primary) t n ∧
    n.coordinator.count * blockedTxnMultiplier ≤ n.duplicates Vectors.setup ∧
    Run Vectors.setup n t' n' ∧
    n'.transactionsRx = [.transaction (Vectors.executed 3)] ∧
    n'.history.accepted = n.history.accepted := by
  obtain ⟨t, n, t', n', hrun, hevents, hrun', hevents', hfacts⟩ := exists_run_run
    (x := Vectors.setup) (n := Vectors.oneExecutor.switchMode .primary)
    (Vectors.send (.transaction (Vectors.doubled 1)) ++
      Vectors.send (.transaction (Vectors.doubled 2)))
    [.submit (.transaction (Vectors.executed 3))]
    (f := fun n n' => (n.coordinator.count, n.duplicates Vectors.setup, n'.transactionsRx))
    (v := (1, 2, [.transaction (Vectors.executed 3)])) (by decide +kernel)
  simp only [Prod.mk.injEq] at hfacts
  obtain ⟨hcount, hduplicates, hrx⟩ := hfacts
  have hfull : n.coordinator.count * blockedTxnMultiplier ≤ n.duplicates Vectors.setup := by
    rw [hcount, hduplicates]
    decide
  exact ⟨t, n, t', n', hrun, hfull, hrun', hrx, duplicates_stop_primary Vectors.oneExecutor_fresh
    .nil rfl (by decide) hrun
    (Traces.forall_of_events (P := fun event => event ≠ .switch .replica) hevents (by simp [Vectors.send]))
    hfull hrun'
    (Traces.forall_of_events (P := fun event => event ≠ .switch .replica) hevents' (by simp))⟩

end Node

end Blitz.Scheduler
