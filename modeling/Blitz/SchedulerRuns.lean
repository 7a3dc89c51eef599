import Blitz.SchedulerPlaces
import Blitz.SignedReceipt

/-! What holds in every run of the node: no two executors touch one account while one of them
writes it, and no transaction is lost or executed twice. -/
namespace Blitz.Scheduler
open LittleEndian Receipts Solana Validator WorkerPool

namespace ExecutionCoordinator
variable {c : ExecutionCoordinator} {b : ExecutorId} {txn : TransactionWithId}

/-- Everything in the queues. -/
def waiting (c : ExecutionCoordinator) : Multiset ProcessableTransaction :=
  pool c.count fun e => (c.blockedTransactions e).map TransactionWithId.txn

lemma map_update_queue (c : ExecutionCoordinator) (b : ExecutorId) (l : List TransactionWithId) :
    (fun e => (Function.update c.blockedTransactions b l e).map TransactionWithId.txn) =
      Function.update (fun e => (c.blockedTransactions e).map TransactionWithId.txn) b
        (l.map TransactionWithId.txn) := by
  funext e
  exact Function.apply_update (fun _ l => l.map TransactionWithId.txn) c.blockedTransactions b l e

lemma waiting_queueTransaction (txn : TransactionWithId) (hb : b < c.count) :
    (c.queueTransaction b txn).waiting = c.waiting + {txn.txn} := by
  rw [waiting, blockedTransactions_queueTransaction, map_update_queue, add_comm,
    Multiset.singleton_add]
  exact pool_push hb ((List.perm_orderedInsert _ _ _).map TransactionWithId.txn)

lemma waiting_nextBlockedTransaction {rest : List TransactionWithId} (hb : b < c.count)
    (hqueue : c.blockedTransactions b = txn :: rest) :
    c.waiting = (c.nextBlockedTransaction b).2.waiting + {txn.txn} := by
  rw [waiting, waiting, blockedTransactions_nextBlockedTransaction, map_update_queue, hqueue,
    List.tail_cons, add_comm, Multiset.singleton_add]
  exact pool_pop hb (by rw [hqueue, List.map_cons])

lemma blockedTransactions_nextBlockedTransaction_of_nil (hqueue : c.blockedTransactions b = []) :
    (c.nextBlockedTransaction b).2.blockedTransactions = c.blockedTransactions := by
  rw [blockedTransactions_nextBlockedTransaction, hqueue, List.tail_nil, ← hqueue,
    Function.update_eq_self]

end ExecutionCoordinator

namespace Node
variable {x : Setup} {n n' start : Node} {hand : List ExecutorId}
  {held held' : ExecutorId → List (Bytes 32 × Bool)} {e b : ExecutorId}
  {t : List (Traces.Entry Node Event)}

lemma Placed.accepting {rest : List ExecutorId} (h : n.Placed x [] held)
    (hready : n.coordinator.readyExecutors = e :: rest) (txn : ProcessableTransaction) :
    (n.accepting txn rest).Placed x [e] held :=
  (h.take hready).frame rfl rfl rfl rfl rfl rfl rfl

lemma Placed.handleReadyExecutor {rest : List ExecutorId} (h : n.Placed x [] held)
    (hrx : n.readyRx = e :: rest) :
    ∃ held', Rescheduled x e
      { n with readyRx := rest, coordinator := n.coordinator.unlockAccounts e }
      (Function.update held e []) e ({ n with readyRx := rest }.handleReadyExecutor x e) held' :=
  (h.report hrx).rescheduleBlocked (Nat.lt_succ_self _)

lemma Moves.placed {event : Event} (hmoves : Moves x n event n') (h : n.Placed x [] held) :
    ∃ held', n'.Placed x [] held' := by
  cases hmoves with
  | quiet hquiet => exact ⟨held, hquiet.placed h⟩
  | switched mode => exact ⟨held, h.switchMode mode⟩
  | received hinbox => exact ⟨held, h.receive hinbox⟩
  | finished hworking => exact ⟨held, h.finish hworking⟩
  | @accepted _ txn e rest hpending hready hmode hallowed hpermit =>
    have haccepting := h.accepting hready txn
    rcases haccepting.scheduleTransaction ⟨n.counter, txn⟩ with ⟨c, hrun, hlocks, hframe⟩ |
      ⟨b, hrun, -, -⟩
    · rw [hrun]
      exact ⟨_, haccepting.dispatch hlocks hframe⟩
    · rw [hrun]
      exact ⟨held, haccepting.release.queueTransaction b _⟩
  | reported hrx hquiet =>
    obtain ⟨held', hloop⟩ := h.handleReadyExecutor (x := x) hrx
    exact ⟨held', hquiet.placed (hloop.placed (h.report hrx))⟩

def queued (n : Node) : Multiset IndexedTransaction :=
  pool n.coordinator.count fun e => (n.inbox e).toList

def running (n : Node) : Multiset IndexedTransaction :=
  pool n.coordinator.count fun e => (n.working e).toList

/-- Where every transaction is, one of them possibly in the scheduler's hand. -/
structure Accounted (n : Node) (inHand : Multiset ProcessableTransaction) : Prop where
  accepted : (n.history.accepted : Multiset ProcessableTransaction) =
    n.coordinator.waiting + inHand + (n.history.dispatched.map IndexedTransaction.txn : List _)
  dispatched : (n.history.dispatched : Multiset IndexedTransaction) =
    n.queued + n.running + (n.history.finished : List _)

namespace Accounted

lemma of_quiet (h : n.Accounted 0) (hquiet : Quiet n n') : n'.Accounted 0 := by
  constructor
  · rw [hquiet.accepted, hquiet.dispatched, hquiet.coordinator]
    exact h.accepted
  · rw [hquiet.dispatched, hquiet.finished, queued, running, hquiet.inbox, hquiet.working,
      hquiet.coordinator]
    exact h.dispatched

lemma switchMode (h : n.Accounted 0) (mode : SchedulerMode) : (n.switchMode mode).Accounted 0 := by
  obtain ⟨hinbox, hworking, -, hhistory⟩ := n.switchMode_fields mode
  constructor
  · rw [hhistory, switchMode_coordinator]
    exact h.accepted
  · rw [hhistory, queued, running, hinbox, hworking, switchMode_coordinator]
    exact h.dispatched

lemma pop {txn : TransactionWithId} {rest : List TransactionWithId} (h : n.Accounted 0)
    (hb : b < n.coordinator.count) (hqueue : n.coordinator.blockedTransactions b = txn :: rest) :
    Accounted { n with coordinator := (n.coordinator.nextBlockedTransaction b).2 } {txn.txn} where
  accepted := by
    rw [h.accepted, ExecutionCoordinator.waiting_nextBlockedTransaction hb hqueue, add_zero]
  dispatched := h.dispatched

lemma queue (txn : TransactionWithId) (h : n.Accounted {txn.txn}) (hb : b < n.coordinator.count) :
    Accounted { n with coordinator := n.coordinator.queueTransaction b txn } 0 where
  accepted := by
    rw [ExecutionCoordinator.waiting_queueTransaction txn hb, add_zero]
    exact h.accepted
  dispatched := h.dispatched

lemma dispatch {c : ExecutionCoordinator} {txn : ProcessableTransaction} (h : n.Accounted {txn})
    (hplaced : n.Placed x [e] held)
    (hframe : c = { n.coordinator with locks := c.locks, acquiredLocks := c.acquiredLocks }) :
    Accounted ({ n with coordinator := c }.dispatch x e txn) 0 := by
  have hinbox : n.inbox e = none := hplaced.inbox_eq_none (by simp)
  have he : e < n.coordinator.count := hplaced.lt e (by simp)
  have hwaiting : c.waiting = n.coordinator.waiting := by
    rw [hframe]
    rfl
  have hcount : c.count = n.coordinator.count := by rw [hframe]
  constructor
  · change _ = c.waiting + 0 + (((n.history.dispatched ++ [_]).map IndexedTransaction.txn : List _) :
      Multiset ProcessableTransaction)
    rw [hwaiting, add_zero, List.map_append, ← Multiset.coe_add, ← add_assoc]
    exact h.accepted.trans (add_right_comm _ _ _)
  · have hqueued : ({ n with coordinator := c }.dispatch x e txn).queued =
        ⟨(n.position txn.mode).1, (n.position txn.mode).2, txn⟩ ::ₘ n.queued := by
      have hboxes : (fun i => (({ n with coordinator := c }.dispatch x e txn).inbox i).toList) =
          Function.update (fun i => (n.inbox i).toList) e
            [⟨(n.position txn.mode).1, (n.position txn.mode).2, txn⟩] := by
        funext i
        by_cases hi : i = e
        · subst hi
          simp [Node.dispatch, hinbox, position]
        · simp [Node.dispatch, hinbox, hi]
      rw [queued, hboxes]
      change pool c.count _ = _
      rw [hcount]
      exact pool_push he (by simp [hinbox])
    have hrunning : ({ n with coordinator := c }.dispatch x e txn).running = n.running := by
      rw [running, running]
      change pool c.count _ = _
      rw [hcount]
      rfl
    rw [hqueued, hrunning]
    change ((n.history.dispatched ++ [_] : List _) : Multiset IndexedTransaction) =
      _ + (n.history.finished : Multiset IndexedTransaction)
    rw [← Multiset.coe_add, h.dispatched, Multiset.cons_add, Multiset.cons_add, add_comm]
    rfl

lemma receive {txn : IndexedTransaction} {inHand : Multiset ProcessableTransaction}
    (h : n.Accounted inHand) (hplaced : n.Placed x hand held) (hinbox : n.inbox e = some txn) :
    Accounted
      { n with
        inbox := Function.update n.inbox e none
        working := Function.update n.working e (some txn) } inHand := by
  have hsome : (n.inbox e).isSome := Option.isSome_iff_exists.mpr ⟨txn, hinbox⟩
  have he : e < n.coordinator.count := ((hplaced.busy_iff e).mp (.inl hsome)).1
  have hworking : n.working e = none := (hplaced.inbox_alone e hsome).1
  refine ⟨h.accepted, h.dispatched.trans ?_⟩
  have hqueued : n.queued = txn ::ₘ
      pool n.coordinator.count fun i => (Function.update n.inbox e none i).toList := by
    have hboxes : (fun i => (Function.update n.inbox e none i).toList) =
        Function.update (fun i => (n.inbox i).toList) e [] := by
      funext i
      exact Function.apply_update (fun _ o => Option.toList o) n.inbox e none i
    rw [hboxes]
    exact pool_pop he (by rw [hinbox, Option.toList_some])
  have hrunning : (pool n.coordinator.count fun i =>
      (Function.update n.working e (some txn) i).toList) = txn ::ₘ n.running := by
    have hboxes : (fun i => (Function.update n.working e (some txn) i).toList) =
        Function.update (fun i => (n.working i).toList) e [txn] := by
      funext i
      exact Function.apply_update (fun _ o => Option.toList o) n.working e (some txn) i
    rw [hboxes]
    exact pool_push he (by simp [hworking])
  change _ = (pool n.coordinator.count fun i => (Function.update n.inbox e none i).toList) +
    (pool n.coordinator.count fun i => (Function.update n.working e (some txn) i).toList) + _
  rw [hrunning, hqueued, Multiset.cons_add, Multiset.add_cons]

lemma finish {txn : IndexedTransaction} {failed : Bool} {filing : Filing}
    {inHand : Multiset ProcessableTransaction} (h : n.Accounted inHand)
    (hplaced : n.Placed x hand held) (hworking : n.working e = some txn) :
    (n.finish x e failed filing txn).Accounted inHand := by
  have hsome : (n.working e).isSome := Option.isSome_iff_exists.mpr ⟨txn, hworking⟩
  have he : e < n.coordinator.count := ((hplaced.busy_iff e).mp (.inr (.inl hsome))).1
  refine ⟨h.accepted, h.dispatched.trans ?_⟩
  have hrunning : n.running = txn ::ₘ (n.finish x e failed filing txn).running := by
    have hboxes : (fun i => ((n.finish x e failed filing txn).working i).toList) =
        Function.update (fun i => (n.working i).toList) e [] := by
      funext i
      exact Function.apply_update (fun _ o => Option.toList o) n.working e none i
    rw [running, running, hboxes]
    exact pool_pop he (by rw [hworking, Option.toList_some])
  have hfinished : (n.finish x e failed filing txn).history.finished = n.history.finished ++ [txn] := by
    simp [Node.finish, History.finished]
  rw [hrunning, hfinished]
  change _ = n.queued + _ + _
  rw [← Multiset.coe_add, Multiset.add_cons, Multiset.cons_add, ← add_assoc, Multiset.coe_singleton,
    add_comm _ ({txn} : Multiset IndexedTransaction), Multiset.singleton_add]

end Accounted

lemma Placed.blocker_lt {claims : List (Bytes 32 × Bool)} (h : n.Placed x [e] held)
    (hclash : b ≠ e → Clash claims (held b)) : b < n.coordinator.count := by
  by_cases hb : b = e
  · subst hb
    exact h.lt b (by simp)
  · exact ((h.busy_iff b).mp (h.busy_of_clash (hclash hb))).1

lemma Rescheduled.accounted (h : Rescheduled x b n held e n' held') (hb : b < n.coordinator.count)
    (hplaced : n.Placed x [e] held) (haccounted : n.Accounted 0) : n'.Accounted 0 := by
  induction h with
  | empty hqueue =>
    refine ⟨?_, haccounted.dispatched⟩
    rw [haccounted.accepted, ExecutionCoordinator.waiting, ExecutionCoordinator.waiting,
      ExecutionCoordinator.blockedTransactions_releaseExecutor,
      ExecutionCoordinator.blockedTransactions_nextBlockedTransaction_of_nil hqueue]
    rfl
  | stuck hqueue hclash hself =>
    have hqueued := (haccounted.pop hb hqueue).queue _ (b := b) hb
    exact ⟨hqueued.accepted, hqueued.dispatched⟩
  | requeued hqueue hne hclash hself hnext ih =>
    have hpopped := hplaced.nextBlockedTransaction b
    exact ih hb (hpopped.queueTransaction _ _)
      ((haccounted.pop hb hqueue).queue _ (hplaced.blocker_lt hclash))
  | last hqueue hlocks hframe hready =>
    exact (haccounted.pop hb hqueue).dispatch (hplaced.nextBlockedTransaction b) hframe
  | @next n n' held held' e e' txn rest ready c hqueue hlocks hframe hready hnext ih =>
    have hpopped := hplaced.nextBlockedTransaction b
    have hcready : c.readyExecutors = e' :: ready := by
      rw [hframe]
      exact hready
    have hcount : c.count = n.coordinator.count := by rw [hframe]; rfl
    have hdispatched := (haccounted.pop hb hqueue).dispatch (x := x) hpopped hframe
    refine ih ?_ ((hpopped.dispatch hlocks hframe).take hcready) ⟨hdispatched.accepted, hdispatched.dispatched⟩
    change b < c.count
    rw [hcount]
    exact hb

lemma Moves.accounted {event : Event} (hmoves : Moves x n event n') (h : n.Placed x [] held)
    (haccounted : n.Accounted 0) : n'.Accounted 0 := by
  cases hmoves with
  | quiet hquiet => exact haccounted.of_quiet hquiet
  | switched mode => exact haccounted.switchMode mode
  | received hinbox => exact haccounted.receive h hinbox
  | finished hworking => exact haccounted.finish h hworking
  | @accepted _ txn e rest hpending hready hmode hallowed hpermit =>
    have haccepting := h.accepting hready txn
    have hhand : (n.accepting txn rest).Accounted {txn} := by
      refine ⟨?_, haccounted.dispatched⟩
      change ((n.history.accepted ++ [txn] : List _) : Multiset ProcessableTransaction) =
        n.coordinator.waiting + {txn} + _
      rw [← Multiset.coe_add, haccounted.accepted, add_zero]
      exact add_right_comm _ _ _
    rcases haccepting.scheduleTransaction ⟨n.counter, txn⟩ with ⟨c, hrun, hlocks, hframe⟩ |
      ⟨b, hrun, hclash, -⟩
    · rw [hrun]
      exact hhand.dispatch haccepting hframe
    · rw [hrun]
      have hqueued := hhand.queue ⟨n.counter, txn⟩ (haccepting.blocker_lt hclash)
      exact ⟨hqueued.accepted, hqueued.dispatched⟩
  | @reported e rest n' hrx hquiet =>
    obtain ⟨held', hloop⟩ := h.handleReadyExecutor (x := x) hrx
    have hplaced := h.report hrx
    refine Accounted.of_quiet (hloop.accounted (hplaced.lt e (by simp)) hplaced ?_) hquiet
    exact ⟨haccounted.accepted, haccounted.dispatched⟩

/-- Every executor is in its place, and every transaction with it. -/
def Sound (x : Setup) (n : Node) : Prop := (∃ held, n.Placed x [] held) ∧ n.Accounted 0

lemma Fresh.sound (h : Fresh start) : start.Sound x := by
  obtain ⟨executors, ledger, latestBlock, accountsdbSlot, slotHashes, rfl⟩ := h
  exact ⟨⟨_, .new⟩,
    by simp [new, History.empty, ExecutionCoordinator.waiting, ExecutionCoordinator.new],
    by simp [new, History.empty, queued, running, History.finished]⟩

lemma Accounted.mem_dispatched {inHand : Multiset ProcessableTransaction} (h : n.Accounted inHand)
    {txn : IndexedTransaction} (hmem : txn ∈ n.history.finished) : txn ∈ n.history.dispatched := by
  rw [← Multiset.mem_coe, h.dispatched]
  exact Multiset.mem_add.mpr (.inr (Multiset.mem_coe.mpr hmem))

lemma Accounted.dispatched_accepted {inHand : Multiset ProcessableTransaction}
    (h : n.Accounted inHand) {txn : IndexedTransaction} (hmem : txn ∈ n.history.dispatched) :
    txn.txn ∈ n.history.accepted := by
  rw [← Multiset.mem_coe, h.accepted]
  exact Multiset.mem_add.mpr (.inr (Multiset.mem_coe.mpr (List.mem_map_of_mem hmem)))

lemma Sound.switchMode (h : n.Sound x) (mode : SchedulerMode) : (n.switchMode mode).Sound x := by
  obtain ⟨⟨held, hplaced⟩, haccounted⟩ := h
  exact ⟨⟨held, hplaced.switchMode mode⟩, haccounted.switchMode mode⟩

lemma Sound.step {event : Event} (h : n.Sound x) (hstep : n.step x event = some n') :
    n'.Sound x := by
  obtain ⟨⟨held, hplaced⟩, haccounted⟩ := h
  have hmoves := step_moves hstep
  exact ⟨hmoves.placed hplaced, hmoves.accounted hplaced haccounted⟩

lemma Run.sound (h : Run x start t n) (hstart : start.Sound x) : n.Sound x :=
  h.invariant hstart fun _ _ hstep hsound => hsound.step hstep

theorem Run.keeps {J : Node → Prop} (h : Run x start t n) (hstart : start.Sound x) (h0 : J start)
    (hstep : ∀ entry ∈ t, entry.before.Sound x →
      entry.before.step x entry.event = some entry.after → J entry.before → J entry.after) :
    J n := by
  have hboth : n.Sound x ∧ J n := by
    refine h.invariant (I := fun n => n.Sound x ∧ J n) ⟨hstart, h0⟩ ?_
    rintro entry hmem hone ⟨hsound, hJ⟩
    exact ⟨hsound.step hone, hstep entry hmem hsound hone hJ⟩
  exact hboth.2

def play (x : Setup) (n : Node) (events : List Event) : Option Node :=
  Traces.play (fun n event => n.step x event) n events

lemma exists_run {α : Type*} {f : Node → α} {v : α} (events : List Event)
    (h : (n.play x events).map f = some v) :
    ∃ t n', Run x n t n' ∧ t.map Traces.Entry.event = events ∧ f n' = v :=
  Traces.exists_trace h

lemma exists_run_run {α : Type*} {f : Node → Node → α} {v : α} (events events' : List Event)
    (h : ((n.play x events).bind fun m => (m.play x events').map (f m)) = some v) :
    ∃ t m t' n', Run x n t m ∧ t.map Traces.Entry.event = events ∧ Run x m t' n' ∧
      t'.map Traces.Entry.event = events' ∧ f m n' = v := by
  obtain ⟨m, hplay, hrest⟩ := Option.bind_eq_some_iff.mp h
  obtain ⟨t, hrun, hevents⟩ := Traces.trace_of_play hplay
  obtain ⟨t', n', hrun', hevents', hv⟩ := exists_run events' hrest
  exact ⟨t, m, t', n', hrun, hevents, hrun', hevents', hv⟩

namespace Vectors

/-- A transaction of two accounts, of which the payer's is written. -/
def between (payer other : UInt8) : SanitizedTransaction where
  versioned :=
    { signatures := ⟨[Bytes.fill 64 payer], by simp⟩
      message := .legacy
        { header := ⟨1, 0, 1⟩
          accountKeys := ⟨[Bytes.fill 32 payer, Bytes.fill 32 other], by simp⟩
          recentBlockhash := zeroHash
          instructions := ⟨[], by decide⟩ }
        (show (1 : UInt8) < 0x80 by decide) }
  signed := by simp
  paid := by simp [VersionedMessage.staticAccountKeys, VersionedMessage.message]

def payment (payer : UInt8) : SanitizedTransaction := between payer 0xff

def executed (payer : UInt8) : ProcessableTransaction :=
  ⟨payment payer, .execution, some (Bincode.solana.serialize (payment payer).versioned)⟩

/-- A primary with replicas that makes a snapshot at every tenth slot. -/
def setup : Setup where
  crypto := Receipts.recorded zeroHash zeroHash [] []
    [(zeroHash.val ++ (payment 1).signature.val ++ (payment 2).signature.val, Bytes.fill 32 7)]
  bincode := .solana
  isWritable _ index := index = 0
  superblockSize := 10
  replicationTx := true

def twoExecutors : Node := new 2 .empty (8, zeroHash) 8 none

lemma twoExecutors_fresh : Fresh twoExecutors := ⟨2, .empty, (8, zeroHash), 8, none, rfl⟩

def outside : Outside := ⟨1754300123, .ok (), some 0⟩

/-- A transaction sent and taken up by the scheduler. -/
def send (command : SchedulerCommand) : List Event := [.submit command, .take, .process outside]

/-- An executor takes its transaction, executes it and is heard of. -/
def complete (executor : ExecutorId) : List Event :=
  [.receive executor, .finish executor false .whole, .ready]

def twoPayments : List Event :=
  .switch .primary :: send (.transaction (executed 1)) ++ send (.transaction (executed 2))

end Vectors

/-- Two transactions with different executors never meet on an account that one of them
writes, whether they are on their way or under way. -/
theorem assigned_exclusive (hstart : Fresh start) (h : Run x start t n) {e e' : ExecutorId}
    (hne : e ≠ e') {txn txn' : IndexedTransaction}
    (hassigned : n.inbox e = some txn ∨ n.working e = some txn)
    (hassigned' : n.inbox e' = some txn' ∨ n.working e' = some txn') :
    ¬Clash (txn.txn.claims x.isWritable) (txn'.txn.claims x.isWritable) := by
  obtain ⟨held, hplaced⟩ := (h.sound hstart.sound).1
  rw [← hplaced.carried e txn hassigned, ← hplaced.carried e' txn' hassigned']
  exact hplaced.locks.exclusive e e' hne

theorem assigned_exclusive_twoPayments : ∃ t n, Run Vectors.setup Vectors.twoExecutors t n ∧
    n.inbox 1 = some ⟨9, 0, Vectors.executed 1⟩ ∧ n.inbox 0 = some ⟨9, 1, Vectors.executed 2⟩ ∧
    ¬Clash ((Vectors.executed 1).claims Vectors.setup.isWritable)
      ((Vectors.executed 2).claims Vectors.setup.isWritable) := by
  obtain ⟨t, n, hrun, -, hboxes⟩ := exists_run (x := Vectors.setup) (n := Vectors.twoExecutors)
    (f := fun n => (n.inbox 1, n.inbox 0)) Vectors.twoPayments
    (v := (some ⟨9, 0, Vectors.executed 1⟩, some ⟨9, 1, Vectors.executed 2⟩)) (by decide +kernel)
  obtain ⟨hfirst, hsecond⟩ := Prod.mk.inj hboxes
  exact ⟨t, n, hrun, hfirst, hsecond, assigned_exclusive Vectors.twoExecutors_fresh hrun (by decide)
    (.inl hfirst) (.inl hsecond)⟩

/-- Every accepted transaction waits in one queue, is on its way to one executor, is with one,
or has been executed once. -/
theorem accepted_accounted (hstart : Fresh start) (h : Run x start t n) :
    (n.history.accepted : Multiset ProcessableTransaction) =
      n.coordinator.waiting +
        (n.queued + n.running + (n.history.finished : List _)).map IndexedTransaction.txn := by
  have haccounted := (h.sound hstart.sound).2
  rw [haccounted.accepted, add_zero, ← haccounted.dispatched, Multiset.map_coe]

theorem accepted_accounted_twoPayments : ∃ t n, Run Vectors.setup Vectors.twoExecutors t n ∧
    n.history.accepted = [Vectors.executed 1, Vectors.executed 2] ∧
    n.history.finished = [⟨9, 0, Vectors.executed 1⟩] ∧
    (n.history.accepted : Multiset ProcessableTransaction) =
      n.coordinator.waiting +
        (n.queued + n.running + (n.history.finished : List _)).map IndexedTransaction.txn := by
  obtain ⟨t, n, hrun, -, hfacts⟩ := exists_run (x := Vectors.setup) (n := Vectors.twoExecutors)
    (Vectors.twoPayments ++ Vectors.complete 1)
    (f := fun n => (n.history.accepted, n.history.finished))
    (v := ([Vectors.executed 1, Vectors.executed 2], [⟨9, 0, Vectors.executed 1⟩]))
    (by decide +kernel)
  obtain ⟨haccepted, hfinished⟩ := Prod.mk.inj hfacts
  exact ⟨t, n, hrun, haccepted, hfinished, accepted_accounted Vectors.twoExecutors_fresh hrun⟩

end Node

end Blitz.Scheduler
