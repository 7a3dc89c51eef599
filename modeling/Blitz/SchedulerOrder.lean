import Blitz.SchedulerDrain

/-! A node that follows another one starts transactions in the order they came, and a command
that closes a block waits for all the transactions before it. -/
namespace Blitz.Scheduler
open LittleEndian Solana Validator WorkerPool

def SchedulerCommand.txn : SchedulerCommand → Option ProcessableTransaction
  | .transaction txn => some txn
  | _ => none

namespace Node
variable {x : Setup} {n n' start : Node} {held held' : ExecutorId → List (Bytes 32 × Bool)}
  {e b : ExecutorId} {t : List (Traces.Entry Node Event)}

/-- All queues, where at most one transaction waits. -/
def lone : Option (ExecutorId × TransactionWithId) → ExecutorId → List TransactionWithId
  | none => fun _ => []
  | some w => Function.update (fun _ => []) w.1 [w.2]

/-- At most one transaction waits, the last one that came. The scheduler may have one in its
hand instead. -/
structure InOrder (n : Node) (waits : Option (ExecutorId × TransactionWithId))
    (inHand : List ProcessableTransaction) : Prop where
  mode : n.coordinator.mode = .startingUp ⟨waits.map fun w => w.2.id⟩ ∨
    n.coordinator.mode = .replica ⟨waits.map fun w => w.2.id⟩
  queues : n.coordinator.blockedTransactions = lone waits
  accepted : n.history.accepted = n.history.dispatched.map IndexedTransaction.txn ++ inHand ++
    waits.toList.map fun w => w.2.txn

namespace InOrder
variable {waits : Option (ExecutorId × TransactionWithId)} {inHand : List ProcessableTransaction}

lemma waits_eq {txn : TransactionWithId} {rest : List TransactionWithId}
    (h : n.InOrder waits inHand) (hqueue : n.coordinator.blockedTransactions b = txn :: rest) :
    waits = some (b, txn) := by
  rw [h.queues] at hqueue
  cases waits with
  | none => cases hqueue
  | some w =>
    by_cases hb : b = w.1
    · subst hb
      simp only [lone, Function.update_self, List.cons.injEq] at hqueue
      rw [← hqueue.1]
    · simp [lone, hb] at hqueue

lemma pop {txn : TransactionWithId} (h : n.InOrder (some (b, txn)) []) :
    InOrder { n with coordinator := (n.coordinator.nextBlockedTransaction b).2 } none [txn.txn] where
  mode := by
    have hqueue : n.coordinator.blockedTransactions b = [txn] := by simp [h.queues, lone]
    rcases h.mode with hmode | hmode
    · left
      simp [ExecutionCoordinator.nextBlockedTransaction, hmode, hqueue]
    · right
      simp [ExecutionCoordinator.nextBlockedTransaction, hmode, hqueue]
  queues := by
    funext i
    by_cases hi : i = b
    · subst hi
      simp [h.queues, lone]
    · simp [h.queues, lone, hi]
  accepted := by simpa using h.accepted

lemma pop_nil (h : n.InOrder waits inHand) (hqueue : n.coordinator.blockedTransactions b = []) :
    InOrder { n with coordinator := (n.coordinator.nextBlockedTransaction b).2 } waits inHand where
  mode := by
    rcases h.mode with hmode | hmode
    · left
      simp only [ExecutionCoordinator.nextBlockedTransaction, hmode, hqueue]
      cases waits <;> simp
    · right
      simp only [ExecutionCoordinator.nextBlockedTransaction, hmode, hqueue]
      cases waits <;> simp
  queues := by
    rw [ExecutionCoordinator.blockedTransactions_nextBlockedTransaction_of_nil hqueue]
    exact h.queues
  accepted := h.accepted

lemma queue (txn : TransactionWithId) (h : n.InOrder none [txn.txn]) (b : ExecutorId) :
    InOrder { n with coordinator := n.coordinator.queueTransaction b txn } (some (b, txn)) [] where
  mode := by
    rcases h.mode with hmode | hmode
    · left
      simp [ExecutionCoordinator.queueTransaction, hmode]
    · right
      simp [ExecutionCoordinator.queueTransaction, hmode]
  queues := by
    rw [ExecutionCoordinator.blockedTransactions_queueTransaction, h.queues]
    rfl
  accepted := by simpa using h.accepted

lemma frame (h : n.InOrder waits inHand) (hmode : n'.coordinator.mode = n.coordinator.mode)
    (hqueues : n'.coordinator.blockedTransactions = n.coordinator.blockedTransactions)
    (haccepted : n'.history.accepted = n.history.accepted)
    (hdispatched : n'.history.dispatched = n.history.dispatched) : n'.InOrder waits inHand where
  mode := by
    rw [hmode]
    exact h.mode
  queues := by
    rw [hqueues]
    exact h.queues
  accepted := by
    rw [haccepted, hdispatched]
    exact h.accepted

lemma dispatch {c : ExecutionCoordinator} {txn : ProcessableTransaction} (h : n.InOrder none [txn])
    (hframe : c = { n.coordinator with locks := c.locks, acquiredLocks := c.acquiredLocks }) :
    InOrder ({ n with coordinator := c }.dispatch x e txn) none [] where
  mode := by
    change c.mode = _ ∨ c.mode = _
    rw [hframe]
    exact h.mode
  queues := by
    change c.blockedTransactions = _
    rw [hframe]
    exact h.queues
  accepted := by
    change n.history.accepted = (n.history.dispatched ++ [_]).map IndexedTransaction.txn ++ [] ++ []
    simpa using h.accepted

end InOrder

lemma Rescheduled.inOrder (h : Rescheduled x b n held e n' held')
    (hin : ∃ waits, n.InOrder waits []) : ∃ waits, n'.InOrder waits [] := by
  induction h with
  | empty hqueue =>
    obtain ⟨waits, hin⟩ := hin
    exact ⟨waits, (hin.pop_nil hqueue).frame rfl rfl rfl rfl⟩
  | stuck hqueue hclash hself =>
    obtain ⟨waits, hin⟩ := hin
    obtain rfl := hin.waits_eq hqueue
    exact ⟨_, (hin.pop.queue _ b).frame rfl rfl rfl rfl⟩
  | requeued hqueue hne hclash hself hnext ih =>
    obtain ⟨waits, hin⟩ := hin
    obtain rfl := hin.waits_eq hqueue
    exact ih ⟨_, hin.pop.queue _ _⟩
  | last hqueue hlocks hframe hready =>
    obtain ⟨waits, hin⟩ := hin
    obtain rfl := hin.waits_eq hqueue
    exact ⟨none, hin.pop.dispatch hframe⟩
  | @next n n' held held' e e' txn rest ready c hqueue hlocks hframe hready hnext ih =>
    obtain ⟨waits, hin⟩ := hin
    obtain rfl := hin.waits_eq hqueue
    have hdispatched := hin.pop.dispatch (x := x) (e := e) hframe
    exact ih ⟨none, hdispatched.frame rfl rfl rfl rfl⟩

lemma InOrder.waits_eq_none {waits : Option (ExecutorId × TransactionWithId)}
    {inHand : List ProcessableTransaction} (h : n.InOrder waits inHand)
    (hready : n.coordinator.mode.isReady) : waits = none := by
  cases waits with
  | none => rfl
  | some w => rcases h.mode with hmode | hmode <;> simp [hmode, CoordinationMode.isReady] at hready

lemma Moves.inOrder {event : Event} (hmoves : Moves x n event n') (hsound : n.Sound x)
    (hfollows : event ≠ .switch .primary) (hin : ∃ waits, n.InOrder waits []) :
    ∃ waits, n'.InOrder waits [] := by
  obtain ⟨⟨held, hplaced⟩, -⟩ := hsound
  obtain ⟨waits, hin⟩ := hin
  cases hmoves with
  | quiet hquiet =>
    refine ⟨waits, hin.frame ?_ ?_ hquiet.accepted hquiet.dispatched⟩
    · rw [hquiet.coordinator]
    · rw [hquiet.coordinator]
  | switched mode =>
    cases mode with
    | primary => exact absurd rfl hfollows
    | replica =>
      refine ⟨waits, ?_, ?_, hin.accepted⟩
      · right
        simp only [Node.switchMode, resyncFromLedger, reconstructInprogressHasher,
          ExecutionCoordinator.switchToReplicaMode]
        rcases hin.mode with hmode | hmode <;> simp [hmode]
      · rw [switchMode_coordinator]
        exact hin.queues
  | received hinbox => exact ⟨waits, hin.frame rfl rfl rfl rfl⟩
  | finished hworking => exact ⟨waits, hin.frame rfl rfl rfl rfl⟩
  | @accepted _ txn e rest hpending hready hmode hallowed hpermit =>
    obtain rfl := hin.waits_eq_none hmode
    have hhand : (n.accepting txn rest).InOrder none [txn] := by
      refine ⟨hin.mode, hin.queues, ?_⟩
      change n.history.accepted ++ [txn] = n.history.dispatched.map IndexedTransaction.txn ++ _ ++ _
      simpa using hin.accepted
    rcases (hplaced.accepting hready txn).scheduleTransaction ⟨n.counter, txn⟩ with
      ⟨c, hrun, hlocks, hframe⟩ | ⟨b, hrun, -, -⟩
    · rw [hrun]
      exact ⟨none, hhand.dispatch hframe⟩
    · rw [hrun]
      exact ⟨_, (hhand.queue ⟨n.counter, txn⟩ b).frame rfl rfl rfl rfl⟩
  | reported hrx hquiet =>
    obtain ⟨held', hloop⟩ := hplaced.handleReadyExecutor (x := x) hrx
    obtain ⟨waits', hin'⟩ := hloop.inOrder ⟨waits, hin.frame rfl rfl rfl rfl⟩
    refine ⟨waits', hin'.frame ?_ ?_ hquiet.accepted hquiet.dispatched⟩
    · rw [hquiet.coordinator]
    · rw [hquiet.coordinator]

lemma Run.inOrder (hstart : Fresh start) (h : Run x start t n)
    (hfollows : ∀ entry ∈ t, entry.event ≠ .switch .primary) : ∃ waits, n.InOrder waits [] := by
  refine h.keeps (J := fun n => ∃ waits, n.InOrder waits []) hstart.sound ?_
    fun entry hentry hsound hstep hin =>
      (step_moves hstep).inOrder hsound (hfollows entry hentry) hin
  obtain ⟨executors, ledger, latestBlock, accountsdbSlot, slotHashes, rfl⟩ := hstart
  exact ⟨none, .inl rfl, rfl, rfl⟩

/-- A node that has never been a primary hands transactions to its executors in the order it
accepted them, and holds back at most the last one. -/
theorem dispatched_in_order (hstart : Fresh start) (h : Run x start t n)
    (hfollows : ∀ entry ∈ t, entry.event ≠ .switch .primary) :
    n.history.dispatched.map IndexedTransaction.txn <+: n.history.accepted ∧
      n.history.accepted.length ≤ n.history.dispatched.length + 1 := by
  obtain ⟨waits, hin⟩ := h.inOrder hstart hfollows
  rw [hin.accepted, List.append_nil]
  refine ⟨List.prefix_append _ _, ?_⟩
  cases waits <;> simp

namespace Vectors

def replayed (payer : UInt8) (index : UInt32) : ProcessableTransaction :=
  ⟨payment payer, .replay ⟨9, index, true⟩,
    some (Bincode.solana.serialize (payment payer).versioned)⟩

end Vectors

theorem dispatched_in_order_replayed : ∃ t n, Run Vectors.setup Vectors.twoExecutors t n ∧
    n.history.accepted = [Vectors.replayed 1 0, Vectors.replayed 1 1] ∧
    n.history.dispatched = [⟨9, 0, Vectors.replayed 1 0⟩] ∧
    n.history.dispatched.map IndexedTransaction.txn <+: n.history.accepted ∧
      n.history.accepted.length ≤ n.history.dispatched.length + 1 := by
  obtain ⟨t, n, hrun, hevents, hfacts⟩ := exists_run (x := Vectors.setup)
    (n := Vectors.twoExecutors)
    (Vectors.send (.transaction (Vectors.replayed 1 0)) ++
      Vectors.send (.transaction (Vectors.replayed 1 1)))
    (f := fun n => (n.history.accepted, n.history.dispatched))
    (v := ([Vectors.replayed 1 0, Vectors.replayed 1 1], [⟨9, 0, Vectors.replayed 1 0⟩]))
    (by decide +kernel)
  obtain ⟨haccepted, hdispatched⟩ := Prod.mk.inj hfacts
  exact ⟨t, n, hrun, haccepted, hdispatched, dispatched_in_order Vectors.twoExecutors_fresh hrun
    (Traces.forall_of_events (P := fun event => event ≠ .switch .primary) hevents
      (by simp [Vectors.send]))⟩

def Event.submission : Event → Option SchedulerCommand
  | .submit command => some command
  | _ => none

/-- The commands sent so far, in the order the scheduler gets to them. -/
def commands (n : Node) : List SchedulerCommand :=
  n.history.handled ++ n.pendingCommand.toList ++ n.transactionsRx

/-- The transactions among the commands dealt with. -/
def Tallied (n : Node) : Prop :=
  ((n.history.handled.filterMap SchedulerCommand.txn : List _) : Multiset ProcessableTransaction) =
    (n.history.accepted : List _) + (n.history.dropped : List _)

/-- No command is sent, taken or dealt with. -/
structure SameCommands (n n' : Node) : Prop where
  transactionsRx : n'.transactionsRx = n.transactionsRx
  pendingCommand : n'.pendingCommand = n.pendingCommand
  handled : n'.history.handled = n.history.handled
  accepted : n'.history.accepted = n.history.accepted
  dropped : n'.history.dropped = n.history.dropped

lemma SameCommands.commands (h : SameCommands n n') : n'.commands = n.commands := by
  rw [Node.commands, Node.commands, h.handled, h.pendingCommand, h.transactionsRx]

lemma SameCommands.tallied (h : SameCommands n n') (htallied : n.Tallied) : n'.Tallied := by
  rw [Tallied, h.handled, h.accepted, h.dropped]
  exact htallied

lemma Untouched.sameCommands (h : Untouched n n') : SameCommands n n' := by
  constructor
  all_goals rw [h]

lemma Timekeeping.sameCommands (h : Timekeeping n n') : SameCommands n n' := by
  unfold Timekeeping at h
  constructor
  all_goals rw [h]

lemma SameCommands.step {event : Event} (h : SameCommands n n') (hsubmission : event.submission = none) :
    n'.commands = n.commands ++ event.submission.toList ∧ (n.Tallied → n'.Tallied) := by
  rw [hsubmission, Option.toList_none, List.append_nil]
  exact ⟨h.commands, h.tallied⟩

lemma scheduleTransaction_untouched (x : Setup) (n : Node) (e : ExecutorId)
    (txn : TransactionWithId) : Untouched n (n.scheduleTransaction x e txn).2 := by
  unfold scheduleTransaction
  split <;> rfl

lemma step_commands {event : Event} (hsound : n.Sound x) (hstep : n.step x event = some n') :
    n'.commands = n.commands ++ event.submission.toList ∧ (n.Tallied → n'.Tallied) := by
  obtain ⟨⟨held, hplaced⟩, -⟩ := hsound
  cases step_steps hstep with
  | submitted command => exact ⟨by simp [commands, Event.submission], id⟩
  | dropped hlooping hpending hrefused =>
    refine ⟨by simp [commands, hpending, Event.submission], ?_⟩
    intro htallied
    unfold Tallied at htallied ⊢
    simp only [List.filterMap_append, List.filterMap_cons, SchedulerCommand.txn, List.filterMap_nil,
      ← Multiset.coe_add, htallied, add_assoc]
  | @accepted out txn e rest hlooping hpending hready hmode hallowed hpermit =>
    have hsame := (scheduleTransaction_untouched x (n.accepting txn rest) e
      ⟨n.counter, txn⟩).sameCommands
    refine ⟨?_, fun htallied => hsame.tallied ?_⟩
    · rw [hsame.commands]
      simp [commands, accepting, hpending, Event.submission]
    · unfold Tallied at htallied ⊢
      simp only [accepting, List.filterMap_append, List.filterMap_cons, SchedulerCommand.txn,
        List.filterMap_nil, ← Multiset.coe_add, htallied]
      exact add_right_comm _ _ _
  | @block out block answer n' hlooping hpending hidle hanswer =>
    have hsame := (Timekeeping.applyReplayedBlock hanswer).sameCommands
    refine ⟨?_, fun htallied => ?_⟩
    · refine hsame.commands.trans ?_
      simp [commands, handled, hpending, Event.submission]
    · refine hsame.tallied ?_
      unfold Tallied at htallied ⊢
      simp only [handled, List.filterMap_append, List.filterMap_cons, SchedulerCommand.txn,
        List.filterMap_nil, List.append_nil, htallied]
  | drained hlooping hpending hidle =>
    refine ⟨by simp [commands, handled, answered, hpending, Event.submission], ?_⟩
    intro htallied
    unfold Tallied at htallied ⊢
    simp only [handled, answered, List.filterMap_append, List.filterMap_cons, SchedulerCommand.txn,
      List.filterMap_nil, List.append_nil, htallied]
  | taken hrx hlooping hpending hready =>
    exact ⟨by simp [commands, hrx, hpending, Event.submission], id⟩
  | heard hlooping hwaits hrx =>
    obtain ⟨held', hloop⟩ := hplaced.handleReadyExecutor (x := x) hrx
    refine SameCommands.step ?_ rfl
    have hsame := hloop.untouched.sameCommands
    unfold releasePermit
    split <;> exact ⟨hsame.1, hsame.2, hsame.3, hsame.4, hsame.5⟩
  | heardDraining hphase hbusy hrx =>
    obtain ⟨held', hloop⟩ := hplaced.handleReadyExecutor (x := x) hrx
    have hsame := hloop.untouched.sameCommands
    exact SameCommands.step ⟨hsame.1, hsame.2, hsame.3, hsame.4, hsame.5⟩ rfl
  | switched hlooping hwaits =>
    rename_i mode
    refine SameCommands.step ?_ rfl
    cases mode <;> exact ⟨rfl, rfl, rfl, rfl, rfl⟩
  | ticked => exact (Timekeeping.advancePrimarySlot _ false).sameCommands.step rfl
  | checkpointed =>
    exact (((Timekeeping.transitionToNewSlot _).trans
      (.takeSuperblockSnapshot _ _)).withPhase _).sameCommands.step rfl
  | closed => exact (Timekeeping.advancePrimarySlot _ true).sameCommands.step rfl
  | paused => exact SameCommands.step ⟨rfl, rfl, rfl, rfl, rfl⟩ rfl
  | resumed => exact SameCommands.step ⟨rfl, rfl, rfl, rfl, rfl⟩ rfl
  | received => exact SameCommands.step ⟨rfl, rfl, rfl, rfl, rfl⟩ rfl
  | finished => exact SameCommands.step ⟨rfl, rfl, rfl, rfl, rfl⟩ rfl
  | skipped => exact SameCommands.step ⟨rfl, rfl, rfl, rfl, rfl⟩ rfl
  | stopped => exact SameCommands.step ⟨rfl, rfl, rfl, rfl, rfl⟩ rfl

lemma Run.commands (hstart : start.Sound x) (h : Run x start t n) :
    n.commands = start.commands ++ t.filterMap (fun entry => entry.event.submission) ∧
      (start.Tallied → n.Tallied) := by
  have hall : n.Sound x ∧
      n.commands = start.commands ++ t.filterMap (fun entry => entry.event.submission) ∧
      (start.Tallied → n.Tallied) := by
    induction h with
    | nil => exact ⟨hstart, by simp, id⟩
    | @snoc t m n event _ hstep ih =>
      obtain ⟨hsound, hcommands, htallied⟩ := ih
      obtain ⟨hcommands', htallied'⟩ := step_commands hsound hstep
      refine ⟨hsound.step hstep, ?_, fun hfirst => htallied' (htallied hfirst)⟩
      rw [hcommands', hcommands, List.filterMap_append, List.append_assoc]
      cases hsubmission : event.submission <;> simp [hsubmission]
  exact hall.2

lemma Fresh.commands (hstart : Fresh start) (h : Run x start t n) :
    n.commands = t.filterMap (fun entry => entry.event.submission) ∧ n.Tallied := by
  obtain ⟨hcommands, htallied⟩ := h.commands hstart.sound
  obtain ⟨executors, ledger, latestBlock, accountsdbSlot, slotHashes, rfl⟩ := hstart
  exact ⟨hcommands, htallied rfl⟩

/-- A block or a drain is answered only when every transaction sent before it has been
executed, or dropped because the node was in the wrong mode for it. -/
theorem barrier (hstart : Fresh start) (h : Run x start t n)
    (hdistinct : ∀ txn ∈ n.history.accepted, txn.Distinct) {command : SchedulerCommand}
    (hpending : n.pendingCommand = some command) (hcommand : command.txn = none) {out : Outside}
    (hstep : n.step x (.process out) = some n') :
    ∃ earlier later, t.filterMap (fun entry => entry.event.submission) =
        earlier ++ command :: later ∧
      (earlier.filterMap SchedulerCommand.txn).Perm
        (n.history.finished.map IndexedTransaction.txn ++ n.history.dropped) := by
  obtain ⟨hcommands, htallied⟩ := hstart.commands h
  refine ⟨n.history.handled, n.transactionsRx, ?_, ?_⟩
  · rw [← hcommands, commands, hpending]
    simp
  · have hidle : n.coordinator.isIdle = true := by
      cases step_steps hstep with
      | dropped hlooping hpending' =>
        rw [hpending, Option.some.injEq] at hpending'
        subst hpending'
        cases hcommand
      | accepted hlooping hpending' =>
        rw [hpending, Option.some.injEq] at hpending'
        subst hpending'
        cases hcommand
      | block hlooping hpending' hidle => exact hidle
      | drained hlooping hpending' hidle => exact hidle
    obtain ⟨-, hfinished⟩ := (h.sound hstart.sound).settled (h.behind hstart) hdistinct hidle
    rw [← Multiset.coe_eq_coe, htallied, ← Multiset.coe_add, Multiset.coe_eq_coe.mpr hfinished]

theorem barrier_onePayment : ∃ t n n', Run Vectors.setup Vectors.twoExecutors t n ∧
    n.pendingCommand = some .drain ∧ n.step Vectors.setup (.process Vectors.outside) = some n' ∧
    ∃ earlier later, t.filterMap (fun entry => entry.event.submission) =
        earlier ++ .drain :: later ∧
      (earlier.filterMap SchedulerCommand.txn).Perm
        (n.history.finished.map IndexedTransaction.txn ++ n.history.dropped) := by
  obtain ⟨t, n, hrun, -, hfacts⟩ := exists_run (x := Vectors.setup) (n := Vectors.twoExecutors)
    (.switch .primary :: Vectors.send (.transaction (Vectors.executed 1)) ++ Vectors.complete 1 ++
      [.submit .drain, .take])
    (f := fun n => (n.pendingCommand, n.history.accepted,
      (n.step Vectors.setup (.process Vectors.outside)).isSome))
    (v := (some .drain, [Vectors.executed 1], true)) (by decide +kernel)
  simp only [Prod.mk.injEq] at hfacts
  obtain ⟨hpending, haccepted, hsome⟩ := hfacts
  obtain ⟨n', hstep⟩ := Option.isSome_iff_exists.mp hsome
  refine ⟨t, n, n', hrun, hpending, hstep,
    barrier Vectors.twoExecutors_fresh hrun ?_ hpending rfl hstep⟩
  rw [haccepted]
  decide

end Node

end Blitz.Scheduler
