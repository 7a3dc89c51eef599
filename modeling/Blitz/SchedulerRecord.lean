import Blitz.SchedulerBooks

/-! The record that the statements speak of is never read by the node. So a node at rest can be
taken up with a new one, whatever it has done before. -/
namespace Blitz.Scheduler
open LittleEndian Receipts Solana Validator WorkerPool

/-- One record after another. -/
def History.append (h h' : History) : History where
  handled := h.handled ++ h'.handled
  accepted := h.accepted ++ h'.accepted
  dropped := h.dropped ++ h'.dropped
  dispatched := h.dispatched ++ h'.dispatched
  done := h.done ++ h'.done
  acks := h.acks ++ h'.acks

namespace Node
variable {x : Setup} {n n' m start : Node} {e b : ExecutorId}
  {t : List (Traces.Entry Node Event)} {out : Outside}

/-- The record made of the node begins anew. -/
def cleared (n : Node) : Node :=
  { n with history := .empty, replicated := [], initialMismatches := 0, divergences := 0 }

/-- With the record of another before its own. -/
@[simps]
def after (m n : Node) : Node :=
  { n with
    history := m.history.append n.history
    replicated := m.replicated ++ n.replicated
    initialMismatches := m.initialMismatches + n.initialMismatches
    divergences := m.divergences + n.divergences }

lemma after_cleared (n : Node) : after n n.cleared = n := by
  simp [cleared, after, History.append, History.empty]

lemma dispatch_after (txn : ProcessableTransaction) :
    (after m n).dispatch x e txn = after m (n.dispatch x e txn) := by
  simp [dispatch, after, History.append, position, isReplicating]

lemma scheduleTransaction_after (txn : TransactionWithId) :
    (after m n).scheduleTransaction x e txn =
      Prod.map id (after m) (n.scheduleTransaction x e txn) := by
  simp only [scheduleTransaction, after_coordinator]
  rcases n.coordinator.trySchedule x.isWritable e txn with ⟨_ | txn, c⟩
  · rfl
  · exact congrArg (Prod.mk none) (dispatch_after (n := { n with coordinator := c }) txn)

lemma rescheduleBlocked_after (fuel : ℕ) :
    rescheduleBlocked x b fuel e (after m n) = after m (rescheduleBlocked x b fuel e n) := by
  induction fuel generalizing n e with
  | zero => rfl
  | succ fuel ih =>
    simp only [rescheduleBlocked, after_coordinator]
    rcases n.coordinator.nextBlockedTransaction b with ⟨_ | txn, c⟩
    · rfl
    · have hscheduled := scheduleTransaction_after (x := x) (e := e) (m := m)
        (n := { n with coordinator := c }) txn
      change ({ after m n with coordinator := c } : Node).scheduleTransaction x e txn = _
        at hscheduled
      simp only [hscheduled, Prod.map_fst, Prod.map_snd, id, after_coordinator]
      generalize ({ n with coordinator := c } : Node).scheduleTransaction x e txn = scheduled
      split_ifs
      · rfl
      · cases scheduled.2.coordinator.getReadyExecutor with
        | none => rfl
        | some next => exact ih (n := { scheduled.2 with coordinator := next.2 })

lemma handleReadyExecutor_after :
    (after m n).handleReadyExecutor x e = after m (n.handleReadyExecutor x e) :=
  rescheduleBlocked_after (n := { n with coordinator := n.coordinator.unlockAccounts e }) _

lemma releasePermit_after : (after m n).releasePermit = after m n.releasePermit := by
  simp only [releasePermit, after_coordinator]
  split_ifs <;> rfl

lemma sendReplication_after (msg : Replication.Message) :
    (after m n).sendReplication x msg = after m (n.sendReplication x msg) := by
  have hreplicating : (after m n).isReplicating x = n.isReplicating x := rfl
  simp only [sendReplication, hreplicating]
  split_ifs
  · simp [after]
  · rfl

lemma finalizeBlock_after (block : Replication.Block) :
    (after m n).finalizeBlock out block = after m (n.finalizeBlock out block) := by
  simp only [finalizeBlock, after_coordinator]
  split_ifs
  · cases out.ledger <;> rfl
  · rfl

lemma transitionToNewSlot_after (out : Outside) :
    (after m n).transitionToNewSlot x out = after m (n.transitionToNewSlot x out) := by
  simp only [transitionToNewSlot, sendReplication_after, finalizeBlock_after]
  rfl

lemma takeSuperblockSnapshot_after (out : Outside) (slot : UInt64) :
    (after m n).takeSuperblockSnapshot x out slot =
      after m (n.takeSuperblockSnapshot x out slot) := by
  unfold takeSuperblockSnapshot
  split
  · rfl
  · exact sendReplication_after _

lemma verifyBlockAsReplica_after (block : Replication.Block) :
    (after m n).verifyBlockAsReplica x block = after m (n.verifyBlockAsReplica x block) := by
  simp only [verifyBlockAsReplica, after_hasher, after_isInitialReplicaBlock]
  split_ifs
  · rfl
  · simp [after, add_assoc]
  · simp [after, add_assoc]

lemma adoptBlock_after (block : Replication.Block) :
    (after m n).adoptBlock x out block = after m (n.adoptBlock x out block) := by
  have hverified := verifyBlockAsReplica_after (x := x) (m := m) (n := n.writeBlock block) block
  change ((after m n).writeBlock block).verifyBlockAsReplica x block = _ at hverified
  simp only [adoptBlock, hverified]
  split_ifs
  · exact takeSuperblockSnapshot_after (n := Node.updateSysvars
      { (n.writeBlock block).verifyBlockAsReplica x block with
        accountsdbSlot := block.slot } block) _ _
  · rfl

lemma handled_after (command : SchedulerCommand) :
    (after m n).handled command = after m (n.handled command) := by
  simp [handled, after, History.append]

lemma answered_after (result : Except String Unit) :
    (after m n).answered result = after m (n.answered result) := by
  simp [answered, after, History.append]

lemma handleNewTransaction_after (txn : ProcessableTransaction) :
    (after m n).handleNewTransaction x txn = (n.handleNewTransaction x txn).map (after m) := by
  simp only [handleNewTransaction, after_coordinator, after_schedulingPermit, after_pausedOutside]
  split_ifs
  · simp [after, History.append]
  · rfl
  · cases n.coordinator.getReadyExecutor with
    | none => rfl
    | some ready =>
      have hscheduled := scheduleTransaction_after (x := x) (e := ready.1) (m := m) (n := { n with
        schedulingPermit := true
        coordinator := ready.2
        counter := n.counter + 1
        history := { n.history with accepted := n.history.accepted ++ [txn] } }) ⟨n.counter, txn⟩
      simp only [after, History.append, ← List.append_assoc] at hscheduled ⊢
      exact congrArg (fun scheduled => some scheduled.2) hscheduled

lemma applyReplayedBlock_after (block : Replication.Block) :
    (after m n).applyReplayedBlock x out block =
      (n.applyReplayedBlock x out block).map (Prod.map id (after m)) := by
  simp only [applyReplayedBlock, after_coordinator, after_schedulingPermit, after_pausedOutside,
    adoptBlock_after]
  split_ifs
  · rfl
  · rfl
  · cases out.ledger <;> rfl

lemma processCommand_after (command : SchedulerCommand) :
    (after m n).processCommand x out command = (n.processCommand x out command).map (after m) := by
  cases command with
  | transaction txn =>
    simp only [processCommand, handled_after, handleNewTransaction_after]
  | block block =>
    simp only [processCommand, handled_after, applyReplayedBlock_after, Option.map_map,
      Function.comp_def, Prod.map_fst, Prod.map_snd, id, answered_after]
  | drain => simp only [processCommand, handled_after, answered_after, Option.map_some]

lemma advancePrimarySlot_after (closing : Bool) :
    (after m n).advancePrimarySlot x out closing =
      after m (n.advancePrimarySlot x out closing) := by
  simp only [advancePrimarySlot, after_slot, transitionToNewSlot_after]
  split_ifs <;> rfl

lemma switchMode_after (mode : SchedulerMode) :
    (after m n).switchMode mode = after m (n.switchMode mode) := by
  cases mode <;> rfl

lemma turn_after (event : Event) :
    (after m n).turn x event = (n.turn x event).map (after m) := by
  have hprocessable : (after m n).processable = n.processable := rfl
  cases event with
  | process out =>
    simp only [turn, after_phase, hprocessable, after_pendingCommand, processCommand_after]
    split_ifs
    · cases n.pendingCommand <;> rfl
    · rfl
  | tick out =>
    simp only [turn, after_phase, hprocessable, after_coordinator, advancePrimarySlot_after]
    split_ifs <;> rfl
  | shutdown out =>
    simp only [turn, after_phase, hprocessable, after_coordinator, advancePrimarySlot_after]
    split_ifs <;> rfl
  | switch mode =>
    simp only [turn, after_phase, hprocessable, switchMode_after]
    split_ifs <;> rfl
  | ready =>
    have hreported : ∀ e rest, ({ after m n with readyRx := rest } : Node).handleReadyExecutor x e =
        after m (({ n with readyRx := rest } : Node).handleReadyExecutor x e) :=
      fun _ rest => handleReadyExecutor_after (n := { n with readyRx := rest })
    simp only [turn, after_phase, after_readyRx, hprocessable, after_coordinator]
    split
    · split_ifs
      · exact congrArg some ((congrArg releasePermit (hreported _ _)).trans releasePermit_after)
      · rfl
    · split_ifs
      · exact congrArg some (hreported _ _)
      · rfl
    · rfl
  | take =>
    simp only [turn, after_phase, after_pendingCommand, after_coordinator, after_transactionsRx]
    split
    · rfl
    · split_ifs <;> rfl
  | checkpoint out =>
    simp only [turn, after_phase, after_coordinator, after_slot, transitionToNewSlot_after,
      takeSuperblockSnapshot_after]
    split
    · split_ifs <;> rfl
    · rfl
  | _ => rfl

lemma step_after (event : Event) : (after m n).step x event = (n.step x event).map (after m) := by
  cases event with
  | submit command => rfl
  | pause =>
    simp only [step, after_schedulingPermit, after_pausedOutside]
    split_ifs <;> rfl
  | resume =>
    simp only [step, after_pausedOutside]
    split_ifs <;> rfl
  | receive e =>
    simp only [step, after_inbox, after_working]
    split <;> rfl
  | finish e failed filing =>
    simp only [step, after_working]
    cases n.working e with
    | none => rfl
    | some txn => simp [finish, after, History.append]
  | _ =>
    simp only [step]
    exact turn_after _

/-- What a node does with a record before its own, it does without it as well. -/
theorem Run.of_after (h : Run x (after m n) t n') : ∃ t₀ n₀, Run x n t₀ n₀ ∧
    t = t₀.map (Traces.Entry.map (after m)) ∧ n' = after m n₀ :=
  Traces.Trace.exists_of_map (fun _ _ => step_after _) h

/-- In its loop, with nothing under way and nothing on record. -/
structure Rested (x : Setup) (n : Node) : Prop where
  sound : n.Sound x
  looping : n.phase = .looping
  queues : ∀ e, n.coordinator.blockedTransactions e = []
  cleared : n.cleared = n

namespace Rested

lemma of_fresh (h : Fresh n) : Rested x n where
  sound := h.sound
  looping := by
    obtain ⟨executors, ledger, latestBlock, accountsdbSlot, slotHashes, rfl⟩ := h
    rfl
  queues := by
    obtain ⟨executors, ledger, latestBlock, accountsdbSlot, slotHashes, rfl⟩ := h
    exact fun _ => rfl
  cleared := by
    obtain ⟨executors, ledger, latestBlock, accountsdbSlot, slotHashes, rfl⟩ := h
    rfl

lemma switchMode (h : Rested x n) (mode : SchedulerMode) : Rested x (n.switchMode mode) where
  sound := h.sound.switchMode mode
  looping := by cases mode <;> exact h.looping
  queues := by
    rw [switchMode_coordinator]
    exact h.queues
  cleared := by
    have hcleared : (n.switchMode mode).cleared = n.cleared.switchMode mode := by
      cases mode <;> rfl
    rw [hcleared, h.cleared]

lemma history (h : Rested x n) : n.history = .empty := (congrArg Node.history h.cleared).symm

lemma replicated (h : Rested x n) : n.replicated = [] := (congrArg Node.replicated h.cleared).symm

lemma drains (h : Rested x n) : n.Drains := by
  intro closing hphase
  exact absurd (h.looping.symm.trans hphase) (by simp)

end Rested

/-- A node that has come to rest can be taken up from there, with a new record. -/
theorem Run.rested (hstart : Fresh start) (h : Run x start t n)
    (hdistinct : ∀ txn ∈ n.history.accepted, txn.Distinct) (hlooping : n.phase = .looping)
    (hidle : n.coordinator.isIdle = true) : Rested x n.cleared := by
  have hsound : n.Sound x := h.sound hstart.sound
  obtain ⟨hsettled, -⟩ := hsound.settled (h.behind hstart) hdistinct hidle
  obtain ⟨⟨held, hplaced⟩, -⟩ := hsound
  refine ⟨⟨⟨held, hplaced.frame rfl rfl rfl rfl rfl rfl rfl⟩, ?_, ?_⟩, hlooping,
    fun e => (hsettled e).2, rfl⟩
  · have hwaiting : n.coordinator.waiting = 0 :=
      pool_eq_zero.mpr fun e _ => by rw [(hsettled e).2, List.map_nil]
    exact (congrArg (· + 0 + 0) hwaiting).symm
  · have hqueued : n.queued = 0 := Placed.queued_eq_zero fun e => (hsettled e).1
    have hrunning : n.running = 0 := Placed.running_eq_zero fun e => (hsettled e).1
    exact (congrArg₂ (· + · + 0) hqueued hrunning).symm

end Node

end Blitz.Scheduler
