import Blitz.SchedulerOrder

/-! What the node writes down as it goes: positions, the hash under way, the ledger and the
stream to the replicas. -/
namespace Blitz.Scheduler
open LittleEndian Receipts Solana Validator WorkerPool

namespace Node
variable {x : Setup} {n n' start : Node} {held held' : ExecutorId → List (Bytes 32 × Bool)}
  {e b : ExecutorId} {t : List (Traces.Entry Node Event)} {out : Outside}

/-- Nothing is written down. -/
structure SameBooks (n n' : Node) : Prop where
  isPrimary : n'.coordinator.isPrimary = n.coordinator.isPrimary
  hasher : n'.hasher = n.hasher
  isInitialReplicaBlock : n'.isInitialReplicaBlock = n.isInitialReplicaBlock
  slot : n'.slot = n.slot
  index : n'.index = n.index
  ledger : n'.ledger = n.ledger
  latestBlock : n'.latestBlock = n.latestBlock
  accountsdbSlot : n'.accountsdbSlot = n.accountsdbSlot
  replicated : n'.replicated = n.replicated
  initialMismatches : n'.initialMismatches = n.initialMismatches
  divergences : n'.divergences = n.divergences
  dispatched : n'.history.dispatched = n.history.dispatched
  done : n'.history.done = n.history.done

namespace SameBooks

lemma refl (n : Node) : SameBooks n n := by
  constructor
  all_goals rfl

lemma coordinator {c : ExecutionCoordinator} (h : c.isPrimary = n.coordinator.isPrimary) :
    SameBooks n { n with coordinator := c } := by
  constructor
  case isPrimary => exact h
  all_goals rfl

lemma releasePermit : SameBooks n n.releasePermit := by
  unfold Node.releasePermit
  split
  · constructor
    all_goals rfl
  · exact refl n

end SameBooks

/-- A property of what is written down, kept by the dispatch of transactions of a kind. -/
structure Kept (x : Setup) (P : ProcessableTransaction → Prop) (J : Node → Prop) : Prop where
  books : ∀ m m', SameBooks m m' → J m → J m'
  dispatch : ∀ m e txn, m.inbox e = none → P txn → Apart (txn.claims x.isWritable) → J m →
    J (m.dispatch x e txn)

namespace Kept
variable {P : ProcessableTransaction → Prop} {J : Node → Prop}

lemma rescheduled (hJ : Kept x P J) (h : Rescheduled x b n held e n' held')
    (hb : b < n.coordinator.count) (hplaced : n.Placed x [e] held) (haccounted : n.Accounted 0)
    (hP : ∀ txn ∈ n.history.accepted, P txn) (hn : J n) : J n' := by
  induction h with
  | empty hqueue => exact hJ.books _ _ (.coordinator (by simp)) hn
  | stuck hqueue hclash hself => exact hJ.books _ _ (.coordinator (by simp)) hn
  | requeued hqueue hne hclash hself hnext ih =>
    refine ih hb ((hplaced.nextBlockedTransaction b).queueTransaction _ _)
      ((haccounted.pop hb hqueue).queue _ (hplaced.blocker_lt hclash)) hP ?_
    exact hJ.books _ _ (.coordinator (by simp)) hn
  | @last n held e txn rest c hqueue hlocks hframe hready =>
    have hmem := haccounted.mem_accepted hb (hqueue ▸ List.mem_cons_self)
    have hprimary : c.isPrimary = n.coordinator.isPrimary := by
      rw [hframe]
      exact n.coordinator.isPrimary_nextBlockedTransaction b
    exact hJ.dispatch _ _ _ (hplaced.inbox_eq_none (by simp)) (hP _ hmem) hlocks.apart_self
      (hJ.books _ _ (.coordinator hprimary) hn)
  | @next n n' held held' e e' txn rest ready c hqueue hlocks hframe hready hnext ih =>
    have hmem := haccounted.mem_accepted hb (hqueue ▸ List.mem_cons_self)
    have hpopped := hplaced.nextBlockedTransaction b
    have hprimary : c.isPrimary = n.coordinator.isPrimary := by
      rw [hframe]
      exact n.coordinator.isPrimary_nextBlockedTransaction b
    have hcready : c.readyExecutors = e' :: ready := by rw [hframe]; exact hready
    have hcount : c.count = n.coordinator.count := by rw [hframe]; rfl
    have hdispatched := (haccounted.pop hb hqueue).dispatch (x := x) hpopped hframe
    refine ih (hcount ▸ hb) ((hpopped.dispatch hlocks hframe).take hcready)
      ⟨hdispatched.accepted, hdispatched.dispatched⟩ hP ?_
    exact hJ.dispatch _ _ _ (hplaced.inbox_eq_none (by simp)) (hP _ hmem) hlocks.apart_self
      (hJ.books _ _ (.coordinator hprimary) hn)

lemma reported (hJ : Kept x P J) (hsound : n.Sound x) {rest : List ExecutorId}
    (hrx : n.readyRx = e :: rest) (hP : ∀ txn ∈ n.history.accepted, P txn) (hn : J n) :
    J ({ n with readyRx := rest }.handleReadyExecutor x e) := by
  obtain ⟨⟨held, hplaced⟩, haccounted⟩ := hsound
  obtain ⟨held', hloop⟩ := hplaced.handleReadyExecutor (x := x) hrx
  have hreport := hplaced.report hrx
  refine hJ.rescheduled hloop (hreport.lt e (by simp)) hreport
    ⟨haccounted.accepted, haccounted.dispatched⟩ hP ?_
  refine hJ.books n _ ?_ hn
  constructor
  all_goals rfl

lemma accepted (hJ : Kept x P J) (hsound : n.Sound x) {txn : ProcessableTransaction}
    {rest : List ExecutorId} (hready : n.coordinator.readyExecutors = e :: rest) (hP : P txn) (hn : J n) :
    J ((n.accepting txn rest).scheduleTransaction x e ⟨n.counter, txn⟩).2 := by
  obtain ⟨⟨held, hplaced⟩, -⟩ := hsound
  have haccepting := hplaced.accepting hready txn
  have hJaccepting : J (n.accepting txn rest) := by
    refine hJ.books n _ ?_ hn
    constructor
    all_goals rfl
  rcases haccepting.scheduleTransaction ⟨n.counter, txn⟩ with ⟨c, hrun, hlocks, hframe⟩ |
    ⟨b, hrun, -, -⟩
  · rw [hrun]
    have hprimary : c.isPrimary = (n.accepting txn rest).coordinator.isPrimary := by
      rw [hframe]
      rfl
    exact hJ.dispatch _ e txn (haccepting.inbox_eq_none (by simp)) hP hlocks.apart_self
      (hJ.books _ _ (.coordinator hprimary) hJaccepting)
  · rw [hrun]
    exact hJ.books _ _ (.coordinator (by simp)) hJaccepting

end Kept

/-- The events at which a primary may close its slot. -/
def Event.closing : Event → Option Outside
  | .tick out => some out
  | .checkpoint out => some out
  | .shutdown out => some out
  | _ => none

/-- What a primary writes down at the end of a slot, with the checksum of a snapshot if it has
made one. -/
structure Closes (x : Setup) (out : Outside) (checksum : Option UInt64) (n n' : Node) : Prop where
  isPrimary : n'.coordinator.isPrimary = n.coordinator.isPrimary
  hasher : n'.hasher = (x.crypto.blake3 n.hasher).val
  slot : n'.slot = n.slot + 1
  index : n'.index = 0
  ledger : out.ledger = .ok () →
    n'.ledger = n.ledger.writeBlock n.slot out.timestamp (x.crypto.blake3 n.hasher)
  latestBlock : out.ledger = .ok () → n'.latestBlock = (n.slot, x.crypto.blake3 n.hasher)
  accountsdbSlot : out.ledger = .ok () → n'.accountsdbSlot = n.slot
  replicated : n'.replicated = n.replicated ++
    if x.replicationTx then
      .block (n.currentBlock x out) :: checksum.toList.map (.superBlock n.slot) else []
  dispatched : n'.history.dispatched = n.history.dispatched
  done : n'.history.done = n.history.done

/-- What a node that follows writes down of a block: the block itself, and whether it is the one
it has under way. -/
structure Adopts (x : Setup) (block : Replication.Block) (n n' : Node) : Prop where
  isPrimary : n'.coordinator.isPrimary = n.coordinator.isPrimary
  hasher : n'.hasher = block.hash.val
  slot : n'.slot = block.slot + 1
  index : n'.index = 0
  ledger : n'.ledger = n.ledger.writeBlock block.slot block.timestamp block.hash
  latestBlock : n'.latestBlock = (block.slot, block.hash)
  accountsdbSlot : n'.accountsdbSlot = block.slot
  replicated : n'.replicated = n.replicated
  agrees : block.hash = x.crypto.blake3 n.hasher →
    n'.divergences = n.divergences ∧ n'.initialMismatches = n.initialMismatches
  differs : block.hash ≠ x.crypto.blake3 n.hasher →
    n'.divergences + n'.initialMismatches = n.divergences + n.initialMismatches + 1
  dispatched : n'.history.dispatched = n.history.dispatched
  done : n'.history.done = n.history.done

/-- The steps by what they write down. -/
inductive Writes (x : Setup) (n : Node) : Event → Node → Prop
  | same {event : Event} {n' : Node} (h : SameBooks n n') : Writes x n event n'
  | scheduled {event : Event} {n' : Node} (h : ∀ {P : ProcessableTransaction → Prop}
      {J : Node → Prop}, Kept x P J → (∀ txn ∈ n'.history.accepted, P txn) → J n → J n') :
      Writes x n event n'
  | finished {e : ExecutorId} {failed : Bool} {filing : Filing} {txn : IndexedTransaction}
      (hworking : n.working e = some txn) :
      Writes x n (.finish e failed filing) (n.finish x e failed filing txn)
  | closed {event : Event} {out : Outside} {checksum : Option UInt64} {n' : Node}
      (hevent : event.closing = some out) (hprimary : n.coordinator.isPrimary = true)
      (h : Closes x out checksum n n') : Writes x n event n'
  | switched (mode : SchedulerMode) : Writes x n (.switch mode) (n.switchMode mode)
  | adopted {out : Outside} {block : Replication.Block} {n' : Node}
      (hfollows : n.coordinator.isPrimary = false)
      (hpending : n.pendingCommand = some (.block block)) (hidle : n.coordinator.isIdle = true)
      (h : Adopts x block n n') : Writes x n (.process out) n'

lemma finish_blocks {failed : Bool} {filing : Filing} {txn : IndexedTransaction} :
    (n.finish x e failed filing txn).ledger.blockhash = n.ledger.blockhash ∧
      (n.finish x e failed filing txn).ledger.blocktime = n.ledger.blocktime := by
  simp only [Node.finish]
  split_ifs
  · cases filing <;> exact ⟨rfl, rfl⟩
  · exact ⟨rfl, rfl⟩

lemma sendReplication_eq (hprimary : n.coordinator.isPrimary = true) (msg : Replication.Message) :
    n.sendReplication x msg =
      { n with replicated := n.replicated ++ if x.replicationTx then [msg] else [] } := by
  unfold sendReplication isReplicating
  rw [hprimary, Bool.and_true]
  split_ifs <;> simp

lemma Closes.transitionToNewSlot (hprimary : n.coordinator.isPrimary = true) (out : Outside) :
    Closes x out none n (n.transitionToNewSlot x out) := by
  rw [Node.transitionToNewSlot, sendReplication_eq hprimary, finalizeBlock]
  simp only [hprimary, if_true]
  cases hledger : out.ledger with
  | ok =>
    constructor
    all_goals first | rfl | exact fun _ => rfl
  | error error =>
    constructor
    all_goals first | rfl | (intro hok; simp [hledger] at hok)

lemma Closes.takeSuperblockSnapshot (hprimary : n.coordinator.isPrimary = true) (out : Outside) :
    Closes x out out.checksum n
      ((n.transitionToNewSlot x out).takeSuperblockSnapshot x out n.slot) := by
  have h := Closes.transitionToNewSlot (x := x) hprimary out
  unfold Node.takeSuperblockSnapshot
  cases hchecksum : out.checksum with
  | none => exact h
  | some checksum =>
    dsimp only
    rw [sendReplication_eq (h.isPrimary.trans hprimary)]
    refine ⟨h.1, h.2, h.3, h.4, h.5, h.6, h.7, ?_, h.9, h.10⟩
    dsimp only
    rw [h.replicated]
    split_ifs <;> simp

lemma Closes.withPhase {checksum : Option UInt64} (h : Closes x out checksum n n')
    (phase : Phase) : Closes x out checksum n { n' with phase := phase } :=
  ⟨h.1, h.2, h.3, h.4, h.5, h.6, h.7, h.8, h.9, h.10⟩

lemma Writes.advancePrimarySlot {event : Event} {closing : Bool}
    (hevent : event.closing = some out) (hprimary : n.coordinator.isPrimary = true) :
    Writes x n event (n.advancePrimarySlot x out closing) := by
  unfold Node.advancePrimarySlot
  split
  · refine .same ?_
    constructor
    all_goals rfl
  · exact .closed hevent hprimary ((Closes.transitionToNewSlot hprimary out).withPhase _)

lemma adoptBlock_eq (hfollows : n.coordinator.isPrimary = false) (out : Outside)
    (block : Replication.Block) : n.adoptBlock x out block =
      { (n.writeBlock block).verifyBlockAsReplica x block with
        accountsdbSlot := block.slot }.updateSysvars block := by
  have hprimary : ((n.writeBlock block).verifyBlockAsReplica x block).coordinator.isPrimary =
      false := by
    unfold verifyBlockAsReplica
    split_ifs <;> exact hfollows
  unfold adoptBlock
  dsimp only
  split_ifs with hsuperblock
  · unfold takeSuperblockSnapshot
    split
    · rfl
    · rw [sendReplication, if_neg]
      simp only [isReplicating, Bool.and_eq_true, not_and, Bool.not_eq_true]
      exact fun _ => hprimary
  · rfl

lemma Adopts.adoptBlock_handled (hfollows : n.coordinator.isPrimary = false)
    {block : Replication.Block} {command : SchedulerCommand} {answer : Except String Unit} :
    Adopts x block n (((n.handled command).adoptBlock x out block).answered answer) := by
  rw [adoptBlock_eq (n := n.handled command) hfollows]
  unfold verifyBlockAsReplica
  split_ifs with hsame hinitial
  · constructor
    case agrees => exact fun _ => ⟨rfl, rfl⟩
    case differs => exact fun hne => absurd hsame hne
    all_goals rfl
  · constructor
    case agrees => exact fun heq => absurd heq hsame
    case differs => exact fun _ => (add_assoc _ _ _).symm
    all_goals rfl
  · constructor
    case agrees => exact fun heq => absurd heq hsame
    case differs => exact fun _ => add_right_comm _ _ _
    all_goals rfl

lemma Adopts.applyReplayedBlock {block : Replication.Block} {answer : Except String Unit}
    (hfollows : n.coordinator.isPrimary = false) (hledger : out.ledger = .ok ())
    (hanswer : (n.handled (.block block)).applyReplayedBlock x out block = some (answer, n')) :
    Adopts x block n (n'.answered answer) := by
  have hhandled : (n.handled (.block block)).coordinator.isPrimary = false := hfollows
  unfold Node.applyReplayedBlock at hanswer
  simp only [hhandled, Bool.false_eq_true, if_false, hledger] at hanswer
  split_ifs at hanswer
  obtain ⟨-, rfl⟩ := Prod.mk.inj (Option.some.inj hanswer)
  exact .adoptBlock_handled hfollows

lemma Writes.applyReplayedBlock {out : Outside} {block : Replication.Block}
    {answer : Except String Unit} (hpending : n.pendingCommand = some (.block block))
    (hidle : n.coordinator.isIdle = true)
    (hanswer : (n.handled (.block block)).applyReplayedBlock x out block = some (answer, n')) :
    Writes x n (.process out) (n'.answered answer) := by
  by_cases hprimary : (n.handled (.block block)).coordinator.isPrimary = true
  · unfold Node.applyReplayedBlock at hanswer
    rw [if_pos hprimary] at hanswer
    obtain ⟨-, rfl⟩ := Prod.mk.inj (Option.some.inj hanswer)
    refine .same ?_
    constructor
    all_goals rfl
  · have hfollows : n.coordinator.isPrimary = false := Bool.eq_false_of_not_eq_true hprimary
    cases hledger : out.ledger with
    | ok => exact .adopted hfollows hpending hidle (.applyReplayedBlock hfollows hledger hanswer)
    | error error =>
      unfold Node.applyReplayedBlock at hanswer
      rw [if_neg hprimary, hledger] at hanswer
      split_ifs at hanswer
      obtain ⟨-, rfl⟩ := Prod.mk.inj (Option.some.inj hanswer)
      refine .same ?_
      constructor
      all_goals rfl

lemma releasePermit_history : n.releasePermit.history = n.history := by
  unfold releasePermit
  split <;> rfl

lemma Sound.untouched (h : n.Sound x) {rest : List ExecutorId} (hrx : n.readyRx = e :: rest) :
    Untouched { n with readyRx := rest } ({ n with readyRx := rest }.handleReadyExecutor x e) := by
  obtain ⟨⟨held, hplaced⟩, -⟩ := h
  obtain ⟨held', hloop⟩ := hplaced.handleReadyExecutor (x := x) hrx
  exact hloop.untouched

/-- Only a primary waits for its executors before a snapshot. -/
def Drains (n : Node) : Prop := ∀ closing, n.phase = .draining closing → n.coordinator.isPrimary = true

lemma step_writes {event : Event} (hsound : n.Sound x) (hdrains : n.Drains)
    (hstep : n.step x event = some n') :
    Writes x n event n' := by
  cases step_steps hstep with
  | @accepted out txn e rest hlooping hpending hready hmode hallowed hpermit =>
    refine .scheduled fun hJ hP hn => hJ.accepted hsound hready (hP _ ?_) hn
    rw [(scheduleTransaction_untouched x (n.accepting txn rest) e ⟨n.counter, txn⟩).accepted]
    exact List.mem_append_right _ (List.mem_singleton_self txn)
  | heard hlooping hwaits hrx =>
    refine .scheduled fun hJ hP hn => hJ.books _ _ .releasePermit (hJ.reported hsound hrx ?_ hn)
    rwa [releasePermit_history, (hsound.untouched hrx).accepted] at hP
  | heardDraining hphase hbusy hrx =>
    refine .scheduled fun hJ hP hn => hJ.reported hsound hrx ?_ hn
    rwa [(hsound.untouched hrx).accepted] at hP
  | finished hworking => exact .finished hworking
  | ticked hlooping hwaits hprimary => exact .advancePrimarySlot rfl hprimary
  | closed hlooping hwaits hprimary => exact .advancePrimarySlot rfl hprimary
  | checkpointed hphase hidle =>
    have hprimary := hdrains _ hphase
    exact .closed rfl hprimary ((Closes.takeSuperblockSnapshot hprimary _).withPhase _)
  | switched hlooping hwaits => exact .switched _
  | block hlooping hpending hidle hanswer => exact .applyReplayedBlock hpending hidle hanswer
  | _ =>
    refine .same ?_
    constructor
    all_goals rfl

lemma Kept.isPrimary (b : Bool) : Kept x (fun _ => True) fun m => m.coordinator.isPrimary = b where
  books _ _ h hm := h.isPrimary.trans hm
  dispatch _ _ _ _ _ _ hm := hm

lemma phase_applyReplayedBlock {out : Outside} {block : Replication.Block}
    {answer : Except String Unit} (h : n.applyReplayedBlock x out block = some (answer, n')) :
    n'.phase = n.phase := by
  unfold applyReplayedBlock at h
  split_ifs at h with hprimary hpermit
  · obtain ⟨-, rfl⟩ := Prod.mk.inj (Option.some.inj h)
    rfl
  · split at h
    · obtain ⟨-, rfl⟩ := Prod.mk.inj (Option.some.inj h)
      rfl
    · obtain ⟨-, rfl⟩ := Prod.mk.inj (Option.some.inj h)
      rw [adoptBlock_eq (Bool.eq_false_of_not_eq_true hprimary)]
      unfold verifyBlockAsReplica
      split_ifs <;> rfl

lemma Drains.step {event : Event} (h : n.Drains) (hsound : n.Sound x)
    (hstep : n.step x event = some n') : n'.Drains := by
  cases step_steps hstep with
  | @accepted out txn e rest hlooping hpending hready hmode hallowed hpermit =>
    intro closing hphase
    rw [(scheduleTransaction_untouched x (n.accepting txn rest) e ⟨n.counter, txn⟩).phase] at hphase
    exact absurd (hlooping.symm.trans hphase) (by simp)
  | heard hlooping hwaits hrx =>
    intro closing hphase
    have hkept : n.phase = .draining closing := by
      rw [← hphase]
      unfold releasePermit
      split <;> exact (hsound.untouched hrx).phase.symm
    exact absurd (hlooping.symm.trans hkept) (by simp)
  | heardDraining hphase hbusy hrx =>
    intro closing _
    exact (Kept.isPrimary true).reported hsound hrx (fun _ _ => trivial) (h _ hphase)
  | @block out block answer m hlooping hpending hidle hanswer =>
    intro closing hphase
    exact absurd (hlooping.symm.trans ((phase_applyReplayedBlock hanswer).symm.trans hphase))
      (by simp)
  | ticked hlooping hwaits hprimary =>
    intro _ _
    rwa [(Timekeeping.advancePrimarySlot _ false).quiet.coordinator]
  | closed hlooping hwaits hprimary =>
    intro _ _
    rwa [(Timekeeping.advancePrimarySlot _ true).quiet.coordinator]
  | checkpointed hphase hidle =>
    intro closing hphase'
    dsimp only at hphase'
    split_ifs at hphase'
  | switched hlooping hwaits =>
    rename_i mode
    intro closing hphase
    have hkept : n.phase = .draining closing := by
      cases mode <;> exact hphase
    exact absurd (hlooping.symm.trans hkept) (by simp)
  | stopped =>
    intro closing hphase
    cases hphase
  | _ => exact h

lemma step_accepted {event : Event} (hsound : n.Sound x) (hstep : n.step x event = some n') :
    n.history.accepted ⊆ n'.history.accepted := by
  cases step_moves hstep with
  | quiet hquiet => rw [hquiet.accepted]; exact List.Subset.refl _
  | switched mode => cases mode <;> exact List.Subset.refl _
  | received hinbox => exact List.Subset.refl _
  | finished hworking => exact List.Subset.refl _
  | @accepted _ txn e rest hpending hready hmode hallowed hpermit =>
    rw [(scheduleTransaction_untouched x (n.accepting txn rest) e ⟨n.counter, txn⟩).accepted]
    exact List.subset_append_left _ _
  | reported hrx hquiet =>
    rw [hquiet.accepted, (hsound.untouched hrx).accepted]
    exact List.Subset.refl _

theorem Run.keeps_books {P : ProcessableTransaction → Prop} {J : Node → Prop}
    (h : Run x start t n) (hstart : start.Sound x) (hdrains : start.Drains)
    (hP : ∀ txn ∈ n.history.accepted, P txn) (h0 : J start)
    (hstep : ∀ entry ∈ t, entry.before.Sound x →
      (∀ txn ∈ entry.after.history.accepted, P txn) →
      Writes x entry.before entry.event entry.after → J entry.before → J entry.after) :
    J n := by
  have hall : n.Drains ∧ ((∀ txn ∈ n.history.accepted, P txn) → J n) := by
    refine h.keeps (J := fun m => m.Drains ∧ ((∀ txn ∈ m.history.accepted, P txn) → J m)) hstart
      ⟨hdrains, fun _ => h0⟩ ?_
    rintro entry hentry hsound hone ⟨hbefore, hJ⟩
    refine ⟨hbefore.step hsound hone, fun hafter => ?_⟩
    have haccepted := fun txn htxn => hafter txn (step_accepted hsound hone htxn)
    exact hstep entry hentry hsound hafter (step_writes hsound hbefore hone) (hJ haccepted)
  exact hall.2 hP

end Node

end Blitz.Scheduler
