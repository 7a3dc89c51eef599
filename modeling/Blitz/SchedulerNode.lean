import Blitz.SchedulerCoordinator
import Blitz.Traces

/-! The scheduler's thread and its executors: what each of them can do next, and what the
node writes down and tells its replicas while they do it. -/
namespace Blitz.Replication
open LittleEndian

structure Block where
  slot : UInt64
  hash : Bytes 32
  timestamp : Int64
  deriving DecidableEq

inductive Message
  | transaction (slot : UInt64) (index : UInt32) (payload : List UInt8)
  | block (block : Block)
  | superBlock (slot : UInt64) (checksum : UInt64)
  | reset (slot : UInt64)
  deriving DecidableEq

def superblockIndex : UInt32 := 0xffffffff
def blockIndex : UInt32 := superblockIndex - 1
def resetIndex : UInt32 := superblockIndex - 2

/-- Markers sort behind the transactions of their slot. -/
def Message.slotAndIndex : Message → UInt64 × UInt32
  | .transaction slot index _ => (slot, index)
  | .block b => (b.slot, blockIndex)
  | .superBlock slot _ => (slot, superblockIndex)
  | .reset slot => (slot, resetIndex)

end Blitz.Replication

namespace Blitz.Scheduler
open LittleEndian Receipts Solana Validator Replication

inductive SchedulerCommand
  | transaction (txn : ProcessableTransaction)
  | block (block : Block)
  | drain
  deriving DecidableEq

inductive SchedulerMode
  | primary | replica
  deriving DecidableEq

structure IndexedTransaction where
  slot : UInt64
  index : UInt32
  txn : ProcessableTransaction
  deriving DecidableEq

/-- What does not change while the node runs. -/
structure Setup where
  crypto : Crypto
  bincode : Bincode
  isWritable : VersionedMessage → ℕ → Bool
  superblockSize : UInt64
  /-- Whether a sink for replication is attached. -/
  replicationTx : Bool

/-- Where the scheduler's thread stands: in its loop, waiting for the executors before a
snapshot (and on its way out if it is shutting down), or done. -/
inductive Phase
  | looping
  | draining (closing : Bool)
  | stopped
  deriving DecidableEq

/-- How far the rows of a transaction came. The ledger puts them one after another, and an error
leaves those before it. -/
inductive Filing
  | nothing
  | listed
  | withStatus
  | whole
  deriving DecidableEq

/-- What has happened so far. The node does not keep it; the statements speak of it. -/
structure History where
  handled : List SchedulerCommand
  accepted : List ProcessableTransaction
  dropped : List ProcessableTransaction
  dispatched : List IndexedTransaction
  /-- What the executors are done with; where it was to be recorded, how far that came. -/
  done : List (IndexedTransaction × Filing)
  acks : List (Except String Unit)

namespace History

def empty : History := ⟨[], [], [], [], [], []⟩

def finished (h : History) : List IndexedTransaction := h.done.map Prod.fst

end History

structure Node where
  coordinator : ExecutionCoordinator
  transactionsRx : List SchedulerCommand
  readyRx : List ExecutorId
  /-- The channel of each executor, for one transaction. -/
  inbox : ExecutorId → Option IndexedTransaction
  working : ExecutorId → Option IndexedTransaction
  phase : Phase
  pendingCommand : Option SchedulerCommand
  schedulingPermit : Bool
  /-- Somebody outside holds the permit that keeps the scheduler paused. -/
  pausedOutside : Bool
  hasher : List UInt8
  isInitialReplicaBlock : Bool
  slot : UInt64
  index : UInt32
  counter : TransactionId
  ledger : TransactionLedger
  latestBlock : UInt64 × Bytes 32
  accountsdbSlot : UInt64
  /-- The `SlotHashes` account, latest slot first. -/
  slotHashes : Option (List (UInt64 × Bytes 32))
  replicated : List Replication.Message
  initialMismatches : ℕ
  divergences : ℕ
  history : History

namespace Node
variable (x : Setup) (n : Node)

def isReplicating : Bool := x.replicationTx && n.coordinator.isPrimary

def position : TransactionProcessingMode → UInt64 × UInt32
  | .replay ctx => (ctx.slot, ctx.index)
  | .simulation => (n.slot, 0)
  | .execution => (n.slot, n.index)

/-- A transaction with its locks goes to its executor, into the block's hash and, on a
primary, out to the replicas. -/
def dispatch (executor : ExecutorId) (txn : ProcessableTransaction) : Node :=
  let (slot, index) := n.position txn.mode
  let sent := (n.inbox executor).isNone
  let msg := match txn.encoded with
    | some payload =>
      if txn.mode = .execution ∧ n.isReplicating x = true ∧ sent = true then
        [.transaction slot index payload]
      else []
    | none => []
  { n with
    index := if txn.mode = .execution then n.index + 1 else n.index
    hasher := if txn.mode = .simulation then n.hasher
      else n.hasher ++ txn.transaction.signature.val
    inbox := if sent then Function.update n.inbox executor (some ⟨slot, index, txn⟩) else n.inbox
    replicated := n.replicated ++ msg
    history := { n.history with
      dispatched := n.history.dispatched ++ [⟨slot, index, txn⟩] } }

def scheduleTransaction (executor : ExecutorId) (txn : TransactionWithId) :
    Option ExecutorId × Node :=
  match n.coordinator.trySchedule x.isWritable executor txn with
  | (.error blocker, coordinator) => (some blocker, { n with coordinator := coordinator })
  | (.ok txn, coordinator) =>
    (none, { n with coordinator := coordinator }.dispatch x executor txn)

/-- One transaction leaves the blocker's queue in every turn, so that its length bounds the
turns. -/
def rescheduleBlocked (blocker : ExecutorId) : ℕ → ExecutorId → Node → Node
  | 0, _, n => n
  | fuel + 1, exec, n =>
    match n.coordinator.nextBlockedTransaction blocker with
    | (none, coordinator) => { n with coordinator := coordinator.releaseExecutor exec }
    | (some txn, coordinator) =>
      let (blocked, n) := { n with coordinator := coordinator }.scheduleTransaction x exec txn
      if blocked = some blocker then n
      else
        match n.coordinator.getReadyExecutor with
        | none => n
        | some (next, coordinator) =>
          rescheduleBlocked blocker fuel next { n with coordinator := coordinator }

def rescheduleBlockedTransactions (blocker : ExecutorId) : Node :=
  rescheduleBlocked x blocker ((n.coordinator.blockedTransactions blocker).length + 1) blocker n

def handleReadyExecutor (executor : ExecutorId) : Node :=
  { n with coordinator := n.coordinator.unlockAccounts executor }.rescheduleBlockedTransactions x
    executor

/-- Nothing where the permit is with somebody else. -/
def handleNewTransaction (txn : ProcessableTransaction) : Option Node :=
  if n.coordinator.isTransactionAllowed txn.mode = false then
    some { n with history := { n.history with dropped := n.history.dropped ++ [txn] } }
  else if n.schedulingPermit = false ∧ n.pausedOutside = true then none
  else
    match n.coordinator.getReadyExecutor with
    | none => none
    | some (executor, coordinator) =>
      some ({ n with
        schedulingPermit := true
        coordinator := coordinator
        counter := n.counter + 1
        history := { n.history with accepted := n.history.accepted ++ [txn] }
        }.scheduleTransaction x executor ⟨n.counter, txn⟩).2

/-- What the outside world decides about a block: the clock, whether the ledger takes it, and
the checksum of a snapshot, if one can be made. -/
structure Outside where
  timestamp : Int64
  ledger : Except String Unit
  checksum : Option UInt64

def initialBlockhash (latestBlock : UInt64 × Bytes 32)
    (slotHashes : Option (List (UInt64 × Bytes 32))) : Bytes 32 :=
  if latestBlock.2 ≠ zeroHash then latestBlock.2
  else
    match slotHashes.bind List.head? with
    | some entry => entry.2
    | none => zeroHash

def maxSlotHashes : ℕ := 512

/-- `SlotHashes::add`, on entries by falling slot. -/
def addSlotHash (slot : UInt64) (hash : Bytes 32) :
    List (UInt64 × Bytes 32) → List (UInt64 × Bytes 32)
  | [] => [(slot, hash)]
  | entry :: rest =>
    if slot = entry.1 then (slot, hash) :: rest
    else if entry.1 < slot then (slot, hash) :: entry :: rest
    else entry :: addSlotHash slot hash rest

def updateSysvars (block : Block) : Node :=
  { n with
    hasher := block.hash.val
    slot := block.slot + 1
    index := 0
    slotHashes := n.slotHashes.map fun hashes =>
      (addSlotHash block.slot block.hash hashes).take maxSlotHashes }

def writeBlock (block : Block) : Node :=
  { n with
    ledger := n.ledger.writeBlock block.slot block.timestamp block.hash
    latestBlock := (block.slot, block.hash) }

def sendReplication (msg : Replication.Message) : Node :=
  if n.isReplicating x then { n with replicated := n.replicated ++ [msg] } else n

def finalizeBlock (out : Outside) (block : Block) : Node :=
  if n.coordinator.isPrimary then
    match out.ledger with
    | .ok () => { n.writeBlock block with accountsdbSlot := block.slot }
    | .error _ => n
  else { n with accountsdbSlot := block.slot }

def currentBlock (out : Outside) : Block := ⟨n.slot, x.crypto.blake3 n.hasher, out.timestamp⟩

def transitionToNewSlot (out : Outside) : Node :=
  let block := n.currentBlock x out
  ((n.sendReplication x (.block block)).finalizeBlock out block).updateSysvars block

def takeSuperblockSnapshot (out : Outside) (slot : UInt64) : Node :=
  match out.checksum with
  | none => n
  | some checksum => n.sendReplication x (.superBlock slot checksum)

def isSuperblock (slot : UInt64) : Bool := slot % x.superblockSize = 0

/-- The end of a slot, or the wait for the executors that precedes it. -/
def advancePrimarySlot (out : Outside) (closing : Bool) : Node :=
  if isSuperblock x n.slot then { n with phase := .draining closing }
  else { n.transitionToNewSlot x out with phase := if closing then .stopped else .looping }

def verifyBlockAsReplica (block : Block) : Node :=
  if block.hash = x.crypto.blake3 n.hasher then { n with isInitialReplicaBlock := false }
  else if n.isInitialReplicaBlock then
    { n with isInitialReplicaBlock := false, initialMismatches := n.initialMismatches + 1 }
  else { n with divergences := n.divergences + 1 }

/-- Once the ledger has taken the block. -/
def adoptBlock (out : Outside) (block : Block) : Node :=
  let n := { (n.writeBlock block).verifyBlockAsReplica x block with
    accountsdbSlot := block.slot }.updateSysvars block
  if isSuperblock x block.slot then n.takeSuperblockSnapshot x out block.slot else n

/-- The answer to a block, or nothing while the permit is taken. -/
def applyReplayedBlock (out : Outside) (block : Block) : Option (Except String Unit × Node) :=
  if n.coordinator.isPrimary then
    some (.error "replicated block received while in primary mode", n)
  else if n.schedulingPermit = true ∨ n.pausedOutside = true then none
  else
    match out.ledger with
    | .error error => some (.error error, n)
    | .ok () => some (.ok (), n.adoptBlock x out block)

def resyncFromLedger : Node :=
  { n with
    hasher := (initialBlockhash n.latestBlock n.slotHashes).val
    slot := max n.accountsdbSlot n.latestBlock.1 + 1
    index := 0 }

/-- In the order of their index. -/
def transactionSignaturesForSlot (l : TransactionLedger) (slot : UInt64) : List (Bytes 64) :=
  (l.slotSignatures slot).toList.map Prod.snd

def reconstructInprogressHasher : Node :=
  { n with
    hasher := n.hasher ++ (transactionSignaturesForSlot n.ledger n.slot).flatMap Subtype.val }

def switchMode : SchedulerMode → Node
  | .primary => { n with coordinator := n.coordinator.switchToPrimaryMode }
  | .replica =>
    { { n with coordinator := n.coordinator.switchToReplicaMode
        }.resyncFromLedger.reconstructInprogressHasher with isInitialReplicaBlock := true }

/-- A failure is recorded even where the replay is not to be kept. -/
def recorded (failed : Bool) : TransactionProcessingMode → Bool
  | .simulation => false
  | .execution => true
  | .replay ctx => failed || ctx.persist

/-- What is in the ledger after a write that came so far; its error is logged and dropped. -/
def writeRows (b : Bincode) (l : TransactionLedger) (txn : IndexedTransaction) :
    Filing → TransactionLedger
  | .nothing => l
  | .listed => { l with slotSignatures := (written b l txn).slotSignatures }
  | .withStatus => { written b l txn with transaction := l.transaction }
  | .whole => written b l txn
where
  written (b : Bincode) (l : TransactionLedger) (txn : IndexedTransaction) : TransactionLedger :=
    l.writeToLedger b txn.txn.transaction txn.txn.encoded txn.slot txn.index

def finish (executor : ExecutorId) (failed : Bool) (filing : Filing) (txn : IndexedTransaction) :
    Node :=
  { n with
    working := Function.update n.working executor none
    ledger := if recorded failed txn.txn.mode then writeRows x.bincode n.ledger txn filing
      else n.ledger
    readyRx := if n.readyRx.length < n.coordinator.count then n.readyRx ++ [executor]
      else n.readyRx
    history := { n.history with done := n.history.done ++ [(txn, filing)] } }

/-- Whether the loop goes on with the command it holds, rather than wait for an event. -/
def processable : Bool :=
  match n.pendingCommand with
  | some (.transaction _) => n.coordinator.isReady
  | some (.block _) => n.coordinator.isIdle
  | some .drain => n.coordinator.isIdle
  | none => false

def handled (command : SchedulerCommand) : Node :=
  { n with
    pendingCommand := none
    history := { n.history with handled := n.history.handled ++ [command] } }

def answered (result : Except String Unit) : Node :=
  { n with history := { n.history with acks := n.history.acks ++ [result] } }

def processCommand (out : Outside) : SchedulerCommand → Option Node
  | .transaction txn => (n.handled (.transaction txn)).handleNewTransaction x txn
  | .block block =>
    ((n.handled (.block block)).applyReplayedBlock x out block).map fun answer =>
      answer.2.answered answer.1
  | .drain => some ((n.handled .drain).answered (.ok ()))

/-- The permit is given back once no executor is busy. -/
def releasePermit : Node :=
  if n.coordinator.isIdle then { n with schedulingPermit := false } else n

inductive Event
  | submit (command : SchedulerCommand)
  | pause
  | resume
  | receive (executor : ExecutorId)
  | finish (executor : ExecutorId) (failed : Bool) (filing : Filing)
  | process (out : Outside)
  | tick (out : Outside)
  | ready
  | switch (mode : SchedulerMode)
  | take
  | checkpoint (out : Outside)
  | shutdown (out : Outside)

/-- What the scheduler's thread does at an event. In its loop it waits for one only where the
command it holds has to wait. -/
def turn : Event → Option Node
  | .process out =>
    if n.phase = .looping ∧ n.processable = true then
      n.pendingCommand.bind fun command => n.processCommand x out command
    else none
  | .tick out =>
    if n.phase = .looping ∧ n.processable = false then
      some (if n.coordinator.isPrimary then n.advancePrimarySlot x out false else n)
    else none
  | .ready =>
    match n.phase, n.readyRx with
    | .looping, executor :: rest =>
      if n.processable = false then
        some ({ n with readyRx := rest }.handleReadyExecutor x executor).releasePermit
      else none
    | .draining _, executor :: rest =>
      if n.coordinator.isIdle = false then
        some ({ n with readyRx := rest }.handleReadyExecutor x executor)
      else none
    | _, _ => none
  | .switch mode =>
    if n.phase = .looping ∧ n.processable = false then some (n.switchMode mode) else none
  | .take =>
    match n.transactionsRx with
    | [] => none
    | command :: rest =>
      if n.phase = .looping ∧ n.pendingCommand = none ∧ n.coordinator.isReady = true then
        some { n with transactionsRx := rest, pendingCommand := some command }
      else none
  | .checkpoint out =>
    match n.phase with
    | .draining closing =>
      if n.coordinator.isIdle = true then
        some { (n.transitionToNewSlot x out).takeSuperblockSnapshot x out n.slot with
          phase := if closing then .stopped else .looping }
      else none
    | _ => none
  | .shutdown out =>
    if n.phase = .looping ∧ n.processable = false then
      some (if n.coordinator.isPrimary then n.advancePrimarySlot x out true
        else { n with phase := .stopped })
    else none
  | _ => none

/-- The whole node: clients, whoever pauses it, its executors and its scheduler. -/
def step : Event → Option Node
  | .submit command => some { n with transactionsRx := n.transactionsRx ++ [command] }
  | .pause =>
    if n.schedulingPermit = true ∨ n.pausedOutside = true then none
    else some { n with pausedOutside := true }
  | .resume => if n.pausedOutside = true then some { n with pausedOutside := false } else none
  | .receive executor =>
    match n.inbox executor, n.working executor with
    | some txn, none =>
      some { n with
        inbox := Function.update n.inbox executor none
        working := Function.update n.working executor (some txn) }
    | _, _ => none
  | .finish executor failed filing =>
    (n.working executor).map (n.finish x executor failed filing)
  | event => n.turn x event

/-- A node as it starts, on what it finds on its disk. -/
def new (executors : ℕ) (ledger : TransactionLedger) (latestBlock : UInt64 × Bytes 32)
    (accountsdbSlot : UInt64) (slotHashes : Option (List (UInt64 × Bytes 32))) : Node where
  coordinator := .new (min (max executors 1) maxSvmExecutors)
  transactionsRx := []
  readyRx := []
  inbox := fun _ => none
  working := fun _ => none
  phase := .looping
  pendingCommand := none
  schedulingPermit := false
  pausedOutside := false
  hasher := (initialBlockhash latestBlock slotHashes).val
  isInitialReplicaBlock := true
  slot := accountsdbSlot + 1
  index := 0
  counter := 0
  ledger := ledger
  latestBlock := latestBlock
  accountsdbSlot := accountsdbSlot
  slotHashes := slotHashes
  replicated := []
  initialMismatches := 0
  divergences := 0
  history := .empty

abbrev Run (start : Node) (t : List (Traces.Entry Node Event)) (n : Node) : Prop :=
  Traces.Trace (fun event m n => m.step x event = some n) start t n

/-- Started with nothing under way. -/
def Fresh (start : Node) : Prop :=
  ∃ executors ledger latestBlock accountsdbSlot slotHashes,
    start = new executors ledger latestBlock accountsdbSlot slotHashes

/-- The scheduler goes on with the transaction it holds, an executor in hand. -/
def accepting (n : Node) (txn : ProcessableTransaction) (rest : List ExecutorId) : Node :=
  { n with
    pendingCommand := none
    schedulingPermit := true
    coordinator := { n.coordinator with readyExecutors := rest }
    counter := n.counter + 1
    history := { n.history with
      handled := n.history.handled ++ [.transaction txn]
      accepted := n.history.accepted ++ [txn] } }

/-- Every step that can be taken, with what has to hold before it. -/
inductive Steps (x : Setup) (n : Node) : Event → Node → Prop
  | submitted (command : SchedulerCommand) :
      Steps x n (.submit command) { n with transactionsRx := n.transactionsRx ++ [command] }
  | paused (hpermit : n.schedulingPermit = false) (hfree : n.pausedOutside = false) :
      Steps x n .pause { n with pausedOutside := true }
  | resumed (hpaused : n.pausedOutside = true) : Steps x n .resume { n with pausedOutside := false }
  | received {e : ExecutorId} {txn : IndexedTransaction} (hinbox : n.inbox e = some txn) :
      Steps x n (.receive e)
        { n with
          inbox := Function.update n.inbox e none
          working := Function.update n.working e (some txn) }
  | finished {e : ExecutorId} {failed : Bool} {filing : Filing} {txn : IndexedTransaction}
      (hworking : n.working e = some txn) :
      Steps x n (.finish e failed filing) (n.finish x e failed filing txn)
  | dropped {out : Outside} {txn : ProcessableTransaction} (hlooping : n.phase = .looping)
      (hpending : n.pendingCommand = some (.transaction txn))
      (hrefused : n.coordinator.isTransactionAllowed txn.mode = false) :
      Steps x n (.process out)
        { n with
          pendingCommand := none
          history := { n.history with
            handled := n.history.handled ++ [.transaction txn]
            dropped := n.history.dropped ++ [txn] } }
  | accepted {out : Outside} {txn : ProcessableTransaction} {e : ExecutorId}
      {rest : List ExecutorId} (hlooping : n.phase = .looping)
      (hpending : n.pendingCommand = some (.transaction txn))
      (hready : n.coordinator.readyExecutors = e :: rest) (hmode : n.coordinator.mode.isReady)
      (hallowed : n.coordinator.isTransactionAllowed txn.mode)
      (hpermit : n.schedulingPermit = true ∨ n.pausedOutside = false) :
      Steps x n (.process out) ((n.accepting txn rest).scheduleTransaction x e ⟨n.counter, txn⟩).2
  | block {out : Outside} {block : Block} {answer : Except String Unit} {n' : Node}
      (hlooping : n.phase = .looping) (hpending : n.pendingCommand = some (.block block))
      (hidle : n.coordinator.isIdle = true)
      (hanswer : (n.handled (.block block)).applyReplayedBlock x out block = some (answer, n')) :
      Steps x n (.process out) (n'.answered answer)
  | drained {out : Outside} (hlooping : n.phase = .looping)
      (hpending : n.pendingCommand = some .drain) (hidle : n.coordinator.isIdle = true) :
      Steps x n (.process out) ((n.handled .drain).answered (.ok ()))
  | ticked {out : Outside} (hlooping : n.phase = .looping) (hwaits : n.processable = false)
      (hprimary : n.coordinator.isPrimary = true) :
      Steps x n (.tick out) (n.advancePrimarySlot x out false)
  | skipped {out : Outside} (hlooping : n.phase = .looping) (hwaits : n.processable = false)
      (hprimary : n.coordinator.isPrimary = false) : Steps x n (.tick out) n
  | heard {e : ExecutorId} {rest : List ExecutorId} (hlooping : n.phase = .looping)
      (hwaits : n.processable = false) (hrx : n.readyRx = e :: rest) :
      Steps x n .ready ({ n with readyRx := rest }.handleReadyExecutor x e).releasePermit
  | heardDraining {e : ExecutorId} {rest : List ExecutorId} {closing : Bool}
      (hphase : n.phase = .draining closing) (hbusy : n.coordinator.isIdle = false)
      (hrx : n.readyRx = e :: rest) :
      Steps x n .ready ({ n with readyRx := rest }.handleReadyExecutor x e)
  | switched {mode : SchedulerMode} (hlooping : n.phase = .looping)
      (hwaits : n.processable = false) : Steps x n (.switch mode) (n.switchMode mode)
  | taken {command : SchedulerCommand} {rest : List SchedulerCommand}
      (hrx : n.transactionsRx = command :: rest) (hlooping : n.phase = .looping)
      (hpending : n.pendingCommand = none) (hready : n.coordinator.isReady = true) :
      Steps x n .take { n with transactionsRx := rest, pendingCommand := some command }
  | checkpointed {out : Outside} {closing : Bool} (hphase : n.phase = .draining closing)
      (hidle : n.coordinator.isIdle = true) :
      Steps x n (.checkpoint out)
        { (n.transitionToNewSlot x out).takeSuperblockSnapshot x out n.slot with
          phase := if closing then .stopped else .looping }
  | closed {out : Outside} (hlooping : n.phase = .looping) (hwaits : n.processable = false)
      (hprimary : n.coordinator.isPrimary = true) :
      Steps x n (.shutdown out) (n.advancePrimarySlot x out true)
  | stopped {out : Outside} (hlooping : n.phase = .looping) (hwaits : n.processable = false)
      (hprimary : n.coordinator.isPrimary = false) :
      Steps x n (.shutdown out) { n with phase := .stopped }

variable {x n}

lemma getReadyExecutor_eq_some {c c' : ExecutionCoordinator} {e : ExecutorId}
    (h : c.getReadyExecutor = some (e, c')) :
    ∃ rest, c.readyExecutors = e :: rest ∧ c' = { c with readyExecutors := rest } := by
  unfold ExecutionCoordinator.getReadyExecutor at h
  split at h
  · cases h
  · obtain ⟨rfl, rfl⟩ := Prod.mk.inj (Option.some.inj h)
    exact ⟨_, ‹_›, rfl⟩

lemma processCommand_steps {n' : Node} {out : Outside} {command : SchedulerCommand}
    (hlooping : n.phase = .looping) (hpending : n.pendingCommand = some command)
    (hprocessable : n.processable = true) (h : n.processCommand x out command = some n') :
    Steps x n (.process out) n' := by
  cases command with
  | transaction txn =>
    have hcoordinator : n.coordinator.isReady = true := by
      simpa [processable, hpending] using hprocessable
    simp only [ExecutionCoordinator.isReady, Bool.and_eq_true] at hcoordinator
    simp only [processCommand, handleNewTransaction] at h
    split_ifs at h with hallowed hpermit
    · obtain rfl := Option.some.inj h
      exact .dropped hlooping hpending hallowed
    · split at h
      · cases h
      · rename_i executor coordinator hready
        obtain rfl := Option.some.inj h
        obtain ⟨rest, hrest, rfl⟩ := getReadyExecutor_eq_some hready
        refine .accepted hlooping hpending hrest hcoordinator.2 ?_ ?_
        · change ¬n.coordinator.isTransactionAllowed txn.mode = false at hallowed
          simpa using hallowed
        · change ¬(n.schedulingPermit = false ∧ n.pausedOutside = true) at hpermit
          cases hs : n.schedulingPermit <;> simp_all
  | block block =>
    simp only [processCommand, Option.map_eq_some_iff] at h
    obtain ⟨answer, hanswer, rfl⟩ := h
    exact .block hlooping hpending (by simpa [processable, hpending] using hprocessable) hanswer
  | drain =>
    obtain rfl := Option.some.inj h
    exact .drained hlooping hpending (by simpa [processable, hpending] using hprocessable)

lemma step_steps {n' : Node} {event : Event} (h : n.step x event = some n') :
    Steps x n event n' := by
  cases event with
  | submit command =>
    obtain rfl := Option.some.inj h
    exact .submitted command
  | pause =>
    simp only [step] at h
    split_ifs at h with hguard
    obtain rfl := Option.some.inj h
    rw [not_or, Bool.not_eq_true, Bool.not_eq_true] at hguard
    exact .paused hguard.1 hguard.2
  | resume =>
    simp only [step] at h
    split_ifs at h with hguard
    obtain rfl := Option.some.inj h
    exact .resumed hguard
  | receive e =>
    simp only [step] at h
    split at h
    · obtain rfl := Option.some.inj h
      exact .received ‹_›
    · cases h
  | finish e failed filing =>
    simp only [step, Option.map_eq_some_iff] at h
    obtain ⟨txn, hworking, rfl⟩ := h
    exact .finished hworking
  | process out =>
    simp only [step, turn] at h
    split_ifs at h with hguard
    obtain ⟨command, hpending, hprocess⟩ := Option.bind_eq_some_iff.mp h
    exact processCommand_steps hguard.1 hpending hguard.2 hprocess
  | tick out =>
    simp only [step, turn] at h
    split_ifs at h with hguard hprimary
    · obtain rfl := Option.some.inj h
      exact .ticked hguard.1 hguard.2 hprimary
    · obtain rfl := Option.some.inj h
      exact .skipped hguard.1 hguard.2 (Bool.not_eq_true _ ▸ hprimary)
  | ready =>
    simp only [step, turn] at h
    split at h
    · split_ifs at h with hwaits
      obtain rfl := Option.some.inj h
      exact .heard ‹_› hwaits ‹_›
    · split_ifs at h with hbusy
      obtain rfl := Option.some.inj h
      exact .heardDraining ‹_› hbusy ‹_›
    · cases h
  | switch mode =>
    simp only [step, turn] at h
    split_ifs at h with hguard
    obtain rfl := Option.some.inj h
    exact .switched hguard.1 hguard.2
  | take =>
    simp only [step, turn] at h
    split at h
    · cases h
    · split_ifs at h with hguard
      obtain rfl := Option.some.inj h
      exact .taken ‹_› hguard.1 hguard.2.1 hguard.2.2
  | checkpoint out =>
    simp only [step, turn] at h
    split at h
    · rename_i closing hphase
      split_ifs at h with hidle hclosing
      · obtain rfl := Option.some.inj h
        have hsteps := @Steps.checkpointed x n out _ hphase hidle
        rwa [if_pos hclosing] at hsteps
      · obtain rfl := Option.some.inj h
        have hsteps := @Steps.checkpointed x n out _ hphase hidle
        rwa [if_neg hclosing] at hsteps
    · cases h
  | shutdown out =>
    simp only [step, turn] at h
    split_ifs at h with hguard hprimary
    · obtain rfl := Option.some.inj h
      exact .closed hguard.1 hguard.2 hprimary
    · obtain rfl := Option.some.inj h
      exact .stopped hguard.1 hguard.2 (Bool.not_eq_true _ ▸ hprimary)

end Node

end Blitz.Scheduler
