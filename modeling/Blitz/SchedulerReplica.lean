import Blitz.SchedulerStream

/-! A replica checks every block against what it has executed since the last one. -/
namespace Blitz.Scheduler
open LittleEndian Receipts Solana Validator Watchtower Replication WorkerPool

/-- What a node that follows takes into the hash under way. -/
def ProcessableTransaction.absorbed (txn : ProcessableTransaction) : List UInt8 :=
  match txn.mode with
  | .replay _ => txn.transaction.signature.val
  | _ => []

/-- The hash under way after a command. -/
def absorb (acc : List UInt8) : SchedulerCommand → List UInt8
  | .transaction txn => acc ++ txn.absorbed
  | .block block => block.hash.val
  | .drain => acc

/-- Counts a block that is not the one under way. -/
def mismatch (c : Crypto) (acc : List UInt8) (block : Replication.Block) : ℕ :=
  if block.hash = c.blake3 acc then 0 else 1

/-- The blocks whose hash is not that of the replays since the block before. -/
def mismatches (c : Crypto) : List UInt8 → List SchedulerCommand → ℕ
  | _, [] => 0
  | acc, .block block :: rest => mismatch c acc block + mismatches c block.hash.val rest
  | acc, command :: rest => mismatches c (absorb acc command) rest

section Commands
variable {c : Crypto} {acc : List UInt8} {commands : List SchedulerCommand}

lemma mismatches_append_block (block : Replication.Block) :
    mismatches c acc (commands ++ [.block block]) =
      mismatches c acc commands + mismatch c (commands.foldl absorb acc) block := by
  induction commands generalizing acc with
  | nil => simp [mismatches]
  | cons command commands ih =>
    cases command <;> simp only [List.cons_append, mismatches, List.foldl_cons, ih, absorb, add_assoc]

lemma mismatches_append {command : SchedulerCommand} (h : ∀ block, command ≠ .block block) :
    mismatches c acc (commands ++ [command]) = mismatches c acc commands := by
  induction commands generalizing acc with
  | nil => cases command <;> simp_all [mismatches]
  | cons first commands ih =>
    cases first <;> simp only [List.cons_append, mismatches, ih]

end Commands

namespace Node
variable {x : Setup} {n n' start : Node} {e : ExecutorId} {t : List (Traces.Entry Node Event)}
  {txn : ProcessableTransaction} {out : Outside}

/-- A node that follows from here on, with nothing left to deal with. -/
structure MadeReplica (x : Setup) (start : Node) : Prop extends Rested x start where
  mode : start.coordinator.mode = .replica ⟨none⟩
  index : start.index = 0
  pending : start.pendingCommand = none
  channel : start.transactionsRx = []

lemma Rested.madeReplica (h : Rested x n)
    (hmode : n.coordinator.mode = .startingUp ⟨none⟩ ∨ n.coordinator.mode = .replica ⟨none⟩)
    (hpending : n.pendingCommand = none) (hchannel : n.transactionsRx = []) :
    MadeReplica x (n.switchMode .replica) :=
  { h.switchMode .replica with
    mode := by
      change n.coordinator.switchToReplicaMode.mode = _
      rcases hmode with hmode | hmode <;> simp [ExecutionCoordinator.switchToReplicaMode, hmode]
    index := rfl
    pending := hpending
    channel := hchannel }

lemma Fresh.madeReplica (h : Fresh n) : MadeReplica x (n.switchMode .replica) := by
  refine (Rested.of_fresh h).madeReplica (.inl ?_) ?_ ?_
  all_goals
    obtain ⟨executors, ledger, latestBlock, accountsdbSlot, slotHashes, rfl⟩ := h
    rfl

/-- A run that follows: made a replica, and left one; its ledger takes every block, and no message
names an account twice. -/
structure Follows (x : Setup) (start : Node) (t : List (Traces.Entry Node Event)) (n : Node) :
    Prop where
  run : Run x start t n
  made : MadeReplica x start
  stays : ∀ entry ∈ t, ∀ mode, entry.event ≠ .switch mode
  written : ∀ entry ∈ t, ∀ out, entry.event = .process out → out.ledger = .ok ()
  distinct : ∀ txn ∈ n.history.accepted, txn.Distinct

/-- A node that is made a replica at rest, with nothing left to take up, follows from there on,
whatever it has on record. -/
theorem follows_of_isIdle {t' : List (Traces.Entry Node Event)} (hstart : Fresh start)
    (h : Run x start t n) (hfollows : ∀ entry ∈ t, entry.event ≠ .switch .primary)
    (hlooping : n.phase = .looping) (hidle : n.coordinator.isIdle = true)
    (hpending : n.pendingCommand = none) (hchannel : n.transactionsRx = [])
    (hrun : Run x (n.switchMode .replica) t' n')
    (hstays : ∀ entry ∈ t', ∀ mode, entry.event ≠ .switch mode)
    (hwritten : ∀ entry ∈ t', ∀ out, entry.event = .process out → out.ledger = .ok ())
    (hdistinct : ∀ txn ∈ n'.history.accepted, txn.Distinct) :
    ∃ t₀ n₀, Follows x (n.cleared.switchMode .replica) t₀ n₀ ∧
      t' = t₀.map (Traces.Entry.map (after n)) ∧ n' = after n n₀ := by
  rw [← after_cleared n, switchMode_after] at hrun
  obtain ⟨t₀, n₀, hrun₀, rfl, rfl⟩ := hrun.of_after
  obtain ⟨hbefore, hsince⟩ := List.forall_mem_append.mp hdistinct
  have hrested := h.rested hstart hbefore hlooping hidle
  have hmade : MadeReplica x (n.cleared.switchMode .replica) := by
    obtain ⟨waits, hin⟩ := h.inOrder hstart hfollows
    cases waits with
    | none => exact hrested.madeReplica hin.mode hpending hchannel
    | some w =>
      have hempty : n.coordinator.blockedTransactions w.1 = [] := hrested.queues w.1
      simp [hin.queues, lone] at hempty
  rw [List.forall_mem_map] at hstays hwritten
  exact ⟨t₀, n₀, ⟨hrun₀, hmade, hstays, hwritten, hsince⟩, rfl, rfl⟩

/-- The hash under way is that of the commands dealt with, but for a transaction that waits. -/
structure Following (x : Setup) (start n : Node) (waits : Option (ExecutorId × TransactionWithId)) :
    Prop where
  inOrder : n.InOrder waits []
  hasher : n.hasher ++ waits.toList.flatMap (fun w => w.2.txn.absorbed) =
    n.history.handled.foldl absorb start.hasher
  counted : n.divergences + n.initialMismatches =
    mismatches x.crypto start.hasher n.history.handled
  replays : ∀ txn ∈ n.history.accepted, txn.mode ≠ .execution

/-- Only dispatches since. -/
structure Dispatches (n m : Node) : Prop where
  books : ∃ new : List IndexedTransaction, m.history.dispatched = n.history.dispatched ++ new ∧
    m.hasher = n.hasher ++ new.flatMap fun txn => txn.txn.absorbed
  divergences : m.divergences = n.divergences
  initialMismatches : m.initialMismatches = n.initialMismatches

lemma Dispatches.kept (n : Node) : Kept x (fun txn => txn.mode ≠ .execution) (Dispatches n) := by
  constructor
  · rintro m m' hsame ⟨⟨new, hdispatched, hhasher⟩, hdivergences, hinitial⟩
    exact ⟨⟨new, hsame.dispatched.trans hdispatched, hsame.hasher.trans hhasher⟩,
      hsame.divergences.trans hdivergences, hsame.initialMismatches.trans hinitial⟩
  · rintro m e txn - hmode - ⟨⟨new, hdispatched, hhasher⟩, hdivergences, hinitial⟩
    refine ⟨⟨new ++ [⟨(m.position txn.mode).1, (m.position txn.mode).2, txn⟩], ?_, ?_⟩,
      hdivergences, hinitial⟩
    · change m.history.dispatched ++ _ = _
      rw [hdispatched, List.append_assoc]
      rfl
    · rw [List.flatMap_append, ← List.append_assoc, ← hhasher]
      cases hmode' : txn.mode with
      | execution => exact absurd hmode' hmode
      | simulation => simp [Node.dispatch, hmode', ProcessableTransaction.absorbed]
      | replay ctx => simp [Node.dispatch, hmode', ProcessableTransaction.absorbed]

lemma Dispatches.refl (n : Node) : Dispatches n n := ⟨⟨[], by simp, by simp⟩, rfl, rfl⟩

lemma InOrder.not_primary {waits : Option (ExecutorId × TransactionWithId)}
    {inHand : List ProcessableTransaction} (h : n.InOrder waits inHand) :
    n.coordinator.isPrimary = false := by
  rcases h.mode with hmode | hmode <;> simp [ExecutionCoordinator.isPrimary, hmode]

lemma InOrder.refuses_execution {waits : Option (ExecutorId × TransactionWithId)}
    {inHand : List ProcessableTransaction} (h : n.InOrder waits inHand)
    (mode : TransactionProcessingMode) :
    n.coordinator.isTransactionAllowed mode = false ↔ mode = .execution := by
  rcases h.mode with hmode | hmode
  all_goals cases mode <;> simp [ExecutionCoordinator.isTransactionAllowed, hmode]

namespace Following
variable {waits waits' : Option (ExecutorId × TransactionWithId)}

lemma frame (h : Following x start n waits) (hmode : n'.coordinator.mode = n.coordinator.mode)
    (hqueues : n'.coordinator.blockedTransactions = n.coordinator.blockedTransactions)
    (hhasher : n'.hasher = n.hasher) (hdivergences : n'.divergences = n.divergences)
    (hinitial : n'.initialMismatches = n.initialMismatches)
    (hhandled : n'.history.handled = n.history.handled)
    (haccepted : n'.history.accepted = n.history.accepted)
    (hdispatched : n'.history.dispatched = n.history.dispatched) :
    Following x start n' waits where
  inOrder := h.inOrder.frame hmode hqueues haccepted hdispatched
  hasher := by
    rw [hhasher, hhandled]
    exact h.hasher
  counted := by
    rw [hdivergences, hinitial, hhandled]
    exact h.counted
  replays := by
    rw [haccepted]
    exact h.replays

lemma hasher_dispatches (h : Following x start n waits) (hdispatches : Dispatches n n')
    (hin : n'.InOrder waits' []) {came : List ProcessableTransaction}
    (haccepted : n'.history.accepted = n.history.accepted ++ came) :
    n'.hasher ++ waits'.toList.flatMap (fun w => w.2.txn.absorbed) =
      n.history.handled.foldl absorb start.hasher ++
        came.flatMap ProcessableTransaction.absorbed := by
  -- Whatever is dispatched is what waited, and then what has come since.
  obtain ⟨new, hdispatched, hhasher⟩ := hdispatches.books
  have htxns : waits.toList.map (fun w => w.2.txn) ++ came =
      new.map IndexedTransaction.txn ++ waits'.toList.map fun w => w.2.txn := by
    have hboth := haccepted.symm.trans hin.accepted
    rw [h.inOrder.accepted, hdispatched, List.map_append] at hboth
    simpa [List.append_assoc] using hboth
  have habsorbed := congrArg (List.flatMap ProcessableTransaction.absorbed) htxns
  rw [List.flatMap_append, List.flatMap_append, List.flatMap_map, List.flatMap_map,
    List.flatMap_map] at habsorbed
  rw [hhasher, List.append_assoc, ← habsorbed, ← List.append_assoc, h.hasher]

lemma accepted (h : Following x start n waits) (hsound : n.Sound x) {rest : List ExecutorId}
    (hready : n.coordinator.readyExecutors = e :: rest)
    (hallowed : n.coordinator.isTransactionAllowed txn.mode)
    (hin : ((n.accepting txn rest).scheduleTransaction x e ⟨n.counter, txn⟩).2.InOrder waits' []) :
    Following x start ((n.accepting txn rest).scheduleTransaction x e ⟨n.counter, txn⟩).2 waits' := by
  have hmode : txn.mode ≠ .execution := by
    intro hexecution
    rw [(h.inOrder.refuses_execution _).mpr hexecution] at hallowed
    cases hallowed
  have hdispatches := (Dispatches.kept n).accepted hsound hready hmode (.refl n)
  have huntouched := scheduleTransaction_untouched x (n.accepting txn rest) e ⟨n.counter, txn⟩
  have hhandled := huntouched.sameCommands.handled
  have haccepted := huntouched.accepted
  refine ⟨hin, ?_, ?_, ?_⟩
  · rw [h.hasher_dispatches hdispatches hin haccepted, hhandled]
    simp [accepting, absorb]
  · rw [hdispatches.divergences, hdispatches.initialMismatches, h.counted, hhandled]
    exact (mismatches_append fun block => by simp).symm
  · rw [haccepted]
    intro txn' hmem
    rcases List.mem_append.mp hmem with hmem | hmem
    · exact h.replays txn' hmem
    · rw [List.mem_singleton.mp hmem]
      exact hmode

lemma reported (h : Following x start n waits) (hsound : n.Sound x) {rest : List ExecutorId}
    (hrx : n.readyRx = e :: rest)
    (hin : ({ n with readyRx := rest }.handleReadyExecutor x e).InOrder waits' []) :
    Following x start ({ n with readyRx := rest }.handleReadyExecutor x e) waits' := by
  have hdispatches := (Dispatches.kept n).reported hsound hrx h.replays (.refl n)
  have huntouched := hsound.untouched hrx
  have hhandled := huntouched.sameCommands.handled
  have haccepted : ({ n with readyRx := rest }.handleReadyExecutor x e).history.accepted =
      n.history.accepted ++ [] := by rw [huntouched.accepted, List.append_nil]
  refine ⟨hin, ?_, ?_, ?_⟩
  · rw [h.hasher_dispatches hdispatches hin haccepted, hhandled]
    simp
  · rw [hdispatches.divergences, hdispatches.initialMismatches, h.counted, hhandled]
  · rw [huntouched.accepted]
    exact h.replays

lemma block {block : Replication.Block} {answer : Except String Unit}
    (h : Following x start n none) (hledger : out.ledger = .ok ())
    (hanswer : (n.handled (.block block)).applyReplayedBlock x out block = some (answer, n')) :
    Following x start (n'.answered answer) none := by
  -- Everything before the block has been taken in by the time it is checked.
  have hhasher : n.hasher = n.history.handled.foldl absorb start.hasher := by simpa using h.hasher
  have hadopts := Adopts.applyReplayedBlock h.inOrder.not_primary hledger hanswer
  have htime := Timekeeping.applyReplayedBlock hanswer
  have hhandled : (n'.answered answer).history.handled = n.history.handled ++ [.block block] :=
    htime.sameCommands.handled
  have haccepted : (n'.answered answer).history.accepted = n.history.accepted :=
    htime.sameCommands.accepted
  have hcoordinator : (n'.answered answer).coordinator = n.coordinator := htime.quiet.coordinator
  constructor
  · refine h.inOrder.frame ?_ ?_ haccepted hadopts.dispatched
    · rw [hcoordinator]
    · rw [hcoordinator]
  · rw [hadopts.hasher, hhandled, List.foldl_append]
    exact List.append_nil _
  · rw [hhandled, mismatches_append_block, ← h.counted, ← hhasher]
    unfold mismatch
    split_ifs with hsame
    · obtain ⟨hdivergences, hinitial⟩ := hadopts.agrees hsame
      rw [hdivergences, hinitial, add_zero]
    · exact hadopts.differs hsame
  · rw [haccepted]
    exact h.replays

lemma dropped (h : Following x start n waits)
    (hrefused : n.coordinator.isTransactionAllowed txn.mode = false) :
    Following x start
      { n with
        pendingCommand := none
        history := { n.history with
          handled := n.history.handled ++ [.transaction txn]
          dropped := n.history.dropped ++ [txn] } } waits := by
  have hmode := (h.inOrder.refuses_execution _).mp hrefused
  refine ⟨h.inOrder.frame rfl rfl rfl rfl, ?_, ?_, h.replays⟩
  · rw [List.foldl_append]
    simp only [List.foldl_cons, List.foldl_nil, absorb, ProcessableTransaction.absorbed, hmode,
      List.append_nil]
    exact h.hasher
  · exact h.counted.trans (mismatches_append fun block => by simp).symm

lemma drained (h : Following x start n waits) :
    Following x start ((n.handled .drain).answered (.ok ())) waits := by
  refine ⟨h.inOrder.frame rfl rfl rfl rfl, ?_, ?_, h.replays⟩
  · change _ = (n.history.handled ++ [SchedulerCommand.drain]).foldl absorb start.hasher
    rw [List.foldl_append]
    exact h.hasher
  · exact h.counted.trans (mismatches_append fun block => by simp).symm

lemma releasePermit (h : Following x start n waits) : Following x start n.releasePermit waits := by
  unfold Node.releasePermit
  split
  · exact h.frame rfl rfl rfl rfl rfl rfl rfl rfl
  · exact h

end Following

lemma Following.step {event : Event} (hsound : n.Sound x) (hbehind : n.Behind) (hdrains : n.Drains)
    (hstays : ∀ mode, event ≠ .switch mode)
    (hwritten : ∀ out, event = .process out → out.ledger = .ok ())
    (hdistinct : ∀ txn ∈ n.history.accepted, txn.Distinct) (hstep : n.step x event = some n')
    (h : ∃ waits, Following x start n waits) : ∃ waits, Following x start n' waits := by
  obtain ⟨waits, h⟩ := h
  obtain ⟨waits', hin⟩ := (step_moves hstep).inOrder hsound (hstays _) ⟨waits, h.inOrder⟩
  have hfollows : ¬n.coordinator.isPrimary = true := by simp [h.inOrder.not_primary]
  cases step_steps hstep with
  | accepted hlooping hpending hready hmode hallowed hpermit =>
    exact ⟨waits', h.accepted hsound hready hallowed hin⟩
  | @heard e rest hlooping hwaits hrx =>
    have hquiet := Quiet.releasePermit (n := { n with readyRx := rest }.handleReadyExecutor x e)
    refine ⟨waits', (h.reported hsound hrx (hin.frame ?_ ?_ ?_ ?_)).releasePermit⟩
    · rw [hquiet.coordinator]
    · rw [hquiet.coordinator]
    · exact hquiet.accepted.symm
    · exact hquiet.dispatched.symm
  | heardDraining hphase hbusy hrx => exact ⟨waits', h.reported hsound hrx hin⟩
  | block hlooping hpending hidle hanswer =>
    obtain rfl : waits = none := by
      by_contra hne
      obtain ⟨w, rfl⟩ := Option.ne_none_iff_exists'.mp hne
      have hempty := ((hsound.settled hbehind hdistinct hidle).1 w.1).2
      simp [h.inOrder.queues, lone] at hempty
    exact ⟨none, h.block (hwritten _ rfl) hanswer⟩
  | dropped hlooping hpending hrefused => exact ⟨waits, h.dropped hrefused⟩
  | drained hlooping hpending hidle => exact ⟨waits, h.drained⟩
  | ticked hlooping hwaits hprimary => exact absurd hprimary hfollows
  | closed hlooping hwaits hprimary => exact absurd hprimary hfollows
  | checkpointed hphase hidle => exact absurd (hdrains _ hphase) hfollows
  | switched hlooping hwaits => exact absurd rfl (hstays _)
  | _ => exact ⟨waits, h.frame rfl rfl rfl rfl rfl rfl rfl rfl⟩

lemma MadeReplica.following (h : MadeReplica x start) : Following x start start none := by
  have hnone : start.history = .empty := h.history
  refine ⟨⟨.inr h.mode, funext h.queues, ?_⟩, ?_, ?_, ?_⟩
  · rw [hnone]
    rfl
  · rw [hnone]
    exact List.append_nil _
  · rw [hnone, ← h.cleared]
    rfl
  · rw [hnone]
    intro txn hmem
    cases hmem

namespace Follows

lemma following (h : Follows x start t n) : ∃ waits, Following x start n waits := by
  have hall : n.Behind ∧ n.Drains ∧
      ((∀ txn ∈ n.history.accepted, txn.Distinct) → ∃ waits, Following x start n waits) := by
    refine h.run.keeps (J := fun m => m.Behind ∧ m.Drains ∧
      ((∀ txn ∈ m.history.accepted, txn.Distinct) → ∃ waits, Following x start m waits))
      h.made.sound ?_ ?_
    · refine ⟨fun _ i hi => absurd (h.made.queues i) hi, h.made.drains, fun _ => ⟨none, ?_⟩⟩
      exact h.made.following
    · rintro entry hentry hsound hstep ⟨hbehind, hdrains, hfollowing⟩
      refine ⟨(step_moves hstep).behind hsound hbehind, hdrains.step hsound hstep, ?_⟩
      intro hdistinct
      have hbefore := fun txn htxn => hdistinct txn (step_accepted hsound hstep htxn)
      exact Following.step hsound hbehind hdrains (h.stays entry hentry) (h.written entry hentry)
        hbefore hstep (hfollowing hbefore)
  exact hall.2.2 h.distinct

end Follows

lemma exists_follows {α : Type*} {f : Node → α} {v : α} {first : Node} (hfirst : Fresh first)
    (events : List Event) (hstays : ∀ event ∈ events, ∀ mode, event ≠ .switch mode)
    (hwritten : ∀ event ∈ events, ∀ out, event = .process out → out.ledger = .ok ())
    (hdistinct : ((first.switchMode .replica).play x events).all
      (fun n => decide (∀ txn ∈ n.history.accepted, txn.Distinct)) = true)
    (h : ((first.switchMode .replica).play x events).map f = some v) :
    ∃ t n, Follows x (first.switchMode .replica) t n ∧ t.map Traces.Entry.event = events ∧
      f n = v := by
  obtain ⟨n, hplay, hv⟩ := Option.map_eq_some_iff.mp h
  obtain ⟨t, hrun, hevents⟩ := Traces.trace_of_play hplay
  rw [hplay] at hdistinct
  exact ⟨t, n, ⟨hrun, hfirst.madeReplica, Traces.forall_of_events hevents hstays,
    Traces.forall_of_events hevents hwritten, by simpa using hdistinct⟩, hevents, hv⟩

namespace Vectors

/-- Two payments to replay, and a block. -/
def replay (hash : Bytes 32) : List Event :=
  send (.transaction (replayed 1 0)) ++ send (.transaction (replayed 2 1)) ++ complete 1 ++
    complete 0 ++ send (.block ⟨9, hash, 1754300123⟩)

/-- A block without transactions, under a hash that is not its own. -/
def foreignBlock : List Event := send (.block ⟨10, Bytes.fill 32 1, 1754300124⟩)

end Vectors

/-- A replica raises the alarm for the blocks whose hash is not that of the transactions it was
given since the block before, in the order it was given them, and for no others. -/
theorem alarms_eq_mismatches (h : Follows x start t n) :
    n.divergences + n.initialMismatches =
      mismatches x.crypto start.hasher n.history.handled := by
  obtain ⟨waits, hfollowing⟩ := h.following
  exact hfollowing.counted

theorem alarms_eq_mismatches_caughtUp : ∃ t n t' n' t₀ n₀,
    Run Vectors.setup Vectors.twoExecutors t n ∧ n.initialMismatches = 1 ∧
    Run Vectors.setup (n.switchMode .replica) t' n' ∧ n'.initialMismatches = 2 ∧
    n' = after n n₀ ∧ Follows Vectors.setup (n.cleared.switchMode .replica) t₀ n₀ ∧
    n₀.divergences + n₀.initialMismatches = mismatches Vectors.setup.crypto
      (n.cleared.switchMode .replica).hasher n₀.history.handled := by
  obtain ⟨t, n, hrun, hevents, hfacts⟩ := exists_run (x := Vectors.setup)
    (n := Vectors.twoExecutors) Vectors.caughtUp
    (f := fun n => (decide (n.phase = .looping ∧ n.coordinator.isIdle = true ∧
        n.pendingCommand.isNone = true ∧ n.transactionsRx.isEmpty = true ∧ n.initialMismatches = 1),
      ((n.switchMode .replica).play Vectors.setup Vectors.foreignBlock).map fun n' : Node =>
        decide (n'.initialMismatches = 2 ∧ ∀ txn ∈ n'.history.accepted, txn.Distinct)))
    (v := (true, some true)) (by decide +kernel)
  obtain ⟨hrested, hplay⟩ := Prod.mk.inj hfacts
  obtain ⟨hlooping, hidle, hpending, hchannel, hone⟩ := of_decide_eq_true hrested
  obtain ⟨t', n', hrun', hevents', hfacts'⟩ := exists_run _ hplay
  obtain ⟨htwo, hdistinct⟩ := of_decide_eq_true hfacts'
  have hfollows : ∀ event ∈ Vectors.caughtUp, event ≠ .switch .primary := by
    simp [Vectors.caughtUp, Vectors.send, Vectors.complete]
  have hstays : ∀ event ∈ Vectors.foreignBlock, ∀ mode, event ≠ .switch mode := by
    simp [Vectors.foreignBlock, Vectors.send]
  have hwritten : ∀ event ∈ Vectors.foreignBlock, ∀ out, event = .process out →
      out.ledger = .ok () := by
    simp [Vectors.foreignBlock, Vectors.send, Vectors.outside]
  obtain ⟨t₀, n₀, hfollows₀, -, rfl⟩ := follows_of_isIdle Vectors.twoExecutors_fresh hrun
    (Traces.forall_of_events hevents hfollows) hlooping hidle (Option.isNone_iff_eq_none.mp hpending)
    (List.isEmpty_iff.mp hchannel) hrun' (Traces.forall_of_events hevents' hstays)
    (Traces.forall_of_events hevents' hwritten) hdistinct
  exact ⟨t, n, t', _, t₀, n₀, hrun, hone, hrun', htwo, rfl, hfollows₀,
    alarms_eq_mismatches hfollows₀⟩

lemma Writes.isPrimary_eq {event : Event} (h : Writes x n event n')
    (hstays : ∀ mode, event ≠ .switch mode) :
    n'.coordinator.isPrimary = n.coordinator.isPrimary := by
  cases h with
  | same hsame => exact hsame.isPrimary
  | scheduled hkeeps => exact hkeeps (Kept.isPrimary _) (fun _ _ => trivial) rfl
  | finished hworking => rfl
  | closed hevent hprimary hcloses => exact hcloses.isPrimary
  | switched mode => exact absurd rfl (hstays mode)
  | adopted hfollows hpending hidle hadopts => exact hadopts.isPrimary

lemma Writes.index_eq_zero {event : Event} (h : Writes x n event n')
    (hstays : ∀ mode, event ≠ .switch mode) (hfollows : n.coordinator.isPrimary = false)
    (hreplays : ∀ txn ∈ n'.history.accepted, txn.mode ≠ .execution) (hindex : n.index = 0) :
    n'.index = 0 := by
  cases h with
  | same hsame => exact hsame.index.trans hindex
  | scheduled hkeeps =>
    refine hkeeps (J := fun m => m.index = 0) ⟨?_, ?_⟩ hreplays hindex
    · intro m m' hsame hm
      exact hsame.index.trans hm
    · intro m e txn _ hmode _ hm
      simp [dispatch, hmode, hm]
  | finished hworking => exact hindex
  | closed hevent hprimary => exact absurd hprimary (by simp [hfollows])
  | switched mode => exact absurd rfl (hstays mode)
  | adopted _ _ _ hadopts => exact hadopts.index

lemma Follows.index_eq_zero (h : Follows x start t n) : n.index = 0 := by
  obtain ⟨waits, hfollowing⟩ := h.following
  have hall : n.coordinator.isPrimary = false ∧ n.index = 0 := by
    refine h.run.keeps_books (J := fun m => m.coordinator.isPrimary = false ∧ m.index = 0)
      h.made.sound h.made.drains hfollowing.replays ⟨?_, h.made.index⟩ ?_
    · simp [ExecutionCoordinator.isPrimary, h.made.mode]
    · rintro entry hentry hsound hreplays hwrites ⟨hfollows, hindex⟩
      exact ⟨(hwrites.isPrimary_eq (h.stays entry hentry)).trans hfollows,
        hwrites.index_eq_zero (h.stays entry hentry) hfollows hreplays hindex⟩
  exact hall.2

/-- What was started for execution since a state, in this order. -/
def executedSince (n m : Node) : List IndexedTransaction :=
  (m.history.dispatched.drop n.history.dispatched.length).filter fun txn =>
    txn.txn.mode = .execution

/-- Since it took over, the node numbers from zero in the slot it took over in. -/
structure Renumbered (n m : Node) : Prop where
  slot : m.slot = n.slot
  grown : n.history.dispatched <+: m.history.dispatched
  positions : (n.executedSince m).map (fun txn => (txn.slot, txn.index)) =
    (List.range (n.executedSince m).length).map fun i => (n.slot, UInt32.ofNat i)
  index : m.index = UInt32.ofNat (n.executedSince m).length

namespace Renumbered
variable {m m' : Node}

lemma frame (h : Renumbered n m) (hslot : m'.slot = m.slot) (hindex : m'.index = m.index)
    (hdispatched : m'.history.dispatched = m.history.dispatched) : Renumbered n m' := by
  have hsince : n.executedSince m' = n.executedSince m := by
    rw [executedSince, executedSince, hdispatched]
  exact ⟨hslot.trans h.slot, hdispatched ▸ h.grown, hsince ▸ h.positions,
    hindex.trans (hsince ▸ h.index)⟩

lemma dispatch (h : Renumbered n m) : Renumbered n (m.dispatch x e txn) := by
  have hlength := h.grown.length_le
  have hsince : n.executedSince (m.dispatch x e txn) = n.executedSince m ++
      if txn.mode = .execution then [⟨m.slot, m.index, txn⟩] else [] := by
    have hdispatched : (m.dispatch x e txn).history.dispatched = m.history.dispatched ++
        [⟨(m.position txn.mode).1, (m.position txn.mode).2, txn⟩] := rfl
    rw [executedSince, hdispatched, List.drop_append_of_le_length hlength, List.filter_append,
      ← executedSince]
    cases hmode : txn.mode <;> simp [hmode, position]
  refine ⟨h.slot, h.grown.trans (List.prefix_append _ _), ?_, ?_⟩
  · rw [hsince]
    split_ifs
    · rw [List.map_append, h.positions, List.length_append, List.length_singleton, List.range_succ,
        List.map_append, h.index, h.slot]
      rfl
    · rw [List.append_nil]
      exact h.positions
  · rw [hsince]
    split_ifs with hmode
    · simp [Node.dispatch, hmode, h.index]
    · simp [Node.dispatch, hmode, h.index]

lemma writes {event : Event} (h : Renumbered n m) (hwrites : Writes x m event m')
    (hprimary : m.coordinator.isPrimary = true) (hstays : ∀ mode, event ≠ .switch mode)
    (hopen : event.closing = none) : Renumbered n m' := by
  cases hwrites with
  | same hsame => exact h.frame hsame.slot hsame.index hsame.dispatched
  | scheduled hkeeps =>
    refine hkeeps (P := fun _ => True) ⟨?_, ?_⟩ (fun _ _ => trivial) h
    · intro m m' hsame hm
      exact hm.frame hsame.slot hsame.index hsame.dispatched
    · intro m e txn _ _ _ hm
      exact hm.dispatch
  | finished hworking => exact h.frame rfl rfl rfl
  | closed hevent => exact absurd (hopen.symm.trans hevent) (by simp)
  | switched mode => exact absurd rfl (hstays mode)
  | adopted hfollows => exact absurd hprimary (by simp [hfollows])

end Renumbered

/-- A replica that takes over within a slot gives out the positions of the transactions it has
replayed in that slot once more, from the first on. -/
theorem promoted_reuses_positions {m : Node} {t' : List (Traces.Entry Node Event)}
    (h : Follows x start t n) (hrun : Run x (n.switchMode .primary) t' m)
    (hstays : ∀ entry ∈ t', ∀ mode, entry.event ≠ .switch mode)
    (hopen : ∀ entry ∈ t', entry.event.closing = none) {replayed : IndexedTransaction}
    (hmem : replayed ∈ n.history.dispatched) (hslot : replayed.slot = n.slot)
    (hindex : replayed.index.toNat < (n.executedSince m).length) :
    replayed ∈ m.history.dispatched ∧
      ∃ txn ∈ m.history.dispatched, txn ≠ replayed ∧ txn.slot = replayed.slot ∧
        txn.index = replayed.index := by
  obtain ⟨waits, hfollowing⟩ := h.following
  have hsound := h.run.sound h.made.sound
  have hall : m.coordinator.isPrimary = true ∧ Renumbered n m := by
    refine hrun.keeps_books (P := fun _ => True)
      (J := fun m => m.coordinator.isPrimary = true ∧ Renumbered n m) (hsound.switchMode _)
      (fun _ _ => n.coordinator.isPrimary_switchToPrimaryMode) (fun _ _ => trivial) ?_ ?_
    · refine ⟨n.coordinator.isPrimary_switchToPrimaryMode, rfl, List.prefix_refl _, ?_, ?_⟩
      · simp [executedSince, switchMode]
      · simp [executedSince, switchMode, h.index_eq_zero]
    · rintro entry hentry - - hwrites ⟨hprimary, hrenumbered⟩
      exact ⟨(hwrites.isPrimary_eq (hstays entry hentry)).trans hprimary,
        hrenumbered.writes hwrites hprimary (hstays entry hentry) (hopen entry hentry)⟩
  obtain ⟨-, hrenumbered⟩ := hall
  have hposition : (replayed.slot, replayed.index) ∈
      (n.executedSince m).map fun txn => (txn.slot, txn.index) := by
    rw [hrenumbered.positions, List.mem_map]
    exact ⟨replayed.index.toNat, List.mem_range.mpr hindex, by simp [hslot]⟩
  obtain ⟨txn, htxn, heq⟩ := List.mem_map.mp hposition
  obtain ⟨hin, hmode⟩ := List.mem_filter.mp htxn
  refine ⟨hrenumbered.grown.subset hmem, txn, List.mem_of_mem_drop hin, ?_, (Prod.mk.inj heq).1,
    (Prod.mk.inj heq).2⟩
  rintro rfl
  exact hfollowing.replays _ (hsound.2.dispatched_accepted hmem) (by simpa using hmode)

theorem promoted_reuses_positions_replayed : ∃ t n t' m,
    Follows Vectors.setup (Vectors.twoExecutors.switchMode .replica) t n ∧
    Run Vectors.setup (n.switchMode .primary) t' m ∧
    ⟨9, 0, Vectors.replayed 1 0⟩ ∈ m.history.dispatched ∧
      ∃ txn ∈ m.history.dispatched, txn ≠ ⟨9, 0, Vectors.replayed 1 0⟩ ∧ txn.slot = 9 ∧
        txn.index = 0 := by
  obtain ⟨t, n, hfollows, -, hfacts⟩ := exists_follows Vectors.twoExecutors_fresh
    (Vectors.send (.transaction (Vectors.replayed 1 0)) ++ Vectors.complete 1)
    (x := Vectors.setup)
    (f := fun n => (n.slot, n.history.dispatched,
      ((n.switchMode .primary).play Vectors.setup
        (Vectors.send (.transaction (Vectors.executed 2)))).map
        fun m => (n.executedSince m).length))
    (v := (9, [⟨9, 0, Vectors.replayed 1 0⟩], some 1))
    (by simp [Vectors.send, Vectors.complete])
    (by simp [Vectors.send, Vectors.complete, Vectors.outside])
    (by decide +kernel) (by decide +kernel)
  simp only [Prod.mk.injEq] at hfacts
  obtain ⟨hslot, hdispatched, hplay⟩ := hfacts
  obtain ⟨t', m, hrun, hevents, hlength⟩ := exists_run _ hplay
  have hmem : ⟨9, 0, Vectors.replayed 1 0⟩ ∈ n.history.dispatched := by
    rw [hdispatched]
    exact List.mem_singleton_self _
  refine ⟨t, n, t', m, hfollows, hrun,
    promoted_reuses_positions hfollows hrun ?_ ?_ hmem hslot.symm ?_⟩
  · exact Traces.forall_of_events (P := fun event => ∀ mode, event ≠ .switch mode) hevents
      (by simp [Vectors.send])
  · exact Traces.forall_of_events (P := fun event => event.closing = none) hevents
      (by simp [Vectors.send, Event.closing])
  · rw [hlength]
    decide

end Node

end Blitz.Scheduler
