import Blitz.WatchtowerWithholding
import Blitz.Traces

/-! The watch loop beside a node that moves while it is read: receipts first, then
the head, then one block at a time, every slot judged once against the page of
receipts its poll began with. -/
namespace Blitz.Watchtower
open LittleEndian Receipts CheckedArith LatestIndex Traces HashChain

/-- What a node serves: its log, its slot and its sealed blocks. -/
structure HonestNode where
  op : Operator
  log : List SignedReceipt
  slot : UInt64
  blockhash : Bytes 32
  executing : List ObservedTransaction
  blocks : UInt64 → Option ObservedBlock

/-- The receipt was issued for the transaction: it names its signature, or it is a
ticket for its contents. -/
def Names (r : SignedReceipt) (txn : ObservedTransaction) : Prop :=
  (r.receipt.mode = .plain ∧ r.receipt.txSig = txn.signature) ∨
    (r.receipt.mode = .commit ∧ r.receipt.txHash = txn.txHash)

/-- The block a node seals over what it executed in the slot; the report may list
the transactions in either direction. -/
structure Seals (c : Crypto) (node : HonestNode) (block : ObservedBlock) : Prop where
  slot : block.slot = node.slot
  previous : block.previousBlockhash = node.blockhash
  hash : block.blockhash = fold c node.blockhash (signatures node.executing)
  transactions : block.transactions = node.executing ∨ block.transactions = node.executing.reverse

inductive HonestNode.Step (c : Crypto) (node : HonestNode) : HonestNode → Prop
  /-- A receipt is signed for the current slot and appended to the log. -/
  | persist (r : SignedReceipt) (hlog : HonestLog c node.op (node.log ++ [r]))
      (hingress : r.receipt.ingressSlot = node.slot) :
      Step c node { node with log := node.log ++ [r] }
  /-- A transaction runs in the current slot, under a receipt already in the log. -/
  | execute (txn : ObservedTransaction) (hreceipted : ∃ r ∈ node.log, Names r txn) :
      Step c node { node with executing := node.executing ++ [txn] }
  /-- The slot is over and its block can be asked for. -/
  | advance (block : ObservedBlock) (hseals : Seals c node block)
      (hnext : node.slot.toNat + 1 < 2 ^ 64) :
      Step c node
        { node with
          slot := node.slot + 1
          blockhash := block.blockhash
          executing := []
          blocks := Function.update node.blocks node.slot (some block) }

def maxReceiptsLimit : ℕ := 1000

/-- One page of the log, from `fromSeq` on. -/
def HonestNode.getReceipts (node : HonestNode) (fromSeq limit : ℕ) : List SignedReceipt :=
  (node.log.drop fromSeq).take (min limit maxReceiptsLimit)

def receiptPage : ℕ := 1000

/-- What the loop was started with. The key is the node's identity. -/
structure Config where
  key : Bytes 32
  logId : Option (Bytes 32)
  held : List SignedReceipt
  patience : Patience

/-- How far the current poll has come. -/
inductive Phase
  | idle
  | fetched (op : Operator) (receipts : List SignedReceipt)
  | scanning (op : Operator) (receipts : List SignedReceipt) (head : UInt64)

structure Watch where
  resolved : Option Operator
  nextSlot : UInt64
  tower : Tower
  reports : List Scan
  phase : Phase

namespace Watch

def start : Watch := ⟨none, 1, Tower.new, [], .idle⟩

variable (c : Crypto) (config : Config) (watch : Watch)

/-- The log is adopted once: pinned, or that of the first receipt of the first page,
or all zeros when that page is empty. -/
def operator (receipts : List SignedReceipt) : Operator :=
  watch.resolved.getD ⟨config.key,
    (config.logId.or (receipts.head?.map fun signed => signed.receipt.logId)).getD zeroHash⟩

def fetch (receipts : List SignedReceipt) : Watch :=
  let op := watch.operator config receipts
  { watch with
    resolved := some op
    reports := watch.reports ++ [scanReceipts c op (receipts ++ config.held)]
    phase := .fetched op receipts }

def scanSlot (op : Operator) (receipts : List SignedReceipt) : Option ObservedBlock → Watch
  | none => { watch with nextSlot := watch.nextSlot + 1 }
  | some block =>
    { watch with
      nextSlot := watch.nextSlot + 1
      tower := watch.tower.observe c block
      reports := watch.reports ++
        [scanBlock c block (ReceiptIndex.build c receipts op) op config.key] }

def deliver (op : Operator) (receipts : List SignedReceipt) : Watch :=
  { watch with
    reports := watch.reports ++ [scanWithholding c receipts watch.tower.executed
      watch.tower.blockhashes (saturatingSub watch.nextSlot 1) config.patience op]
    phase := .idle }

end Watch

structure World where
  node : HonestNode
  watch : Watch

inductive Event
  | node | getReceipts | getSlot | getBlock | deliver
  deriving DecidableEq, Repr

/-- Any step of the node, or the next request of the loop. -/
inductive World.Step (c : Crypto) (config : Config) : Event → World → World → Prop
  | node {node node' : HonestNode} {watch : Watch} (hstep : node.Step c node') :
      Step c config .node ⟨node, watch⟩ ⟨node', watch⟩
  | getReceipts {node : HonestNode} {watch : Watch} (hphase : watch.phase = .idle) :
      Step c config .getReceipts ⟨node, watch⟩
        ⟨node, watch.fetch c config (node.getReceipts 0 receiptPage)⟩
  | getSlot {node : HonestNode} {watch : Watch} {op : Operator} {receipts : List SignedReceipt}
      (hphase : watch.phase = .fetched op receipts) :
      Step c config .getSlot ⟨node, watch⟩
        ⟨node, { watch with phase := .scanning op receipts node.slot }⟩
  | getBlock {node : HonestNode} {watch : Watch} {op : Operator} {receipts : List SignedReceipt}
      {head : UInt64} (hphase : watch.phase = .scanning op receipts head)
      (hslot : watch.nextSlot < head) :
      Step c config .getBlock ⟨node, watch⟩
        ⟨node, watch.scanSlot c config op receipts (node.blocks watch.nextSlot)⟩
  | deliver {node : HonestNode} {watch : Watch} {op : Operator} {receipts : List SignedReceipt}
      {head : UInt64} (hphase : watch.phase = .scanning op receipts head)
      (hslot : ¬watch.nextSlot < head) :
      Step c config .deliver ⟨node, watch⟩ ⟨node, watch.deliver c config op receipts⟩

/-- A fresh run of the node under the identity the loop was told. -/
def World.start (config : Config) (logId : Bytes 32) (slot : UInt64) (blockhash : Bytes 32) :
    World :=
  ⟨⟨⟨config.key, logId⟩, [], slot, blockhash, [], fun _ => none⟩, Watch.start⟩

/-- The scan accuses the operator of injecting a transaction. -/
def AccusesInjection (scan : Scan) : Prop :=
  ∃ slot index signature wireBytes,
    Fault.unticketed slot index signature wireBytes ∈ scan.faults

/-- The poll that is about to judge a block follows the node's log, and every
transaction of the block has its receipt at a position of the log the poll's page
reached: already persisted when the page was read, and within its size. -/
def World.Ready (world : World) : Prop :=
  ∀ op receipts head block, world.watch.phase = .scanning op receipts head →
    world.node.blocks world.watch.nextSlot = some block → ∀ txn ∈ block.transactions,
      op = world.node.op ∧
        ∃ i r, i < receipts.length ∧ world.node.log[i]? = some r ∧ Names r txn

section Scans
variable {c : Crypto} {op : Operator} {receipts : List SignedReceipt}

lemma scanReceipts_accuses : ¬AccusesInjection (scanReceipts c op receipts) := by
  intro haccuses
  obtain ⟨slot, index, signature, wireBytes, hf⟩ := haccuses
  have hv := mem_faults.mp hf
  simp only [verdicts, List.mem_append, List.mem_map, List.mem_filterMap] at hv
  rcases hv with ((⟨s, _, hv⟩ | ⟨g, hg, hv⟩) | ⟨s, _, hv⟩) | ⟨⟨p, r⟩, _, hv⟩
  · unfold checkBelongsHere at hv
    cases ha : op.accepts c s <;> simp [ha] at hv
  · obtain ⟨first, rest, rfl, _, _⟩ := SortedGroups.mem_runs hg
    simp only [statementVerdict, checkOneStatementPerSequence, List.head?_cons, Option.map_some,
      Option.some.injEq] at hv
    split at hv <;> cases hv
  · unfold checkOrigin at hv
    split_ifs at hv
    cases hv
  · unfold checkLink at hv
    split_ifs at hv
    cases hv

lemma scanWithholding_accuses {executed : ExecutionIndex} {blockhashes : BlockhashSlots}
    {head : UInt64} {patience : Patience} :
    ¬AccusesInjection (scanWithholding c receipts executed blockhashes head patience op) := by
  intro haccuses
  obtain ⟨slot, index, signature, wireBytes, hf⟩ := haccuses
  obtain ⟨r, _, hverdict⟩ := mem_withholdingFaults.mp hf
  have hnames := promiseVerdicts_names hverdict
  simp [Fault.receipts] at hnames

lemma cover_eq_none {txn : ObservedTransaction} :
    cover c op receipts txn = none ↔ ∀ r ∈ receipts, op.accepts c r = .ok () → ¬Names r txn := by
  rw [cover, Option.or_eq_none_iff, latest_eq_none, latest_eq_none]
  constructor
  · intro huncovered r hr ha hnames
    obtain ⟨hplain, hcommit⟩ := huncovered
    rcases hnames with ⟨hm, hsig⟩ | ⟨hm, hhash⟩
    · exact hplain r hr ⟨ha, hm⟩ hsig
    · exact hcommit r hr ⟨ha, hm⟩ hhash
  · intro h
    constructor
    · intro r hr hmember hsig
      obtain ⟨ha, hm⟩ := hmember
      exact h r hr ha (.inl ⟨hm, hsig⟩)
    · intro r hr hmember hhash
      obtain ⟨ha, hm⟩ := hmember
      exact h r hr ha (.inr ⟨hm, hhash⟩)

lemma scanBlock_accuses {block : ObservedBlock} {identity : Bytes 32}
    {executed : List ObservedTransaction} (h : block.executedOrder c = some executed) :
    AccusesInjection (scanBlock c block (ReceiptIndex.build c receipts op) op identity) ↔
      ∃ txn ∈ executed, cover c op receipts txn = none := by
  unfold AccusesInjection
  simp only [scanBlock_eq h, Scan.mem_faults_recordAll, blockVerdicts, List.not_mem_nil, false_or,
    List.mem_append, List.mem_map, List.mem_flatMap, Prod.exists, List.mem_zipIdx_iff_getElem?,
    checkTicketIsLive_eq_fault, checkPair_eq_fault h]
  constructor
  · intro haccuses
    obtain ⟨slot, index, signature, wireBytes, hf⟩ := haccuses
    rcases hf with ⟨txn, i, hi, ⟨hnone, _⟩ | ⟨_, _, _, _, hf⟩⟩ | ⟨_, _, _, _, _, _, _, _, _, hf⟩
    · exact ⟨txn, List.mem_of_getElem? hi, hnone⟩
    · cases hf
    · cases hf
  · intro hexists
    obtain ⟨txn, htxn, hnone⟩ := hexists
    obtain ⟨i, hi⟩ := List.mem_iff_getElem?.mp htxn
    exact ⟨_, _, _, _, .inl ⟨txn, i, hi, .inl ⟨hnone, rfl⟩⟩⟩

end Scans

section Runs
variable {c : Crypto} {config : Config} {world world' : World} {event : Event}

/-- The page a poll is working from, and whose receipts it takes it for. -/
def Phase.page : Phase → Option (Operator × List SignedReceipt)
  | .idle => none
  | .fetched op receipts => some (op, receipts)
  | .scanning op receipts _ => some (op, receipts)

/-- The hash of a sealed block gives its order away. -/
def Recoverable (c : Crypto) (block : ObservedBlock) : Prop :=
  ∃ executed, block.executedOrder c = some executed ∧
    ∀ txn, txn ∈ executed ↔ txn ∈ block.transactions

lemma Seals.recoverable {node : HonestNode} {block : ObservedBlock} (h : Seals c node block) :
    Recoverable c block := by
  by_cases hforward : fold c block.previousBlockhash (signatures block.transactions) =
      block.blockhash
  · exact ⟨block.transactions, by simp [ObservedBlock.executedOrder, Order.derive, hforward],
      fun _ => Iff.rfl⟩
  · have hreversed : fold c block.previousBlockhash (signatures block.transactions).reverse =
        block.blockhash := by
      rw [h.hash, h.previous]
      rcases h.transactions with htxns | htxns
      · rw [h.previous, h.hash, htxns] at hforward
        exact absurd rfl hforward
      · rw [htxns, signatures, signatures, List.map_reverse, List.reverse_reverse]
    exact ⟨block.transactions.reverse,
      by simp [ObservedBlock.executedOrder, Order.derive, hforward, hreversed],
      fun _ => List.mem_reverse⟩

structure World.Sound (c : Crypto) (config : Config) (world : World) : Prop where
  identity : world.node.op.key = config.key
  log : HonestLog c world.node.op world.node.log
  blocks : ∀ slot block, world.node.blocks slot = some block → Recoverable c block
  resolved : ∀ op, world.watch.resolved = some op → op.key = config.key
  page : ∀ op receipts, world.watch.phase.page = some (op, receipts) →
    op.key = config.key ∧ receipts <+: world.node.log

lemma World.sound_start {logId : Bytes 32} {slot : UInt64} {blockhash : Bytes 32} :
    (World.start config logId slot blockhash).Sound c config where
  identity := rfl
  log := ⟨by simp [World.start], Linked.nil⟩
  blocks := by simp [World.start]
  resolved := by simp [World.start, Watch.start]
  page := by simp [World.start, Watch.start, Phase.page]

lemma Watch.operator_key {watch : Watch}
    (hresolved : ∀ op, watch.resolved = some op → op.key = config.key)
    (receipts : List SignedReceipt) : (watch.operator config receipts).key = config.key := by
  unfold Watch.operator
  cases h : watch.resolved with
  | none => rfl
  | some op => exact hresolved op h

lemma World.Sound.step (h : world.Sound c config) (hstep : World.Step c config event world world') :
    world'.Sound c config := by
  obtain ⟨hidentity, hlog, hblocks, hresolved, hpage⟩ := h
  cases hstep with
  | node hstep =>
    cases hstep with
    | persist r hextended _ =>
      refine ⟨hidentity, hextended, hblocks, hresolved, ?_⟩
      intro op receipts hphase
      obtain ⟨hkey, hreach⟩ := hpage op receipts hphase
      exact ⟨hkey, hreach.trans (List.prefix_append _ _)⟩
    | execute txn _ => exact ⟨hidentity, hlog, hblocks, hresolved, hpage⟩
    | advance block hseals _ =>
      refine ⟨hidentity, hlog, ?_, hresolved, hpage⟩
      intro slot sealed hsealed
      simp only [Function.update_apply] at hsealed
      split_ifs at hsealed
      · obtain rfl := Option.some.inj hsealed
        exact hseals.recoverable
      · exact hblocks slot sealed hsealed
  | getReceipts hphase =>
    have hkey := Watch.operator_key hresolved
    refine ⟨hidentity, hlog, hblocks, ?_, ?_⟩
    · intro op hop
      obtain rfl := Option.some.inj hop
      exact hkey _
    · intro op receipts hp
      obtain ⟨rfl, rfl⟩ := Prod.mk.inj (Option.some.inj hp)
      exact ⟨hkey _, List.take_prefix _ _⟩
  | getSlot hphase =>
    refine ⟨hidentity, hlog, hblocks, hresolved, ?_⟩
    intro op receipts hp
    exact hpage op receipts (by rw [hphase]; exact hp)
  | @getBlock node watch op receipts head hphase _ =>
    have hkept : ∀ served : Option ObservedBlock,
        (watch.scanSlot c config op receipts served).resolved = watch.resolved ∧
          (watch.scanSlot c config op receipts served).phase = watch.phase := by
      intro served
      cases served <;> exact ⟨rfl, rfl⟩
    refine ⟨hidentity, hlog, hblocks, ?_, ?_⟩
    · intro op' hop
      exact hresolved op' (by rw [← (hkept _).1]; exact hop)
    · intro op' receipts' hp
      exact hpage op' receipts' (by rw [← (hkept _).2]; exact hp)
  | deliver hphase _ =>
    refine ⟨hidentity, hlog, hblocks, hresolved, ?_⟩
    intro op receipts hp
    cases hp

lemma exists_named_iff {receipts log : List SignedReceipt} (hreach : receipts <+: log)
    (txn : ObservedTransaction) :
    (∃ i r, i < receipts.length ∧ log[i]? = some r ∧ Names r txn) ↔ ∃ r ∈ receipts, Names r txn := by
  constructor
  · intro hserved
    obtain ⟨i, r, hi, hget, hnames⟩ := hserved
    rw [List.prefix_iff_getElem?.mp hreach i hi] at hget
    obtain rfl := Option.some.inj hget
    exact ⟨_, List.getElem_mem hi, hnames⟩
  · intro hserved
    obtain ⟨r, hr, hnames⟩ := hserved
    obtain ⟨i, hi, rfl⟩ := List.getElem_of_mem hr
    exact ⟨i, _, hi, List.prefix_iff_getElem?.mp hreach i hi, hnames⟩

lemma World.Sound.cover_eq_none_iff (h : world.Sound c config) {op : Operator}
    {receipts : List SignedReceipt} (hkey : op.key = config.key)
    (hreach : receipts <+: world.node.log) (txn : ObservedTransaction) :
    cover c op receipts txn = none ↔ ¬(op = world.node.op ∧ ∃ r ∈ receipts, Names r txn) := by
  rw [cover_eq_none]
  constructor
  · intro hnone hready
    obtain ⟨hop, r, hr, hnames⟩ := hready
    subst hop
    exact hnone r hr (h.log.accepted r (hreach.subset hr)) hnames
  · intro hnot r hr haccepts hnames
    -- Only the log the receipt belongs to accepts it, and the keys agree.
    have hlogs : op.logId = world.node.op.logId := by
      rw [← (Operator.accepts_eq_ok.mp haccepts).1, h.log.logId_eq (hreach.subset hr)]
    have hkeys : op.key = world.node.op.key := hkey.trans h.identity.symm
    exact hnot ⟨by cases op; simp_all, r, hr, hnames⟩

lemma World.Sound.accuses_step (h : world.Sound c config)
    (hstep : World.Step c config event world world') :
    (∃ scan ∈ world'.watch.reports, AccusesInjection scan) ↔
      (∃ scan ∈ world.watch.reports, AccusesInjection scan) ∨
        (event = .getBlock ∧ ¬world.Ready) := by
  cases hstep with
  | node _ => simp
  | getReceipts _ => simp [Watch.fetch, or_and_right, exists_or, scanReceipts_accuses]
  | getSlot _ => simp
  | deliver _ _ => simp [Watch.deliver, or_and_right, exists_or, scanWithholding_accuses]
  | @getBlock node watch op receipts head hphase _ =>
    obtain ⟨hkey, hreach⟩ := h.page op receipts (by rw [hphase]; rfl)
    cases hserved : node.blocks watch.nextSlot with
    | none =>
      have hready : World.Ready ⟨node, watch⟩ := by
        intro _ _ _ block _ hblock
        rw [hserved] at hblock
        cases hblock
      simp [Watch.scanSlot, hready]
    | some block =>
      obtain ⟨executed, horder, htxns⟩ := h.blocks _ block hserved
      have hready : World.Ready ⟨node, watch⟩ ↔
          ∀ txn ∈ block.transactions, op = node.op ∧ ∃ r ∈ receipts, Names r txn := by
        constructor
        · intro hready
          simpa only [exists_named_iff hreach] using hready op receipts head block hphase hserved
        · intro hall op' receipts' head' block' hphase' hserved'
          obtain ⟨rfl, rfl, rfl⟩ := Phase.scanning.inj (hphase.symm.trans hphase')
          obtain rfl := Option.some.inj (hserved.symm.trans hserved')
          simpa only [exists_named_iff hreach] using hall
      have hscan : AccusesInjection
          (scanBlock c block (ReceiptIndex.build c receipts op) op config.key) ↔
            ¬World.Ready ⟨node, watch⟩ := by
        rw [scanBlock_accuses horder, hready]
        simp only [h.cover_eq_none_iff hkey hreach, htxns]
        push Not
        rfl
      simp [Watch.scanSlot, or_and_right, exists_or, hscan]

/-- A run of the loop beside an honest node reports an injection exactly when some
block was judged by a poll that was not ready for it. -/
theorem watch_never_accuses_honest_node_iff {logId : Bytes 32} {slot : UInt64}
    {blockhash : Bytes 32} {t : List (Entry World Event)}
    (hrun : Trace (World.Step c config) (World.start config logId slot blockhash) t world) :
    (∀ scan ∈ world.watch.reports, ¬AccusesInjection scan) ↔
      ∀ x ∈ t, x.event = .getBlock → x.before.Ready := by
  have hsound : ∀ {t : List (Entry World Event)} {world : World},
      Trace (World.Step c config) (World.start config logId slot blockhash) t world →
        world.Sound c config := by
    intro t world hrun
    exact hrun.invariant World.sound_start fun _ _ hstep h => h.step hstep
  rw [← not_iff_not]
  push Not
  induction hrun with
  | nil => simp [World.start, Watch.start]
  | snoc hbefore hstep ih =>
    rw [(hsound hbefore).accuses_step hstep, ih]
    simp only [List.mem_append, List.mem_singleton, or_and_right, exists_or, exists_eq_left]

end Runs

namespace Vectors

/-- The published transaction's receipt as a node in its first slot signs it. -/
def plainFirstSlot : SignedReceipt where
  receipt := { Receipts.Vectors.plainGenesis.receipt with ingressSlot := 1 }
  signature := Bytes.hex 64
    0x435a02a85bd3d6d3f9a5e277b0393b23dc9391394110ee3ea3b3db54032ce5a05fa3c90592e5a38ab659c0914141429bb388653ee4462b768a9298a6f77caa08

def firstBlock : ObservedBlock where
  slot := 1
  previousBlockhash := Bytes.fill 32 0x44
  blockhash := Bytes.hex 32
    0xf9982aa4a21ffb7ab5bd3b48aaf2a20817659cdd55132385838e62155435ddcf
  transactions := [plainTxn]

def watchCrypto : Crypto :=
  recorded Receipts.Vectors.operatorSeed Receipts.Vectors.operatorPubkey
    [(plainFirstSlot.message, plainFirstSlot.signature)]
    [(plainFirstSlot.toBytes, Bytes.hex 32
        0x3f8e534782388ed19ce820959a4311f94a8fbf75d604d3228f65dae4f8c34851),
      (plainWire, plainTxn.txHash)]
    [(firstBlock.previousBlockhash.val ++ plainTxn.signature.val, firstBlock.blockhash)]

/-- The node's key and log id, both known in advance. -/
def pinned : Config where
  key := operator.key
  logId := some operator.logId
  held := []
  patience := Patience.default

def idleNode : HonestNode := (World.start pinned operator.logId 1 (Bytes.fill 32 0x44)).node

def receiptedNode : HonestNode := { idleNode with log := [plainFirstSlot] }

def executedNode : HonestNode := { receiptedNode with executing := [plainTxn] }

def sealedNode : HonestNode :=
  { receiptedNode with
    slot := 2
    blockhash := firstBlock.blockhash
    blocks := Function.update (fun _ => none) 1 (some firstBlock) }

lemma honestLog_firstSlot : HonestLog watchCrypto operator [plainFirstSlot] :=
  ⟨by decide +kernel, Linked.nil.concat rfl rfl⟩

lemma step_persist : idleNode.Step watchCrypto receiptedNode :=
  .persist plainFirstSlot honestLog_firstSlot rfl

lemma step_execute : receiptedNode.Step watchCrypto executedNode :=
  .execute plainTxn ⟨plainFirstSlot, List.mem_singleton_self _, .inl ⟨rfl, rfl⟩⟩

lemma step_advance : executedNode.Step watchCrypto sealedNode :=
  .advance firstBlock ⟨rfl, rfl, by decide +kernel, .inl rfl⟩ (by decide)

/-- The loop after its page is read and before the head is asked for. -/
def fetchedFrom (node : HonestNode) : Watch :=
  Watch.start.fetch watchCrypto pinned (node.getReceipts 0 receiptPage)

def scanningFrom (node : HonestNode) : Watch :=
  { fetchedFrom node with
    phase := .scanning operator (node.getReceipts 0 receiptPage) sealedNode.slot }

def judgedFrom (node : HonestNode) : World :=
  ⟨sealedNode, (scanningFrom node).scanSlot watchCrypto pinned operator
    (node.getReceipts 0 receiptPage) (sealedNode.blocks 1)⟩

abbrev watchStep := World.Step watchCrypto pinned

abbrev watchStart := World.start pinned operator.logId 1 (Bytes.fill 32 0x44)

lemma trace_overtakenPoll : ∃ t, Trace watchStep watchStart t (judgedFrom idleNode) := by
  have h1 : Trace watchStep watchStart [] ⟨idleNode, Watch.start⟩ := .nil
  have h2 := h1.snoc (.getReceipts rfl)
  have h3 := h2.snoc (.node step_persist)
  have h4 := h3.snoc (.node step_execute)
  have h5 := h4.snoc (.node step_advance)
  have h6 := h5.snoc (.getSlot rfl)
  exact ⟨_, h6.snoc (.getBlock rfl (by decide))⟩

lemma trace_readyPoll : ∃ t, Trace watchStep watchStart t (judgedFrom receiptedNode) := by
  have h1 : Trace watchStep watchStart [] ⟨idleNode, Watch.start⟩ := .nil
  have h2 := h1.snoc (.node step_persist)
  have h3 := h2.snoc (.getReceipts rfl)
  have h4 := h3.snoc (.node step_execute)
  have h5 := h4.snoc (.node step_advance)
  have h6 := h5.snoc (.getSlot rfl)
  exact ⟨_, h6.snoc (.getBlock rfl (by decide))⟩

end Vectors

/-- A poll that began before the receipt was written accuses the honest node that
ran the transaction while the poll was under way. -/
theorem watch_accuses_honest_node :
    ∃ t world, Trace Vectors.watchStep Vectors.watchStart t world ∧
      ∃ scan ∈ world.watch.reports,
        Fault.unticketed 1 0 Vectors.plainTxn.signature Vectors.plainWire ∈ scan.faults := by
  obtain ⟨t, hrun⟩ := Vectors.trace_overtakenPoll
  exact ⟨t, _, hrun, by decide +kernel⟩

theorem watch_never_accuses_honest_node_iff_ready :
    ∃ t, Trace Vectors.watchStep Vectors.watchStart t
        (Vectors.judgedFrom Vectors.receiptedNode) ∧
      ((∀ scan ∈ (Vectors.judgedFrom Vectors.receiptedNode).watch.reports,
          ¬AccusesInjection scan) ↔
        ∀ x ∈ t, x.event = .getBlock → x.before.Ready) := by
  obtain ⟨t, hrun⟩ := Vectors.trace_readyPoll
  exact ⟨t, hrun, watch_never_accuses_honest_node_iff hrun⟩

end Blitz.Watchtower
