import Blitz.WatchtowerBlockScan

/-! `scan_withholding`: what the operator promised against where it ran, on the
clocks of delivery, absence and reveal, and a run of blocks under both scans. -/
namespace Blitz.Watchtower
open LittleEndian Receipts CheckedArith LatestIndex

structure Patience where
  heldSlots : UInt64
  absentSlots : UInt64
  revealSlots : UInt64
  maxBlockhashAge : UInt64
  deriving DecidableEq, Repr

def Patience.default : Patience := ⟨32, 64, 150, 1200⟩

/-- Where each transaction ran, by signature and by content hash. -/
structure ExecutionIndex where
  bySignature : Bytes 64 → Option Execution
  byHash : Bytes 32 → Option Execution

def ExecutionIndex.empty : ExecutionIndex := ⟨fun _ => none, fun _ => none⟩

def ExecutionIndex.record (index : ExecutionIndex) (signature : Bytes 64) (txHash : Bytes 32)
    (execution : Execution) : ExecutionIndex :=
  ⟨Function.update index.bySignature signature (some execution),
    Function.update index.byHash txHash (some execution)⟩

def ExecutionIndex.find (index : ExecutionIndex) (receipt : SignedReceipt) : Option Execution :=
  match receipt.receipt.mode with
  | .commit => index.byHash receipt.receipt.txHash
  | .plain => index.bySignature receipt.receipt.txSig
  | .retract => index.bySignature receipt.receipt.txSig
  | .reveal => none

/-- Which slot each block hash belongs to, for the last `capacity` hashes. -/
structure BlockhashSlots where
  slots : Bytes 32 → Option UInt64
  order : List (Bytes 32)
  capacity : ℕ

namespace BlockhashSlots

def defaultCapacity : ℕ := 2048

def new (capacity : ℕ) : BlockhashSlots := ⟨fun _ => none, [], max capacity 1⟩

/-- The loop that drops the oldest hashes until the rest fits. -/
def evict (capacity : ℕ) : List (Bytes 32) → (Bytes 32 → Option UInt64) → BlockhashSlots
  | [], slots => ⟨slots, [], capacity⟩
  | oldest :: rest, slots =>
    if capacity < (oldest :: rest).length then
      evict capacity rest (Function.update slots oldest none)
    else ⟨slots, oldest :: rest, capacity⟩

/-- A hash that is already known only has its slot replaced. -/
def record (known : BlockhashSlots) (blockhash : Bytes 32) (slot : UInt64) : BlockhashSlots :=
  let slots := Function.update known.slots blockhash (some slot)
  if (known.slots blockhash).isSome then { known with slots := slots }
  else evict known.capacity (known.order ++ [blockhash]) slots

def slotOf (known : BlockhashSlots) (blockhash : Bytes 32) : Option UInt64 := known.slots blockhash

end BlockhashSlots

/-- A commit ticket names no block hash it could be placed against. -/
def checkIngressIsPossible (receipt : SignedReceipt) (blockhashes : BlockhashSlots)
    (patience : Patience) : Verdict :=
  if receipt.receipt.mode = .commit then .clean
  else match blockhashes.slotOf receipt.receipt.recentBlockhash with
    | none => .cannotDetermine (.unknownBlockhash receipt.receipt.seq)
    | some blockhashSlot =>
      let ingress := receipt.receipt.ingressSlot
      if ingress < blockhashSlot ∨
          saturatingSub ingress blockhashSlot > patience.maxBlockhashAge then
        .fault (.impossibleIngress receipt blockhashSlot patience.maxBlockhashAge)
      else .clean

def checkDelivery (receipt : SignedReceipt) (executed : ExecutionIndex) (head : UInt64)
    (patience : Patience) : Verdict :=
  let ingress := receipt.receipt.ingressSlot
  match executed.find receipt with
  | none =>
    let waited := saturatingSub head ingress
    if receipt.receipt.mode = .commit then
      if waited > patience.revealSlots then .fault (.notRevealed receipt head waited)
      else .cannotDetermine (.notYetExecuted receipt.receipt.seq)
    else if waited > patience.absentSlots then .fault (.absent receipt head waited)
    else .cannotDetermine (.notYetExecuted receipt.receipt.seq)
  | some execution =>
    let held := saturatingSub execution.slot ingress
    if execution.slot ≥ ingress ∧ held > patience.heldSlots then
      .fault (.withheld receipt execution held)
    else .clean

section Scan
variable (c : Crypto) (receipts : List SignedReceipt) (executed : ExecutionIndex)
  (blockhashes : BlockhashSlots) (head : UInt64) (patience : Patience) (op : Operator)

/-- A withdrawal retires the promise to run, not the statement about ingress. -/
def scanWithholding : Scan :=
  let withdrawn := Withdrawals.build c receipts op
  receipts.foldl (fun scan receipt =>
    if op.accepts c receipt ≠ .ok () then scan
    else if receipt.receipt.mode = .retract then scan
    else
      let scan := scan.record (checkIngressIsPossible receipt blockhashes patience)
      if (withdrawn.of c receipt).isSome then scan
      else scan.record (checkDelivery receipt executed head patience)) {}

/-- What one turn of the loop records. -/
def promiseVerdicts (receipt : SignedReceipt) : List Verdict :=
  if op.accepts c receipt ≠ .ok () ∨ receipt.receipt.mode = .retract then []
  else checkIngressIsPossible receipt blockhashes patience ::
    if takenBack c op receipts receipt ≠ none then []
    else [checkDelivery receipt executed head patience]

lemma scanWithholding_eq :
    scanWithholding c receipts executed blockhashes head patience op =
      Scan.recordAll {} (receipts.flatMap
        (promiseVerdicts c receipts executed blockhashes head patience op)) := by
  rw [scanWithholding, ← foldl_recordAll]
  congr 1
  funext scan receipt
  simp only [of_build, promiseVerdicts]
  by_cases ha : op.accepts c receipt = .ok () <;> by_cases hm : receipt.receipt.mode = .retract <;>
    cases hw : takenBack c op receipts receipt <;> simp [ha, hm, Scan.recordAll]

variable {c receipts executed blockhashes head patience op}

lemma mem_withholdingFaults {f : Fault} :
    f ∈ (scanWithholding c receipts executed blockhashes head patience op).faults ↔
      ∃ receipt ∈ receipts,
        .fault f ∈ promiseVerdicts c receipts executed blockhashes head patience op receipt := by
  simp [scanWithholding_eq, Scan.mem_faults_recordAll]

lemma checkIngress_eq_fault {receipt : SignedReceipt} {f : Fault} :
    checkIngressIsPossible receipt blockhashes patience = .fault f ↔
      receipt.receipt.mode ≠ .commit ∧
        ∃ slot, blockhashes.slotOf receipt.receipt.recentBlockhash = some slot ∧
          (receipt.receipt.ingressSlot < slot ∨
            saturatingSub receipt.receipt.ingressSlot slot > patience.maxBlockhashAge) ∧
          f = .impossibleIngress receipt slot patience.maxBlockhashAge := by
  unfold checkIngressIsPossible
  by_cases hm : receipt.receipt.mode = .commit
  · simp [hm]
  · cases hs : blockhashes.slotOf receipt.receipt.recentBlockhash with
    | none => simp [hm]
    | some slot =>
      dsimp only
      split_ifs with himpossible
      · simp [hm, himpossible, eq_comm]
      · simp [hm, himpossible]

lemma checkDelivery_of_found {receipt : SignedReceipt} {execution : Execution}
    (hfound : executed.find receipt = some execution) :
    checkDelivery receipt executed head patience =
      if patience.heldSlots.toNat < execution.slot.toNat - receipt.receipt.ingressSlot.toNat then
        .fault (.withheld receipt execution
          (saturatingSub execution.slot receipt.receipt.ingressSlot))
      else .clean := by
  unfold checkDelivery
  rw [hfound]
  refine if_congr ?_ rfl rfl
  rw [ge_iff_le, gt_iff_lt, UInt64.le_iff_toNat_le, UInt64.lt_iff_toNat_lt, toNat_saturatingSub]
  omega

lemma checkDelivery_eq_fault {receipt : SignedReceipt} {f : Fault} :
    checkDelivery receipt executed head patience = .fault f ↔
      (∃ execution, executed.find receipt = some execution ∧
        patience.heldSlots.toNat < execution.slot.toNat - receipt.receipt.ingressSlot.toNat ∧
        f = .withheld receipt execution
          (saturatingSub execution.slot receipt.receipt.ingressSlot)) ∨
      executed.find receipt = none ∧
        if receipt.receipt.mode = .commit then
          saturatingSub head receipt.receipt.ingressSlot > patience.revealSlots ∧
            f = .notRevealed receipt head (saturatingSub head receipt.receipt.ingressSlot)
        else saturatingSub head receipt.receipt.ingressSlot > patience.absentSlots ∧
            f = .absent receipt head (saturatingSub head receipt.receipt.ingressSlot) := by
  cases hfound : executed.find receipt with
  | none =>
    unfold checkDelivery
    rw [hfound]
    dsimp only
    split_ifs with hm hreveal habsent
    · simp [hreveal, eq_comm]
    · simp [hreveal]
    · simp [habsent, eq_comm]
    · simp [habsent]
  | some execution =>
    rw [checkDelivery_of_found hfound]
    by_cases hheld :
        patience.heldSlots.toNat < execution.slot.toNat - receipt.receipt.ingressSlot.toNat
    · simp [hheld, eq_comm]
    · simp [hheld]

lemma mem_promiseVerdicts {receipt : SignedReceipt} {v : Verdict} :
    v ∈ promiseVerdicts c receipts executed blockhashes head patience op receipt ↔
      op.accepts c receipt = .ok () ∧ receipt.receipt.mode ≠ .retract ∧
        (checkIngressIsPossible receipt blockhashes patience = v ∨
          takenBack c op receipts receipt = none ∧
            checkDelivery receipt executed head patience = v) := by
  unfold promiseVerdicts
  split_ifs with hskip hback
  · rcases hskip with h | h <;> simp [h]
  · simp only [not_or, not_not, ne_eq] at hskip hback
    simp [hskip, hback, eq_comm]
  · simp only [not_or, not_not, ne_eq] at hskip hback
    simp [hskip, hback, eq_comm]

lemma promiseVerdicts_names {receipt : SignedReceipt} {f : Fault}
    (h : .fault f ∈ promiseVerdicts c receipts executed blockhashes head patience op receipt) :
    f.receipts = [receipt] := by
  obtain ⟨_, _, hingress | ⟨_, hdelivery⟩⟩ := mem_promiseVerdicts.mp h
  · obtain ⟨_, slot, _, _, rfl⟩ := checkIngress_eq_fault.mp hingress
    rfl
  · rcases checkDelivery_eq_fault.mp hdelivery with ⟨execution, _, _, rfl⟩ | ⟨_, habsence⟩
    · rfl
    · split_ifs at habsence <;>
      · obtain ⟨_, rfl⟩ := habsence
        rfl

lemma checkDelivery_mem {receipt : SignedReceipt} (ha : op.accepts c receipt = .ok ())
    (hm : receipt.receipt.mode ≠ .retract) (hw : takenBack c op receipts receipt = none) :
    checkDelivery receipt executed head patience ∈
      promiseVerdicts c receipts executed blockhashes head patience op receipt :=
  mem_promiseVerdicts.mpr ⟨ha, hm, .inr ⟨hw, rfl⟩⟩

/-- A commit ticket whose contents were revealed and run in time is left alone
exactly when the two delays together still fit the delivery delay: the scan
measures from the commitment, not from the reveal. -/
theorem timely_reveal_unaccused_iff (ticket : SignedReceipt) (revealed : UInt64)
    (execution : Execution) (hmem : ticket ∈ receipts) (hmode : ticket.receipt.mode = .commit)
    (hfound : executed.byHash ticket.receipt.txHash = some execution)
    (hreveal : ticket.receipt.ingressSlot.toNat ≤ revealed.toNat ∧
      revealed.toNat - ticket.receipt.ingressSlot.toNat ≤ patience.revealSlots.toNat)
    (hrun : revealed.toNat ≤ execution.slot.toNat ∧
      execution.slot.toNat ≤ revealed.toNat + patience.heldSlots.toNat) :
    (∀ f ∈ (scanWithholding c receipts executed blockhashes head patience op).faults,
        ticket ∉ f.receipts) ↔
      op.accepts c ticket ≠ .ok () ∨ (Withdrawals.build c receipts op).of c ticket ≠ none ∨
        (revealed.toNat - ticket.receipt.ingressSlot.toNat) +
          (execution.slot.toNat - revealed.toNat) ≤ patience.heldSlots.toNat := by
  have hfind : executed.find ticket = some execution := by
    rw [ExecutionIndex.find, hmode]
    exact hfound
  have hdelay : (revealed.toNat - ticket.receipt.ingressSlot.toNat) +
      (execution.slot.toNat - revealed.toNat) =
        execution.slot.toNat - ticket.receipt.ingressSlot.toNat := by
    omega
  rw [of_build, hdelay]
  constructor
  · intro h
    by_contra hcon
    obtain ⟨haccepts, hback, hlong⟩ : op.accepts c ticket = .ok () ∧
        takenBack c op receipts ticket = none ∧
          patience.heldSlots.toNat <
            execution.slot.toNat - ticket.receipt.ingressSlot.toNat := by
      push Not at hcon
      exact hcon
    have hverdict : checkDelivery ticket executed head patience ∈
        promiseVerdicts c receipts executed blockhashes head patience op ticket :=
      checkDelivery_mem haccepts (by simp [hmode]) hback
    rw [checkDelivery_of_found hfind, if_pos hlong] at hverdict
    exact h _ (mem_withholdingFaults.mpr ⟨ticket, hmem, hverdict⟩) (by simp [Fault.receipts])
  · intro h f hf hnames
    obtain ⟨receipt, _, hverdict⟩ := mem_withholdingFaults.mp hf
    rw [promiseVerdicts_names hverdict, List.mem_singleton] at hnames
    subst hnames
    obtain ⟨haccepts, _, hingress | ⟨hback, hdelivery⟩⟩ := mem_promiseVerdicts.mp hverdict
    · exact (checkIngress_eq_fault.mp hingress).1 hmode
    · have hshort := (h.resolve_left (not_not_intro haccepts)).resolve_left (not_not_intro hback)
      rw [checkDelivery_of_found hfind, if_neg (by omega)] at hdelivery
      cases hdelivery

end Scan

namespace Vectors

/-- The published ticket's contents, revealed and run forty slots after it was issued. -/
def lateReveal : Execution := ⟨6150443, 0⟩

def revealedIndex : ExecutionIndex :=
  ExecutionIndex.empty.record commitTxn.signature commitTxn.txHash lateReveal

def revealScan : Scan :=
  scanWithholding Receipts.Vectors.crypto
    [Receipts.Vectors.plainGenesis, Receipts.Vectors.commitChained] revealedIndex
    (BlockhashSlots.new BlockhashSlots.defaultCapacity) 6150443 Patience.default operator

end Vectors

/-- A reveal within the deadline, executed in the slot it arrived in, and still a
fault: forty slots are more than the delivery delay. -/
theorem timely_reveal_accused :
    Receipts.Vectors.commitChained.receipt.mode = .commit ∧
      Vectors.revealedIndex.byHash Receipts.Vectors.commitChained.receipt.txHash =
        some Vectors.lateReveal ∧
      Vectors.lateReveal.slot.toNat - Receipts.Vectors.commitChained.receipt.ingressSlot.toNat ≤
        Patience.default.revealSlots.toNat ∧
      Vectors.revealScan.faults =
        [.withheld Receipts.Vectors.commitChained Vectors.lateReveal 40] := by
  decide +kernel

theorem timely_reveal_unaccused_iff_published :
    (∀ f ∈ Vectors.revealScan.faults, Receipts.Vectors.commitChained ∉ f.receipts) ↔
      Vectors.operator.accepts Receipts.Vectors.crypto Receipts.Vectors.commitChained ≠ .ok () ∨
        (Withdrawals.build Receipts.Vectors.crypto
            [Receipts.Vectors.plainGenesis, Receipts.Vectors.commitChained]
            Vectors.operator).of Receipts.Vectors.crypto Receipts.Vectors.commitChained ≠ none ∨
        (Vectors.lateReveal.slot.toNat -
            Receipts.Vectors.commitChained.receipt.ingressSlot.toNat) +
          (Vectors.lateReveal.slot.toNat - Vectors.lateReveal.slot.toNat) ≤
            Patience.default.heldSlots.toNat :=
  timely_reveal_unaccused_iff Receipts.Vectors.commitChained Vectors.lateReveal.slot
    Vectors.lateReveal (by simp) rfl (by decide +kernel) (by decide) (by decide)

/-- What the scans of earlier blocks leave behind. -/
structure Tower where
  blockhashes : BlockhashSlots
  executed : ExecutionIndex

def Tower.new : Tower := ⟨BlockhashSlots.new BlockhashSlots.defaultCapacity, ExecutionIndex.empty⟩

section Run
variable (c : Crypto)

/-- Only a block whose order is recovered says where its transactions ran. -/
def Tower.observe (tower : Tower) (block : ObservedBlock) : Tower where
  blockhashes := tower.blockhashes.record block.blockhash block.slot
  executed := match block.executedOrder c with
    | none => tower.executed
    | some order => order.zipIdx.foldl (fun executed (txn, position) =>
        executed.record txn.signature txn.txHash ⟨block.slot, UInt32.ofNat position⟩) tower.executed

/-- Every block is observed, scanned against the receipts, and followed by a look
at what has not been delivered by its slot. -/
def scanRun (receipts : List SignedReceipt) (patience : Patience) (op : Operator)
    (identity : Bytes 32) : Tower → List ObservedBlock → List Scan
  | _, [] => []
  | tower, block :: blocks =>
    let tower := tower.observe c block
    scanBlock c block (ReceiptIndex.build c receipts op) op identity ::
      scanWithholding c receipts tower.executed tower.blockhashes block.slot patience op ::
      scanRun receipts patience op identity tower blocks

/-- `txn` ran at position `i` of the block, as far as the block's hash tells. -/
def RanAt (block : ObservedBlock) (i : ℕ) (txn : ObservedTransaction) : Prop :=
  ∃ executed, block.executedOrder c = some executed ∧ executed[i]? = some txn

/-- A client's transaction and the plain receipt it runs under. -/
structure Promised (receipts : List SignedReceipt) (op : Operator) (identity : Bytes 32)
    (txn : ObservedTransaction) (r : SignedReceipt) : Prop where
  client : ¬txn.isIssuedBy identity
  covered : (ReceiptIndex.build c receipts op).find txn = some r
  plain : r.receipt.mode = .plain
  standing : (ReceiptIndex.build c receipts op).withdrawal c r = none

variable {c} {receipts : List SignedReceipt} {patience : Patience} {op : Operator}
  {identity : Bytes 32} {tower : Tower} {blocks : List ObservedBlock} {block : ObservedBlock}

variable (c receipts patience op identity tower) in
lemma mem_scanRun {n : ℕ} (h : blocks[n]? = some block) :
    scanBlock c block (ReceiptIndex.build c receipts op) op identity ∈
        scanRun c receipts patience op identity tower blocks ∧
      ∃ before : Tower, scanWithholding c receipts (before.observe c block).executed
          (before.observe c block).blockhashes block.slot patience op ∈
        scanRun c receipts patience op identity tower blocks := by
  induction blocks generalizing tower n with
  | nil => simp at h
  | cons first rest ih =>
    cases n with
    | zero =>
      obtain rfl := Option.some.inj h
      exact ⟨by simp [scanRun], tower, by simp [scanRun]⟩
    | succ n =>
      obtain ⟨hscan, before, hdelivery⟩ := ih (tower.observe c first) (n := n) (by simpa using h)
      refine ⟨?_, before, ?_⟩
      · exact List.mem_cons_of_mem _ (List.mem_cons_of_mem _ hscan)
      · exact List.mem_cons_of_mem _ (List.mem_cons_of_mem _ hdelivery)

lemma foldl_record_slot {slot : UInt64} {signature : Bytes 64}
    (order : List (ObservedTransaction × ℕ)) (index : ExecutionIndex)
    (h : (∃ x ∈ order, x.1.signature = signature) ∨
      ∃ e, index.bySignature signature = some e ∧ e.slot = slot) :
    ∃ e, (order.foldl (fun executed (txn, position) =>
      executed.record txn.signature txn.txHash ⟨slot, UInt32.ofNat position⟩)
        index).bySignature signature = some e ∧ e.slot = slot := by
  induction order generalizing index with
  | nil => simpa using h
  | cons x order ih =>
    apply ih
    by_cases hx : x.1.signature = signature
    · exact .inr ⟨⟨slot, UInt32.ofNat x.2⟩, by simp [ExecutionIndex.record, hx], rfl⟩
    · rcases h with ⟨y, hy, hsig⟩ | ⟨e, he, hslot⟩
      · rcases List.mem_cons.mp hy with rfl | hy
        · exact absurd hsig hx
        · exact .inl ⟨y, hy, hsig⟩
      · refine .inr ⟨e, ?_, hslot⟩
        simpa [ExecutionIndex.record, Function.update_of_ne (Ne.symm hx)] using he

lemma find_observe (tower : Tower) {i : ℕ} {txn : ObservedTransaction} {r : SignedReceipt}
    (hran : RanAt c block i txn) (hplain : r.receipt.mode = .plain)
    (hsig : r.receipt.txSig = txn.signature) :
    ∃ e, (tower.observe c block).executed.find r = some e ∧ e.slot = block.slot := by
  obtain ⟨executed, horder, hi⟩ := hran
  rw [ExecutionIndex.find, hplain]
  simp only [Tower.observe, horder]
  apply foldl_record_slot
  exact .inl ⟨(txn, i), List.mem_zipIdx_iff_getElem?.mpr hi, hsig.symm⟩

lemma reorder_reported {i j : ℕ} {first second : ObservedTransaction} {r s : SignedReceipt}
    (hfirst : RanAt c block i first) (hsecond : RanAt c block j second) (hij : i < j)
    (hr : Promised c receipts op identity first r)
    (hs : Promised c receipts op identity second s) (hconflict : conflicts first second)
    (hseq : s.receipt.seq < r.receipt.seq) :
    ∃ f ∈ (scanBlock c block (ReceiptIndex.build c receipts op) op identity).faults,
      r ∈ f.receipts ∧ s ∈ f.receipts := by
  obtain ⟨executed, horder, hi⟩ := hfirst
  obtain ⟨_, horder', hj⟩ := hsecond
  obtain rfl := Option.some.inj (horder.symm.trans horder')
  have haccused : Accused c op receipts identity first second r s :=
    { conflict := hconflict
      covered := ⟨find_build c op receipts first ▸ hr.covered,
        find_build c op receipts second ▸ hs.covered⟩
      standing := ⟨withdrawal_build c op receipts r ▸ hr.standing,
        withdrawal_build c op receipts s ▸ hs.standing⟩
      inverted := UInt64.le_of_lt hseq
      relayed := ⟨hr.client, hs.client⟩ }
  refine ⟨.reorder block.slot block.previousBlockhash block.blockhash (signatures executed)
    ⟨r, first.wireBytes, UInt32.ofNat i⟩ ⟨s, second.wireBytes, UInt32.ofNat j⟩, ?_, ?_⟩
  · simp only [scanBlock_eq horder, Scan.mem_faults_recordAll, blockVerdicts, List.not_mem_nil,
      false_or, List.mem_append, List.mem_map, List.mem_flatMap, Prod.exists,
      List.mem_zipIdx_iff_getElem?, mem_drop_zipIdx, checkPair_eq_fault horder]
    exact .inr ⟨first, i, hi, second, j, ⟨hij, hj⟩, r, s, haccused, rfl⟩
  · simp [Fault.receipts]

lemma withheld_reported (tower : Tower) {i : ℕ} {txn : ObservedTransaction} {r : SignedReceipt}
    (hran : RanAt c block i txn) (hr : Promised c receipts op identity txn r)
    (hlate : r.receipt.ingressSlot.toNat + patience.heldSlots.toNat < block.slot.toNat) :
    ∃ f ∈ (scanWithholding c receipts (tower.observe c block).executed
        (tower.observe c block).blockhashes block.slot patience op).faults, r ∈ f.receipts := by
  have hcover : cover c op receipts txn = some r := find_build c op receipts txn ▸ hr.covered
  obtain ⟨hmem, haccepts, hnames⟩ := cover_mem hcover
  have hsig : r.receipt.txSig = txn.signature := by
    rcases hnames with ⟨_, hsig⟩ | ⟨hcommit, _⟩
    · exact hsig
    · rw [hr.plain] at hcommit
      cases hcommit
  obtain ⟨e, hfind, hslot⟩ := find_observe tower hran hr.plain hsig
  have hverdict : checkDelivery r (tower.observe c block).executed block.slot patience ∈
      promiseVerdicts c receipts (tower.observe c block).executed
        (tower.observe c block).blockhashes block.slot patience op r :=
    checkDelivery_mem haccepts (by simp [hr.plain])
      (withdrawal_build c op receipts r ▸ hr.standing)
  rw [checkDelivery_of_found hfind, if_pos (by rw [hslot]; omega)] at hverdict
  exact ⟨_, mem_withholdingFaults.mpr ⟨r, hmem, hverdict⟩, by simp [Fault.receipts]⟩

/-- Two conflicting client transactions that ran against the order of their
receipts are reported when they share a block, or when the one that was overtaken
ran later than its delivery delay allows. -/
theorem inversion_reported {m n i j : ℕ} {earlier later : ObservedBlock}
    {a b : ObservedTransaction} {ra rb : SignedReceipt} (hearlier : blocks[m]? = some earlier)
    (hlater : blocks[n]? = some later) (hb : RanAt c earlier i b) (ha : RanAt c later j a)
    (hbefore : m < n ∨ m = n ∧ i < j) (hpa : Promised c receipts op identity a ra)
    (hpb : Promised c receipts op identity b rb) (hconflict : conflicts b a)
    (hseq : ra.receipt.seq < rb.receipt.seq)
    (hcaught : m = n ∨
      ra.receipt.ingressSlot.toNat + patience.heldSlots.toNat < later.slot.toNat) :
    ∃ scan ∈ scanRun c receipts patience op identity tower blocks, ∃ f ∈ scan.faults,
      ra ∈ f.receipts ∨ rb ∈ f.receipts := by
  rcases hcaught with rfl | hlate
  · obtain rfl := Option.some.inj (hearlier.symm.trans hlater)
    have hij : i < j := by omega
    obtain ⟨f, hf, _, hnames⟩ := reorder_reported hb ha hij hpb hpa hconflict hseq
    exact ⟨_, (mem_scanRun c receipts patience op identity tower hearlier).1, f, hf, .inl hnames⟩
  · obtain ⟨_, before, hscan⟩ := mem_scanRun c receipts patience op identity tower hlater
    obtain ⟨f, hf, hnames⟩ := withheld_reported before ha hpa hlate
    exact ⟨_, hscan, f, hf, .inl hnames⟩

end Run

namespace Vectors

/-- A plain receipt for the ticket's contents, at the position after the first. -/
def plainSecond : SignedReceipt where
  receipt :=
    { Receipts.Vectors.commitChained.receipt with
      mode := .plain
      txSig := Bytes.fill 64 0x77
      committer := Bytes.fill 32 0 }
  signature := Bytes.hex 64
    0x3e010ae400afe9cebbde05686972dbc598a147f045ffcbca255ba9b97172b726b0f77f695344fb598bc1df8213b4eeadfa2702f40203ef6bda0f643b783eac05

def plainPair : List SignedReceipt := [Receipts.Vectors.plainGenesis, plainSecond]

/-- The second receipt's transaction runs alone in one slot. -/
def overtaking : ObservedBlock where
  slot := 6150405
  previousBlockhash := Bytes.fill 32 0x44
  blockhash := Bytes.hex 32
    0x178de16732c15fed2eddb1809f5bab4296be910e41212197c674014fdd51202f
  transactions := [commitTxn]

/-- The first receipt's transaction follows in the next. -/
def overtaken : ObservedBlock where
  slot := 6150406
  previousBlockhash := overtaking.blockhash
  blockhash := Bytes.hex 32
    0xb4f8180101c42415c6cb05ec344622967f6b856ca31a7a0bcdabd33cb690cac6
  transactions := [plainTxn]

/-- The digests of the pair and of the blocks that run it, together or apart. -/
def runCrypto : Crypto :=
  recorded Receipts.Vectors.operatorSeed Receipts.Vectors.operatorPubkey
    (plainPair.map fun s => (s.message, s.signature))
    [(Receipts.Vectors.plainGenesis.toBytes, Bytes.hex 32
        0xd044380c8148b28fe02344b8a682a0410add18432a314bdf97b2bfda75cad9c5),
      (plainSecond.toBytes, Bytes.hex 32
        0xcf64d834100549fbddbbb90907fd197740ae6976a1691566fa129ae410bec6d8),
      (plainWire, plainTxn.txHash), (commitWire, commitTxn.txHash)]
    [(overtaking.previousBlockhash.val ++ commitTxn.signature.val, overtaking.blockhash),
      (overtaken.previousBlockhash.val ++ plainTxn.signature.val, overtaken.blockhash),
      (invertedBlock.previousBlockhash.val ++ commitTxn.signature.val ++ plainTxn.signature.val,
        invertedBlock.blockhash)]

lemma promised_plain : Promised runCrypto plainPair operator identity plainTxn
    Receipts.Vectors.plainGenesis :=
  ⟨by decide +kernel, by decide +kernel, rfl, by decide +kernel⟩

lemma promised_second : Promised runCrypto plainPair operator identity commitTxn plainSecond :=
  ⟨by decide +kernel, by decide +kernel, rfl, by decide +kernel⟩

lemma conflict_pair : conflicts commitTxn plainTxn := by decide +kernel

lemma ranAt_overtaking : RanAt runCrypto overtaking 0 commitTxn :=
  ⟨[commitTxn], by decide +kernel, rfl⟩

lemma ranAt_overtaken : RanAt runCrypto overtaken 0 plainTxn :=
  ⟨[plainTxn], by decide +kernel, rfl⟩

lemma ranAt_inverted : RanAt runCrypto invertedBlock 0 commitTxn ∧
    RanAt runCrypto invertedBlock 1 plainTxn :=
  ⟨⟨[commitTxn, plainTxn], by decide +kernel, rfl⟩, [commitTxn, plainTxn], by decide +kernel, rfl⟩

end Vectors

theorem inversion_reported_inside_block :
    ∃ scan ∈ scanRun Vectors.runCrypto Vectors.plainPair Patience.default Vectors.operator
        Vectors.identity Tower.new [Vectors.invertedBlock], ∃ f ∈ scan.faults,
      Receipts.Vectors.plainGenesis ∈ f.receipts ∨ Vectors.plainSecond ∈ f.receipts :=
  inversion_reported (m := 0) (n := 0) (i := 0) (j := 1) rfl rfl Vectors.ranAt_inverted.1
    Vectors.ranAt_inverted.2 (.inr ⟨rfl, by decide⟩) Vectors.promised_plain
    Vectors.promised_second Vectors.conflict_pair (by decide) (.inl rfl)

/-- The same pair, one slot apart, passes every scan. -/
theorem inversion_across_blocks_unreported :
    [Vectors.overtaking, Vectors.overtaken][0]? = some Vectors.overtaking ∧
      [Vectors.overtaking, Vectors.overtaken][1]? = some Vectors.overtaken ∧
      RanAt Vectors.runCrypto Vectors.overtaking 0 Vectors.commitTxn ∧
      RanAt Vectors.runCrypto Vectors.overtaken 0 Vectors.plainTxn ∧
      Promised Vectors.runCrypto Vectors.plainPair Vectors.operator Vectors.identity
        Vectors.plainTxn Receipts.Vectors.plainGenesis ∧
      Promised Vectors.runCrypto Vectors.plainPair Vectors.operator Vectors.identity
        Vectors.commitTxn Vectors.plainSecond ∧
      conflicts Vectors.commitTxn Vectors.plainTxn ∧
      Receipts.Vectors.plainGenesis.receipt.seq < Vectors.plainSecond.receipt.seq ∧
      ∀ scan ∈ scanRun Vectors.runCrypto Vectors.plainPair Patience.default Vectors.operator
        Vectors.identity Tower.new [Vectors.overtaking, Vectors.overtaken], scan.faults = [] :=
  ⟨rfl, rfl, Vectors.ranAt_overtaking, Vectors.ranAt_overtaken, Vectors.promised_plain,
    Vectors.promised_second, Vectors.conflict_pair, by decide, by decide +kernel⟩

end Blitz.Watchtower
