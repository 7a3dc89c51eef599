import Blitz.WatchtowerHonestLog
import Blitz.LatestIndex

/-! `scan_block`: a block's recovered execution order against the receipts the
operator issued, and which of the faults it reports re-derive. -/
namespace Blitz.Watchtower
open LittleEndian Receipts CheckedArith LatestIndex

structure ObservedTransaction where
  signature : Bytes 64
  txHash : Bytes 32
  feePayer : Bytes 32
  writable : List (Bytes 32)
  readonly : List (Bytes 32)
  wireBytes : List UInt8
  deriving DecidableEq

def ObservedTransaction.isIssuedBy (txn : ObservedTransaction) (identity : Bytes 32) : Prop :=
  txn.feePayer = identity

instance (txn : ObservedTransaction) (identity : Bytes 32) : Decidable (txn.isIssuedBy identity) :=
  inferInstanceAs (Decidable (txn.feePayer = identity))

structure ObservedBlock where
  slot : UInt64
  previousBlockhash : Bytes 32
  blockhash : Bytes 32
  transactions : List ObservedTransaction
  deriving DecidableEq

def signatures (txns : List ObservedTransaction) : List (Bytes 64) :=
  txns.map fun txn => txn.signature

/-- Which reading of a reported block reproduces its hash. -/
inductive Order
  | asReported | reversed | unverifiable
  deriving DecidableEq, Repr

def Order.derive (c : Crypto) (block : ObservedBlock) : Order :=
  let forward := signatures block.transactions
  if fold c block.previousBlockhash forward = block.blockhash then .asReported
  else if fold c block.previousBlockhash forward.reverse = block.blockhash then .reversed
  else .unverifiable

def ObservedBlock.executedOrder (c : Crypto) (block : ObservedBlock) :
    Option (List ObservedTransaction) :=
  match Order.derive c block with
  | .asReported => some block.transactions
  | .reversed => some block.transactions.reverse
  | .unverifiable => none

def touches (txn : ObservedTransaction) (written : List (Bytes 32)) : Prop :=
  ∃ key ∈ written, key ∈ txn.writable ∨ key ∈ txn.readonly

instance (txn : ObservedTransaction) (written : List (Bytes 32)) : Decidable (touches txn written) :=
  inferInstanceAs (Decidable (∃ key ∈ written, _))

/-- Their account sets meet on an account that one of them writes. -/
def conflicts (a b : ObservedTransaction) : Prop := touches a b.writable ∨ touches b a.writable

instance (a b : ObservedTransaction) : Decidable (conflicts a b) :=
  inferInstanceAs (Decidable (_ ∨ _))

structure Withdrawals where
  byWithdrawnHash : Bytes 32 → Option SignedReceipt

structure ReceiptIndex where
  bySignature : Bytes 64 → Option SignedReceipt
  byHash : Bytes 32 → Option SignedReceipt
  withdrawn : Withdrawals

section Index
variable (c : Crypto)

/-- Nothing enters unverified. -/
def Withdrawals.build (receipts : List SignedReceipt) (op : Operator) : Withdrawals :=
  receipts.foldl (fun withdrawals signed =>
    if signed.receipt.mode ≠ .retract ∨ op.accepts c signed ≠ .ok () then withdrawals
    else ⟨Function.update withdrawals.byWithdrawnHash signed.receipt.txHash (some signed)⟩)
    ⟨fun _ => none⟩

def Withdrawals.of (withdrawals : Withdrawals) (receipt : SignedReceipt) : Option SignedReceipt :=
  withdrawals.byWithdrawnHash (receipt.receiptHash c)

/-- One turn of the loop: a plain receipt goes in under the signature it names, a
ticket under the hash it committed to. -/
def ReceiptIndex.insert (op : Operator) (index : ReceiptIndex) (signed : SignedReceipt) :
    ReceiptIndex :=
  if op.accepts c signed ≠ .ok () then index
  else match signed.receipt.mode with
    | .commit =>
      { index with byHash := Function.update index.byHash signed.receipt.txHash (some signed) }
    | .plain =>
      { index with
        bySignature := Function.update index.bySignature signed.receipt.txSig (some signed) }
    | .retract => index
    | .reveal => index

def ReceiptIndex.build (receipts : List SignedReceipt) (op : Operator) : ReceiptIndex :=
  receipts.foldl (ReceiptIndex.insert c op)
    ⟨fun _ => none, fun _ => none, Withdrawals.build c receipts op⟩

def ReceiptIndex.find (index : ReceiptIndex) (txn : ObservedTransaction) : Option SignedReceipt :=
  (index.bySignature txn.signature).or (index.byHash txn.txHash)

def ReceiptIndex.withdrawal (index : ReceiptIndex) (receipt : SignedReceipt) :
    Option SignedReceipt := index.withdrawn.of c receipt

end Index

section Checks
variable (c : Crypto) (block : ObservedBlock) (receipts : ReceiptIndex)

/-- A position in a block must be backed by a receipt that is still standing. -/
def checkTicketIsLive (index : UInt32) (txn : ObservedTransaction)
    (executed : List ObservedTransaction) : Verdict :=
  match receipts.find txn with
  | none => .fault (.unticketed block.slot index txn.signature txn.wireBytes)
  | some receipt =>
    match receipts.withdrawal c receipt with
    | none => .clean
    | some withdrawal => .fault (.withdrawnButExecuted receipt withdrawal ⟨block.slot, index⟩
        block.previousBlockhash block.blockhash (signatures executed))

/-- `first` executed before `second`. The order has been derived by the time this
runs, so deriving it again does not fail. -/
def checkPair (firstIndex : UInt32) (first : ObservedTransaction) (secondIndex : UInt32)
    (second : ObservedTransaction) (op : Operator) (identity : Bytes 32) : Verdict :=
  if ¬conflicts first second then .clean
  else match receipts.find first, receipts.find second with
    | some firstReceipt, some secondReceipt =>
      if op.accepts c firstReceipt ≠ .ok () ∨ op.accepts c secondReceipt ≠ .ok () then
        .cannotDetermine (.missingReceipt block.slot)
      else if receipts.withdrawal c firstReceipt ≠ none ∨
          receipts.withdrawal c secondReceipt ≠ none then
        .cannotDetermine (.withdrawnReceipt block.slot)
      else if firstReceipt.receipt.seq < secondReceipt.receipt.seq then .clean
      else if first.isIssuedBy identity ∨ second.isIssuedBy identity then
        .cannotDetermine (.operatorIssuedPair block.slot)
      else .fault (.reorder block.slot block.previousBlockhash block.blockhash
        (signatures ((block.executedOrder c).getD []))
        ⟨firstReceipt, first.wireBytes, firstIndex⟩ ⟨secondReceipt, second.wireBytes, secondIndex⟩)
    | _, _ => .cannotDetermine (.missingReceipt block.slot)

/-- Both indices are cast from `usize` to `u32`. -/
def scanBlock (op : Operator) (identity : Bytes 32) : Scan :=
  match block.executedOrder c with
  | none => Scan.record {} (.cannotDetermine (.unverifiableBlock block.slot))
  | some executed =>
    let scan := executed.zipIdx.foldl (fun scan (txn, index) =>
      scan.record (checkTicketIsLive c block receipts (UInt32.ofNat index) txn executed)) {}
    executed.zipIdx.foldl (fun scan (first, earlier) =>
      (executed.zipIdx.drop (earlier + 1)).foldl (fun scan (second, later) =>
        scan.record (checkPair c block receipts (UInt32.ofNat earlier) first (UInt32.ofNat later)
          second op identity)) scan) scan

end Checks

section Cover
variable (c : Crypto) (op : Operator) (list : List SignedReceipt)

/-- The operator's own receipts of one mode. -/
def Issued (mode : Mode) (s : SignedReceipt) : Prop :=
  op.accepts c s = .ok () ∧ s.receipt.mode = mode

instance (mode : Mode) : DecidablePred (Issued c op mode) := fun _ =>
  inferInstanceAs (Decidable (_ ∧ _))

/-- The last plain receipt that names the signature, or else the last ticket that
committed to the contents. -/
def cover (txn : ObservedTransaction) : Option SignedReceipt :=
  (latest (Issued c op .plain) (·.receipt.txSig) list txn.signature).or
    (latest (Issued c op .commit) (·.receipt.txHash) list txn.txHash)

/-- The last retraction that names the receipt. -/
def takenBack (r : SignedReceipt) : Option SignedReceipt :=
  latest (Issued c op .retract) (·.receipt.txHash) list (r.receiptHash c)

lemma foldl_insert (index : ReceiptIndex) :
    list.foldl (ReceiptIndex.insert c op) index =
      ⟨list.foldl (insertIf (Issued c op .plain) (·.receipt.txSig)) index.bySignature,
        list.foldl (insertIf (Issued c op .commit) (·.receipt.txHash)) index.byHash,
        index.withdrawn⟩ := by
  induction list generalizing index with
  | nil => rfl
  | cons s list ih =>
    rw [List.foldl_cons, List.foldl_cons, List.foldl_cons, ih]
    by_cases ha : op.accepts c s = .ok ()
    · cases hm : s.receipt.mode <;> simp [ReceiptIndex.insert, insertIf, Issued, ha, hm]
    · simp [ReceiptIndex.insert, insertIf, Issued, ha]

lemma find_build (txn : ObservedTransaction) :
    (ReceiptIndex.build c list op).find txn = cover c op list txn := by
  rw [ReceiptIndex.build, foldl_insert, ReceiptIndex.find]
  dsimp only
  rw [foldl_insertIf, foldl_insertIf, Option.or_none, Option.or_none, cover]

lemma of_build (r : SignedReceipt) :
    (Withdrawals.build c list op).of c r = takenBack c op list r := by
  have hfold (w : Withdrawals) : (list.foldl (fun withdrawals signed =>
      if signed.receipt.mode ≠ .retract ∨ op.accepts c signed ≠ .ok () then withdrawals
      else ⟨Function.update withdrawals.byWithdrawnHash signed.receipt.txHash (some signed)⟩)
      w).byWithdrawnHash =
        list.foldl (insertIf (Issued c op .retract) (·.receipt.txHash)) w.byWithdrawnHash := by
    induction list generalizing w with
    | nil => rfl
    | cons s list ih =>
      rw [List.foldl_cons, List.foldl_cons, ih]
      by_cases ha : op.accepts c s = .ok () <;> by_cases hm : s.receipt.mode = .retract <;>
        simp [insertIf, Issued, ha, hm]
  rw [Withdrawals.of, Withdrawals.build, hfold, foldl_insertIf, Option.or_none, takenBack]

lemma withdrawal_build (r : SignedReceipt) :
    (ReceiptIndex.build c list op).withdrawal c r = takenBack c op list r := by
  rw [ReceiptIndex.build, foldl_insert, ReceiptIndex.withdrawal, of_build]

variable {c op list}

lemma cover_mem {txn : ObservedTransaction} {r : SignedReceipt}
    (h : cover c op list txn = some r) :
    r ∈ list ∧ op.accepts c r = .ok () ∧
      ((r.receipt.mode = .plain ∧ r.receipt.txSig = txn.signature) ∨
        (r.receipt.mode = .commit ∧ r.receipt.txHash = txn.txHash)) := by
  rcases Option.or_eq_some_iff.mp h with h | ⟨_, h⟩
  · obtain ⟨hmem, ⟨ha, hm⟩, hk⟩ := latest_eq_some h
    exact ⟨hmem, ha, Or.inl ⟨hm, hk⟩⟩
  · obtain ⟨hmem, ⟨ha, hm⟩, hk⟩ := latest_eq_some h
    exact ⟨hmem, ha, Or.inr ⟨hm, hk⟩⟩

lemma cover_eq_some {txn : ObservedTransaction} {r : SignedReceipt}
    (h : cover c op list txn = some r) :
    op.accepts c r = .ok () ∧
      ((r.receipt.mode = .plain ∧ r.receipt.txSig = txn.signature) ∨
        (r.receipt.mode = .commit ∧ r.receipt.txSig = zeroSig)) := by
  obtain ⟨_, ha, hplain | ⟨hm, _⟩⟩ := cover_mem h
  · exact ⟨ha, Or.inl hplain⟩
  · have hvalid := (SignedReceipt.verify_eq_ok.mp (Operator.accepts_eq_ok.mp ha).2).1
    refine ⟨ha, Or.inr ⟨hm, ?_⟩⟩
    by_contra hsig
    simp [Receipt.validate, hm, hsig] at hvalid

lemma takenBack_eq_some {r w : SignedReceipt} (h : takenBack c op list r = some w) :
    op.accepts c w = .ok () ∧ w.receipt.mode = .retract ∧ w.receipt.txHash = r.receiptHash c := by
  obtain ⟨_, ⟨ha, hm⟩, hk⟩ := latest_eq_some h
  exact ⟨ha, hm, hk⟩

end Cover

section Faults
variable {c : Crypto} {op : Operator} {list : List SignedReceipt} {block : ObservedBlock}
  {identity : Bytes 32} {executed : List ObservedTransaction}

lemma fold_executedOrder (h : block.executedOrder c = some executed) :
    fold c block.previousBlockhash (signatures executed) = block.blockhash := by
  unfold ObservedBlock.executedOrder Order.derive at h
  by_cases hf : fold c block.previousBlockhash (signatures block.transactions) = block.blockhash
  · simp only [hf, if_true, Option.some.injEq] at h
    rw [← h, hf]
  · by_cases hb : fold c block.previousBlockhash (signatures block.transactions).reverse =
        block.blockhash
    · simp only [hf, hb, if_false, if_true, Option.some.injEq] at h
      rw [← h, ← hb, signatures, signatures, List.map_reverse]
    · simp [hf, hb] at h

lemma executedOrder_arranges (h : block.executedOrder c = some executed) :
    executed = block.transactions ∨ executed = block.transactions.reverse := by
  unfold ObservedBlock.executedOrder at h
  cases hd : Order.derive c block with
  | asReported =>
    rw [hd] at h
    exact .inl (Option.some.inj h).symm
  | reversed =>
    rw [hd] at h
    exact .inr (Option.some.inj h).symm
  | unverifiable =>
    rw [hd] at h
    cases h

lemma executedOrder_perm (h : block.executedOrder c = some executed) :
    executed.Perm block.transactions := by
  rcases executedOrder_arranges h with rfl | rfl
  · exact .rfl
  · exact List.reverse_perm _

lemma mem_executedOrder (h : block.executedOrder c = some executed) {txn : ObservedTransaction} :
    txn ∈ executed ↔ txn ∈ block.transactions :=
  (executedOrder_perm h).mem_iff

/-- All the verdicts of a scan, in the order the loops record them. -/
def blockVerdicts (c : Crypto) (block : ObservedBlock) (receipts : ReceiptIndex) (op : Operator)
    (identity : Bytes 32) (executed : List ObservedTransaction) : List Verdict :=
  (executed.zipIdx.map fun (txn, index) =>
      checkTicketIsLive c block receipts (UInt32.ofNat index) txn executed) ++
    executed.zipIdx.flatMap fun (first, earlier) =>
      (executed.zipIdx.drop (earlier + 1)).map fun (second, later) =>
        checkPair c block receipts (UInt32.ofNat earlier) first (UInt32.ofNat later) second op
          identity

lemma foldl_record {α : Type*} (l : List α) (check : α → Verdict) (scan : Scan) :
    l.foldl (fun scan a => scan.record (check a)) scan = scan.recordAll (l.map check) := by
  rw [Scan.recordAll, List.foldl_map]

lemma foldl_recordAll {α : Type*} (l : List α) (checks : α → List Verdict) (scan : Scan) :
    l.foldl (fun scan a => scan.recordAll (checks a)) scan = scan.recordAll (l.flatMap checks) := by
  induction l generalizing scan with
  | nil => rfl
  | cons a l ih => rw [List.foldl_cons, ih, Scan.recordAll_append, List.flatMap_cons]

lemma scanBlock_eq {receipts : ReceiptIndex} (h : block.executedOrder c = some executed) :
    scanBlock c block receipts op identity =
      Scan.recordAll {} (blockVerdicts c block receipts op identity executed) := by
  simp only [scanBlock, h, foldl_record, foldl_recordAll, Scan.recordAll_append]
  rfl

lemma mem_drop_zipIdx {α : Type*} {l : List α} {i j : ℕ} {a : α} :
    (a, j) ∈ l.zipIdx.drop (i + 1) ↔ i < j ∧ l[j]? = some a := by
  rw [List.mem_iff_getElem?]
  simp only [List.getElem?_drop, List.getElem?_zipIdx, Option.map_eq_some_iff, Prod.mk.injEq,
    Nat.zero_add]
  constructor
  · rintro ⟨k, b, hb, rfl, rfl⟩
    exact ⟨by omega, hb⟩
  · rintro ⟨hlt, hj⟩
    obtain ⟨k, rfl⟩ := Nat.exists_eq_add_of_lt hlt
    exact ⟨k, a, by rwa [show i + 1 + k = i + k + 1 by omega], rfl, by omega⟩

lemma checkTicketIsLive_eq_fault {index : UInt32} {txn : ObservedTransaction} {f : Fault} :
    checkTicketIsLive c block (ReceiptIndex.build c list op) index txn executed = .fault f ↔
      (cover c op list txn = none ∧
        f = .unticketed block.slot index txn.signature txn.wireBytes) ∨
      ∃ r w, cover c op list txn = some r ∧ takenBack c op list r = some w ∧
        f = .withdrawnButExecuted r w ⟨block.slot, index⟩ block.previousBlockhash block.blockhash
          (signatures executed) := by
  rw [checkTicketIsLive, find_build]
  cases hr : cover c op list txn with
  | none => simp [eq_comm]
  | some r =>
    simp only [withdrawal_build]
    cases hw : takenBack c op list r with
    | none => simp [hw]
    | some w => simp [hw, eq_comm]

/-- When the two executed positions are an accusation, as far as the scan goes. -/
structure Accused (c : Crypto) (op : Operator) (list : List SignedReceipt) (identity : Bytes 32)
    (first second : ObservedTransaction) (r s : SignedReceipt) : Prop where
  conflict : conflicts first second
  covered : cover c op list first = some r ∧ cover c op list second = some s
  standing : takenBack c op list r = none ∧ takenBack c op list s = none
  inverted : s.receipt.seq ≤ r.receipt.seq
  relayed : ¬first.isIssuedBy identity ∧ ¬second.isIssuedBy identity

lemma checkPair_eq_fault {i j : UInt32} {first second : ObservedTransaction} {f : Fault}
    (h : block.executedOrder c = some executed) :
    checkPair c block (ReceiptIndex.build c list op) i first j second op identity = .fault f ↔
      ∃ r s, Accused c op list identity first second r s ∧
        f = .reorder block.slot block.previousBlockhash block.blockhash (signatures executed)
          ⟨r, first.wireBytes, i⟩ ⟨s, second.wireBytes, j⟩ := by
  constructor
  · intro hf
    unfold checkPair at hf
    simp only [find_build, withdrawal_build] at hf
    by_cases hc : conflicts first second
    swap
    · rw [if_pos hc] at hf
      cases hf
    rw [if_neg (not_not.mpr hc)] at hf
    split at hf
    · next r s hr hs =>
      split_ifs at hf with haccepts hback hseq hissued
      obtain ⟨hback₁, hback₂⟩ := not_or.mp hback
      obtain rfl := Verdict.fault.inj hf
      refine ⟨r, s, ⟨hc, ⟨hr, hs⟩, ⟨not_not.mp hback₁, not_not.mp hback₂⟩,
        UInt64.not_lt.mp hseq, not_or.mp hissued⟩, ?_⟩
      rw [h]
      rfl
    · cases hf
  · rintro ⟨r, s, ha, rfl⟩
    have hr := (cover_eq_some ha.covered.1).1
    have hs := (cover_eq_some ha.covered.2).1
    have hseq : ¬r.receipt.seq < s.receipt.seq := UInt64.not_lt.mpr ha.inverted
    simp only [checkPair, find_build, withdrawal_build, ha.covered.1, ha.covered.2, ha.conflict,
      ha.standing.1, ha.standing.2, ha.relayed.1, ha.relayed.2, hr, hs, hseq, h, ne_eq,
      not_true_eq_false, or_self, if_false, Option.getD_some]

lemma mem_faults_scanBlock {f : Fault} (h : block.executedOrder c = some executed) :
    f ∈ (scanBlock c block (ReceiptIndex.build c list op) op identity).faults ↔
      (∃ i txn, executed[i]? = some txn ∧ cover c op list txn = none ∧
        f = .unticketed block.slot (UInt32.ofNat i) txn.signature txn.wireBytes) ∨
      (∃ i txn r w, executed[i]? = some txn ∧ cover c op list txn = some r ∧
        takenBack c op list r = some w ∧
        f = .withdrawnButExecuted r w ⟨block.slot, UInt32.ofNat i⟩ block.previousBlockhash
          block.blockhash (signatures executed)) ∨
      ∃ i j first second r s, i < j ∧ executed[i]? = some first ∧ executed[j]? = some second ∧
        Accused c op list identity first second r s ∧
        f = .reorder block.slot block.previousBlockhash block.blockhash (signatures executed)
          ⟨r, first.wireBytes, UInt32.ofNat i⟩ ⟨s, second.wireBytes, UInt32.ofNat j⟩ := by
  simp only [scanBlock_eq h, Scan.mem_faults_recordAll, blockVerdicts, List.not_mem_nil, false_or,
    List.mem_append, List.mem_map, List.mem_flatMap, Prod.exists, List.mem_zipIdx_iff_getElem?,
    mem_drop_zipIdx, checkTicketIsLive_eq_fault, checkPair_eq_fault h]
  constructor
  · rintro (⟨txn, i, hi, ⟨hr, hf⟩ | ⟨r, w, hr, hw, hf⟩⟩ |
      ⟨first, i, hi, second, j, ⟨hij, hj⟩, r, s, ha, hf⟩)
    · exact Or.inl ⟨i, txn, hi, hr, hf⟩
    · exact Or.inr (Or.inl ⟨i, txn, r, w, hi, hr, hw, hf⟩)
    · exact Or.inr (Or.inr ⟨i, j, first, second, r, s, hij, hi, hj, ha, hf⟩)
  · rintro (⟨i, txn, hi, hr, hf⟩ | ⟨i, txn, r, w, hi, hr, hw, hf⟩ |
      ⟨i, j, first, second, r, s, hij, hi, hj, ha, hf⟩)
    · exact Or.inl ⟨txn, i, hi, Or.inl ⟨hr, hf⟩⟩
    · exact Or.inl ⟨txn, i, hi, Or.inr ⟨r, w, hr, hw, hf⟩⟩
    · exact Or.inr ⟨first, i, hi, second, j, ⟨hij, hj⟩, r, s, ha, hf⟩

/-- The receipt found for the transaction executed at `i` names the signature at
the index as it is carried. A ticket names none; an index past `u32` is cast to
another position. -/
def NamesPosition (executed : List ObservedTransaction) (i : ℕ) (txn : ObservedTransaction)
    (r : SignedReceipt) : Prop :=
  if i < 2 ^ 32 then r.receipt.mode = .plain ∨ txn.signature = zeroSig
  else (signatures executed)[i % 2 ^ 32]? = some r.receipt.txSig

lemma namesPosition_iff {i : ℕ} {txn : ObservedTransaction} {r : SignedReceipt}
    (hi : executed[i]? = some txn) (hr : cover c op list txn = some r) :
    (signatures executed)[(UInt32.ofNat i).toNat]? = some r.receipt.txSig ↔
      NamesPosition executed i txn r := by
  rw [UInt32.toNat_ofNat', NamesPosition]
  split_ifs with hlt
  · rw [Nat.mod_eq_of_lt hlt, signatures, List.getElem?_map, hi, Option.map_some, Option.some.injEq]
    rcases (cover_eq_some hr).2 with ⟨hm, hsig⟩ | ⟨hm, hsig⟩
    · simp [hm, hsig]
    · simp [hm, hsig]
  · rfl

lemma verify_withdrawn_iff {i : ℕ} {txn : ObservedTransaction} {r w : SignedReceipt}
    (h : block.executedOrder c = some executed) (hi : executed[i]? = some txn)
    (hr : cover c op list txn = some r) (hw : takenBack c op list r = some w) :
    (Fault.withdrawnButExecuted r w ⟨block.slot, UInt32.ofNat i⟩ block.previousBlockhash
        block.blockhash (signatures executed)).verify c op.key = .ok () ↔
      r.receipt.seq < w.receipt.seq ∧ NamesPosition executed i txn r := by
  obtain ⟨hlog, hverify⟩ := Operator.accepts_eq_ok.mp (cover_eq_some hr).1
  obtain ⟨hback, hmode, hnames⟩ := takenBack_eq_some hw
  obtain ⟨hlog', hverify'⟩ := Operator.accepts_eq_ok.mp hback
  rw [verify_withdrawnButExecuted, namesPosition_iff hi hr]
  simp [hverify, hverify', hlog, hlog', hmode, hnames, fold_executedOrder h]

/-- What an inverted pair needs to re-derive: both receipts are about the contents
executed and name their positions, and casts and sequence numbers keep the two
apart. -/
structure Rederivable (executed : List ObservedTransaction) (i j : ℕ)
    (first second : ObservedTransaction) (r s : SignedReceipt) : Prop where
  contents : r.receipt.txHash = first.txHash ∧ s.receipt.txHash = second.txHash
  named : NamesPosition executed i first r ∧ NamesPosition executed j second s
  apart : i % 2 ^ 32 < j % 2 ^ 32
  distinct : r.receipt.seq ≠ s.receipt.seq

lemma verify_accused_iff {i j : ℕ} {first second : ObservedTransaction} {r s : SignedReceipt}
    (h : block.executedOrder c = some executed) (hi : executed[i]? = some first)
    (hj : executed[j]? = some second) (hfirst : first.txHash = c.sha256 first.wireBytes)
    (hsecond : second.txHash = c.sha256 second.wireBytes)
    (ha : Accused c op list identity first second r s) :
    (Fault.reorder block.slot block.previousBlockhash block.blockhash (signatures executed)
        ⟨r, first.wireBytes, UInt32.ofNat i⟩
        ⟨s, second.wireBytes, UInt32.ofNat j⟩).verify c op.key = .ok () ↔
      Rederivable executed i j first second r s := by
  obtain ⟨hlog, hverify⟩ := Operator.accepts_eq_ok.mp (cover_eq_some ha.covered.1).1
  obtain ⟨hlog', hverify'⟩ := Operator.accepts_eq_ok.mp (cover_eq_some ha.covered.2).1
  have hlt : s.receipt.seq < r.receipt.seq ↔ r.receipt.seq ≠ s.receipt.seq := by
    have hle := UInt64.le_iff_toNat_le.mp ha.inverted
    rw [UInt64.lt_iff_toNat_lt, ne_eq, ← UInt64.toNat_inj]
    omega
  rw [verify_reorder, namesPosition_iff hi ha.covered.1, namesPosition_iff hj ha.covered.2]
  simp only [hverify, hverify', hlog, hlog', fold_executedOrder h, txHash, ← hfirst, ← hsecond,
    hlt, UInt32.lt_iff_toNat_lt, UInt32.toNat_ofNat', true_and]
  constructor
  · rintro ⟨h1, h2, h3, h4, h5, h6⟩
    exact ⟨⟨h1.symm, h2.symm⟩, ⟨h3, h4⟩, h5, h6⟩
  · rintro ⟨⟨h1, h2⟩, ⟨h3, h4⟩, h5, h6⟩
    exact ⟨h1.symm, h2.symm, h3, h4, h5, h6⟩

/-- The condition on block and receipts: no ticket is withdrawn or inverted, every
retraction that bites was issued after its receipt, and the plain receipts of an
inverted pair are about the contents executed and differ in sequence. -/
def EvidenceHolds (c : Crypto) (op : Operator) (identity : Bytes 32) (block : ObservedBlock)
    (list : List SignedReceipt) : Prop :=
  ∀ executed, block.executedOrder c = some executed →
    (∀ i txn r w, executed[i]? = some txn → cover c op list txn = some r →
      takenBack c op list r = some w →
        r.receipt.seq < w.receipt.seq ∧ NamesPosition executed i txn r) ∧
    ∀ i j first second r s, i < j → executed[i]? = some first → executed[j]? = some second →
      Accused c op list identity first second r s → Rederivable executed i j first second r s

/-- The faults of a block scan all re-derive exactly when the condition holds;
the scan itself does not see to it. -/
theorem blockFaults_rederive_iff
    (hwire : ∀ txn ∈ block.transactions, txn.txHash = c.sha256 txn.wireBytes) :
    (∀ f ∈ (scanBlock c block (ReceiptIndex.build c list op) op identity).faults,
        f.verify c op.key = .ok ()) ↔
      EvidenceHolds c op identity block list := by
  cases h : block.executedOrder c with
  | none =>
    constructor
    · intro _ executed he
      rw [h] at he
      cases he
    · intro _ f hf
      simp [scanBlock, h, Scan.record] at hf
  | some executed =>
    have hhash {i : ℕ} {txn : ObservedTransaction} (hi : executed[i]? = some txn) :
        txn.txHash = c.sha256 txn.wireBytes :=
      hwire txn ((mem_executedOrder h).mp (List.mem_of_getElem? hi))
    simp only [mem_faults_scanBlock h]
    constructor
    · intro hall executed' he
      obtain rfl := Option.some.inj (h.symm.trans he)
      constructor
      · intro i txn r w hi hr hw
        exact (verify_withdrawn_iff h hi hr hw).mp
          (hall _ (Or.inr (Or.inl ⟨i, txn, r, w, hi, hr, hw, rfl⟩)))
      · intro i j first second r s hij hi hj ha
        exact (verify_accused_iff h hi hj (hhash hi) (hhash hj) ha).mp
          (hall _ (Or.inr (Or.inr ⟨i, j, first, second, r, s, hij, hi, hj, ha, rfl⟩)))
    · intro hholds f hf
      obtain ⟨hwithdrawn, hpairs⟩ := hholds executed h
      rcases hf with ⟨i, txn, hi, _, rfl⟩ | ⟨i, txn, r, w, hi, hr, hw, rfl⟩ |
        ⟨i, j, first, second, r, s, hij, hi, hj, ha, rfl⟩
      · rfl
      · exact (verify_withdrawn_iff h hi hr hw).mpr (hwithdrawn i txn r w hi hr hw)
      · exact (verify_accused_iff h hi hj (hhash hi) (hhash hj) ha).mpr
          (hpairs i j first second r s hij hi hj ha)

end Faults

namespace Vectors

def plainWire : List UInt8 := (Bytes.hex 215
  0x011111111111111111111111111111111111111111111111111111111111111111111111111111111111111111111111111111111111111111111111111111111101000103222222222222222222222222222222222222222222222222222222222222222233333333333333333333333333333333333333333333333333333333333333330000000000000000000000000000000000000000000000000000000000000000444444444444444444444444444444444444444444444444444444444444444401020200010c02000000e803000000000000).val

def commitWire : List UInt8 := (Bytes.hex 215
  0x017777777777777777777777777777777777777777777777777777777777777777777777777777777777777777777777777777777777777777777777777777777701000103666666666666666666666666666666666666666666666666666666666666666633333333333333333333333333333333333333333333333333333333333333330000000000000000000000000000000000000000000000000000000000000000888888888888888888888888888888888888888888888888888888888888888801020200010c02000000d007000000000000).val

def plainTxn : ObservedTransaction where
  signature := Bytes.fill 64 0x11
  txHash := Receipts.Vectors.plainGenesis.receipt.txHash
  feePayer := Bytes.fill 32 0x22
  writable := [Bytes.fill 32 0x22, Bytes.fill 32 0x33]
  readonly := [Bytes.fill 32 0]
  wireBytes := plainWire

def commitTxn : ObservedTransaction where
  signature := Bytes.fill 64 0x77
  txHash := Receipts.Vectors.commitChained.receipt.txHash
  feePayer := Bytes.fill 32 0x66
  writable := [Bytes.fill 32 0x66, Bytes.fill 32 0x33]
  readonly := [Bytes.fill 32 0]
  wireBytes := commitWire

def invertedBlock : ObservedBlock where
  slot := 6150405
  previousBlockhash := Bytes.fill 32 0x44
  blockhash := Bytes.hex 32
    0x0c695c6d926fd7945910af311684192d1323099e01534fffbeb9c2bb0fecbad4
  transactions := [commitTxn, plainTxn]

def blockCrypto : Crypto :=
  recorded Receipts.Vectors.operatorSeed Receipts.Vectors.operatorPubkey
    (Receipts.Vectors.log.map fun s => (s.message, s.signature))
    ((Receipts.Vectors.log.map SignedReceipt.toBytes).zip Receipts.Vectors.hashes ++
      [(plainWire, plainTxn.txHash), (commitWire, commitTxn.txHash)])
    [(invertedBlock.previousBlockhash.val ++ commitTxn.signature.val ++ plainTxn.signature.val,
      invertedBlock.blockhash)]

/-- The validator's own key, which issued neither transaction. -/
def identity : Bytes 32 := Bytes.fill 32 0x99

lemma invertedBlock_hashes :
    ∀ txn ∈ invertedBlock.transactions, txn.txHash = blockCrypto.sha256 txn.wireBytes := by
  decide +kernel

/-- The accusation the scan makes: the ticket's transaction ran ahead. -/
def jumpedTicket : Fault :=
  .reorder invertedBlock.slot invertedBlock.previousBlockhash invertedBlock.blockhash
    [commitTxn.signature, plainTxn.signature]
    ⟨Receipts.Vectors.commitChained, commitWire, 0⟩ ⟨Receipts.Vectors.plainGenesis, plainWire, 1⟩

end Vectors

theorem blockFaults_rederive_iff_published :
    (∀ f ∈ (scanBlock Vectors.blockCrypto Vectors.invertedBlock
        (ReceiptIndex.build Vectors.blockCrypto Receipts.Vectors.log Vectors.operator)
        Vectors.operator Vectors.identity).faults,
        f.verify Vectors.blockCrypto Vectors.operator.key = .ok ()) ↔
      EvidenceHolds Vectors.blockCrypto Vectors.operator Vectors.identity Vectors.invertedBlock
        Receipts.Vectors.log :=
  blockFaults_rederive_iff Vectors.invertedBlock_hashes

/-- A ticket names no signature, so the inversion it shows does not re-derive. -/
theorem blockFault_of_ticket_not_rederived :
    (∀ txn ∈ Vectors.invertedBlock.transactions,
      txn.txHash = Vectors.blockCrypto.sha256 txn.wireBytes) ∧
    (scanBlock Vectors.blockCrypto Vectors.invertedBlock
      (ReceiptIndex.build Vectors.blockCrypto
        [Receipts.Vectors.plainGenesis, Receipts.Vectors.commitChained] Vectors.operator)
      Vectors.operator Vectors.identity).faults = [Vectors.jumpedTicket] ∧
    Vectors.jumpedTicket.verify Vectors.blockCrypto Vectors.operator.key =
      .error (.error .notAtClaimedIndex) := by
  refine ⟨Vectors.invertedBlock_hashes, ?_, ?_⟩ <;> decide +kernel

end Blitz.Watchtower
