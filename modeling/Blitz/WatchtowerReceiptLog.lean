import Blitz.Base64
import Blitz.IngressOutcomes
import Blitz.WatchtowerParse

/-! The receipt log on its way to the watchtower: a row of the node's store, the entry of
`getReceipts` made from it, the receipt read off that entry, and what is then scanned. -/
namespace Blitz
open LittleEndian Receipts CheckedArith

/-- A JSON value. -/
inductive Json
  | null
  | bool (value : Bool)
  | number (value : ℕ)
  | string (value : String)
  | array (values : List Json)
  | object (fields : List (String × Json))

namespace Json

def get (value : Json) (field : String) : Option Json :=
  match value with
  | .object fields => fields.lookup field
  | _ => none

def asStr : Json → Option String
  | .string value => some value
  | _ => none

def asArray : Json → Option (List Json)
  | .array values => some values
  | _ => none

end Json

namespace Validator

def Outcome.fromU8 (byte : UInt8) : Option Outcome :=
  if byte = 0x01 then some .pending
  else if byte = 0x02 then some .accepted
  else if byte = 0x03 then some .rejected
  else if byte = 0x04 then some .expired
  else none

def describe (outcome : UInt8) : String :=
  match Outcome.fromU8 outcome with
  | some .pending => "pending"
  | some .accepted => "accepted"
  | some .rejected => "rejected"
  | some .expired => "expired"
  | none => "unknown"

structure ReceiptEntry where
  seq : UInt64
  outcome : String
  receipt : String

def ReceiptEntry.new (seq : UInt64) (outcome : UInt8) (receipt : List UInt8) : ReceiptEntry :=
  ⟨seq, describe outcome, Base64.encode receipt⟩

def ReceiptEntry.serialize (entry : ReceiptEntry) : Json :=
  .object [("seq", .number entry.seq.toNat), ("outcome", .string entry.outcome),
    ("receipt", .string entry.receipt)]

def maxReceiptsLimit : UInt64 := 1000

/-- The parameters are as they parse; `fate` is that of the one storage access. -/
def ReceiptLedger.getReceipts (l : ReceiptLedger) (fate : Fate) (fromSeq limit : Option UInt64) :
    Except RpcError (List ReceiptEntry) := do
  let fromSeq ← orElse fromSeq (.invalidParams "missing or invalid from_seq")
  let limit := min (limit.getD maxReceiptsLimit) maxReceiptsLimit
  let rows ← (l.iterReceipts fate fromSeq).mapError fun e => .internal e.display
  .ok ((rows.take limit.toNat).map fun row => .new row.1 row.2.1 row.2.2)

end Validator

namespace Watchtower
open Validator

def Parse.receiptEntry (value : Json) : Except ParseError SignedReceipt := do
  let encoded ← orElse ((value.get "receipt").bind Json.asStr) (.missing "receipt")
  let bytes ← orElse (Base64.decode encoded) (.badBase64 "receipt")
  (SignedReceipt.fromBytes bytes).mapError fun _ => .badReceipt

/-- `Client::receipts`, from the result of the call on. -/
def Parse.receipts (result : Json) : Except ParseError (List SignedReceipt) := do
  let entries ← orElse result.asArray (.malformed "receipts")
  entries.mapM Parse.receiptEntry

/-- A page as the answer carries it. -/
def result (entries : List ReceiptEntry) : Json := .array (entries.map ReceiptEntry.serialize)

/-- The pass over the log at the end of a round. -/
def scanDelivery (c : Crypto) (page : Json) (executed : ExecutionIndex)
    (blockhashes : BlockhashSlots) (head : UInt64) (patience : Patience) (op : Operator) :
    Except ParseError Scan := do
  let receipts ← Parse.receipts page
  .ok (scanWithholding c receipts executed blockhashes head patience op)

lemma receiptEntry_new (seq : UInt64) (outcome : UInt8) (bytes : List UInt8) :
    Parse.receiptEntry (ReceiptEntry.new seq outcome bytes).serialize =
      (SignedReceipt.fromBytes bytes).mapError fun _ => .badReceipt := by
  have hfield : ((ReceiptEntry.new seq outcome bytes).serialize.get "receipt").bind Json.asStr =
      some (Base64.encode bytes) := rfl
  simp only [Parse.receiptEntry, hfield, orElse, Base64.decode_encode, bind, Except.bind]

lemma receiptEntry_eq_ok {seq : UInt64} {outcome : UInt8} {bytes : List UInt8}
    {receipt : SignedReceipt} :
    Parse.receiptEntry (ReceiptEntry.new seq outcome bytes).serialize = .ok receipt ↔
      SignedReceipt.fromBytes bytes = .ok receipt := by
  rw [receiptEntry_new, mapError_eq_ok]

lemma receipts_result (entries : List ReceiptEntry) :
    Parse.receipts (result entries) =
      (entries.map ReceiptEntry.serialize).mapM Parse.receiptEntry := rfl

lemma mem_receipts {entries : List ReceiptEntry} {receipts : List SignedReceipt}
    (h : Parse.receipts (result entries) = .ok receipts) (receipt : SignedReceipt) :
    receipt ∈ receipts ↔ ∃ entry ∈ entries, Parse.receiptEntry entry.serialize = .ok receipt := by
  rw [receipts_result] at h
  rw [mem_of_mapM_eq_ok h]
  simp

lemma mem_getReceipts {l : ReceiptLedger} {fate : Fate} {fromSeq limit : Option UInt64}
    {entries : List ReceiptEntry} (h : l.getReceipts fate fromSeq limit = .ok entries)
    {entry : ReceiptEntry} (hentry : entry ∈ entries) :
    ∃ outcome bytes, l.receiptBySeq[entry.seq]? = some (outcome :: bytes) ∧
      entry = .new entry.seq outcome bytes := by
  obtain ⟨start, _, h⟩ := bind_eq_ok.mp h
  obtain ⟨rows, hrows, h⟩ := bind_eq_ok.mp h
  obtain rfl := Except.ok.inj h
  obtain ⟨row, hrow, rfl⟩ := List.mem_map.mp hentry
  have hread := ReceiptLedger.mem_iterReceipts (mapError_eq_ok.mp hrows) (List.mem_of_mem_take hrow)
  exact ⟨row.2.1, row.2.2, hread, rfl⟩

lemma new_mem_of_getReceipts {l : ReceiptLedger} {fate : Fate} {fromSeq limit : Option UInt64}
    {entries : List ReceiptEntry} (h : l.getReceipts fate fromSeq limit = .ok entries)
    {seq : UInt64} {outcome : UInt8} {bytes : List UInt8}
    (hrow : l.receiptBySeq[seq]? = some (outcome :: bytes))
    (hlisted : seq ∈ entries.map ReceiptEntry.seq) :
    ReceiptEntry.new seq outcome bytes ∈ entries := by
  obtain ⟨entry, hentry, rfl⟩ := List.mem_map.mp hlisted
  obtain ⟨_, _, hstored, hnew⟩ := mem_getReceipts h hentry
  obtain ⟨rfl, rfl⟩ := List.cons.inj (Option.some.inj (hrow.symm.trans hstored))
  rwa [← hnew]

section Rejected
variable {c : Crypto} {executed : ExecutionIndex} {blockhashes : BlockhashSlots} {head : UInt64}
  {patience : Patience} {op : Operator} {receipt : SignedReceipt}

lemma absent_mem_iff {receipts : List SignedReceipt} (hmem : receipt ∈ receipts)
    (hplain : receipt.receipt.mode = .plain)
    (hunexecuted : executed.bySignature receipt.receipt.txSig = none) :
    (∃ seen waited, .absent receipt seen waited ∈
      (scanWithholding c receipts executed blockhashes head patience op).faults) ↔
      op.accepts c receipt = .ok () ∧ takenBack c op receipts receipt = none ∧
        patience.absentSlots < saturatingSub head receipt.receipt.ingressSlot := by
  have hfind : executed.find receipt = none := by
    rw [ExecutionIndex.find, hplain]
    exact hunexecuted
  constructor
  · rintro ⟨at', waited, hfault⟩
    obtain ⟨other, _, hverdict⟩ := mem_withholdingFaults.mp hfault
    obtain rfl : other = receipt := by
      have hnames := promiseVerdicts_names hverdict
      exact (List.singleton_inj.mp hnames).symm
    obtain ⟨haccepts, _, hingress | ⟨hback, hdelivery⟩⟩ := mem_promiseVerdicts.mp hverdict
    · obtain ⟨_, _, _, _, hkind⟩ := checkIngress_eq_fault.mp hingress
      cases hkind
    · rcases checkDelivery_eq_fault.mp hdelivery with ⟨_, _, _, hkind⟩ | ⟨_, hlate⟩
      · cases hkind
      · rw [if_neg (by simp [hplain])] at hlate
        exact ⟨haccepts, hback, hlate.1⟩
  · rintro ⟨haccepts, hback, hlate⟩
    have hdelivery : checkDelivery receipt executed head patience =
        .fault (.absent receipt head (saturatingSub head receipt.receipt.ingressSlot)) := by
      refine checkDelivery_eq_fault.mpr (.inr ⟨hfind, ?_⟩)
      rw [if_neg (by simp [hplain])]
      exact ⟨hlate, rfl⟩
    have hverdict : checkDelivery receipt executed head patience ∈
        promiseVerdicts c receipts executed blockhashes head patience op receipt :=
      checkDelivery_mem haccepts (by simp [hplain]) hback
    rw [hdelivery] at hverdict
    exact ⟨_, _, mem_withholdingFaults.mpr ⟨receipt, hmem, hverdict⟩⟩

lemma absent_notMem_iff {receipts : List SignedReceipt} (hmem : receipt ∈ receipts)
    (hplain : receipt.receipt.mode = .plain)
    (hunexecuted : executed.bySignature receipt.receipt.txSig = none) :
    (∀ seen waited, .absent receipt seen waited ∉
      (scanWithholding c receipts executed blockhashes head patience op).faults) ↔
      op.accepts c receipt ≠ .ok () ∨ (Withdrawals.build c receipts op).of c receipt ≠ none ∨
        head.toNat - receipt.receipt.ingressSlot.toNat ≤ patience.absentSlots.toNat := by
  have hlate : patience.absentSlots < saturatingSub head receipt.receipt.ingressSlot ↔
      ¬head.toNat - receipt.receipt.ingressSlot.toNat ≤ patience.absentSlots.toNat := by
    rw [UInt64.lt_iff_toNat_lt, toNat_saturatingSub, not_le]
  have hnot : (¬∃ seen waited, .absent receipt seen waited ∈
      (scanWithholding c receipts executed blockhashes head patience op).faults) ↔ _ :=
    not_congr (absent_mem_iff hmem hplain hunexecuted)
  rw [hlate] at hnot
  push Not at hnot
  rw [hnot, of_build, or_iff_not_imp_left, or_iff_not_imp_left, not_not, not_not]

/-- A rejected transaction is left alone exactly when any other that never ran would be:
the outcome is served with the receipt and read by nobody. -/
theorem rejected_unaccused_iff {l : ReceiptLedger} {fate : Fate} {fromSeq limit : Option UInt64}
    {entries : List ReceiptEntry} (hserved : l.getReceipts fate fromSeq limit = .ok entries)
    {seq : UInt64} {bytes : List UInt8}
    (hrow : l.receiptBySeq[seq]? = some (Outcome.rejected.asU8 :: bytes))
    (hlisted : seq ∈ entries.map ReceiptEntry.seq)
    (hreceipt : SignedReceipt.fromBytes bytes = .ok receipt)
    (hplain : receipt.receipt.mode = .plain)
    (hunexecuted : executed.bySignature receipt.receipt.txSig = none) :
    (∀ scan, scanDelivery c (result entries) executed blockhashes head patience op = .ok scan →
        ∀ seen waited, .absent receipt seen waited ∉ scan.faults) ↔
      ∀ receipts, Parse.receipts (result entries) = .ok receipts →
        op.accepts c receipt ≠ .ok () ∨ (Withdrawals.build c receipts op).of c receipt ≠ none ∨
          head.toNat - receipt.receipt.ingressSlot.toNat ≤ patience.absentSlots.toNat := by
  have hentry := new_mem_of_getReceipts hserved hrow hlisted
  have hmem (receipts : List SignedReceipt)
      (hparsed : Parse.receipts (result entries) = .ok receipts) : receipt ∈ receipts :=
    (mem_receipts hparsed receipt).mpr ⟨_, hentry, receiptEntry_eq_ok.mpr hreceipt⟩
  -- Both sides speak of the pages that parse; on each the scan decides.
  constructor
  · intro h receipts hparsed
    have hscanned : scanDelivery c (result entries) executed blockhashes head patience op =
        .ok (scanWithholding c receipts executed blockhashes head patience op) := by
      rw [scanDelivery, hparsed]
      rfl
    exact (absent_notMem_iff (hmem receipts hparsed) hplain hunexecuted).mp (h _ hscanned)
  · intro h scan hscanned
    obtain ⟨receipts, hparsed, hdone⟩ := bind_eq_ok.mp hscanned
    obtain rfl := Except.ok.inj hdone
    exact (absent_notMem_iff (hmem receipts hparsed) hplain hunexecuted).mpr (h receipts hparsed)

end Rejected

namespace Vectors

/-- The node's store after its first request was receipted and then rejected. -/
def rejectedLedger : ReceiptLedger :=
  (Validator.Vectors.node.run Validator.Vectors.crypto Validator.Vectors.rejectedTurns).ledger

def rejectedPage : List ReceiptEntry :=
  [.new 0 Outcome.rejected.asU8 Validator.Vectors.stampedAbc.toBytes]

def stampOperator : Operator :=
  ⟨Receipts.Vectors.operatorPubkey, Validator.Vectors.stampedAbc.receipt.logId⟩

/-- The log as the watchtower scans it, `waited` slots after the transaction came in and
with no block seen. -/
def rejectedScan (waited : UInt64) : Except ParseError Scan :=
  scanDelivery Validator.Vectors.crypto (result rejectedPage) .empty (.new 2048)
    (6150402 + waited) .default stampOperator

lemma rejectedLedger_evaluates :
    rejectedLedger.receiptBySeq[(0 : UInt64)]? =
      some (Outcome.rejected.asU8 :: Validator.Vectors.stampedAbc.toBytes) ∧
    rejectedLedger.iterReceipts none 0 =
      .ok [(0, Outcome.rejected.asU8, Validator.Vectors.stampedAbc.toBytes)] ∧
    (scanWithholding Validator.Vectors.crypto [Validator.Vectors.stampedAbc] .empty (.new 2048)
      6150467 .default stampOperator).faults =
        [.absent Validator.Vectors.stampedAbc 6150467 65] := by
  decide +kernel

lemma fromBytes_stampedAbc :
    SignedReceipt.fromBytes Validator.Vectors.stampedAbc.toBytes =
      .ok Validator.Vectors.stampedAbc := by
  have hvalid : Validator.Vectors.stampedAbc.receipt.validate = .ok () := by decide +kernel
  rw [SignedReceipt.fromBytes_toBytes, hvalid]
  rfl

lemma getReceipts_rejectedLedger :
    rejectedLedger.getReceipts none (some 0) none = .ok rejectedPage := by
  simp only [ReceiptLedger.getReceipts, orElse, rejectedLedger_evaluates.2.1, Except.mapError, bind,
    Except.bind]
  rfl

lemma receipts_rejectedPage :
    Parse.receipts (result rejectedPage) = .ok [Validator.Vectors.stampedAbc] := by
  rw [receipts_result, mapM_eq_ok]
  exact .cons (receiptEntry_eq_ok.mpr fromBytes_stampedAbc) .nil

lemma rejectedScan_eq (waited : UInt64) :
    rejectedScan waited = .ok (scanWithholding Validator.Vectors.crypto
      [Validator.Vectors.stampedAbc] .empty (.new 2048) (6150402 + waited) .default
      stampOperator) := by
  rw [rejectedScan, scanDelivery, receipts_rejectedPage]
  rfl

end Vectors

theorem rejected_unaccused_iff_waiting :
    ∃ scan, Vectors.rejectedScan 64 = .ok scan ∧
      .absent Validator.Vectors.stampedAbc 6150466 64 ∉ scan.faults := by
  have hsilent : ∀ scan, Vectors.rejectedScan 64 = .ok scan →
      ∀ seen waited, .absent Validator.Vectors.stampedAbc seen waited ∉ scan.faults := by
    refine (rejected_unaccused_iff Vectors.getReceipts_rejectedLedger
      Vectors.rejectedLedger_evaluates.1 (by decide) Vectors.fromBytes_stampedAbc rfl rfl).mpr ?_
    intro receipts _
    exact .inr (.inr (by decide))
  exact ⟨_, Vectors.rejectedScan_eq 64, hsilent _ (Vectors.rejectedScan_eq 64) _ _⟩

/-- One slot later it accuses the operator of withholding what its own log says was
rejected. -/
theorem rejected_forward_accused :
    Vectors.rejectedLedger.receiptBySeq[(0 : UInt64)]? =
      some (Outcome.rejected.asU8 :: Validator.Vectors.stampedAbc.toBytes) ∧
    Validator.Vectors.stampedAbc.receipt.mode = .plain ∧
    Vectors.rejectedLedger.getReceipts none (some 0) none = .ok Vectors.rejectedPage ∧
    Vectors.rejectedPage.map ReceiptEntry.outcome = ["rejected"] ∧
    ∃ scan, Vectors.rejectedScan 65 = .ok scan ∧
      scan.faults = [.absent Validator.Vectors.stampedAbc 6150467 65] :=
  ⟨Vectors.rejectedLedger_evaluates.1, rfl, Vectors.getReceipts_rejectedLedger, by decide,
    _, Vectors.rejectedScan_eq 65, Vectors.rejectedLedger_evaluates.2.2⟩

end Watchtower
end Blitz
