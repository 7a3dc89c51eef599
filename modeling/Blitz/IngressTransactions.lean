import Blitz.IngressPipeline
import Blitz.SolanaWire

/-! The bytes of a transaction on the node: checked when a client sends them, kept in the
ledger as they came, and written anew for whoever asks for the block. -/
namespace Blitz.Validator
open LittleEndian Receipts Solana CheckedArith

/-- `bincode` on transactions: reading stops where the value ends, and writing gives the
canonical bytes. -/
structure Bincode where
  serialize : VersionedTransaction → List UInt8
  deserialize : List UInt8 → Except String VersionedTransaction
  deserialize_serialize : ∀ transaction rest,
    deserialize (serialize transaction ++ rest) = .ok transaction

/-- On the format itself. -/
def Bincode.solana : Bincode where
  serialize := transactionCodec.encode
  deserialize w :=
    match transactionCodec.decode w with
    | none => .error "io error: unexpected end of file"
    | some (transaction, _) => .ok transaction
  deserialize_serialize transaction rest := by simp

/-- Sanitized transactions are signed, and somebody pays for them. -/
structure SanitizedTransaction where
  versioned : VersionedTransaction
  signed : versioned.signatures.val ≠ []
  paid : versioned.message.staticAccountKeys ≠ []
  deriving DecidableEq

def SanitizedTransaction.signature (txn : SanitizedTransaction) : Bytes 64 :=
  txn.versioned.signatures.val.head txn.signed

structure WithEncoded where
  txn : SanitizedTransaction
  encoded : List UInt8
  deriving DecidableEq

/-- The hash a receipt binds, and the one a reveal has to match. -/
def WithEncoded.digest (c : Crypto) (p : WithEncoded) : Bytes 32 := c.sha256 p.encoded

structure RpcError where
  code : Int
  message : String
  httpStatus : ℕ
  deriving DecidableEq

namespace RpcError

def invalidParams (error : String) : RpcError := ⟨-32602, "invalid request params: " ++ error, 200⟩

def transactionVerification (error : String) : RpcError :=
  ⟨-32003, "transaction verification error: " ++ error, 200⟩

def invalidRequest (error : String) : RpcError := ⟨-32600, "invalid request: " ++ error, 200⟩

def internal (error : String) : RpcError := ⟨-32603, "internal server error: " ++ error, 200⟩

def unavailable (error : String) : RpcError := ⟨-32603, error, 503⟩

def parseError (error : String) : RpcError := ⟨-32700, "error parsing request body: " ++ error, 200⟩

def ofTransactionError (display : TransactionError → String) (e : TransactionError) : RpcError :=
  { transactionVerification (display e) with
    httpStatus := if e = .clusterMaintenance then 503 else 200 }

end RpcError

/-- A packet has room for this many keys. -/
def maxRuntimeProgramIdIndexExclusive : ℕ := 1232 / 32

def validateProgramIds : List CompiledInstruction → Except RpcError Unit
  | [] => .ok ()
  | instruction :: instructions =>
    if maxRuntimeProgramIdIndexExclusive ≤ instruction.programIdIndex.toNat then
      .error (.transactionVerification ("unsupported program id index " ++
        toString instruction.programIdIndex.toNat ++ "; max supported is " ++
        toString (maxRuntimeProgramIdIndexExclusive - 1)))
    else validateProgramIds instructions

def validateSupportedTransactionShape (transaction : VersionedTransaction) : Except RpcError Unit :=
  if transaction.message.addressTableLookups ≠ [] then
    .error (.transactionVerification "v0 transactions with address lookup tables are not supported")
  else validateProgramIds transaction.message.instructions

inductive UiTransactionEncoding
  | binary | base64 | base58 | json | jsonParsed
  deriving DecidableEq

/-- What a request is prepared with. The texts are the errors' own. -/
structure HttpDispatcher where
  bincode : Bincode
  base58 : String → Except String (List UInt8)
  base64 : String → Except String (List UInt8)
  sanitize : VersionedTransaction → Bool → Except TransactionError SanitizedTransaction
  sanitize_versioned : ∀ {transaction verify txn},
    sanitize transaction verify = .ok txn → txn.versioned = transaction
  display : TransactionError → String
  latest : Bytes 32
  contains : Bytes 32 → Bool

namespace HttpDispatcher
variable (x : HttpDispatcher)

def decodeText (encoding : UiTransactionEncoding) (txn : String) : Except RpcError (List UInt8) :=
  match encoding with
  | .base58 => (x.base58 txn).mapError .parseError
  | .base64 => (x.base64 txn).mapError .parseError
  | _ => .error (.invalidParams "unsupported transaction encoding")

def withBlockhash (replaceBlockhash : Bool) (transaction : VersionedTransaction) :
    Except RpcError VersionedTransaction :=
  if replaceBlockhash then
    .ok { transaction with message := transaction.message.setRecentBlockhash x.latest }
  else if x.contains transaction.message.recentBlockhash then .ok transaction
  else .error (.transactionVerification "Blockhash not found")

def prepareTransaction (txn : String) (encoding : UiTransactionEncoding)
    (sigverify replaceBlockhash : Bool) : Except RpcError WithEncoded := do
  let encoded ← x.decodeText encoding txn
  let transaction ← (x.bincode.deserialize encoded).mapError .invalidParams
  validateSupportedTransactionShape transaction
  let transaction ← x.withBlockhash replaceBlockhash transaction
  let txn ← (x.sanitize transaction sigverify).mapError (.ofTransactionError x.display)
  .ok ⟨txn, encoded⟩

variable {x}

lemma deserialize_of_prepared {txn : String} {encoding : UiTransactionEncoding} {sigverify : Bool}
    {p : WithEncoded} (h : x.prepareTransaction txn encoding sigverify false = .ok p) :
    x.bincode.deserialize p.encoded = .ok p.txn.versioned := by
  -- Nothing in between touches the transaction that goes to execution.
  obtain ⟨encoded, _, h⟩ := bind_eq_ok.mp h
  obtain ⟨transaction, hread, h⟩ := bind_eq_ok.mp h
  obtain ⟨_, _, h⟩ := bind_eq_ok.mp h
  obtain ⟨same, hblockhash, h⟩ := bind_eq_ok.mp h
  obtain ⟨sanitized, hsanitize, h⟩ := bind_eq_ok.mp h
  obtain rfl := Except.ok.inj h
  have hsame : same = transaction := by
    unfold withBlockhash at hblockhash
    rw [if_neg (by decide)] at hblockhash
    split_ifs at hblockhash
    exact (Except.ok.inj hblockhash).symm
  rw [x.sanitize_versioned (mapError_eq_ok.mp hsanitize), hsame]
  exact mapError_eq_ok.mp hread

end HttpDispatcher

inductive BlockError
  | serialize (error : String)
  | transactionNotFound
  | transactionStatusMetaNotFound
  | slotCleanedUp
  deriving DecidableEq

structure TransactionLedger where
  lowestCleanupSlot : UInt64
  blocktime : UInt64 → Option Int64
  blockhash : UInt64 → Option (Bytes 32)
  slotSignatures : UInt64 → Std.TreeMap UInt32 (Bytes 64)
  hasStatus : Bytes 64 → UInt64 → Bool
  transaction : Bytes 64 → UInt64 → Option (List UInt8)

structure ConfirmedBlock where
  previousBlockhash : Bytes 32
  blockhash : Bytes 32
  transactions : List VersionedTransaction

namespace TransactionLedger

def empty : TransactionLedger where
  lowestCleanupSlot := 0
  blocktime := fun _ => none
  blockhash := fun _ => none
  slotSignatures := fun _ => ∅
  hasStatus := fun _ _ => false
  transaction := fun _ _ => none

def writeTransaction (l : TransactionLedger) (signature : Bytes 64) (slot : UInt64) (index : UInt32)
    (encodedTransaction : List UInt8) : TransactionLedger :=
  { l with
    slotSignatures := Function.update l.slotSignatures slot
      ((l.slotSignatures slot).insert index signature)
    hasStatus := fun s t => if s = signature ∧ t = slot then true else l.hasStatus s t
    transaction := fun s t =>
      if s = signature ∧ t = slot then some encodedTransaction else l.transaction s t }

/-- The bytes the client sent, or those of a transaction that never had any. -/
def writeToLedger (b : Bincode) (l : TransactionLedger) (txn : SanitizedTransaction)
    (encoded : Option (List UInt8)) (slot : UInt64) (index : UInt32) : TransactionLedger :=
  l.writeTransaction txn.signature slot index (encoded.getD (b.serialize txn.versioned))

def writeBlock (l : TransactionLedger) (slot : UInt64) (time : Int64) (hash : Bytes 32) :
    TransactionLedger :=
  { l with
    blocktime := Function.update l.blocktime slot (some time)
    blockhash := Function.update l.blockhash slot (some hash) }

def checkLowestCleanupSlot (l : TransactionLedger) (slot : UInt64) : Except BlockError Unit :=
  if 0 < l.lowestCleanupSlot ∧ slot ≤ l.lowestCleanupSlot then .error .slotCleanedUp else .ok ()

def readTransaction (b : Bincode) (l : TransactionLedger) (signature : Bytes 64) (slot : UInt64) :
    Except BlockError (Option VersionedTransaction) :=
  match l.transaction signature slot with
  | none => .ok none
  | some bytes => (b.deserialize bytes).mapError .serialize |>.map some

/-- One entry of a block; its status is served along with it. -/
def confirmed (b : Bincode) (l : TransactionLedger) (slot : UInt64) (signature : Bytes 64) :
    Except BlockError VersionedTransaction := do
  match ← l.readTransaction b signature slot with
  | none => .error .transactionNotFound
  | some transaction =>
    if l.hasStatus signature slot then .ok transaction
    else .error .transactionStatusMetaNotFound

/-- The last executed first. -/
def signaturesIn (l : TransactionLedger) (slot : UInt64) : List (Bytes 64) :=
  (l.slotSignatures slot).toList.reverse.map Prod.snd

def getBlock (b : Bincode) (l : TransactionLedger) (slot : UInt64) :
    Except BlockError (Option ConfirmedBlock) := do
  l.checkLowestCleanupSlot slot
  match l.blockhash slot, l.blocktime slot with
  | some blockhash, some _ =>
    let previousSlot := saturatingSub slot 1
    l.checkLowestCleanupSlot previousSlot
    let transactions ← (l.signaturesIn slot).mapM (l.confirmed b slot)
    .ok (some ⟨(l.blockhash previousSlot).getD zeroHash, blockhash, transactions⟩)
  | _, _ => .ok none

lemma mem_signaturesIn {l : TransactionLedger} {slot : UInt64} {signature : Bytes 64} :
    signature ∈ l.signaturesIn slot ↔
      ∃ index : UInt32, (l.slotSignatures slot)[index]? = some signature := by
  simp only [signaturesIn, List.mem_map, List.mem_reverse, Prod.exists, exists_eq_right,
    Std.TreeMap.mem_toList_iff_getElem?_eq_some]

section Write
variable (b : Bincode) (l : TransactionLedger) (txn : SanitizedTransaction)
  (encoded : Option (List UInt8)) (slot : UInt64) (index : UInt32)

lemma row_writeToLedger : (l.writeToLedger b txn encoded slot index).transaction txn.signature slot =
    some (encoded.getD (b.serialize txn.versioned)) := if_pos ⟨rfl, rfl⟩

lemma listed_writeToLedger :
    txn.signature ∈ (l.writeToLedger b txn encoded slot index).signaturesIn slot := by
  rw [mem_signaturesIn]
  refine ⟨index, ?_⟩
  simp only [writeToLedger, writeTransaction, Function.update_self]
  exact Std.TreeMap.getElem?_insert_self

end Write

/-- What a run of the node writes. -/
inductive Written (x : HttpDispatcher) : TransactionLedger → Prop
  | empty : Written x .empty
  /-- A client's transaction is executed, as it was prepared. -/
  | client {l : TransactionLedger} (h : Written x l) {request : String}
      {encoding : UiTransactionEncoding} {p : WithEncoded}
      (hp : x.prepareTransaction request encoding true false = .ok p) (slot : UInt64)
      (index : UInt32) : Written x (l.writeToLedger x.bincode p.txn (some p.encoded) slot index)
  /-- One of the node's own. -/
  | own {l : TransactionLedger} (h : Written x l) (txn : SanitizedTransaction) (slot : UInt64)
      (index : UInt32) : Written x (l.writeToLedger x.bincode txn none slot index)
  | block {l : TransactionLedger} (h : Written x l) (slot : UInt64) (time : Int64)
      (hash : Bytes 32) : Written x (l.writeBlock slot time hash)
  | cleanup {l : TransactionLedger} (h : Written x l) (slot : UInt64) :
      Written x { l with lowestCleanupSlot := slot }

/-- The row of a signature can be served, and holds a transaction with that signature. -/
structure FiledAs (b : Bincode) (l : TransactionLedger) (slot : UInt64) (signature : Bytes 64)
    (transaction : VersionedTransaction) : Prop where
  row : ∃ bytes, l.transaction signature slot = some bytes ∧ b.deserialize bytes = .ok transaction
  status : l.hasStatus signature slot = true
  signed : transaction.signatures.val.head? = some signature
  paid : transaction.message.staticAccountKeys ≠ []

section Filed
variable {b : Bincode} {l : TransactionLedger} {slot : UInt64} {signature : Bytes 64}
  {transaction : VersionedTransaction}

lemma FiledAs.confirmed (h : l.FiledAs b slot signature transaction) :
    l.confirmed b slot signature = .ok transaction := by
  obtain ⟨bytes, hrow, hread⟩ := h.row
  simp [TransactionLedger.confirmed, readTransaction, hrow, hread, h.status, Except.mapError,
    Except.map, bind, Except.bind]

lemma FiledAs.of_row {l' : TransactionLedger} (h : l.FiledAs b slot signature transaction)
    (hrow : l'.transaction signature slot = l.transaction signature slot)
    (hstatus : l'.hasStatus signature slot = l.hasStatus signature slot) :
    l'.FiledAs b slot signature transaction where
  row := hrow ▸ h.row
  status := hstatus.trans h.status
  signed := h.signed
  paid := h.paid

lemma filed_writeToLedger {txn : SanitizedTransaction} {encoded : Option (List UInt8)}
    {at' : UInt64} {index : UInt32}
    (hread : b.deserialize (encoded.getD (b.serialize txn.versioned)) = .ok txn.versioned)
    (h : ∀ slot, ∀ signature ∈ l.signaturesIn slot, ∃ tx, l.FiledAs b slot signature tx)
    (hmem : signature ∈ (l.writeToLedger b txn encoded at' index).signaturesIn slot) :
    ∃ tx, (l.writeToLedger b txn encoded at' index).FiledAs b slot signature tx := by
  by_cases hnew : signature = txn.signature ∧ slot = at'
  · obtain ⟨rfl, rfl⟩ := hnew
    refine ⟨txn.versioned, ⟨_, row_writeToLedger .., hread⟩, if_pos ⟨rfl, rfl⟩, ?_, txn.paid⟩
    exact List.head?_eq_some_head txn.signed
  · have hold : signature ∈ l.signaturesIn slot := by
      rw [mem_signaturesIn] at hmem ⊢
      obtain ⟨i, hi⟩ := hmem
      refine ⟨i, ?_⟩
      simp only [writeToLedger, writeTransaction] at hi
      by_cases hslot : slot = at'
      · subst hslot
        rw [Function.update_self, Std.TreeMap.getElem?_insert] at hi
        split_ifs at hi
        · exact absurd ⟨(Option.some.inj hi).symm, rfl⟩ hnew
        · exact hi
      · rwa [Function.update_of_ne hslot] at hi
    obtain ⟨tx, hfiled⟩ := h slot signature hold
    exact ⟨tx, hfiled.of_row (if_neg hnew) (if_neg hnew)⟩

end Filed

theorem Written.filed {x : HttpDispatcher} {l : TransactionLedger} (h : Written x l) :
    ∀ slot, ∀ signature ∈ l.signaturesIn slot, ∃ tx, l.FiledAs x.bincode slot signature tx := by
  induction h with
  | empty =>
    intro slot signature hmem
    rw [mem_signaturesIn] at hmem
    simp [TransactionLedger.empty] at hmem
  | client _ hp at' index ih =>
    intro slot signature hmem
    exact filed_writeToLedger (HttpDispatcher.deserialize_of_prepared hp) ih hmem
  | own _ txn at' index ih =>
    intro slot signature hmem
    refine filed_writeToLedger ?_ ih hmem
    simpa using x.bincode.deserialize_serialize txn.versioned []
  | block _ at' time hash ih =>
    intro slot signature hmem
    obtain ⟨tx, hfiled⟩ := ih slot signature hmem
    exact ⟨tx, hfiled.of_row rfl rfl⟩
  | cleanup _ lowest ih =>
    intro slot signature hmem
    obtain ⟨tx, hfiled⟩ := ih slot signature hmem
    exact ⟨tx, hfiled.of_row rfl rfl⟩

/-- The block is complete, and neither it nor the one before has been cleaned up. -/
structure Serves (l : TransactionLedger) (slot : UInt64) : Prop where
  time : (l.blocktime slot).isSome
  hash : (l.blockhash slot).isSome
  kept : l.lowestCleanupSlot = 0 ∨ l.lowestCleanupSlot < saturatingSub slot 1

lemma Serves.checkLowestCleanupSlot {l : TransactionLedger} {slot t : UInt64} (h : l.Serves slot)
    (ht : saturatingSub slot 1 ≤ t) : l.checkLowestCleanupSlot t = .ok () := by
  rw [TransactionLedger.checkLowestCleanupSlot, if_neg]
  rintro ⟨hpos, hle⟩
  rcases h.kept with hzero | hlt
  · rw [hzero] at hpos
    exact absurd hpos (by decide)
  · exact absurd (UInt64.lt_of_lt_of_le hlt (UInt64.le_trans ht hle)) (UInt64.lt_irrefl _)

theorem Written.getBlock {x : HttpDispatcher} {l : TransactionLedger} {slot : UInt64}
    (h : Written x l) (hserves : l.Serves slot) :
    ∃ block, l.getBlock x.bincode slot = .ok (some block) ∧
      ∀ transaction, transaction ∈ block.transactions ↔
        ∃ signature ∈ l.signaturesIn slot, l.FiledAs x.bincode slot signature transaction := by
  obtain ⟨time, htime⟩ := Option.isSome_iff_exists.mp hserves.time
  obtain ⟨hash, hhash⟩ := Option.isSome_iff_exists.mp hserves.hash
  have hbefore : saturatingSub slot 1 ≤ slot := by
    unfold saturatingSub
    split_ifs with hone
    · rw [UInt64.le_iff_toNat_le, UInt64.toNat_sub_of_le _ _ hone]
      exact Nat.sub_le _ _
    · exact UInt64.zero_le
  have hfiled := h.filed slot
  obtain ⟨transactions, hall⟩ := exists_mapM_eq_ok (f := l.confirmed x.bincode slot) fun s hs =>
    ⟨_, (hfiled s hs).choose_spec.confirmed⟩
  refine ⟨⟨(l.blockhash (saturatingSub slot 1)).getD zeroHash, hash, transactions⟩, ?_, ?_⟩
  · simp [TransactionLedger.getBlock, hserves.checkLowestCleanupSlot hbefore,
      hserves.checkLowestCleanupSlot (UInt64.le_refl _), htime, hhash, hall, bind, Except.bind]
  · intro transaction
    rw [mem_of_mapM_eq_ok hall]
    refine exists_congr fun signature => and_congr_right fun hlisted => ?_
    constructor
    · intro hconfirmed
      obtain ⟨tx, htx⟩ := hfiled signature hlisted
      rw [htx.confirmed, Except.ok.injEq] at hconfirmed
      rwa [← hconfirmed]
    · exact FiledAs.confirmed

end TransactionLedger

end Blitz.Validator
