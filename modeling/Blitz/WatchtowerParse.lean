import Blitz.IngressTransactions
import Blitz.WatchtowerWithholding

/-! How the watchtower reads a block off `getBlock`, and whether the hashes it finds there
are those the node receipted. -/
namespace Blitz.Watchtower
open LittleEndian Receipts CheckedArith Solana Validator

inductive ParseError
  | missing (field : String)
  | malformed (field : String)
  | badBase64 (field : String)
  | badTransaction
  | badReceipt
  deriving DecidableEq

inductive ClientError
  | rpc (error : BlockError)
  | parse (error : ParseError)
  deriving DecidableEq

/-- The answer, out of its base64 and base58 texts. -/
structure EncodedBlock where
  previousBlockhash : Bytes 32
  blockhash : Bytes 32
  transactions : List (List UInt8)

/-- The transactions are written anew; the bytes they came as are not at hand. -/
def encodeBlock (b : Bincode) (block : ConfirmedBlock) : EncodedBlock where
  previousBlockhash := block.previousBlockhash
  blockhash := block.blockhash
  transactions := block.transactions.map b.serialize

namespace Parse
variable (c : Crypto) (b : Bincode) (isWritable : VersionedMessage → ℕ → Bool)

def observe (wireBytes : List UInt8) : Except ParseError ObservedTransaction := do
  let txn ← (b.deserialize wireBytes).mapError fun _ => .badTransaction
  let signature ← orElse txn.signatures.val.head? (.malformed "signatures")
  let keys := txn.message.staticAccountKeys
  let feePayer ← orElse keys.head? (.malformed "accountKeys")
  .ok
    { signature := signature
      txHash := c.sha256 wireBytes
      feePayer := feePayer
      writable := (keys.zipIdx.filter fun key => isWritable txn.message key.2).map Prod.fst
      readonly := (keys.zipIdx.filter fun key => !isWritable txn.message key.2).map Prod.fst
      wireBytes := wireBytes }

def block (slot : UInt64) (value : EncodedBlock) : Except ParseError ObservedBlock := do
  let transactions ← value.transactions.mapM (observe c b isWritable)
  .ok ⟨slot, value.previousBlockhash, value.blockhash, transactions⟩

end Parse

/-- `Client::block`, with the node's ledger at the other end. -/
def fetchBlock (c : Crypto) (b : Bincode) (isWritable : VersionedMessage → ℕ → Bool)
    (l : TransactionLedger) (slot : UInt64) : Except ClientError (Option ObservedBlock) := do
  match ← (l.getBlock b slot).mapError .rpc with
  | none => .ok none
  | some answer =>
    let observed ← (Parse.block c b isWritable slot (encodeBlock b answer)).mapError .parse
    .ok (some observed)

section Seen
variable {c : Crypto} {b : Bincode} {isWritable : VersionedMessage → ℕ → Bool}
open Parse

lemma observe_serialize {l : TransactionLedger} {slot : UInt64} {signature : Bytes 64}
    {transaction : VersionedTransaction} (h : l.FiledAs b slot signature transaction) :
    ∃ seen, observe c b isWritable (b.serialize transaction) = .ok seen ∧
      seen.signature = signature ∧ seen.txHash = c.sha256 (b.serialize transaction) := by
  have hread : b.deserialize (b.serialize transaction) = .ok transaction := by
    simpa using b.deserialize_serialize transaction []
  obtain ⟨feePayer, rest, hkeys⟩ := List.exists_cons_of_ne_nil h.paid
  simp [observe, hread, h.signed, hkeys, orElse, Except.mapError, bind, Except.bind]

lemma getBlock_eq_some {l : TransactionLedger} {slot : UInt64} {answer : ConfirmedBlock}
    (h : l.getBlock b slot = .ok (some answer)) :
    l.blockhash slot = some answer.blockhash ∧
      answer.previousBlockhash = (l.blockhash (saturatingSub slot 1)).getD zeroHash ∧
      (l.signaturesIn slot).mapM (l.confirmed b slot) = .ok answer.transactions := by
  unfold TransactionLedger.getBlock at h
  obtain ⟨-, -, h⟩ := bind_eq_ok.mp h
  split at h
  · obtain ⟨-, -, h⟩ := bind_eq_ok.mp h
    obtain ⟨transactions, hconfirmed, h⟩ := bind_eq_ok.mp h
    cases h
    exact ⟨‹_›, rfl, hconfirmed⟩
  · cases h

lemma fetchBlock_eq_some {l : TransactionLedger} {slot : UInt64} {observed : ObservedBlock}
    (h : fetchBlock c b isWritable l slot = .ok (some observed)) :
    l.blockhash slot = some observed.blockhash ∧
      observed.previousBlockhash = (l.blockhash (saturatingSub slot 1)).getD zeroHash ∧
      observed.transactions.length = (l.signaturesIn slot).length := by
  unfold fetchBlock at h
  obtain ⟨answer, hanswer, h⟩ := bind_eq_ok.mp h
  cases answer with
  | none => cases h
  | some answer =>
    obtain ⟨hhash, hprevious, hconfirmed⟩ := getBlock_eq_some (mapError_eq_ok.mp hanswer)
    obtain ⟨parsed, hparsed, h⟩ := bind_eq_ok.mp h
    obtain ⟨seen, hseen, hblock⟩ := bind_eq_ok.mp (mapError_eq_ok.mp hparsed)
    cases h
    cases hblock
    refine ⟨hhash, hprevious, ?_⟩
    rw [← (mapM_eq_ok.mp hseen).length_eq, (mapM_eq_ok.mp hconfirmed).length_eq]
    exact List.length_map _

variable (c isWritable) in
theorem fetchBlock_of_written {x : HttpDispatcher} {l : TransactionLedger} {slot : UInt64}
    (hl : l.Written x) (hserves : l.Serves slot) :
    ∃ observed, fetchBlock c x.bincode isWritable l slot = .ok (some observed) ∧
      ∀ seen, seen ∈ observed.transactions ↔ ∃ signature ∈ l.signaturesIn slot, ∃ transaction,
        l.FiledAs x.bincode slot signature transaction ∧
        observe c x.bincode isWritable (x.bincode.serialize transaction) = .ok seen := by
  obtain ⟨answer, hanswer, hmem⟩ := hl.getBlock hserves
  have hobserve : ∀ wireBytes ∈ answer.transactions.map x.bincode.serialize,
      ∃ seen, observe c x.bincode isWritable wireBytes = .ok seen := by
    intro wireBytes hwire
    obtain ⟨transaction, htransaction, rfl⟩ := List.mem_map.mp hwire
    obtain ⟨signature, _, hfiled⟩ := (hmem transaction).mp htransaction
    obtain ⟨seen, hseen, _⟩ := observe_serialize hfiled
    exact ⟨seen, hseen⟩
  obtain ⟨transactions, hall⟩ := exists_mapM_eq_ok hobserve
  refine ⟨⟨slot, answer.previousBlockhash, answer.blockhash, transactions⟩, ?_, ?_⟩
  · simp [fetchBlock, hanswer, Parse.block, encodeBlock, hall, Except.mapError, bind, Except.bind]
  · intro seen
    rw [mem_of_mapM_eq_ok hall]
    constructor
    · rintro ⟨wireBytes, hwire, hseen⟩
      obtain ⟨transaction, htransaction, rfl⟩ := List.mem_map.mp hwire
      obtain ⟨signature, hlisted, hfiled⟩ := (hmem transaction).mp htransaction
      exact ⟨signature, hlisted, transaction, hfiled, hseen⟩
    · rintro ⟨signature, hlisted, transaction, hfiled, hseen⟩
      refine ⟨x.bincode.serialize transaction, List.mem_map_of_mem ?_, hseen⟩
      exact (hmem transaction).mpr ⟨signature, hlisted, hfiled⟩

end Seen

section Lookup
variable {c : Crypto} {hash : Bytes 32}

lemma foldl_record_hash {slot : UInt64} (order : List (ObservedTransaction × ℕ))
    (index : ExecutionIndex)
    (h : (∃ x ∈ order, x.1.txHash = hash) ∨ (index.byHash hash).isSome) :
    ((order.foldl (fun executed (txn, position) =>
      executed.record txn.signature txn.txHash ⟨slot, UInt32.ofNat position⟩)
        index).byHash hash).isSome := by
  -- A hash once recorded stays, whatever else is recorded.
  induction order generalizing index with
  | nil => simpa using h
  | cons x order ih =>
    apply ih
    by_cases hx : x.1.txHash = hash
    · exact .inr (by simp [ExecutionIndex.record, hx])
    · rcases h with ⟨y, hy, hhash⟩ | hold
      · rcases List.mem_cons.mp hy with rfl | hy
        · exact absurd hhash hx
        · exact .inl ⟨y, hy, hhash⟩
      · refine .inr ?_
        simpa [ExecutionIndex.record, Function.update_of_ne (Ne.symm hx)] using hold

lemma byHash_observe (tower : Tower) {block : ObservedBlock}
    (h : (∃ txn ∈ block.transactions, txn.txHash = hash ∧ block.executedOrder c ≠ none) ∨
      (tower.executed.byHash hash).isSome) :
    ((tower.observe c block).executed.byHash hash).isSome := by
  simp only [Tower.observe]
  cases horder : block.executedOrder c with
  | none =>
    rcases h with ⟨_, _, _, hrecovered⟩ | hold
    · exact absurd horder hrecovered
    · exact hold
  | some order =>
    apply foldl_record_hash
    rcases h with ⟨txn, htxn, hhash, _⟩ | hold
    · obtain ⟨i, hi⟩ := List.mem_iff_getElem?.mp ((mem_executedOrder horder).mpr htxn)
      exact .inl ⟨(txn, i), List.mem_zipIdx_iff_getElem?.mpr hi, hhash⟩
    · exact .inr hold

lemma byHash_run (tower : Tower) (blocks : List ObservedBlock)
    (h : (tower.executed.byHash hash).isSome) :
    ((blocks.foldl (Tower.observe c) tower).executed.byHash hash).isSome := by
  induction blocks generalizing tower with
  | nil => exact h
  | cons block blocks ih =>
    apply ih
    exact byHash_observe tower (.inr h)

end Lookup

/-- The bytes are those `bincode` itself would write, down to the last one. -/
def Canonical (b : Bincode) (bytes : List UInt8) : Prop :=
  ∃ transaction, b.serialize transaction = bytes

lemma canonical_iff {b : Bincode} {bytes : List UInt8} {transaction : VersionedTransaction}
    (h : b.deserialize bytes = .ok transaction) :
    Canonical b bytes ↔ b.serialize transaction = bytes := by
  constructor
  · rintro ⟨written, rfl⟩
    have hread := b.deserialize_serialize written []
    rw [List.append_nil, h, Except.ok.injEq] at hread
    rw [hread]
  · exact fun hsame => ⟨transaction, hsame⟩

/-- The watchtower finds an executed transaction under the hash it was receipted with
exactly when the client sent it in canonical form, and its ticket is then found for good. -/
theorem receipted_hash_seen_iff (c : Crypto) (isWritable : VersionedMessage → ℕ → Bool)
    {x : HttpDispatcher} {request : String} {encoding : UiTransactionEncoding} {p : WithEncoded}
    (hprepared : x.prepareTransaction request encoding true false = .ok p)
    (hsha : c.sha256 (x.bincode.serialize p.txn.versioned) = c.sha256 p.encoded →
      x.bincode.serialize p.txn.versioned = p.encoded)
    {l : TransactionLedger} (hl : l.Written x) {slot : UInt64} (hserves : l.Serves slot)
    (hlisted : p.txn.signature ∈ l.signaturesIn slot)
    (hrow : l.transaction p.txn.signature slot = some p.encoded) :
    ∃ observed, fetchBlock c x.bincode isWritable l slot = .ok (some observed) ∧
      (∃ seen ∈ observed.transactions, seen.signature = p.txn.signature) ∧
      (∀ seen ∈ observed.transactions, seen.signature = p.txn.signature →
        (seen.txHash = p.digest c ↔ Canonical x.bincode p.encoded)) ∧
      (Canonical x.bincode p.encoded → observed.executedOrder c ≠ none →
        ∀ ticket : SignedReceipt, ticket.receipt.mode = .commit →
          ticket.receipt.txHash = p.digest c → ∀ (tower : Tower) (later : List ObservedBlock),
            ((later.foldl (Tower.observe c) (tower.observe c observed)).executed.find
              ticket).isSome) := by
  obtain ⟨observed, hobserved, hmem⟩ := fetchBlock_of_written c isWritable hl hserves
  have hread := HttpDispatcher.deserialize_of_prepared hprepared
  have hhash : ∀ seen ∈ observed.transactions, seen.signature = p.txn.signature →
      (seen.txHash = p.digest c ↔ Canonical x.bincode p.encoded) := by
    intro seen hseen hsignature
    obtain ⟨signature, _, transaction, hfiled, hobserve⟩ := (hmem seen).mp hseen
    obtain ⟨seen', hobserve', hsignature', hhash⟩ := observe_serialize hfiled
    obtain rfl : seen = seen' := Except.ok.inj (hobserve.symm.trans hobserve')
    -- The entry comes from the row of `p`, so it is `p`'s transaction that was written anew.
    obtain ⟨bytes, hbytes, hdecoded⟩ := hfiled.row
    rw [← hsignature', hsignature, hrow, Option.some.injEq] at hbytes
    rw [← hbytes, hread, Except.ok.injEq] at hdecoded
    rw [hhash, canonical_iff hread, ← hdecoded, WithEncoded.digest]
    exact ⟨hsha, fun hsame => by rw [hsame]⟩
  have hsome : ∃ seen ∈ observed.transactions, seen.signature = p.txn.signature := by
    obtain ⟨transaction, hfiled⟩ := hl.filed slot _ hlisted
    obtain ⟨seen, hseen, hsignature, _⟩ := observe_serialize hfiled
    exact ⟨seen, (hmem seen).mpr ⟨_, hlisted, transaction, hfiled, hseen⟩, hsignature⟩
  refine ⟨observed, hobserved, hsome, hhash, ?_⟩
  intro hcanonical horder ticket hmode hticket tower later
  obtain ⟨seen, hseen, hsignature⟩ := hsome
  rw [ExecutionIndex.find, hmode, hticket]
  apply byHash_run
  apply byHash_observe
  exact .inl ⟨seen, hseen, (hhash seen hseen hsignature).mpr hcanonical, horder⟩

namespace Vectors

/-- A client's transaction, signed over its message. -/
def transfer : VersionedTransaction where
  signatures := ⟨[Bytes.hex 64
    0x355947dc4642c536f9809fa3d65d604d63e923781aaa7b4d2f41826b844f4a49dbc85c2637f1c05ca725b3d7c2a21cb671596212afb1257ed022a5e06fba640c],
    by decide⟩
  message := .legacy
    { header := ⟨1, 0, 1⟩
      accountKeys := ⟨[Bytes.hex 32
        0xc853ad0f0cd2b619aea92ceec4fd56a24d6499d584ce79257e45cfd8139b60a7, Bytes.fill 32 0x55],
        by decide⟩
      recentBlockhash := Bytes.fill 32 0x44
      instructions := ⟨[⟨1, ⟨[0], by decide⟩, ⟨[1, 2, 3], by decide⟩⟩], by decide⟩ }
    (by decide)

def transferWire : List UInt8 := transactionCodec.encode transfer

/-- The same with one more byte, which no signature covers. -/
def trailingWire : List UInt8 := transferWire ++ [0]

/-- The node, for a client whose text decodes to the given bytes. -/
def dispatcher (decoded : List UInt8) : HttpDispatcher where
  bincode := .solana
  base58 := fun _ => .ok decoded
  base64 := fun _ => .ok decoded
  sanitize transaction _ :=
    if h : transaction.signatures.val ≠ [] ∧ transaction.message.staticAccountKeys ≠ [] then
      .ok ⟨transaction, h.1, h.2⟩
    else .error (.other 0)
  sanitize_versioned {transaction verify txn} h := by
    split_ifs at h
    rw [← Except.ok.inj h]
  display := fun _ => "Transaction failed to sanitize accounts offsets correctly"
  latest := Bytes.fill 32 0x44
  contains := fun hash => hash = Bytes.fill 32 0x44

def prepared (encoded : List UInt8) : WithEncoded := ⟨⟨transfer, by decide, by decide⟩, encoded⟩

def transferBlockhash : Bytes 32 :=
  Bytes.hex 32 0x5a671edddb1bc787d4c3aa9811fc4b958fd17ccc2ab2d9c58e6fae421dd151fb

def parentLedger : TransactionLedger :=
  TransactionLedger.empty.writeBlock 6150404 1754300123 (Bytes.fill 32 0x44)

/-- The transaction runs alone in its block. -/
def transferLedger (encoded : List UInt8) : TransactionLedger :=
  (parentLedger.writeToLedger .solana (prepared encoded).txn (some encoded) 6150405 0).writeBlock
    6150405 1754300123 transferBlockhash

def transferCrypto : Crypto :=
  recorded Receipts.Vectors.operatorSeed Receipts.Vectors.operatorPubkey []
    [(transferWire,
        Bytes.hex 32 0x80dbfa183a9bb5f5cc1673c6e3da663db9cc24a29a56576c82413796471e80c3),
      (trailingWire,
        Bytes.hex 32 0xd1ebcbae115c6f502115fb88158cccbbd265b4813b8cf31df3d3e29a17c6cc4f)]
    [((Bytes.fill 32 0x44).val ++ (prepared []).txn.signature.val, transferBlockhash)]

def payerWritable (_ : VersionedMessage) (index : ℕ) : Bool := index = 0

/-- The block as the watchtower reads it, whichever bytes were sent. -/
def transferBlock : ObservedBlock where
  slot := 6150405
  previousBlockhash := Bytes.fill 32 0x44
  blockhash := transferBlockhash
  transactions :=
    [{ signature := (prepared []).txn.signature
       txHash := Bytes.hex 32 0x80dbfa183a9bb5f5cc1673c6e3da663db9cc24a29a56576c82413796471e80c3
       feePayer := Bytes.hex 32 0xc853ad0f0cd2b619aea92ceec4fd56a24d6499d584ce79257e45cfd8139b60a7
       writable := [Bytes.hex 32 0xc853ad0f0cd2b619aea92ceec4fd56a24d6499d584ce79257e45cfd8139b60a7]
       readonly := [Bytes.fill 32 0x55]
       wireBytes := transferWire }]

/-- The ticket for given bytes, committed to before they are shown. -/
def ticketFor (encoded : List UInt8) (signature : Bytes 64) : SignedReceipt where
  receipt :=
    { logId := Receipts.Vectors.logId
      mode := .commit
      seq := 0
      txSig := zeroSig
      txHash := transferCrypto.sha256 encoded
      recentBlockhash := zeroHash
      prevReceiptHash := genesisPrevHash
      committer := Bytes.hex 32 0xc853ad0f0cd2b619aea92ceec4fd56a24d6499d584ce79257e45cfd8139b60a7
      ingressSlot := 6150402
      tIngressMicros := 1754300123456789 }
  signature := signature

def transferTicket : SignedReceipt := ticketFor transferWire (Bytes.hex 64
  0x2d4363ec3300f436bd36b8a9bc29cef2debbae5825151bfc9d06d96daf4594a6afc00fb12486563eb70b75173518d7d903ecda770e87e603cda700e383fdfc0d)

def trailingTicket : SignedReceipt := ticketFor trailingWire (Bytes.hex 64
  0xd8323a09150a836cebb5f1e7f5dc3ec836c3fc16575d12315ccec6e16e2821a760f6cd09d848b7bb7b55c85487e7b23afb227e1665d1c4563533eeb3c8780b01)

lemma transfer_evaluates :
    (dispatcher transferWire).prepareTransaction "" .base64 true false =
        .ok (prepared transferWire) ∧
      fetchBlock transferCrypto .solana payerWritable (transferLedger transferWire) 6150405 =
        .ok (some transferBlock) ∧
      (dispatcher trailingWire).prepareTransaction "" .base64 true false =
        .ok (prepared trailingWire) ∧
      fetchBlock transferCrypto .solana payerWritable (transferLedger trailingWire) 6150405 =
        .ok (some transferBlock) ∧
      transferBlock.executedOrder transferCrypto = some transferBlock.transactions ∧
      (prepared trailingWire).digest transferCrypto ≠ (prepared transferWire).digest transferCrypto ∧
      ((Tower.new.observe transferCrypto transferBlock).executed.find trailingTicket) = none := by
  decide +kernel

lemma written_transferLedger {encoded : List UInt8}
    (h : (dispatcher encoded).prepareTransaction "" .base64 true false = .ok (prepared encoded)) :
    (transferLedger encoded).Written (dispatcher encoded) :=
  .block (.client (.block .empty 6150404 1754300123 (Bytes.fill 32 0x44)) h 6150405 0)
    6150405 1754300123 transferBlockhash

lemma serves_transferLedger (encoded : List UInt8) : (transferLedger encoded).Serves 6150405 :=
  ⟨rfl, rfl, .inl rfl⟩

lemma listed_transferLedger (encoded : List UInt8) :
    (prepared encoded).txn.signature ∈ (transferLedger encoded).signaturesIn 6150405 :=
  TransactionLedger.listed_writeToLedger .solana parentLedger (prepared encoded).txn (some encoded)
    6150405 0

lemma row_transferLedger (encoded : List UInt8) :
    (transferLedger encoded).transaction (prepared encoded).txn.signature 6150405 = some encoded :=
  TransactionLedger.row_writeToLedger .solana parentLedger (prepared encoded).txn (some encoded)
    6150405 0

end Vectors

theorem receipted_hash_seen_iff_transfer :
    ∃ observed, fetchBlock Vectors.transferCrypto .solana Vectors.payerWritable
        (Vectors.transferLedger Vectors.transferWire) 6150405 = .ok (some observed) ∧
      (∃ seen ∈ observed.transactions,
        seen.txHash = (Vectors.prepared Vectors.transferWire).digest Vectors.transferCrypto) ∧
      ((Tower.new.observe Vectors.transferCrypto observed).executed.find
        Vectors.transferTicket).isSome := by
  obtain ⟨hprepared, hfetched, _, _, horder, _⟩ := Vectors.transfer_evaluates
  obtain ⟨observed, hobserved, ⟨seen, hseen, hsignature⟩, hhash, hfound⟩ :=
    receipted_hash_seen_iff Vectors.transferCrypto Vectors.payerWritable hprepared (fun _ => rfl)
      (Vectors.written_transferLedger hprepared) (Vectors.serves_transferLedger _)
      (Vectors.listed_transferLedger _) (Vectors.row_transferLedger _)
  have hcanonical : Canonical .solana Vectors.transferWire := ⟨Vectors.transfer, rfl⟩
  refine ⟨observed, hobserved, ⟨seen, hseen, (hhash seen hseen hsignature).mpr hcanonical⟩, ?_⟩
  have hblock : observed = Vectors.transferBlock :=
    Option.some.inj (Except.ok.inj (hobserved.symm.trans hfetched))
  refine hfound hcanonical ?_ Vectors.transferTicket rfl rfl Tower.new []
  rw [hblock, horder]
  simp

/-- One byte after the transaction: it runs and is served, but under another hash than the
one it was receipted with, and the ticket it was revealed for is not found. -/
theorem trailing_byte_hides_ticket :
    (Vectors.dispatcher Vectors.trailingWire).prepareTransaction "" .base64 true false =
        .ok (Vectors.prepared Vectors.trailingWire) ∧
      (Vectors.transferLedger Vectors.trailingWire).Written
        (Vectors.dispatcher Vectors.trailingWire) ∧
      (Vectors.transferLedger Vectors.trailingWire).transaction
        (Vectors.prepared Vectors.trailingWire).txn.signature 6150405 =
          some Vectors.trailingWire ∧
      fetchBlock Vectors.transferCrypto .solana Vectors.payerWritable
        (Vectors.transferLedger Vectors.trailingWire) 6150405 = .ok (some Vectors.transferBlock) ∧
      (∀ seen ∈ Vectors.transferBlock.transactions,
        seen.signature = (Vectors.prepared Vectors.trailingWire).txn.signature ∧
          seen.txHash ≠ (Vectors.prepared Vectors.trailingWire).digest Vectors.transferCrypto) ∧
      Vectors.trailingTicket.receipt.mode = .commit ∧
      Vectors.trailingTicket.receipt.txHash =
        (Vectors.prepared Vectors.trailingWire).digest Vectors.transferCrypto ∧
      Vectors.transferBlock.executedOrder Vectors.transferCrypto ≠ none ∧
      (Tower.new.observe Vectors.transferCrypto Vectors.transferBlock).executed.find
        Vectors.trailingTicket = none := by
  obtain ⟨_, _, hprepared, hfetched, horder, hdiffers, hlost⟩ := Vectors.transfer_evaluates
  refine ⟨hprepared, Vectors.written_transferLedger hprepared, Vectors.row_transferLedger _,
    hfetched, ?_, rfl, rfl, ?_, hlost⟩
  · intro seen hseen
    obtain rfl := List.mem_singleton.mp hseen
    exact ⟨rfl, hdiffers.symm⟩
  · rw [horder]
    simp

end Blitz.Watchtower
