import Blitz.Base64
import Blitz.ExpiringCache
import Blitz.IngressTransactions
import Blitz.ReceiptTicketFates

/-! The three ingress methods in front of the receipt writer, with the cache of signatures
that keeps a transaction from being taken twice; and what each of them does, by what it
finds there and in the writer's table. -/
namespace Blitz.Receipts

/-- A byte as two hexadecimal digits. -/
def hexByte (byte : UInt8) : String :=
  "0x" ++ String.ofList [Nat.digitChar (byte.toNat / 16), Nat.digitChar (byte.toNat % 16)]

def ReceiptError.display : ReceiptError → String
  | .wrongLength got => "wrong length: expected " ++ toString receiptLen ++ ", got " ++ toString got
  | .badDomainTag => "bad domain tag"
  | .invalidMode byte => "invalid mode byte: " ++ hexByte byte
  | .modeReserved => "mode REVEAL is reserved and has no defined invariants yet"
  | .txSigNotZeroed => "tx_sig must be zero in COMMIT mode"
  | .txSigZeroed => "tx_sig must name a transaction in PLAIN and RETRACT modes"
  | .txHashZeroed => "tx_hash must name the receipt being withdrawn in RETRACT mode"
  | .recentBlockhashNotZeroed => "recent_blockhash must be zero in RETRACT mode"
  | .committerNotZeroed => "committer must be zero outside COMMIT mode"
  | .committerZeroed => "committer must be non-zero in COMMIT mode"
  | .badSignature => "signature verification failed"

end Blitz.Receipts

namespace Blitz.Validator
open LittleEndian Receipts CheckedArith Solana Traces

def StampError.display (bs58 : Bytes 32 → String) : StampError → String
  | .writerGone => "receipt writer is no longer running"
  | .invalid e => "refused to sign an invalid receipt: " ++ e.display
  | .storage e => "could not persist the receipt: " ++ e.display
  | .unsignedCommitment => "the committer did not sign this commitment"
  | .tooManyOutstanding committer =>
    "committer " ++ bs58 committer ++ " has too many unrevealed commitments"

/-- `AlreadyProcessed` by its number. -/
def TransactionError.alreadyProcessed : TransactionError := .other 6

structure SendTransactionConfig where
  encoding : Option UiTransactionEncoding
  skipPreflight : Bool

/-- The parameters as far as they parse. -/
structure TransactionParams where
  transactionStr : Option String
  config : Option SendTransactionConfig

structure CommitParams where
  hash : Option String
  committer : Option String
  signature : Option String

inductive RpcRequest
  | commitTransaction (params : Option CommitParams)
  | revealTransaction (params : Option TransactionParams)
  | sendTransaction (params : Option TransactionParams)

inductive RpcResponse
  | commitTicket (seq : UInt64) (ticket : String)
  | revealedSignature (signature : Bytes 64) (seq : UInt64)
  | receiptedSignature (signature : Bytes 64) (receipt : String)
  deriving DecidableEq

/-- When the writer gets to a command, and what its storage does. -/
structure Occasion where
  slot : UInt64
  micros : UInt64
  disk : Disk

def Occasion.turn (o : Occasion) (command : WriterCommand) : Turn := ⟨command, o.slot, o.micros, o.disk⟩

/-- The rest of the node while one request is handled. `accounts` is how account
resolution ends, and `forward` what sending the transaction on to the scheduler comes
back with, through the attack rig if that is on. -/
structure Surroundings extends HttpDispatcher where
  needsOnchainInteractions : Bool
  isReady : Bool
  validKey : Bytes 32 → Bool
  verify : Bytes 32 → Bytes 32 → Bytes 64 → Bool
  bs58 : Bytes 32 → String
  now : ℕ
  answering : Occasion
  recording : Occasion
  accounts : Except String Unit
  forward : Bool → TransactionResult

namespace Surroundings
variable (s : Surroundings)

def requirePrimaryRpcMethod (method : String) : Except RpcError Unit := do
  require s.needsOnchainInteractions
    (.transactionVerification (method ++ " is only available while validator is primary"))
  require s.isReady
    (.unavailable (method ++ " is unavailable until the first post-recovery block"))

/-- How both transaction methods begin. -/
def prepareRequest (method : String) (params : Option TransactionParams) :
    Except RpcError (WithEncoded × Bool) := do
  s.requirePrimaryRpcMethod method
  let params ← orElse params (.invalidRequest "missing params")
  let transactionStr ←
    orElse params.transactionStr (.invalidParams "missing or invalid transaction_str")
  let config := params.config.getD ⟨none, false⟩
  let transaction ← s.prepareTransaction transactionStr (config.encoding.getD .base58) true false
  .ok (transaction, config.skipPreflight)

def ensureTransactionAccounts : Except RpcError Unit := do
  s.requirePrimaryRpcMethod "transaction"
  s.accounts.mapError .transactionVerification

/-- Account resolution and the way to the scheduler. -/
def conclude (skipPreflight : Bool) : Except RpcError Unit := do
  s.ensureTransactionAccounts
  (s.forward skipPreflight).mapError (.ofTransactionError s.display)

/-- Bytes of one length, out of a text that decoded. -/
def exactly (n : ℕ) (decoded : Option (List UInt8)) (message : String) :
    Except RpcError (Bytes n) :=
  orElse (decoded.bind fun bytes => if h : bytes.length = n then some ⟨bytes, h⟩ else none)
    (.invalidParams message)

def decodeHash (encoded : String) : Except RpcError (Bytes 32) :=
  exactly 32 (Base64.decode encoded) "tx_hash must be 32 base64 bytes"

def decodePubkey (encoded : String) : Except RpcError (Bytes 32) :=
  exactly 32 (s.base58 encoded).toOption "committer must be a base58 pubkey"

def verifyCommitment (txHash committer : Bytes 32) (signature : String) : Except RpcError Unit := do
  let raw ← exactly 64 (Base64.decode signature) "signature must be 64 base64 bytes"
  require (s.validKey committer) (.invalidParams "committer is not a valid ed25519 key")
  require (s.verify committer txHash raw)
    (.transactionVerification "commitment is not signed by the committer")

def prepareCommit (params : Option CommitParams) : Except RpcError (Bytes 32 × Bytes 32) := do
  s.requirePrimaryRpcMethod "commitTransaction"
  let params ← orElse params (.invalidRequest "missing params")
  let hash ← orElse params.hash (.invalidParams "missing or invalid hash")
  let committer ← orElse params.committer (.invalidParams "missing or invalid committer")
  let signature ← orElse params.signature (.invalidParams "missing or invalid signature")
  let txHash ← decodeHash hash
  let committer ← s.decodePubkey committer
  s.verifyCommitment txHash committer signature
  .ok (txHash, committer)

end Surroundings

structure SignatureResult where
  slot : UInt64
  result : TransactionResult

abbrev TransactionsCache := ExpiringCache (Bytes 64) (Option SignatureResult)

/-- Seventy-five seconds, in nanoseconds. -/
def transactionsCacheTtl : ℕ := 75000000000

structure Front where
  transactions : TransactionsCache
  node : Node

/-- What a stamp or a commitment is answered with; there is no other kind of answer. -/
def Reply.stamped : Reply → Except StampError SignedReceipt
  | .issued result => result
  | _ => .error .writerGone

/-- What a reveal is answered with. -/
def Reply.claimed : Reply → Option (UInt64 × PendingCommit)
  | .revealed claimed => claimed
  | _ => none

def RpcError.noCommitment : RpcError :=
  .invalidRequest "no outstanding commitment matches these contents"

namespace Front
variable (c : Crypto)

def start (ledger : ReceiptLedger) (key : Bytes 32) (nanos minted : UInt64) (equivocation : Bool)
    (deadline : RevealDeadline) : Front :=
  ⟨.new transactionsCacheTtl, .spawn c ledger key nanos minted equivocation deadline⟩

/-- The replay check, which reserves the signature if it passes. -/
def reserve (f : Front) (now : ℕ) (signature : Bytes 64) : Bool × Front :=
  if f.transactions.contains signature then (false, f)
  else
    let (isNew, transactions) := f.transactions.push now signature none
    (isNew, { f with transactions := transactions })

def tell (f : Front) (o : Occasion) (command : WriterCommand) : Front × Reply :=
  let (node, reply) := f.node.handle c (o.turn command)
  ({ f with node := node }, reply)

/-- The end of both transaction methods, once there is a position. -/
def finish (f : Front) (s : Surroundings) (seq : UInt64) (skipPreflight : Bool)
    (response : RpcResponse) : Front × Except RpcError RpcResponse :=
  match s.ensureTransactionAccounts with
  | .error e => ((f.tell c s.recording (.recordOutcome seq .rejected)).1, .error e)
  | .ok () =>
    let scheduled := s.forward skipPreflight
    ((f.tell c s.recording (.recordOutcome seq (outcomeOf scheduled))).1,
      (scheduled.mapError (.ofTransactionError s.display)).map fun _ => response)

def commitTransaction (f : Front) (s : Surroundings) (params : Option CommitParams) :
    Front × Except RpcError RpcResponse :=
  match s.prepareCommit params with
  | .error e => (f, .error e)
  | .ok (txHash, committer) =>
    let (f, reply) := f.tell c s.answering (.commit txHash committer)
    match reply.stamped with
    | .error e => (f, .error (.internal (e.display s.bs58)))
    | .ok ticket => (f, .ok (.commitTicket ticket.receipt.seq (Base64.encode ticket.toBytes)))

/-- Both transaction methods up to the replay check. -/
def enter (f : Front) (s : Surroundings) (method : String) (params : Option TransactionParams)
    (next : Front → WithEncoded → Bool → Front × Except RpcError RpcResponse) :
    Front × Except RpcError RpcResponse :=
  match s.prepareRequest method params with
  | .error e => (f, .error e)
  | .ok (transaction, skipPreflight) =>
    match f.reserve s.now transaction.txn.signature with
    | (false, f) => (f, .error (.ofTransactionError s.display .alreadyProcessed))
    | (true, f) => next f transaction skipPreflight

def sendTransaction (f : Front) (s : Surroundings) (params : Option TransactionParams) :
    Front × Except RpcError RpcResponse :=
  f.enter s "sendTransaction" params fun f transaction skipPreflight =>
    let signature := transaction.txn.signature
    let (f, reply) := f.tell c s.answering (.stamp signature transaction.encoded
      transaction.txn.versioned.message.recentBlockhash)
    match reply.stamped with
    | .error e => (f, .error (.internal (e.display s.bs58)))
    | .ok receipt => f.finish c s receipt.receipt.seq skipPreflight
        (.receiptedSignature signature (Base64.encode receipt.toBytes))

def revealTransaction (f : Front) (s : Surroundings) (params : Option TransactionParams) :
    Front × Except RpcError RpcResponse :=
  f.enter s "revealTransaction" params fun f transaction skipPreflight =>
    let signature := transaction.txn.signature
    let (f, reply) := f.tell c s.answering (.reveal (transaction.digest c) signature)
    match reply.claimed with
    | none => (f, .error .noCommitment)
    | some (seq, _) => f.finish c s seq skipPreflight (.revealedSignature signature seq)

def handle (f : Front) (s : Surroundings) : RpcRequest → Front × Except RpcError RpcResponse
  | .commitTransaction params => f.commitTransaction c s params
  | .revealTransaction params => f.revealTransaction c s params
  | .sendTransaction params => f.sendTransaction c s params

end Front

section Admission
variable {c : Crypto} {f : Front} {s : Surroundings} {method : String}
  {params : Option TransactionParams} {p : WithEncoded} {skipPreflight : Bool} {seq : UInt64}
  {next : Front → WithEncoded → Bool → Front × Except RpcError RpcResponse}

/-- The transaction of a request that gets past the replay check. -/
def Front.admits (f : Front) (s : Surroundings) (method : String)
    (params : Option TransactionParams) : Option (WithEncoded × Bool) :=
  match s.prepareRequest method params with
  | .error _ => none
  | .ok (p, skipPreflight) =>
    if f.transactions.contains p.txn.signature then none else some (p, skipPreflight)

/-- The signature is in the cache from here on. -/
def Front.reserved (f : Front) (s : Surroundings) (p : WithEncoded) : Front :=
  { f with transactions := (f.transactions.push s.now p.txn.signature none).2 }

lemma admits_eq_some :
    f.admits s method params = some (p, skipPreflight) ↔
      s.prepareRequest method params = .ok (p, skipPreflight) ∧
        ¬f.transactions.contains p.txn.signature := by
  unfold Front.admits
  cases hprepared : s.prepareRequest method params with
  | error e => simp
  | ok prepared =>
    obtain ⟨p', skipPreflight'⟩ := prepared
    dsimp only
    split_ifs with hcontains
    · simp only [false_iff, Except.ok.injEq, Prod.mk.injEq]
      rintro ⟨⟨rfl, rfl⟩, hnot⟩
      exact hnot hcontains
    · simp only [Option.some.injEq, Except.ok.injEq, Prod.mk.injEq]
      constructor
      · rintro ⟨rfl, rfl⟩
        exact ⟨⟨rfl, rfl⟩, hcontains⟩
      · exact And.left

lemma enter_of_none (h : f.admits s method params = none) :
    ∃ e, f.enter s method params next = (f, .error e) := by
  unfold Front.admits at h
  unfold Front.enter
  cases hprepared : s.prepareRequest method params with
  | error e => exact ⟨e, rfl⟩
  | ok prepared =>
    obtain ⟨p, skipPreflight⟩ := prepared
    simp only [hprepared] at h
    split_ifs at h with hcontains
    simp only [Front.reserve, if_pos hcontains]
    exact ⟨_, rfl⟩

lemma enter_of_some (h : f.admits s method params = some (p, skipPreflight)) :
    f.enter s method params next = next (f.reserved s p) p skipPreflight := by
  obtain ⟨hprepared, hcontains⟩ := admits_eq_some.mp h
  have hnew : (f.transactions.push s.now p.txn.signature none).1 = true :=
    ExpiringCache.push_isNew hcontains
  unfold Front.enter
  rw [hprepared]
  simp only [Front.reserve, if_neg hcontains, hnew]
  rfl

lemma finish_transactions (response : RpcResponse) :
    (f.finish c s seq skipPreflight response).1.transactions = f.transactions := by
  unfold Front.finish
  split <;> rfl

lemma finish_response (response : RpcResponse) :
    (f.finish c s seq skipPreflight response).2 =
      (s.conclude skipPreflight).map fun _ => response := by
  unfold Front.finish Surroundings.conclude
  cases s.ensureTransactionAccounts <;> rfl

lemma finish_writer (response : RpcResponse) :
    (f.finish c s seq skipPreflight response).1.node.writer = f.node.writer := by
  have htell (outcome : Outcome) :
      (f.tell c s.recording (.recordOutcome seq outcome)).1.node.writer = f.node.writer := by
    simp only [Front.tell, Node.handle, Occasion.turn]
    cases hw : f.node.writer with
    | none => exact hw
    | some w => rfl
  unfold Front.finish
  cases s.ensureTransactionAccounts with
  | error e => exact htell .rejected
  | ok _ => exact htell _

lemma conclude_error {e : RpcError} (h : s.conclude skipPreflight = .error e) :
    e.code = -32003 ∨ e.httpStatus = 503 := by
  rcases bind_eq_error.mp h with haccounts | ⟨_, _, hforward⟩
  · rcases bind_eq_error.mp haccounts with hmethod | ⟨_, _, hresolve⟩
    · rcases bind_eq_error.mp hmethod with hprimary | ⟨_, _, hready⟩
      · obtain ⟨_, rfl⟩ := require_eq_error.mp hprimary
        exact .inl rfl
      · obtain ⟨_, rfl⟩ := require_eq_error.mp hready
        exact .inr rfl
    · obtain ⟨message, _, rfl⟩ := mapError_eq_error.mp hresolve
      exact .inl rfl
  · obtain ⟨e', _, rfl⟩ := mapError_eq_error.mp hforward
    exact .inl rfl

lemma conclude_ne {e : RpcError} (hcode : e.code ≠ -32003) (hstatus : e.httpStatus ≠ 503)
    (response : RpcResponse) :
    ((s.conclude skipPreflight).map fun _ => response) ≠ .error e := by
  intro hfails
  cases hconclude : s.conclude skipPreflight with
  | ok _ =>
    rw [hconclude] at hfails
    cases hfails
  | error e' =>
    rw [hconclude] at hfails
    cases hfails
    rcases conclude_error hconclude with h | h
    · exact hcode h
    · exact hstatus h

lemma reveal_of_none (h : f.admits s "revealTransaction" params = none) :
    (f.revealTransaction c s params).1 = f := by
  obtain ⟨e, hnothing⟩ := enter_of_none h
  rw [Front.revealTransaction, hnothing]

lemma reveal_transactions (h : f.admits s "revealTransaction" params = some (p, skipPreflight)) :
    (f.revealTransaction c s params).1.transactions = (f.reserved s p).transactions := by
  rw [Front.revealTransaction, enter_of_some h]
  dsimp only
  split
  · rfl
  · rw [finish_transactions]
    rfl

lemma tell_reveal (hash : Bytes 32) (txSig : Bytes 64) :
    ((f.tell c s.answering (.reveal hash txSig)).2.claimed =
        f.node.writer.bind fun w => w.pending.held hash) ∧
      ∀ w, (f.tell c s.answering (.reveal hash txSig)).1.node.writer = some w →
        w.pending.held hash = none := by
  cases hw : f.node.writer with
  | none => simp [Front.tell, Node.handle, hw, Occasion.turn, Node.unanswered, Reply.claimed]
  | some w =>
    obtain ⟨w', l', hreveal, hgone, _⟩ :=
      reveal_eq (w := w) (t := s.answering.turn (.reveal hash txSig)) f.node.ledger hash txSig
    simp only [Front.tell, Node.handle, hw, Occasion.turn] at hreveal ⊢
    rw [hreveal]
    refine ⟨rfl, ?_⟩
    intro w'' hw''
    obtain rfl := Option.some.inj hw''
    rw [hgone, Function.update_self]

lemma reveal_unclaimed (h : f.admits s "revealTransaction" params = some (p, skipPreflight))
    (hnone : ¬∃ seq, Claimable f.node (p.digest c) seq) :
    (f.revealTransaction c s params).2 = .error .noCommitment := by
  obtain ⟨hclaimed, _⟩ := tell_reveal (c := c) (f := f.reserved s p) (s := s) (p.digest c)
    p.txn.signature
  have hanswer : ((f.reserved s p).node.writer.bind fun w => w.pending.held (p.digest c)) = none := by
    rw [Option.bind_eq_none_iff]
    intro w hw
    refine Option.eq_none_iff_forall_ne_some.mpr fun entry hentry => ?_
    exact hnone ⟨entry.1, w, entry.2, hw, hentry⟩
  rw [Front.revealTransaction, enter_of_some h]
  dsimp only
  rw [hclaimed, hanswer]

lemma reveal_claims (h : f.admits s "revealTransaction" params = some (p, skipPreflight))
    (hclaimable : Claimable f.node (p.digest c) seq) :
    (f.revealTransaction c s params).2 =
        ((s.conclude skipPreflight).map fun _ => .revealedSignature p.txn.signature seq) ∧
      ∀ later, ¬Claimable (f.revealTransaction c s params).1.node (p.digest c) later := by
  obtain ⟨w, commit, hw, hheld⟩ := hclaimable
  obtain ⟨hclaimed, hgone⟩ := tell_reveal (c := c) (f := f.reserved s p) (s := s) (p.digest c)
    p.txn.signature
  have hanswer : ((f.reserved s p).node.writer.bind fun w => w.pending.held (p.digest c)) =
      some (seq, commit) := by
    rw [show (f.reserved s p).node.writer = some w from hw, Option.bind_some, hheld]
  rw [Front.revealTransaction, enter_of_some h]
  dsimp only
  rw [hclaimed, hanswer]
  refine ⟨finish_response _, ?_⟩
  rintro later ⟨w', commit', hw', hheld'⟩
  rw [finish_writer] at hw'
  rw [hgone w' hw'] at hheld'
  cases hheld'

lemma reveal_refused_iff (h : f.admits s "revealTransaction" params = some (p, skipPreflight)) :
    (f.revealTransaction c s params).2 = .error .noCommitment ↔
      ¬∃ seq, Claimable f.node (p.digest c) seq := by
  constructor
  · rintro hrefused ⟨seq, hclaimable⟩
    rw [(reveal_claims h hclaimable).1] at hrefused
    exact conclude_ne (by decide) (by decide) _ hrefused
  · exact reveal_unclaimed h

/-- Everything a stamp can fail on: the writer's end, the signature that names nothing, the
two writes, and the last sequence number. -/
def Stampable (n : Node) (o : Occasion) (signature : Bytes 64) : Prop :=
  signature ≠ zeroSig ∧ o.disk 0 = none ∧ o.disk 1 = none ∧
    ∃ w, n.writer = some w ∧ w.seq.toNat + 1 < 2 ^ 64

lemma validate_plain {r : Receipt} {txSig : Bytes 64} (hmode : r.mode = .plain)
    (hcommitter : r.committer = zeroPubkey) (hsig : r.txSig = txSig) :
    r.validate = if txSig = zeroSig then .error .txSigZeroed else .ok () := by
  simp [Receipt.validate, hmode, hcommitter, hsig]

lemma stamp_eq (w : Writer) (l : ReceiptLedger) (t : Turn) (txSig : Bytes 64)
    (wireBytes : List UInt8) (recentBlockhash : Bytes 32) :
    (txSig = zeroSig ∧ ∃ e, w.stamp c l t txSig wireBytes recentBlockhash = (l, .refused e)) ∨
      (txSig ≠ zeroSig ∧ ∃ published reply, w.stamp c l t txSig wireBytes recentBlockhash =
        w.persist c l t (some txSig) published reply) := by
  have hplain := validate_plain (r := w.plainReceipt c t txSig wireBytes recentBlockhash)
    rfl rfl rfl
  have htampered := validate_plain
    (r := Writer.tamper (w.plainReceipt c t txSig wireBytes recentBlockhash)) rfl rfl rfl
  change _ = if txSig = zeroSig then _ else _ at hplain htampered
  by_cases hsig : txSig = zeroSig
  · refine .inl ⟨hsig, .invalid .txSigZeroed, ?_⟩
    rw [if_pos hsig] at hplain
    simp only [Writer.stamp, Receipt.sign, hplain]
  · rw [if_neg hsig] at hplain htampered
    refine .inr ⟨hsig, ?_⟩
    simp only [Writer.stamp, Writer.publish, Receipt.sign, hplain, htampered]
    split_ifs
    · exact ⟨_, _, rfl⟩
    · exact ⟨_, _, rfl⟩

lemma writeReceipt_eq_ok {l : ReceiptLedger} {disk : Disk} {signature : Bytes 64} {outcome : UInt8}
    {receipt : List UInt8} :
    (l.writeReceipt disk seq (some signature) outcome receipt).2 = .ok () ↔
      disk 0 = none ∧ disk 1 = none := by
  unfold ReceiptLedger.writeReceipt ReceiptLedger.putBySeq ReceiptLedger.putBySig
  cases disk 0 <;> cases disk 1 <;> simp

lemma stamped_persist {n : Node} {w w' : Writer} {t : Turn} {signature : Bytes 64}
    {published reply : SignedReceipt} (hseq : w'.seq = w.seq) :
    (∃ receipt, (n.answer w
        (w'.persist c n.ledger t (some signature) published reply)).2.stamped = .ok receipt) ↔
      t.disk 0 = none ∧ t.disk 1 = none ∧ w.seq.toNat + 1 < 2 ^ 64 := by
  have hwrite : (n.ledger.writeReceipt t.disk w'.seq (some signature) Outcome.pending.asU8
      published.toBytes).2 = .ok () ↔ t.disk 0 = none ∧ t.disk 1 = none := writeReceipt_eq_ok
  unfold Writer.persist
  generalize n.ledger.writeReceipt t.disk w'.seq (some signature) Outcome.pending.asU8
    published.toBytes = written at hwrite
  obtain ⟨l, result⟩ := written
  cases result with
  | error e =>
    simp only [Node.answer, Reply.stamped, exists_false, false_iff, reduceCtorEq] at hwrite ⊢
    rintro ⟨h0, h1, _⟩
    exact hwrite ⟨h0, h1⟩
  | ok u =>
    obtain ⟨h0, h1⟩ := hwrite.mp rfl
    simp only [h0, h1, true_and]
    unfold Writer.advance
    rw [hseq]
    cases hadd : checkedAdd w.seq 1 with
    | none =>
      rw [checkedAdd_eq_none, UInt64.toNat_one] at hadd
      simp only [Node.answer, Reply.stamped, exists_false, false_iff, reduceCtorEq]
      omega
    | some next =>
      rw [checkedAdd_eq_some, UInt64.toNat_one] at hadd
      have hlt := next.toNat_lt
      simp only [Node.answer, Reply.stamped, Except.ok.injEq, exists_eq', true_iff]
      omega

lemma stamped_iff (n : Node) (o : Occasion) (signature : Bytes 64) (wireBytes : List UInt8)
    (recentBlockhash : Bytes 32) :
    (∃ receipt, (n.handle c (o.turn (.stamp signature wireBytes recentBlockhash))).2.stamped =
      .ok receipt) ↔ Stampable n o signature := by
  cases hw : n.writer with
  | none => simp [Node.handle, hw, Occasion.turn, Node.unanswered, Reply.stamped, Stampable]
  | some w =>
    simp only [Node.handle, Occasion.turn, hw, Stampable, Option.some.injEq, exists_eq_left']
    rcases stamp_eq (c := c) w n.ledger (o.turn (.stamp signature wireBytes recentBlockhash))
      signature wireBytes recentBlockhash with ⟨hsig, e, hstamp⟩ | ⟨hsig, published, reply, hstamp⟩
    · rw [Occasion.turn] at hstamp
      rw [hstamp]
      simp [hsig, Node.answer, Reply.stamped]
    · rw [Occasion.turn] at hstamp
      rw [hstamp, stamped_persist rfl]
      simp [hsig]

lemma send_of_none (h : f.admits s "sendTransaction" params = none) :
    (f.sendTransaction c s params).1 = f := by
  obtain ⟨e, hnothing⟩ := enter_of_none h
  rw [Front.sendTransaction, hnothing]

lemma send_transactions (h : f.admits s "sendTransaction" params = some (p, skipPreflight)) :
    (f.sendTransaction c s params).1.transactions = (f.reserved s p).transactions := by
  rw [Front.sendTransaction, enter_of_some h]
  dsimp only
  split
  · rfl
  · rw [finish_transactions]
    rfl

lemma send_unstamped (h : f.admits s "sendTransaction" params = some (p, skipPreflight))
    (hnot : ¬Stampable f.node s.answering p.txn.signature) :
    ∃ e : StampError, (f.sendTransaction c s params).2 = .error (.internal (e.display s.bs58)) := by
  rw [Front.sendTransaction, enter_of_some h]
  dsimp only
  split
  · exact ⟨_, rfl⟩
  · next receipt hstamped =>
    exact absurd ((stamped_iff (c := c) f.node s.answering _ _ _).mp ⟨receipt, hstamped⟩) hnot

lemma send_stamped (h : f.admits s "sendTransaction" params = some (p, skipPreflight))
    (hstampable : Stampable f.node s.answering p.txn.signature) :
    ∃ response, (f.sendTransaction c s params).2 =
      (s.conclude skipPreflight).map fun _ => response := by
  obtain ⟨receipt, hstamped⟩ := (stamped_iff (c := c) f.node s.answering p.txn.signature p.encoded
    p.txn.versioned.message.recentBlockhash).mpr hstampable
  have hanswer : ((f.reserved s p).tell c s.answering (.stamp p.txn.signature p.encoded
      p.txn.versioned.message.recentBlockhash)).2.stamped = .ok receipt := hstamped
  rw [Front.sendTransaction, enter_of_some h]
  dsimp only
  rw [hanswer]
  exact ⟨_, finish_response _⟩

lemma send_refused_iff (h : f.admits s "sendTransaction" params = some (p, skipPreflight)) :
    (∃ e : StampError, (f.sendTransaction c s params).2 = .error (.internal (e.display s.bs58))) ↔
      ¬Stampable f.node s.answering p.txn.signature := by
  constructor
  · rintro ⟨e, hrefused⟩ hstampable
    obtain ⟨response, hresponse⟩ := send_stamped (c := c) h hstampable
    rw [hresponse] at hrefused
    exact conclude_ne (by simp [RpcError.internal]) (by simp [RpcError.internal]) _ hrefused
  · exact send_unstamped h

end Admission

end Blitz.Validator
