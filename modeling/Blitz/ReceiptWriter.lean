import Blitz.ReceiptLedger
import Blitz.CheckedArith

/-! The receipt writer: the one task that assigns sequence numbers, advances the
chain and signs, with its table of unrevealed commitments. -/
namespace Blitz.Validator
open LittleEndian Receipts CheckedArith

structure PendingCommit where
  txHash : Bytes 32
  committer : Bytes 32
  committedAtSlot : UInt64
  deriving DecidableEq

/-- Keyed by content hash, which is all a reveal can be matched on. -/
structure PendingCommits where
  byHash : Std.TreeMap (Bytes 32) (UInt64 × PendingCommit) compareBytes

namespace PendingCommits

def empty : PendingCommits := ⟨∅⟩

def record (p : PendingCommits) (seq : UInt64) (txHash committer : Bytes 32)
    (committedAtSlot : UInt64) : PendingCommits :=
  ⟨p.byHash.insert txHash (seq, ⟨txHash, committer, committedAtSlot⟩)⟩

def claim (p : PendingCommits) (txHash : Bytes 32) :
    Option (UInt64 × PendingCommit) × PendingCommits :=
  (p.byHash[txHash]?, ⟨p.byHash.erase txHash⟩)

/-- The keys are collected first and removed one by one. -/
def expire (p : PendingCommits) (cutoffSlot : UInt64) :
    List (UInt64 × PendingCommit) × PendingCommits :=
  let stale := (p.byHash.toList.filter fun row => row.2.2.committedAtSlot < cutoffSlot).map Prod.fst
  stale.foldl (fun (removed, p) hash =>
    let (claimed, p) := p.claim hash
    (removed ++ claimed.toList, p)) ([], p)

def outstandingFor (p : PendingCommits) (committer : Bytes 32) : ℕ :=
  (p.byHash.values.filter fun row => row.2.committer = committer).length

end PendingCommits

structure RevealDeadline where
  slots : UInt64
  maxOutstanding : ℕ

def RevealDeadline.default : RevealDeadline := ⟨150, 8⟩

inductive StampError
  | writerGone
  | invalid (e : ReceiptError)
  | storage (e : LedgerError)
  | unsignedCommitment
  | tooManyOutstanding (committer : Bytes 32)
  deriving DecidableEq

inductive WriterCommand
  | stamp (txSig : Bytes 64) (wireBytes : List UInt8) (recentBlockhash : Bytes 32)
  | commit (txHash committer : Bytes 32)
  | reveal (txHash : Bytes 32) (txSig : Bytes 64)
  | recordOutcome (seq : UInt64) (outcome : Outcome)
  | sweep

/-- A command with what the outside world answers while it is handled. -/
structure Turn where
  command : WriterCommand
  slot : UInt64
  micros : UInt64
  disk : Disk

/-- The fields the writer owns; `equivocation` is the attack mode. -/
structure Writer where
  key : Bytes 32
  logId : Bytes 32
  seq : UInt64
  prevReceiptHash : Bytes 32
  equivocation : Bool
  published : Option SignedReceipt
  pending : PendingCommits
  deadline : RevealDeadline

/-- Names a run of the log by the key, the clock and a process-wide counter. -/
def mintLogId (c : Crypto) (key : Bytes 32) (nanos minted : UInt64) : Bytes 32 :=
  c.sha256 ((c.verifyingKey key).val ++ u64Bytes nanos ++ u64Bytes minted)

def Writer.new (c : Crypto) (key : Bytes 32) (nanos minted : UInt64) (equivocation : Bool)
    (deadline : RevealDeadline) : Writer where
  key := key
  logId := mintLogId c key nanos minted
  seq := 0
  prevReceiptHash := genesisPrevHash
  equivocation := equivocation
  published := none
  pending := .empty
  deadline := deadline

/-- How an issuing function ends. Only the last changes the writer; `panicked`
is the overflow of the sequence number in a build with overflow checks (the `dev`
profile), where a `release` build would go on at zero. -/
inductive Issued
  | refused (e : StampError)
  | panicked
  | issued (w : Writer) (reply : SignedReceipt)

namespace Writer

/-- The end of both issuing functions: the counter, the chain, and the copy that
went to storage. -/
def advance (w : Writer) (c : Crypto) (published reply : SignedReceipt) : Issued :=
  match checkedAdd w.seq 1 with
  | none => .panicked
  | some seq => .issued
      { w with seq := seq, prevReceiptHash := published.receiptHash c, published := some published }
      reply

/-- Persisted before the caller ever sees it, and only then does the writer
advance. A writer handed in for a write that fails is forgotten. -/
def persist (w : Writer) (c : Crypto) (l : ReceiptLedger) (t : Turn) (signature : Option (Bytes 64))
    (published reply : SignedReceipt) : ReceiptLedger × Issued :=
  match l.writeReceipt t.disk w.seq signature Outcome.pending.asU8 published.toBytes with
  | (l, .error e) => (l, .refused (.storage e))
  | (l, .ok ()) => (l, w.advance c published reply)

def ticket (w : Writer) (t : Turn) (txHash committer : Bytes 32) : Receipt where
  logId := w.logId
  mode := .commit
  seq := w.seq
  txSig := zeroSig
  txHash := txHash
  recentBlockhash := zeroHash
  prevReceiptHash := w.prevReceiptHash
  committer := committer
  ingressSlot := t.slot
  tIngressMicros := t.micros

def commit (w : Writer) (c : Crypto) (l : ReceiptLedger) (t : Turn) (txHash committer : Bytes 32) :
    ReceiptLedger × Issued :=
  if w.deadline.maxOutstanding ≤ w.pending.outstandingFor committer then
    (l, .refused (.tooManyOutstanding committer))
  else
    match (w.ticket t txHash committer).sign c w.key with
    | .error e => (l, .refused (.invalid e))
    | .ok signed =>
      let w := { w with pending := w.pending.record w.seq txHash committer t.slot }
      -- A ticket has no transaction signature to index by.
      w.persist c l t none signed signed

def plainReceipt (w : Writer) (c : Crypto) (t : Turn) (txSig : Bytes 64) (wireBytes : List UInt8)
    (recentBlockhash : Bytes 32) : Receipt where
  logId := w.logId
  mode := .plain
  seq := w.seq
  txSig := txSig
  txHash := c.sha256 wireBytes
  recentBlockhash := recentBlockhash
  prevReceiptHash := w.prevReceiptHash
  committer := zeroPubkey
  ingressSlot := t.slot
  tIngressMicros := t.micros

/-- The statement published in attack mode: the first byte of the hash flipped. -/
def tamper (r : Receipt) : Receipt :=
  { r with txHash := Bytes.ofList 32 (r.txHash.val.modify 0 (· ^^^ 0xFF)) }

def publish (w : Writer) (c : Crypto) (r : Receipt) (signed : SignedReceipt) :
    Except ReceiptError SignedReceipt :=
  if w.equivocation then (tamper r).sign c w.key else .ok signed

def stamp (w : Writer) (c : Crypto) (l : ReceiptLedger) (t : Turn) (txSig : Bytes 64)
    (wireBytes : List UInt8) (recentBlockhash : Bytes 32) : ReceiptLedger × Issued :=
  let receipt := w.plainReceipt c t txSig wireBytes recentBlockhash
  match receipt.sign c w.key with
  | .error e => (l, .refused (.invalid e))
  | .ok signed =>
    match w.publish c receipt signed with
    | .error e => (l, .refused (.invalid e))
    | .ok published => w.persist c l t (some txSig) published signed

/-- Claiming removes the promise, whether or not the index row could be written. -/
def reveal (w : Writer) (l : ReceiptLedger) (t : Turn) (txHash : Bytes 32) (txSig : Bytes 64) :
    Writer × ReceiptLedger × Option (UInt64 × PendingCommit) :=
  match w.pending.claim txHash with
  | (none, _) => (w, l, none)
  | (some claimed, pending) =>
    ({ w with pending := pending }, (l.indexReceiptSignature t.disk claimed.1 txSig).1, some claimed)

/-- Each mark makes two accesses of its own, and a failed one is passed over. -/
def markExpired (disk : Disk) (l : ReceiptLedger) (expired : List (UInt64 × PendingCommit)) :
    ReceiptLedger :=
  expired.zipIdx.foldl (fun l (entry, i) =>
    (l.setReceiptOutcome (fun n => disk (2 * i + n)) entry.1 Outcome.expired.asU8).1) l

/-- Every promise past its deadline is dropped and marked. -/
def sweep (w : Writer) (l : ReceiptLedger) (t : Turn) : Writer × ReceiptLedger :=
  let cutoff := saturatingSub t.slot w.deadline.slots
  let (expired, pending) := w.pending.expire cutoff
  ({ w with pending := pending }, markExpired t.disk l expired)

end Writer

inductive Reply
  | issued (result : Except StampError SignedReceipt)
  | revealed (claimed : Option (UInt64 × PendingCommit))
  | silent
  deriving DecidableEq

/-- `writer` is gone once its task has panicked; `events` is the broadcast stream. -/
structure Node where
  writer : Option Writer
  ledger : ReceiptLedger
  events : List SignedReceipt

namespace Node

def spawn (c : Crypto) (ledger : ReceiptLedger) (key : Bytes 32) (nanos minted : UInt64)
    (equivocation : Bool) (deadline : RevealDeadline) : Node where
  writer := some (Writer.new c key nanos minted equivocation deadline)
  ledger := ledger
  events := []

/-- Subscribers are sent the copy the log holds, if there is one. -/
def deliver (n : Node) (w : Writer) (l : ReceiptLedger) : Node where
  writer := some { w with published := none }
  ledger := l
  events := n.events ++ w.published.toList

/-- The end of `handle_stamp` and `handle_commit`. -/
def answer (n : Node) (w : Writer) : ReceiptLedger × Issued → Node × Reply
  | (l, .refused e) => (n.deliver w l, .issued (.error e))
  | (l, .issued w' s) => (n.deliver w' l, .issued (.ok s))
  | (l, .panicked) => ({ n with writer := none, ledger := l }, .issued (.error .writerGone))

/-- What a caller sees when there is no writer to answer. -/
def unanswered : WriterCommand → Reply
  | .stamp .. => .issued (.error .writerGone)
  | .commit .. => .issued (.error .writerGone)
  | .reveal .. => .revealed none
  | .recordOutcome .. => .silent
  | .sweep => .silent

/-- One turn of the writer's loop. -/
def handle (c : Crypto) (n : Node) (t : Turn) : Node × Reply :=
  match n.writer with
  | none => (n, unanswered t.command)
  | some w =>
    match t.command with
    | .stamp txSig wireBytes recentBlockhash =>
      n.answer w (w.stamp c n.ledger t txSig wireBytes recentBlockhash)
    | .commit txHash committer => n.answer w (w.commit c n.ledger t txHash committer)
    | .reveal txHash txSig =>
      let (w, l, claimed) := w.reveal n.ledger t txHash txSig
      ({ n with writer := some w, ledger := l }, .revealed claimed)
    | .recordOutcome seq outcome =>
      ({ n with ledger := (n.ledger.setReceiptOutcome t.disk seq outcome.asU8).1 }, .silent)
    | .sweep =>
      let (w, l) := w.sweep n.ledger t
      ({ n with writer := some w, ledger := l }, .silent)

def run (c : Crypto) (n : Node) (turns : List Turn) : Node :=
  turns.foldl (fun n t => (n.handle c t).1) n

end Node

/-- A receipt the writer may sign next. -/
structure Next (c : Crypto) (w : Writer) (s : SignedReceipt) : Prop where
  verified : s.verify c (c.verifyingKey w.key) = .ok ()
  logId : s.receipt.logId = w.logId
  seq : s.receipt.seq = w.seq
  link : s.receipt.prevReceiptHash = w.prevReceiptHash

/-- Everything but the pending table is as before. -/
structure SameLog (w w' : Writer) : Prop where
  key : w'.key = w.key
  logId : w'.logId = w.logId
  seq : w'.seq = w.seq
  link : w'.prevReceiptHash = w.prevReceiptHash
  equivocation : w'.equivocation = w.equivocation
  published : w'.published = w.published

/-- The five ways a turn of a running, honest writer can end. -/
inductive Turned (c : Crypto) (n : Node) (w : Writer) (t : Turn) : Node → Reply → Prop
  /-- Nothing was issued; receipts and subscribers are untouched. -/
  | quiet {n' : Node} {reply : Reply} (w' : Writer) (hw : n'.writer = some w') (same : SameLog w w')
      (events : n'.events = n.events) (stored : n'.ledger.stored = n.ledger.stored)
      (answer : ∀ result, reply ≠ .issued result) : Turned c n w t n' reply
  /-- Refused without a trace in the store. -/
  | refused {n' : Node} (e : StampError) (hw : n'.writer = some w) (events : n'.events = n.events)
      (stored : n'.ledger.stored = n.ledger.stored) : Turned c n w t n' (.issued (.error e))
  /-- Refused because the index row failed, after the receipt's row was written. -/
  | dangling {n' : Node} (e : LedgerError) (s : SignedReceipt) (hw : n'.writer = some w)
      (next : Next c w s) (events : n'.events = n.events)
      (stored : n'.ledger.stored = Function.update n.ledger.stored w.seq (some s.toBytes))
      (stamped : ∃ txSig wireBytes recentBlockhash,
        t.command = .stamp txSig wireBytes recentBlockhash)
      (first : t.disk 0 = none) (second : t.disk 1 = some e) :
      Turned c n w t n' (.issued (.error (.storage e)))
  /-- Issued, stored, sent and answered with one and the same receipt. -/
  | issued {n' : Node} (w' : Writer) (s : SignedReceipt) (hw : n'.writer = some w')
      (next : Next c w s) (key : w'.key = w.key) (logId : w'.logId = w.logId)
      (seq : w'.seq.toNat = w.seq.toNat + 1) (link : w'.prevReceiptHash = s.receiptHash c)
      (equivocation : w'.equivocation = w.equivocation) (published : w'.published = none)
      (events : n'.events = n.events ++ [s])
      (stored : n'.ledger.stored = Function.update n.ledger.stored w.seq (some s.toBytes)) :
      Turned c n w t n' (.issued (.ok s))
  /-- The counter overflowed once the last position there is had been written. -/
  | panicked {n' : Node} (s : SignedReceipt) (hw : n'.writer = none) (next : Next c w s)
      (events : n'.events = n.events)
      (stored : n'.ledger.stored = Function.update n.ledger.stored w.seq (some s.toBytes))
      (last : w.seq.toNat + 1 = 2 ^ 64) : Turned c n w t n' (.issued (.error .writerGone))

section Turns
variable {c : Crypto} {n : Node} {w : Writer} {t : Turn} {s : SignedReceipt}

lemma SameLog.refl (w : Writer) : SameLog w w := ⟨rfl, rfl, rfl, rfl, rfl, rfl⟩

lemma next_of_sign {r : Receipt} (hsign : r.sign c w.key = .ok s) (hlog : r.logId = w.logId)
    (hseq : r.seq = w.seq) (hlink : r.prevReceiptHash = w.prevReceiptHash) : Next c w s := by
  have hverified := Receipt.verify_of_sign hsign
  obtain ⟨_, rfl⟩ := Receipt.sign_eq_ok.mp hsign
  exact ⟨hverified, hlog, hseq, hlink⟩

lemma turned_refused (hpub : w.published = none) {l : ReceiptLedger}
    (hstored : l.stored = n.ledger.stored) (e : StampError) :
    Turned c n w t (n.answer w (l, .refused e)).1 (n.answer w (l, .refused e)).2 := by
  refine Turned.refused e ?_ ?_ hstored
  · simp only [Node.answer, Node.deliver, ← hpub]
  · simp [Node.answer, Node.deliver, hpub]

lemma turned_persist (w' : Writer) (hpub : w.published = none) (hsame : SameLog w w') (hnext : Next c w s)
    {signature : Option (Bytes 64)} (hstamp : signature ≠ none →
      ∃ txSig wireBytes recentBlockhash, t.command = .stamp txSig wireBytes recentBlockhash) :
    Turned c n w t (n.answer w (w'.persist c n.ledger t signature s s)).1
      (n.answer w (w'.persist c n.ledger t signature s s)).2 := by
  unfold Writer.persist
  obtain ⟨⟨l, result⟩, hwrite⟩ : ∃ out, n.ledger.writeReceipt t.disk w'.seq signature
    Outcome.pending.asU8 s.toBytes = out := ⟨_, rfl⟩
  rw [hwrite]
  rcases ReceiptLedger.writeReceipt_cases hwrite with ⟨e, rfl, rfl⟩ | ⟨hfirst, hstored, hresult⟩
  · exact turned_refused hpub rfl _
  rw [hsame.seq] at hstored
  rcases hresult with rfl | ⟨e, rfl, hsecond, hsig⟩
  · -- Both puts went through: only the counter can still stop the writer.
    dsimp only [Writer.advance]
    cases hadd : checkedAdd w'.seq 1 with
    | none =>
      have hlast : w.seq.toNat + 1 = 2 ^ 64 := by
        have hlt := w.seq.toNat_lt
        rw [hsame.seq, checkedAdd_eq_none, UInt64.toNat_one] at hadd
        omega
      exact Turned.panicked s rfl hnext rfl hstored hlast
    | some seq =>
      rw [checkedAdd_eq_some, hsame.seq] at hadd
      exact Turned.issued _ s rfl hnext hsame.key hsame.logId hadd rfl hsame.equivocation rfl rfl
        hstored
  · refine Turned.dangling e s ?_ hnext ?_ hstored (hstamp hsig) hfirst hsecond
    · simp only [Node.answer, Node.deliver, ← hpub]
    · simp [Node.answer, Node.deliver, hpub]

lemma markExpired_keeps {P : ReceiptLedger → Prop}
    (hmark : ∀ l disk seq, P l → P (l.setReceiptOutcome disk seq Outcome.expired.asU8).1)
    {l : ReceiptLedger} (h : P l) (disk : Disk) (expired : List (UInt64 × PendingCommit)) :
    P (Writer.markExpired disk l expired) :=
  List.foldlRecOn _ _ h fun l hl _ _ => hmark l _ _ hl

lemma stored_markExpired (disk : Disk) (l : ReceiptLedger)
    (expired : List (UInt64 × PendingCommit)) :
    (Writer.markExpired disk l expired).stored = l.stored := by
  apply markExpired_keeps (P := fun l' => l'.stored = l.stored) _ rfl
  intro l' disk seq h
  rw [ReceiptLedger.stored_setReceiptOutcome, h]

theorem handle_turned (hw : n.writer = some w) (hpub : w.published = none)
    (hoff : w.equivocation = false) : Turned c n w t (n.handle c t).1 (n.handle c t).2 := by
  unfold Node.handle
  rw [hw]
  cases hcommand : t.command with
  | stamp txSig wireBytes recentBlockhash =>
    dsimp only [Writer.stamp]
    cases hsign : (w.plainReceipt c t txSig wireBytes recentBlockhash).sign c w.key with
    | error e => exact turned_refused hpub rfl _
    | ok signed =>
      simp only [Writer.publish, hoff]
      exact turned_persist w hpub (.refl w) (next_of_sign hsign rfl rfl rfl) fun _ =>
        ⟨_, _, _, hcommand⟩
  | commit txHash committer =>
    dsimp only [Writer.commit]
    split_ifs with hmany
    · exact turned_refused hpub rfl _
    · cases hsign : (w.ticket t txHash committer).sign c w.key with
      | error e => exact turned_refused hpub rfl _
      | ok signed =>
        exact turned_persist { w with pending := w.pending.record w.seq txHash committer t.slot }
          hpub ⟨rfl, rfl, rfl, rfl, rfl, rfl⟩ (next_of_sign hsign rfl rfl rfl) fun h => absurd rfl h
  | reveal txHash txSig =>
    dsimp only [Writer.reveal]
    cases hclaim : w.pending.claim txHash with
    | mk claimed pending =>
      cases claimed with
      | none => exact Turned.quiet w rfl (.refl w) rfl rfl (by simp)
      | some claimed =>
        exact Turned.quiet _ rfl ⟨rfl, rfl, rfl, rfl, rfl, rfl⟩ rfl
          ReceiptLedger.stored_indexReceiptSignature (by simp)
  | recordOutcome seq outcome =>
    exact Turned.quiet w rfl (.refl w) rfl ReceiptLedger.stored_setReceiptOutcome (by simp)
  | sweep =>
    exact Turned.quiet _ rfl ⟨rfl, rfl, rfl, rfl, rfl, rfl⟩ rfl (stored_markExpired _ _ _) (by simp)

end Turns

end Blitz.Validator
