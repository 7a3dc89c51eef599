import Blitz.SignedReceipt
import Blitz.CheckedArith

/-! The watchtower's vocabulary: whose statements count, what a scan may say
about them, and the standalone re-derivation of an accusation. -/
namespace Blitz.Watchtower
open ByteLayout LittleEndian CheckedArith Receipts

structure Operator where
  key : Bytes 32
  logId : Bytes 32
  deriving DecidableEq

inductive Rejected
  | foreignLog | unverifiable
  deriving DecidableEq, Repr

/-- The log is compared before the signature is looked at. -/
def Operator.accepts (c : Crypto) (op : Operator) (s : SignedReceipt) : Except Rejected Unit :=
  if s.receipt.logId ≠ op.logId then .error .foreignLog
  else match s.verify c op.key with
    | .error _ => .error .unverifiable
    | .ok () => .ok ()

lemma Operator.accepts_eq_ok {c : Crypto} {op : Operator} {s : SignedReceipt} :
    op.accepts c s = .ok () ↔ s.receipt.logId = op.logId ∧ s.verify c op.key = .ok () := by
  unfold Operator.accepts
  split_ifs with h
  · simp [h]
  · cases s.verify c op.key with
    | error e => simp
    | ok u => simpa using h

/-- Something a detector declined to judge; never an accusation. -/
inductive Undetermined
  | sequenceGap (after before : UInt64)
  | missingOrigin (lowest : UInt64)
  | unverifiableReceipt (seq : UInt64)
  | foreignLog (seq : UInt64)
  | unverifiableBlock (slot : UInt64)
  | missingReceipt (slot : UInt64)
  | withdrawnReceipt (slot : UInt64)
  | unknownBlockhash (seq : UInt64)
  | notYetExecuted (seq : UInt64)
  | operatorIssuedPair (slot : UInt64)
  deriving DecidableEq, Repr

def Rejected.undetermined (seq : UInt64) : Rejected → Undetermined
  | .foreignLog => .foreignLog seq
  | .unverifiable => .unverifiableReceipt seq

structure Execution where
  slot : UInt64
  index : UInt32
  deriving DecidableEq, Repr

/-- The scheduler's block hash: the previous hash, then every signature. -/
def fold (c : Crypto) (previous : Bytes 32) (signatures : List (Bytes 64)) : Bytes 32 :=
  c.blake3 (previous.val ++ signatures.flatMap Subtype.val)

structure ReorderedTransaction where
  receipt : SignedReceipt
  wireBytes : List UInt8
  index : UInt32
  deriving DecidableEq

inductive Fault
  | equivocation (seq : UInt64) (a b : SignedReceipt)
  | brokenChain (seq : UInt64) (receipt predecessor : SignedReceipt)
  | badOrigin (receipt : SignedReceipt)
  | unticketed (slot : UInt64) (index : UInt32) (signature : Bytes 64) (wireBytes : List UInt8)
  | withheld (receipt : SignedReceipt) (execution : Execution) (held : UInt64)
  | withdrawnButExecuted (receipt withdrawal : SignedReceipt) (execution : Execution)
      (previousBlockhash blockhash : Bytes 32) (executed : List (Bytes 64))
  | absent (receipt : SignedReceipt) (head waited : UInt64)
  | notRevealed (receipt : SignedReceipt) (head waited : UInt64)
  | impossibleIngress (receipt : SignedReceipt) (blockhashSlot maxBlockhashAge : UInt64)
  | reorder (slot : UInt64) (previousBlockhash blockhash : Bytes 32) (executed : List (Bytes 64))
      (jumped delayed : ReorderedTransaction)
  deriving DecidableEq

/-- The signed receipts an accusation rests on. -/
def Fault.receipts : Fault → List SignedReceipt
  | .equivocation _ a b => [a, b]
  | .brokenChain _ receipt predecessor => [receipt, predecessor]
  | .badOrigin receipt => [receipt]
  | .unticketed _ _ _ _ => []
  | .withheld receipt _ _ => [receipt]
  | .withdrawnButExecuted receipt withdrawal _ _ _ _ => [receipt, withdrawal]
  | .absent receipt _ _ => [receipt]
  | .notRevealed receipt _ _ => [receipt]
  | .impossibleIngress receipt _ _ => [receipt]
  | .reorder _ _ _ _ jumped delayed => [jumped.receipt, delayed.receipt]

inductive Verdict
  | fault (f : Fault)
  | clean
  | cannotDetermine (reason : Undetermined)
  deriving DecidableEq

structure Scan where
  faults : List Fault := []
  undetermined : List Undetermined := []
  examined : ℕ := 0

def Scan.record (s : Scan) (verdict : Verdict) : Scan :=
  let s := { s with examined := s.examined + 1 }
  match verdict with
  | .fault f => { s with faults := s.faults ++ [f] }
  | .cannotDetermine reason => { s with undetermined := s.undetermined ++ [reason] }
  | .clean => s

/-- Every check ran and none of them found anything. -/
def Scan.isClean (s : Scan) : Bool := s.faults.isEmpty && s.undetermined.isEmpty

def Scan.recordAll (s : Scan) (verdicts : List Verdict) : Scan := verdicts.foldl Scan.record s

@[simp] lemma Scan.recordAll_append (s : Scan) (vs ws : List Verdict) :
    (s.recordAll vs).recordAll ws = s.recordAll (vs ++ ws) := by
  simp [Scan.recordAll]

/-! What a report holds is what its verdicts say. -/

def Verdict.accusation : Verdict → Option Fault
  | .fault f => some f
  | _ => none

def Verdict.reason : Verdict → Option Undetermined
  | .cannotDetermine reason => some reason
  | _ => none

lemma Verdict.accusation_eq_some {v : Verdict} {f : Fault} :
    v.accusation = some f ↔ v = .fault f := by
  cases v <;> simp [Verdict.accusation]

lemma Verdict.reason_eq_some {v : Verdict} {u : Undetermined} :
    v.reason = some u ↔ v = .cannotDetermine u := by
  cases v <;> simp [Verdict.reason]

lemma Scan.faults_recordAll (s : Scan) (vs : List Verdict) :
    (s.recordAll vs).faults = s.faults ++ vs.filterMap Verdict.accusation := by
  induction vs generalizing s with
  | nil => simp [Scan.recordAll]
  | cons v vs ih =>
    change ((s.record v).recordAll vs).faults = _
    rw [ih, List.filterMap_cons]
    cases v <;> simp [Scan.record, Verdict.accusation]

lemma Scan.undetermined_recordAll (s : Scan) (vs : List Verdict) :
    (s.recordAll vs).undetermined = s.undetermined ++ vs.filterMap Verdict.reason := by
  induction vs generalizing s with
  | nil => simp [Scan.recordAll]
  | cons v vs ih =>
    change ((s.record v).recordAll vs).undetermined = _
    rw [ih, List.filterMap_cons]
    cases v <;> simp [Scan.record, Verdict.reason]

lemma Scan.mem_faults_recordAll {s : Scan} {vs : List Verdict} {f : Fault} :
    f ∈ (s.recordAll vs).faults ↔ f ∈ s.faults ∨ Verdict.fault f ∈ vs := by
  simp [Scan.faults_recordAll, Verdict.accusation_eq_some]

lemma Scan.mem_undetermined_recordAll {s : Scan} {vs : List Verdict} {u : Undetermined} :
    u ∈ (s.recordAll vs).undetermined ↔ u ∈ s.undetermined ∨ Verdict.cannotDetermine u ∈ vs := by
  simp [Scan.undetermined_recordAll, Verdict.reason_eq_some]

inductive FaultError
  | notSigned (seq : UInt64)
  | mixedLogs
  | notContradictory
  | notAdjacent (a b : UInt64)
  | chainIntact
  | originIntact
  | notAWithdrawal
  | withdrawalNamesAnotherReceipt
  | withdrawalPrecedesReceipt
  | receiptDoesNotBindTransaction
  | orderNotReproduced
  | notAtClaimedIndex
  | orderRespected
  | deliveredInTime
  | ingressPossible
  deriving DecidableEq, Repr

/-- How a verification that does not accept ends: with an error it returns, or
in the panic of an addition that overflows. -/
inductive Refusal
  | error (e : FaultError)
  | overflow
  deriving DecidableEq, Repr

instance : Coe FaultError Refusal := ⟨.error⟩

/-- `x + 1` on `u64` in a build with overflow checks (the `dev` profile): a `release` build
would wrap to zero where this panics. -/
def addOne (x : UInt64) : Except Refusal UInt64 :=
  if x.toNat + 1 < 2 ^ 64 then .ok (x + 1) else .error .overflow

section Verify
variable (c : Crypto)

def signed (s : SignedReceipt) (operator : Bytes 32) : Except Refusal Unit :=
  match s.verify c operator with
  | .error _ => .error (.error (.notSigned s.receipt.seq))
  | .ok () => .ok ()

variable {c} in
@[simp] lemma signed_eq_ok {s : SignedReceipt} {operator : Bytes 32} {u : Unit} :
    signed c s operator = .ok u ↔ s.verify c operator = .ok () := by
  unfold signed
  cases s.verify c operator <;> simp

variable {c} in
lemma signed_ne_overflow (s : SignedReceipt) (operator : Bytes 32) :
    signed c s operator ≠ .error .overflow := by
  unfold signed
  cases s.verify c operator <;> simp

def sameLog (a b : SignedReceipt) : Except Refusal Unit :=
  require (a.receipt.logId = b.receipt.logId) FaultError.mixedLogs

def txHash (wireBytes : List UInt8) : Bytes 32 := c.sha256 wireBytes

def ReorderedTransaction.verify (t : ReorderedTransaction) (operator : Bytes 32) :
    Except Refusal Unit := do
  signed c t.receipt operator
  require (txHash c t.wireBytes = t.receipt.receipt.txHash) FaultError.receiptDoesNotBindTransaction

def atIndex (executed : List (Bytes 64)) (t : ReorderedTransaction) : Except Refusal Unit :=
  require (executed[t.index.toNat]? = some t.receipt.receipt.txSig) FaultError.notAtClaimedIndex

/-- The second comparison is only evaluated once the first has passed. -/
def adjacent (seq : UInt64) (receipt predecessor : SignedReceipt) : Except Refusal Unit := do
  let e := FaultError.notAdjacent predecessor.receipt.seq receipt.receipt.seq
  require (receipt.receipt.seq = seq) e
  let next ← addOne predecessor.receipt.seq
  require (next = seq) e

/-- Re-derives the accusation from the carried objects alone. -/
def Fault.verify (operator : Bytes 32) : Fault → Except Refusal Unit
  | .equivocation seq a b => do
    signed c a operator
    signed c b operator
    sameLog a b
    require (a.receipt.seq = seq ∧ b.receipt.seq = seq)
      (FaultError.notAdjacent a.receipt.seq b.receipt.seq)
    require (a ≠ b) FaultError.notContradictory
  | .brokenChain seq receipt predecessor => do
    signed c receipt operator
    signed c predecessor operator
    sameLog receipt predecessor
    adjacent seq receipt predecessor
    require (receipt.receipt.prevReceiptHash ≠ predecessor.receiptHash c) FaultError.chainIntact
  | .badOrigin receipt => do
    signed c receipt operator
    require (¬(receipt.receipt.seq = 0 ∧ receipt.receipt.prevReceiptHash = genesisPrevHash))
      FaultError.originIntact
  | .withheld receipt execution held => do
    signed c receipt operator
    require (¬(execution.slot < receipt.receipt.ingressSlot ∨
      execution.slot - receipt.receipt.ingressSlot ≠ held)) FaultError.deliveredInTime
  | .withdrawnButExecuted receipt withdrawal execution previousBlockhash blockhash executed => do
    signed c receipt operator
    signed c withdrawal operator
    sameLog receipt withdrawal
    require (withdrawal.receipt.mode = .retract) FaultError.notAWithdrawal
    require (withdrawal.receipt.txHash = receipt.receiptHash c)
      FaultError.withdrawalNamesAnotherReceipt
    require (¬withdrawal.receipt.seq ≤ receipt.receipt.seq) FaultError.withdrawalPrecedesReceipt
    require (fold c previousBlockhash executed = blockhash) FaultError.orderNotReproduced
    require (executed[execution.index.toNat]? = some receipt.receipt.txSig)
      FaultError.notAtClaimedIndex
  | .absent receipt _ _ => signed c receipt operator
  | .notRevealed receipt _ _ => signed c receipt operator
  | .impossibleIngress receipt blockhashSlot maxBlockhashAge => do
    signed c receipt operator
    let ingress := receipt.receipt.ingressSlot
    require (ingress < blockhashSlot ∨
      saturatingSub ingress blockhashSlot > maxBlockhashAge) FaultError.ingressPossible
  | .unticketed _ _ _ _ => .ok ()
  | .reorder _ previousBlockhash blockhash executed jumped delayed => do
    jumped.verify c operator
    delayed.verify c operator
    sameLog jumped.receipt delayed.receipt
    require (fold c previousBlockhash executed = blockhash) FaultError.orderNotReproduced
    atIndex executed jumped
    atIndex executed delayed
    require (¬jumped.index ≥ delayed.index) FaultError.orderRespected
    require (¬jumped.receipt.receipt.seq ≤ delayed.receipt.receipt.seq) FaultError.orderRespected

variable {c} {operator : Bytes 32}

lemma addOne_eq_ok {x y : UInt64} : addOne x = .ok y ↔ y.toNat = x.toNat + 1 := by
  unfold addOne
  split_ifs with h
  · have hx : (x + 1).toNat = x.toNat + 1 := toNat_add_of_lt (b := 1) (by simpa using h)
    rw [Except.ok.injEq, ← UInt64.toNat_inj, hx, eq_comm]
  · have := y.toNat_lt
    simp only [false_iff]
    omega

lemma addOne_eq_error {x : UInt64} {e : Refusal} :
    addOne x = .error e ↔ x.toNat + 1 = 2 ^ 64 ∧ e = .overflow := by
  have := x.toNat_lt
  unfold addOne
  split_ifs with h
  · simp only [false_iff, not_and]
    omega
  · simp only [Except.error.injEq, eq_comm (a := Refusal.overflow)]
    constructor
    · exact fun he => ⟨by omega, he⟩
    · exact And.right

theorem verify_equivocation {seq : UInt64} {a b : SignedReceipt} :
    (Fault.equivocation seq a b).verify c operator = .ok () ↔
      a.verify c operator = .ok () ∧ b.verify c operator = .ok () ∧
      a.receipt.logId = b.receipt.logId ∧ a.receipt.seq = seq ∧ b.receipt.seq = seq ∧ a ≠ b := by
  simp [Fault.verify, sameLog, and_assoc]

theorem verify_brokenChain {seq : UInt64} {r p : SignedReceipt} :
    (Fault.brokenChain seq r p).verify c operator = .ok () ↔
      r.verify c operator = .ok () ∧ p.verify c operator = .ok () ∧
      r.receipt.logId = p.receipt.logId ∧ r.receipt.seq = seq ∧
      seq.toNat = p.receipt.seq.toNat + 1 ∧ r.receipt.prevReceiptHash ≠ p.receiptHash c := by
  simp [Fault.verify, sameLog, adjacent, addOne_eq_ok]

theorem verify_badOrigin {r : SignedReceipt} :
    (Fault.badOrigin r).verify c operator = .ok () ↔
      r.verify c operator = .ok () ∧
      ¬(r.receipt.seq = 0 ∧ r.receipt.prevReceiptHash = genesisPrevHash) := by
  simp [Fault.verify]

theorem verify_withheld {r : SignedReceipt} {e : Execution} {held : UInt64} :
    (Fault.withheld r e held).verify c operator = .ok () ↔
      r.verify c operator = .ok () ∧ held.toNat + r.receipt.ingressSlot.toNat = e.slot.toNat := by
  have hdelay : ¬(e.slot < r.receipt.ingressSlot ∨ e.slot - r.receipt.ingressSlot ≠ held) ↔
      held.toNat + r.receipt.ingressSlot.toNat = e.slot.toNat := by
    rw [not_or, not_not, UInt64.not_lt, UInt64.le_iff_toNat_le, ← UInt64.toNat_inj]
    constructor
    · rintro ⟨hle, hsub⟩
      rw [UInt64.toNat_sub_of_le _ _ (UInt64.le_iff_toNat_le.mpr hle)] at hsub
      omega
    · intro hsum
      have hle : r.receipt.ingressSlot.toNat ≤ e.slot.toNat := by omega
      refine ⟨hle, ?_⟩
      rw [UInt64.toNat_sub_of_le _ _ (UInt64.le_iff_toNat_le.mpr hle)]
      omega
  rw [← hdelay]
  simp [Fault.verify]

theorem verify_impossibleIngress {r : SignedReceipt} {slot age : UInt64} :
    (Fault.impossibleIngress r slot age).verify c operator = .ok () ↔
      r.verify c operator = .ok () ∧
      (r.receipt.ingressSlot < slot ∨ saturatingSub r.receipt.ingressSlot slot > age) := by
  simp [Fault.verify]

theorem verify_withdrawnButExecuted {r w : SignedReceipt} {e : Execution}
    {previous blockhash : Bytes 32} {executed : List (Bytes 64)} :
    (Fault.withdrawnButExecuted r w e previous blockhash executed).verify c operator = .ok () ↔
      r.verify c operator = .ok () ∧ w.verify c operator = .ok () ∧
      r.receipt.logId = w.receipt.logId ∧ w.receipt.mode = .retract ∧
      w.receipt.txHash = r.receiptHash c ∧ r.receipt.seq < w.receipt.seq ∧
      fold c previous executed = blockhash ∧
      executed[e.index.toNat]? = some r.receipt.txSig := by
  simp [Fault.verify, sameLog]

theorem verify_reorder {slot : UInt64} {previous blockhash : Bytes 32}
    {executed : List (Bytes 64)} {j d : ReorderedTransaction} :
    (Fault.reorder slot previous blockhash executed j d).verify c operator = .ok () ↔
      j.receipt.verify c operator = .ok () ∧ txHash c j.wireBytes = j.receipt.receipt.txHash ∧
      d.receipt.verify c operator = .ok () ∧ txHash c d.wireBytes = d.receipt.receipt.txHash ∧
      j.receipt.receipt.logId = d.receipt.receipt.logId ∧ fold c previous executed = blockhash ∧
      executed[j.index.toNat]? = some j.receipt.receipt.txSig ∧
      executed[d.index.toNat]? = some d.receipt.receipt.txSig ∧
      j.index < d.index ∧ d.receipt.receipt.seq < j.receipt.receipt.seq := by
  simp [Fault.verify, ReorderedTransaction.verify, sameLog, atIndex]

theorem verify_overflow {f : Fault} (h : f.verify c operator = .error .overflow) :
    ∃ seq r p, f = .brokenChain seq r p ∧ p.verify c operator = .ok () ∧
      p.receipt.seq.toNat + 1 = 2 ^ 64 := by
  cases f with
  | brokenChain seq r p =>
    simp [Fault.verify, sameLog, adjacent, addOne_eq_error, signed_ne_overflow] at h
    exact ⟨seq, r, p, rfl, h.2.1, by omega⟩
  | _ => simp [Fault.verify, ReorderedTransaction.verify, sameLog, atIndex, signed_ne_overflow] at h

end Verify

end Blitz.Watchtower
