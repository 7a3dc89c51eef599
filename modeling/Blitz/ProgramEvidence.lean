import Blitz.Receipt
import Blitz.CheckedArith

/-! What the slashing program accepts as evidence: the pairs read back out of an
ed25519 instruction, and the contradiction between two raw receipts. -/
namespace Blitz.Program
open ByteLayout LittleEndian CheckedArith Receipts

inductive SlashError
  | badInstruction | badAccountData | wrongOwner | wrongPda | notSigner
  | noEd25519Instruction | unregisteredKey | offsetsNotSelfContained | wrongSignatureCount
  | malformedReceipt
  | mixedLogs | differentSequence | notContradictory | alreadyConvicted
  | insufficientBond | nothingStaked | overdraw | bondLocked
  deriving DecidableEq, Repr

def SlashError.code : SlashError → UInt32
  | .badInstruction => 0
  | .badAccountData => 1
  | .wrongOwner => 2
  | .wrongPda => 3
  | .notSigner => 4
  | .noEd25519Instruction => 10
  | .unregisteredKey => 11
  | .offsetsNotSelfContained => 12
  | .wrongSignatureCount => 13
  | .malformedReceipt => 14
  | .mixedLogs => 20
  | .differentSequence => 21
  | .notContradictory => 22
  | .alreadyConvicted => 23
  | .insufficientBond => 30
  | .nothingStaked => 31
  | .overdraw => 32
  | .bondLocked => 33

def offsetsLen : ℕ := 14
def headerLen : ℕ := 2
def thisInstruction : UInt16 := 0xFFFF

structure Verified where
  key : Bytes 32
  message : List UInt8
  deriving DecidableEq

/-- The `n`-th little-endian `u16` of an offsets entry. -/
def offsetField (offsets : List UInt8) (n : ℕ) : UInt16 := u16Of (slice offsets (n * 2) 2)

/-- One turn of the loop. The signature is not read, but has to be there. -/
def verifiedEntry (data : List UInt8) (index : UInt16) (entry : ℕ) : Except SlashError Verified := do
  let offsets ← orElse (get? data (headerLen + entry * offsetsLen) offsetsLen)
    SlashError.noEd25519Instruction
  let signatureAt := offsetField offsets 0
  let keyAt := offsetField offsets 2
  let messageAt := offsetField offsets 4
  let messageLen := (offsetField offsets 5).toNat
  require (∀ instructionIndex ∈ [offsetField offsets 1, offsetField offsets 3, offsetField offsets 6],
    ¬(instructionIndex ≠ thisInstruction ∧ instructionIndex ≠ index))
    SlashError.offsetsNotSelfContained
  let _ ← orElse (get? data signatureAt.toNat 64) SlashError.offsetsNotSelfContained
  let key ← orElse (get? data keyAt.toNat 32) SlashError.offsetsNotSelfContained
  let message ← orElse (get? data messageAt.toNat messageLen) SlashError.offsetsNotSelfContained
  .ok ⟨Bytes.ofList 32 key, message⟩

def verifiedPairs (data : List UInt8) (index : UInt16) : Except SlashError (List Verified) :=
  if data.length < headerLen then .error .noEd25519Instruction
  else (List.range (data.getD 0 0).toNat).mapM (verifiedEntry data index)

lemma verifiedPairs_eq_ok {data : List UInt8} {index : UInt16} {pairs : List Verified} :
    verifiedPairs data index = .ok pairs ↔
      headerLen ≤ data.length ∧
        List.Forall₂ (fun entry p => verifiedEntry data index entry = .ok p)
          (List.range (data.getD 0 0).toNat) pairs := by
  unfold verifiedPairs
  split_ifs with h
  · simp only [false_iff, not_and]
    intro h'
    omega
  · rw [mapM_eq_ok]
    constructor
    · exact fun hp => ⟨by omega, hp⟩
    · exact And.right

structure Reading where
  signature : Bytes 64
  key : Bytes 32
  message : List UInt8

section Precompile
variable (own : List UInt8) (others : UInt16 → Option (List UInt8))

def named (instructionIndex : UInt16) : Option (List UInt8) :=
  if instructionIndex = thisInstruction then some own else others instructionIndex

def reading (entry : ℕ) : Option Reading := do
  let offsets ← get? own (headerLen + entry * offsetsLen) offsetsLen
  let signatureIn ← named own others (offsetField offsets 1)
  let signature ← get? signatureIn (offsetField offsets 0).toNat 64
  let keyIn ← named own others (offsetField offsets 3)
  let key ← get? keyIn (offsetField offsets 2).toNat 32
  let messageIn ← named own others (offsetField offsets 6)
  let message ← get? messageIn (offsetField offsets 4).toNat (offsetField offsets 5).toNat
  some ⟨Bytes.ofList 64 signature, Bytes.ofList 32 key, message⟩

/-- What the ed25519 program, which is not part of this repository, is trusted with: every entry
was found in the instruction it names and its signature verified. -/
def PrecompileAccepts (verifies : Bytes 32 → List UInt8 → Bytes 64 → Bool) : Prop :=
  ∀ entry < (own.getD 0 0).toNat, ∃ r, reading own others entry = some r ∧
    verifies r.key r.message r.signature = true

variable {own others}

lemma reading_of_verifiedEntry {index : UInt16} (hown : others index = some own) {entry : ℕ}
    {p : Verified} (h : verifiedEntry own index entry = .ok p) :
    ∃ signature, reading own others entry = some ⟨signature, p.key, p.message⟩ := by
  simp only [verifiedEntry, bind_eq_ok, orElse_eq_ok, require_eq_ok, exists_const] at h
  obtain ⟨offsets, ho, hself, signature, hs, key, hk, message, hm, hp⟩ := h
  have hnamed : ∀ ix ∈ [offsetField offsets 1, offsetField offsets 3, offsetField offsets 6],
      named own others ix = some own := by
    intro ix hix
    unfold named
    split_ifs with hthis
    · rfl
    · have hindex : ix = index := by
        by_contra hne
        exact hself ix hix ⟨hthis, hne⟩
      rw [hindex, hown]
  cases hp
  refine ⟨Bytes.ofList 64 signature, ?_⟩
  simp [reading, ho, hnamed, hs, hk, hm]

end Precompile

structure Equivocation where
  seq : UInt64
  logId : Bytes 32
  a : List UInt8
  b : List UInt8
  deriving DecidableEq

namespace Equivocation

def field (receipt : List UInt8) (off len : ℕ) : Except SlashError (List UInt8) :=
  orElse (get? receipt off len) .malformedReceipt

/-- Both receipts go through this before anything is read out of them. -/
def whole (receipt : List UInt8) : Except SlashError Unit := do
  require (receipt.length = receiptLen) SlashError.malformedReceipt
  require (slice receipt 0 offLogId = domainTag) SlashError.malformedReceipt

def check (a b : List UInt8) : Except SlashError Equivocation := do
  whole a
  whole b
  let logId ← field a offLogId 32
  let otherLogId ← field b offLogId 32
  require (otherLogId = logId) SlashError.mixedLogs
  let seq ← field a offSeq 8
  let otherSeq ← field b offSeq 8
  require (u64Of otherSeq = u64Of seq) SlashError.differentSequence
  require (a ≠ b) SlashError.notContradictory
  .ok ⟨u64Of seq, Bytes.ofList 32 logId, a, b⟩

/-- The order that names the conviction, whichever way round the pair arrived. -/
def ordered (e : Equivocation) : List UInt8 × List UInt8 :=
  if e.a ≤ e.b then (e.a, e.b) else (e.b, e.a)

def wrongedSignature (e : Equivocation) : Bytes 64 := Bytes.read 64 e.ordered.1 offTxSig

def wrongedTxHash (e : Equivocation) : Bytes 32 := Bytes.read 32 e.ordered.1 offTxHash

/-- A message of the right length that starts with the tag. -/
def Whole (m : List UInt8) : Prop := m.length = receiptLen ∧ slice m 0 offLogId = domainTag

@[simp] lemma whole_eq_ok {m : List UInt8} {u : Unit} : whole m = .ok u ↔ Whole m := by
  simp [whole, Whole]

theorem check_eq_ok {a b : List UInt8} {e : Equivocation} :
    check a b = .ok e ↔
      Whole a ∧ Whole b ∧ slice b offLogId 32 = slice a offLogId 32 ∧
        u64Of (slice b offSeq 8) = u64Of (slice a offSeq 8) ∧ a ≠ b ∧
        e = ⟨u64Of (slice a offSeq 8), Bytes.read 32 a offLogId, a, b⟩ := by
  have hfield {m s : List UInt8} (hm : Whole m) {off len : ℕ} (hle : off + len ≤ receiptLen) :
      field m off len = .ok s ↔ s = slice m off len := by
    rw [field, orElse_eq_ok, get?_eq_some, hm.1]
    simp [hle]
  have hlog : offLogId + 32 ≤ receiptLen := by decide
  have hseq : offSeq + 8 ≤ receiptLen := by decide
  simp only [check, bind_eq_ok, whole_eq_ok, require_eq_ok, exists_const]
  constructor
  · rintro ⟨ha, hb, l, hl, l', hl', hll, s, hs, s', hs', hss, hne, he⟩
    obtain rfl := (hfield ha hlog).mp hl
    obtain rfl := (hfield hb hlog).mp hl'
    obtain rfl := (hfield ha hseq).mp hs
    obtain rfl := (hfield hb hseq).mp hs'
    exact ⟨ha, hb, hll, hss, hne, (Except.ok.inj he).symm⟩
  · rintro ⟨ha, hb, hll, hss, hne, rfl⟩
    exact ⟨ha, hb, _, (hfield ha hlog).mpr rfl, _, (hfield hb hlog).mpr rfl, hll, _,
      (hfield ha hseq).mpr rfl, _, (hfield hb hseq).mpr rfl, hss, hne, rfl⟩

end Equivocation

def checkPair (signingKey : Bytes 32) (pair : Verified) : Except SlashError Unit := do
  require (pair.key = signingKey) SlashError.unregisteredKey
  require (pair.message.length = receiptLen) SlashError.malformedReceipt

/-- The middle of `prove_equivocation`: from the verifier's data to the
contradiction it shows about the registered key. -/
def checkEvidence (signingKey : Bytes 32) (data : List UInt8) (index : UInt16) :
    Except SlashError Equivocation := do
  let pairs ← verifiedPairs data index
  match pairs with
  | [first, second] => do
    checkPair signingKey first
    checkPair signingKey second
    Equivocation.check first.message second.message
  | _ => .error .wrongSignatureCount

lemma checkEvidence_of_pairs {signingKey : Bytes 32} {data : List UInt8} {index : UInt16}
    {m₁ m₂ : List UInt8}
    (hp : verifiedPairs data index = .ok [⟨signingKey, m₁⟩, ⟨signingKey, m₂⟩])
    (h₁ : m₁.length = receiptLen) (h₂ : m₂.length = receiptLen) :
    checkEvidence signingKey data index = Equivocation.check m₁ m₂ := by
  have hpair {m : List UInt8} (hm : m.length = receiptLen) :
      checkPair signingKey ⟨signingKey, m⟩ = .ok () := by
    simp [checkPair, hm]
  rw [checkEvidence, hp]
  change (do checkPair signingKey ⟨signingKey, m₁⟩
             checkPair signingKey ⟨signingKey, m₂⟩
             Equivocation.check m₁ m₂) = _
  rw [hpair h₁, hpair h₂]
  rfl

lemma checkEvidence_eq_ok {signingKey : Bytes 32} {data : List UInt8} {index : UInt16}
    {e : Equivocation} :
    checkEvidence signingKey data index = .ok e ↔
      ∃ m₁ m₂, verifiedPairs data index = .ok [⟨signingKey, m₁⟩, ⟨signingKey, m₂⟩] ∧
        Equivocation.check m₁ m₂ = .ok e := by
  unfold checkEvidence
  rw [bind_eq_ok]
  constructor
  · rintro ⟨pairs, hp, h⟩
    split at h
    · next first second =>
      obtain ⟨k₁, m₁⟩ := first
      obtain ⟨k₂, m₂⟩ := second
      simp only [checkPair, bind_eq_ok, require_eq_ok, exists_const] at h
      obtain ⟨⟨rfl, _⟩, ⟨rfl, _⟩, hc⟩ := h
      exact ⟨m₁, m₂, hp, hc⟩
    · cases h
  · rintro ⟨m₁, m₂, hp, hc⟩
    obtain ⟨hw₁, hw₂, _⟩ := Equivocation.check_eq_ok.mp hc
    rw [← bind_eq_ok, ← hc]
    exact checkEvidence_of_pairs hp hw₁.1 hw₂.1

theorem readings_of_checkEvidence {signingKey : Bytes 32} {own : List UInt8}
    {others : UInt16 → Option (List UInt8)} {index : UInt16} {e : Equivocation}
    (hown : others index = some own) (h : checkEvidence signingKey own index = .ok e) :
    (own.getD 0 0).toNat = 2 ∧ Equivocation.check e.a e.b = .ok e ∧
      (∃ s₁, reading own others 0 = some ⟨s₁, signingKey, e.a⟩) ∧
      ∃ s₂, reading own others 1 = some ⟨s₂, signingKey, e.b⟩ := by
  obtain ⟨m₁, m₂, hp, hc⟩ := checkEvidence_eq_ok.mp h
  obtain ⟨_, hall⟩ := verifiedPairs_eq_ok.mp hp
  have hcount : (own.getD 0 0).toNat = 2 := by simpa using hall.length_eq
  have hab : e.a = m₁ ∧ e.b = m₂ := by
    obtain ⟨_, _, _, _, _, rfl⟩ := Equivocation.check_eq_ok.mp hc
    exact ⟨rfl, rfl⟩
  rw [hcount] at hall
  simp only [List.range_succ, List.range_zero, List.nil_append, List.cons_append,
    List.forall₂_cons, List.Forall₂.nil, and_true] at hall
  obtain ⟨h0, h1⟩ := hall
  rw [hab.1, hab.2]
  exact ⟨hcount, hc, reading_of_verifiedEntry hown h0, reading_of_verifiedEntry hown h1⟩

end Blitz.Program
