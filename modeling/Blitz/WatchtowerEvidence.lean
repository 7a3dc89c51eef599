import Blitz.WatchtowerFaultKinds

/-! What the evidence of the log scan and of the delivery scan is worth: every
accusation they make re-derives, not every one that re-derives is theirs, and what the
delivery scan never accuses of. -/
namespace Blitz.Watchtower
open LittleEndian Receipts CheckedArith SortedGroups

section Evidence
variable {c : Crypto} {op : Operator} {receipts : List SignedReceipt} {executed : ExecutionIndex}
  {blockhashes : BlockhashSlots} {head : UInt64} {patience : Patience}

lemma verify_of_scanReceipts {f : Fault} (hf : f ∈ (scanReceipts c op receipts).faults) :
    f.verify c op.key = .ok () := by
  rcases mem_faults_iff.mp hf with ⟨a, t, b, hg, hfind, rfl⟩ | ⟨a, ha, _, hprev, rfl⟩ |
    ⟨a, b, hab, hnext, hprev, rfl⟩
  · obtain ⟨ha, hb, hseq, hne⟩ := contradiction_of_run hg hfind
    obtain ⟨hlog, ha⟩ := Operator.accepts_eq_ok.mp (mem_attributable.mp ha).2
    obtain ⟨hlog', hb⟩ := Operator.accepts_eq_ok.mp (mem_attributable.mp hb).2
    exact verify_equivocation.mpr ⟨ha, hb, hlog.trans hlog'.symm, rfl, hseq, hne⟩
  · have hsigned := (Operator.accepts_eq_ok.mp (mem_distinct (List.mem_of_mem_head? ha)).2).2
    exact verify_badOrigin.mpr ⟨hsigned, fun h => hprev h.2⟩
  · -- Neighbours do not wrap around, so the sum the verifier checks does not either.
    obtain ⟨hmema, hmemb, hsum⟩ := distinct_neighbours hab
    obtain ⟨hlog, ha⟩ := Operator.accepts_eq_ok.mp (mem_distinct hmema).2
    obtain ⟨hlog', hb⟩ := Operator.accepts_eq_ok.mp (mem_distinct hmemb).2
    rw [hnext] at hsum
    exact verify_brokenChain.mpr ⟨hb, ha, hlog'.trans hlog.symm, rfl, hsum, hprev⟩

lemma verify_of_checkIngress {receipt : SignedReceipt} {f : Fault}
    (ha : op.accepts c receipt = .ok ())
    (hf : checkIngressIsPossible receipt blockhashes patience = .fault f) :
    f.verify c op.key = .ok () := by
  obtain ⟨_, slot, _, himpossible, rfl⟩ := checkIngress_eq_fault.mp hf
  exact verify_impossibleIngress.mpr ⟨(Operator.accepts_eq_ok.mp ha).2, himpossible⟩

lemma verify_of_checkDelivery {receipt : SignedReceipt} {f : Fault}
    (ha : op.accepts c receipt = .ok ())
    (hf : checkDelivery receipt executed head patience = .fault f) :
    f.verify c op.key = .ok () := by
  -- A delay over any allowance is not negative, where saturating and plain subtraction agree.
  obtain ⟨_, hsigned⟩ := Operator.accepts_eq_ok.mp ha
  rcases checkDelivery_eq_fault.mp hf with ⟨execution, _, hlong, rfl⟩ | ⟨_, habsence⟩
  · refine verify_withheld.mpr ⟨hsigned, ?_⟩
    rw [toNat_saturatingSub]
    omega
  · split_ifs at habsence <;>
    · obtain ⟨_, rfl⟩ := habsence
      exact signed_eq_ok.mpr hsigned

variable (c op receipts executed blockhashes head patience) in
/-- Whoever holds the operator's key can re-derive every accusation of the two scans,
and the addition of the link check does not overflow on any of them. -/
theorem scan_faults_rederive :
    (∀ f ∈ (scanReceipts c op receipts).faults, f.verify c op.key = .ok ()) ∧
      ∀ f ∈ (scanWithholding c receipts executed blockhashes head patience op).faults,
        f.verify c op.key = .ok () := by
  refine ⟨fun f hf => verify_of_scanReceipts hf, ?_⟩
  · intro f hf
    obtain ⟨receipt, _, hturn⟩ := mem_withholdingFaults.mp hf
    obtain ⟨ha, _, hingress | ⟨_, hdelivery⟩⟩ := mem_promiseVerdicts.mp hturn
    · exact verify_of_checkIngress ha hingress
    · exact verify_of_checkDelivery ha hdelivery

lemma withheld_mem_faults {receipt : SignedReceipt} {execution : Execution} {held : UInt64} :
    .withheld receipt execution held ∈
        (scanWithholding c receipts executed blockhashes head patience op).faults ↔
      receipt ∈ receipts ∧ op.accepts c receipt = .ok () ∧ receipt.receipt.mode ≠ .retract ∧
        takenBack c op receipts receipt = none ∧ executed.find receipt = some execution ∧
        held.toNat + receipt.receipt.ingressSlot.toNat = execution.slot.toNat ∧
        patience.heldSlots < held := by
  constructor
  · intro hf
    obtain ⟨r, hmem, hturn⟩ := mem_withholdingFaults.mp hf
    obtain ⟨ha, hmode, hingress | ⟨hback, hdelivery⟩⟩ := mem_promiseVerdicts.mp hturn
    · obtain ⟨_, _, _, _, he⟩ := checkIngress_eq_fault.mp hingress
      cases he
    · rcases checkDelivery_eq_fault.mp hdelivery with ⟨e, hfind, hlong, he⟩ | ⟨_, habsence⟩
      · obtain ⟨rfl, rfl, rfl⟩ := Fault.withheld.inj he
        have hheld := toNat_saturatingSub execution.slot receipt.receipt.ingressSlot
        refine ⟨hmem, ha, hmode, hback, hfind, by omega, ?_⟩
        rw [UInt64.lt_iff_toNat_lt]
        omega
      · split_ifs at habsence <;> cases habsence.2
  · rintro ⟨hmem, ha, hmode, hback, hfind, hsum, hlong⟩
    rw [UInt64.lt_iff_toNat_lt] at hlong
    have hheld : held = saturatingSub execution.slot receipt.receipt.ingressSlot := by
      rw [← UInt64.toNat_inj, toNat_saturatingSub]
      omega
    have hdelivery : checkDelivery receipt executed head patience =
        .fault (.withheld receipt execution held) :=
      checkDelivery_eq_fault.mpr (.inl ⟨execution, hfind, by omega, by rw [hheld]⟩)
    exact mem_withholdingFaults.mpr ⟨receipt, hmem,
      mem_promiseVerdicts.mpr ⟨ha, hmode, .inr ⟨hback, hdelivery⟩⟩⟩

/-- An object that accuses a receipt of a delay is refused or is what the scan reports
exactly when it misstates its own delay or repeats what the index says of a standing
promise past its allowance: the verifier asks for neither the execution nor the
allowance. -/
theorem withheld_evidence_iff (receipt : SignedReceipt) (execution : Execution) (held : UInt64)
    (hmem : receipt ∈ receipts) (haccepts : op.accepts c receipt = .ok ()) :
    ((Fault.withheld receipt execution held).verify c op.key = .ok () →
        .withheld receipt execution held ∈
          (scanWithholding c receipts executed blockhashes head patience op).faults) ↔
      held.toNat + receipt.receipt.ingressSlot.toNat ≠ execution.slot.toNat ∨
        receipt.receipt.mode ≠ .retract ∧
          (Withdrawals.build c receipts op).of c receipt = none ∧
          executed.find receipt = some execution ∧ patience.heldSlots < held := by
  have hsigned := (Operator.accepts_eq_ok.mp haccepts).2
  rw [verify_withheld, withheld_mem_faults, of_build]
  constructor
  · intro h
    by_cases hsum : held.toNat + receipt.receipt.ingressSlot.toNat = execution.slot.toNat
    · obtain ⟨_, _, hmode, hback, hfind, _, hlong⟩ := h ⟨hsigned, hsum⟩
      exact .inr ⟨hmode, hback, hfind, hlong⟩
    · exact .inl hsum
  · rintro (hsum | ⟨hmode, hback, hfind, hlong⟩) ⟨_, hsum'⟩
    · exact absurd hsum' hsum
    · exact ⟨hmem, haccepts, hmode, hback, hfind, hsum', hlong⟩

end Evidence

namespace Vectors

/-- The first receipt's transaction runs in the slot it arrived in. -/
def promptIndex : ExecutionIndex :=
  ExecutionIndex.empty.record plainTxn.signature plainTxn.txHash ⟨6150402, 0⟩

/-- The same receipt, accused of a delay of five thousand slots. -/
def inventedDelay : Fault := .withheld Receipts.Vectors.plainGenesis ⟨6155402, 0⟩ 5000

end Vectors

theorem scan_faults_rederive_published :
    (∃ f ∈ (scanReceipts Receipts.Vectors.crypto Vectors.operator
        [Receipts.Vectors.plainGenesis, Receipts.Vectors.plainRival]).faults,
      (f.kind, f.seq) = (.equivocation, 0) ∧
        f.verify Receipts.Vectors.crypto Vectors.operator.key = .ok ()) ∧
      (Fault.withheld Receipts.Vectors.commitChained Vectors.lateReveal 40).verify
        Receipts.Vectors.crypto Vectors.operator.key = .ok () := by
  have hcontradicted : (FaultKind.equivocation, 0) ∈ logFaults Receipts.Vectors.crypto
      Vectors.operator [Receipts.Vectors.plainGenesis, Receipts.Vectors.plainRival] :=
    equivocation_mem_logFaults.mpr ⟨Receipts.Vectors.plainGenesis, by simp,
      Receipts.Vectors.plainRival, by simp, by decide +kernel⟩
  obtain ⟨f, hf, hkind⟩ := hcontradicted
  have hrederive (receipts : List SignedReceipt) :=
    scan_faults_rederive Receipts.Vectors.crypto Vectors.operator receipts Vectors.revealedIndex
      (BlockhashSlots.new BlockhashSlots.defaultCapacity) 6150443 Patience.default
  exact ⟨⟨f, hf, hkind, (hrederive _).1 f hf⟩,
    (hrederive [Receipts.Vectors.plainGenesis, Receipts.Vectors.commitChained]).2 _
      (by decide +kernel)⟩

/-- The invented delay verifies, although the transaction ran at once and the scan
accuses nobody. -/
theorem invented_delay_verifies :
    Vectors.inventedDelay.verify Receipts.Vectors.crypto Vectors.operator.key = .ok () ∧
      Vectors.operator.accepts Receipts.Vectors.crypto Receipts.Vectors.plainGenesis = .ok () ∧
      Vectors.promptIndex.find Receipts.Vectors.plainGenesis = some ⟨6150402, 0⟩ ∧
      (scanWithholding Receipts.Vectors.crypto [Receipts.Vectors.plainGenesis] Vectors.promptIndex
        (BlockhashSlots.new BlockhashSlots.defaultCapacity) 6155402 Patience.default
        Vectors.operator).faults = [] := by
  decide +kernel

theorem withheld_evidence_iff_published :
    (Fault.withheld Receipts.Vectors.commitChained Vectors.lateReveal 40).verify
        Receipts.Vectors.crypto Vectors.operator.key = .ok () ∧
      .withheld Receipts.Vectors.commitChained Vectors.lateReveal 40 ∈
        Vectors.revealScan.faults := by
  have hverify : (Fault.withheld Receipts.Vectors.commitChained Vectors.lateReveal 40).verify
      Receipts.Vectors.crypto Vectors.operator.key = .ok () := by decide +kernel
  exact ⟨hverify, (withheld_evidence_iff Receipts.Vectors.commitChained Vectors.lateReveal 40
    (by simp) (by decide +kernel)).mpr (.inr (by decide +kernel)) hverify⟩

section Early
variable {c : Crypto} {op : Operator} {receipts : List SignedReceipt} {executed : ExecutionIndex}
  {blockhashes : BlockhashSlots} {head : UInt64} {patience : Patience}

lemma checkIngress_ne_notYetExecuted {receipt : SignedReceipt} {seq : UInt64} :
    checkIngressIsPossible receipt blockhashes patience ≠ .cannotDetermine (.notYetExecuted seq) := by
  unfold checkIngressIsPossible
  split
  · simp
  · split
    · simp
    · dsimp only
      split_ifs <;> simp

lemma checkDelivery_eq_notYetExecuted {receipt : SignedReceipt} {seq : UInt64}
    (h : checkDelivery receipt executed head patience = .cannotDetermine (.notYetExecuted seq)) :
    executed.find receipt = none ∧ receipt.receipt.seq = seq := by
  cases hfind : executed.find receipt with
  | none =>
    unfold checkDelivery at h
    rw [hfind] at h
    dsimp only at h
    split_ifs at h <;> simpa using h
  | some execution =>
    rw [checkDelivery_of_found hfind] at h
    split_ifs at h

lemma notYetExecuted_mem_undetermined {seq : UInt64}
    (h : .notYetExecuted seq ∈
      (scanWithholding c receipts executed blockhashes head patience op).undetermined) :
    ∃ receipt ∈ receipts, executed.find receipt = none ∧ receipt.receipt.seq = seq := by
  rw [scanWithholding_eq, Scan.mem_undetermined_recordAll] at h
  obtain ⟨receipt, hmem, hturn⟩ := List.mem_flatMap.mp (h.resolve_left List.not_mem_nil)
  obtain ⟨_, _, hingress | ⟨_, hdelivery⟩⟩ := mem_promiseVerdicts.mp hturn
  · exact absurd hingress checkIngress_ne_notYetExecuted
  · exact ⟨receipt, hmem, checkDelivery_eq_notYetExecuted hdelivery⟩

lemma scanWithholding_split {earlier later : List SignedReceipt} {receipt : SignedReceipt}
    (hsplit : receipts = earlier ++ receipt :: later) :
    scanWithholding c receipts executed blockhashes head patience op =
      ((Scan.recordAll {} (earlier.flatMap
        (promiseVerdicts c receipts executed blockhashes head patience op))).recordAll
        (promiseVerdicts c receipts executed blockhashes head patience op receipt)).recordAll
        (later.flatMap (promiseVerdicts c receipts executed blockhashes head patience op)) := by
  let turns := promiseVerdicts c receipts executed blockhashes head patience op
  have hrecorded : receipts.flatMap turns =
      earlier.flatMap turns ++ (turns receipt ++ later.flatMap turns) := by
    rw [← List.flatMap_cons, ← List.flatMap_append, ← hsplit]
  rw [scanWithholding_eq, hrecorded, ← Scan.recordAll_append, ← Scan.recordAll_append]

/-- A transaction the index places before its own arrival: in the turn of its standing receipt,
wherever it comes, the delivery check says clean; the only accusation there can be is about the
ingress, and nothing about its delivery is left open, unless by another receipt at its position. -/
theorem early_execution_called_clean (receipt : SignedReceipt) (execution : Execution)
    (hmem : receipt ∈ receipts) (haccepts : op.accepts c receipt = .ok ())
    (hmode : receipt.receipt.mode = .plain ∨ receipt.receipt.mode = .commit)
    (hstanding : (Withdrawals.build c receipts op).of c receipt = none)
    (hfound : executed.find receipt = some execution)
    (hearly : execution.slot < receipt.receipt.ingressSlot) :
    (∀ earlier later, receipts = earlier ++ receipt :: later →
      scanWithholding c receipts executed blockhashes head patience op =
        (((Scan.recordAll {} (earlier.flatMap
          (promiseVerdicts c receipts executed blockhashes head patience op))).record
          (checkIngressIsPossible receipt blockhashes patience)).record .clean).recordAll
          (later.flatMap
            (promiseVerdicts c receipts executed blockhashes head patience op))) ∧
      (∀ f ∈ (scanWithholding c receipts executed blockhashes head patience op).faults,
        receipt ∈ f.receipts → f.kind = .impossibleIngress) ∧
      (.notYetExecuted receipt.receipt.seq ∈
          (scanWithholding c receipts executed blockhashes head patience op).undetermined →
        ∃ other ∈ receipts, other ≠ receipt ∧ other.receipt.seq = receipt.receipt.seq) := by
  have hclean : checkDelivery receipt executed head patience = .clean := by
    rw [UInt64.lt_iff_toNat_lt] at hearly
    rw [checkDelivery_of_found hfound, if_neg (by omega)]
  refine ⟨fun earlier later hsplit => ?_, fun f hf hnames => ?_, fun hopen => ?_⟩
  · have hretract : receipt.receipt.mode ≠ .retract := by
      rcases hmode with h | h <;> simp [h]
    rw [of_build] at hstanding
    have hturn : promiseVerdicts c receipts executed blockhashes head patience op receipt =
        [checkIngressIsPossible receipt blockhashes patience, .clean] := by
      simp [promiseVerdicts, haccepts, hretract, hstanding, hclean]
    have hscan := @scanWithholding_split c op receipts executed blockhashes head patience _ _ _ hsplit
    rw [hturn] at hscan
    exact hscan
  · obtain ⟨r, _, hturn⟩ := mem_withholdingFaults.mp hf
    rw [promiseVerdicts_names hturn, List.mem_singleton] at hnames
    subst hnames
    obtain ⟨_, _, hingress | ⟨_, hdelivery⟩⟩ := mem_promiseVerdicts.mp hturn
    · obtain ⟨_, _, _, _, rfl⟩ := checkIngress_eq_fault.mp hingress
      rfl
    · rw [hclean] at hdelivery
      cases hdelivery
  · obtain ⟨other, hother, hnone, hseq⟩ := notYetExecuted_mem_undetermined hopen
    refine ⟨other, hother, ?_, hseq⟩
    rintro rfl
    rw [hfound] at hnone
    cases hnone

end Early

namespace Vectors

/-- The first receipt's transaction runs one slot before it is said to arrive. -/
def earlyIndex : ExecutionIndex :=
  ExecutionIndex.empty.record plainTxn.signature plainTxn.txHash ⟨6150401, 0⟩

def knownBlockhash : BlockhashSlots :=
  (BlockhashSlots.new BlockhashSlots.defaultCapacity).record
    Receipts.Vectors.plainGenesis.receipt.recentBlockhash 6150400

def earlyScan : Scan :=
  scanWithholding Receipts.Vectors.crypto [Receipts.Vectors.plainGenesis] earlyIndex
    knownBlockhash 6150410 Patience.default operator

end Vectors

/-- Stamped after it ran, and the whole scan is clean. -/
theorem stamped_after_execution_clean :
    Vectors.operator.accepts Receipts.Vectors.crypto Receipts.Vectors.plainGenesis = .ok () ∧
      Receipts.Vectors.plainGenesis.receipt.mode = .plain ∧
      (Withdrawals.build Receipts.Vectors.crypto [Receipts.Vectors.plainGenesis]
        Vectors.operator).of Receipts.Vectors.crypto Receipts.Vectors.plainGenesis = none ∧
      Vectors.earlyIndex.find Receipts.Vectors.plainGenesis = some ⟨6150401, 0⟩ ∧
      (6150401 : UInt64) < Receipts.Vectors.plainGenesis.receipt.ingressSlot ∧
      Vectors.earlyScan.isClean = true := by
  decide +kernel

theorem early_execution_called_clean_published :
    (∀ earlier later, [Receipts.Vectors.plainGenesis] =
        earlier ++ Receipts.Vectors.plainGenesis :: later →
      Vectors.earlyScan =
        (((Scan.recordAll {} (earlier.flatMap (promiseVerdicts Receipts.Vectors.crypto
          [Receipts.Vectors.plainGenesis] Vectors.earlyIndex Vectors.knownBlockhash 6150410
          Patience.default Vectors.operator))).record
          (checkIngressIsPossible Receipts.Vectors.plainGenesis Vectors.knownBlockhash
            Patience.default)).record .clean).recordAll
          (later.flatMap (promiseVerdicts Receipts.Vectors.crypto [Receipts.Vectors.plainGenesis]
            Vectors.earlyIndex Vectors.knownBlockhash 6150410 Patience.default
            Vectors.operator))) ∧
      (∀ f ∈ Vectors.earlyScan.faults,
        Receipts.Vectors.plainGenesis ∈ f.receipts → f.kind = .impossibleIngress) ∧
      (.notYetExecuted 0 ∈ Vectors.earlyScan.undetermined →
        ∃ other ∈ [Receipts.Vectors.plainGenesis], other ≠ Receipts.Vectors.plainGenesis ∧
          other.receipt.seq = 0) :=
  early_execution_called_clean Receipts.Vectors.plainGenesis ⟨6150401, 0⟩ (by simp)
    (by decide +kernel) (.inl rfl) (by decide +kernel) (by decide +kernel) (by decide)

end Blitz.Watchtower
