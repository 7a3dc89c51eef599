import Blitz.WatchtowerWithholding

/-! What the detectors make of a log with strangers' entries in it: nothing. Every
scan starts from the entries the operator answers for. -/
namespace Blitz.Watchtower
open LittleEndian Receipts SortedGroups LatestIndex

section Accepted
variable (c : Crypto) (op : Operator)

def accepted (receipts : List SignedReceipt) : List SignedReceipt :=
  receipts.filter fun s => op.accepts c s = .ok ()

/-- `receipts'` is `receipts` with refused entries put in anywhere. -/
inductive Inserted : List SignedReceipt → List SignedReceipt → Prop
  | nil : Inserted [] []
  | keep {receipts receipts' : List SignedReceipt} (s : SignedReceipt) :
      Inserted receipts receipts' → Inserted (s :: receipts) (s :: receipts')
  | insert {receipts receipts' : List SignedReceipt} (s : SignedReceipt) :
      op.accepts c s ≠ .ok () → Inserted receipts receipts' → Inserted receipts (s :: receipts')

variable {c op}

lemma mem_accepted {receipts : List SignedReceipt} {s : SignedReceipt} :
    s ∈ accepted c op receipts ↔ s ∈ receipts ∧ op.accepts c s = .ok () := by
  simp [accepted]

lemma Inserted.accepted_eq {receipts receipts' : List SignedReceipt}
    (h : Inserted c op receipts receipts') : accepted c op receipts = accepted c op receipts' := by
  induction h with
  | nil => rfl
  | keep s _ ih =>
    unfold accepted at ih ⊢
    simp only [List.filter_cons, ih]
  | insert s hs _ ih => simpa [accepted, hs] using ih

lemma foldl_filter_of_skip {α σ : Type*} {step : σ → α → σ} {p : α → Prop} [DecidablePred p]
    (hskip : ∀ state a, ¬p a → step state a = state) (l : List α) (state : σ) :
    l.foldl step state = (l.filter fun a => p a).foldl step state := by
  induction l generalizing state with
  | nil => rfl
  | cons a l ih =>
    by_cases ha : p a
    · simp [ha, ih]
    · simp [ha, ih, hskip state a ha]

lemma attributable_eq (receipts : List SignedReceipt) :
    attributable c op receipts =
      (accepted c op receipts).mergeSort fun a b => position a ≤ position b := by
  simp only [attributable, checkBelongsHere_eq_clean, ordered_eq, filter_mergeSort, accepted]

lemma faults_eq (receipts : List SignedReceipt) :
    (scanReceipts c op receipts).faults =
      ((runs position (attributable c op receipts)).filterMap statementVerdict ++
        (distinct c op receipts).head?.toList.map checkOrigin ++
        ((distinct c op receipts).zip (distinct c op receipts).tail).map
          fun pair => checkLink c pair.1 pair.2).filterMap Verdict.accusation := by
  -- Attribution accuses nobody, so the faults come from what was attributed.
  have hnone : ((ordered receipts).map (checkBelongsHere c op)).filterMap Verdict.accusation = [] := by
    rw [List.filterMap_eq_nil_iff]
    intro v hv
    obtain ⟨s, _, rfl⟩ := List.mem_map.mp hv
    unfold checkBelongsHere
    cases op.accepts c s <;> rfl
  rw [scanReceipts_eq, Scan.faults_recordAll, verdicts]
  simp only [List.filterMap_append, hnone, List.nil_append, List.append_assoc]

lemma faults_accepted {receipts receipts' : List SignedReceipt}
    (h : accepted c op receipts = accepted c op receipts') :
    (scanReceipts c op receipts).faults = (scanReceipts c op receipts').faults := by
  have ha : attributable c op receipts = attributable c op receipts' := by
    rw [attributable_eq, attributable_eq, h]
  simp only [faults_eq, distinct, ha]

lemma withdrawals_accepted (receipts : List SignedReceipt) :
    Withdrawals.build c receipts op = Withdrawals.build c (accepted c op receipts) op := by
  apply foldl_filter_of_skip
  intro withdrawals s hs
  simp [hs]

lemma build_accepted (receipts : List SignedReceipt) :
    ReceiptIndex.build c receipts op = ReceiptIndex.build c (accepted c op receipts) op := by
  rw [ReceiptIndex.build, ReceiptIndex.build, ← withdrawals_accepted]
  apply foldl_filter_of_skip
  intro index s hs
  simp [ReceiptIndex.insert, hs]

lemma scanWithholding_accepted (receipts : List SignedReceipt) (executed : ExecutionIndex)
    (blockhashes : BlockhashSlots) (head : UInt64) (patience : Patience) :
    scanWithholding c receipts executed blockhashes head patience op =
      scanWithholding c (accepted c op receipts) executed blockhashes head patience op := by
  simp only [scanWithholding, ← withdrawals_accepted]
  apply foldl_filter_of_skip
  intro scan s hs
  simp [hs]

/-- Strangers' entries change no accusation, no block scan and no withholding scan. -/
theorem inserted_changes_no_verdict {receipts receipts' : List SignedReceipt}
    (h : Inserted c op receipts receipts') :
    (scanReceipts c op receipts).faults = (scanReceipts c op receipts').faults ∧
      (∀ block identity,
        scanBlock c block (ReceiptIndex.build c receipts op) op identity =
          scanBlock c block (ReceiptIndex.build c receipts' op) op identity) ∧
      ∀ executed blockhashes head patience,
        scanWithholding c receipts executed blockhashes head patience op =
          scanWithholding c receipts' executed blockhashes head patience op := by
  have ha := h.accepted_eq
  refine ⟨faults_accepted ha, ?_, ?_⟩
  · intro block identity
    rw [build_accepted receipts, build_accepted receipts', ha]
  · intro executed blockhashes head patience
    rw [scanWithholding_accepted receipts, scanWithholding_accepted receipts', ha]

end Accepted

theorem inserted_changes_no_verdict_vectors :
    Inserted Receipts.Vectors.crypto Vectors.operator Receipts.Vectors.log
        (⟨Receipts.Vectors.retractOfPlainGenesis.receipt, zeroSig⟩ ::
          Receipts.Vectors.plainGenesis :: Receipts.Vectors.plainRestart ::
          Receipts.Vectors.log.tail) ∧
      (scanReceipts Receipts.Vectors.crypto Vectors.operator Receipts.Vectors.log).faults =
        (scanReceipts Receipts.Vectors.crypto Vectors.operator
          (⟨Receipts.Vectors.retractOfPlainGenesis.receipt, zeroSig⟩ ::
            Receipts.Vectors.plainGenesis :: Receipts.Vectors.plainRestart ::
            Receipts.Vectors.log.tail)).faults := by
  have hrefused : Vectors.operator.accepts Receipts.Vectors.crypto
        ⟨Receipts.Vectors.retractOfPlainGenesis.receipt, zeroSig⟩ ≠ .ok () ∧
      Vectors.operator.accepts Receipts.Vectors.crypto Receipts.Vectors.plainRestart ≠ .ok () := by
    decide +kernel
  have h : Inserted Receipts.Vectors.crypto Vectors.operator Receipts.Vectors.log
      (⟨Receipts.Vectors.retractOfPlainGenesis.receipt, zeroSig⟩ ::
        Receipts.Vectors.plainGenesis :: Receipts.Vectors.plainRestart ::
        Receipts.Vectors.log.tail) :=
    .insert _ hrefused.1 (.keep _ (.insert _ hrefused.2 (.keep _ (.keep _ .nil))))
  exact ⟨h, (inserted_changes_no_verdict h).1⟩

end Blitz.Watchtower
