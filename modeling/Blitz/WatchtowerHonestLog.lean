import Blitz.WatchtowerReceiptScan
import Blitz.HashChain

/-! Honest logs against the watchtower: whatever else is mixed into the bag, the
scan accuses nobody, and no assembled evidence re-derives. -/
namespace Blitz.Watchtower
open LittleEndian Receipts SortedGroups HashChain

/-- What one run of a node that keeps to the protocol leaves behind. -/
structure HonestLog (c : Crypto) (op : Operator) (log : List SignedReceipt) : Prop where
  accepted : ∀ s ∈ log, op.accepts c s = .ok ()
  chain : Linked position (·.receipt.prevReceiptHash) (·.receiptHash c) genesisPrevHash log

/-- An honest log under one key, with the counter of the writer that issued it:
the position after the last receipt is still a `u64`. -/
structure HonestRun (c : Crypto) (key : Bytes 32) where
  logId : Bytes 32
  log : List SignedReceipt
  next : UInt64
  honest : HonestLog c ⟨key, logId⟩ log
  counted : log.length = next.toNat

namespace Vectors

def operator : Operator := ⟨Receipts.Vectors.operatorPubkey, Receipts.Vectors.logId⟩

lemma honestLog : HonestLog Receipts.Vectors.crypto operator Receipts.Vectors.log where
  accepted := by decide +kernel
  chain := by
    have h0 : Linked position (·.receipt.prevReceiptHash)
        (·.receiptHash Receipts.Vectors.crypto) genesisPrevHash [Receipts.Vectors.plainGenesis] :=
      Linked.nil.concat rfl (by decide +kernel)
    have h1 := h0.concat (a := Receipts.Vectors.commitChained) rfl (by decide +kernel)
    exact h1.concat (a := Receipts.Vectors.retractOfPlainGenesis) rfl (by decide +kernel)

end Vectors

section Scan
variable {c : Crypto} {op : Operator} {log receipts : List SignedReceipt}

lemma HonestLog.eq_of_seq_eq (h : HonestLog c op log) {a b : SignedReceipt} (ha : a ∈ log)
    (hb : b ∈ log) (he : a.receipt.seq = b.receipt.seq) : a = b :=
  h.chain.eq_of_number_eq ha hb ((position_eq_iff a b).mpr he)

lemma HonestLog.origin (h : HonestLog c op log) {a : SignedReceipt} (ha : a ∈ log)
    (he : a.receipt.seq = 0) : a.receipt.prevReceiptHash = genesisPrevHash :=
  h.chain.link_of_zero ha (by simp [position, he])

lemma distinct_neighbours {p r : SignedReceipt}
    (h : (p, r) ∈ (distinct c op receipts).zip (distinct c op receipts).tail) :
    p ∈ distinct c op receipts ∧ r ∈ distinct c op receipts ∧
      (p.receipt.seq + 1).toNat = position p + 1 := by
  obtain ⟨hp, hr, hlt, _⟩ := (mem_zip_tail_iff (distinct_strict receipts)).mp h
  refine ⟨hp, hr, ?_⟩
  have hb := r.receipt.seq.toNat_lt
  simp only [position] at hlt ⊢
  exact CheckedArith.toNat_add_of_lt (b := 1) (by simp; omega)

lemma HonestLog.no_fault (h : HonestLog c op log)
    (hR : ∀ s ∈ receipts, op.accepts c s = .ok () → s ∈ log) (f : Fault) :
    Verdict.fault f ∉ verdicts c op receipts := by
  have hd : ∀ s ∈ distinct c op receipts, s ∈ log := fun s hs =>
    hR s (mem_distinct hs).1 (mem_distinct hs).2
  intro hf
  simp only [verdicts, List.mem_append, List.mem_map, List.mem_filterMap] at hf
  rcases hf with ((⟨s, _, hs⟩ | ⟨g, hg, hs⟩) | ⟨s, hm, hs⟩) | ⟨⟨p, r⟩, hm, hs⟩
  · -- Attribution sets entries aside, it does not accuse.
    unfold checkBelongsHere at hs
    cases ha : op.accepts c s <;> simp [ha] at hs
  · -- A group holds one statement: its members share a position of the log.
    obtain ⟨a, t, rfl, ht, hsub⟩ := mem_runs hg
    have hlog : ∀ x ∈ a :: t, x ∈ log := fun x hx =>
      hR x (mem_attributable.mp (hsub x hx)).1 (mem_attributable.mp (hsub x hx)).2
    have hone : (a :: t).find? (fun s => s ≠ a) = none := by
      rw [List.find?_eq_none]
      intro x hx
      rcases List.mem_cons.mp hx with rfl | hx
      · simp
      · have := h.chain.eq_of_number_eq (hlog x (by simp [hx])) (hlog a (by simp)) (ht x hx)
        simp [this]
    simp only [statementVerdict, checkOneStatementPerSequence, List.head?_cons, Option.map_some,
      hone, Option.some.injEq] at hs
    cases hs
  · have hl := hd s (List.mem_of_mem_head? (Option.mem_toList.mp hm))
    unfold checkOrigin at hs
    split_ifs at hs with h0 h1
    exact h1 (h.origin hl (by simpa using h0))
  · obtain ⟨hp, hr, hsum⟩ := distinct_neighbours hm
    unfold checkLink at hs
    split_ifs at hs with h0 h1
    refine h1 (h.chain.link_of_succ (hd p hp) (hd r hr) ?_)
    rw [← hsum, not_ne_iff.mp h0]
    rfl

lemma HonestLog.position_distinct (h : HonestLog c op log)
    (hR : ∀ s ∈ receipts, op.accepts c s = .ok () → s ∈ log) (hall : ∀ s ∈ log, s ∈ receipts)
    {i : ℕ} {s : SignedReceipt} (hs : (distinct c op receipts)[i]? = some s) : position s = i := by
  have hrange : (distinct c op receipts).map position = List.range log.length := by
    apply eq_range_of_strict
    · exact List.pairwise_map.mpr (distinct_strict receipts)
    · intro k
      rw [List.mem_map]
      constructor
      · rintro ⟨a, ha, rfl⟩
        exact h.chain.number_lt (hR a (mem_distinct ha).1 (mem_distinct ha).2)
      · intro hk
        have hget : log[k]? = some log[k] := List.getElem?_eq_getElem hk
        have hm := List.mem_of_getElem? hget
        have hkey : ∃ a ∈ distinct c op receipts, position a = position log[k] :=
          exists_head_key (mem_attributable.mpr ⟨hall _ hm, h.accepted _ hm⟩)
        obtain ⟨a, ha, hka⟩ := hkey
        exact ⟨a, ha, hka.trans (h.chain.numbered k _ hget)⟩
  have hi : ((distinct c op receipts).map position)[i]? = some (position s) := by
    rw [List.getElem?_map, hs]
    rfl
  rw [hrange] at hi
  obtain ⟨_, hki⟩ := List.getElem?_eq_some_iff.mp hi
  simpa using hki.symm

theorem scanReceipts_honest (h : HonestLog c op log)
    (hR : ∀ s ∈ receipts, op.accepts c s = .ok () → s ∈ log) :
    (scanReceipts c op receipts).faults = [] ∧
      ((∀ s ∈ log, s ∈ receipts) → (∀ s ∈ receipts, op.accepts c s = .ok ()) →
        (scanReceipts c op receipts).isClean = true) := by
  have hfaults : (scanReceipts c op receipts).faults = [] := by
    rw [List.eq_nil_iff_forall_not_mem]
    intro f hf
    exact h.no_fault hR f (mem_faults.mp hf)
  refine ⟨hfaults, ?_⟩
  intro hall hacc
  have hund : (scanReceipts c op receipts).undetermined = [] := by
    rw [List.eq_nil_iff_forall_not_mem]
    intro u hu
    have hv := mem_undetermined.mp hu
    simp only [verdicts, List.mem_append, List.mem_map, List.mem_filterMap] at hv
    rcases hv with ((⟨s, hs, hv⟩ | ⟨g, hg, hv⟩) | ⟨s, hs, hv⟩) | ⟨⟨p, r⟩, hs, hv⟩
    · have hclean := checkBelongsHere_eq_clean.mpr (hacc s ((List.mem_mergeSort).mp hs))
      rw [hclean] at hv
      cases hv
    · obtain ⟨a, t, rfl, _, _⟩ := mem_runs hg
      simp only [statementVerdict, checkOneStatementPerSequence, List.head?_cons, Option.map_some,
        Option.some.injEq] at hv
      split at hv <;> cases hv
    · have hp : position s = 0 := h.position_distinct hR hall
        (by rw [← List.head?_eq_getElem?]; exact Option.mem_toList.mp hs)
      have h0 : s.receipt.seq = 0 := UInt64.toNat_inj.mp (by simpa [position] using hp)
      unfold checkOrigin at hv
      split_ifs at hv with h1 h2
      exact h1 h0
    · obtain ⟨i, hp, hr⟩ := mem_zip_tail hs
      have hpi := h.position_distinct hR hall hp
      have hri := h.position_distinct hR hall hr
      obtain ⟨_, _, hsum⟩ := distinct_neighbours hs
      unfold checkLink at hv
      split_ifs at hv with h1 h2
      refine h1 (UInt64.toNat_inj.mp ?_)
      rw [hsum, hpi, ← hri]
      rfl
  simp [Scan.isClean, hfaults, hund]

theorem scanReceipts_vectors :
    (scanReceipts Receipts.Vectors.crypto Vectors.operator
        (Receipts.Vectors.log.reverse ++ Receipts.Vectors.log)).isClean = true ∧
      (scanReceipts Receipts.Vectors.crypto Vectors.operator
        [⟨Receipts.Vectors.plainGenesis.receipt, Bytes.fill 64 1⟩,
          Receipts.Vectors.retractOfPlainGenesis, Receipts.Vectors.plainGenesis]).faults = [] := by
  constructor
  · exact (scanReceipts_honest Vectors.honestLog (by simp +contextual)).2 (by simp) (by decide +kernel)
  · exact (scanReceipts_honest Vectors.honestLog (by decide +kernel)).1

end Scan

section Assembled
variable {c : Crypto} {key : Bytes 32}

lemma HonestLog.logId_eq {op : Operator} {log : List SignedReceipt} (h : HonestLog c op log)
    {s : SignedReceipt} (hs : s ∈ log) : s.receipt.logId = op.logId :=
  (Operator.accepts_eq_ok.mp (h.accepted s hs)).1

lemma HonestRun.eq_of_logId_eq {runs : List (HonestRun c key)}
    (hid : (runs.map HonestRun.logId).Nodup) {r₁ r₂ : HonestRun c key} (h₁ : r₁ ∈ runs)
    (h₂ : r₂ ∈ runs) {a b : SignedReceipt} (ha : a ∈ r₁.log) (hb : b ∈ r₂.log)
    (he : a.receipt.logId = b.receipt.logId) : r₁ = r₂ := by
  -- Restarts never share a log id, so two receipts of one log id are of one run.
  refine List.inj_on_of_nodup_map hid h₁ h₂ ?_
  have h := he
  rwa [r₁.honest.logId_eq ha, r₂.honest.logId_eq hb] at h

/-- Neither an equivocation nor a broken chain can be put together out of the
receipts of honest runs, in any combination and under any claimed position. -/
theorem assembled_evidence_refused (runs : List (HonestRun c key))
    (hid : (runs.map HonestRun.logId).Nodup) (seq : UInt64) (a b : SignedReceipt)
    (hforge : ∀ s ∈ [a, b], s.verify c key = .ok () → ∃ run ∈ runs, s ∈ run.log) :
    (∃ e, (Fault.equivocation seq a b).verify c key = .error (.error e)) ∧
      ∃ e, (Fault.brokenChain seq a b).verify c key = .error (.error e) := by
  have hrefuse (f : Fault) (hok : f.verify c key ≠ .ok ())
      (hover : f.verify c key ≠ .error .overflow) : ∃ e, f.verify c key = .error (.error e) := by
    cases hf : f.verify c key with
    | ok u => exact absurd hf hok
    | error r => cases r with
      | error e => exact ⟨e, rfl⟩
      | overflow => exact absurd hf hover
  constructor
  · apply hrefuse
    · intro hok
      obtain ⟨ha, hb, hlog, hsa, hsb, hne⟩ := verify_equivocation.mp hok
      obtain ⟨r₁, h₁, har⟩ := hforge a (by simp) ha
      obtain ⟨r₂, h₂, hbr⟩ := hforge b (by simp) hb
      obtain rfl := HonestRun.eq_of_logId_eq hid h₁ h₂ har hbr hlog
      exact hne (r₁.honest.eq_of_seq_eq har hbr (hsa.trans hsb.symm))
    · intro hover
      obtain ⟨_, _, _, hf, _⟩ := verify_overflow hover
      cases hf
  · apply hrefuse
    · intro hok
      obtain ⟨ha, hb, hlog, hsa, hsb, hne⟩ := verify_brokenChain.mp hok
      obtain ⟨r₁, h₁, har⟩ := hforge a (by simp) ha
      obtain ⟨r₂, h₂, hbr⟩ := hforge b (by simp) hb
      obtain rfl := HonestRun.eq_of_logId_eq hid h₁ h₂ har hbr hlog
      exact hne (r₁.honest.chain.link_of_succ hbr har (by simp only [position, hsa, hsb]))
    · -- The position after the last receipt still fits, so no sum overflows.
      intro hover
      obtain ⟨_, _, _, hf, hp, hlast⟩ := verify_overflow hover
      cases hf
      obtain ⟨r, _, hbr⟩ := hforge b (by simp) hp
      have hlt := r.honest.chain.number_lt hbr
      have hnext := r.next.toNat_lt
      have hcount := r.counted
      simp only [position] at hlt
      omega

/-- The published log and the first receipt of a later run, as two runs of one key. -/
def Vectors.firstRun : HonestRun Receipts.Vectors.crypto Receipts.Vectors.operatorPubkey where
  logId := Receipts.Vectors.logId
  log := Receipts.Vectors.log
  next := 3
  honest := Vectors.honestLog
  counted := rfl

def Vectors.secondRun : HonestRun Receipts.Vectors.crypto Receipts.Vectors.operatorPubkey where
  logId := Receipts.Vectors.plainRestart.receipt.logId
  log := [Receipts.Vectors.plainRestart]
  next := 1
  honest := ⟨by decide +kernel, Linked.nil.concat rfl rfl⟩
  counted := rfl

theorem assembled_evidence_refused_across_runs :
    (∃ e, (Fault.equivocation 0 Receipts.Vectors.plainGenesis
        Receipts.Vectors.plainRestart).verify Receipts.Vectors.crypto
        Receipts.Vectors.operatorPubkey = .error (.error e)) ∧
      ∃ e, (Fault.brokenChain 0 Receipts.Vectors.plainGenesis
        Receipts.Vectors.plainRestart).verify Receipts.Vectors.crypto
        Receipts.Vectors.operatorPubkey = .error (.error e) := by
  refine assembled_evidence_refused [Vectors.firstRun, Vectors.secondRun] (by decide +kernel) 0
    Receipts.Vectors.plainGenesis Receipts.Vectors.plainRestart ?_
  intro s hs _
  rcases List.mem_cons.mp hs with rfl | hs
  · exact ⟨Vectors.firstRun, by simp, by decide +kernel⟩
  · obtain rfl := List.mem_singleton.mp hs
    exact ⟨Vectors.secondRun, by simp, by decide +kernel⟩

end Assembled

section Origin
variable {c : Crypto} {key : Bytes 32} {r : SignedReceipt}

lemma checkOrigin_eq_fault :
    checkOrigin r = .fault (.badOrigin r) ↔
      r.receipt.seq = 0 ∧ r.receipt.prevReceiptHash ≠ genesisPrevHash := by
  unfold checkOrigin
  split_ifs with h0 h1
  · simp [h0]
  · simpa [h1] using h0
  · simp only [false_iff, not_and]
    exact fun _ h => h1 h

/-- The standalone check of a bad origin asks less than the detector: away from
position zero it accepts every signed receipt, those of honest logs included. -/
theorem badOrigin_convicts_only_bad_origins :
    ((∀ logId log, HonestLog c ⟨key, logId⟩ log → r ∈ log →
          ∃ e, (Fault.badOrigin r).verify c key = .error e) ∧
        ((Fault.badOrigin r).verify c key = .ok () → r.verify c key = .ok () ∧
          r.receipt.seq = 0 ∧ r.receipt.prevReceiptHash ≠ genesisPrevHash) ∧
        ((Fault.badOrigin r).verify c key = .ok () ↔
          r.verify c key = .ok () ∧ checkOrigin r = .fault (.badOrigin r))) ↔
      r.receipt.seq = 0 ∨ r.verify c key ≠ .ok () := by
  rw [verify_badOrigin, checkOrigin_eq_fault]
  constructor
  · rintro ⟨_, honly, _⟩
    by_contra hcon
    obtain ⟨hseq, hsigned⟩ := not_or.mp hcon
    exact hseq (honly ⟨not_not.mp hsigned, fun h => hseq h.1⟩).2.1
  · intro hcond
    have honly : (r.verify c key = .ok () ∧
        ¬(r.receipt.seq = 0 ∧ r.receipt.prevReceiptHash = genesisPrevHash)) →
        r.verify c key = .ok () ∧ r.receipt.seq = 0 ∧
          r.receipt.prevReceiptHash ≠ genesisPrevHash := by
      rintro ⟨hsigned, hnot⟩
      have hseq := hcond.resolve_right (not_not.mpr hsigned)
      exact ⟨hsigned, hseq, fun h => hnot ⟨hseq, h⟩⟩
    refine ⟨?_, honly, honly, ?_⟩
    · intro logId log hlog hr
      cases hv : (Fault.badOrigin r).verify c key with
      | error e => exact ⟨e, rfl⟩
      | ok u =>
        obtain ⟨_, hseq, hne⟩ := honly (verify_badOrigin.mp hv)
        exact absurd (hlog.origin hr hseq) hne
    · rintro ⟨hsigned, _, hne⟩
      exact ⟨hsigned, fun h => hne h.2⟩

/-- The second receipt of the published log is honest, links to the first, and
still re-derives as a bad origin. -/
theorem badOrigin_convicts_honest_receipt :
    HonestLog Receipts.Vectors.crypto Vectors.operator Receipts.Vectors.log ∧
      Receipts.Vectors.commitChained ∈ Receipts.Vectors.log ∧
      (Fault.badOrigin Receipts.Vectors.commitChained).verify Receipts.Vectors.crypto
        Receipts.Vectors.operatorPubkey = .ok () ∧
      checkOrigin Receipts.Vectors.commitChained ≠
        .fault (.badOrigin Receipts.Vectors.commitChained) :=
  ⟨Vectors.honestLog, by simp [Receipts.Vectors.log], by decide +kernel, by decide +kernel⟩

end Origin

end Blitz.Watchtower
