import Blitz.WatchtowerFaultKinds

/-! What a scan of the log finds is what is there: each contradiction once, and, where
there is none, each broken link, bad origin, gap and missing origin. -/
namespace Blitz.Watchtower
open LittleEndian Receipts SortedGroups LatestIndex

/-- Two different statements for one position. -/
def Contradicted (receipts : List SignedReceipt) (seq : UInt64) : Prop :=
  ∃ a ∈ receipts, ∃ b ∈ receipts, a.receipt.seq = seq ∧ b.receipt.seq = seq ∧ a ≠ b

instance (receipts : List SignedReceipt) (seq : UInt64) : Decidable (Contradicted receipts seq) :=
  inferInstanceAs (Decidable (∃ a ∈ receipts, ∃ b ∈ receipts, _))

def Occupied (receipts : List SignedReceipt) (seq : UInt64) : Prop :=
  ∃ a ∈ receipts, a.receipt.seq = seq

instance (receipts : List SignedReceipt) (seq : UInt64) : Decidable (Occupied receipts seq) :=
  inferInstanceAs (Decidable (∃ a ∈ receipts, _))

/-- A statement that does not link to the one before it. -/
def Unlinked (c : Crypto) (receipts : List SignedReceipt) (seq : UInt64) : Prop :=
  ∃ a ∈ receipts, ∃ b ∈ receipts, a.receipt.seq.toNat + 1 = seq.toNat ∧ b.receipt.seq = seq ∧
    b.receipt.prevReceiptHash ≠ a.receiptHash c

instance (c : Crypto) (receipts : List SignedReceipt) (seq : UInt64) :
    Decidable (Unlinked c receipts seq) :=
  inferInstanceAs (Decidable (∃ a ∈ receipts, ∃ b ∈ receipts, _))

/-- Two positions that follow each other in the list with others missing between. -/
def Gap (receipts : List SignedReceipt) (after before : UInt64) : Prop :=
  Occupied receipts after ∧ Occupied receipts before ∧ after.toNat + 1 < before.toNat ∧
    ∀ r ∈ receipts, ¬(after < r.receipt.seq ∧ r.receipt.seq < before)

instance (receipts : List SignedReceipt) (after before : UInt64) :
    Decidable (Gap receipts after before) :=
  inferInstanceAs (Decidable (_ ∧ _ ∧ _ ∧ ∀ r ∈ receipts, _))

section Scan
variable {c : Crypto} {op : Operator} {receipts : List SignedReceipt}

lemma statementVerdict_accusation {g : List SignedReceipt} {f : Fault}
    (h : (statementVerdict g).bind Verdict.accusation = some f) :
    f.kind = .equivocation ∧ ∃ a ∈ g, f.seq = a.receipt.seq := by
  obtain ⟨v, hv, hf⟩ := Option.bind_eq_some_iff.mp h
  obtain rfl := Verdict.accusation_eq_some.mp hf
  obtain ⟨a, t, b, rfl, _, rfl⟩ := statementVerdict_eq_fault.mp hv
  exact ⟨rfl, a, List.mem_cons_self, rfl⟩

lemma checkOrigin_accusation {a : SignedReceipt} {f : Fault}
    (h : (checkOrigin a).accusation = some f) : f.kind = .badOrigin := by
  obtain ⟨_, _, rfl⟩ := checkOrigin_eq_fault_iff.mp (Verdict.accusation_eq_some.mp h)
  rfl

lemma checkLink_accusation {a b : SignedReceipt} {f : Fault}
    (h : (checkLink c a b).accusation = some f) :
    f.kind = .brokenChain ∧ f.seq = b.receipt.seq := by
  obtain ⟨_, _, rfl⟩ := checkLink_eq_fault.mp (Verdict.accusation_eq_some.mp h)
  exact ⟨rfl, rfl⟩

lemma seq_ne_of_position_lt {a b : SignedReceipt} (h : position a < position b) :
    a.receipt.seq ≠ b.receipt.seq := by
  intro he
  rw [position, position, he] at h
  exact lt_irrefl _ h

theorem kind_seq_nodup :
    ((scanReceipts c op receipts).faults.map fun f => (f.kind, f.seq)).Nodup := by
  have hkind {f g : Fault} (h : f.kind ≠ g.kind) : (f.kind, f.seq) ≠ (g.kind, g.seq) := by
    intro he
    exact h (Prod.mk.inj he).1
  have hseq {f g : Fault} (h : f.seq ≠ g.seq) : (f.kind, f.seq) ≠ (g.kind, g.seq) := by
    intro he
    exact h (Prod.mk.inj he).2
  rw [List.Nodup, List.pairwise_map, faults_eq, List.filterMap_append, List.filterMap_append,
    List.filterMap_filterMap, List.filterMap_map, List.filterMap_map, List.pairwise_append,
    List.pairwise_append]
  refine ⟨⟨?_, ?_, ?_⟩, ?_, ?_⟩
  · -- Two runs have different positions.
    apply List.pairwise_filterMap.mpr
    apply (runs_strict (attributable_sorted receipts)).imp
    intro g h hgh f hf f' hf'
    obtain ⟨_, a, ha, hfa⟩ := statementVerdict_accusation hf
    obtain ⟨_, b, hb, hfb⟩ := statementVerdict_accusation hf'
    apply hseq
    rw [hfa, hfb]
    exact seq_ne_of_position_lt (hgh a ha b hb)
  · cases (distinct c op receipts).head? with
    | none => simp
    | some a => exact List.pairwise_filterMap.mpr (by simp)
  · intro f hf f' hf'
    obtain ⟨g, _, hg⟩ := List.mem_filterMap.mp hf
    obtain ⟨a, _, ha⟩ := List.mem_filterMap.mp hf'
    apply hkind
    rw [(statementVerdict_accusation hg).1, checkOrigin_accusation ha]
    decide
  · -- Two pairs of neighbours end at different positions.
    apply List.pairwise_filterMap.mpr
    apply (zip_tail_strict (distinct_strict receipts)).imp
    intro p q hpq f hf f' hf'
    apply hseq
    rw [(checkLink_accusation hf).2, (checkLink_accusation hf').2]
    exact seq_ne_of_position_lt hpq
  · intro f hf f' hf'
    obtain ⟨p, _, hp⟩ := List.mem_filterMap.mp hf'
    apply hkind
    rw [(checkLink_accusation hp).1]
    rcases List.mem_append.mp hf with hf | hf
    · obtain ⟨g, _, hg⟩ := List.mem_filterMap.mp hf
      rw [(statementVerdict_accusation hg).1]
      decide
    · obtain ⟨a, _, ha⟩ := List.mem_filterMap.mp hf
      rw [checkOrigin_accusation ha]
      decide

lemma count_kind_seq (kind : FaultKind) (seq : UInt64) {p : Prop} [Decidable p]
    (hp : (kind, seq) ∈ logFaults c op receipts ↔ p) :
    ((scanReceipts c op receipts).faults.map fun f => (f.kind, f.seq)).count (kind, seq) =
      if p then 1 else 0 := by
  rw [kind_seq_nodup.count]
  refine if_congr ?_ rfl rfl
  rw [← hp, List.mem_map]
  rfl

lemma checkLink_reason {a b : SignedReceipt} {reason : Undetermined} :
    (checkLink c a b).reason = some reason ↔
      a.receipt.seq + 1 ≠ b.receipt.seq ∧ reason = .sequenceGap a.receipt.seq b.receipt.seq := by
  unfold checkLink
  split_ifs with hnext hlink <;> simp_all [Verdict.reason, eq_comm]

lemma checkOrigin_reason {a : SignedReceipt} {reason : Undetermined} :
    (checkOrigin a).reason = some reason ↔
      a.receipt.seq ≠ 0 ∧ reason = .missingOrigin a.receipt.seq := by
  unfold checkOrigin
  split_ifs with hzero hprev <;> simp_all [Verdict.reason, eq_comm]

lemma checkBelongsHere_reason {s : SignedReceipt} {reason : Undetermined}
    (h : (checkBelongsHere c op s).reason = some reason) :
    reason = .foreignLog s.receipt.seq ∨ reason = .unverifiableReceipt s.receipt.seq := by
  unfold checkBelongsHere at h
  cases ha : op.accepts c s with
  | ok u => simp [ha, Verdict.reason] at h
  | error e =>
    simp only [ha, Verdict.reason, Option.some.injEq] at h
    cases e with
    | foreignLog => exact .inl h.symm
    | unverifiable => exact .inr h.symm

lemma statementVerdict_reason (g : List SignedReceipt) :
    (statementVerdict g).bind Verdict.reason = none := by
  cases g with
  | nil => rfl
  | cons a t =>
    simp only [statementVerdict, List.head?_cons, Option.map_some, Option.bind_some,
      checkOneStatementPerSequence]
    split <;> rfl

lemma undetermined_eq :
    (scanReceipts c op receipts).undetermined =
      ((ordered receipts).map (checkBelongsHere c op)).filterMap Verdict.reason ++
        ((distinct c op receipts).head?.toList.map checkOrigin).filterMap Verdict.reason ++
        (((distinct c op receipts).zip (distinct c op receipts).tail).map
          fun pair => checkLink c pair.1 pair.2).filterMap Verdict.reason := by
  have hnone : ((runs position (attributable c op receipts)).filterMap
      statementVerdict).filterMap Verdict.reason = [] := by
    rw [List.filterMap_filterMap, List.filterMap_eq_nil_iff]
    intro g _
    exact statementVerdict_reason g
  rw [scanReceipts_eq, Scan.undetermined_recordAll, verdicts]
  simp only [List.filterMap_append, hnone, List.nil_append, List.append_nil]

lemma exists_distinct {seq : UInt64} :
    Occupied (accepted c op receipts) seq ↔ ∃ a ∈ distinct c op receipts, a.receipt.seq = seq := by
  constructor
  · rintro ⟨a, ha, rfl⟩
    obtain ⟨hm, haccept⟩ := mem_accepted.mp ha
    obtain ⟨b, hb, hk⟩ := (exists_head_key (mem_attributable.mpr ⟨hm, haccept⟩) :
      ∃ b ∈ heads position (attributable c op receipts), position b = position a)
    exact ⟨b, hb, (position_eq_iff b a).mp hk⟩
  · rintro ⟨a, ha, rfl⟩
    exact ⟨a, mem_accepted.mpr (mem_distinct ha), rfl⟩

lemma exists_link_iff_gap {after before : UInt64} :
    (∃ p ∈ (distinct c op receipts).zip (distinct c op receipts).tail,
      (checkLink c p.1 p.2).reason = some (.sequenceGap after before)) ↔
      Gap (accepted c op receipts) after before := by
  constructor
  · rintro ⟨⟨a, b⟩, hab, hreason⟩
    obtain ⟨hnext, hgap⟩ := checkLink_reason.mp hreason
    obtain ⟨rfl, rfl⟩ := Undetermined.sequenceGap.inj hgap
    obtain ⟨_, _, hsum⟩ := distinct_neighbours hab
    obtain ⟨ha, hb, hlt, hnone⟩ := (mem_zip_tail_iff (distinct_strict receipts)).mp hab
    refine ⟨exists_distinct.mpr ⟨a, ha, rfl⟩, exists_distinct.mpr ⟨b, hb, rfl⟩, ?_, ?_⟩
    · have hne : position a + 1 ≠ position b := by
        intro he
        exact hnext (UInt64.toNat_inj.mp (hsum.trans he))
      change position a + 1 < position b
      omega
    · intro r hr hbetween
      obtain ⟨s, hs, hseq⟩ := exists_distinct.mp ⟨r, hr, rfl⟩
      apply hnone s hs
      rw [position, position, position, hseq, ← UInt64.lt_iff_toNat_lt, ← UInt64.lt_iff_toNat_lt]
      exact hbetween
  · rintro ⟨hafter, hbefore, hlt, hnone⟩
    obtain ⟨a, ha, rfl⟩ := exists_distinct.mp hafter
    obtain ⟨b, hb, rfl⟩ := exists_distinct.mp hbefore
    have hab : (a, b) ∈ (distinct c op receipts).zip (distinct c op receipts).tail := by
      rw [mem_zip_tail_iff (distinct_strict receipts)]
      refine ⟨ha, hb, by simp only [position]; omega, ?_⟩
      intro x hx hbetween
      simp only [position, ← UInt64.lt_iff_toNat_lt] at hbetween
      exact hnone x (mem_accepted.mpr (mem_distinct hx)) hbetween
    obtain ⟨_, _, hsum⟩ := distinct_neighbours hab
    refine ⟨(a, b), hab, checkLink_reason.mpr ⟨?_, rfl⟩⟩
    intro hnext
    have hsucc : position a + 1 = position b := hsum.symm.trans (congrArg UInt64.toNat hnext)
    simp only [position] at hsucc
    omega

lemma count_sequenceGap (after before : UInt64) :
    (scanReceipts c op receipts).undetermined.count (.sequenceGap after before) =
      if Gap (accepted c op receipts) after before then 1 else 0 := by
  have hattributed : (((ordered receipts).map (checkBelongsHere c op)).filterMap
      Verdict.reason).count (.sequenceGap after before) = 0 := by
    rw [List.count_eq_zero, List.filterMap_map, List.mem_filterMap]
    rintro ⟨s, _, hs⟩
    rcases checkBelongsHere_reason hs with h | h <;> cases h
  have horigin : (((distinct c op receipts).head?.toList.map checkOrigin).filterMap
      Verdict.reason).count (.sequenceGap after before) = 0 := by
    rw [List.count_eq_zero, List.filterMap_map, List.mem_filterMap]
    rintro ⟨s, _, hs⟩
    cases (checkOrigin_reason.mp hs).2
  have hlinks : ((((distinct c op receipts).zip (distinct c op receipts).tail).map
      fun pair => checkLink c pair.1 pair.2).filterMap Verdict.reason).Nodup := by
    rw [List.Nodup, List.filterMap_map]
    apply List.pairwise_filterMap.mpr
    apply (zip_tail_strict (distinct_strict receipts)).imp
    rintro p q hpq u hu v hv rfl
    have hsame := (checkLink_reason.mp hu).2.symm.trans (checkLink_reason.mp hv).2
    exact seq_ne_of_position_lt hpq (Undetermined.sequenceGap.inj hsame).2
  rw [undetermined_eq, List.count_append, List.count_append, hattributed, horigin, hlinks.count,
    Nat.zero_add]
  refine if_congr ?_ rfl rfl
  rw [List.filterMap_map, List.mem_filterMap, ← exists_link_iff_gap]
  rfl

lemma missingOrigin_iff :
    (∃ lowest, .missingOrigin lowest ∈ (scanReceipts c op receipts).undetermined) ↔
      accepted c op receipts ≠ [] ∧ ¬Occupied (accepted c op receipts) 0 := by
  have hmem (lowest : UInt64) :
      .missingOrigin lowest ∈ (scanReceipts c op receipts).undetermined ↔
        ∃ a, (distinct c op receipts).head? = some a ∧ a.receipt.seq ≠ 0 ∧
          lowest = a.receipt.seq := by
    rw [undetermined_eq, List.mem_append, List.mem_append, List.filterMap_map, List.filterMap_map,
      List.filterMap_map, List.mem_filterMap, List.mem_filterMap, List.mem_filterMap]
    constructor
    · rintro ((⟨s, _, hs⟩ | ⟨s, hs, hreason⟩) | ⟨p, _, hp⟩)
      · rcases checkBelongsHere_reason hs with h | h <;> cases h
      · obtain ⟨hzero, h⟩ := checkOrigin_reason.mp hreason
        exact ⟨s, Option.mem_toList.mp hs, hzero, Undetermined.missingOrigin.inj h⟩
      · cases (checkLink_reason.mp hp).2
    · rintro ⟨a, ha, hzero, rfl⟩
      exact .inl (.inr ⟨a, Option.mem_toList.mpr ha, checkOrigin_reason.mpr ⟨hzero, rfl⟩⟩)
  simp only [hmem]
  constructor
  · rintro ⟨lowest, a, ha, hzero, -⟩
    have hmem := mem_accepted.mpr (mem_distinct (List.mem_of_mem_head? ha))
    refine ⟨List.ne_nil_of_mem hmem, ?_⟩
    intro hocc
    obtain ⟨b, hb, hb0⟩ := exists_distinct.mp hocc
    have hhead := head?_of_key_eq_zero (distinct_strict receipts) hb (by simp [position, hb0])
    rw [ha] at hhead
    obtain rfl := Option.some.inj hhead
    exact hzero hb0
  · rintro ⟨hne, hfree⟩
    obtain ⟨s, hs⟩ := List.exists_mem_of_ne_nil _ hne
    obtain ⟨b, hb, _⟩ := exists_distinct.mp ⟨s, hs, rfl⟩
    obtain ⟨a, ha⟩ := Option.isSome_iff_exists.mp
      (List.isSome_head?.mpr (List.ne_nil_of_mem hb))
    refine ⟨a.receipt.seq, a, ha, ?_, rfl⟩
    intro hzero
    exact hfree (exists_distinct.mpr ⟨a, List.mem_of_mem_head? ha, hzero⟩)

lemma representative_of_uncontradicted (hone : ∀ seq, ¬Contradicted (accepted c op receipts) seq)
    {a : SignedReceipt} (ha : a ∈ accepted c op receipts) :
    representative c op receipts a.receipt.seq = some a := by
  obtain ⟨hm, haccept⟩ := mem_accepted.mp ha
  obtain ⟨b, hb⟩ := exists_representative hm haccept
  obtain ⟨hbm, hbaccept, hseq⟩ := representative_eq_some hb
  rw [hb]
  congr 1
  by_contra hne
  exact hone a.receipt.seq ⟨b, mem_accepted.mpr ⟨hbm, hbaccept⟩, a, ha, hseq, rfl, hne⟩

lemma mem_accepted_of_representative {seq : UInt64} {a : SignedReceipt}
    (h : representative c op receipts seq = some a) :
    a ∈ accepted c op receipts ∧ a.receipt.seq = seq := by
  obtain ⟨hm, haccept, hseq⟩ := representative_eq_some h
  exact ⟨mem_accepted.mpr ⟨hm, haccept⟩, hseq⟩

lemma equivocation_iff_contradicted (seq : UInt64) :
    (FaultKind.equivocation, seq) ∈ logFaults c op receipts ↔
      Contradicted (accepted c op receipts) seq := by
  rw [equivocation_mem_logFaults]
  constructor
  · rintro ⟨a, ha, b, hb, haccept, hbccept, hsa, hsb, hne⟩
    exact ⟨a, mem_accepted.mpr ⟨ha, haccept⟩, b, mem_accepted.mpr ⟨hb, hbccept⟩, hsa, hsb, hne⟩
  · rintro ⟨a, ha, b, hb, hsa, hsb, hne⟩
    obtain ⟨ha, haccept⟩ := mem_accepted.mp ha
    obtain ⟨hb, hbccept⟩ := mem_accepted.mp hb
    exact ⟨a, ha, b, hb, haccept, hbccept, hsa, hsb, hne⟩

lemma brokenChain_iff_unlinked (hone : ∀ seq, ¬Contradicted (accepted c op receipts) seq)
    (seq : UInt64) :
    (FaultKind.brokenChain, seq) ∈ logFaults c op receipts ↔
      Unlinked c (accepted c op receipts) seq := by
  rw [brokenChain_mem_logFaults]
  constructor
  · rintro ⟨a, b, ha, hb, hnext, hprev⟩
    obtain ⟨hb, hseq⟩ := mem_accepted_of_representative hb
    exact ⟨a, (mem_accepted_of_representative ha).1, b, hb, hnext, hseq, hprev⟩
  · rintro ⟨a, ha, b, hb, hnext, rfl, hprev⟩
    exact ⟨a, b, representative_of_uncontradicted hone ha, representative_of_uncontradicted hone hb,
      hnext, hprev⟩

lemma badOrigin_iff (hone : ∀ seq, ¬Contradicted (accepted c op receipts) seq) (seq : UInt64) :
    (FaultKind.badOrigin, seq) ∈ logFaults c op receipts ↔
      seq = 0 ∧ ∃ a ∈ accepted c op receipts, a.receipt.seq = 0 ∧
        a.receipt.prevReceiptHash ≠ genesisPrevHash := by
  rw [badOrigin_mem_logFaults]
  constructor
  · rintro ⟨a, ha, rfl, hprev⟩
    obtain ⟨ha, hseq⟩ := mem_accepted_of_representative ha
    exact ⟨rfl, a, ha, hseq, hprev⟩
  · rintro ⟨rfl, a, ha, hseq, hprev⟩
    have hrep := representative_of_uncontradicted hone ha
    rw [hseq] at hrep
    exact ⟨a, hrep, rfl, hprev⟩

variable (c op receipts) in
/-- The scan finds what is there and nothing else. Each finding is one entry of the
report: an equivocation for every contradicted position and, as long as there is none, a
broken link, a bad origin, a gap and a missing origin wherever the accepted receipts show
one. -/
theorem scanReceipts_exact :
    (∀ seq, ((scanReceipts c op receipts).faults.map fun f => (f.kind, f.seq)).count
        (.equivocation, seq) = if Contradicted (accepted c op receipts) seq then 1 else 0) ∧
      ((∀ seq, ¬Contradicted (accepted c op receipts) seq) →
        (∀ seq, ((scanReceipts c op receipts).faults.map fun f => (f.kind, f.seq)).count
          (.brokenChain, seq) = if Unlinked c (accepted c op receipts) seq then 1 else 0) ∧
        (∀ seq, ((scanReceipts c op receipts).faults.map fun f => (f.kind, f.seq)).count
          (.badOrigin, seq) = if seq = 0 ∧ ∃ a ∈ accepted c op receipts, a.receipt.seq = 0 ∧
            a.receipt.prevReceiptHash ≠ genesisPrevHash then 1 else 0) ∧
        (∀ after before,
          (scanReceipts c op receipts).undetermined.count (.sequenceGap after before) =
            if Gap (accepted c op receipts) after before then 1 else 0) ∧
        ((∃ lowest, .missingOrigin lowest ∈ (scanReceipts c op receipts).undetermined) ↔
          accepted c op receipts ≠ [] ∧ ¬Occupied (accepted c op receipts) 0)) := by
  constructor
  · intro seq
    exact count_kind_seq .equivocation seq (equivocation_iff_contradicted seq)
  · intro hone
    refine ⟨?_, ?_, count_sequenceGap, missingOrigin_iff⟩
    · intro seq
      exact count_kind_seq .brokenChain seq (brokenChain_iff_unlinked hone seq)
    · intro seq
      exact count_kind_seq .badOrigin seq (badOrigin_iff hone seq)

end Scan

theorem scanReceipts_exact_published :
    (scanReceipts Receipts.Vectors.crypto Vectors.operator
      [Receipts.Vectors.retractOfPlainGenesis, Receipts.Vectors.plainGenesis]).undetermined.count
        (.sequenceGap 0 2) = 1 := by
  have hevaluates : (∀ a ∈ accepted Receipts.Vectors.crypto Vectors.operator
        [Receipts.Vectors.retractOfPlainGenesis, Receipts.Vectors.plainGenesis],
      ∀ b ∈ accepted Receipts.Vectors.crypto Vectors.operator
        [Receipts.Vectors.retractOfPlainGenesis, Receipts.Vectors.plainGenesis],
      a.receipt.seq = b.receipt.seq → a = b) ∧
      Gap (accepted Receipts.Vectors.crypto Vectors.operator
        [Receipts.Vectors.retractOfPlainGenesis, Receipts.Vectors.plainGenesis]) 0 2 := by
    decide +kernel
  have hone : ∀ seq, ¬Contradicted (accepted Receipts.Vectors.crypto Vectors.operator
      [Receipts.Vectors.retractOfPlainGenesis, Receipts.Vectors.plainGenesis]) seq := by
    rintro seq ⟨a, ha, b, hb, hsa, hsb, hne⟩
    exact hne (hevaluates.1 a ha b hb (hsa.trans hsb.symm))
  rw [((scanReceipts_exact Receipts.Vectors.crypto Vectors.operator _).2 hone).2.2.1 0 2,
    if_pos hevaluates.2]

end Blitz.Watchtower
