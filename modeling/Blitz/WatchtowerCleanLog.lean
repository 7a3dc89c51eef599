import Blitz.WatchtowerHonestLog

/-! What a clean scan of the receipts certifies: the list is one hash-linked log
that counts up from zero, and its head fixes everything before it. -/
namespace Blitz.Watchtower
open LittleEndian Receipts SortedGroups HashChain

section Clean
variable {c : Crypto} {op : Operator} {receipts : List SignedReceipt}

lemma isClean_iff : (scanReceipts c op receipts).isClean = true ↔
    ∀ v ∈ verdicts c op receipts, v = .clean := by
  rw [Scan.isClean, Bool.and_eq_true, List.isEmpty_iff, List.isEmpty_iff,
    List.eq_nil_iff_forall_not_mem, List.eq_nil_iff_forall_not_mem]
  constructor
  · intro hclean v hv
    obtain ⟨hfaults, hundetermined⟩ := hclean
    cases v with
    | fault f => exact absurd (mem_faults.mpr hv) (hfaults f)
    | cannotDetermine u => exact absurd (mem_undetermined.mpr hv) (hundetermined u)
    | clean => rfl
  · intro h
    constructor
    · intro f hf
      cases h _ (mem_faults.mp hf)
    · intro u hu
      cases h _ (mem_undetermined.mp hu)

lemma checkOrigin_eq_clean {s : SignedReceipt} :
    checkOrigin s = .clean ↔ position s = 0 ∧ s.receipt.prevReceiptHash = genesisPrevHash := by
  have hzero : position s = 0 ↔ s.receipt.seq = 0 := by
    rw [position, ← UInt64.toNat_inj]
    rfl
  rw [hzero, checkOrigin]
  split_ifs with h0 h1
  · simp [h0]
  · simp [h1]
  · simpa using ⟨not_not.mp h0, not_not.mp h1⟩

lemma checkLink_eq_clean {p r : SignedReceipt} (h : checkLink c p r = .clean) :
    p.receipt.seq + 1 = r.receipt.seq ∧ r.receipt.prevReceiptHash = p.receiptHash c := by
  unfold checkLink at h
  split_ifs at h with h0 h1
  exact ⟨not_not.mp h0, not_not.mp h1⟩

lemma checkOneStatement_eq_clean {seq : UInt64} {first : SignedReceipt}
    {group : List SignedReceipt} (h : checkOneStatementPerSequence seq first group = .clean)
    {s : SignedReceipt} (hs : s ∈ group) : s = first := by
  unfold checkOneStatementPerSequence at h
  split at h
  · cases h
  · next hnone =>
    have := List.find?_eq_none.mp hnone s hs
    simpa using this

section Verdicts
variable (h : ∀ v ∈ verdicts c op receipts, v = Verdict.clean)
include h

lemma accepts_of_clean {s : SignedReceipt} (hs : s ∈ receipts) : op.accepts c s = .ok () := by
  apply checkBelongsHere_eq_clean.mp
  apply h
  simp only [verdicts, List.mem_append, List.mem_map]
  exact .inl (.inl (.inl ⟨s, List.mem_mergeSort.mpr hs, rfl⟩))

lemma mem_distinct_of_clean {s : SignedReceipt} : s ∈ distinct c op receipts ↔ s ∈ receipts := by
  -- Every group holds one statement, so the representatives are all there is.
  constructor
  · exact fun hs => (mem_distinct hs).1
  · intro hs
    obtain ⟨g, hg, hsg⟩ : ∃ g ∈ runs position (attributable c op receipts), s ∈ g :=
      exists_run_mem (mem_attributable.mpr ⟨hs, accepts_of_clean h hs⟩)
    obtain ⟨first, rest, rfl, _, _⟩ := mem_runs hg
    have hone : checkOneStatementPerSequence first.receipt.seq first (first :: rest) = .clean := by
      apply h
      simp only [verdicts, List.mem_append, List.mem_filterMap]
      exact .inl (.inl (.inr ⟨_, hg, rfl⟩))
    rw [checkOneStatement_eq_clean hone hsg]
    exact List.mem_filterMap.mpr ⟨_, hg, rfl⟩

lemma origin_of_clean {s : SignedReceipt} (hs : (distinct c op receipts)[0]? = some s) :
    position s = 0 ∧ s.receipt.prevReceiptHash = genesisPrevHash := by
  apply checkOrigin_eq_clean.mp
  apply h
  simp only [verdicts, List.mem_append, List.mem_map]
  exact .inl (.inr ⟨s, by rw [List.head?_eq_getElem?, hs]; simp, rfl⟩)

lemma link_of_clean {p r : SignedReceipt} {i : ℕ} (hp : (distinct c op receipts)[i]? = some p)
    (hr : (distinct c op receipts)[i + 1]? = some r) :
    position r = position p + 1 ∧ r.receipt.prevReceiptHash = p.receiptHash c := by
  have hmem := mem_zip_tail_of_getElem? hp hr
  have hclean : checkLink c p r = .clean := by
    apply h
    simp only [verdicts, List.mem_append, List.mem_map]
    exact .inr ⟨_, hmem, rfl⟩
  obtain ⟨hseq, hlink⟩ := checkLink_eq_clean hclean
  obtain ⟨_, _, hsum⟩ := distinct_neighbours hmem
  refine ⟨?_, hlink⟩
  rw [← hsum, hseq, position]

lemma position_of_clean {i : ℕ} {s : SignedReceipt}
    (hs : (distinct c op receipts)[i]? = some s) : position s = i := by
  induction i generalizing s with
  | zero => exact (origin_of_clean h hs).1
  | succ i ih =>
    have hlt := (List.getElem?_eq_some_iff.mp hs).1
    have hp := List.getElem?_eq_getElem (l := distinct c op receipts) (i := i) (by omega)
    rw [(link_of_clean h hp hs).1, ih hp]

lemma honestLog_of_clean : HonestLog c op (distinct c op receipts) where
  accepted _ hs := (mem_distinct hs).2
  chain :=
    { numbered := fun _ _ hs => position_of_clean h hs
      rooted := fun _ hs => (origin_of_clean h hs).2
      linked := fun _ _ _ hp hr => (link_of_clean h hp hr).2 }

end Verdicts

theorem isClean_iff_honestLog :
    (scanReceipts c op receipts).isClean = true ↔
      ∃ log, HonestLog c op log ∧ ∀ s, s ∈ receipts ↔ s ∈ log := by
  constructor
  · intro h
    exact ⟨_, honestLog_of_clean (isClean_iff.mp h),
      fun s => (mem_distinct_of_clean (isClean_iff.mp h)).symm⟩
  · intro hexists
    obtain ⟨log, hlog, hmem⟩ := hexists
    refine (scanReceipts_honest hlog ?_).2 ?_ ?_
    · exact fun s hs _ => (hmem s).mp hs
    · exact fun s hs => (hmem s).mpr hs
    · exact fun s hs => hlog.accepted s ((hmem s).mp hs)

end Clean

section Head
variable {c : Crypto} {op : Operator} {A B : List SignedReceipt}

lemma eq_of_toBytes_eq {a b : SignedReceipt} (ha : op.accepts c a = .ok ())
    (hb : op.accepts c b = .ok ()) (h : a.toBytes = b.toBytes) : a = b := by
  have hva := (SignedReceipt.verify_eq_ok.mp (Operator.accepts_eq_ok.mp ha).2).1
  have hvb := (SignedReceipt.verify_eq_ok.mp (Operator.accepts_eq_ok.mp hb).2).1
  have hread := a.fromBytes_toBytes
  rw [h, b.fromBytes_toBytes, hva, hvb] at hread
  exact (Except.ok.inj hread).symm

/-- A clean log's head binds its whole history. -/
theorem clean_head_binds_history (hA : (scanReceipts c op A).isClean = true)
    (hB : (scanReceipts c op B).isClean = true)
    (hsha : ∀ a ∈ A, ∀ b ∈ B, c.sha256 a.toBytes = c.sha256 b.toBytes → a.toBytes = b.toBytes)
    {n : UInt64} {s : SignedReceipt} (hsA : s ∈ A) (hsB : s ∈ B) (hn : s.receipt.seq = n)
    {i : UInt64} (hi : i ≤ n) :
    ∃ r, ∀ x : SignedReceipt, (x ∈ A ∧ x.receipt.seq = i ↔ x = r) ∧
      (x ∈ B ∧ x.receipt.seq = i ↔ x = r) := by
  obtain ⟨logA, honA, hmemA⟩ := isClean_iff_honestLog.mp hA
  obtain ⟨logB, honB, hmemB⟩ := isClean_iff_honestLog.mp hB
  have hdigest : ∀ a ∈ logA, ∀ b ∈ logB, a.receiptHash c = b.receiptHash c → a = b := by
    intro a ha b hb he
    refine eq_of_toBytes_eq (honA.accepted a ha) (honB.accepted b hb) ?_
    apply hsha a ((hmemA a).mpr ha) b ((hmemB b).mpr hb)
    rw [a.toBytes_eq, b.toBytes_eq]
    exact he
  have hgetA := honA.chain.getElem?_number ((hmemA s).mp hsA)
  have hgetB := honB.chain.getElem?_number ((hmemB s).mp hsB)
  have hle : i.toNat ≤ position s := by
    rw [position, hn]
    exact UInt64.le_iff_toNat_le.mp hi
  have hagree := honA.chain.agree_below honB.chain hdigest hgetA hgetB hle
  -- The entry exists because the log is at least as long as its head's number.
  have hlt : i.toNat < logA.length :=
    lt_of_le_of_lt hle (honA.chain.number_lt ((hmemA s).mp hsA))
  have hr : logA[i.toNat]? = some logA[i.toNat] := List.getElem?_eq_getElem hlt
  have hunique {log : List SignedReceipt} (hon : HonestLog c op log) {r : SignedReceipt}
      (hr : log[i.toNat]? = some r) (x : SignedReceipt) :
      x ∈ log ∧ x.receipt.seq = i ↔ x = r := by
    constructor
    · intro hlisted
      obtain ⟨hx, hxi⟩ := hlisted
      have hget := hon.chain.getElem?_number hx
      rw [position, hxi, hr] at hget
      exact (Option.some.inj hget).symm
    · intro hx
      subst hx
      exact ⟨List.mem_of_getElem? hr, UInt64.toNat_inj.mp (hon.chain.numbered _ _ hr)⟩
  refine ⟨logA[i.toNat], ?_⟩
  intro x
  rw [hmemA, hmemB]
  exact ⟨hunique honA hr x, hunique honB (hagree ▸ hr) x⟩

end Head

theorem clean_head_binds_history_vectors :
    ∃ r, ∀ x : SignedReceipt,
      (x ∈ Receipts.Vectors.log ∧ x.receipt.seq = 1 ↔ x = r) ∧
        (x ∈ Receipts.Vectors.retractOfPlainGenesis :: Receipts.Vectors.log.reverse ∧
          x.receipt.seq = 1 ↔ x = r) := by
  have hclean (receipts : List SignedReceipt) (h : ∀ s, s ∈ receipts ↔ s ∈ Receipts.Vectors.log) :
      (scanReceipts Receipts.Vectors.crypto Vectors.operator receipts).isClean = true :=
    isClean_iff_honestLog.mpr ⟨_, Vectors.honestLog, h⟩
  refine clean_head_binds_history (hclean _ fun s => Iff.rfl) (hclean _ ?_) ?_
    (s := Receipts.Vectors.retractOfPlainGenesis) (n := 2) ?_ ?_ ?_ ?_
  · intro s
    simp [Receipts.Vectors.log]
    tauto
  · decide +kernel
  · simp [Receipts.Vectors.log]
  · simp
  · decide
  · decide

end Blitz.Watchtower
