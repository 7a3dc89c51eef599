import Blitz.WatchtowerStrangers

/-! What a scan says about a log or a block, by kind and by position, and which statements
of the log decide it. -/
namespace Blitz.Watchtower
open LittleEndian Receipts SortedGroups LatestIndex

inductive FaultKind
  | equivocation | brokenChain | badOrigin | unticketed | withheld | withdrawnButExecuted
  | absent | notRevealed | impossibleIngress | reorder
  deriving DecidableEq, Repr

def Fault.kind : Fault → FaultKind
  | .equivocation .. => .equivocation
  | .brokenChain .. => .brokenChain
  | .badOrigin .. => .badOrigin
  | .unticketed .. => .unticketed
  | .withheld .. => .withheld
  | .withdrawnButExecuted .. => .withdrawnButExecuted
  | .absent .. => .absent
  | .notRevealed .. => .notRevealed
  | .impossibleIngress .. => .impossibleIngress
  | .reorder .. => .reorder

/-- An unticketed transaction has no position to name. -/
def Fault.seq : Fault → UInt64
  | .equivocation seq _ _ => seq
  | .brokenChain seq _ _ => seq
  | .badOrigin receipt => receipt.receipt.seq
  | .unticketed _ _ _ _ => 2 ^ 64 - 1
  | .withheld receipt _ _ => receipt.receipt.seq
  | .withdrawnButExecuted receipt _ _ _ _ _ => receipt.receipt.seq
  | .absent receipt _ _ => receipt.receipt.seq
  | .notRevealed receipt _ _ => receipt.receipt.seq
  | .impossibleIngress receipt _ _ => receipt.receipt.seq
  | .reorder _ _ _ _ jumped _ => jumped.receipt.receipt.seq

/-- The transactions a block's fault is about, by their places in the executed
order. -/
def Fault.places : Fault → List UInt32
  | .unticketed _ index _ _ => [index]
  | .withdrawnButExecuted _ _ execution _ _ _ => [execution.index]
  | .reorder _ _ _ _ jumped delayed => [jumped.index, delayed.index]
  | _ => []

section Order
variable (c : Crypto) (op : Operator) (receipts : List SignedReceipt)

/-- What a scan of the log says, by kind and position. -/
def logFaults : Set (FaultKind × UInt64) :=
  { p | ∃ f ∈ (scanReceipts c op receipts).faults, (f.kind, f.seq) = p }

/-- What a scan of the block says, by kind and transactions. -/
def blockFaults (block : ObservedBlock) (identity : Bytes 32) : Set (FaultKind × List UInt32) :=
  { p | ∃ f ∈ (scanBlock c block (ReceiptIndex.build c receipts op) op identity).faults,
    (f.kind, f.places) = p }

/-- The statement a position is represented by: the first that arrived for it. -/
def representative (seq : UInt64) : Option SignedReceipt :=
  receipts.find? fun s => op.accepts c s = .ok () ∧ s.receipt.seq = seq

variable {c op receipts}

lemma representative_eq_some {seq : UInt64} {a : SignedReceipt}
    (h : representative c op receipts seq = some a) :
    a ∈ receipts ∧ op.accepts c a = .ok () ∧ a.receipt.seq = seq := by
  have hm := List.mem_of_find?_eq_some h
  have hp := List.find?_some h
  simp only [Bool.decide_and, Bool.and_eq_true, decide_eq_true_eq] at hp
  exact ⟨hm, hp⟩

lemma exists_representative {a : SignedReceipt} (hm : a ∈ receipts)
    (ha : op.accepts c a = .ok ()) :
    ∃ b, representative c op receipts a.receipt.seq = some b := by
  apply Option.isSome_iff_exists.mp
  rw [representative, List.find?_isSome]
  exact ⟨a, hm, by simp [ha]⟩

lemma mem_distinct_iff {a : SignedReceipt} :
    a ∈ distinct c op receipts ↔ representative c op receipts a.receipt.seq = some a := by
  -- The sort is stable, so the representatives are the first to arrive.
  rw [distinct, mem_heads_iff (attributable_sorted receipts), ← List.head?_filter,
    attributable_eq, filter_key_mergeSort, representative, ← List.head?_filter, accepted,
    List.filter_filter]
  simp only [position_eq_iff, Bool.decide_and, Bool.and_comm]

lemma statementVerdict_eq_fault {g : List SignedReceipt} {f : Fault} :
    statementVerdict g = some (.fault f) ↔
      ∃ a t b, g = a :: t ∧ t.find? (fun s => s ≠ a) = some b ∧
        f = .equivocation a.receipt.seq a b := by
  cases g with
  | nil => simp [statementVerdict]
  | cons a t =>
    simp only [statementVerdict, checkOneStatementPerSequence, List.head?_cons, Option.map_some,
      Option.some.injEq, List.cons.injEq]
    rw [List.find?_cons_of_neg (by simp)]
    cases hb : t.find? (fun s => s ≠ a) with
    | none =>
      constructor
      · intro h
        cases h
      · rintro ⟨x, y, b, ⟨rfl, rfl⟩, hf, _⟩
        rw [hb] at hf
        cases hf
    | some b =>
      constructor
      · intro h
        exact ⟨a, t, b, ⟨rfl, rfl⟩, hb, (Verdict.fault.inj h).symm⟩
      · rintro ⟨x, y, d, ⟨rfl, rfl⟩, hf, rfl⟩
        rw [hb] at hf
        rw [Option.some.inj hf]

lemma checkLink_eq_fault {a b : SignedReceipt} {f : Fault} :
    checkLink c a b = .fault f ↔
      a.receipt.seq + 1 = b.receipt.seq ∧ b.receipt.prevReceiptHash ≠ a.receiptHash c ∧
        f = .brokenChain b.receipt.seq b a := by
  unfold checkLink
  split_ifs with h h' <;> simp_all [eq_comm]

lemma checkOrigin_eq_fault_iff {a : SignedReceipt} {f : Fault} :
    checkOrigin a = .fault f ↔
      a.receipt.seq = 0 ∧ a.receipt.prevReceiptHash ≠ genesisPrevHash ∧ f = .badOrigin a := by
  constructor
  · intro h
    have hf : f = .badOrigin a := by
      unfold checkOrigin at h
      split_ifs at h
      exact (Verdict.fault.inj h).symm
    subst hf
    obtain ⟨hseq, hprev⟩ := checkOrigin_eq_fault.mp h
    exact ⟨hseq, hprev, rfl⟩
  · rintro ⟨hseq, hprev, rfl⟩
    exact checkOrigin_eq_fault.mpr ⟨hseq, hprev⟩

lemma mem_faults_iff {f : Fault} :
    f ∈ (scanReceipts c op receipts).faults ↔
      (∃ a t b, a :: t ∈ runs position (attributable c op receipts) ∧
        t.find? (fun s => s ≠ a) = some b ∧ f = .equivocation a.receipt.seq a b) ∨
      (∃ a, (distinct c op receipts).head? = some a ∧ a.receipt.seq = 0 ∧
        a.receipt.prevReceiptHash ≠ genesisPrevHash ∧ f = .badOrigin a) ∨
      ∃ a b, (a, b) ∈ (distinct c op receipts).zip (distinct c op receipts).tail ∧
        a.receipt.seq + 1 = b.receipt.seq ∧ b.receipt.prevReceiptHash ≠ a.receiptHash c ∧
        f = .brokenChain b.receipt.seq b a := by
  have hattribution : ¬∃ s, s ∈ ordered receipts ∧ checkBelongsHere c op s = .fault f := by
    rintro ⟨s, _, hs⟩
    unfold checkBelongsHere at hs
    cases ha : op.accepts c s <;> simp [ha] at hs
  have hruns : (∃ g ∈ runs position (attributable c op receipts),
      statementVerdict g = some (.fault f)) ↔
      ∃ a t b, a :: t ∈ runs position (attributable c op receipts) ∧
        t.find? (fun s => s ≠ a) = some b ∧ f = .equivocation a.receipt.seq a b := by
    constructor
    · rintro ⟨g, hg, hv⟩
      obtain ⟨a, t, b, rfl, hb, rfl⟩ := statementVerdict_eq_fault.mp hv
      exact ⟨a, t, b, hg, hb, rfl⟩
    · rintro ⟨a, t, b, hg, hb, rfl⟩
      exact ⟨a :: t, hg, statementVerdict_eq_fault.mpr ⟨a, t, b, rfl, hb, rfl⟩⟩
  rw [mem_faults, verdicts, ← hruns]
  simp only [List.mem_append, List.mem_map, List.mem_filterMap, Option.mem_toList, Prod.exists,
    or_assoc, hattribution, false_or, checkOrigin_eq_fault_iff, checkLink_eq_fault]

lemma contradiction_of_run {a b : SignedReceipt} {t : List SignedReceipt}
    (hg : a :: t ∈ runs position (attributable c op receipts))
    (hb : t.find? (fun s => s ≠ a) = some b) :
    a ∈ attributable c op receipts ∧ b ∈ attributable c op receipts ∧
      b.receipt.seq = a.receipt.seq ∧ a ≠ b := by
  obtain ⟨_, _, he, hkey, hsub⟩ := mem_runs hg
  obtain ⟨rfl, rfl⟩ := List.cons.inj he
  have hbt := List.mem_of_find?_eq_some hb
  have hne : b ≠ a := by simpa using List.find?_some hb
  exact ⟨hsub a List.mem_cons_self, hsub b (List.mem_cons_of_mem _ hbt),
    (position_eq_iff _ _).mp (hkey b hbt), hne.symm⟩

lemma equivocation_mem_logFaults {seq : UInt64} :
    (FaultKind.equivocation, seq) ∈ logFaults c op receipts ↔
      ∃ a ∈ receipts, ∃ b ∈ receipts, op.accepts c a = .ok () ∧ op.accepts c b = .ok () ∧
        a.receipt.seq = seq ∧ b.receipt.seq = seq ∧ a ≠ b := by
  constructor
  · rintro ⟨f, hf, he⟩
    obtain ⟨hkind, rfl⟩ := Prod.mk.inj he
    rcases mem_faults_iff.mp hf with ⟨a, t, b, hg, hb, rfl⟩ | ⟨a, _, _, _, rfl⟩ |
      ⟨a, b, _, _, _, rfl⟩
    · obtain ⟨hma, hmb, hseq, hne⟩ := contradiction_of_run hg hb
      obtain ⟨ha, haccept⟩ := mem_attributable.mp hma
      obtain ⟨hb, hbccept⟩ := mem_attributable.mp hmb
      exact ⟨a, ha, b, hb, haccept, hbccept, rfl, hseq, hne⟩
    · cases hkind
    · cases hkind
  · rintro ⟨a, ha, b, hb, haccept, hbccept, rfl, hseq, hne⟩
    have hma := mem_attributable.mpr ⟨ha, haccept⟩
    have hmb := mem_attributable.mpr ⟨hb, hbccept⟩
    obtain ⟨g, hg, hag⟩ := (exists_run_mem hma : ∃ g ∈ runs position _, a ∈ g)
    obtain ⟨first, t, rfl, _, _⟩ := mem_runs hg
    have hrun := run_eq_filter (attributable_sorted receipts) hg
    have hka : position a = position first := by
      rw [hrun] at hag
      simpa using (List.mem_filter.mp hag).2
    have hbg : b ∈ first :: t := by
      rw [hrun]
      exact List.mem_filter.mpr ⟨hmb, by simpa [← hka] using (position_eq_iff b a).mpr hseq⟩
    -- One of the two is not the first of the run, so the search finds something.
    have hfind : (t.find? fun s => s ≠ first).isSome := by
      rw [List.find?_isSome]
      by_cases hfa : a = first
      · subst hfa
        exact ⟨b, (List.mem_cons.mp hbg).resolve_left (Ne.symm hne), by simpa using Ne.symm hne⟩
      · exact ⟨a, (List.mem_cons.mp hag).resolve_left hfa, by simpa using hfa⟩
    obtain ⟨other, hother⟩ := Option.isSome_iff_exists.mp hfind
    refine ⟨.equivocation first.receipt.seq first other, ?_, ?_⟩
    · exact mem_faults_iff.mpr (Or.inl ⟨first, t, other, hg, hother, rfl⟩)
    · simp only [Fault.kind, Fault.seq, (position_eq_iff a first).mp hka]

lemma badOrigin_mem_logFaults {seq : UInt64} :
    (FaultKind.badOrigin, seq) ∈ logFaults c op receipts ↔
      ∃ a, representative c op receipts 0 = some a ∧ seq = 0 ∧
        a.receipt.prevReceiptHash ≠ genesisPrevHash := by
  constructor
  · rintro ⟨f, hf, he⟩
    obtain ⟨hkind, rfl⟩ := Prod.mk.inj he
    rcases mem_faults_iff.mp hf with ⟨a, t, b, _, _, rfl⟩ | ⟨a, ha, hseq, hprev, rfl⟩ |
      ⟨a, b, _, _, _, rfl⟩
    · cases hkind
    · have hrep := mem_distinct_iff.mp (List.mem_of_mem_head? ha)
      rw [hseq] at hrep
      exact ⟨a, hrep, hseq, hprev⟩
    · cases hkind
  · rintro ⟨a, hrep, rfl, hprev⟩
    have hseq := (representative_eq_some hrep).2.2
    have hmem : a ∈ distinct c op receipts := by rwa [mem_distinct_iff, hseq]
    have hhead := head?_of_key_eq_zero (distinct_strict receipts) hmem (by simp [position, hseq])
    refine ⟨.badOrigin a, mem_faults_iff.mpr (Or.inr (Or.inl ⟨a, hhead, hseq, hprev, rfl⟩)), ?_⟩
    simp only [Fault.kind, Fault.seq, hseq]

lemma brokenChain_mem_logFaults {seq : UInt64} :
    (FaultKind.brokenChain, seq) ∈ logFaults c op receipts ↔
      ∃ a b, representative c op receipts a.receipt.seq = some a ∧
        representative c op receipts seq = some b ∧ a.receipt.seq.toNat + 1 = seq.toNat ∧
        b.receipt.prevReceiptHash ≠ a.receiptHash c := by
  constructor
  · rintro ⟨f, hf, he⟩
    obtain ⟨hkind, rfl⟩ := Prod.mk.inj he
    rcases mem_faults_iff.mp hf with ⟨a, t, b, _, _, rfl⟩ | ⟨a, _, _, _, rfl⟩ |
      ⟨a, b, hab, hnext, hprev, rfl⟩
    · cases hkind
    · cases hkind
    · obtain ⟨ha, hb, hsum⟩ := distinct_neighbours hab
      rw [hnext] at hsum
      exact ⟨a, b, mem_distinct_iff.mp ha, mem_distinct_iff.mp hb, hsum.symm, hprev⟩
  · rintro ⟨a, b, hra, hrb, hnext, hprev⟩
    obtain rfl := (representative_eq_some hrb).2.2
    have hab := mem_zip_tail_of_succ (distinct_strict receipts) (mem_distinct_iff.mpr hra)
      (mem_distinct_iff.mpr hrb) hnext.symm
    obtain ⟨_, _, hsum⟩ := distinct_neighbours hab
    have hseq : a.receipt.seq + 1 = b.receipt.seq := UInt64.toNat_inj.mp (hsum.trans hnext)
    exact ⟨.brokenChain b.receipt.seq b a,
      mem_faults_iff.mpr (Or.inr (Or.inr ⟨a, b, hab, hseq, hprev, rfl⟩)), rfl⟩

end Order

end Blitz.Watchtower
