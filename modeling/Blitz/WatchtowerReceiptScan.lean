import Blitz.WatchtowerFault
import Blitz.SortedGroups

/-! `scan_receipts`: sorting, attribution, one statement per position, origin
and chain links, and the list of verdicts the loops record. -/
namespace Blitz.Watchtower
open LittleEndian Receipts SortedGroups

section Scan
variable (c : Crypto) (op : Operator)

def checkBelongsHere (s : SignedReceipt) : Verdict :=
  match op.accepts c s with
  | .ok () => .clean
  | .error reason => .cannotDetermine (reason.undetermined s.receipt.seq)

/-- One sequence number may carry only one statement; `group` starts with `first`. -/
def checkOneStatementPerSequence (seq : UInt64) (first : SignedReceipt)
    (group : List SignedReceipt) : Verdict :=
  match group.find? (fun s => s ≠ first) with
  | some other => .fault (.equivocation seq first other)
  | none => .clean

def checkOrigin (first : SignedReceipt) : Verdict :=
  if first.receipt.seq ≠ 0 then .cannotDetermine (.missingOrigin first.receipt.seq)
  else if first.receipt.prevReceiptHash ≠ genesisPrevHash then .fault (.badOrigin first)
  else .clean

/-- Positions are strictly rising where this is called, so the sum is exact. -/
def checkLink (predecessor receipt : SignedReceipt) : Verdict :=
  if predecessor.receipt.seq + 1 ≠ receipt.receipt.seq then
    .cannotDetermine (.sequenceGap predecessor.receipt.seq receipt.receipt.seq)
  else if receipt.receipt.prevReceiptHash ≠ predecessor.receiptHash c then
    .fault (.brokenChain receipt.receipt.seq receipt predecessor)
  else .clean

/-- One turn of the attribution loop: record the verdict, keep what is clean. -/
def attributeEntry (state : Scan × List SignedReceipt) (s : SignedReceipt) :
    Scan × List SignedReceipt :=
  let verdict := checkBelongsHere c op s
  (state.1.record verdict, if verdict = .clean then state.2 ++ [s] else state.2)

/-- The grouping loop. The argument is what is left from `position` on, and the
cut is at the first entry of another sequence number. -/
def checkStatements : List SignedReceipt → Scan × List SignedReceipt → Scan × List SignedReceipt
  | [], state => state
  | first :: rest, (scan, distinct) =>
      let seq := first.receipt.seq
      let group := first :: rest.takeWhile (fun s => s.receipt.seq = seq)
      let after := rest.dropWhile (fun s => s.receipt.seq = seq)
      checkStatements after
        (scan.record (checkOneStatementPerSequence seq first group), distinct ++ [first])
  termination_by l => l.length
  decreasing_by
    have := (List.dropWhile_sublist (fun s : SignedReceipt => s.receipt.seq = first.receipt.seq)
      (l := rest)).length_le
    simp only [List.length_cons]
    omega

def scanReceipts (receipts : List SignedReceipt) : Scan :=
  let ordered := receipts.mergeSort (fun a b => a.receipt.seq ≤ b.receipt.seq)
  let (scan, attributable) := ordered.foldl (attributeEntry c op) ({}, [])
  let (scan, distinct) := checkStatements attributable (scan, [])
  let scan := match distinct with
    | [] => scan
    | first :: _ => scan.record (checkOrigin first)
  (distinct.zip distinct.tail).foldl (fun scan pair => scan.record (checkLink c pair.1 pair.2)) scan

end Scan

/-! What the loops record, said once as lists of verdicts. -/

section Verdicts
variable (c : Crypto) (op : Operator)

def position (s : SignedReceipt) : ℕ := s.receipt.seq.toNat

def ordered (receipts : List SignedReceipt) : List SignedReceipt :=
  receipts.mergeSort (fun a b => a.receipt.seq ≤ b.receipt.seq)

def attributable (receipts : List SignedReceipt) : List SignedReceipt :=
  (ordered receipts).filter fun s => checkBelongsHere c op s = .clean

def distinct (receipts : List SignedReceipt) : List SignedReceipt :=
  heads position (attributable c op receipts)

def statementVerdict (group : List SignedReceipt) : Option Verdict :=
  group.head?.map fun first => checkOneStatementPerSequence first.receipt.seq first group

def verdicts (receipts : List SignedReceipt) : List Verdict :=
  (ordered receipts).map (checkBelongsHere c op) ++
  (runs position (attributable c op receipts)).filterMap statementVerdict ++
  (distinct c op receipts).head?.toList.map checkOrigin ++
  ((distinct c op receipts).zip (distinct c op receipts).tail).map
    fun pair => checkLink c pair.1 pair.2

variable {c op}

lemma foldl_attributeEntry (l : List SignedReceipt) (scan : Scan) (kept : List SignedReceipt) :
    l.foldl (attributeEntry c op) (scan, kept) =
      (scan.recordAll (l.map (checkBelongsHere c op)),
        kept ++ l.filter fun s => checkBelongsHere c op s = .clean) := by
  induction l generalizing scan kept with
  | nil => simp [Scan.recordAll]
  | cons s l ih =>
    rw [List.foldl_cons, attributeEntry]
    simp only [ih]
    by_cases h : checkBelongsHere c op s = .clean <;> simp [h, Scan.recordAll]

lemma position_eq_iff (a b : SignedReceipt) : position a = position b ↔ a.receipt.seq = b.receipt.seq :=
  UInt64.toNat_inj

lemma checkStatements_eq (l : List SignedReceipt) (scan : Scan) (kept : List SignedReceipt) :
    checkStatements l (scan, kept) =
      (scan.recordAll ((runs position l).filterMap statementVerdict), kept ++ heads position l) := by
  induction l using runs.induct position generalizing scan kept with
  | case1 => simp [checkStatements, runs_nil, heads, Scan.recordAll]
  | case2 first rest ih =>
    have hk : (fun s : SignedReceipt => decide (s.receipt.seq = first.receipt.seq)) =
        fun s => decide (position s = position first) := by
      funext s
      simp only [position_eq_iff]
    rw [checkStatements]
    simp only [hk, ih, runs_cons, heads_cons]
    simp [statementVerdict, Scan.recordAll]

theorem scanReceipts_eq (receipts : List SignedReceipt) :
    scanReceipts c op receipts = Scan.recordAll {} (verdicts c op receipts) := by
  have hl (pairs : List (SignedReceipt × SignedReceipt)) (scan : Scan) :
      pairs.foldl (fun scan pair => scan.record (checkLink c pair.1 pair.2)) scan =
        scan.recordAll (pairs.map fun pair => checkLink c pair.1 pair.2) := by
    rw [Scan.recordAll, List.foldl_map]
  have ho (scan : Scan) (l : List SignedReceipt) :
      (match l with
        | [] => scan
        | first :: _ => scan.record (checkOrigin first)) =
        scan.recordAll (l.head?.toList.map checkOrigin) := by
    cases l <;> rfl
  simp only [scanReceipts, foldl_attributeEntry, checkStatements_eq, List.nil_append, hl, ho,
    Scan.recordAll_append]
  rfl

theorem mem_faults {receipts : List SignedReceipt} {f : Fault} :
    f ∈ (scanReceipts c op receipts).faults ↔ Verdict.fault f ∈ verdicts c op receipts := by
  simp [scanReceipts_eq, Scan.mem_faults_recordAll]

theorem mem_undetermined {receipts : List SignedReceipt} {u : Undetermined} :
    u ∈ (scanReceipts c op receipts).undetermined ↔
      Verdict.cannotDetermine u ∈ verdicts c op receipts := by
  simp [scanReceipts_eq, Scan.mem_undetermined_recordAll]

lemma checkBelongsHere_eq_clean {s : SignedReceipt} :
    checkBelongsHere c op s = .clean ↔ op.accepts c s = .ok () := by
  unfold checkBelongsHere
  cases op.accepts c s <;> simp

lemma mem_attributable {receipts : List SignedReceipt} {s : SignedReceipt} :
    s ∈ attributable c op receipts ↔ s ∈ receipts ∧ op.accepts c s = .ok () := by
  simp [attributable, ordered, checkBelongsHere_eq_clean]

lemma ordered_eq (receipts : List SignedReceipt) :
    ordered receipts = receipts.mergeSort fun a b => position a ≤ position b := by
  rfl

lemma attributable_sorted (receipts : List SignedReceipt) :
    (attributable c op receipts).Pairwise fun a b => position a ≤ position b := by
  rw [attributable, ordered_eq]
  exact (pairwise_mergeSort_key receipts).filter _

lemma distinct_strict (receipts : List SignedReceipt) :
    (distinct c op receipts).Pairwise fun a b => position a < position b :=
  heads_strict (attributable_sorted receipts)

lemma mem_distinct {receipts : List SignedReceipt} {s : SignedReceipt}
    (h : s ∈ distinct c op receipts) : s ∈ receipts ∧ op.accepts c s = .ok () :=
  mem_attributable.mp (mem_of_mem_heads h)

end Verdicts

end Blitz.Watchtower
