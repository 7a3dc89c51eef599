import Blitz.SignedReceipt

/-! The validator's receipt store: one column by sequence number, one by
transaction signature, and storage that may fail on any single access. -/
namespace Blitz.Validator
open LittleEndian Receipts

inductive LedgerError
  | rocksDb (message : String)
  | tryFromSlice
  | receiptCorrupted (seq : UInt64)
  deriving DecidableEq, Repr

def LedgerError.display : LedgerError → String
  | .rocksDb message => "RocksDB error: " ++ message
  | .tryFromSlice => "try from slice error: could not convert slice to array"
  | .receiptCorrupted seq =>
    "receipt at seq " ++ toString seq.toNat ++ " is too short to hold an outcome byte"

/-- What becomes of one storage access: nothing, or an error and no effect. -/
abbrev Fate := Option LedgerError

/-- The fates of the accesses one command makes, in order. -/
abbrev Disk := ℕ → Fate

inductive Outcome
  | pending | accepted | rejected | expired
  deriving DecidableEq, Repr

def Outcome.asU8 : Outcome → UInt8
  | .pending => 0x01
  | .accepted => 0x02
  | .rejected => 0x03
  | .expired => 0x04

/-- Keys of fixed length compare byte by byte. -/
def compareBytes {n : ℕ} (a b : Bytes n) : Ordering := compare a.val b.val

instance {n : ℕ} : Std.TransCmp (compareBytes (n := n)) where
  eq_swap {a b} := Std.OrientedOrd.eq_swap (a := a.val) (b := b.val)
  isLE_trans {a b c} := Std.TransOrd.isLE_trans (a := a.val) (b := b.val) (c := c.val)

instance {n : ℕ} : Std.LawfulEqCmp (compareBytes (n := n)) where
  compare_self := Std.ReflCmp.compare_self
  eq_of_compare h := Subtype.ext (Std.LawfulEqCmp.eq_of_compare h)

structure ReceiptLedger where
  receiptBySeq : Std.TreeMap UInt64 (List UInt8)
  receiptBySig : Std.TreeMap (Bytes 64) (List UInt8) compareBytes

namespace ReceiptLedger

def empty : ReceiptLedger := ⟨∅, ∅⟩

/-- The index rows hold the sequence number in big-endian order. -/
def seqBytes (seq : UInt64) : List UInt8 := (u64Bytes seq).reverse

def putBySeq (l : ReceiptLedger) (fate : Fate) (seq : UInt64) (value : List UInt8) :
    Except LedgerError ReceiptLedger :=
  match fate with
  | some e => .error e
  | none => .ok { l with receiptBySeq := l.receiptBySeq.insert seq value }

def putBySig (l : ReceiptLedger) (fate : Fate) (signature : Bytes 64) (value : List UInt8) :
    Except LedgerError ReceiptLedger :=
  match fate with
  | some e => .error e
  | none => .ok { l with receiptBySig := l.receiptBySig.insert signature value }

def getBySeq (l : ReceiptLedger) (fate : Fate) (seq : UInt64) :
    Except LedgerError (Option (List UInt8)) :=
  match fate with
  | some e => .error e
  | none => .ok l.receiptBySeq[seq]?

/-- The two puts are not batched: the first stays when the second fails. -/
def writeReceipt (l : ReceiptLedger) (disk : Disk) (seq : UInt64) (signature : Option (Bytes 64))
    (outcome : UInt8) (receipt : List UInt8) : ReceiptLedger × Except LedgerError Unit :=
  match l.putBySeq (disk 0) seq (outcome :: receipt) with
  | .error e => (l, .error e)
  | .ok l =>
    match signature with
    | none => (l, .ok ())
    | some signature =>
      match l.putBySig (disk 1) signature (seqBytes seq) with
      | .error e => (l, .error e)
      | .ok l => (l, .ok ())

def indexReceiptSignature (l : ReceiptLedger) (disk : Disk) (seq : UInt64) (signature : Bytes 64) :
    ReceiptLedger × Except LedgerError Unit :=
  match l.putBySig (disk 0) signature (seqBytes seq) with
  | .error e => (l, .error e)
  | .ok l => (l, .ok ())

/-- Replaces the outcome byte. `false` says there is no receipt at that number. -/
def setReceiptOutcome (l : ReceiptLedger) (disk : Disk) (seq : UInt64) (outcome : UInt8) :
    ReceiptLedger × Except LedgerError Bool :=
  match l.getBySeq (disk 0) seq with
  | .error e => (l, .error e)
  | .ok none => (l, .ok false)
  | .ok (some []) => (l, .error (.receiptCorrupted seq))
  | .ok (some (_ :: receipt)) =>
    match l.putBySeq (disk 1) seq (outcome :: receipt) with
    | .error e => (l, .error e)
    | .ok l => (l, .ok true)

def splitReceipt (seq : UInt64) : List UInt8 → Except LedgerError (UInt8 × List UInt8)
  | [] => .error (.receiptCorrupted seq)
  | outcome :: receipt => .ok (outcome, receipt)

/-- A number that was never written reads as `none`, not as an error. -/
def readReceipt (l : ReceiptLedger) (fate : Fate) (seq : UInt64) :
    Except LedgerError (Option (UInt8 × List UInt8)) := do
  match ← l.getBySeq fate seq with
  | none => .ok none
  | some value =>
    let row ← splitReceipt seq value
    .ok (some row)

def readReceiptBySignature (l : ReceiptLedger) (disk : Disk) (signature : Bytes 64) :
    Except LedgerError (Option (UInt64 × UInt8 × List UInt8)) :=
  match disk 0 with
  | some e => .error e
  | none =>
    match l.receiptBySig[signature]? with
    | none => .ok none
    | some bytes =>
      if bytes.length ≠ 8 then .error .tryFromSlice
      else do
        let seq := u64Of bytes.reverse
        let row ← l.readReceipt (disk 1) seq
        .ok (row.map fun row => (seq, row))

/-- Rows from `fromSeq` on, in ascending order; one that can not be split is skipped. -/
def iterReceipts (l : ReceiptLedger) (fate : Fate) (fromSeq : UInt64) :
    Except LedgerError (List (UInt64 × UInt8 × List UInt8)) :=
  match fate with
  | some e => .error e
  | none => .ok ((l.receiptBySeq.toList.filter fun row => fromSeq ≤ row.1).filterMap fun row =>
      (splitReceipt row.1 row.2).toOption.map fun split => (row.1, split))

/-- The receipt bytes a row holds. -/
def stored (l : ReceiptLedger) (seq : UInt64) : Option (List UInt8) :=
  match l.receiptBySeq[seq]? with
  | some (_ :: receipt) => some receipt
  | _ => none

section Stored
variable {l l' : ReceiptLedger} {disk : Disk} {fate : Fate} {seq : UInt64} {outcome : UInt8}
  {receipt : List UInt8}

lemma stored_putBySeq (h : l.putBySeq fate seq (outcome :: receipt) = .ok l') :
    fate = none ∧ l'.stored = Function.update l.stored seq (some receipt) := by
  cases fate with
  | some e => cases h
  | none =>
    refine ⟨rfl, ?_⟩
    obtain rfl := Except.ok.inj h
    funext i
    by_cases hi : i = seq
    · subst hi
      simp [stored]
    · have hne : ¬seq = i := fun he => hi he.symm
      simp [stored, Std.TreeMap.getElem?_insert, hi, hne]

lemma stored_putBySig {signature : Bytes 64} {value : List UInt8}
    (h : l.putBySig fate signature value = .ok l') : fate = none ∧ l'.stored = l.stored := by
  cases fate with
  | some e => cases h
  | none =>
    obtain rfl := Except.ok.inj h
    exact ⟨rfl, rfl⟩

theorem writeReceipt_cases {signature : Option (Bytes 64)} {result : Except LedgerError Unit}
    (h : l.writeReceipt disk seq signature outcome receipt = (l', result)) :
    (∃ e, result = .error e ∧ l' = l) ∨
      (disk 0 = none ∧ l'.stored = Function.update l.stored seq (some receipt) ∧
        (result = .ok () ∨ ∃ e, result = .error e ∧ disk 1 = some e ∧ signature ≠ none)) := by
  unfold writeReceipt at h
  cases hput : l.putBySeq (disk 0) seq (outcome :: receipt) with
  | error e =>
    simp only [hput, Prod.mk.injEq] at h
    exact Or.inl ⟨e, h.2.symm, h.1.symm⟩
  | ok l₁ =>
    obtain ⟨hfate, hstored⟩ := stored_putBySeq hput
    simp only [hput] at h
    refine Or.inr ⟨hfate, ?_⟩
    cases signature with
    | none =>
      obtain ⟨rfl, rfl⟩ := Prod.mk.inj h
      exact ⟨hstored, Or.inl rfl⟩
    | some signature =>
      cases hsig : l₁.putBySig (disk 1) signature (seqBytes seq) with
      | error e =>
        simp only [hsig, Prod.mk.injEq] at h
        obtain ⟨rfl, rfl⟩ := h
        refine ⟨hstored, Or.inr ⟨e, rfl, ?_, by simp⟩⟩
        cases hd : disk 1 with
        | none =>
          rw [hd] at hsig
          cases hsig
        | some e' =>
          rw [hd] at hsig
          rw [Except.error.inj hsig]
      | ok l₂ =>
        simp only [hsig, Prod.mk.injEq] at h
        obtain ⟨rfl, rfl⟩ := h
        exact ⟨(stored_putBySig hsig).2.trans hstored, Or.inl rfl⟩

lemma stored_indexReceiptSignature {signature : Bytes 64} :
    (l.indexReceiptSignature disk seq signature).1.stored = l.stored := by
  unfold indexReceiptSignature
  cases hsig : l.putBySig (disk 0) signature (seqBytes seq) with
  | error e => rfl
  | ok l' => exact (stored_putBySig hsig).2

theorem stored_setReceiptOutcome : (l.setReceiptOutcome disk seq outcome).1.stored = l.stored := by
  unfold setReceiptOutcome
  cases hget : l.getBySeq (disk 0) seq with
  | error e => rfl
  | ok row =>
    match row, hget with
    | none, _ => rfl
    | some [], _ => rfl
    | some (b :: receipt), hget =>
      cases hput : l.putBySeq (disk 1) seq (outcome :: receipt) with
      | error e => simp only [hput]
      | ok l' =>
        simp only [hput]
        obtain ⟨_, hstored⟩ := stored_putBySeq hput
        have hrow : l.receiptBySeq[seq]? = some (b :: receipt) := by
          unfold getBySeq at hget
          cases hd : disk 0 <;> simp_all
        rw [hstored, Function.update_eq_self_iff, stored, hrow]

lemma readReceipt_eq_ok {row : UInt8 × List UInt8} :
    l.readReceipt fate seq = .ok (some row) ↔
      fate = none ∧ l.receiptBySeq[seq]? = some (row.1 :: row.2) := by
  cases fate with
  | some e => simp [readReceipt, getBySeq, bind, Except.bind]
  | none =>
    cases hrow : l.receiptBySeq[seq]? with
    | none => simp [readReceipt, getBySeq, hrow, bind, Except.bind]
    | some value =>
      cases value with
      | nil => simp [readReceipt, getBySeq, hrow, splitReceipt, bind, Except.bind]
      | cons b receipt =>
        simp only [readReceipt, getBySeq, hrow, splitReceipt, bind, Except.bind, Except.ok.injEq,
          Option.some.injEq, List.cons.injEq, true_and]
        constructor
        · rintro rfl
          exact ⟨rfl, rfl⟩
        · rintro ⟨rfl, rfl⟩
          rfl

lemma readReceiptBySignature_eq_ok {signature : Bytes 64} {row : UInt64 × UInt8 × List UInt8}
    (h : l.readReceiptBySignature disk signature = .ok (some row)) :
    (∃ bytes, l.receiptBySig[signature]? = some bytes ∧ row.1 = u64Of bytes.reverse) ∧
      l.readReceipt (disk 1) row.1 = .ok (some row.2) := by
  unfold readReceiptBySignature at h
  cases hd : disk 0 with
  | some e => simp [hd] at h
  | none =>
    cases hsig : l.receiptBySig[signature]? with
    | none => simp [hd, hsig] at h
    | some bytes =>
      simp only [hd, hsig] at h
      split_ifs at h with hlen
      cases hread : l.readReceipt (disk 1) (u64Of bytes.reverse) with
      | error e =>
        rw [hread] at h
        cases h
      | ok found =>
        rw [hread] at h
        obtain ⟨split, rfl, rfl⟩ := Option.map_eq_some_iff.mp (Except.ok.inj h)
        exact ⟨⟨bytes, rfl, rfl⟩, hread⟩

lemma stored_eq_some :
    l.stored seq = some receipt ↔ ∃ b, l.receiptBySeq[seq]? = some (b :: receipt) := by
  unfold stored
  split
  · next b r hr => simp [hr]
  · next hne =>
    simp only [false_iff, not_exists, reduceCtorEq]
    intro b hb
    exact hne b receipt hb

lemma mem_iterReceipts {rows : List (UInt64 × UInt8 × List UInt8)} {fromSeq : UInt64}
    (h : l.iterReceipts fate fromSeq = .ok rows) {row : UInt64 × UInt8 × List UInt8}
    (hrow : row ∈ rows) : l.receiptBySeq[row.1]? = some (row.2.1 :: row.2.2) := by
  cases fate with
  | some e => cases h
  | none =>
    obtain rfl := Except.ok.inj h
    simp only [List.mem_filterMap, List.mem_filter, Option.map_eq_some_iff] at hrow
    obtain ⟨⟨i, value⟩, ⟨hmem, _⟩, ⟨b, receipt⟩, hsplit, rfl⟩ := hrow
    rw [Std.TreeMap.mem_toList_iff_getElem?_eq_some] at hmem
    cases value with
    | nil => cases hsplit
    | cons b' receipt' =>
      obtain ⟨rfl, rfl⟩ := Prod.mk.inj (Option.some.inj hsplit)
      exact hmem

end Stored

/-- A signed receipt anybody can read out of the store. -/
def Readable (l : ReceiptLedger) (s : SignedReceipt) : Prop :=
  ∃ bytes, SignedReceipt.fromBytes bytes = .ok s ∧
    ((∃ fate seq outcome, l.readReceipt fate seq = .ok (some (outcome, bytes))) ∨
      (∃ disk signature seq outcome,
        l.readReceiptBySignature disk signature = .ok (some (seq, outcome, bytes))) ∨
      ∃ fate fromSeq rows seq outcome, l.iterReceipts fate fromSeq = .ok rows ∧
        (seq, outcome, bytes) ∈ rows)

lemma readable_iff {l : ReceiptLedger} {s : SignedReceipt} :
    l.Readable s ↔ ∃ seq bytes, l.stored seq = some bytes ∧ SignedReceipt.fromBytes bytes = .ok s := by
  constructor
  · intro hreadable
    rcases hreadable with ⟨bytes, hs, ⟨fate, seq, outcome, hread⟩ |
      ⟨disk, signature, seq, outcome, hread⟩ | ⟨fate, fromSeq, rows, seq, outcome, hiter, hm⟩⟩
    · exact ⟨seq, bytes, stored_eq_some.mpr ⟨outcome, (readReceipt_eq_ok.mp hread).2⟩, hs⟩
    · have hrow := readReceipt_eq_ok.mp (readReceiptBySignature_eq_ok hread).2
      exact ⟨seq, bytes, stored_eq_some.mpr ⟨outcome, hrow.2⟩, hs⟩
    · exact ⟨seq, bytes, stored_eq_some.mpr ⟨outcome, mem_iterReceipts hiter hm⟩, hs⟩
  · intro hrow
    rcases hrow with ⟨seq, bytes, hstored, hs⟩
    obtain ⟨b, hb⟩ := stored_eq_some.mp hstored
    exact ⟨bytes, hs, Or.inl ⟨none, seq, b, readReceipt_eq_ok.mpr ⟨rfl, hb⟩⟩⟩

end ReceiptLedger

end Blitz.Validator
