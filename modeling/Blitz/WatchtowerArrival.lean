import Blitz.WatchtowerFaultKinds

/-! What the detectors make of a log that arrives in another order than it was issued
in. The sort is stable and the indexes keep the last entry, so the order picks one of
several statements wherever there is more than one. -/
namespace Blitz.Watchtower
open LittleEndian Receipts SortedGroups LatestIndex

section Order
variable {c : Crypto} {op : Operator} {receipts : List SignedReceipt}

variable (c op receipts) in
/-- Receipts that cover the transaction if they arrive last: the plain receipts that
name its signature, or else the tickets for its contents. -/
def Covers (txn : ObservedTransaction) (r : SignedReceipt) : Prop :=
  r ∈ receipts ∧
    ((Issued c op .plain r ∧ r.receipt.txSig = txn.signature) ∨
      (Issued c op .commit r ∧ r.receipt.txHash = txn.txHash ∧
        ∀ s ∈ receipts, Issued c op .plain s → s.receipt.txSig ≠ txn.signature))

variable (c op receipts) in
def TakenBack (r : SignedReceipt) : Prop :=
  ∃ w ∈ receipts, Issued c op .retract w ∧ w.receipt.txHash = r.receiptHash c

variable {receipts' : List SignedReceipt}

lemma Covers.perm (hp : receipts.Perm receipts') {txn : ObservedTransaction} {r : SignedReceipt}
    (h : Covers c op receipts txn r) : Covers c op receipts' txn r := by
  refine ⟨hp.mem_iff.mp h.1, h.2.imp_right fun hcommit => ?_⟩
  exact ⟨hcommit.1, hcommit.2.1, fun s hs => hcommit.2.2 s (hp.mem_iff.mpr hs)⟩

lemma TakenBack.perm (hp : receipts.Perm receipts') {r : SignedReceipt}
    (h : TakenBack c op receipts r) : TakenBack c op receipts' r := by
  obtain ⟨w, hw, hissued, hnames⟩ := h
  exact ⟨w, hp.mem_iff.mp hw, hissued, hnames⟩

lemma takenBack_eq_none {r : SignedReceipt} :
    takenBack c op receipts r = none ↔ ¬TakenBack c op receipts r := by
  rw [takenBack, latest_eq_none]
  simp [TakenBack]

lemma Covers.of_cover {txn : ObservedTransaction} {r : SignedReceipt}
    (h : cover c op receipts txn = some r) : Covers c op receipts txn r := by
  rcases Option.or_eq_some_iff.mp h with h | ⟨hn, h⟩
  · obtain ⟨hm, hissued, hk⟩ := latest_eq_some h
    exact ⟨hm, Or.inl ⟨hissued, hk⟩⟩
  · obtain ⟨hm, hissued, hk⟩ := latest_eq_some h
    exact ⟨hm, Or.inr ⟨hissued, hk, latest_eq_none.mp hn⟩⟩

lemma Covers.exists_cover {txn : ObservedTransaction} {r : SignedReceipt}
    (h : Covers c op receipts txn r) : ∃ s, cover c op receipts txn = some s := by
  by_contra hnone
  have hn := Option.eq_none_iff_forall_ne_some.mpr (not_exists.mp hnone)
  obtain ⟨hplain, hcommit⟩ := Option.or_eq_none_iff.mp hn
  rcases h.2 with ⟨hissued, hk⟩ | ⟨hissued, hk, _⟩
  · exact latest_eq_none.mp hplain r h.1 hissued hk
  · exact latest_eq_none.mp hcommit r h.1 hissued hk

variable (c op receipts) in
/-- No plain receipt names the transaction, so tickets are looked at. -/
def Unnamed (txn : ObservedTransaction) : Prop :=
  ∀ s ∈ receipts, Issued c op .plain s → s.receipt.txSig ≠ txn.signature

lemma Covers.same_key {first second : ObservedTransaction} {r : SignedReceipt}
    (h : Covers c op receipts first r) (h' : Covers c op receipts second r) :
    (first.signature = second.signature ∧ ¬Unnamed c op receipts first) ∨
      (first.txHash = second.txHash ∧ Unnamed c op receipts first ∧
        Unnamed c op receipts second) := by
  rcases h.2 with ⟨hissued, hk⟩ | ⟨hissued, hk, hno⟩ <;>
    rcases h'.2 with ⟨hissued', hk'⟩ | ⟨hissued', hk', hno'⟩
  · exact Or.inl ⟨hk.symm.trans hk', fun hno => hno r h.1 hissued hk⟩
  · exact absurd (hissued.2.symm.trans hissued'.2) (by decide)
  · exact absurd (hissued.2.symm.trans hissued'.2) (by decide)
  · exact Or.inr ⟨hk.symm.trans hk', hno, hno'⟩

lemma Covers.cover_eq {first second : ObservedTransaction} {r : SignedReceipt}
    (h : Covers c op receipts first r) (h' : Covers c op receipts second r) :
    cover c op receipts first = cover c op receipts second := by
  rcases h.same_key h' with ⟨hsig, hnamed⟩ | ⟨hhash, hno, hno'⟩
  · obtain ⟨a, ha⟩ := Option.ne_none_iff_exists'.mp (mt latest_eq_none.mp hnamed)
    rw [cover, cover, ← hsig, ha, Option.some_or, Option.some_or]
  · rw [cover, cover, latest_eq_none.mpr hno, latest_eq_none.mpr hno', hhash]

lemma Covers.of_shared {first second : ObservedTransaction} {r s : SignedReceipt}
    (h : Covers c op receipts first r) (h' : Covers c op receipts second r)
    (hs : Covers c op receipts second s) : Covers c op receipts first s := by
  refine ⟨hs.1, ?_⟩
  rcases h.same_key h' with ⟨hsig, hnamed⟩ | ⟨hhash, hno, hno'⟩
  · rcases hs.2 with ⟨hissued, hk⟩ | ⟨_, _, hno⟩
    · exact Or.inl ⟨hissued, hk.trans hsig.symm⟩
    · rw [← hsig] at hno
      exact absurd hno hnamed
  · rcases hs.2 with ⟨hissued, hk⟩ | ⟨hissued, hk, _⟩
    · exact absurd hk (hno' s hs.1 hissued)
    · exact Or.inr ⟨hissued, hk.trans hhash.symm, hno⟩

lemma Covers.cover_concat {txn : ObservedTransaction} {r : SignedReceipt}
    (h : Covers c op (receipts ++ [r]) txn r) : cover c op (receipts ++ [r]) txn = some r := by
  rcases h.2 with ⟨hissued, hk⟩ | ⟨hissued, hk, hno⟩
  · rw [cover, latest_concat_of_pos hissued hk, Option.some_or]
  · rw [cover, latest_eq_none.mpr hno, Option.none_or, latest_concat_of_pos hissued hk]

lemma cover_concat_of_not_covers {txn : ObservedTransaction} {r s : SignedReceipt}
    (h : Covers c op (receipts ++ [r, s]) txn r) (hs : ¬Covers c op (receipts ++ [r, s]) txn s) :
    cover c op (receipts ++ [r, s]) txn = some r := by
  have happ : receipts ++ [r, s] = (receipts ++ [r]) ++ [s] := by simp
  have hmem : s ∈ receipts ++ [r, s] := by simp
  have hsplain : Issued c op .plain s → s.receipt.txSig ≠ txn.signature :=
    fun hissued hk => hs ⟨hmem, Or.inl ⟨hissued, hk⟩⟩
  rcases h.2 with ⟨hissued, hk⟩ | ⟨hissued, hk, hno⟩
  · rw [cover, happ, latest_concat_of_neg hsplain, latest_concat_of_pos hissued hk,
      Option.some_or]
  · have hscommit : Issued c op .commit s → s.receipt.txHash ≠ txn.txHash :=
      fun hissued hk => hs ⟨hmem, Or.inr ⟨hissued, hk, hno⟩⟩
    rw [cover, latest_eq_none.mpr hno, Option.none_or, happ, latest_concat_of_neg hscommit,
      latest_concat_of_pos hissued hk]

/-! Both scans speak in one voice about a list whose repeated statements agree where
the scans look. -/

variable (c op receipts) in
/-- Statements for one position agree on the origin and on the links to their
neighbours. Receipts that can cover one transaction agree on being withdrawn, and no
receipt of another transaction falls between two of them that stand. -/
structure Agrees : Prop where
  origin : ∀ a ∈ accepted c op receipts, ∀ b ∈ accepted c op receipts, a.receipt.seq = 0 →
    b.receipt.seq = 0 →
      (a.receipt.prevReceiptHash = genesisPrevHash ↔ b.receipt.prevReceiptHash = genesisPrevHash)
  link : ∀ a ∈ accepted c op receipts, ∀ a' ∈ accepted c op receipts,
    ∀ b ∈ accepted c op receipts, ∀ b' ∈ accepted c op receipts,
      a.receipt.seq = a'.receipt.seq → b.receipt.seq = b'.receipt.seq →
      a.receipt.seq.toNat + 1 = b.receipt.seq.toNat →
        (b.receipt.prevReceiptHash = a.receiptHash c ↔
          b'.receipt.prevReceiptHash = a'.receiptHash c)
  withdrawn : ∀ txn r r', Covers c op receipts txn r → Covers c op receipts txn r' →
    (TakenBack c op receipts r ↔ TakenBack c op receipts r')
  order : ∀ first second r r' s s', Covers c op receipts first r → Covers c op receipts first r' →
    Covers c op receipts second s → Covers c op receipts second s' →
    ¬Covers c op receipts first s → ¬TakenBack c op receipts r → ¬TakenBack c op receipts s →
      (r.receipt.seq < s.receipt.seq ↔ r'.receipt.seq < s'.receipt.seq)

lemma Agrees.perm (h : Agrees c op receipts) (hp : receipts.Perm receipts') :
    Agrees c op receipts' := by
  have hacc {a : SignedReceipt} (ha : a ∈ accepted c op receipts') : a ∈ accepted c op receipts := by
    rw [mem_accepted, ← hp.mem_iff] at ha
    exact mem_accepted.mpr ha
  have hback {r : SignedReceipt} : TakenBack c op receipts' r ↔ TakenBack c op receipts r :=
    ⟨TakenBack.perm hp.symm, TakenBack.perm hp⟩
  constructor
  · intro a ha b hb
    exact h.origin a (hacc ha) b (hacc hb)
  · intro a ha a' ha' b hb b' hb'
    exact h.link a (hacc ha) a' (hacc ha') b (hacc hb) b' (hacc hb')
  · intro txn r r' hr hr'
    rw [hback, hback]
    exact h.withdrawn txn r r' (hr.perm hp.symm) (hr'.perm hp.symm)
  · intro first second r r' s s' hr hr' hs hs' hno hback₁ hback₂
    rw [hback] at hback₁ hback₂
    exact h.order first second r r' s s' (hr.perm hp.symm) (hr'.perm hp.symm) (hs.perm hp.symm)
      (hs'.perm hp.symm) (fun hc => hno (hc.perm hp)) hback₁ hback₂

lemma kind_of_mem_logFaults {kind : FaultKind} {seq : UInt64}
    (h : (kind, seq) ∈ logFaults c op receipts) :
    kind = .equivocation ∨ kind = .badOrigin ∨ kind = .brokenChain := by
  obtain ⟨f, hf, he⟩ := h
  obtain ⟨rfl, _⟩ := Prod.mk.inj he
  rcases mem_faults_iff.mp hf with ⟨a, t, b, _, _, rfl⟩ | ⟨a, _, _, _, rfl⟩ |
    ⟨a, b, _, _, _, rfl⟩
  · exact Or.inl rfl
  · exact Or.inr (Or.inl rfl)
  · exact Or.inr (Or.inr rfl)

lemma exists_representative_of_perm (hp : receipts.Perm receipts') {seq : UInt64}
    {a : SignedReceipt} (h : representative c op receipts seq = some a) :
    ∃ b, representative c op receipts' seq = some b ∧ a ∈ accepted c op receipts ∧
      b ∈ accepted c op receipts ∧ a.receipt.seq = seq ∧ b.receipt.seq = seq := by
  obtain ⟨hm, haccept, rfl⟩ := representative_eq_some h
  obtain ⟨b, hb⟩ := exists_representative (hp.mem_iff.mp hm) haccept
  obtain ⟨hmb, hbccept, hseq⟩ := representative_eq_some hb
  exact ⟨b, hb, mem_accepted.mpr ⟨hm, haccept⟩,
    mem_accepted.mpr ⟨hp.mem_iff.mpr hmb, hbccept⟩, rfl, hseq⟩

lemma Agrees.logFaults_subset (h : Agrees c op receipts) (hp : receipts.Perm receipts') :
    logFaults c op receipts ⊆ logFaults c op receipts' := by
  rintro ⟨kind, seq⟩ hf
  rcases kind_of_mem_logFaults hf with rfl | rfl | rfl
  · obtain ⟨a, ha, b, hb, hrest⟩ := equivocation_mem_logFaults.mp hf
    exact equivocation_mem_logFaults.mpr ⟨a, hp.mem_iff.mp ha, b, hp.mem_iff.mp hb, hrest⟩
  · obtain ⟨a, hrep, rfl, hprev⟩ := badOrigin_mem_logFaults.mp hf
    obtain ⟨b, hrep', ha, hb, hsa, hsb⟩ := exists_representative_of_perm hp hrep
    exact badOrigin_mem_logFaults.mpr
      ⟨b, hrep', rfl, fun hgenesis => hprev ((h.origin a ha b hb hsa hsb).mpr hgenesis)⟩
  · obtain ⟨a, b, hrepa, hrepb, hnext, hprev⟩ := brokenChain_mem_logFaults.mp hf
    obtain ⟨a', hrepa', ha, ha', _, hsa⟩ := exists_representative_of_perm hp hrepa
    obtain ⟨b', hrepb', hb, hb', hsb, hsb'⟩ := exists_representative_of_perm hp hrepb
    rw [← hsa] at hrepa' hnext
    refine brokenChain_mem_logFaults.mpr ⟨a', b', hrepa', hrepb', hnext, ?_⟩
    intro hlink
    rw [hsa, ← hsb] at hnext
    exact hprev ((h.link a ha a' ha' b hb b' hb' hsa.symm (hsb.trans hsb'.symm) hnext).mpr hlink)

lemma Agrees.cover_of_perm (h : Agrees c op receipts) (hp : receipts.Perm receipts')
    {txn : ObservedTransaction} {r : SignedReceipt} (hr : cover c op receipts txn = some r) :
    ∃ r', cover c op receipts' txn = some r' ∧ Covers c op receipts txn r' ∧
      (takenBack c op receipts r = none ↔ takenBack c op receipts' r' = none) := by
  have hcovers := Covers.of_cover hr
  obtain ⟨r', hr'⟩ := (hcovers.perm hp).exists_cover
  have hcovers' := (Covers.of_cover hr').perm hp.symm
  refine ⟨r', hr', hcovers', ?_⟩
  rw [takenBack_eq_none, takenBack_eq_none, h.withdrawn txn r r' hcovers hcovers']
  exact not_congr ⟨TakenBack.perm hp, TakenBack.perm hp.symm⟩

lemma Agrees.accused_of_perm (h : Agrees c op receipts) (hp : receipts.Perm receipts')
    {identity : Bytes 32} {first second : ObservedTransaction} {r s : SignedReceipt}
    (ha : Accused c op receipts identity first second r s) :
    ∃ r' s', Accused c op receipts' identity first second r' s' := by
  obtain ⟨r', hr', hcr', hback₁⟩ := h.cover_of_perm hp ha.covered.1
  obtain ⟨s', hs', hcs', hback₂⟩ := h.cover_of_perm hp ha.covered.2
  refine ⟨r', s', ha.conflict, ⟨hr', hs'⟩,
    ⟨hback₁.mp ha.standing.1, hback₂.mp ha.standing.2⟩, ?_, ha.relayed⟩
  have hcr := Covers.of_cover ha.covered.1
  have hcs := Covers.of_cover ha.covered.2
  by_cases hshared : Covers c op receipts first s
  · -- One set of candidates: both transactions are covered by the same receipt.
    have hsame := (hshared.perm hp).cover_eq (hcs.perm hp)
    rw [hr', hs'] at hsame
    rw [Option.some.inj hsame]
    exact UInt64.le_refl _
  · have horder := h.order first second r r' s s' hcr hcr' hcs hcs' hshared
      (takenBack_eq_none.mp ha.standing.1) (takenBack_eq_none.mp ha.standing.2)
    rw [← UInt64.not_lt, ← horder, UInt64.not_lt]
    exact ha.inverted

lemma Agrees.blockFaults_subset (h : Agrees c op receipts) (hp : receipts.Perm receipts')
    (block : ObservedBlock) (identity : Bytes 32) :
    blockFaults c op receipts block identity ⊆ blockFaults c op receipts' block identity := by
  rintro p ⟨f, hf, rfl⟩
  cases he : block.executedOrder c with
  | none => simp [scanBlock, he, Scan.record] at hf
  | some executed =>
    rcases (mem_faults_scanBlock he).mp hf with ⟨i, txn, hi, hnone, rfl⟩ |
      ⟨i, txn, r, w, hi, hr, hw, rfl⟩ | ⟨i, j, first, second, r, s, hij, hi, hj, ha, rfl⟩
    · have hnone' : cover c op receipts' txn = none := by
        apply Option.eq_none_iff_forall_ne_some.mpr
        intro r hr
        obtain ⟨s, hs⟩ := ((Covers.of_cover hr).perm hp.symm).exists_cover
        rw [hnone] at hs
        cases hs
      exact ⟨_, (mem_faults_scanBlock he).mpr (Or.inl ⟨i, txn, hi, hnone', rfl⟩), rfl⟩
    · obtain ⟨r', hr', _, hback⟩ := h.cover_of_perm hp hr
      obtain ⟨w', hw'⟩ : ∃ w', takenBack c op receipts' r' = some w' := by
        apply Option.ne_none_iff_exists'.mp
        rw [ne_eq, ← hback, hw]
        simp
      exact ⟨_, (mem_faults_scanBlock he).mpr
        (Or.inr (Or.inl ⟨i, txn, r', w', hi, hr', hw', rfl⟩)), rfl⟩
    · obtain ⟨r', s', ha'⟩ := h.accused_of_perm hp ha
      exact ⟨_, (mem_faults_scanBlock he).mpr
        (Or.inr (Or.inr ⟨i, j, first, second, r', s', hij, hi, hj, ha', rfl⟩)), rfl⟩

/-! Two orders that tell disagreeing statements apart. -/

lemma exists_perm_cons_cons {a b : SignedReceipt} (ha : a ∈ receipts) (hb : b ∈ receipts)
    (hne : a ≠ b) : ∃ rest, receipts.Perm (a :: b :: rest) := by
  have hb' : b ∈ receipts.erase a := (List.mem_erase_of_ne (Ne.symm hne)).mpr hb
  exact ⟨_, (List.perm_cons_erase ha).trans ((List.perm_cons_erase hb').cons a)⟩

lemma representative_cons {a : SignedReceipt} (ha : op.accepts c a = .ok ()) :
    representative c op (a :: receipts) a.receipt.seq = some a := by
  simp [representative, ha]

lemma representative_cons_of_ne {a : SignedReceipt} {seq : UInt64} (hne : a.receipt.seq ≠ seq) :
    representative c op (a :: receipts) seq = representative c op receipts seq := by
  simp [representative, hne]

lemma badOrigin_of_front {a : SignedReceipt} (ha : op.accepts c a = .ok ())
    (hseq : a.receipt.seq = 0) :
    (FaultKind.badOrigin, (0 : UInt64)) ∈ logFaults c op (a :: receipts) ↔
      a.receipt.prevReceiptHash ≠ genesisPrevHash := by
  have hrep : representative c op (a :: receipts) 0 = some a := by
    rw [← hseq]
    exact representative_cons ha
  simp [badOrigin_mem_logFaults, hrep]

lemma brokenChain_of_front {a b : SignedReceipt} (ha : op.accepts c a = .ok ())
    (hb : op.accepts c b = .ok ()) (hnext : a.receipt.seq.toNat + 1 = b.receipt.seq.toNat) :
    (FaultKind.brokenChain, b.receipt.seq) ∈ logFaults c op (a :: b :: receipts) ↔
      b.receipt.prevReceiptHash ≠ a.receiptHash c := by
  have hne : a.receipt.seq ≠ b.receipt.seq := fun he => by
    rw [he] at hnext
    omega
  have hrepa : representative c op (a :: b :: receipts) a.receipt.seq = some a :=
    representative_cons ha
  have hrepb : representative c op (a :: b :: receipts) b.receipt.seq = some b := by
    rw [representative_cons_of_ne hne]
    exact representative_cons hb
  rw [brokenChain_mem_logFaults]
  constructor
  · rintro ⟨a', b', hrepa', hrepb', hnext', hprev⟩
    have hsame : a'.receipt.seq = a.receipt.seq := UInt64.toNat_inj.mp (by omega)
    rw [hsame, hrepa] at hrepa'
    rw [hrepb] at hrepb'
    rwa [Option.some.inj hrepa', Option.some.inj hrepb']
  · intro hprev
    exact ⟨a, b, hrepa, hrepb, hnext, hprev⟩

/-- A block that runs the given transactions in the given order. -/
def blockOf (c : Crypto) (txns : List ObservedTransaction) : ObservedBlock where
  slot := 0
  previousBlockhash := zeroHash
  blockhash := fold c zeroHash (signatures txns)
  transactions := txns

lemma executedOrder_blockOf (txns : List ObservedTransaction) :
    (blockOf c txns).executedOrder c = some txns := by
  simp [ObservedBlock.executedOrder, Order.derive, blockOf]

/-- The transaction with its accounts replaced, so that any two of them conflict. -/
def contending (txn : ObservedTransaction) : ObservedTransaction :=
  { txn with feePayer := zeroHash, writable := [zeroHash], readonly := [] }

lemma withdrawn_mem_blockFaults {txn : ObservedTransaction} {r : SignedReceipt}
    {identity : Bytes 32} (hr : cover c op receipts txn = some r) :
    (FaultKind.withdrawnButExecuted, [(0 : UInt32)]) ∈
        blockFaults c op receipts (blockOf c [txn]) identity ↔
      TakenBack c op receipts r := by
  constructor
  · rintro ⟨f, hf, he⟩
    obtain ⟨hkind, _⟩ := Prod.mk.inj he
    rcases (mem_faults_scanBlock (executedOrder_blockOf [txn])).mp hf with ⟨_, _, _, _, rfl⟩ |
      ⟨i, txn', r', w, hi, hr', hw, rfl⟩ | ⟨_, _, _, _, _, _, _, _, _, _, rfl⟩
    · cases hkind
    · obtain rfl : txn' = txn := by simpa using List.mem_of_getElem? hi
      rw [hr] at hr'
      obtain rfl := Option.some.inj hr'
      by_contra hno
      rw [takenBack_eq_none.mpr hno] at hw
      cases hw
    · cases hkind
  · intro hback
    obtain ⟨w, hw⟩ : ∃ w, takenBack c op receipts r = some w := by
      apply Option.ne_none_iff_exists'.mp
      intro hnone
      exact takenBack_eq_none.mp hnone hback
    exact ⟨_, (mem_faults_scanBlock (executedOrder_blockOf [txn])).mpr
      (Or.inr (Or.inl ⟨0, txn, r, w, rfl, hr, hw, rfl⟩)), rfl⟩

lemma reorder_mem_blockFaults {first second : ObservedTransaction} {r s : SignedReceipt}
    (hr : cover c op receipts first = some r) (hs : cover c op receipts second = some s)
    (hback₁ : ¬TakenBack c op receipts r) (hback₂ : ¬TakenBack c op receipts s) :
    (FaultKind.reorder, [(0 : UInt32), 1]) ∈
        blockFaults c op receipts (blockOf c [contending first, contending second])
          (Bytes.fill 32 1) ↔
      ¬r.receipt.seq < s.receipt.seq := by
  have horder := executedOrder_blockOf (c := c) [contending first, contending second]
  constructor
  · rintro ⟨f, hf, he⟩
    obtain ⟨hkind, _⟩ := Prod.mk.inj he
    rcases (mem_faults_scanBlock horder).mp hf with ⟨_, _, _, _, rfl⟩ | ⟨_, _, _, _, _, _, _, rfl⟩ |
      ⟨i, j, first', second', r', s', hij, hi, hj, ha, rfl⟩
    · cases hkind
    · cases hkind
    · have hj2 := (List.getElem?_eq_some_iff.mp hj).1
      simp only [List.length_cons, List.length_nil] at hj2
      obtain ⟨rfl, rfl⟩ : i = 0 ∧ j = 1 := by omega
      obtain rfl := Option.some.inj hi
      obtain rfl := Option.some.inj hj
      have hrr : r' = r := Option.some.inj (ha.covered.1.symm.trans hr)
      have hss : s' = s := Option.some.inj (ha.covered.2.symm.trans hs)
      rw [← hrr, ← hss, UInt64.not_lt]
      exact ha.inverted
  · intro hseq
    have ha : Accused c op receipts (Bytes.fill 32 1) (contending first) (contending second) r s :=
      { conflict := Or.inl ⟨zeroHash, List.mem_singleton_self _, Or.inl (List.mem_singleton_self _)⟩
        covered := ⟨hr, hs⟩
        standing := ⟨takenBack_eq_none.mpr hback₁, takenBack_eq_none.mpr hback₂⟩
        inverted := UInt64.not_lt.mp hseq
        relayed := by
          have hne : ¬zeroHash = Bytes.fill 32 1 := by decide
          exact ⟨hne, hne⟩ }
    exact ⟨_, (mem_faults_scanBlock horder).mpr (Or.inr (Or.inr
      ⟨0, 1, _, _, r, s, Nat.zero_lt_one, rfl, rfl, ha, rfl⟩)), rfl⟩

variable (c op receipts) in
/-- The scans find the same in every order the receipts can arrive in. -/
def OrderFree : Prop :=
  ∀ receipts', receipts.Perm receipts' →
    logFaults c op receipts' = logFaults c op receipts ∧
      ∀ block identity,
        blockFaults c op receipts' block identity = blockFaults c op receipts block identity

lemma Agrees.orderFree (h : Agrees c op receipts) : OrderFree c op receipts := by
  intro receipts' hp
  have h' := h.perm hp
  constructor
  · exact (h'.logFaults_subset hp.symm).antisymm (h.logFaults_subset hp)
  · intro block identity
    exact (h'.blockFaults_subset hp.symm block identity).antisymm
      (h.blockFaults_subset hp block identity)

lemma OrderFree.logFaults_eq (h : OrderFree c op receipts) {l l' : List SignedReceipt}
    (hl : receipts.Perm l) (hl' : receipts.Perm l') : logFaults c op l = logFaults c op l' :=
  (h l hl).1.trans (h l' hl').1.symm

lemma OrderFree.blockFaults_eq (h : OrderFree c op receipts) {l l' : List SignedReceipt}
    (hl : receipts.Perm l) (hl' : receipts.Perm l') (block : ObservedBlock) (identity : Bytes 32) :
    blockFaults c op l block identity = blockFaults c op l' block identity :=
  ((h l hl).2 block identity).trans ((h l' hl').2 block identity).symm

lemma OrderFree.origin (h : OrderFree c op receipts) {a b : SignedReceipt}
    (ha : a ∈ accepted c op receipts) (hb : b ∈ accepted c op receipts)
    (hsa : a.receipt.seq = 0) (hsb : b.receipt.seq = 0) :
    a.receipt.prevReceiptHash = genesisPrevHash ↔ b.receipt.prevReceiptHash = genesisPrevHash := by
  obtain ⟨hma, haccept⟩ := mem_accepted.mp ha
  obtain ⟨hmb, hbccept⟩ := mem_accepted.mp hb
  have hsame := h.logFaults_eq (List.perm_cons_erase hma) (List.perm_cons_erase hmb)
  apply not_iff_not.mp
  rw [← ne_eq, ← badOrigin_of_front haccept hsa, hsame, badOrigin_of_front hbccept hsb]

lemma OrderFree.link (h : OrderFree c op receipts) {a a' b b' : SignedReceipt}
    (ha : a ∈ accepted c op receipts) (ha' : a' ∈ accepted c op receipts)
    (hb : b ∈ accepted c op receipts) (hb' : b' ∈ accepted c op receipts)
    (hsa : a.receipt.seq = a'.receipt.seq) (hsb : b.receipt.seq = b'.receipt.seq)
    (hnext : a.receipt.seq.toNat + 1 = b.receipt.seq.toNat) :
    b.receipt.prevReceiptHash = a.receiptHash c ↔
      b'.receipt.prevReceiptHash = a'.receiptHash c := by
  obtain ⟨hma, haccept⟩ := mem_accepted.mp ha
  obtain ⟨hma', haccept'⟩ := mem_accepted.mp ha'
  obtain ⟨hmb, hbccept⟩ := mem_accepted.mp hb
  obtain ⟨hmb', hbccept'⟩ := mem_accepted.mp hb'
  have hnext' : a'.receipt.seq.toNat + 1 = b'.receipt.seq.toNat := by rwa [← hsa, ← hsb]
  have hne : a ≠ b := by
    rintro rfl
    omega
  have hne' : a' ≠ b' := by
    rintro rfl
    omega
  obtain ⟨rest, hp⟩ := exists_perm_cons_cons hma hmb hne
  obtain ⟨rest', hp'⟩ := exists_perm_cons_cons hma' hmb' hne'
  have hsame := h.logFaults_eq hp hp'
  apply not_iff_not.mp
  rw [← ne_eq, ← brokenChain_of_front haccept hbccept hnext, hsame, hsb,
    brokenChain_of_front haccept' hbccept' hnext']

lemma OrderFree.withdrawn (h : OrderFree c op receipts) {txn : ObservedTransaction}
    {r r' : SignedReceipt} (hr : Covers c op receipts txn r) (hr' : Covers c op receipts txn r') :
    TakenBack c op receipts r ↔ TakenBack c op receipts r' := by
  have hlast {s : SignedReceipt} (hs : Covers c op receipts txn s) :
      ∃ l, receipts.Perm l ∧ cover c op l txn = some s := by
    have hp := (List.perm_cons_erase hs.1).trans (List.perm_append_singleton s _).symm
    exact ⟨_, hp, (hs.perm hp).cover_concat⟩
  obtain ⟨l, hp, hl⟩ := hlast hr
  obtain ⟨l', hp', hl'⟩ := hlast hr'
  have hsame := h.blockFaults_eq hp hp' (blockOf c [txn]) zeroHash
  calc TakenBack c op receipts r
      ↔ TakenBack c op l r := ⟨TakenBack.perm hp, TakenBack.perm hp.symm⟩
    _ ↔ TakenBack c op l' r' := by
        rw [← withdrawn_mem_blockFaults hl, hsame, withdrawn_mem_blockFaults hl']
    _ ↔ TakenBack c op receipts r' := ⟨TakenBack.perm hp'.symm, TakenBack.perm hp'⟩

lemma exists_perm_cover {first second : ObservedTransaction} {r s : SignedReceipt}
    (hr : Covers c op receipts first r) (hs : Covers c op receipts second s)
    (hno : ¬Covers c op receipts first s) :
    ∃ l, receipts.Perm l ∧ cover c op l first = some r ∧ cover c op l second = some s := by
  have hne : r ≠ s := by
    rintro rfl
    exact hno hr
  obtain ⟨rest, hfront⟩ := exists_perm_cons_cons hr.1 hs.1 hne
  have hp : receipts.Perm (rest ++ [r, s]) :=
    hfront.trans (List.perm_append_comm : ([r, s] ++ rest).Perm (rest ++ [r, s]))
  have hlast : Covers c op ((rest ++ [r]) ++ [s]) second s := by simpa using hs.perm hp
  refine ⟨_, hp, ?_, ?_⟩
  · exact cover_concat_of_not_covers (hr.perm hp) fun hc => hno (hc.perm hp.symm)
  · simpa using hlast.cover_concat

lemma OrderFree.order (h : OrderFree c op receipts) {first second : ObservedTransaction}
    {r r' s s' : SignedReceipt} (hr : Covers c op receipts first r)
    (hr' : Covers c op receipts first r') (hs : Covers c op receipts second s)
    (hs' : Covers c op receipts second s') (hno : ¬Covers c op receipts first s)
    (hback₁ : ¬TakenBack c op receipts r) (hback₂ : ¬TakenBack c op receipts s) :
    r.receipt.seq < s.receipt.seq ↔ r'.receipt.seq < s'.receipt.seq := by
  have hback₁' : ¬TakenBack c op receipts r' := fun hb => hback₁ ((h.withdrawn hr hr').mpr hb)
  have hback₂' : ¬TakenBack c op receipts s' := fun hb => hback₂ ((h.withdrawn hs hs').mpr hb)
  have hno' : ¬Covers c op receipts first s' := fun hshared => hno (hshared.of_shared hs' hs)
  obtain ⟨l, hp, hl₁, hl₂⟩ := exists_perm_cover hr hs hno
  obtain ⟨l', hp', hl₁', hl₂'⟩ := exists_perm_cover hr' hs' hno'
  have hsame := h.blockFaults_eq hp hp' (blockOf c [contending first, contending second])
    (Bytes.fill 32 1)
  apply not_iff_not.mp
  rw [← reorder_mem_blockFaults hl₁ hl₂ (fun hb => hback₁ (hb.perm hp.symm))
      (fun hb => hback₂ (hb.perm hp.symm)), hsame,
    reorder_mem_blockFaults hl₁' hl₂' (fun hb => hback₁' (hb.perm hp'.symm))
      (fun hb => hback₂' (hb.perm hp'.symm))]

/-- Arrival order carries no meaning exactly when repeated statements agree where the
scans look. -/
theorem orderFree_iff_agrees : OrderFree c op receipts ↔ Agrees c op receipts := by
  constructor
  · intro h
    exact
      { origin := fun a ha b hb => h.origin ha hb
        link := fun a ha a' ha' b hb b' hb' => h.link ha ha' hb hb'
        withdrawn := fun txn r r' => h.withdrawn
        order := fun first second r r' s s' => h.order }
  · exact Agrees.orderFree

end Order

namespace Vectors

/-- Two statements for position zero and a successor of the first of them. -/
def rivalLog : List SignedReceipt :=
  [Receipts.Vectors.plainGenesis, Receipts.Vectors.plainRival, Receipts.Vectors.commitChained]

def rivalLogSwapped : List SignedReceipt :=
  [Receipts.Vectors.plainRival, Receipts.Vectors.plainGenesis, Receipts.Vectors.commitChained]

def rivalCrypto : Crypto :=
  recorded Receipts.Vectors.operatorSeed Receipts.Vectors.operatorPubkey
    (rivalLog.map fun s => (s.message, s.signature))
    ((Receipts.Vectors.log.map SignedReceipt.toBytes).zip Receipts.Vectors.hashes ++
      [(Receipts.Vectors.plainRival.toBytes, Bytes.hex 32
        0xa19453e61fac38cd88a869c77982ce78db4cc88c3ca9c651fa26534067876503)]) []

lemma rivalLog_evaluates :
    representative rivalCrypto operator rivalLog 0 = some Receipts.Vectors.plainGenesis ∧
      representative rivalCrypto operator rivalLog 1 = some Receipts.Vectors.commitChained ∧
      Receipts.Vectors.commitChained.receipt.prevReceiptHash =
        Receipts.Vectors.plainGenesis.receiptHash rivalCrypto ∧
      representative rivalCrypto operator rivalLogSwapped 0 = some Receipts.Vectors.plainRival ∧
      representative rivalCrypto operator rivalLogSwapped 1 =
        some Receipts.Vectors.commitChained ∧
      Receipts.Vectors.commitChained.receipt.prevReceiptHash ≠
        Receipts.Vectors.plainRival.receiptHash rivalCrypto := by
  decide +kernel

end Vectors

/-- The same three receipts show a broken chain at position one or show none,
depending on which of the two rivals arrived first. -/
theorem arrival_order_changes_accusation :
    Vectors.rivalLog.Perm Vectors.rivalLogSwapped ∧
      (FaultKind.brokenChain, (1 : UInt64)) ∉
        logFaults Vectors.rivalCrypto Vectors.operator Vectors.rivalLog ∧
      (FaultKind.brokenChain, (1 : UInt64)) ∈
        logFaults Vectors.rivalCrypto Vectors.operator Vectors.rivalLogSwapped := by
  obtain ⟨h0, h1, hlink, h0', h1', hlink'⟩ := Vectors.rivalLog_evaluates
  refine ⟨List.Perm.swap _ _ _, ?_, ?_⟩
  · intro hf
    obtain ⟨a, b, hrepa, hrepb, hnext, hprev⟩ := brokenChain_mem_logFaults.mp hf
    have hseq : a.receipt.seq = 0 := UInt64.toNat_inj.mp (Nat.succ.inj hnext)
    rw [hseq, h0] at hrepa
    rw [h1] at hrepb
    rw [← Option.some.inj hrepa, ← Option.some.inj hrepb] at hprev
    exact hprev hlink
  · exact brokenChain_mem_logFaults.mpr
      ⟨Receipts.Vectors.plainRival, Receipts.Vectors.commitChained, h0', h1', rfl, hlink'⟩

end Blitz.Watchtower
