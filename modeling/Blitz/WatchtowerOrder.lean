import Blitz.WatchtowerFaultKinds

/-! The order a block's hash tells, and which pairs of a block the scan accuses. -/
namespace Blitz.Watchtower
open ByteLayout LittleEndian Receipts LatestIndex

section Order
variable {c : Crypto} {block : ObservedBlock} {executed : List ObservedTransaction}

/-- The string a block's hash is taken over. -/
def hashed (previous : Bytes 32) (signatures : List (Bytes 64)) : List UInt8 :=
  previous.val ++ signatures.flatMap Subtype.val

lemma hashed_injective (previous : Bytes 32) : Function.Injective (hashed previous) := by
  intro xs ys h
  exact flatMap_inj_of_length Subtype.val_injective (by decide) (fun s => s.property)
    (List.append_cancel_left h)

lemma signatures_reverse (txns : List ObservedTransaction) :
    signatures txns.reverse = (signatures txns).reverse := by
  simp [signatures]

lemma executedOrder_eq_none : block.executedOrder c = none ↔
    fold c block.previousBlockhash (signatures block.transactions) ≠ block.blockhash ∧
      fold c block.previousBlockhash (signatures block.transactions).reverse ≠
        block.blockhash := by
  unfold ObservedBlock.executedOrder Order.derive
  dsimp only
  split_ifs with hforward hbackward
  · simp [hforward]
  · simp [hbackward]
  · simp [hforward, hbackward]

/-- A block's hash over the executed signatures gives back their order from either
direction of the report, and refuses every other report. -/
theorem executedOrder_recovers
    (hhash : block.blockhash = fold c block.previousBlockhash (signatures executed))
    (hblake3 : Set.InjOn c.blake3 (hashed block.previousBlockhash ''
      {signatures executed, signatures block.transactions,
        (signatures block.transactions).reverse})) :
    (signatures block.transactions = signatures executed ∨
        signatures block.transactions = (signatures executed).reverse →
      ∃ arranged, block.executedOrder c = some arranged ∧
        (arranged = block.transactions ∨ arranged = block.transactions.reverse) ∧
        signatures arranged = signatures executed) ∧
      (signatures block.transactions ≠ signatures executed →
        signatures block.transactions ≠ (signatures executed).reverse →
        block.executedOrder c = none) := by
  have hrecovered {arranged : List ObservedTransaction}
      (h : block.executedOrder c = some arranged) : signatures arranged = signatures executed := by
    have hfold := (fold_executedOrder h).trans hhash
    apply hashed_injective block.previousBlockhash
    refine hblake3 (Set.mem_image_of_mem _ ?_) (Set.mem_image_of_mem _ (by simp)) hfold
    rcases executedOrder_arranges h with rfl | rfl
    · simp
    · simp [signatures_reverse]
  constructor
  · intro hreported
    have hsome : block.executedOrder c ≠ none := by
      rw [Ne, executedOrder_eq_none, hhash]
      rcases hreported with h | h
      · simp [h]
      · simp [h]
    obtain ⟨arranged, h⟩ := Option.ne_none_iff_exists'.mp hsome
    exact ⟨arranged, h, executedOrder_arranges h, hrecovered h⟩
  · intro hforward hbackward
    by_contra hsome
    obtain ⟨arranged, h⟩ := Option.ne_none_iff_exists'.mp hsome
    have hsame := hrecovered h
    rcases executedOrder_arranges h with rfl | rfl
    · exact hforward hsame
    · rw [signatures_reverse] at hsame
      exact hbackward (by rw [← hsame, List.reverse_reverse])

end Order

namespace Vectors

/-- The block as a node reports it, newest first. -/
def reversedReport : ObservedBlock :=
  { invertedBlock with transactions := [plainTxn, commitTxn] }

end Vectors

theorem executedOrder_recovers_reversed :
    ∃ arranged, Vectors.reversedReport.executedOrder Vectors.blockCrypto = some arranged ∧
      (arranged = Vectors.reversedReport.transactions ∨
        arranged = Vectors.reversedReport.transactions.reverse) ∧
      signatures arranged = signatures [Vectors.commitTxn, Vectors.plainTxn] := by
  have hevaluates : Vectors.reversedReport.blockhash = fold Vectors.blockCrypto
        Vectors.reversedReport.previousBlockhash
        (signatures [Vectors.commitTxn, Vectors.plainTxn]) ∧
      ∀ xs ∈ [signatures [Vectors.commitTxn, Vectors.plainTxn],
          signatures [Vectors.plainTxn, Vectors.commitTxn]],
        ∀ ys ∈ [signatures [Vectors.commitTxn, Vectors.plainTxn],
            signatures [Vectors.plainTxn, Vectors.commitTxn]],
          Vectors.blockCrypto.blake3 (hashed Vectors.reversedReport.previousBlockhash xs) =
            Vectors.blockCrypto.blake3 (hashed Vectors.reversedReport.previousBlockhash ys) →
          xs = ys := by
    decide +kernel
  refine (executedOrder_recovers hevaluates.1 ?_).1 (.inr rfl)
  rintro _ ⟨xs, hxs, rfl⟩ _ ⟨ys, hys, rfl⟩ he
  have hlisted {zs : List (Bytes 64)} (hzs : zs ∈ ({signatures [Vectors.commitTxn, Vectors.plainTxn],
      signatures Vectors.reversedReport.transactions,
      (signatures Vectors.reversedReport.transactions).reverse} : Set (List (Bytes 64)))) :
      zs ∈ [signatures [Vectors.commitTxn, Vectors.plainTxn],
        signatures [Vectors.plainTxn, Vectors.commitTxn]] := by
    rcases hzs with rfl | rfl | rfl
    · exact List.mem_cons_self
    · exact List.mem_cons_of_mem _ List.mem_cons_self
    · exact List.mem_cons_self
  rw [hevaluates.2 xs (hlisted hxs) ys (hlisted hys) he]

section Pairs
variable {α : Type*} {l : List α}

/-- What a loop over a list visits with an inner loop over the rest. -/
def laterPairs (l : List α) : List ((α × ℕ) × α × ℕ) :=
  l.zipIdx.flatMap fun first => (l.zipIdx.drop (first.2 + 1)).map (Prod.mk first)

lemma mem_laterPairs {a b : α} {i j : ℕ} :
    ((a, i), b, j) ∈ laterPairs l ↔ i < j ∧ l[i]? = some a ∧ l[j]? = some b := by
  simp only [laterPairs, List.mem_flatMap, List.mem_map, Prod.mk.injEq, Prod.exists,
    List.mem_zipIdx_iff_getElem?, mem_drop_zipIdx]
  constructor
  · rintro ⟨_, _, ha, _, _, ⟨hij, hb⟩, ⟨rfl, rfl⟩, rfl, rfl⟩
    exact ⟨hij, ha, hb⟩
  · rintro ⟨hij, ha, hb⟩
    exact ⟨a, i, ha, b, j, ⟨hij, hb⟩, ⟨rfl, rfl⟩, rfl, rfl⟩

lemma nodup_laterPairs : (laterPairs l).Nodup := by
  have hnodup : l.zipIdx.Nodup := (List.nodup_zipIdx_map_snd l).of_map _
  rw [laterPairs, List.nodup_flatMap]
  constructor
  · intro first _
    exact (hnodup.sublist (List.drop_sublist _ _)).map (Prod.mk_right_injective first)
  · refine hnodup.imp fun hne => ?_
    rw [Function.onFun, List.disjoint_left]
    intro pair hfirst hsecond
    obtain ⟨_, _, rfl⟩ := List.mem_map.mp hfirst
    obtain ⟨_, _, he⟩ := List.mem_map.mp hsecond
    exact hne (Prod.mk.inj he).1.symm

end Pairs

lemma conflicts_iff {a b : ObservedTransaction} :
    conflicts a b ↔ ∃ key, (key ∈ a.writable ∨ key ∈ a.readonly) ∧
      (key ∈ b.writable ∨ key ∈ b.readonly) ∧ (key ∈ a.writable ∨ key ∈ b.writable) := by
  unfold conflicts touches
  constructor
  · rintro (⟨key, hwritten, htouched⟩ | ⟨key, hwritten, htouched⟩)
    · exact ⟨key, htouched, .inl hwritten, .inr hwritten⟩
    · exact ⟨key, .inl hwritten, htouched, .inl hwritten⟩
  · rintro ⟨key, ha, hb, hwritten | hwritten⟩
    · exact .inr ⟨key, hwritten, hb⟩
    · exact .inl ⟨key, hwritten, ha⟩

lemma conflicts_comm {a b : ObservedTransaction} : conflicts a b ↔ conflicts b a := or_comm

/-- A part of a reorder fault is about the transaction executed at `i`. -/
def ReorderedTransaction.IsOf (index : ReceiptIndex) (txn : ObservedTransaction) (i : ℕ)
    (t : ReorderedTransaction) : Prop :=
  index.find txn = some t.receipt ∧ t.wireBytes = txn.wireBytes ∧ t.index = UInt32.ofNat i

instance (index : ReceiptIndex) (txn : ObservedTransaction) (i : ℕ) (t : ReorderedTransaction) :
    Decidable (t.IsOf index txn i) :=
  inferInstanceAs (Decidable (_ ∧ _ ∧ _))

/-- A reorder fault about the transactions executed at `i` and at `j`, the one at `i`
having jumped. -/
def Fault.IsReorderOf (index : ReceiptIndex) (first : ObservedTransaction) (i : ℕ)
    (second : ObservedTransaction) (j : ℕ) : Fault → Prop
  | .reorder _ _ _ _ jumped delayed => jumped.IsOf index first i ∧ delayed.IsOf index second j
  | _ => False

instance (index : ReceiptIndex) (first : ObservedTransaction) (i : ℕ)
    (second : ObservedTransaction) (j : ℕ) :
    DecidablePred (Fault.IsReorderOf index first i second j)
  | .reorder _ _ _ _ _ _ => inferInstanceAs (Decidable (_ ∧ _))
  | .equivocation .. | .brokenChain .. | .badOrigin .. | .unticketed .. | .withheld ..
  | .withdrawnButExecuted .. | .absent .. | .notRevealed .. | .impossibleIngress .. =>
    inferInstanceAs (Decidable False)

lemma Fault.IsReorderOf.kind {index : ReceiptIndex} {first second : ObservedTransaction} {i j : ℕ}
    {f : Fault} (h : f.IsReorderOf index first i second j) : f.kind = .reorder := by
  cases f <;> first | rfl | exact h.elim

/-- `first` ran before `second` against the order of their standing receipts, they
share an account that one of them writes, and neither is the validator's own. -/
structure Inverted (c : Crypto) (index : ReceiptIndex) (identity : Bytes 32)
    (first second : ObservedTransaction) : Prop where
  shared : ∃ key, (key ∈ first.writable ∨ key ∈ first.readonly) ∧
    (key ∈ second.writable ∨ key ∈ second.readonly) ∧
    (key ∈ first.writable ∨ key ∈ second.writable)
  relayed : first.feePayer ≠ identity ∧ second.feePayer ≠ identity
  receipts : ∃ r s, index.find first = some r ∧ index.find second = some s ∧
    index.withdrawal c r = none ∧ index.withdrawal c s = none ∧ s.receipt.seq < r.receipt.seq

section Reorders
variable {c : Crypto} {op : Operator} {list : List SignedReceipt} {block : ObservedBlock}
  {identity : Bytes 32} {executed : List ObservedTransaction}

lemma cover_separates {first second : ObservedTransaction} {r : SignedReceipt}
    (hfirst : cover c op list first = some r) (hsecond : cover c op list second = some r) :
    first.signature = second.signature ∨ first.txHash = second.txHash := by
  obtain ⟨_, _, ⟨hm, hsig⟩ | ⟨hm, hhash⟩⟩ := cover_mem hfirst <;>
    obtain ⟨_, _, ⟨hm', hsig'⟩ | ⟨hm', hhash'⟩⟩ := cover_mem hsecond
  · exact .inl (hsig.symm.trans hsig')
  · rw [hm] at hm'
    cases hm'
  · rw [hm] at hm'
    cases hm'
  · exact .inr (hhash.symm.trans hhash')

lemma position_unique (hsig : (executed.map (·.signature)).Nodup)
    (hhash : (executed.map (·.txHash)).Nodup) {i j : ℕ} {first second : ObservedTransaction}
    {r : SignedReceipt} (hi : executed[i]? = some first) (hj : executed[j]? = some second)
    (hfirst : cover c op list first = some r) (hsecond : cover c op list second = some r) :
    i = j := by
  have hlen := (List.getElem?_eq_some_iff.mp hi).1
  rcases cover_separates hfirst hsecond with he | he
  · refine (List.getElem?_inj (by simpa using hlen) hsig).mp ?_
    simp [hi, hj, he]
  · refine (List.getElem?_inj (by simpa using hlen) hhash).mp ?_
    simp [hi, hj, he]

lemma exists_accused_iff
    (hseq : ∀ a ∈ list, ∀ b ∈ list, op.accepts c a = .ok () → op.accepts c b = .ok () →
      a.receipt.seq = b.receipt.seq → a = b)
    {first second : ObservedTransaction}
    (hapart : ∀ r, cover c op list first = some r → cover c op list second ≠ some r) :
    (∃ r s, Accused c op list identity first second r s) ↔
      Inverted c (ReceiptIndex.build c list op) identity first second := by
  constructor
  · rintro ⟨r, s, ha⟩
    obtain ⟨hr, hs⟩ := ha.covered
    have hne : s.receipt.seq ≠ r.receipt.seq := by
      obtain ⟨hmr, har, _⟩ := cover_mem hr
      obtain ⟨hms, has, _⟩ := cover_mem hs
      intro he
      obtain rfl := hseq s hms r hmr has har he
      exact hapart s hr hs
    refine ⟨conflicts_iff.mp ha.conflict, ha.relayed, r, s, ?_⟩
    simp only [find_build, withdrawal_build]
    exact ⟨hr, hs, ha.standing.1, ha.standing.2, UInt64.lt_of_le_of_ne ha.inverted hne⟩
  · rintro ⟨hshared, hrelayed, r, s, h⟩
    simp only [find_build, withdrawal_build] at h
    obtain ⟨hr, hs, hback, hback', hlt⟩ := h
    exact ⟨r, s, conflicts_iff.mpr hshared, ⟨hr, hs⟩, ⟨hback, hback'⟩, UInt64.le_of_lt hlt, hrelayed⟩

lemma Accused.isReorderOf {first second : ObservedTransaction} {r s : SignedReceipt}
    (h : Accused c op list identity first second r s) (i j : ℕ) :
    (Fault.reorder block.slot block.previousBlockhash block.blockhash (signatures executed)
      ⟨r, first.wireBytes, UInt32.ofNat i⟩ ⟨s, second.wireBytes, UInt32.ofNat j⟩).IsReorderOf
        (ReceiptIndex.build c list op) first i second j := by
  obtain ⟨hr, hs⟩ := h.covered
  rw [← find_build] at hr hs
  exact ⟨⟨hr, rfl, rfl⟩, hs, rfl, rfl⟩

variable (c block) in
/-- One turn of the inner loop. -/
def pairVerdict (index : ReceiptIndex) (op : Operator) (identity : Bytes 32)
    (pair : (ObservedTransaction × ℕ) × ObservedTransaction × ℕ) : Verdict :=
  checkPair c block index (UInt32.ofNat pair.1.2) pair.1.1 (UInt32.ofNat pair.2.2) pair.2.1 op
    identity

lemma accuses_iff {v : Verdict} {p : Fault → Bool} :
    v.accusation.any p = true ↔ ∃ f, v = .fault f ∧ p f = true := by
  cases v <;> simp [Verdict.accusation]

lemma countP_faults_recordAll (vs : List Verdict) (p : Fault → Bool) :
    (Scan.recordAll {} vs).faults.countP p = vs.countP fun v => v.accusation.any p := by
  rw [Scan.faults_recordAll, List.nil_append, List.countP_filterMap]
  congr 1
  funext v
  cases v.accusation <;> rfl

lemma countP_scanBlock (h : block.executedOrder c = some executed) {p : Fault → Bool}
    (hp : ∀ f, p f = true → f.kind = .reorder) :
    (scanBlock c block (ReceiptIndex.build c list op) op identity).faults.countP p =
      (laterPairs executed).countP fun pair =>
        (pairVerdict c block (ReceiptIndex.build c list op) op identity pair).accusation.any p := by
  have hverdicts : blockVerdicts c block (ReceiptIndex.build c list op) op identity executed =
      (executed.zipIdx.map fun entry => checkTicketIsLive c block (ReceiptIndex.build c list op)
        (UInt32.ofNat entry.2) entry.1 executed) ++
        (laterPairs executed).map
          (pairVerdict c block (ReceiptIndex.build c list op) op identity) := by
    rw [laterPairs, List.map_flatMap]
    simp only [List.map_map]
    rfl
  -- The first loop accuses of missing and withdrawn tickets only.
  have htickets : (executed.zipIdx.map fun entry => checkTicketIsLive c block
      (ReceiptIndex.build c list op) (UInt32.ofNat entry.2) entry.1 executed).countP
        (fun v => v.accusation.any p) = 0 := by
    rw [List.countP_eq_zero]
    intro v hv haccuses
    obtain ⟨entry, _, rfl⟩ := List.mem_map.mp hv
    obtain ⟨f, hf, hpf⟩ := accuses_iff.mp haccuses
    have hkind := hp f hpf
    rcases checkTicketIsLive_eq_fault.mp hf with ⟨_, rfl⟩ | ⟨r, w, _, _, rfl⟩ <;> cases hkind
  rw [scanBlock_eq h, countP_faults_recordAll, hverdicts, List.countP_append, htickets,
    Nat.zero_add, List.countP_map]
  rfl

variable (identity) in
lemma pairVerdict_reports (h : block.executedOrder c = some executed)
    (hsig : (executed.map (·.signature)).Nodup) (hhash : (executed.map (·.txHash)).Nodup)
    (hseq : ∀ a ∈ list, ∀ b ∈ list, op.accepts c a = .ok () → op.accepts c b = .ok () →
      a.receipt.seq = b.receipt.seq → a = b)
    {i j : ℕ} {first second : ObservedTransaction} (hij : i < j)
    (hi : executed[i]? = some first) (hj : executed[j]? = some second)
    {pair : (ObservedTransaction × ℕ) × ObservedTransaction × ℕ}
    (hpair : pair ∈ laterPairs executed) :
    (∃ f, pairVerdict c block (ReceiptIndex.build c list op) op identity pair = .fault f ∧
        f.IsReorderOf (ReceiptIndex.build c list op) first i second j) ↔
      pair = ((first, i), second, j) ∧
        Inverted c (ReceiptIndex.build c list op) identity first second := by
  obtain ⟨⟨first', i'⟩, second', j'⟩ := pair
  obtain ⟨hij', hi', hj'⟩ := mem_laterPairs.mp hpair
  have hapart (r : SignedReceipt) (hr : cover c op list first = some r) :
      cover c op list second ≠ some r :=
    fun hs => hij.ne (position_unique hsig hhash hi hj hr hs)
  rw [← exists_accused_iff hseq hapart]
  constructor
  · rintro ⟨f, hf, hof⟩
    obtain ⟨r, s, haccused, rfl⟩ := (checkPair_eq_fault h).mp hf
    obtain ⟨⟨hfirst, _, _⟩, hsecond, _, _⟩ := hof
    rw [find_build] at hfirst hsecond
    obtain rfl := position_unique hsig hhash hi' hi haccused.covered.1 hfirst
    obtain rfl := position_unique hsig hhash hj' hj haccused.covered.2 hsecond
    obtain rfl := Option.some.inj (hi'.symm.trans hi)
    obtain rfl := Option.some.inj (hj'.symm.trans hj)
    exact ⟨rfl, r, s, haccused⟩
  · rintro ⟨he, r, s, haccused⟩
    obtain ⟨⟨rfl, rfl⟩, rfl, rfl⟩ : (first' = first ∧ i' = i) ∧ second' = second ∧ j' = j := by
      simpa using he
    exact ⟨_, (checkPair_eq_fault h).mpr ⟨r, s, haccused, rfl⟩, haccused.isReorderOf i' j'⟩

/-- The reorder faults of a block whose transactions differ are its inverted pairs, one
fault for each, with the transaction that ran first as the one that jumped. -/
theorem reorders_exact (h : block.executedOrder c = some executed)
    (hsig : (block.transactions.map (·.signature)).Nodup)
    (hhash : (block.transactions.map (·.txHash)).Nodup)
    (hseq : ∀ a ∈ list, ∀ b ∈ list, op.accepts c a = .ok () → op.accepts c b = .ok () →
      a.receipt.seq = b.receipt.seq → a = b) :
    (∀ i j first second, i < j → executed[i]? = some first → executed[j]? = some second →
      (Inverted c (ReceiptIndex.build c list op) identity first second →
        (scanBlock c block (ReceiptIndex.build c list op) op identity).faults.countP
          (Fault.IsReorderOf (ReceiptIndex.build c list op) first i second j) = 1) ∧
      (¬Inverted c (ReceiptIndex.build c list op) identity first second →
        (scanBlock c block (ReceiptIndex.build c list op) op identity).faults.countP
          (Fault.IsReorderOf (ReceiptIndex.build c list op) first i second j) = 0)) ∧
      (∀ f ∈ (scanBlock c block (ReceiptIndex.build c list op) op identity).faults,
        f.kind = .reorder → ∃ i j first second, i < j ∧ executed[i]? = some first ∧
          executed[j]? = some second ∧
          f.IsReorderOf (ReceiptIndex.build c list op) first i second j) ∧
      ∀ first second, conflicts first second ↔ conflicts second first := by
  have hperm := executedOrder_perm h
  have hsig := ((hperm.map (·.signature)).nodup_iff).mpr hsig
  have hhash := ((hperm.map (·.txHash)).nodup_iff).mpr hhash
  refine ⟨fun i j first second hij hi hj => ?_, fun f hf hkind => ?_,
    fun first second => conflicts_comm⟩
  · have haccuses (pair) (hpair : pair ∈ laterPairs executed) :=
      accuses_iff.trans ((exists_congr fun f => and_congr_right fun _ => decide_eq_true_iff).trans
        (pairVerdict_reports identity h hsig hhash hseq hij hi hj hpair))
    rw [countP_scanBlock h fun f hf => Fault.IsReorderOf.kind (of_decide_eq_true hf)]
    constructor
    · intro hinverted
      have hone : (laterPairs executed).count ((first, i), second, j) = 1 :=
        List.count_eq_one_of_mem nodup_laterPairs (mem_laterPairs.mpr ⟨hij, hi, hj⟩)
      rw [← hone]
      refine List.countP_congr fun pair hpair => (haccuses pair hpair).trans ?_
      rw [beq_iff_eq]
      exact and_iff_left hinverted
    · intro hnot
      rw [List.countP_eq_zero]
      intro pair hpair hfault
      exact hnot ((haccuses pair hpair).mp hfault).2
  · rcases (mem_faults_scanBlock h).mp hf with ⟨i, txn, _, _, rfl⟩ | ⟨i, txn, r, w, _, _, _, rfl⟩ |
      ⟨i, j, first, second, r, s, hij, hi, hj, haccused, rfl⟩
    · cases hkind
    · cases hkind
    · exact ⟨i, j, first, second, hij, hi, hj, haccused.isReorderOf i j⟩

end Reorders

theorem reorders_exact_inverted :
    (scanBlock Vectors.runCrypto Vectors.invertedBlock
      (ReceiptIndex.build Vectors.runCrypto Vectors.plainPair Vectors.operator) Vectors.operator
      Vectors.identity).faults.countP (Fault.IsReorderOf
        (ReceiptIndex.build Vectors.runCrypto Vectors.plainPair Vectors.operator)
        Vectors.commitTxn 0 Vectors.plainTxn 1) = 1 := by
  have horder : Vectors.invertedBlock.executedOrder Vectors.runCrypto =
      some [Vectors.commitTxn, Vectors.plainTxn] := by
    decide +kernel
  have hseq : ∀ a ∈ Vectors.plainPair, ∀ b ∈ Vectors.plainPair,
      Vectors.operator.accepts Vectors.runCrypto a = .ok () →
      Vectors.operator.accepts Vectors.runCrypto b = .ok () →
      a.receipt.seq = b.receipt.seq → a = b := by
    decide +kernel
  have hinverted : Inverted Vectors.runCrypto
      (ReceiptIndex.build Vectors.runCrypto Vectors.plainPair Vectors.operator) Vectors.identity
      Vectors.commitTxn Vectors.plainTxn :=
    { shared := conflicts_iff.mp Vectors.conflict_pair
      relayed := ⟨Vectors.promised_second.client, Vectors.promised_plain.client⟩
      receipts := ⟨Vectors.plainSecond, Receipts.Vectors.plainGenesis,
        Vectors.promised_second.covered, Vectors.promised_plain.covered,
        Vectors.promised_second.standing, Vectors.promised_plain.standing, by decide⟩ }
  exact ((reorders_exact horder (by decide) (by decide) hseq).1 0 1 _ _ (by decide) rfl rfl).1
    hinverted

end Blitz.Watchtower
