import Blitz.SchedulerStream
import Blitz.WatchtowerParse

/-! The rows of a primary's ledger: what its executors have finished, at the positions it was
started at. A watchtower reads the order of a block back from them, and the node itself takes
up its slot from them. -/
namespace Blitz.Scheduler
open LittleEndian Receipts Solana Validator Watchtower Replication

namespace Node
variable {x : Setup} {n n' start : Node} {e : ExecutorId} {t : List (Traces.Entry Node Event)}
  {txn : ProcessableTransaction} {out : Outside} {slot : UInt64}

lemma Sound.working_mem_dispatched (h : n.Sound x) {txn : IndexedTransaction}
    (hworking : n.working e = some txn) : txn ∈ n.history.dispatched := by
  obtain ⟨⟨held, hplaced⟩, haccounted⟩ := h
  have hsome : (n.working e).isSome := Option.isSome_iff_exists.mpr ⟨txn, hworking⟩
  have he : e < n.coordinator.count := ((hplaced.busy_iff e).mp (.inr (.inl hsome))).1
  have hrunning : txn ∈ n.running := WorkerPool.mem_pool.mpr ⟨e, he, by simp [hworking]⟩
  rw [← Multiset.mem_coe, haccounted.dispatched]
  exact Multiset.mem_add.mpr (.inl (Multiset.mem_add.mpr (.inr hrunning)))

lemma mem_executedIn {txn : IndexedTransaction} :
    txn ∈ n.executedIn slot ↔
      txn ∈ n.history.dispatched ∧ txn.txn.mode = .execution ∧ txn.slot = slot := by
  simp [executedIn]

lemma Chained.index_injOn (h : Chained x start n) (hfits : Fits n) {txn txn' : IndexedTransaction}
    (hmem : txn ∈ n.executedIn slot) (hmem' : txn' ∈ n.executedIn slot)
    (hindex : txn.index = txn'.index) : txn = txn' := by
  have hnodup : ((n.executedIn slot).map IndexedTransaction.index).Nodup := by
    rw [h.numbered]
    refine List.Nodup.map_on ?_ List.nodup_range
    intro i hi j hj heq
    have hlt := hfits slot
    rw [List.mem_range] at hi hj
    rw [← UInt32.toNat_ofNat_of_lt' (show i < 2 ^ 32 by omega),
      ← UInt32.toNat_ofNat_of_lt' (show j < 2 ^ 32 by omega), heq]
  exact List.inj_on_of_nodup_map hnodup hmem hmem' hindex

/-- Executed in a slot, and as much of it put in the ledger as `P` asks for. -/
def PutIn (n : Node) (P : Filing → Prop) (slot : UInt64) (txn : IndexedTransaction) : Prop :=
  (∃ d ∈ n.history.done, d.1 = txn ∧ P d.2) ∧ txn.txn.mode = .execution ∧ txn.slot = slot

instance {P : Filing → Prop} [DecidablePred P] (n : Node) (slot : UInt64) :
    DecidablePred (n.PutIn P slot) :=
  fun _ => inferInstanceAs (Decidable (_ ∧ _))

lemma Sound.mem_executedIn {P : Filing → Prop} (h : n.Sound x) {txn : IndexedTransaction}
    (hput : n.PutIn P slot txn) : txn ∈ n.executedIn slot := by
  obtain ⟨⟨d, hdone, rfl, -⟩, hkind⟩ := hput
  have hfinished : d.1 ∈ n.history.finished := List.mem_map_of_mem hdone
  exact Node.mem_executedIn.mpr ⟨h.2.mem_dispatched hfinished, hkind⟩

lemma putIn_finish {P : Filing → Prop} {txn txn' : IndexedTransaction} {failed : Bool}
    {filing : Filing} : (n.finish x e failed filing txn).PutIn P slot txn' ↔ n.PutIn P slot txn' ∨
      txn' = txn ∧ P filing ∧ txn.txn.mode = .execution ∧ txn.slot = slot := by
  simp only [PutIn, Node.finish, List.mem_append, List.mem_singleton]
  constructor
  · rintro ⟨⟨d, hmem | rfl, rfl, hP⟩, hkind⟩
    · exact .inl ⟨⟨d, hmem, rfl, hP⟩, hkind⟩
    · exact .inr ⟨rfl, hP, hkind⟩
  · rintro (⟨⟨d, hmem, rfl, hP⟩, hkind⟩ | ⟨rfl, hP, hkind⟩)
    · exact ⟨⟨d, .inl hmem, rfl, hP⟩, hkind⟩
    · exact ⟨⟨_, .inr rfl, rfl, hP⟩, hkind⟩

/-- The rows of the slots since the node started, whichever writes have failed. -/
structure Recorded (x : Setup) (start n : Node) : Prop where
  rows : ∀ slot, start.slot ≤ slot → ∀ index signature,
    (n.ledger.slotSignatures slot)[index]? = some signature ↔
      ∃ txn, n.PutIn (· ≠ .nothing) slot txn ∧ txn.index = index ∧
        txn.txn.transaction.signature = signature
  bytes : ∀ slot txn, n.PutIn (· = .whole) slot txn → ∃ txn', n.PutIn (· = .whole) slot txn' ∧
    txn'.txn.transaction.signature = txn.txn.transaction.signature ∧
    n.ledger.transaction txn.txn.transaction.signature slot =
      some (txn'.txn.encoded.getD (x.bincode.serialize txn'.txn.transaction.versioned)) ∧
    n.ledger.hasStatus txn.txn.transaction.signature slot = true

namespace Recorded

lemma frame (h : Recorded x start n)
    (hsignatures : n'.ledger.slotSignatures = n.ledger.slotSignatures)
    (htransaction : n'.ledger.transaction = n.ledger.transaction)
    (hstatus : n'.ledger.hasStatus = n.ledger.hasStatus)
    (hdone : n'.history.done = n.history.done) : Recorded x start n' := by
  have hsame : n'.PutIn = n.PutIn := by
    funext P slot txn
    rw [PutIn, PutIn, hdone]
  constructor
  · rw [hsignatures, hsame]
    exact h.rows
  · rw [htransaction, hstatus, hsame]
    exact h.bytes

lemma of_same (h : Recorded x start n) (hsame : SameBooks n n') : Recorded x start n' :=
  h.frame (by rw [hsame.ledger]) (by rw [hsame.ledger]) (by rw [hsame.ledger]) hsame.done

lemma rows_finish {txn : IndexedTransaction} {failed : Bool} {filing : Filing}
    (h : Recorded x start n) (hsound : n.Sound x) (hchained : Chained x start n) (hfits : Fits n)
    (hmode : txn.txn.mode = .execution) (hworking : n.working e = some txn)
    (hput : filing ≠ .nothing) (hlow : start.slot ≤ slot) {index : UInt32} {signature : Bytes 64} :
    (Function.update n.ledger.slotSignatures txn.slot ((n.ledger.slotSignatures txn.slot).insert
        txn.index txn.txn.transaction.signature) slot)[index]? = some signature ↔
      ∃ txn', (n.finish x e failed filing txn).PutIn (· ≠ .nothing) slot txn' ∧
        txn'.index = index ∧ txn'.txn.transaction.signature = signature := by
  have hmem : txn ∈ n.executedIn txn.slot :=
    mem_executedIn.mpr ⟨hsound.working_mem_dispatched hworking, hmode, rfl⟩
  simp only [putIn_finish, hmode, true_and, and_iff_right hput]
  by_cases hslot : slot = txn.slot
  · subst hslot
    rw [Function.update_self, Std.TreeMap.getElem?_insert]
    simp only [Std.LawfulEqCmp.compare_eq_iff_eq]
    split_ifs with hindex
    -- The position is the transaction's own: a slot gives each of its positions out once.
    · simp only [Option.some.injEq]
      constructor
      · intro hsignature
        exact ⟨txn, .inr ⟨rfl, trivial⟩, hindex, hsignature⟩
      · rintro ⟨txn', hor, hindex', hsignature⟩
        rcases hor with hold | ⟨rfl, -⟩
        · rw [hchained.index_injOn hfits hmem (hsound.mem_executedIn hold)
            (hindex.trans hindex'.symm)]
          exact hsignature
        · exact hsignature
    · rw [h.rows _ hlow]
      refine exists_congr fun txn' => and_congr_left ?_
      rintro ⟨hindex', -⟩
      refine (or_iff_left ?_).symm
      rintro ⟨rfl, -⟩
      exact hindex hindex'
  · rw [Function.update_of_ne hslot, h.rows _ hlow]
    simp [Ne.symm hslot]

lemma finish {txn : IndexedTransaction} {failed : Bool} {filing : Filing} (h : Recorded x start n)
    (hsound : n.Sound x) (hchained : Chained x start n) (hfits : Fits n)
    (hfresh : ∀ ctx, txn.txn.mode ≠ .replay ctx) (hworking : n.working e = some txn) :
    Recorded x start (n.finish x e failed filing txn) := by
  cases hmode : txn.txn.mode with
  | replay ctx => exact absurd hmode (hfresh ctx)
  | simulation =>
    have hledger : (n.finish x e failed filing txn).ledger = n.ledger := by
      simp [Node.finish, hmode, recorded]
    constructor
    · simpa [hledger, putIn_finish, hmode] using h.rows
    · simpa [hledger, putIn_finish, hmode] using h.bytes
  | execution =>
    have hledger : (n.finish x e failed filing txn).ledger =
        writeRows x.bincode n.ledger txn filing := by
      simp [Node.finish, hmode, recorded]
    constructor
    · intro slot hlow index signature
      rw [hledger]
      cases filing with
      | nothing => simpa [writeRows, putIn_finish] using h.rows slot hlow index signature
      | _ => exact h.rows_finish hsound hchained hfits hmode hworking (by simp) hlow
    · intro slot txn' hput
      rw [hledger]
      cases filing with
      | whole =>
        by_cases hnew : txn'.txn.transaction.signature = txn.txn.transaction.signature ∧
            slot = txn.slot
        · exact ⟨txn, putIn_finish.mpr (.inr ⟨rfl, rfl, hmode, hnew.2.symm⟩), hnew.1.symm,
            if_pos hnew, if_pos hnew⟩
        · rcases putIn_finish.mp hput with hold | ⟨rfl, -, -, hslot⟩
          · obtain ⟨txn'', hin, hsignature, hrow, hstatus⟩ := h.bytes slot txn' hold
            exact ⟨txn'', putIn_finish.mpr (.inl hin), hsignature, (if_neg hnew).trans hrow,
              (if_neg hnew).trans hstatus⟩
          · exact absurd ⟨rfl, hslot.symm⟩ hnew
      | _ =>
        obtain hold | ⟨-, hwhole, -⟩ := putIn_finish.mp hput
        · obtain ⟨txn'', hin, hsignature, hrow, hstatus⟩ := h.bytes slot txn' hold
          refine ⟨txn'', putIn_finish.mpr (.inl hin), hsignature, hrow, ?_⟩
          simp [writeRows, writeRows.written, TransactionLedger.writeToLedger,
            TransactionLedger.writeTransaction, hstatus]
        · cases hwhole

lemma closes {checksum : Option UInt64} (h : Recorded x start n)
    (hcloses : Closes x out checksum n n') (hledger : out.ledger = .ok ()) :
    Recorded x start n' := by
  have hwritten := hcloses.ledger hledger
  refine h.frame ?_ ?_ ?_ hcloses.done
  all_goals
    rw [hwritten]
    rfl

end Recorded

lemma Recorded.writes {event : Event} (h : Fits n → Recorded x start n)
    (hwrites : Writes x n event n') (hsound : n.Sound x) (hchained : Chained x start n)
    (hprimary : n.coordinator.isPrimary = true) (hstays : event ≠ .switch .replica)
    (hwritten : ∀ out, event.closing = some out → out.ledger = .ok ())
    (hfresh : ∀ txn ∈ n'.history.accepted, ∀ ctx, txn.mode ≠ .replay ctx) (hfits : Fits n') :
    Recorded x start n' := by
  cases hwrites with
  | same hsame => exact (h (hfits.of_dispatched hsame.dispatched)).of_same hsame
  | scheduled hkeeps =>
    have hkept : Kept x (fun _ => True) fun m => Fits m → Recorded x start m := by
      constructor
      · intro m m' hsame hm hfits
        exact (hm (hfits.of_dispatched hsame.dispatched)).of_same hsame
      · intro m e txn _ _ _ hm hfits
        exact (hm hfits.of_dispatch).frame rfl rfl rfl rfl
    exact hkeeps hkept (fun _ _ => trivial) h hfits
  | @finished e failed filing txn hworking =>
    have hbefore : Fits n := hfits.of_dispatched rfl
    refine (h hbefore).finish hsound hchained hbefore ?_ hworking
    exact hfresh _ (hsound.2.dispatched_accepted (hsound.working_mem_dispatched hworking))
  | closed hevent _ hcloses =>
    exact (h (hfits.of_dispatched hcloses.dispatched)).closes hcloses (hwritten _ hevent)
  | switched mode =>
    cases mode with
    | primary => exact (h (hfits.of_dispatched rfl)).frame rfl rfl rfl rfl
    | replica => exact absurd rfl hstays
  | adopted hfollows => exact absurd hprimary (by simp [hfollows])

/-- Nothing has been filed in the slots to come. -/
def Unfiled (start : Node) : Prop :=
  ∀ slot, start.slot ≤ slot → start.ledger.slotSignatures slot = ∅

lemma Leads.recorded (h : Leads x start t n) (hunfiled : Unfiled start) (hfits : Fits n) :
    Recorded x start n := by
  refine (h.keeps (J := fun m => Fits m → Recorded x start m) (fun _ => ?_) ?_).2 hfits
  · have hnone : ∀ P slot txn, ¬start.PutIn P slot txn := by
      simp [PutIn, h.made.history, History.empty]
    constructor
    · intro slot hlow index signature
      rw [hunfiled slot hlow]
      simp [hnone]
    · intro slot txn hput
      exact absurd hput (hnone _ slot txn)
  · intro entry hentry hprimary hchained hfresh hsound hwrites hrecorded
    exact Recorded.writes hrecorded hwrites hsound hchained hprimary (h.stays entry hentry)
      (h.written entry hentry) hfresh

/-- The rows that were put of a slot, in the order its transactions were started. -/
def listedIn (n : Node) (slot : UInt64) : List IndexedTransaction :=
  (n.executedIn slot).filter fun txn => n.PutIn (· ≠ .nothing) slot txn

lemma Chained.indices_lt (h : Chained x start n) (hfits : Fits n) :
    ((n.executedIn slot).map IndexedTransaction.index).Pairwise (· < ·) := by
  rw [h.numbered, List.pairwise_map]
  refine List.pairwise_lt_range.imp_of_mem ?_
  intro i j hi hj hlt
  have hsize := hfits slot
  rw [List.mem_range] at hi hj
  rw [UInt32.lt_iff_toNat_lt, UInt32.toNat_ofNat_of_lt' (show i < 2 ^ 32 by omega),
    UInt32.toNat_ofNat_of_lt' (show j < 2 ^ 32 by omega)]
  exact hlt

lemma Leads.slotSignatures_eq (h : Leads x start t n) (hunfiled : Unfiled start) (hfits : Fits n)
    (hlow : start.slot ≤ slot) :
    (n.ledger.slotSignatures slot).toList =
      (n.listedIn slot).map fun txn => (txn.index, txn.txn.transaction.signature) := by
  have hrecorded := h.recorded hunfiled hfits
  have hrows : (n.ledger.slotSignatures slot).toList.Pairwise fun a b => a.1 < b.1 :=
    Std.TreeMap.ordered_keys_toList.imp Std.compare_eq_lt.mp
  have hlisted : ((n.listedIn slot).map fun txn =>
      (txn.index, txn.txn.transaction.signature)).Pairwise fun a b => a.1 < b.1 := by
    have hindices : ((n.executedIn slot).map IndexedTransaction.index).Pairwise (· < ·) :=
      h.chained.indices_lt hfits
    rw [List.pairwise_map] at hindices ⊢
    exact hindices.filter _
  refine List.Perm.eq_of_pairwise ?_ hrows hlisted ?_
  · intro a b _ _ hab hba
    exact absurd (UInt32.lt_trans hab hba) (UInt32.lt_irrefl _)
  · rw [List.perm_ext_iff_of_nodup]
    · rintro ⟨index, signature⟩
      rw [Std.TreeMap.mem_toList_iff_getElem?_eq_some, hrecorded.rows slot hlow, List.mem_map]
      refine exists_congr fun txn => ?_
      rw [Prod.mk.injEq, listedIn, List.mem_filter, decide_eq_true_eq]
      refine and_congr_left fun _ => (and_iff_right_of_imp ?_).symm
      exact (h.run.sound h.made.sound).mem_executedIn
    · exact hrows.imp fun hlt heq => absurd (heq ▸ hlt) (UInt32.lt_irrefl _)
    · exact hlisted.imp fun hlt heq => absurd (heq ▸ hlt) (UInt32.lt_irrefl _)

lemma Leads.signaturesIn_eq (h : Leads x start t n) (hunfiled : Unfiled start) (hfits : Fits n)
    (hlow : start.slot ≤ slot) :
    n.ledger.signaturesIn slot = (signaturesOf (n.listedIn slot)).reverse := by
  rw [TransactionLedger.signaturesIn, h.slotSignatures_eq hunfiled hfits hlow, List.map_reverse,
    List.map_map]
  rfl

lemma listedIn_eq (h : ∀ txn ∈ n.executedIn slot, n.PutIn (· ≠ .nothing) slot txn) :
    n.listedIn slot = n.executedIn slot :=
  List.filter_eq_self.mpr fun txn hmem => decide_eq_true (h txn hmem)

lemma Leads.filed (h : Leads x start t n) (hunfiled : Unfiled start) (hfits : Fits n)
    (hbytes : ∀ txn ∈ n.history.accepted, x.bincode.deserialize
      (txn.encoded.getD (x.bincode.serialize txn.transaction.versioned)) =
        .ok txn.transaction.versioned) (hlow : start.slot ≤ slot)
    (hfiled : ∀ txn ∈ n.executedIn slot, (txn, .whole) ∈ n.history.done) {signature : Bytes 64}
    (hmem : signature ∈ n.ledger.signaturesIn slot) :
    ∃ transaction, n.ledger.FiledAs x.bincode slot signature transaction := by
  have hrecorded := h.recorded hunfiled hfits
  have hsound := h.run.sound h.made.sound
  obtain ⟨index, hindex⟩ := TransactionLedger.mem_signaturesIn.mp hmem
  obtain ⟨txn, hput, -, rfl⟩ := (hrecorded.rows slot hlow index signature).mp hindex
  have hwhole : n.PutIn (· = .whole) slot txn :=
    ⟨⟨_, hfiled txn (hsound.mem_executedIn hput), rfl, rfl⟩, hput.2⟩
  obtain ⟨txn', hput', hsignature, hrow, hstatus⟩ := hrecorded.bytes slot txn hwhole
  have haccepted : txn'.txn ∈ n.history.accepted :=
    hsound.2.dispatched_accepted (Node.mem_executedIn.mp (hsound.mem_executedIn hput')).1
  refine ⟨txn'.txn.transaction.versioned, ⟨_, hrow, hbytes _ haccepted⟩, hstatus, ?_,
    txn'.txn.transaction.paid⟩
  rw [← hsignature]
  exact List.head?_eq_some_head txn'.txn.transaction.signed

lemma exists_observed (c : Crypto) {b : Bincode} (isWritable : VersionedMessage → ℕ → Bool)
    {l : TransactionLedger} {sigs : List (Bytes 64)} {txns : List VersionedTransaction}
    (h : List.Forall₂ (l.FiledAs b slot) sigs txns) :
    ∃ seen, (txns.map b.serialize).mapM (Parse.observe c b isWritable) = .ok seen ∧
      signatures seen = sigs := by
  induction h with
  | nil => exact ⟨[], rfl, rfl⟩
  | cons hfiled _ ih =>
    obtain ⟨first, hfirst, hsignature, -⟩ := @observe_serialize c b isWritable _ _ _ _ hfiled
    obtain ⟨seen, hseen, hsigs⟩ := ih
    refine ⟨first :: seen, ?_, ?_⟩
    · rw [List.map_cons, List.mapM_cons, hfirst, hseen]
      rfl
    · rw [signatures, List.map_cons, hsignature, ← signatures, hsigs]

lemma exists_confirmed {b : Bincode} {l : TransactionLedger}
    (h : ∀ signature ∈ l.signaturesIn slot, ∃ txn, l.FiledAs b slot signature txn) :
    ∃ txns, (l.signaturesIn slot).mapM (l.confirmed b slot) = .ok txns ∧
      List.Forall₂ (l.FiledAs b slot) (l.signaturesIn slot) txns := by
  obtain ⟨txns, hall⟩ := CheckedArith.exists_mapM_eq_ok (f := l.confirmed b slot) fun s hs =>
    ⟨_, (h s hs).choose_spec.confirmed⟩
  refine ⟨txns, hall, ?_⟩
  have hboth := (List.forall₂_and_left _ _).mpr ⟨h, CheckedArith.mapM_eq_ok.mp hall⟩
  refine hboth.imp ?_
  rintro signature txn ⟨⟨txn', hfiled⟩, hconfirmed⟩
  rw [hfiled.confirmed, Except.ok.injEq] at hconfirmed
  rwa [← hconfirmed]

lemma one_le_of_lt (hlow : start.slot < slot) : 1 ≤ slot := by
  have := UInt64.lt_iff_toNat_lt.mp hlow
  exact UInt64.le_iff_toNat_le.mpr (by simp; omega)

lemma previousHash_eq (hlow : start.slot < slot) :
    previousHash start n slot =
      (n.ledger.blockhash (CheckedArith.saturatingSub slot 1)).getD zeroHash := by
  rw [previousHash, if_neg (UInt64.ne_of_lt hlow).symm, CheckedArith.saturatingSub,
    if_pos (one_le_of_lt hlow)]

lemma Leads.serves (h : Leads x start t n) (hlow : start.slot < slot) (hclosed : slot < n.slot)
    (hkept : n.ledger.lowestCleanupSlot = 0 ∨ n.ledger.lowestCleanupSlot < slot - 1) :
    n.ledger.Serves slot ∧ n.ledger.checkLowestCleanupSlot slot = .ok () := by
  have hone := one_le_of_lt hlow
  have hbefore : CheckedArith.saturatingSub slot 1 = slot - 1 := if_pos hone
  have hstart := UInt64.le_of_lt hlow
  have hserves : n.ledger.Serves slot :=
    ⟨h.chained.timed slot hstart hclosed, by rw [h.chained.closed slot hstart hclosed]; rfl,
      by rwa [hbefore]⟩
  refine ⟨hserves, hserves.checkLowestCleanupSlot ?_⟩
  rw [hbefore, UInt64.le_iff_toNat_le, UInt64.toNat_sub_of_le _ _ hone]
  exact Nat.sub_le _ _

lemma Leads.exists_fetched (h : Leads x start t n) (hunfiled : Unfiled start)
    (hfits : Fits n) (isWritable : VersionedMessage → ℕ → Bool)
    (hbytes : ∀ txn ∈ n.history.accepted, x.bincode.deserialize
      (txn.encoded.getD (x.bincode.serialize txn.transaction.versioned)) =
        .ok txn.transaction.versioned)
    (hlow : start.slot < slot) (hclosed : slot < n.slot)
    (hkept : n.ledger.lowestCleanupSlot = 0 ∨ n.ledger.lowestCleanupSlot < slot - 1)
    (hfiled : ∀ txn ∈ n.executedIn slot, (txn, .whole) ∈ n.history.done) :
    ∃ observed, fetchBlock x.crypto x.bincode isWritable n.ledger slot = .ok (some observed) ∧
      signatures observed.transactions = (signaturesOf (n.executedIn slot)).reverse := by
  have hstart : start.slot ≤ slot := UInt64.le_of_lt hlow
  have hhash := h.chained.closed slot hstart hclosed
  obtain ⟨hserves, hchecked⟩ := h.serves hlow hclosed hkept
  obtain ⟨time, htime⟩ := Option.isSome_iff_exists.mp hserves.time
  obtain ⟨txns, hconfirmed, hrows⟩ :=
    exists_confirmed fun signature hmem => h.filed hunfiled hfits hbytes hstart hfiled hmem
  have hanswer : n.ledger.getBlock x.bincode slot = .ok (some ⟨previousHash start n slot,
      fold x.crypto (previousHash start n slot) (signaturesOf (n.executedIn slot)), txns⟩) := by
    have hchecked' := hserves.checkLowestCleanupSlot (UInt64.le_refl _)
    simp [TransactionLedger.getBlock, hchecked, hchecked', htime, hhash, previousHash_eq hlow,
      hconfirmed, bind, Except.bind]
  obtain ⟨seen, hseen, hsignatures⟩ := exists_observed x.crypto isWritable hrows
  have hlisted : ∀ txn ∈ n.executedIn slot, n.PutIn (· ≠ .nothing) slot txn := fun txn hmem =>
    ⟨⟨_, hfiled txn hmem, rfl, by simp⟩, (mem_executedIn.mp hmem).2⟩
  rw [h.signaturesIn_eq hunfiled hfits hstart, listedIn_eq hlisted] at hsignatures
  refine ⟨⟨slot, previousHash start n slot, fold x.crypto (previousHash start n slot)
    (signaturesOf (n.executedIn slot)), seen⟩, ?_, hsignatures⟩
  simp [fetchBlock, hanswer, Parse.block, encodeBlock, hseen, Except.mapError, bind, Except.bind]

section Fetched
variable {isWritable : VersionedMessage → ℕ → Bool} {observed : ObservedBlock}
  {arranged : List ObservedTransaction}

lemma Leads.fetched_hashes (h : Leads x start t n) (hlow : start.slot < slot)
    (hclosed : slot < n.slot)
    (hfetched : fetchBlock x.crypto x.bincode isWritable n.ledger slot = .ok (some observed)) :
    observed.previousBlockhash = previousHash start n slot ∧
      observed.blockhash =
        fold x.crypto (previousHash start n slot) (signaturesOf (n.executedIn slot)) := by
  obtain ⟨hhash, hprevious, -⟩ := fetchBlock_eq_some hfetched
  rw [h.chained.closed slot (UInt64.le_of_lt hlow) hclosed, Option.some.injEq] at hhash
  exact ⟨hprevious.trans (previousHash_eq hlow).symm, hhash.symm⟩

lemma Leads.order_eq (h : Leads x start t n) (hlow : start.slot < slot) (hclosed : slot < n.slot)
    (hfetched : fetchBlock x.crypto x.bincode isWritable n.ledger slot = .ok (some observed))
    (harranged : observed.executedOrder x.crypto = some arranged)
    (hblake3 : Set.InjOn x.crypto.blake3 (hashed (previousHash start n slot) ''
      {signaturesOf (n.executedIn slot), signatures arranged})) :
    signatures arranged = signaturesOf (n.executedIn slot) := by
  obtain ⟨hprevious, hhash⟩ := h.fetched_hashes hlow hclosed hfetched
  have hfold := fold_executedOrder harranged
  rw [hprevious, hhash] at hfold
  apply hashed_injective (previousHash start n slot)
  exact hblake3 (Set.mem_image_of_mem _ (by simp)) (Set.mem_image_of_mem _ (by simp)) hfold

lemma Leads.exists_order (h : Leads x start t n) (hlow : start.slot < slot) (hclosed : slot < n.slot)
    (hfetched : fetchBlock x.crypto x.bincode isWritable n.ledger slot = .ok (some observed))
    (hsignatures : signatures observed.transactions = (signaturesOf (n.executedIn slot)).reverse) :
    ∃ arranged, observed.executedOrder x.crypto = some arranged ∧
      (signatures arranged = signaturesOf (n.executedIn slot) ∨
        signatures arranged = (signaturesOf (n.executedIn slot)).reverse) := by
  obtain ⟨hprevious, hhash⟩ := h.fetched_hashes hlow hclosed hfetched
  have hsome : observed.executedOrder x.crypto ≠ none := by
    rw [Ne, executedOrder_eq_none]
    rintro ⟨-, hbackward⟩
    refine hbackward ?_
    rw [hsignatures, List.reverse_reverse, hprevious, hhash]
  obtain ⟨arranged, harranged⟩ := Option.ne_none_iff_exists'.mp hsome
  refine ⟨arranged, harranged, ?_⟩
  rcases executedOrder_arranges harranged with rfl | rfl
  · exact .inr hsignatures
  · exact .inl (by rw [signatures_reverse, hsignatures, List.reverse_reverse])

end Fetched

/-- A watchtower that asks a primary for one of its blocks gets it, and finds out in which
order its transactions were started, if all their rows were put. -/
theorem fetchBlock_executedOrder (h : Leads x start t n) (hunfiled : Unfiled start)
    (hfits : Fits n) (isWritable : VersionedMessage → ℕ → Bool)
    (hbytes : ∀ txn ∈ n.history.accepted, x.bincode.deserialize
      (txn.encoded.getD (x.bincode.serialize txn.transaction.versioned)) =
        .ok txn.transaction.versioned)
    (hlow : start.slot < slot) (hclosed : slot < n.slot)
    (hkept : n.ledger.lowestCleanupSlot = 0 ∨ n.ledger.lowestCleanupSlot < slot - 1)
    (hfiled : ∀ txn ∈ n.executedIn slot, (txn, .whole) ∈ n.history.done)
    (hblake3 : Set.InjOn x.crypto.blake3 (hashed (previousHash start n slot) ''
      {signaturesOf (n.executedIn slot), (signaturesOf (n.executedIn slot)).reverse})) :
    ∃ observed arranged, fetchBlock x.crypto x.bincode isWritable n.ledger slot =
        .ok (some observed) ∧
      observed.executedOrder x.crypto = some arranged ∧
      signatures arranged = signaturesOf (n.executedIn slot) := by
  obtain ⟨observed, hfetched, hsignatures⟩ :=
    h.exists_fetched hunfiled hfits isWritable hbytes hlow hclosed hkept hfiled
  obtain ⟨arranged, harranged, heither⟩ := h.exists_order hlow hclosed hfetched hsignatures
  refine ⟨observed, arranged, hfetched, harranged, h.order_eq hlow hclosed hfetched harranged ?_⟩
  refine hblake3.mono (Set.image_mono ?_)
  rcases heither with heq | heq
  all_goals simp [heq]

namespace Vectors

/-- Two payments in one slot, the rows of the first put as far as that came, and one in the next,
which ends with a snapshot. -/
def twoBlocks (filing : Filing) : List Event :=
  send (.transaction (executed 1)) ++ send (.transaction (executed 2)) ++
    [.receive 1, .finish 1 false filing, .ready] ++ complete 0 ++ [.tick outside] ++
    send (.transaction (executed 3)) ++ complete 0 ++ [.tick outside, .checkpoint outside]

lemma unfiled_twoExecutors : Unfiled (twoExecutors.switchMode .primary) := fun _ _ => rfl

lemma deserialize_executed (payer : UInt8) :
    Bincode.solana.deserialize ((executed payer).encoded.getD
      (Bincode.solana.serialize (executed payer).transaction.versioned)) =
        .ok (executed payer).transaction.versioned := by
  have hback := Bincode.solana.deserialize_serialize (payment payer).versioned []
  rwa [List.append_nil] at hback

lemma exists_twoBlocks (filing : Filing) : ∃ t n,
    Leads setup (twoExecutors.switchMode .primary) t n ∧ Fits n ∧ n.slot = 11 ∧
    n.executedIn 10 = [⟨10, 0, executed 3⟩] ∧ (⟨9, 0, executed 1⟩, filing) ∈ n.history.done ∧
    (⟨10, 0, executed 3⟩, .whole) ∈ n.history.done ∧ n.ledger.lowestCleanupSlot = 0 ∧
    ∀ txn ∈ n.history.accepted, Bincode.solana.deserialize
      (txn.encoded.getD (Bincode.solana.serialize txn.transaction.versioned)) =
        .ok txn.transaction.versioned := by
  obtain ⟨t, n, hleads, hfacts⟩ := exists_leads twoExecutors_fresh (twoBlocks filing) (x := setup)
    (f := fun n => (n.slot, n.history.dispatched, n.history.accepted,
      decide ((⟨9, 0, executed 1⟩, filing) ∈ n.history.done ∧
        (⟨10, 0, executed 3⟩, .whole) ∈ n.history.done), n.ledger.lowestCleanupSlot))
    (v := (11, [⟨9, 0, executed 1⟩, ⟨9, 1, executed 2⟩, ⟨10, 0, executed 3⟩],
      [executed 1, executed 2, executed 3], true, 0))
    (by simp [twoBlocks, send, complete])
    (by simp [twoBlocks, send, complete, Event.closing, outside])
    (by cases filing <;> decide +kernel) (by cases filing <;> decide +kernel)
  simp only [Prod.mk.injEq] at hfacts
  obtain ⟨hslot, hdispatched, haccepted, hdone, hcleanup⟩ := hfacts
  obtain ⟨hfirst, hthird⟩ := of_decide_eq_true hdone
  refine ⟨t, n, hleads, .of_length ?_, hslot, ?_, hfirst, hthird, hcleanup, ?_⟩
  · rw [hdispatched]
    decide
  · rw [executedIn, hdispatched]
    decide +kernel
  · rw [haccepted]
    intro txn hmem
    simp only [List.mem_cons, List.not_mem_nil, or_false] at hmem
    rcases hmem with rfl | rfl | rfl
    all_goals exact deserialize_executed _

end Vectors

theorem fetchBlock_executedOrder_twoBlocks : ∃ t n,
    Leads Vectors.setup (Vectors.twoExecutors.switchMode .primary) t n ∧
    signaturesOf (n.executedIn 10) = [Bytes.fill 64 3] ∧
    ∃ observed arranged,
      fetchBlock Vectors.setup.crypto .solana Vectors.setup.isWritable n.ledger 10 =
        .ok (some observed) ∧
      observed.executedOrder Vectors.setup.crypto = some arranged ∧
      signatures arranged = signaturesOf (n.executedIn 10) := by
  obtain ⟨t, n, hleads, hfits, hslot, hexecuted, -, hdone, hcleanup, hbytes⟩ :=
    Vectors.exists_twoBlocks .whole
  refine ⟨t, n, hleads, by rw [hexecuted]; rfl, fetchBlock_executedOrder hleads
    Vectors.unfiled_twoExecutors hfits _ hbytes (by decide) ?_ (.inl hcleanup) ?_ ?_⟩
  · rw [hslot]
    decide
  · rw [hexecuted]
    simpa using hdone
  · rw [hexecuted]
    simp [signaturesOf]

/-- Whichever rows the executors failed to put: an order that a watchtower finds for a closed slot
of a primary is the one its transactions were started in, and all of them are listed. -/
theorem fetched_order_complete (h : Leads x start t n) (hunfiled : Unfiled start) (hfits : Fits n)
    {isWritable : VersionedMessage → ℕ → Bool} {observed : ObservedBlock}
    {arranged : List ObservedTransaction} (hlow : start.slot < slot) (hclosed : slot < n.slot)
    (hfetched : fetchBlock x.crypto x.bincode isWritable n.ledger slot = .ok (some observed))
    (harranged : observed.executedOrder x.crypto = some arranged)
    (hblake3 : Set.InjOn x.crypto.blake3 (hashed (previousHash start n slot) ''
      {signaturesOf (n.executedIn slot), signatures arranged})) :
    signatures arranged = signaturesOf (n.executedIn slot) ∧
      ∀ txn ∈ n.executedIn slot, n.PutIn (· ≠ .nothing) slot txn := by
  have horder := h.order_eq hlow hclosed hfetched harranged hblake3
  refine ⟨horder, ?_⟩
  obtain ⟨-, -, hlength⟩ := fetchBlock_eq_some hfetched
  have hcount : (n.listedIn slot).length = (n.executedIn slot).length :=
    calc (n.listedIn slot).length = (n.ledger.signaturesIn slot).length := by
          rw [h.signaturesIn_eq hunfiled hfits (UInt64.le_of_lt hlow), List.length_reverse]
          exact (List.length_map _).symm
      _ = arranged.length := by rw [← hlength, (executedOrder_perm harranged).length_eq]
      _ = (n.executedIn slot).length := by
          simpa [signatures, signaturesOf] using congrArg List.length horder
  intro txn hmem
  exact of_decide_eq_true (List.length_filter_eq_length_iff.mp hcount txn hmem)

theorem fetched_order_complete_twoBlocks : ∃ t n,
    Leads Vectors.setup (Vectors.twoExecutors.switchMode .primary) t n ∧
    (⟨9, 0, Vectors.executed 1⟩, .nothing) ∈ n.history.done ∧
    n.executedIn 10 = [⟨10, 0, Vectors.executed 3⟩] ∧
    ∃ observed arranged,
      fetchBlock Vectors.setup.crypto .solana Vectors.setup.isWritable n.ledger 10 =
        .ok (some observed) ∧
      observed.executedOrder Vectors.setup.crypto = some arranged ∧
      signatures arranged = signaturesOf (n.executedIn 10) ∧
      ∀ txn ∈ n.executedIn 10, n.PutIn (· ≠ .nothing) 10 txn := by
  obtain ⟨t, n, hleads, hfits, hslot, hexecuted, hlost, hdone, hcleanup, hbytes⟩ :=
    Vectors.exists_twoBlocks .nothing
  have hclosed : 10 < n.slot := by
    rw [hslot]
    decide
  obtain ⟨observed, hfetched, hsignatures⟩ := hleads.exists_fetched Vectors.unfiled_twoExecutors hfits
    Vectors.setup.isWritable hbytes (by decide) hclosed (.inl hcleanup)
    (by simpa [hexecuted] using hdone)
  obtain ⟨arranged, harranged, heither⟩ :=
    hleads.exists_order (by decide) hclosed hfetched hsignatures
  refine ⟨t, n, hleads, hlost, hexecuted, observed, arranged, hfetched, harranged,
    fetched_order_complete hleads Vectors.unfiled_twoExecutors hfits (by decide) hclosed hfetched
      harranged ?_⟩
  rcases heither with heq | heq
  all_goals simp [heq, hexecuted, signaturesOf]

/-- The last block is the one of the slot before. -/
structure Latest (start n : Node) : Prop where
  block : start.slot < n.slot → n.latestBlock = (n.slot - 1, previousHash start n n.slot)
  accounts : start.slot < n.slot → n.accountsdbSlot = n.slot - 1

lemma Latest.frame (h : Latest start n) (hslot : n'.slot = n.slot)
    (hblockhash : n'.ledger.blockhash = n.ledger.blockhash)
    (hlatest : n'.latestBlock = n.latestBlock)
    (haccounts : n'.accountsdbSlot = n.accountsdbSlot) : Latest start n' := by
  constructor
  · rw [hslot, hlatest, previousHash, hblockhash]
    exact h.block
  · rw [hslot, haccounts]
    exact h.accounts

lemma Latest.of_same (h : Latest start n) (hsame : SameBooks n n') : Latest start n' :=
  h.frame hsame.slot (by rw [hsame.ledger]) hsame.latestBlock hsame.accountsdbSlot

lemma Latest.closes {checksum : Option UInt64} (hcloses : Closes x out checksum n n')
    (hledger : out.ledger = .ok ()) (hlow : start.slot ≤ n.slot)
    (hlast : n.slot.toNat + 1 < 2 ^ 64) : Latest start n' := by
  have hne : n.slot + 1 ≠ start.slot := by
    intro heq
    have hsucc := toNat_succ hlast
    have hle := UInt64.le_iff_toNat_le.mp hlow
    rw [heq] at hsucc
    omega
  constructor
  · intro _
    rw [hcloses.latestBlock hledger, hcloses.slot, previousHash, if_neg hne, UInt64.add_sub_cancel,
      hcloses.ledger hledger]
    simp [TransactionLedger.writeBlock]
  · intro _
    rw [hcloses.accountsdbSlot hledger, hcloses.slot, UInt64.add_sub_cancel]

lemma Leads.latest (h : Leads x start t n) : Latest start n := by
  refine (h.keeps (J := Latest start) ?_ ?_).2
  · constructor
    all_goals
      intro hlt
      exact absurd hlt (UInt64.lt_irrefl _)
  · intro entry hentry hprimary hchained _ _ hwrites hlatest
    have hstays := h.stays entry hentry
    have hwritten := h.written entry hentry
    have hlast := h.slots entry hentry
    generalize entry.before = m, entry.event = event, entry.after = m' at *
    cases hwrites with
    | same hsame => exact hlatest.of_same hsame
    | scheduled hkeeps =>
      refine hkeeps (P := fun _ => True) ⟨?_, ?_⟩ (fun _ _ => trivial) hlatest
      · intro m m' hsame hm
        exact hm.of_same hsame
      · intro m e txn _ _ _ hm
        exact hm.frame rfl rfl rfl rfl
    | finished hworking =>
      exact hlatest.frame rfl finish_blocks.1 rfl rfl
    | closed hevent _ hcloses =>
      exact .closes hcloses (hwritten _ hevent) hchained.slot_le hlast
    | switched mode =>
      cases mode with
      | primary => exact hlatest.frame rfl rfl rfl rfl
      | replica => exact absurd rfl hstays
    | adopted hfollows => exact absurd hprimary (by simp [hfollows])

lemma Sound.finished_of_executedIn (h : n.Sound x) (hidle : n.coordinator.isIdle = true) :
    ∀ txn ∈ n.executedIn slot, txn ∈ n.history.finished := by
  obtain ⟨⟨held, hplaced⟩, haccounted⟩ := h
  have hfree := hplaced.not_busy_of_isIdle hidle
  intro txn hmem
  have hdispatched := (Node.mem_executedIn.mp hmem).1
  rw [← Multiset.mem_coe, haccounted.dispatched, Placed.queued_eq_zero hfree,
    Placed.running_eq_zero hfree, zero_add, zero_add, Multiset.mem_coe] at hdispatched
  exact hdispatched

/-- A primary that becomes a replica while its executors are free goes on in the slot it was
in, with the hash under way read back from its ledger. -/
theorem switch_replica_resumes (h : Leads x start t n) (hunfiled : Unfiled start) (hfits : Fits n)
    (hclosed : start.slot < n.slot) (hhash : n.latestBlock.2 ≠ zeroHash)
    (hidle : n.coordinator.isIdle = true)
    (hlisted : ∀ txn ∈ n.executedIn n.slot, (txn, .nothing) ∉ n.history.done) :
    (n.switchMode .replica).slot = n.slot ∧ (n.switchMode .replica).hasher = n.hasher := by
  have hlatest := h.latest.block hclosed
  have haccounts := h.latest.accounts hclosed
  have hslot : max n.accountsdbSlot n.latestBlock.1 + 1 = n.slot := by
    rw [haccounts, hlatest]
    have hmax : max (n.slot - 1) (n.slot - 1) = n.slot - 1 := if_pos (UInt64.le_refl _)
    exact (congrArg (· + 1) hmax).trans (UInt64.sub_add_cancel _ _)
  refine ⟨hslot, ?_⟩
  have hput : ∀ txn ∈ n.executedIn n.slot, n.PutIn (· ≠ .nothing) n.slot txn := by
    intro txn hmem
    have hfinished := (h.run.sound h.made.sound).finished_of_executedIn hidle txn hmem
    obtain ⟨⟨txn, filing⟩, hdone, rfl⟩ := List.mem_map.mp hfinished
    refine ⟨⟨_, hdone, rfl, ?_⟩, (mem_executedIn.mp hmem).2⟩
    rintro rfl
    exact hlisted txn hmem hdone
  have hrows : transactionSignaturesForSlot n.ledger n.slot = signaturesOf (n.executedIn n.slot) := by
    rw [transactionSignaturesForSlot,
      h.slotSignatures_eq hunfiled hfits (UInt64.le_of_lt hclosed), listedIn_eq hput, List.map_map]
    rfl
  have hprevious : initialBlockhash n.latestBlock n.slotHashes = previousHash start n n.slot := by
    rw [initialBlockhash, if_pos hhash, hlatest]
  change (initialBlockhash n.latestBlock n.slotHashes).val ++
    (transactionSignaturesForSlot n.ledger (max n.accountsdbSlot n.latestBlock.1 + 1)).flatMap
      Subtype.val = n.hasher
  rw [hslot, hprevious, hrows, h.chained.hasher]
  rfl

theorem switch_replica_resumes_twoSlots : ∃ t n,
    Leads Vectors.setup (Vectors.twoExecutors.switchMode .primary) t n ∧
    n.history.dispatched.getLast? = some ⟨10, 0, Vectors.executed 3⟩ ∧
    (n.switchMode .replica).slot = n.slot ∧ (n.switchMode .replica).hasher = n.hasher := by
  obtain ⟨t, n, hleads, hfacts⟩ := Vectors.exists_twoSlots
    (f := fun n => (n.history.dispatched.length, n.slot, n.latestBlock.2,
      decide (n.coordinator.isIdle = true ∧ ∀ d ∈ n.history.done, d.2 ≠ .nothing),
      n.history.dispatched.getLast?))
    (v := (3, 10, Bytes.fill 32 7, true, some ⟨10, 0, Vectors.executed 3⟩)) (by decide +kernel)
  simp only [Prod.mk.injEq] at hfacts
  obtain ⟨hlength, hslot, hlatest, hdone, hlast⟩ := hfacts
  obtain ⟨hidle, hdone⟩ := of_decide_eq_true hdone
  refine ⟨t, n, hleads, hlast, switch_replica_resumes hleads Vectors.unfiled_twoExecutors
    (.of_length ?_) ?_ ?_ hidle fun txn _ hmem => hdone _ hmem rfl⟩
  · rw [hlength]
    decide
  · rw [hslot]
    decide
  · rw [hlatest]
    decide

end Node

end Blitz.Scheduler
