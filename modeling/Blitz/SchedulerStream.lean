import Blitz.SchedulerBlocks

/-! What a primary tells its replicas: every transaction and every block of its ledger, by
rising position. -/
namespace Blitz.Replication

/-- The order of the positions of a stream. -/
def Earlier (p q : UInt64 × UInt32) : Prop := p.1 < q.1 ∨ p.1 = q.1 ∧ p.2 < q.2

instance (p q : UInt64 × UInt32) : Decidable (Earlier p q) := inferInstanceAs (Decidable (_ ∨ _))

lemma Earlier.trans {p q r : UInt64 × UInt32} (h : Earlier p q) (h' : Earlier q r) :
    Earlier p r := by
  rcases h with h | ⟨h, hi⟩
  · rcases h' with h' | ⟨h', -⟩
    · exact .inl (UInt64.lt_trans h h')
    · exact .inl (h' ▸ h)
  · rcases h' with h' | ⟨h', hi'⟩
    · exact .inl (h ▸ h')
    · exact .inr ⟨h.trans h', UInt32.lt_trans hi hi'⟩

lemma Earlier.irrefl (p : UInt64 × UInt32) : ¬Earlier p p := by
  rintro (h | ⟨-, h⟩)
  · exact UInt64.lt_irrefl _ h
  · exact UInt32.lt_irrefl _ h

/-- By rising position. -/
def Rising (stream : List Message) : Prop :=
  stream.Pairwise fun a b => Earlier a.slotAndIndex b.slotAndIndex

end Blitz.Replication

namespace Blitz.Scheduler
open LittleEndian Receipts Solana Validator Watchtower Replication

namespace Node
variable {x : Setup} {n n' start : Node} {e : ExecutorId} {t : List (Traces.Entry Node Event)}
  {txn : ProcessableTransaction} {out : Outside}

/-- The stream so far. -/
structure Streamed (start n : Node) : Prop where
  rising : Rising n.replicated
  below : ∀ msg ∈ n.replicated, Earlier msg.slotAndIndex (n.slot, n.index)
  transactions : ∀ slot index payload, .transaction slot index payload ∈ n.replicated ↔
    ∃ txn ∈ n.executedIn slot, txn.index = index ∧ txn.txn.encoded = some payload
  blocks : ∀ block, .block block ∈ n.replicated ↔
    (start.slot ≤ block.slot ∧ block.slot < n.slot) ∧
      n.ledger.blockhash block.slot = some block.hash ∧
      n.ledger.blocktime block.slot = some block.timestamp

namespace Streamed

lemma frame (h : Streamed start n) (hslot : n'.slot = n.slot) (hindex : n'.index = n.index)
    (hblockhash : n'.ledger.blockhash = n.ledger.blockhash)
    (hblocktime : n'.ledger.blocktime = n.ledger.blocktime)
    (hdispatched : n'.history.dispatched = n.history.dispatched)
    (hreplicated : n'.replicated = n.replicated) : Streamed start n' := by
  have hexecuted : n'.executedIn = n.executedIn := by
    funext slot
    rw [executedIn, executedIn, hdispatched]
  constructor
  · rw [hreplicated]
    exact h.rising
  · rw [hreplicated, hslot, hindex]
    exact h.below
  · rw [hreplicated, hexecuted]
    exact h.transactions
  · rw [hreplicated, hslot, hblockhash, hblocktime]
    exact h.blocks

lemma dispatch (h : Streamed start n) (hchained : Chained x start n)
    (hprimary : n.coordinator.isPrimary = true) (hreplicas : x.replicationTx = true)
    (hinbox : n.inbox e = none) (hfresh : ∀ ctx, txn.mode ≠ .replay ctx)
    (hsize : ((n.dispatch x e txn).executedIn n.slot).length < 2 ^ 32 - 2) :
    Streamed start (n.dispatch x e txn) := by
  cases hmode : txn.mode with
  | replay ctx => exact absurd hmode (hfresh ctx)
  | simulation =>
    have hexecuted : (n.dispatch x e txn).executedIn = n.executedIn := by
      funext slot
      simp [executedIn_dispatch hfresh, hmode]
    have hreplicated : (n.dispatch x e txn).replicated = n.replicated := by
      unfold Node.dispatch
      cases txn.encoded <;> simp [hmode]
    have hindex : (n.dispatch x e txn).index = n.index := by simp [Node.dispatch, hmode]
    constructor
    · rw [hreplicated]
      exact h.rising
    · rw [hreplicated, hindex]
      exact h.below
    · rw [hreplicated, hexecuted]
      exact h.transactions
    · rw [hreplicated]
      exact h.blocks
  | execution =>
    have hreplicated : (n.dispatch x e txn).replicated = n.replicated ++
        txn.encoded.toList.map (.transaction n.slot n.index) := by
      unfold Node.dispatch
      cases txn.encoded <;> simp [hmode, isReplicating, hreplicas, hprimary, hinbox, position]
    have hnext : n.index < (n.dispatch x e txn).index := by
      rw [executedIn_dispatch hfresh, if_pos ⟨hmode, rfl⟩, List.length_append,
        List.length_singleton] at hsize
      have hindex : (n.dispatch x e txn).index = n.index + 1 := by simp [Node.dispatch, hmode]
      have htoNat := hchained.toNat_index (by omega)
      rw [hindex, UInt32.lt_iff_toNat_lt, UInt32.toNat_add, UInt32.toNat_one]
      omega
    have hlater : Earlier (n.slot, n.index) (n.slot, (n.dispatch x e txn).index) :=
      .inr ⟨rfl, hnext⟩
    have hnew : ∀ msg ∈ txn.encoded.toList.map (Message.transaction n.slot n.index),
        msg.slotAndIndex = (n.slot, n.index) := by
      intro msg hmsg
      obtain ⟨payload, -, rfl⟩ := List.mem_map.mp hmsg
      rfl
    constructor
    · rw [hreplicated, Rising, List.pairwise_append]
      refine ⟨h.rising, ?_, ?_⟩
      · cases txn.encoded <;> simp
      · intro msg hmsg msg' hmsg'
        rw [hnew msg' hmsg']
        exact h.below msg hmsg
    · rw [hreplicated]
      intro msg hmsg
      rcases List.mem_append.mp hmsg with hmsg | hmsg
      · exact (h.below msg hmsg).trans hlater
      · rw [hnew msg hmsg]
        exact hlater
    · intro slot index payload
      rw [hreplicated, List.mem_append, h.transactions, executedIn_dispatch hfresh]
      by_cases hslot : n.slot = slot
      · subst hslot
        simp only [hmode, and_self, if_true, List.mem_append, List.mem_singleton, List.mem_map,
          Option.mem_toList, Message.transaction.injEq, true_and]
        constructor
        · rintro (⟨txn', hmem, hindex, hencoded⟩ | ⟨payload', hencoded, rfl, rfl⟩)
          · exact ⟨txn', .inl hmem, hindex, hencoded⟩
          · exact ⟨_, .inr rfl, rfl, hencoded⟩
        · rintro ⟨txn', hmem | rfl, hindex, hencoded⟩
          · exact .inl ⟨txn', hmem, hindex, hencoded⟩
          · exact .inr ⟨payload, hencoded, hindex, rfl⟩
      · simp [hslot]
    · intro block
      rw [hreplicated, List.mem_append]
      simp only [List.mem_map, reduceCtorEq, and_false, exists_false, or_false]
      exact h.blocks block

lemma closes {checksum : Option UInt64} (h : Streamed start n) (hchained : Chained x start n)
    (hcloses : Closes x out checksum n n') (hledger : out.ledger = .ok ())
    (hlast : n.slot.toNat + 1 < 2 ^ 64) (hreplicas : x.replicationTx = true)
    (hsize : (n.executedIn n.slot).length < 2 ^ 32 - 2) : Streamed start n' := by
  have hsucc : (n.slot + 1).toNat = n.slot.toNat + 1 := toNat_succ hlast
  have hexecuted : n'.executedIn = n.executedIn := by
    funext slot
    rw [executedIn, executedIn, hcloses.dispatched]
  have hreplicated := hcloses.replicated
  rw [if_pos hreplicas] at hreplicated
  have htoNat := hchained.toNat_index (by omega)
  have hmarker {index : UInt32} (hindex : blockIndex ≤ index) :
      Earlier (n.slot, n.index) (n.slot, index) := by
    refine .inr ⟨rfl, UInt32.lt_of_lt_of_le (UInt32.lt_iff_toNat_lt.mpr ?_) hindex⟩
    change n.index.toNat < 2 ^ 32 - 2
    omega
  have hmarkers : ∀ msg ∈ Message.block (n.currentBlock x out) ::
      checksum.toList.map (Message.superBlock n.slot),
      msg.slotAndIndex.1 = n.slot ∧ Earlier (n.slot, n.index) msg.slotAndIndex := by
    intro msg hmsg
    rcases List.mem_cons.mp hmsg with rfl | hmsg
    · exact ⟨rfl, hmarker (UInt32.le_refl _)⟩
    · obtain ⟨value, -, rfl⟩ := List.mem_map.mp hmsg
      exact ⟨rfl, hmarker (by decide)⟩
  have hnext : n.slot < n.slot + 1 := UInt64.lt_iff_toNat_lt.mpr (by omega)
  constructor
  · rw [hreplicated, Rising, List.pairwise_append, List.pairwise_cons]
    refine ⟨h.rising, ⟨?_, ?_⟩, ?_⟩
    · intro msg hmsg
      obtain ⟨value, -, rfl⟩ := List.mem_map.mp hmsg
      exact .inr ⟨rfl, show blockIndex < superblockIndex by decide⟩
    · cases checksum <;> simp
    · intro msg hmsg msg' hmsg'
      exact (h.below msg hmsg).trans (hmarkers msg' hmsg').2
  · rw [hreplicated, hcloses.slot]
    intro msg hmsg
    rcases List.mem_append.mp hmsg with hmsg | hmsg
    · exact (h.below msg hmsg).trans (.inl hnext)
    · exact .inl ((hmarkers msg hmsg).1 ▸ hnext)
  · intro slot index payload
    rw [hreplicated, hexecuted, ← h.transactions]
    simp
  · intro block
    rw [hreplicated, hcloses.slot, hcloses.ledger hledger]
    simp only [List.mem_append, List.mem_cons, Message.block.injEq, List.mem_map, reduceCtorEq,
      and_false, exists_false, or_false, h.blocks, TransactionLedger.writeBlock]
    by_cases heq : block.slot = n.slot
    · obtain ⟨slot, hash, timestamp⟩ := block
      dsimp only at heq ⊢
      subst heq
      simp [currentBlock, hchained.slot_le, hnext, eq_comm]
    · have hne : block ≠ n.currentBlock x out := by
        rintro rfl
        exact heq rfl
      have hlt : block.slot < n.slot + 1 ↔ block.slot < n.slot := by
        have hslots : block.slot.toNat ≠ n.slot.toNat := fun h => heq (UInt64.toNat_inj.mp h)
        rw [UInt64.lt_iff_toNat_lt, UInt64.lt_iff_toNat_lt]
        omega
      simp [heq, hne, hlt]

end Streamed

/-- There are positions for everything started in a slot, and for its markers. -/
def Fits (n : Node) : Prop := ∀ slot, (n.executedIn slot).length < 2 ^ 32 - 2

lemma Fits.of_length (h : n.history.dispatched.length < 2 ^ 32 - 2) : Fits n :=
  fun _ => (List.length_filter_le _ _).trans_lt h

lemma Fits.of_dispatched (h : Fits n') (hdispatched : n'.history.dispatched = n.history.dispatched) :
    Fits n := by
  intro slot
  rw [executedIn, ← hdispatched]
  exact h slot

lemma Fits.of_dispatch (h : Fits (n.dispatch x e txn)) : Fits n := by
  intro slot
  have hsub : (n.executedIn slot).Sublist ((n.dispatch x e txn).executedIn slot) :=
    (List.sublist_append_left _ _).filter _
  exact hsub.length_le.trans_lt (h slot)

lemma Streamed.writes {event : Event} (h : Fits n → Streamed start n) (hwrites : Writes x n event n')
    (hchained : Chained x start n) (hprimary : n.coordinator.isPrimary = true)
    (hstays : event ≠ .switch .replica)
    (hwritten : ∀ out, event.closing = some out → out.ledger = .ok ())
    (hlast : n.slot.toNat + 1 < 2 ^ 64)
    (hfresh : ∀ txn ∈ n'.history.accepted, ∀ ctx, txn.mode ≠ .replay ctx)
    (hreplicas : x.replicationTx = true) (hfits : Fits n') : Streamed start n' := by
  cases hwrites with
  | same hsame =>
    exact (h (hfits.of_dispatched hsame.dispatched)).frame hsame.slot hsame.index
      (by rw [hsame.ledger]) (by rw [hsame.ledger]) hsame.dispatched hsame.replicated
  | scheduled hkeeps =>
    let J (m : Node) : Prop := m.coordinator.isPrimary = true ∧ Chained x start m ∧
      (Fits m → Streamed start m)
    have hkept : Kept x (fun txn => ∀ ctx, txn.mode ≠ .replay ctx) J := by
      constructor
      · rintro m m' hsame ⟨hm, hc, hs⟩
        refine ⟨hsame.isPrimary.trans hm, hc.of_same hsame, fun hfits => ?_⟩
        exact (hs (hfits.of_dispatched hsame.dispatched)).frame hsame.slot hsame.index
          (by rw [hsame.ledger]) (by rw [hsame.ledger]) hsame.dispatched hsame.replicated
      · rintro m e txn hinbox hnew - ⟨hm, hc, hs⟩
        exact ⟨hm, hc.dispatch hnew, fun hfits =>
          (hs hfits.of_dispatch).dispatch hc hm hreplicas hinbox hnew (hfits _)⟩
    exact (hkeeps hkept hfresh ⟨hprimary, hchained, h⟩).2.2 hfits
  | finished hworking =>
    exact (h (hfits.of_dispatched rfl)).frame rfl rfl finish_blocks.1 finish_blocks.2 rfl rfl
  | closed hevent _ hcloses =>
    have hbefore := hfits.of_dispatched hcloses.dispatched
    exact (h hbefore).closes hchained hcloses (hwritten _ hevent) hlast hreplicas (hbefore _)
  | switched mode =>
    cases mode with
    | primary => exact (h (hfits.of_dispatched rfl)).frame rfl rfl rfl rfl rfl rfl
    | replica => exact absurd rfl hstays
  | adopted hfollows => exact absurd hprimary (by simp [hfollows])

lemma Leads.streamed (h : Leads x start t n) (hreplicas : x.replicationTx = true)
    (hfits : Fits n) : Streamed start n := by
  refine (h.keeps (J := fun m => Fits m → Streamed start m) (fun _ => ?_) ?_).2 hfits
  · constructor
    · rw [h.made.replicated]
      exact .nil
    · rw [h.made.replicated]
      intro msg hmsg
      cases hmsg
    · intro slot index payload
      simp [h.made.replicated, executedIn, h.made.history, History.empty]
    · intro block
      refine iff_of_false (by simp [h.made.replicated]) ?_
      rintro ⟨⟨hle, hlt⟩, -⟩
      exact absurd (UInt64.lt_of_lt_of_le hlt hle) (UInt64.lt_irrefl _)
  · intro entry hentry hprimary hchained hfresh _ hwrites hstreamed
    exact Streamed.writes hstreamed hwrites hchained hprimary (h.stays entry hentry)
      (h.written entry hentry) (h.slots entry hentry) hfresh hreplicas

/-- What a primary sends its replicas is every transaction it has started, if it has its bytes,
and every block of its ledger, each once and by rising position. -/
theorem replicated_stream (h : Leads x start t n) (hreplicas : x.replicationTx = true)
    (hfits : Fits n) :
    Rising n.replicated ∧
      (∀ slot index payload, .transaction slot index payload ∈ n.replicated ↔
        ∃ txn ∈ n.executedIn slot, txn.index = index ∧ txn.txn.encoded = some payload) ∧
      ∀ block, .block block ∈ n.replicated ↔ (start.slot ≤ block.slot ∧ block.slot < n.slot) ∧
        n.ledger.blockhash block.slot = some block.hash ∧
        n.ledger.blocktime block.slot = some block.timestamp := by
  have hstreamed := h.streamed hreplicas hfits
  exact ⟨hstreamed.rising, hstreamed.transactions, hstreamed.blocks⟩

namespace Vectors

/-- A payment as it is sent to replicas. -/
def paid (slot : UInt64) (index : UInt32) (payer : UInt8) : Replication.Message :=
  .transaction slot index (Bincode.solana.serialize (payment payer).versioned)

def closing : Replication.Block := ⟨9, Bytes.fill 32 7, 1754300123⟩

end Vectors

theorem replicated_stream_twoSlots : ∃ t n,
    Leads Vectors.setup (Vectors.twoExecutors.switchMode .primary) t n ∧
    n.replicated.map Replication.Message.slotAndIndex =
      [(9, 0), (9, 1), (9, Replication.blockIndex), (10, 0)] ∧
    Rising n.replicated ∧
      (∀ slot index payload, .transaction slot index payload ∈ n.replicated ↔
        ∃ txn ∈ n.executedIn slot, txn.index = index ∧ txn.txn.encoded = some payload) ∧
      ∀ block, .block block ∈ n.replicated ↔
        ((Vectors.twoExecutors.switchMode .primary).slot ≤ block.slot ∧ block.slot < n.slot) ∧
        n.ledger.blockhash block.slot = some block.hash ∧
        n.ledger.blocktime block.slot = some block.timestamp := by
  obtain ⟨t, n, hleads, hfacts⟩ := Vectors.exists_twoSlots
    (f := fun n => (n.history.dispatched.length,
      n.replicated.map Replication.Message.slotAndIndex))
    (v := (3, [(9, 0), (9, 1), (9, Replication.blockIndex), (10, 0)])) (by decide +kernel)
  obtain ⟨hlength, hpositions⟩ := Prod.mk.inj hfacts
  refine ⟨t, n, hleads, hpositions, replicated_stream hleads rfl (.of_length ?_)⟩
  rw [hlength]
  decide

end Node

end Blitz.Scheduler
