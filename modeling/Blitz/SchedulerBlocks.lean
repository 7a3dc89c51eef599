import Blitz.SchedulerRecord
import Blitz.WatchtowerOrder

/-! The blocks of a primary: the hash of a slot is taken over what was started in it, in the
order of the positions. -/
namespace Blitz.Scheduler
open LittleEndian Receipts Solana Validator Watchtower

/-- The signatures in the order of the list. -/
def signaturesOf (txns : List IndexedTransaction) : List (Bytes 64) :=
  txns.map fun txn => txn.txn.transaction.signature

lemma hashed_append (previous : Bytes 32) (sigs sigs' : List (Bytes 64)) :
    hashed previous (sigs ++ sigs') = hashed previous sigs ++ sigs'.flatMap Subtype.val := by
  rw [hashed, hashed, List.append_assoc]
  exact congrArg _ List.flatMap_append

namespace Node
variable {x : Setup} {n n' start : Node} {e : ExecutorId} {t : List (Traces.Entry Node Event)}
  {txn : ProcessableTransaction} {out : Outside}

/-- What was started in a slot, in this order. -/
def executedIn (n : Node) (slot : UInt64) : List IndexedTransaction :=
  n.history.dispatched.filter fun txn => txn.txn.mode = .execution ∧ txn.slot = slot

/-- The hash a slot builds on: the one the node started with, or that of the slot before. -/
def previousHash (start n : Node) (slot : UInt64) : Bytes 32 :=
  if slot = start.slot then initialBlockhash start.latestBlock start.slotHashes
  else (n.ledger.blockhash (slot - 1)).getD zeroHash

/-- The books of a node that leads. -/
structure Chained (x : Setup) (start n : Node) : Prop where
  slot_le : start.slot ≤ n.slot
  hasher : n.hasher = hashed (previousHash start n n.slot) (signaturesOf (n.executedIn n.slot))
  closed : ∀ slot, start.slot ≤ slot → slot < n.slot →
    n.ledger.blockhash slot =
      some (fold x.crypto (previousHash start n slot) (signaturesOf (n.executedIn slot)))
  timed : ∀ slot, start.slot ≤ slot → slot < n.slot → (n.ledger.blocktime slot).isSome
  within : ∀ txn ∈ n.history.dispatched, txn.txn.mode = .execution →
    start.slot ≤ txn.slot ∧ txn.slot ≤ n.slot
  numbered : ∀ slot, (n.executedIn slot).map IndexedTransaction.index =
    (List.range (n.executedIn slot).length).map UInt32.ofNat
  index : n.index = UInt32.ofNat (n.executedIn n.slot).length

namespace Chained

lemma frame (h : Chained x start n) (hslot : n'.slot = n.slot) (hhasher : n'.hasher = n.hasher)
    (hindex : n'.index = n.index) (hblockhash : n'.ledger.blockhash = n.ledger.blockhash)
    (hblocktime : n'.ledger.blocktime = n.ledger.blocktime)
    (hdispatched : n'.history.dispatched = n.history.dispatched) : Chained x start n' := by
  have hexecuted : n'.executedIn = n.executedIn := by
    funext slot
    rw [executedIn, executedIn, hdispatched]
  have hprevious : previousHash start n' = previousHash start n := by
    funext slot
    rw [previousHash, previousHash, hblockhash]
  constructor
  · rw [hslot]
    exact h.slot_le
  · rw [hhasher, hslot, hexecuted, hprevious]
    exact h.hasher
  · rw [hslot, hblockhash, hexecuted, hprevious]
    exact h.closed
  · rw [hslot, hblocktime]
    exact h.timed
  · rw [hdispatched, hslot]
    exact h.within
  · rw [hexecuted]
    exact h.numbered
  · rw [hindex, hslot, hexecuted]
    exact h.index

lemma of_same (h : Chained x start n) (hsame : SameBooks n n') : Chained x start n' :=
  h.frame hsame.slot hsame.hasher hsame.index (by rw [hsame.ledger]) (by rw [hsame.ledger])
    hsame.dispatched

end Chained

lemma executedIn_dispatch (hfresh : ∀ ctx, txn.mode ≠ .replay ctx) (slot : UInt64) :
    (n.dispatch x e txn).executedIn slot = n.executedIn slot ++
      if txn.mode = .execution ∧ n.slot = slot then [⟨n.slot, n.index, txn⟩] else [] := by
  have hdispatched : (n.dispatch x e txn).history.dispatched = n.history.dispatched ++
      [⟨(n.position txn.mode).1, (n.position txn.mode).2, txn⟩] := rfl
  rw [executedIn, hdispatched, List.filter_append, ← executedIn]
  cases hmode : txn.mode with
  | simulation => simp [hmode]
  | execution => by_cases hslot : n.slot = slot <;> simp [hmode, position, hslot]
  | replay ctx => exact absurd hmode (hfresh ctx)

lemma Chained.dispatch (h : Chained x start n) (hfresh : ∀ ctx, txn.mode ≠ .replay ctx) :
    Chained x start (n.dispatch x e txn) := by
  have hslot : (n.dispatch x e txn).slot = n.slot := rfl
  have hprevious : previousHash start (n.dispatch x e txn) = previousHash start n := rfl
  cases hmode : txn.mode with
  | replay ctx => exact absurd hmode (hfresh ctx)
  | simulation =>
    have hexecuted : (n.dispatch x e txn).executedIn = n.executedIn := by
      funext slot
      simp [executedIn_dispatch hfresh, hmode]
    constructor
    · exact h.slot_le
    · rw [hslot, hprevious, hexecuted, ← h.hasher]
      simp [Node.dispatch, hmode]
    · rw [hslot, hprevious, hexecuted]
      exact h.closed
    · exact h.timed
    · intro d hd hexecution
      rcases List.mem_append.mp hd with hd | hd
      · exact h.within d hd hexecution
      · rw [List.mem_singleton.mp hd, hmode] at hexecution
        cases hexecution
    · rw [hexecuted]
      exact h.numbered
    · rw [hslot, hexecuted, ← h.index]
      simp [Node.dispatch, hmode]
  | execution =>
    constructor
    · exact h.slot_le
    · rw [hslot, hprevious, executedIn_dispatch hfresh, if_pos ⟨hmode, rfl⟩, signaturesOf,
        List.map_append, hashed_append, ← signaturesOf, ← h.hasher]
      simp only [Node.dispatch, hmode, reduceCtorEq, if_false, List.map_cons, List.map_nil]
      exact congrArg _ (List.append_nil _).symm
    · intro slot hle hlt
      rw [executedIn_dispatch hfresh, if_neg, List.append_nil]
      · exact h.closed slot hle hlt
      · rintro ⟨-, rfl⟩
        exact absurd hlt (UInt64.lt_irrefl _)
    · exact h.timed
    · intro d hd hexecution
      rcases List.mem_append.mp hd with hd | hd
      · exact h.within d hd hexecution
      · rw [List.mem_singleton.mp hd]
        simp only [hmode]
        exact ⟨h.slot_le, UInt64.le_refl _⟩
    · intro slot
      rw [executedIn_dispatch hfresh]
      split_ifs with hnew
      · obtain ⟨-, rfl⟩ := hnew
        rw [List.map_append, h.numbered, List.length_append, List.length_singleton,
          List.range_succ, List.map_append, h.index]
        rfl
      · rw [List.append_nil]
        exact h.numbered slot
    · rw [hslot, executedIn_dispatch hfresh, if_pos ⟨hmode, rfl⟩, List.length_append]
      simp [Node.dispatch, hmode, h.index]

lemma Chained.toNat_index (h : Chained x start n)
    (hsize : (n.executedIn n.slot).length < 2 ^ 32) :
    n.index.toNat = (n.executedIn n.slot).length := by
  rw [h.index, UInt32.toNat_ofNat_of_lt' hsize]

lemma toNat_succ {slot : UInt64} (h : slot.toNat + 1 < 2 ^ 64) :
    (slot + 1).toNat = slot.toNat + 1 := by
  rw [UInt64.toNat_add]
  exact Nat.mod_eq_of_lt h

lemma previousHash_writeBlock {slot : UInt64} {hash : Bytes 32} {time : Int64}
    (hledger : n'.ledger = n.ledger.writeBlock n.slot time hash) (hlow : start.slot ≤ slot)
    (hhigh : slot ≤ n.slot) : previousHash start n' slot = previousHash start n slot := by
  -- The hash of a slot does not change what an earlier slot, or the slot itself, builds on.
  unfold previousHash
  split_ifs with hfirst
  · rfl
  · have hne : slot - 1 ≠ n.slot := by
      have hlt : start.slot.toNat < slot.toNat := by
        refine lt_of_le_of_ne (UInt64.le_iff_toNat_le.mp hlow) ?_
        intro heq
        exact hfirst (UInt64.toNat_inj.mp heq.symm)
      have hle := UInt64.le_iff_toNat_le.mp hhigh
      intro heq
      have htoNat : (slot - 1).toNat = slot.toNat - 1 :=
        UInt64.toNat_sub_of_le _ _ (UInt64.le_iff_toNat_le.mpr (by simp; omega))
      rw [heq] at htoNat
      omega
    rw [hledger]
    simp [TransactionLedger.writeBlock, hne]

lemma Chained.closes {checksum : Option UInt64} (h : Chained x start n)
    (hcloses : Closes x out checksum n n') (hledger : out.ledger = .ok ())
    (hlast : n.slot.toNat + 1 < 2 ^ 64) : Chained x start n' := by
  have hsucc : (n.slot + 1).toNat = n.slot.toNat + 1 := toNat_succ hlast
  have hstart := UInt64.le_iff_toNat_le.mp h.slot_le
  have hwritten := hcloses.ledger hledger
  have hexecuted : n'.executedIn = n.executedIn := by
    funext slot
    rw [executedIn, executedIn, hcloses.dispatched]
  have hhash : x.crypto.blake3 n.hasher =
      fold x.crypto (previousHash start n n.slot) (signaturesOf (n.executedIn n.slot)) := by
    rw [h.hasher]
    rfl
  have hempty : n.executedIn (n.slot + 1) = [] := by
    refine List.filter_eq_nil_iff.mpr fun d hd => ?_
    simp only [decide_eq_true_eq]
    rintro ⟨hmode, hslot⟩
    have hle := UInt64.le_iff_toNat_le.mp (h.within d hd hmode).2
    rw [hslot] at hle
    omega
  have hnew : n'.ledger.blockhash n.slot = some (x.crypto.blake3 n.hasher) := by
    rw [hwritten]
    simp [TransactionLedger.writeBlock]
  constructor
  · rw [hcloses.slot, UInt64.le_iff_toNat_le]
    omega
  · have hne : n.slot + 1 ≠ start.slot := by
      intro heq
      rw [heq] at hsucc
      omega
    rw [hcloses.hasher, hcloses.slot, hexecuted, hempty, previousHash, if_neg hne,
      UInt64.add_sub_cancel, hnew]
    exact (List.append_nil _).symm
  · intro slot hlow hlt
    rw [hcloses.slot, UInt64.lt_iff_toNat_lt] at hlt
    have hhigh : slot ≤ n.slot := UInt64.le_iff_toNat_le.mpr (by omega)
    rw [previousHash_writeBlock hwritten hlow hhigh, hexecuted]
    by_cases heq : slot = n.slot
    · rw [heq, hnew, hhash]
    · have hold := h.closed slot hlow (UInt64.lt_of_le_of_ne hhigh heq)
      rw [← hold, hwritten]
      simp [TransactionLedger.writeBlock, heq]
  · intro slot hlow hlt
    rw [hcloses.slot, UInt64.lt_iff_toNat_lt] at hlt
    rw [hwritten]
    by_cases heq : slot = n.slot
    · simp [TransactionLedger.writeBlock, heq]
    · have hhigh : slot ≤ n.slot := UInt64.le_iff_toNat_le.mpr (by omega)
      have hold := h.timed slot hlow (UInt64.lt_of_le_of_ne hhigh heq)
      simpa [TransactionLedger.writeBlock, heq] using hold
  · rw [hcloses.dispatched, hcloses.slot]
    intro d hd hmode
    obtain ⟨hlow, hhigh⟩ := h.within d hd hmode
    refine ⟨hlow, UInt64.le_iff_toNat_le.mpr ?_⟩
    have := UInt64.le_iff_toNat_le.mp hhigh
    omega
  · rw [hexecuted]
    exact h.numbered
  · rw [hcloses.index, hcloses.slot, hexecuted, hempty]
    rfl

/-- A node that leads from here on, at the beginning of a slot. -/
structure MadePrimary (x : Setup) (start : Node) : Prop extends Rested x start where
  isPrimary : start.coordinator.isPrimary = true
  index : start.index = 0
  hasher : start.hasher = (initialBlockhash start.latestBlock start.slotHashes).val

lemma Rested.madePrimary (h : Rested x n) (hindex : n.index = 0)
    (hhasher : n.hasher = (initialBlockhash n.latestBlock n.slotHashes).val) :
    MadePrimary x (n.switchMode .primary) :=
  { h.switchMode .primary with
    isPrimary := n.coordinator.isPrimary_switchToPrimaryMode
    index := hindex
    hasher := hhasher }

lemma Fresh.madePrimary (h : Fresh n) : MadePrimary x (n.switchMode .primary) := by
  refine (Rested.of_fresh h).madePrimary ?_ ?_
  all_goals
    obtain ⟨executors, ledger, latestBlock, accountsdbSlot, slotHashes, rfl⟩ := h
    rfl

/-- A run that leads: made a primary and never a replica, its ledger takes every block, and it
does not come to the last slot there is. -/
structure Leads (x : Setup) (start : Node) (t : List (Traces.Entry Node Event)) (n : Node) : Prop where
  run : Run x start t n
  made : MadePrimary x start
  stays : ∀ entry ∈ t, entry.event ≠ .switch .replica
  written : ∀ entry ∈ t, ∀ out, entry.event.closing = some out → out.ledger = .ok ()
  slots : ∀ entry ∈ t, entry.before.slot.toNat + 1 < 2 ^ 64

/-- A node that is made a primary at rest and at the beginning of a slot leads from there on,
whatever it has on record. -/
theorem leads_of_isIdle {t' : List (Traces.Entry Node Event)} (hstart : Fresh start)
    (h : Run x start t n) (hdistinct : ∀ txn ∈ n.history.accepted, txn.Distinct)
    (hlooping : n.phase = .looping) (hidle : n.coordinator.isIdle = true) (hindex : n.index = 0)
    (hhasher : n.hasher = (initialBlockhash n.latestBlock n.slotHashes).val)
    (hrun : Run x (n.switchMode .primary) t' n')
    (hstays : ∀ entry ∈ t', entry.event ≠ .switch .replica)
    (hwritten : ∀ entry ∈ t', ∀ out, entry.event.closing = some out → out.ledger = .ok ())
    (hslots : ∀ entry ∈ t', entry.before.slot.toNat + 1 < 2 ^ 64) :
    ∃ t₀ n₀, Leads x (n.cleared.switchMode .primary) t₀ n₀ ∧
      t' = t₀.map (Traces.Entry.map (after n)) ∧ n' = after n n₀ := by
  have hmade : MadePrimary x (n.cleared.switchMode .primary) :=
    (h.rested hstart hdistinct hlooping hidle).madePrimary hindex hhasher
  rw [← after_cleared n, switchMode_after] at hrun
  obtain ⟨t₀, n₀, hrun₀, rfl, rfl⟩ := hrun.of_after
  rw [List.forall_mem_map] at hstays hwritten hslots
  exact ⟨t₀, n₀, ⟨hrun₀, hmade, hstays, hwritten, hslots⟩, rfl, rfl⟩

lemma not_replay_of_allowed {c : ExecutionCoordinator} {mode : TransactionProcessingMode}
    (hprimary : c.isPrimary = true) (hallowed : c.isTransactionAllowed mode) (ctx : ReplayPosition) :
    mode ≠ .replay ctx := by
  rintro rfl
  unfold ExecutionCoordinator.isPrimary at hprimary
  unfold ExecutionCoordinator.isTransactionAllowed at hallowed
  split at hprimary <;> simp_all

lemma Moves.not_replay {event : Event} (hmoves : Moves x n event n') (hsound : n.Sound x)
    (hprimary : n.coordinator.isPrimary = true)
    (h : ∀ txn ∈ n.history.accepted, ∀ ctx, txn.mode ≠ .replay ctx) :
    ∀ txn ∈ n'.history.accepted, ∀ ctx, txn.mode ≠ .replay ctx := by
  cases hmoves with
  | quiet hquiet => rwa [hquiet.accepted]
  | switched mode => cases mode <;> exact h
  | received hinbox => exact h
  | finished hworking => exact h
  | @accepted _ txn e rest hpending hready hmode hallowed hpermit =>
    rw [(scheduleTransaction_untouched x (n.accepting txn rest) e ⟨n.counter, txn⟩).accepted]
    intro txn' hmem
    rcases List.mem_append.mp hmem with hmem | hmem
    · exact h txn' hmem
    · rw [List.mem_singleton.mp hmem]
      exact not_replay_of_allowed hprimary hallowed
  | reported hrx hquiet => rwa [hquiet.accepted, (hsound.untouched hrx).accepted]

lemma Writes.isPrimary {event : Event} (h : Writes x n event n') (hstays : event ≠ .switch .replica)
    (hprimary : n.coordinator.isPrimary = true) : n'.coordinator.isPrimary = true := by
  cases h with
  | same hsame => exact hsame.isPrimary.trans hprimary
  | scheduled hkeeps => exact hkeeps (Kept.isPrimary true) (fun _ _ => trivial) hprimary
  | finished hworking => exact hprimary
  | closed hevent hprimary' hcloses => exact hcloses.isPrimary.trans hprimary
  | switched mode =>
    cases mode with
    | primary => exact n.coordinator.isPrimary_switchToPrimaryMode
    | replica => exact absurd rfl hstays
  | adopted hfollows => exact absurd hprimary (by simp [hfollows])

lemma Chained.writes {event : Event} (h : Chained x start n) (hwrites : Writes x n event n')
    (hprimary : n.coordinator.isPrimary = true) (hstays : event ≠ .switch .replica)
    (hwritten : ∀ out, event.closing = some out → out.ledger = .ok ())
    (hslot : n.slot.toNat + 1 < 2 ^ 64)
    (hfresh : ∀ txn ∈ n'.history.accepted, ∀ ctx, txn.mode ≠ .replay ctx) :
    Chained x start n' := by
  cases hwrites with
  | same hsame => exact h.of_same hsame
  | scheduled hkeeps =>
    refine hkeeps ⟨?_, ?_⟩ hfresh h
    · intro m m' hsame hm
      exact hm.of_same hsame
    · intro m e txn _ hnew _ hm
      exact hm.dispatch hnew
  | finished hworking =>
    exact h.frame rfl rfl rfl finish_blocks.1 finish_blocks.2 rfl
  | closed hevent _ hcloses => exact h.closes hcloses (hwritten _ hevent) hslot
  | switched mode =>
    cases mode with
    | primary => exact h.frame rfl rfl rfl rfl rfl rfl
    | replica => exact absurd rfl hstays
  | adopted hfollows => exact absurd hprimary (by simp [hfollows])

namespace Leads

lemma primary (h : Leads x start t n) :
    n.coordinator.isPrimary = true ∧ ∀ txn ∈ n.history.accepted, ∀ ctx, txn.mode ≠ .replay ctx := by
  have hall : n.Drains ∧ n.coordinator.isPrimary = true ∧
      ∀ txn ∈ n.history.accepted, ∀ ctx, txn.mode ≠ .replay ctx := by
    refine h.run.keeps (J := fun m => m.Drains ∧ m.coordinator.isPrimary = true ∧
      ∀ txn ∈ m.history.accepted, ∀ ctx, txn.mode ≠ .replay ctx) h.made.sound
      ⟨h.made.drains, h.made.isPrimary, ?_⟩ ?_
    · rw [h.made.history]
      simp [History.empty]
    · rintro entry hentry hsound hone ⟨hdrains, hprimary, haccepted⟩
      exact ⟨hdrains.step hsound hone,
        (step_writes hsound hdrains hone).isPrimary (h.stays entry hentry) hprimary,
        (step_moves hone).not_replay hsound hprimary haccepted⟩
  exact hall.2

lemma chained_start (h : Leads x start t n) : Chained x start start := by
  have hexecuted : ∀ slot, start.executedIn slot = [] := by
    intro slot
    rw [executedIn, h.made.history]
    rfl
  constructor
  · exact UInt64.le_refl _
  · rw [previousHash, if_pos rfl, hexecuted, h.made.hasher]
    exact (List.append_nil _).symm
  · intro slot hle hlt
    exact absurd (UInt64.lt_of_lt_of_le hlt hle) (UInt64.lt_irrefl _)
  · intro slot hle hlt
    exact absurd (UInt64.lt_of_lt_of_le hlt hle) (UInt64.lt_irrefl _)
  · rw [h.made.history]
    intro d hd
    cases hd
  · intro slot
    rw [hexecuted]
    rfl
  · rw [hexecuted]
    exact h.made.index

theorem keeps {J : Node → Prop} (h : Leads x start t n) (h0 : J start)
    (hstep : ∀ entry ∈ t, entry.before.coordinator.isPrimary = true →
      Chained x start entry.before →
      (∀ txn ∈ entry.after.history.accepted, ∀ ctx, txn.mode ≠ .replay ctx) →
      entry.before.Sound x → Writes x entry.before entry.event entry.after →
      J entry.before → J entry.after) :
    Chained x start n ∧ J n := by
  have hall : n.coordinator.isPrimary = true ∧ Chained x start n ∧ J n := by
    refine h.run.keeps_books
      (J := fun m => m.coordinator.isPrimary = true ∧ Chained x start m ∧ J m)
      h.made.sound h.made.drains h.primary.2 ⟨h.made.isPrimary, h.chained_start, h0⟩ ?_
    rintro entry hentry hsound hfresh hwrites ⟨hprimary, hchained, hJ⟩
    exact ⟨hwrites.isPrimary (h.stays entry hentry) hprimary,
      hchained.writes hwrites hprimary (h.stays entry hentry) (h.written entry hentry)
        (h.slots entry hentry) hfresh,
      hstep entry hentry hprimary hchained hfresh hsound hwrites hJ⟩
  exact hall.2

lemma chained (h : Leads x start t n) : Chained x start n :=
  (h.keeps (J := fun _ => True) trivial fun _ _ _ _ _ _ _ _ => trivial).1

end Leads

lemma exists_leads {α : Type*} {f : Node → α} {v : α} {first : Node} (hfirst : Fresh first)
    (events : List Event) (hstays : ∀ event ∈ events, event ≠ .switch .replica)
    (hwritten : ∀ event ∈ events, ∀ out, event.closing = some out → out.ledger = .ok ())
    (hslots : ∀ k ≤ events.length, ((first.switchMode .primary).play x (events.take k)).all
      (fun m => decide (m.slot.toNat + 1 < 2 ^ 64)) = true)
    (h : ((first.switchMode .primary).play x events).map f = some v) :
    ∃ t n, Leads x (first.switchMode .primary) t n ∧ f n = v := by
  obtain ⟨t, n, hrun, hevents, hv⟩ := exists_run events h
  refine ⟨t, n, ⟨hrun, hfirst.madePrimary, Traces.forall_of_events hevents hstays,
    Traces.forall_of_events hevents hwritten, ?_⟩, hv⟩
  intro entry hentry
  exact of_decide_eq_true (Traces.forall_before_of_play hrun hevents hslots entry hentry)

namespace Vectors

/-- Two payments in one slot, and one in the next. -/
def twoSlots : List Event :=
  send (.transaction (executed 1)) ++ send (.transaction (executed 2)) ++ complete 1 ++ complete 0 ++
    [.tick outside] ++ send (.transaction (executed 3)) ++ complete 0

lemma exists_twoSlots {α : Type*} {f : Node → α} {v : α}
    (h : ((twoExecutors.switchMode .primary).play setup twoSlots).map f = some v) :
    ∃ t n, Leads setup (twoExecutors.switchMode .primary) t n ∧ f n = v := by
  refine exists_leads twoExecutors_fresh twoSlots ?_ ?_ (by decide +kernel) h
  · simp [twoSlots, send, complete]
  · simp [twoSlots, send, complete, Event.closing, outside]

/-- A payment replayed with its block. -/
def caughtUp : List Event :=
  send (.transaction (replayed 1 0)) ++ complete 1 ++
    send (.block ⟨9, Bytes.fill 32 7, 1754300123⟩)

/-- A payment of its own, in a slot that ends with a snapshot. -/
def takenOver : List Event :=
  send (.transaction (executed 2)) ++ complete 1 ++ [.tick outside, .checkpoint outside]

end Vectors

/-- Every closed slot of a primary is in its ledger, under the hash of the slot before it and of
the signatures started in it, which are numbered from zero in the order of the hash. -/
theorem blockhash_eq (h : Leads x start t n) {slot : UInt64} (hlow : start.slot ≤ slot)
    (hclosed : slot < n.slot) :
    n.ledger.blockhash slot =
        some (fold x.crypto (previousHash start n slot) (signaturesOf (n.executedIn slot))) ∧
      (n.executedIn slot).map IndexedTransaction.index =
        (List.range (n.executedIn slot).length).map UInt32.ofNat :=
  ⟨h.chained.closed slot hlow hclosed, h.chained.numbered slot⟩

theorem blockhash_eq_takenOver : ∃ t n t' n' t₀ n₀,
    Run Vectors.setup Vectors.twoExecutors t n ∧
    Run Vectors.setup (n.switchMode .primary) t' n' ∧
    n'.history.dispatched = [⟨9, 0, Vectors.replayed 1 0⟩, ⟨10, 0, Vectors.executed 2⟩] ∧
    n' = after n n₀ ∧ Leads Vectors.setup (n.cleared.switchMode .primary) t₀ n₀ ∧ n₀.slot = 11 ∧
    n₀.ledger.blockhash 10 =
        some (fold Vectors.setup.crypto (previousHash (n.cleared.switchMode .primary) n₀ 10)
          (signaturesOf (n₀.executedIn 10))) ∧
      (n₀.executedIn 10).map IndexedTransaction.index =
        (List.range (n₀.executedIn 10).length).map UInt32.ofNat := by
  obtain ⟨t, n, hrun, -, hfacts⟩ := exists_run (x := Vectors.setup) (n := Vectors.twoExecutors)
    Vectors.caughtUp
    (f := fun n => (decide ((∀ txn ∈ n.history.accepted, txn.Distinct) ∧ n.phase = .looping ∧
        n.coordinator.isIdle = true ∧ n.index = 0 ∧
        n.hasher = (initialBlockhash n.latestBlock n.slotHashes).val ∧ n.slot = 10 ∧
        ∀ k ≤ Vectors.takenOver.length,
          ((n.switchMode .primary).play Vectors.setup (Vectors.takenOver.take k)).all
            (fun m => decide (m.slot.toNat + 1 < 2 ^ 64)) = true),
      ((n.switchMode .primary).play Vectors.setup Vectors.takenOver).map fun n' =>
        (n'.slot, n'.history.dispatched)))
    (v := (true, some (11, [⟨9, 0, Vectors.replayed 1 0⟩, ⟨10, 0, Vectors.executed 2⟩])))
    (by decide +kernel)
  obtain ⟨hrested, hplay⟩ := Prod.mk.inj hfacts
  obtain ⟨hdistinct, hlooping, hidle, hindex, hhasher, hslot, hslots⟩ := of_decide_eq_true hrested
  obtain ⟨t', n', hrun', hevents, hfacts'⟩ := exists_run _ hplay
  have hstays : ∀ event ∈ Vectors.takenOver, event ≠ .switch .replica := by
    simp [Vectors.takenOver, Vectors.send, Vectors.complete]
  have hwritten : ∀ event ∈ Vectors.takenOver, ∀ out, event.closing = some out →
      out.ledger = .ok () := by
    simp [Vectors.takenOver, Vectors.send, Vectors.complete, Event.closing, Vectors.outside]
  have hbefore := Traces.forall_before_of_play hrun' hevents hslots
  obtain ⟨t₀, n₀, hleads, -, rfl⟩ := leads_of_isIdle Vectors.twoExecutors_fresh hrun hdistinct
    hlooping hidle hindex hhasher hrun' (Traces.forall_of_events hevents hstays)
    (Traces.forall_of_events hevents hwritten) fun entry hentry =>
      of_decide_eq_true (hbefore entry hentry)
  obtain ⟨hslot', hdispatched⟩ := Prod.mk.inj hfacts'
  have hslot₀ : n₀.slot = 11 := hslot'
  refine ⟨t, n, t', _, t₀, n₀, hrun, hrun', hdispatched, rfl, hleads, hslot₀,
    blockhash_eq hleads (UInt64.le_of_eq hslot) ?_⟩
  rw [hslot₀]
  decide

end Node

end Blitz.Scheduler
