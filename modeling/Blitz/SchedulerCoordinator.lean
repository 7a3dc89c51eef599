import Blitz.SchedulerLocks
import Blitz.IngressTransactions

/-! The coordinator of the scheduler: which executor is free, who holds which account, and
which transactions wait behind whom. -/
namespace Blitz.Scheduler
open LittleEndian Solana Validator WorkerPool

abbrev TransactionId := ℕ

structure ReplayPosition where
  slot : UInt64
  index : UInt32
  persist : Bool
  deriving DecidableEq

inductive TransactionProcessingMode
  | simulation
  | execution
  | replay (ctx : ReplayPosition)
  deriving DecidableEq

structure ProcessableTransaction where
  transaction : SanitizedTransaction
  mode : TransactionProcessingMode
  encoded : Option (List UInt8)
  deriving DecidableEq

/-- The accounts of a message in its order, each with whether it is written. -/
def ProcessableTransaction.claims (isWritable : VersionedMessage → ℕ → Bool)
    (txn : ProcessableTransaction) : List (Bytes 32 × Bool) :=
  txn.transaction.versioned.message.staticAccountKeys.zipIdx.map fun key =>
    (key.1, isWritable txn.transaction.versioned.message key.2)

structure TransactionWithId where
  id : TransactionId
  txn : ProcessableTransaction
  deriving DecidableEq

structure PrimaryMode where
  blockedTxnCount : ℕ
  maxBlockedTxn : ℕ
  deriving DecidableEq

structure ReplicaMode where
  pending : Option TransactionId
  deriving DecidableEq

inductive CoordinationMode
  | startingUp (r : ReplicaMode)
  | primary (p : PrimaryMode)
  | replica (r : ReplicaMode)
  deriving DecidableEq

def CoordinationMode.isReady : CoordinationMode → Bool
  | .startingUp r => r.pending.isNone
  | .primary p => p.blockedTxnCount < p.maxBlockedTxn
  | .replica r => r.pending.isNone

def blockedTxnMultiplier : ℕ := 2

/-- The heaps are lists by rising id, and the executor released last is the first to be
taken again. -/
structure ExecutionCoordinator where
  count : ℕ
  blockedTransactions : ExecutorId → List TransactionWithId
  readyExecutors : List ExecutorId
  acquiredLocks : ExecutorId → List (Bytes 32)
  locks : Bytes 32 → AccountLock
  mode : CoordinationMode

namespace ExecutionCoordinator

def new (count : ℕ) : ExecutionCoordinator where
  count := count
  blockedTransactions := fun _ => []
  readyExecutors := (List.range count).reverse
  acquiredLocks := fun _ => []
  locks := fun _ => .default
  mode := .startingUp ⟨none⟩

def isReady (c : ExecutionCoordinator) : Bool := !c.readyExecutors.isEmpty && c.mode.isReady

def getReadyExecutor (c : ExecutionCoordinator) : Option (ExecutorId × ExecutionCoordinator) :=
  match c.readyExecutors with
  | [] => none
  | executor :: rest => some (executor, { c with readyExecutors := rest })

def releaseExecutor (c : ExecutionCoordinator) (executor : ExecutorId) : ExecutionCoordinator :=
  { c with readyExecutors := executor :: c.readyExecutors }

def unlockAccounts (c : ExecutionCoordinator) (executor : ExecutorId) : ExecutionCoordinator :=
  { c with
    locks := (c.acquiredLocks executor).foldl
      (fun locks acc => Function.update locks acc ((locks acc).unlock executor)) c.locks
    acquiredLocks := Function.update c.acquiredLocks executor [] }

/-- All or nothing: at the first refusal everything is given back. -/
def acquire (executor : ExecutorId) :
    List (Bytes 32 × Bool) → ExecutionCoordinator → Except ExecutorId Unit × ExecutionCoordinator
  | [], c => (.ok (), c)
  | (acc, writable) :: rest, c =>
    match if writable then (c.locks acc).write executor else (c.locks acc).read executor with
    | .error blocker => (.error blocker, c.unlockAccounts executor)
    | .ok lock =>
      acquire executor rest
        { c with
          locks := Function.update c.locks acc lock
          acquiredLocks := Function.update c.acquiredLocks executor
            (c.acquiredLocks executor ++ [acc]) }

def tryAcquireLocks (isWritable : VersionedMessage → ℕ → Bool) (c : ExecutionCoordinator)
    (executor : ExecutorId) (txn : ProcessableTransaction) :
    Except ExecutorId Unit × ExecutionCoordinator :=
  acquire executor (txn.claims isWritable) c

def queueTransaction (c : ExecutionCoordinator) (blocker : ExecutorId) (txn : TransactionWithId) :
    ExecutionCoordinator :=
  { c with
    mode := match c.mode with
      | .startingUp _ => .startingUp ⟨some txn.id⟩
      | .replica _ => .replica ⟨some txn.id⟩
      | .primary p => .primary { p with blockedTxnCount := p.blockedTxnCount + 1 }
    blockedTransactions := Function.update c.blockedTransactions blocker
      ((c.blockedTransactions blocker).orderedInsert (fun a b => a.id ≤ b.id) txn) }

def trySchedule (isWritable : VersionedMessage → ℕ → Bool) (c : ExecutionCoordinator)
    (executor : ExecutorId) (txn : TransactionWithId) :
    Except ExecutorId ProcessableTransaction × ExecutionCoordinator :=
  match c.tryAcquireLocks isWritable executor txn.txn with
  | (.ok (), c) => (.ok txn.txn, c)
  | (.error blocker, c) => (.error blocker, (c.releaseExecutor executor).queueTransaction blocker txn)

def nextBlockedTransaction (c : ExecutionCoordinator) (executor : ExecutorId) :
    Option TransactionWithId × ExecutionCoordinator :=
  let txn := (c.blockedTransactions executor).head?
  let cleared (r : ReplicaMode) : ReplicaMode :=
    if r.pending = txn.map TransactionWithId.id then ⟨none⟩ else r
  (txn,
    { c with
      mode := match c.mode with
        | .startingUp r => .startingUp (cleared r)
        | .replica r => .replica (cleared r)
        | .primary p =>
          .primary { p with blockedTxnCount := p.blockedTxnCount - txn.isSome.toNat }
      blockedTransactions := Function.update c.blockedTransactions executor
        (c.blockedTransactions executor).tail })

def switchToPrimaryMode (c : ExecutionCoordinator) : ExecutionCoordinator :=
  match c.mode with
  | .primary _ => c
  | _ => { c with mode := .primary ⟨0, c.count * blockedTxnMultiplier⟩ }

def switchToReplicaMode (c : ExecutionCoordinator) : ExecutionCoordinator :=
  match c.mode with
  | .replica _ => c
  | .primary _ => { c with mode := .replica ⟨none⟩ }
  | .startingUp r => { c with mode := .replica r }

def isTransactionAllowed (c : ExecutionCoordinator) (mode : TransactionProcessingMode) : Bool :=
  match c.mode, mode with
  | .primary _, .replay _ => false
  | .startingUp _, .execution => false
  | .replica _, .execution => false
  | _, _ => true

def isPrimary (c : ExecutionCoordinator) : Bool :=
  match c.mode with
  | .primary _ => true
  | _ => false

def isIdle (c : ExecutionCoordinator) : Bool := c.readyExecutors.length = c.count

section Fields
variable (c : ExecutionCoordinator) (e : ExecutorId) (txn : TransactionWithId)

@[simp] lemma blockedTransactions_queueTransaction :
    (c.queueTransaction e txn).blockedTransactions =
      Function.update c.blockedTransactions e
        ((c.blockedTransactions e).orderedInsert (fun a b => a.id ≤ b.id) txn) := rfl

@[simp] lemma readyExecutors_queueTransaction :
    (c.queueTransaction e txn).readyExecutors = c.readyExecutors := rfl

@[simp] lemma count_queueTransaction : (c.queueTransaction e txn).count = c.count := rfl

@[simp] lemma isPrimary_queueTransaction :
    (c.queueTransaction e txn).isPrimary = c.isPrimary := by
  unfold queueTransaction isPrimary
  cases c.mode <;> rfl

lemma isPrimary_switchToPrimaryMode : c.switchToPrimaryMode.isPrimary = true := by
  unfold switchToPrimaryMode isPrimary
  cases hmode : c.mode <;> simp [hmode]

@[simp] lemma nextBlockedTransaction_fst :
    (c.nextBlockedTransaction e).1 = (c.blockedTransactions e).head? := rfl

@[simp] lemma blockedTransactions_nextBlockedTransaction :
    (c.nextBlockedTransaction e).2.blockedTransactions =
      Function.update c.blockedTransactions e (c.blockedTransactions e).tail := rfl

@[simp] lemma readyExecutors_nextBlockedTransaction :
    (c.nextBlockedTransaction e).2.readyExecutors = c.readyExecutors := rfl

@[simp] lemma count_nextBlockedTransaction : (c.nextBlockedTransaction e).2.count = c.count := rfl

@[simp] lemma isPrimary_nextBlockedTransaction :
    (c.nextBlockedTransaction e).2.isPrimary = c.isPrimary := by
  unfold nextBlockedTransaction isPrimary
  cases c.mode <;> rfl

@[simp] lemma blockedTransactions_releaseExecutor :
    (c.releaseExecutor e).blockedTransactions = c.blockedTransactions := rfl

@[simp] lemma readyExecutors_releaseExecutor :
    (c.releaseExecutor e).readyExecutors = e :: c.readyExecutors := rfl

@[simp] lemma count_releaseExecutor : (c.releaseExecutor e).count = c.count := rfl

@[simp] lemma isPrimary_releaseExecutor : (c.releaseExecutor e).isPrimary = c.isPrimary := rfl

@[simp] lemma blockedTransactions_unlockAccounts :
    (c.unlockAccounts e).blockedTransactions = c.blockedTransactions := rfl

@[simp] lemma readyExecutors_unlockAccounts :
    (c.unlockAccounts e).readyExecutors = c.readyExecutors := rfl

@[simp] lemma count_unlockAccounts : (c.unlockAccounts e).count = c.count := rfl

@[simp] lemma isPrimary_unlockAccounts : (c.unlockAccounts e).isPrimary = c.isPrimary := rfl

end Fields

/-- The words of the table, and the list kept for unlocking, say who holds what. -/
structure LocksHeld (c : ExecutionCoordinator) (held : ExecutorId → List (Bytes 32 × Bool)) :
    Prop where
  shown : ∀ acc, (c.locks acc).Shows (fun e => ∃ w, (acc, w) ∈ held e)
    (fun e => (acc, true) ∈ held e)
  acquired : ∀ e, c.acquiredLocks e = (held e).map Prod.fst
  apart : ∀ e, Apart (held e)

variable {c c' : ExecutionCoordinator} {held : ExecutorId → List (Bytes 32 × Bool)}
  {e b : ExecutorId}

lemma locksHeld_new (count : ℕ) : (new count).LocksHeld fun _ => [] where
  shown := by simpa [new] using AccountLock.Shows.default
  acquired := by simp [new]
  apart := by simp [Apart]

namespace LocksHeld

lemma exclusive (h : c.LocksHeld held) : Exclusive held :=
  exclusive_of_alone fun acc e e' w hw hh => (h.shown acc).alone e e' hw ⟨w, hh⟩

lemma unique (h : c.LocksHeld held) (h' : c'.LocksHeld held) :
    c'.locks = c.locks ∧ c'.acquiredLocks = c.acquiredLocks := by
  constructor
  · funext acc
    exact (h'.shown acc).unique (h.shown acc)
  · funext e
    rw [h'.acquired, h.acquired]

lemma apart_self {claims : List (Bytes 32 × Bool)} (h : c.LocksHeld (Function.update held e claims)) :
    Apart claims := by
  simpa using h.apart e

lemma grant (h : c.LocksHeld held) (he : e < maxSvmExecutors) {acc : Bytes 32} {writable : Bool}
    {lock : AccountLock}
    (hok : (if writable then (c.locks acc).write e else (c.locks acc).read e) = .ok lock) :
    LocksHeld
      { c with
        locks := Function.update c.locks acc lock
        acquiredLocks := Function.update c.acquiredLocks e (c.acquiredLocks e ++ [acc]) }
      (Function.update held e (held e ++ [(acc, writable)])) := by
  have hmem : ∀ i k w, (k, w) ∈ Function.update held e (held e ++ [(acc, writable)]) i ↔
      (k, w) ∈ held i ∨ i = e ∧ (k, w) = (acc, writable) := by
    intro i k w
    by_cases hi : i = e
    · subst hi
      simp
    · simp [hi]
  constructor
  · intro k
    simp only [hmem]
    by_cases hk : k = acc
    · subst hk
      rw [Function.update_self]
      cases writable with
      | false =>
        obtain ⟨-, hshows⟩ := (h.shown k).read_ok he hok
        refine hshows.congr ?_ ?_
        · intro i
          simp [exists_or]
        · intro i
          simp
      | true =>
        obtain ⟨hnone, hshows⟩ := (h.shown k).write_ok he hok
        refine hshows.congr ?_ ?_
        · intro i
          have := hnone i
          simp_all
        · intro i
          have hi : (k, true) ∉ held i := fun hi => hnone i ⟨true, hi⟩
          simp [hi]
    · rw [Function.update_of_ne hk]
      simpa [hk] using h.shown k
  · intro i
    by_cases hi : i = e
    · subst hi
      simp [h.acquired i]
    · simp [hi, h.acquired i]
  · intro i
    by_cases hi : i = e
    · subst hi
      rw [Function.update_self, Apart, List.pairwise_append]
      refine ⟨h.apart i, List.pairwise_singleton _ _, ?_⟩
      rintro ⟨k, w⟩ hw claim hclaim heq
      obtain rfl := List.mem_singleton.mp hclaim
      obtain rfl : k = acc := heq
      -- whoever held the account already was this executor, and both only read it
      cases writable with
      | false =>
        obtain ⟨hnone, -⟩ := (h.shown k).read_ok he hok
        cases w with
        | false => exact ⟨rfl, rfl⟩
        | true => exact absurd hw (hnone i)
      | true =>
        obtain ⟨hnone, -⟩ := (h.shown k).write_ok he hok
        exact absurd ⟨w, hw⟩ (hnone i)
    · rw [Function.update_of_ne hi]
      exact h.apart i

end LocksHeld

lemma unlockAccounts_locks (c : ExecutionCoordinator) (e : ExecutorId) (acc : Bytes 32) :
    (c.unlockAccounts e).locks acc =
      if acc ∈ c.acquiredLocks e then (c.locks acc).unlock e else c.locks acc := by
  have hfold : ∀ (accs : List (Bytes 32)) (locks : Bytes 32 → AccountLock),
      accs.foldl (fun locks acc => Function.update locks acc ((locks acc).unlock e)) locks acc =
        if acc ∈ accs then (locks acc).unlock e else locks acc := by
    intro accs
    induction accs with
    | nil => simp
    | cons a accs ih =>
      intro locks
      rw [List.foldl_cons, ih]
      by_cases ha : acc = a
      · subst ha
        simp [AccountLock.unlock_unlock]
      · simp [ha]
  exact hfold _ _

lemma LocksHeld.unlockAccounts (h : c.LocksHeld held) (e : ExecutorId) :
    (c.unlockAccounts e).LocksHeld (Function.update held e []) := by
  have hmem : ∀ i k w, (k, w) ∈ Function.update held e [] i ↔ (k, w) ∈ held i ∧ i ≠ e := by
    intro i k w
    by_cases hi : i = e
    · subst hi
      simp
    · simp [hi]
  constructor
  · intro acc
    rw [unlockAccounts_locks, h.acquired]
    split_ifs with hacc
    · obtain ⟨w, hw⟩ : ∃ w, (acc, w) ∈ held e := by simpa using hacc
      refine ((h.shown acc).unlock ⟨w, hw⟩).congr ?_ ?_
      · intro i
        simp [hmem]
      · intro i
        simp [hmem]
    · have hnot : ∀ w, (acc, w) ∉ held e := by
        intro w hw
        exact hacc (List.mem_map.mpr ⟨(acc, w), hw, rfl⟩)
      have hstays : ∀ i w, (acc, w) ∈ Function.update held e [] i ↔ (acc, w) ∈ held i := by
        intro i w
        rw [hmem, and_iff_left_iff_imp]
        rintro hi rfl
        exact hnot w hi
      refine (h.shown acc).congr ?_ ?_
      · intro i
        simp only [hstays]
      · intro i
        exact hstays i true
  · intro i
    by_cases hi : i = e
    · subst hi
      simp [ExecutionCoordinator.unlockAccounts]
    · simp [ExecutionCoordinator.unlockAccounts, hi, h.acquired i]
  · intro i
    by_cases hi : i = e
    · subst hi
      simp [Apart]
    · rw [Function.update_of_ne hi]
      exact h.apart i

lemma LocksHeld.refusal (h : c.LocksHeld held) {acc : Bytes 32} {writable : Bool}
    (herror : (if writable then (c.locks acc).write e else (c.locks acc).read e) = .error b) :
    ∃ w, (acc, w) ∈ held b ∧ (writable = true ∨ w = true) := by
  cases writable with
  | false => exact ⟨true, (h.shown acc).read_error herror, .inr rfl⟩
  | true =>
    obtain ⟨w, hw⟩ := (h.shown acc).write_error herror
    exact ⟨w, hw, .inl rfl⟩

lemma LocksHeld.acquire (he : e < maxSvmExecutors) (claims : List (Bytes 32 × Bool))
    (h : c.LocksHeld held) :
    (∃ c', acquire e claims c = (.ok (), c') ∧
      c'.LocksHeld (Function.update held e (held e ++ claims)) ∧
      c' = { c with locks := c'.locks, acquiredLocks := c'.acquiredLocks }) ∨
    (∃ b c', acquire e claims c = (.error b, c') ∧
      c'.LocksHeld (Function.update held e []) ∧
      c' = { c with locks := c'.locks, acquiredLocks := c'.acquiredLocks } ∧
      ∃ before claim after w, claims = before ++ claim :: after ∧
        (claim.1, w) ∈ Function.update held e (held e ++ before) b ∧
        (claim.2 = true ∨ w = true)) := by
  -- An attempt either adds all the claims, or stops at one that somebody refuses and gives back
  -- whatever the executor had.
  induction claims generalizing c held with
  | nil => exact .inl ⟨c, rfl, by simpa using h, rfl⟩
  | cons claim claims ih =>
    obtain ⟨acc, writable⟩ := claim
    cases hlock : if writable then (c.locks acc).write e else (c.locks acc).read e with
    | error b =>
      obtain ⟨w, hw, hclash⟩ := h.refusal hlock
      refine .inr ⟨b, c.unlockAccounts e, by simp only [ExecutionCoordinator.acquire, hlock],
        h.unlockAccounts e, rfl, [], (acc, writable), claims, w, rfl, by simpa using hw, hclash⟩
    | ok lock =>
      have hstep : ExecutionCoordinator.acquire e ((acc, writable) :: claims) c =
          ExecutionCoordinator.acquire e claims
            { c with
              locks := Function.update c.locks acc lock
              acquiredLocks := Function.update c.acquiredLocks e (c.acquiredLocks e ++ [acc]) } := by
        simp only [ExecutionCoordinator.acquire, hlock]
      have hmore : held e ++ (acc, writable) :: claims = held e ++ [(acc, writable)] ++ claims := by
        simp
      rw [hstep, hmore]
      rcases ih (h.grant he hlock) with ⟨c', hrun, hheld, hframe⟩ |
        ⟨b, c', hrun, hheld, hframe, before, claim, after, w, rfl, hw, hclash⟩
      · refine .inl ⟨c', hrun, ?_, hframe⟩
        simpa using hheld
      · refine .inr ⟨b, c', hrun, ?_, hframe, (acc, writable) :: before, claim, after, w, rfl, ?_,
          hclash⟩
        · simpa using hheld
        · simpa using hw

lemma LocksHeld.trySchedule (isWritable : VersionedMessage → ℕ → Bool) (h : c.LocksHeld held)
    (he : e < maxSvmExecutors) (hfree : held e = []) (txn : TransactionWithId) :
    (∃ c', c.trySchedule isWritable e txn = (.ok txn.txn, c') ∧
      c'.LocksHeld (Function.update held e (txn.txn.claims isWritable)) ∧
      c' = { c with locks := c'.locks, acquiredLocks := c'.acquiredLocks }) ∨
    (∃ b, c.trySchedule isWritable e txn =
        (.error b, (c.releaseExecutor e).queueTransaction b txn) ∧
      (b ≠ e → Clash (txn.txn.claims isWritable) (held b)) ∧
      (((txn.txn.claims isWritable).map Prod.fst).Nodup → b ≠ e)) := by
  rcases h.acquire he (txn.txn.claims isWritable) with
    ⟨c', hrun, hheld, hframe⟩ | ⟨b, c', hrun, hheld, hframe, before, claim, after, w, hclaims, hw,
      hclash⟩
  · refine .inl ⟨c', by simp only [ExecutionCoordinator.trySchedule, tryAcquireLocks, hrun], ?_,
      hframe⟩
    simpa [hfree] using hheld
  · refine .inr ⟨b, ?_, ?_, ?_⟩
    · rw [← hfree, Function.update_eq_self] at hheld
      obtain ⟨hlocks, hacquired⟩ := h.unique hheld
      rw [hlocks, hacquired] at hframe
      simp only [ExecutionCoordinator.trySchedule, tryAcquireLocks, hrun, hframe]
    · intro hne
      rw [Function.update_of_ne hne] at hw
      rw [hclaims]
      exact ⟨claim.1, claim.2, w, by simp, hw, hclash⟩
    · rintro hnodup rfl
      rw [Function.update_self, hfree, List.nil_append] at hw
      rw [hclaims, List.map_append, List.map_cons, List.nodup_append] at hnodup
      exact hnodup.2.2 claim.1 (List.mem_map.mpr ⟨(claim.1, w), hw, rfl⟩) claim.1
        List.mem_cons_self rfl

end ExecutionCoordinator

end Blitz.Scheduler
