import Blitz.WorkerPool

/-! The lock of one account: a word with a bit for every executor and one for writing. -/
namespace Blitz.Scheduler

abbrev ExecutorId := ℕ

def maxSvmExecutors : ℕ := 63

def writeBit : BitVec 64 := 1#64 <<< maxSvmExecutors

@[ext]
structure AccountLock where
  state : BitVec 64
  deriving DecidableEq

namespace AccountLock

def default : AccountLock := ⟨0#64⟩

/-- The lowest bit of a word names the executor in the way. -/
def write (lock : AccountLock) (executor : ExecutorId) : Except ExecutorId AccountLock :=
  if lock.state ≠ 0#64 then .error lock.state.ctz.toNat
  else .ok ⟨writeBit ||| 1#64 <<< executor⟩

def read (lock : AccountLock) (executor : ExecutorId) : Except ExecutorId AccountLock :=
  if lock.state &&& writeBit ≠ 0#64 then .error lock.state.ctz.toNat
  else .ok ⟨lock.state ||| 1#64 <<< executor⟩

def unlock (lock : AccountLock) (executor : ExecutorId) : AccountLock :=
  ⟨lock.state &&& ~~~(writeBit ||| 1#64 <<< executor)⟩

end AccountLock

lemma getLsbD_executor (executor i : ℕ) :
    (1#64 <<< executor).getLsbD i = (decide (i < 64) && decide (i = executor)) := by
  rw [BitVec.getLsbD_shiftLeft, BitVec.getLsbD_one]
  by_cases hi : i < executor
  · simp [hi, hi.ne]
  · have : i - executor = 0 ↔ i = executor := by omega
    simp [hi, this]

lemma getLsbD_writeBit (i : ℕ) : writeBit.getLsbD i = decide (i = 63) := by
  rw [writeBit, getLsbD_executor, maxSvmExecutors]
  by_cases hi : i = 63
  · simp [hi]
  · simp [hi]

lemma and_writeBit_ne_zero {state : BitVec 64} :
    state &&& writeBit ≠ 0#64 ↔ state.getLsbD 63 = true := by
  constructor
  · intro hne
    by_contra hclear
    refine hne (BitVec.eq_of_getLsbD_eq fun i _ => ?_)
    rw [BitVec.getLsbD_and, getLsbD_writeBit]
    by_cases hi : i = 63
    · simpa [hi] using hclear
    · simp [hi]
  · intro hset hzero
    have hbit : (state &&& writeBit).getLsbD 63 = false := by rw [hzero, BitVec.getLsbD_zero]
    rw [BitVec.getLsbD_and, hset, getLsbD_writeBit] at hbit
    cases hbit

lemma AccountLock.unlock_unlock (lock : AccountLock) (executor : ExecutorId) :
    (lock.unlock executor).unlock executor = lock.unlock executor := by
  simp [AccountLock.unlock, BitVec.and_assoc]

/-- The word of an account tells who holds it, and whether one of them writes. -/
structure AccountLock.Shows (lock : AccountLock) (holds writes : ExecutorId → Prop) : Prop where
  held : ∀ e < maxSvmExecutors, lock.state.getLsbD e = true ↔ holds e
  written : lock.state.getLsbD maxSvmExecutors = true ↔ ∃ e, writes e
  bounded : ∀ e, holds e → e < maxSvmExecutors
  alone : ∀ e e', writes e → holds e' → e = e'
  writer : ∀ e, writes e → holds e

namespace AccountLock.Shows
variable {lock lock' : AccountLock} {holds writes : ExecutorId → Prop} {e b : ExecutorId}

lemma default : AccountLock.default.Shows (fun _ => False) (fun _ => False) where
  held := by simp [AccountLock.default]
  written := by simp [AccountLock.default]
  bounded := by simp
  alone := by simp
  writer := by simp

lemma congr {holds' writes' : ExecutorId → Prop} (h : lock.Shows holds writes)
    (hh : ∀ i, holds' i ↔ holds i) (hw : ∀ i, writes' i ↔ writes i) : lock.Shows holds' writes' := by
  obtain rfl : holds' = holds := funext fun i => propext (hh i)
  obtain rfl : writes' = writes := funext fun i => propext (hw i)
  exact h

lemma unique (h : lock.Shows holds writes) (h' : lock'.Shows holds writes) : lock = lock' := by
  refine AccountLock.ext (BitVec.eq_of_getLsbD_eq fun i hi => ?_)
  rw [Bool.eq_iff_iff]
  rcases Nat.lt_succ_iff_lt_or_eq.mp hi with hlt | rfl
  · rw [h.held i hlt, h'.held i hlt]
  · exact h.written.trans h'.written.symm

lemma state_eq_zero (h : lock.Shows holds writes) : lock.state = 0#64 ↔ ∀ e, ¬holds e := by
  constructor
  · intro hzero e he
    have hbit := (h.held e (h.bounded e he)).mpr he
    simp [hzero] at hbit
  · intro hnone
    refine BitVec.eq_of_getLsbD_eq fun i hi => ?_
    rw [BitVec.getLsbD_zero, ← Bool.not_eq_true]
    rcases Nat.lt_succ_iff_lt_or_eq.mp hi with hlt | rfl
    · rw [h.held i hlt]
      exact hnone i
    · change ¬lock.state.getLsbD maxSvmExecutors = true
      rw [h.written]
      rintro ⟨e, he⟩
      exact hnone e (h.writer e he)

lemma holds_ctz (h : lock.Shows holds writes) (hne : lock.state ≠ 0#64) :
    holds lock.state.ctz.toNat := by
  -- The lowest bit is never the one for writing: whoever writes has a lower one.
  have hset := BitVec.getLsbD_true_ctz_of_ne_zero hne
  have hlt : lock.state.ctz.toNat < 64 := BitVec.lt_of_getLsbD hset
  rcases Nat.lt_succ_iff_lt_or_eq.mp hlt with hlow | hhigh
  · exact (h.held _ hlow).mp hset
  · rw [hhigh] at hset
    obtain ⟨e, he⟩ := h.written.mp hset
    have hbound := h.bounded e (h.writer e he)
    have hclear : lock.state.getLsbD e = false :=
      BitVec.getLsbD_false_of_lt_ctz (by rw [hhigh]; exact hbound)
    have hbit := (h.held e hbound).mpr (h.writer e he)
    rw [hclear] at hbit
    cases hbit

lemma write_ok (h : lock.Shows holds writes) (he : e < maxSvmExecutors)
    (hok : lock.write e = .ok lock') :
    (∀ e', ¬holds e') ∧ lock'.Shows (· = e) (· = e) := by
  unfold AccountLock.write at hok
  split_ifs at hok with hzero
  obtain rfl := Except.ok.inj hok
  refine ⟨h.state_eq_zero.mp (not_not.mp hzero), ?_⟩
  constructor
  · intro i hi
    have h63 : i ≠ 63 := hi.ne
    have h64 : i < 64 := hi.trans (by decide)
    rw [BitVec.getLsbD_or, getLsbD_writeBit, getLsbD_executor]
    simp [h63, h64]
  · rw [BitVec.getLsbD_or, maxSvmExecutors, getLsbD_writeBit]
    simp
  · rintro i rfl
    exact he
  · rintro i j rfl rfl
    rfl
  · exact fun i hi => hi

lemma write_error (h : lock.Shows holds writes) (herror : lock.write e = .error b) : holds b := by
  unfold AccountLock.write at herror
  split_ifs at herror with hzero
  obtain rfl := Except.error.inj herror
  exact h.holds_ctz hzero

lemma read_ok (h : lock.Shows holds writes) (he : e < maxSvmExecutors)
    (hok : lock.read e = .ok lock') :
    (∀ e', ¬writes e') ∧ lock'.Shows (fun i => holds i ∨ i = e) writes := by
  unfold AccountLock.read at hok
  split_ifs at hok with hclear
  obtain rfl := Except.ok.inj hok
  rw [and_writeBit_ne_zero] at hclear
  have hnone : ∀ e', ¬writes e' := by
    intro e' hw
    exact hclear (h.written.mpr ⟨e', hw⟩)
  refine ⟨hnone, ?_⟩
  constructor
  · intro i hi
    have h64 : i < 64 := hi.trans (by decide)
    rw [BitVec.getLsbD_or, getLsbD_executor, ← h.held i hi]
    simp [h64]
  · have hne : maxSvmExecutors ≠ e := he.ne'
    rw [BitVec.getLsbD_or, getLsbD_executor, ← h.written]
    simp [hne]
  · rintro i (hi | rfl)
    · exact h.bounded i hi
    · exact he
  · intro i _ hw
    exact absurd hw (hnone i)
  · intro i hw
    exact absurd hw (hnone i)

lemma read_error (h : lock.Shows holds writes) (herror : lock.read e = .error b) : writes b := by
  unfold AccountLock.read at herror
  split_ifs at herror with hset
  obtain rfl := Except.error.inj herror
  obtain ⟨w, hw⟩ := h.written.mp (and_writeBit_ne_zero.mp hset)
  have hne : lock.state ≠ 0#64 := by
    intro hzero
    simp [hzero] at hset
  rwa [← h.alone w _ hw (h.holds_ctz hne)]

lemma unlock (h : lock.Shows holds writes) (he : holds e) :
    (lock.unlock e).Shows (fun i => holds i ∧ i ≠ e) (fun i => writes i ∧ i ≠ e) := by
  constructor
  · intro i hi
    have h63 : i ≠ 63 := hi.ne
    have h64 : i < 64 := hi.trans (by decide)
    rw [AccountLock.unlock, BitVec.getLsbD_and, BitVec.getLsbD_not, BitVec.getLsbD_or,
      getLsbD_writeBit, getLsbD_executor, ← h.held i hi]
    simp [h63, h64]
  · have hclear : (lock.unlock e).state.getLsbD maxSvmExecutors = false := by
      rw [AccountLock.unlock, BitVec.getLsbD_and, BitVec.getLsbD_not, BitVec.getLsbD_or,
        maxSvmExecutors, getLsbD_writeBit]
      simp
    rw [hclear]
    constructor
    · intro hfalse
      cases hfalse
    · rintro ⟨i, hw, hne⟩
      exact absurd (h.alone i e hw he) hne
  · intro i hi
    exact h.bounded i hi.1
  · intro i j hw hh
    exact h.alone i j hw.1 hh.1
  · intro i hw
    exact ⟨h.writer i hw.1, hw.2⟩

end AccountLock.Shows

end Blitz.Scheduler
