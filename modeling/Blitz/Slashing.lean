import Blitz.CheckedArith
import Blitz.RewardIndex

/-! The economics of a slash: how a bond splits, how a pool shares it, and how
the fixed-width arithmetic of the code meets the exact books. -/
namespace Blitz.Slashing
open CheckedArith RewardIndex

def bpsDenominator : UInt64 := 10000
def victimBps : UInt64 := 3000
def poolBps : UInt64 := 2000
def rewardScale : BitVec 128 := 1000000000000
def unbondSlots : UInt64 := 216000

/-- `x as u128`. -/
def asU128 (x : UInt64) : BitVec 128 := BitVec.ofNat 128 x.toNat

/-- `x as u64`, which keeps the low half. -/
def asU64 (x : BitVec 128) : UInt64 := UInt64.ofNat x.toNat

@[simp] lemma asU128_toNat (x : UInt64) : (asU128 x).toNat = x.toNat := by
  have := x.toNat_lt
  rw [asU128, BitVec.toNat_ofNat]
  omega

lemma asU64_toNat {x : BitVec 128} (h : x.toNat < 2 ^ 64) : (asU64 x).toNat = x.toNat := by
  rw [asU64, UInt64.toNat_ofNat']
  omega

structure Split where
  burn : UInt64
  victim : UInt64
  pool : UInt64
  deriving DecidableEq, Repr

namespace Split

def share (slashed bps : UInt64) : UInt64 :=
  asU64 ((asU128 slashed * asU128 bps) / asU128 bpsDenominator)

/-- The burn is the remainder, so rounding always goes to it. -/
def of (slashed : UInt64) : Split :=
  let victim := share slashed victimBps
  let pool := share slashed poolBps
  { burn := slashed - victim - pool, victim := victim, pool := pool }

def total (s : Split) : UInt64 := s.burn + s.victim + s.pool

def withoutPool (s : Split) : Split := { s with burn := s.burn + s.pool, pool := 0 }

/-- The three shares are exactly `slashed`, as unbounded integers. -/
def Of (slashed : ℕ) (s : Split) : Prop := s.burn.toNat + s.victim.toNat + s.pool.toNat = slashed

lemma share_toNat {slashed bps : UInt64} (h : bps.toNat ≤ 10000) :
    (share slashed bps).toNat = slashed.toNat * bps.toNat / 10000 := by
  have hs := slashed.toNat_lt
  have hmul : slashed.toNat * bps.toNat ≤ slashed.toNat * 10000 := Nat.mul_le_mul_left _ h
  have hprod : (asU128 slashed * asU128 bps).toNat = slashed.toNat * bps.toNat := by
    rw [BitVec.toNat_mul, asU128_toNat, asU128_toNat]
    omega
  have hden : (asU128 bpsDenominator).toNat = 10000 := by decide
  rw [share, asU64_toNat] <;> rw [BitVec.toNat_udiv, hprod, hden]
  omega

theorem of_total (slashed : UInt64) : Of slashed.toNat (of slashed) := by
  have hv : (share slashed victimBps).toNat = slashed.toNat * 3000 / 10000 :=
    share_toNat (by decide)
  have hp : (share slashed poolBps).toNat = slashed.toNat * 2000 / 10000 := share_toNat (by decide)
  have hv' : (slashed - share slashed victimBps).toNat =
      slashed.toNat - (share slashed victimBps).toNat :=
    UInt64.toNat_sub_of_le _ _ (UInt64.le_iff_toNat_le.mpr (by omega))
  have hb : (slashed - share slashed victimBps - share slashed poolBps).toNat =
      (slashed - share slashed victimBps).toNat - (share slashed poolBps).toNat :=
    UInt64.toNat_sub_of_le _ _ (UInt64.le_iff_toNat_le.mpr (by omega))
  simp only [Of, of]
  omega

theorem Of.withoutPool {slashed : ℕ} {s : Split} (h : Of slashed s) (hs : slashed < 2 ^ 64) :
    Of slashed s.withoutPool := by
  have hb : (s.burn + s.pool).toNat = s.burn.toNat + s.pool.toNat :=
    toNat_add_of_lt (by unfold Of at h; omega)
  simp only [Of, Split.withoutPool, hb, UInt64.toNat_zero] at h ⊢
  omega

lemma of_pool (slashed : UInt64) : (of slashed).pool.toNat = slashed.toNat * 2000 / 10000 :=
  share_toNat (by decide)

theorem of_burn (slashed : UInt64) :
    (of slashed).victim.toNat + (of slashed).pool.toNat ≤ (of slashed).burn.toNat := by
  have hv : (of slashed).victim.toNat = slashed.toNat * 3000 / 10000 := share_toNat (by decide)
  have hp := of_pool slashed
  have htotal := of_total slashed
  unfold Of at htotal
  omega

end Split

structure Position where
  staked : UInt64
  entryIndex : BitVec 128
  reward : UInt64
  deriving DecidableEq, Repr

namespace Position

/-- `saturating_sub` on `u128`. -/
def sinceEntry (p : Position) (index : BitVec 128) : BitVec 128 :=
  if p.entryIndex ≤ index then index - p.entryIndex else 0

def accrued (p : Position) (index : BitVec 128) : UInt64 :=
  asU64 ((asU128 p.staked * p.sinceEntry index) / rewardScale)

def claimable (p : Position) (index : BitVec 128) : UInt64 := p.reward + p.accrued index

def settle (p : Position) (index : BitVec 128) : Position :=
  { p with reward := p.reward + p.accrued index, entryIndex := index }

/-- The same claim in the exact books. -/
def toShare (p : Position) : Share := ⟨p.staked.toNat, p.entryIndex.toNat, p.reward.toNat⟩

/-- `REWARD_SCALE` as a natural number. -/
def scale : ℕ := 1000000000000

lemma sinceEntry_toNat (p : Position) (index : BitVec 128) :
    (p.sinceEntry index).toNat = index.toNat - p.entryIndex.toNat := by
  unfold sinceEntry
  split_ifs with h
  · exact BitVec.toNat_sub_of_le h
  · have hlt : ¬p.entryIndex.toNat ≤ index.toNat := fun hle => h (BitVec.le_def.mpr hle)
    have hzero : (0 : BitVec 128).toNat = 0 := rfl
    omega

lemma accrued_toNat {p : Position} {index : BitVec 128}
    (h : p.staked.toNat * (index.toNat - p.entryIndex.toNat) < scale * 2 ^ 64) :
    (p.accrued index).toNat = p.staked.toNat * (index.toNat - p.entryIndex.toNat) / scale := by
  have hprod : (asU128 p.staked * p.sinceEntry index).toNat =
      p.staked.toNat * (index.toNat - p.entryIndex.toNat) := by
    rw [BitVec.toNat_mul, asU128_toNat, sinceEntry_toNat]
    refine Nat.mod_eq_of_lt (h.trans ?_)
    norm_num [scale]
  have hscale : rewardScale.toNat = scale := by decide
  rw [accrued, asU64_toNat] <;> rw [BitVec.toNat_udiv, hprod, hscale]
  exact Nat.div_lt_of_lt_mul h

lemma accrued_of_mul_eq_zero {p : Position} {index : BitVec 128}
    (h : p.staked.toNat * (index.toNat - p.entryIndex.toNat) = 0) : p.accrued index = 0 := by
  apply UInt64.toNat_inj.mp
  rw [accrued_toNat (by rw [h]; decide), h]
  rfl

lemma accrued_zero (p : Position) : p.accrued 0 = 0 :=
  accrued_of_mul_eq_zero (by simp)

variable {p : Position} {index : BitVec 128}

lemma claimable_toNat (h : p.toShare.owed scale index.toNat < scale * 2 ^ 64) :
    (p.claimable index).toNat = p.toShare.claimable scale index.toNat := by
  have hle := Share.claimable_le_owed scale index.toNat p.toShare
  have hc : p.toShare.claimable scale index.toNat < 2 ^ 64 :=
    Nat.lt_of_mul_lt_mul_left (hle.trans_lt h)
  have ha : (p.accrued index).toNat =
      p.staked.toNat * (index.toNat - p.entryIndex.toNat) / scale := by
    apply accrued_toNat
    simp only [Share.owed, toShare] at h
    omega
  simp only [Share.claimable, toShare] at hc ⊢
  rw [claimable, toNat_add_of_lt (by omega), ha]

lemma claimable_of_entry (h : p.entryIndex = index) : p.claimable index = p.reward := by
  have hnone : p.accrued index = 0 := accrued_of_mul_eq_zero (by rw [h]; simp)
  rw [claimable, hnone, UInt64.add_zero]

lemma claimable_of_unstaked (h : p.staked = 0) (index : BitVec 128) :
    p.claimable index = p.reward := by
  have hnone : p.accrued index = 0 := accrued_of_mul_eq_zero (by rw [h]; simp)
  rw [claimable, hnone, UInt64.add_zero]

lemma settled_toShare (h : p.toShare.owed scale index.toNat < scale * 2 ^ 64) (staked : UInt64) :
    ({ p.settle index with staked := staked } : Position).toShare =
      ⟨staked.toNat, index.toNat, p.toShare.claimable scale index.toNat⟩ := by
  rw [← claimable_toNat h]
  rfl

end Position

inductive PoolError
  | stakeIsZero
  | overdraw (requested held : UInt64)
  | foreignPosition
  deriving DecidableEq, Repr

structure Pool where
  staked : UInt64
  rewardIndex : BitVec 128
  deriving DecidableEq, Repr

namespace Pool

def stake (pool : Pool) (position : Position) (amount : UInt64) :
    Except PoolError (Pool × Position) :=
  if amount = 0 then .error .stakeIsZero
  else if position.staked > 0 ∧ position.entryIndex > pool.rewardIndex then .error .foreignPosition
  else
    let position := position.settle pool.rewardIndex
    .ok ({ pool with staked := pool.staked + amount },
      { position with staked := position.staked + amount })

def unstake (pool : Pool) (position : Position) (amount : UInt64) :
    Except PoolError (UInt64 × Pool × Position) :=
  if amount > position.staked then .error (.overdraw amount position.staked)
  else
    let position := position.settle pool.rewardIndex
    .ok (amount, { pool with staked := pool.staked - amount },
      { position with staked := position.staked - amount })

/-- Everything earned, and the position that keeps its stake. -/
def claim (pool : Pool) (position : Position) : UInt64 × Position :=
  let position := position.settle pool.rewardIndex
  (position.reward, { position with reward := 0 })

/-- The split that was applied, and the pool after it. -/
def distribute (pool : Pool) (split : Split) : Split × Pool :=
  if pool.staked = 0 ∨ split.pool = 0 then (split.withoutPool, pool)
  else
    (split, { pool with
      rewardIndex := pool.rewardIndex + (asU128 split.pool * rewardScale) / asU128 pool.staked })

lemma stake_eq_ok {pool pool' : Pool} {p p' : Position} {amount : UInt64} :
    pool.stake p amount = .ok (pool', p') ↔
      amount ≠ 0 ∧ ¬(p.staked > 0 ∧ p.entryIndex > pool.rewardIndex) ∧
        pool' = { pool with staked := pool.staked + amount } ∧
        p' = { p.settle pool.rewardIndex with staked := p.staked + amount } := by
  unfold stake
  split_ifs with h1 h2
  · simp [h1]
  · simp [h2]
  · simp only [Except.ok.injEq, Prod.mk.injEq, h1, ne_eq, not_false_eq_true, true_and, h2,
      eq_comm (a := pool'), eq_comm (a := p')]
    rfl

lemma unstake_eq_ok {pool pool' : Pool} {p p' : Position} {amount paid : UInt64} :
    pool.unstake p amount = .ok (paid, pool', p') ↔
      amount ≤ p.staked ∧ paid = amount ∧ pool' = { pool with staked := pool.staked - amount } ∧
        p' = { p.settle pool.rewardIndex with staked := p.staked - amount } := by
  have hle : ¬amount > p.staked ↔ amount ≤ p.staked := UInt64.not_lt
  unfold unstake
  split_ifs with h1
  · simp only [false_iff, not_and]
    exact fun h => absurd h (mt hle.mpr (not_not.mpr h1))
  · simp only [Except.ok.injEq, Prod.mk.injEq, hle.mp h1, true_and, eq_comm (a := paid),
      eq_comm (a := pool'), eq_comm (a := p')]
    rfl

lemma withIndex_staked (pool : Pool) (index : BitVec 128) :
    ({ pool with rewardIndex := index } : Pool).staked = pool.staked := rfl

lemma withIndex_rewardIndex (pool : Pool) (index : BitVec 128) :
    ({ pool with rewardIndex := index } : Pool).rewardIndex = index := rfl

lemma distribute_staked (pool : Pool) (split : Split) :
    (pool.distribute split).2.staked = pool.staked := by
  unfold distribute
  split_ifs
  · rfl
  · exact withIndex_staked _ _

lemma distribute_rewardIndex {pool : Pool} {split : Split}
    (hroom : pool.rewardIndex.toNat + split.pool.toNat * Position.scale < 2 ^ 128) :
    (pool.distribute split).2.rewardIndex.toNat =
      pool.rewardIndex.toNat + split.pool.toNat * Position.scale / pool.staked.toNat := by
  unfold distribute
  split_ifs with h0
  · rcases h0 with hstaked | hpool
    · rw [hstaked, UInt64.toNat_zero, Nat.div_zero, Nat.add_zero]
    · rw [hpool, UInt64.toNat_zero, Nat.zero_mul, Nat.zero_div, Nat.add_zero]
  · have hscale : rewardScale.toNat = Position.scale := by decide
    have hprod : (asU128 split.pool * rewardScale).toNat = split.pool.toNat * Position.scale := by
      rw [BitVec.toNat_mul, asU128_toNat, hscale, Nat.mod_eq_of_lt (by omega)]
    have hdiv := Nat.div_le_self (split.pool.toNat * Position.scale) pool.staked.toNat
    rw [withIndex_rewardIndex, BitVec.toNat_add, BitVec.toNat_udiv, hprod, asU128_toNat]
    exact Nat.mod_eq_of_lt (by omega)

lemma distribute_index {pool : Pool} {split : Split} (hidx : pool.rewardIndex = 0) :
    (pool.distribute split).2.rewardIndex.toNat =
      split.pool.toNat * Position.scale / pool.staked.toNat := by
  have hzero : (0 : BitVec 128).toNat = 0 := rfl
  have hp := split.pool.toNat_lt
  rw [distribute_rewardIndex, hidx, hzero, Nat.zero_add]
  rw [hidx, hzero]
  unfold Position.scale
  omega

lemma distribute_spec {pool : Pool} {split : Split} {slashed : ℕ} (h : split.Of slashed)
    (hs : slashed < 2 ^ 64) (hidx : pool.rewardIndex = 0) :
    (pool.distribute split).1.Of slashed ∧ (pool.distribute split).2.staked = pool.staked ∧
      (((pool.distribute split).1.pool = 0 ∧ (pool.distribute split).2.rewardIndex = 0) ∨
        (pool.distribute split).2.rewardIndex.toNat =
          (pool.distribute split).1.pool.toNat * Position.scale / pool.staked.toNat) := by
  by_cases h0 : pool.staked = 0 ∨ split.pool = 0
  · rw [distribute, if_pos h0]
    exact ⟨h.withoutPool hs, rfl, Or.inl ⟨rfl, hidx⟩⟩
  · have happlied : (pool.distribute split).1 = split := by rw [distribute, if_neg h0]
    refine ⟨by rwa [happlied], distribute_staked pool split, Or.inr ?_⟩
    rw [happlied, distribute_index hidx]

theorem distribute_split (pool : Pool) (slashed : UInt64) :
    (pool.distribute (Split.of slashed)).1.Of slashed.toNat ∧
      (pool.distribute (Split.of slashed)).1.victim.toNat +
        (pool.distribute (Split.of slashed)).1.pool.toNat ≤
        (pool.distribute (Split.of slashed)).1.burn.toNat ∧
      (pool.staked = 0 → (pool.distribute (Split.of slashed)).1.pool = 0) := by
  have htotal := Split.of_total slashed
  have hburn := Split.of_burn slashed
  have hlt := slashed.toNat_lt
  unfold distribute
  split_ifs with h
  · refine ⟨htotal.withoutPool hlt, ?_, fun _ => rfl⟩
    have hwhole := htotal.withoutPool hlt
    unfold Split.Of at htotal hwhole
    have hpool : (Split.of slashed).withoutPool.pool.toNat = 0 := rfl
    have hvictim : (Split.of slashed).withoutPool.victim = (Split.of slashed).victim := rfl
    dsimp only
    rw [hvictim] at hwhole ⊢
    omega
  · exact ⟨htotal, hburn, fun hnone => absurd (.inl hnone) h⟩

end Pool

end Blitz.Slashing
