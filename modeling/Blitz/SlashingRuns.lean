import Blitz.Slashing
import Blitz.ProRata

/-! One pool and its positions over any sequence of calls: as long as the total staked
fits its field, the fixed-width books are the exact ones, and every position earns its
part of what is distributed while it is staked. -/
namespace Blitz.Slashing
open CheckedArith RewardIndex RewardIndex.Books Traces

inductive PoolCall (ι : Type*)
  | stake (i : ι) (amount : UInt64)
  | unstake (i : ι) (amount : UInt64)
  | claim (i : ι)
  | distribute (split : Split)

structure Market (ι : Type*) where
  pool : Pool
  position : ι → Position

namespace Market

section Calls
variable {ι : Type*} [DecidableEq ι]

def default : Market ι := ⟨⟨0, 0⟩, fun _ => ⟨0, 0, 0⟩⟩

/-- An error is returned before anything has changed. -/
def call (m : Market ι) : PoolCall ι → Market ι
  | .stake i amount =>
    match m.pool.stake (m.position i) amount with
    | .ok (pool, position) => ⟨pool, Function.update m.position i position⟩
    | .error _ => m
  | .unstake i amount =>
    match m.pool.unstake (m.position i) amount with
    | .ok (_, pool, position) => ⟨pool, Function.update m.position i position⟩
    | .error _ => m
  | .claim i => ⟨m.pool, Function.update m.position i (m.pool.claim (m.position i)).2⟩
  | .distribute split => ⟨(m.pool.distribute split).2, m.position⟩

def Step (c : PoolCall ι) (m m' : Market ι) : Prop := m' = m.call c

/-- What a call pays out to a position. -/
def payout (i : ι) (x : Entry (Market ι) (PoolCall ι)) : ℕ :=
  match x.event with
  | .claim j => if j = i then (x.before.pool.claim (x.before.position j)).1.toNat else 0
  | _ => 0

/-- One for a call that settles the position. -/
def settling (i : ι) (x : Entry (Market ι) (PoolCall ι)) : ℕ :=
  match x.event with
  | .stake j amount =>
    if j = i ∧ (x.before.pool.stake (x.before.position j) amount).isOk then 1 else 0
  | .unstake j amount =>
    if j = i ∧ (x.before.pool.unstake (x.before.position j) amount).isOk then 1 else 0
  | .claim j => if j = i then 1 else 0
  | .distribute _ => 0

/-- Claimed so far, and claimable now. -/
def rewards (t : List (Entry (Market ι) (PoolCall ι))) (m : Market ι) (i : ι) : ℕ :=
  along (payout i) t + ((m.position i).claimable m.pool.rewardIndex).toNat

end Calls

section Shares
variable {ι : Type*}

/-- The pool's share of the split a call is given. -/
def poolShare (x : Entry (Market ι) (PoolCall ι)) : ℕ :=
  match x.event with
  | .distribute split => split.pool.toNat
  | _ => 0

/-- The pool's share of the split a call applies. -/
def distributed (x : Entry (Market ι) (PoolCall ι)) : ℕ :=
  match x.event with
  | .distribute split => (x.before.pool.distribute split).1.pool.toNat
  | _ => 0

/-- The pool's share times the stake over the total. -/
def fairShare (i : ι) (x : Entry (Market ι) (PoolCall ι)) : ℚ :=
  match x.event with
  | .distribute split =>
    if x.before.pool.staked = 0 then 0
    else ((x.before.position i).staked.toNat * split.pool.toNat : ℚ) / x.before.pool.staked.toNat
  | _ => 0

/-- The stake over the scale. -/
def dust (i : ι) (x : Entry (Market ι) (PoolCall ι)) : ℚ :=
  match x.event with
  | .distribute _ =>
    if x.before.pool.staked = 0 then 0
    else ((x.before.position i).staked.toNat : ℚ) / Position.scale
  | _ => 0

/-- A distribution that finds the position staked. -/
def Earning (i : ι) (x : Entry (Market ι) (PoolCall ι)) : Prop :=
  (∃ split, x.event = .distribute split) ∧ (x.before.position i).staked ≠ 0

end Shares

section Books
variable {ι : Type*} {t : List (Entry (Market ι) (PoolCall ι))}

def toBooks (m : Market ι) : Books ι :=
  ⟨m.pool.staked.toNat, m.pool.rewardIndex.toNat, fun i => (m.position i).toShare⟩

/-- A call as the books see it. -/
def moveOf (m : Market ι) : PoolCall ι → Move ι
  | .stake i amount =>
    if (m.pool.stake (m.position i) amount).isOk then
      .settle i ((m.position i).staked.toNat + amount.toNat) 0
    else .idle
  | .unstake i amount =>
    if (m.pool.unstake (m.position i) amount).isOk then
      .settle i ((m.position i).staked.toNat - amount.toNat) 0
    else .idle
  | .claim i =>
    .settle i (m.position i).staked.toNat (m.pool.claim (m.position i)).1.toNat
  | .distribute split => .distribute split.pool.toNat

def entryOf (x : Entry (Market ι) (PoolCall ι)) : Entry (Books ι) (Move ι) :=
  ⟨x.before.toBooks, moveOf x.before x.event, x.after.toBooks⟩

lemma toBooks_default : (default : Market ι).toBooks = Books.empty := rfl

/-! The same quantities, read off the market and off its books. -/

lemma shared_entryOf (x : Entry (Market ι) (PoolCall ι)) : shared (entryOf x) = distributed x := by
  unfold shared distributed entryOf moveOf
  cases x.event with
  | stake j amount =>
    dsimp only
    split_ifs <;> rfl
  | unstake j amount =>
    dsimp only
    split_ifs <;> rfl
  | claim j => rfl
  | distribute split =>
    by_cases hnone : x.before.pool.staked = 0 ∨ split.pool = 0
    · rcases hnone with hstaked | hpool
      · simp [toBooks, Pool.distribute, hstaked, Split.withoutPool]
      · simp [Pool.distribute, hpool, Split.withoutPool]
    · have htotal : x.before.pool.staked.toNat ≠ 0 := mt toNat_eq_zero.mp (not_or.mp hnone).1
      simp [toBooks, Pool.distribute, hnone, htotal]

lemma fair_entryOf (i : ι) (x : Entry (Market ι) (PoolCall ι)) :
    fair i (entryOf x) = fairShare i x ∧
      (carried i (entryOf x) : ℚ) / Position.scale = dust i x := by
  unfold fair fairShare carried dust entryOf moveOf
  cases x.event with
  | stake j amount =>
    dsimp only
    split_ifs <;> simp
  | unstake j amount =>
    dsimp only
    split_ifs <;> simp
  | claim j => simp
  | distribute split =>
    simp only [toBooks, Position.toShare, toNat_eq_zero, true_and]
    split_ifs <;> simp

lemma along_map {M : Type*} [AddCommMonoid M] {f : Entry (Books ι) (Move ι) → M}
    {g : Entry (Market ι) (PoolCall ι) → M} (h : ∀ x, f (entryOf x) = g x) :
    along f (t.map entryOf) = along g t := by
  simp [along, Function.comp_def, h]

lemma along_dust (i : ι) :
    ((along (carried i) (t.map entryOf) : ℕ) : ℚ) / Position.scale = along (dust i) t := by
  induction t with
  | nil => simp
  | cons x t ih =>
    simp only [along, List.map_cons, List.sum_cons, Nat.cast_add, add_div] at ih ⊢
    rw [ih, (fair_entryOf i x).2]

lemma distributed_le (x : Entry (Market ι) (PoolCall ι)) : distributed x ≤ poolShare x := by
  unfold distributed poolShare Pool.distribute
  cases x.event with
  | distribute split =>
    dsimp only
    split_ifs <;> simp [Split.withoutPool]
  | _ => exact le_rfl

lemma along_distributed_le : along distributed t ≤ along poolShare t := by
  induction t with
  | nil => exact le_rfl
  | cons x t ih => exact Nat.add_le_add (distributed_le x) ih

end Books

section Refinement
variable {ι : Type*} [DecidableEq ι] {m m' : Market ι} {c : PoolCall ι}
  {t : List (Entry (Market ι) (PoolCall ι))}

lemma toBooks_update (pool : Pool) (i : ι) (p : Position)
    (hindex : pool.rewardIndex = m.pool.rewardIndex) :
    toBooks ⟨pool, Function.update m.position i p⟩ =
      m.toBooks.put i p.toShare pool.staked.toNat := by
  simp only [toBooks, Books.put, hindex, Books.mk.injEq, true_and]
  funext j
  by_cases hj : j = i
  · subst hj
    simp
  · simp [hj]

lemma owed_lt {s : List (Entry (Books ι) (Move ι))} (h : Accounted Position.scale s m.toBooks)
    (hshared : along shared s < 2 ^ 64) (i : ι) :
    (m.position i).toShare.owed Position.scale m.pool.rewardIndex.toNat <
      Position.scale * 2 ^ 64 := by
  have hpaid := h.paid_le i
  have hall := h.credited_le {i}
  rw [Finset.sum_singleton] at hall
  have hbound : Position.scale * along shared s < Position.scale * 2 ^ 64 :=
    Nat.mul_lt_mul_of_pos_left hshared (by decide)
  change _ + (m.position i).toShare.owed Position.scale m.pool.rewardIndex.toNat ≤ _ at hpaid
  omega

lemma staked_le {s : List (Entry (Books ι) (Move ι))} (h : Accounted Position.scale s m.toBooks)
    (i : ι) : (m.position i).staked.toNat ≤ m.pool.staked.toNat := by
  have hall := h.staked_le {i}
  rw [Finset.sum_singleton] at hall
  exact hall

section Step
variable {s : List (Entry (Books ι) (Move ι))} (h : Accounted Position.scale s m.toBooks)
include h

lemma step_stake (hshared : along shared s < 2 ^ 64) {i : ι} {amount : UInt64}
    (hroom : m.pool.staked.toNat + amount.toNat < 2 ^ 64) :
    Books.Step Position.scale (m.moveOf (.stake i amount)) m.toBooks
      (m.call (.stake i amount)).toBooks := by
  have howed := owed_lt h hshared i
  have hle := staked_le h i
  simp only [call, moveOf]
  cases hres : m.pool.stake (m.position i) amount with
  | error e => exact .idle _
  | ok r =>
    obtain ⟨pool', p'⟩ := r
    obtain ⟨_, _, rfl, rfl⟩ := Pool.stake_eq_ok.mp hres
    have hadd : ((m.position i).staked + amount).toNat =
        (m.position i).staked.toNat + amount.toNat := toNat_add_of_lt (by omega)
    have hsum : (m.pool.staked + amount).toNat = m.pool.staked.toNat + amount.toNat :=
      toNat_add_of_lt hroom
    change Books.Step _ (.settle i _ 0) m.toBooks (toBooks ⟨_, Function.update m.position i _⟩)
    rw [toBooks_update _ _ _ (by rfl), Position.settled_toShare howed, hadd]
    refine .settle rfl ?_
    simp only [toBooks, Position.toShare, hsum]
    omega

lemma step_unstake (hshared : along shared s < 2 ^ 64) {i : ι} {amount : UInt64} :
    Books.Step Position.scale (m.moveOf (.unstake i amount)) m.toBooks
      (m.call (.unstake i amount)).toBooks := by
  have howed := owed_lt h hshared i
  have hle := staked_le h i
  simp only [call, moveOf]
  cases hres : m.pool.unstake (m.position i) amount with
  | error e => exact .idle _
  | ok r =>
    obtain ⟨paid, pool', p'⟩ := r
    obtain ⟨hamount, _, rfl, rfl⟩ := Pool.unstake_eq_ok.mp hres
    have hamount' := UInt64.le_iff_toNat_le.mp hamount
    have hsub : ((m.position i).staked - amount).toNat =
        (m.position i).staked.toNat - amount.toNat := UInt64.toNat_sub_of_le _ _ hamount
    have hrest : (m.pool.staked - amount).toNat = m.pool.staked.toNat - amount.toNat :=
      UInt64.toNat_sub_of_le _ _ (UInt64.le_iff_toNat_le.mpr (by omega))
    change Books.Step _ (.settle i _ 0) m.toBooks (toBooks ⟨_, Function.update m.position i _⟩)
    rw [toBooks_update _ _ _ (by rfl), Position.settled_toShare howed, hsub]
    refine .settle rfl ?_
    simp only [toBooks, Position.toShare, hrest]
    omega

lemma step_claim (hshared : along shared s < 2 ^ 64) {i : ι} :
    Books.Step Position.scale (m.moveOf (.claim i)) m.toBooks (m.call (.claim i)).toBooks := by
  have hclaim := Position.claimable_toNat (owed_lt h hshared i)
  simp only [call, moveOf]
  rw [toBooks_update _ _ _ (by rfl)]
  refine .settle ?_ rfl
  exact (Nat.zero_add _).trans hclaim

lemma step_distribute {split : Split}
    (hshared : along shared s + (if m.pool.staked = 0 then 0 else split.pool.toNat) < 2 ^ 64) :
    Books.Step Position.scale (m.moveOf (.distribute split)) m.toBooks
      (m.call (.distribute split)).toBooks := by
  have hindex : (m.pool.distribute split).2.rewardIndex.toNat =
      m.pool.rewardIndex.toNat + split.pool.toNat * Position.scale / m.pool.staked.toNat := by
    by_cases hstaked : m.pool.staked = 0
    · simp [Pool.distribute, hstaked]
    · rw [if_neg hstaked] at hshared
      have hle := h.index_le
      have hbound : Position.scale * (along shared s + split.pool.toNat) <
          Position.scale * 2 ^ 64 := Nat.mul_lt_mul_of_pos_left hshared (by decide)
      apply Pool.distribute_rewardIndex
      change m.pool.rewardIndex.toNat ≤ _ at hle
      rw [Nat.mul_add] at hbound
      rw [Nat.mul_comm split.pool.toNat]
      have hwidth : Position.scale * 2 ^ 64 < 2 ^ 128 := by decide
      omega
  have hbooks : (m.call (.distribute split)).toBooks =
      m.toBooks.distribute Position.scale split.pool.toNat := by
    simp only [call, toBooks, Books.distribute, Pool.distribute_staked, hindex]
  rw [hbooks]
  exact .distribute _ _

end Step

lemma paid_entryOf (i : ι) (x : Entry (Market ι) (PoolCall ι)) :
    paid i (entryOf x) = payout i x ∧ settlements i (entryOf x) = settling i x := by
  unfold paid payout settlements settling entryOf moveOf
  cases x.event with
  | stake j amount =>
    by_cases hok : (x.before.pool.stake (x.before.position j) amount).isOk = true
    · simp [hok]
    · simp [hok]
  | unstake j amount =>
    by_cases hok : (x.before.pool.unstake (x.before.position j) amount).isOk = true
    · simp [hok]
    · simp [hok]
  | claim j => exact ⟨rfl, rfl⟩
  | distribute split => exact ⟨rfl, rfl⟩

/-- A run of calls in which no stake takes the total past its field. -/
structure RoomyRun (t : List (Entry (Market ι) (PoolCall ι))) (m : Market ι) : Prop where
  trace : Trace Step default t m
  shares : along poolShare t < 2 ^ 64
  room : ∀ x ∈ t, ∀ i amount, x.event = .stake i amount →
    x.before.pool.staked.toNat + amount.toNat < 2 ^ 64

lemma step_toBooks (h : Accounted Position.scale (t.map entryOf) m.toBooks)
    (hshares : along poolShare (t ++ [⟨m, c, m'⟩]) < 2 ^ 64) (hstep : Step c m m')
    (hroom : ∀ i amount, c = .stake i amount → m.pool.staked.toNat + amount.toNat < 2 ^ 64) :
    Books.Step Position.scale (m.moveOf c) m.toBooks m'.toBooks := by
  obtain rfl := hstep
  rw [along_snoc] at hshares
  have hle := along_distributed_le (t := t)
  have hshared : along shared (t.map entryOf) = along distributed t := along_map shared_entryOf
  have hlt : along shared (t.map entryOf) < 2 ^ 64 := by omega
  cases c with
  | stake i amount => exact step_stake h hlt (hroom i amount rfl)
  | unstake i amount => exact step_unstake h hlt
  | claim i => exact step_claim h hlt
  | distribute split =>
    apply step_distribute h
    change along poolShare t + split.pool.toNat < 2 ^ 64 at hshares
    split_ifs <;> omega

theorem RoomyRun.accounted (h : RoomyRun t m) :
    Accounted Position.scale (t.map entryOf) m.toBooks := by
  obtain ⟨htrace, hshares, hroom⟩ := h
  induction htrace with
  | nil =>
    rw [toBooks_default]
    exact accounted_empty _
  | @snoc t m m' c _ hstep ih =>
    have hbefore : along poolShare t < 2 ^ 64 := by
      rw [along_snoc] at hshares
      omega
    have hacc := ih hbefore fun x hx => hroom x (List.mem_append_left _ hx)
    rw [List.map_append]
    exact hacc.step (by decide) (step_toBooks hacc hshares hstep
      (hroom ⟨m, c, m'⟩ (List.mem_append_right _ (List.mem_singleton_self _))))

lemma RoomyRun.rewards_eq (h : RoomyRun t m) (i : ι) :
    rewards t m i = earned Position.scale (t.map entryOf) m.toBooks i := by
  have hshared : along shared (t.map entryOf) < 2 ^ 64 := by
    rw [along_map shared_entryOf]
    exact along_distributed_le.trans_lt h.shares
  rw [rewards, earned, along_map fun x => (paid_entryOf i x).1,
    Position.claimable_toNat (owed_lt h.accounted hshared i)]
  rfl

end Refinement

section Earned
variable {ι : Type*} [DecidableEq ι] {m : Market ι} {t : List (Entry (Market ι) (PoolCall ι))}
  {x : Entry (Market ι) (PoolCall ι)} {i : ι}

lemma claimable_update_settled (m : Market ι) (i j : ι) (staked : UInt64) :
    (Function.update m.position j { (m.position j).settle m.pool.rewardIndex with staked := staked }
      i).claimable m.pool.rewardIndex = (m.position i).claimable m.pool.rewardIndex := by
  by_cases hj : i = j
  · subst hj
    rw [Function.update_self]
    exact Position.claimable_of_entry rfl
  · rw [Function.update_of_ne hj]

lemma rewards_step (hstep : Step x.event x.before x.after) (hidle : ¬Earning i x) :
    payout i x + ((x.after.position i).claimable x.after.pool.rewardIndex).toNat =
      ((x.before.position i).claimable x.before.pool.rewardIndex).toNat := by
  obtain ⟨m, c, m'⟩ := x
  change m' = m.call c at hstep
  subst hstep
  dsimp only at hidle ⊢
  cases c with
  | stake j amount =>
    simp only [payout, call, Nat.zero_add]
    cases hres : m.pool.stake (m.position j) amount with
    | error e => rfl
    | ok r =>
      obtain ⟨pool', p'⟩ := r
      obtain ⟨_, _, rfl, rfl⟩ := Pool.stake_eq_ok.mp hres
      exact congrArg UInt64.toNat (claimable_update_settled m i j _)
  | unstake j amount =>
    simp only [payout, call, Nat.zero_add]
    cases hres : m.pool.unstake (m.position j) amount with
    | error e => rfl
    | ok r =>
      obtain ⟨_, pool', p'⟩ := r
      obtain ⟨_, _, rfl, rfl⟩ := Pool.unstake_eq_ok.mp hres
      exact congrArg UInt64.toNat (claimable_update_settled m i j _)
  | claim j =>
    by_cases hj : i = j
    · subst hj
      simp only [payout, call, Function.update_self, if_true, Pool.claim]
      have hrest : ({ (m.position i).settle m.pool.rewardIndex with reward := 0 } :
          Position).claimable m.pool.rewardIndex = 0 := Position.claimable_of_entry rfl
      rw [hrest]
      rfl
    · simp only [payout, call, Function.update_of_ne hj, if_neg (Ne.symm hj), Nat.zero_add]
  | distribute split =>
    have hnone : (m.position i).staked = 0 := by
      by_contra hne
      exact hidle ⟨⟨split, rfl⟩, hne⟩
    simp only [payout, call, Nat.zero_add]
    rw [Position.claimable_of_unstaked hnone, Position.claimable_of_unstaked hnone]

/-- While the stakes together fit the pool's total, a position earns its part of every
distribution up to rounding, nothing from any other, and all of them no more than was
distributed. -/
theorem position_earns_fair_share (h : Trace Step default t m)
    (hshares : along poolShare t < 2 ^ 64)
    (hroom : ∀ x ∈ t, ∀ i amount, x.event = .stake i amount →
      x.before.pool.staked.toNat + amount.toNat < 2 ^ 64) :
    (∀ i, along (fairShare i) t - ((along (settling i) t : ℕ) + 1) - along (dust i) t ≤
          rewards t m i ∧
        rewards t m i ≤ along (fairShare i) t) ∧
      (∀ i t₁ x t₂, t = t₁ ++ x :: t₂ → ¬Earning i x →
        rewards (t₁ ++ [x]) x.after i = rewards t₁ x.before i) ∧
      ∀ F : Finset ι, ∑ i ∈ F, rewards t m i ≤ along distributed t := by
  have hrun : RoomyRun t m := ⟨h, hshares, hroom⟩
  have hacc := hrun.accounted
  refine ⟨?_, ?_, ?_⟩
  · intro i
    have hlow := hacc.fair_le_earned (by decide) i
    have hhigh := hacc.earned_le_fair (by decide) i
    rw [along_map fun x => (fair_entryOf i x).1] at hlow hhigh
    rw [along_map fun x => (paid_entryOf i x).2, along_dust] at hlow
    rw [hrun.rewards_eq]
    exact ⟨hlow, hhigh⟩
  · rintro i t₁ x t₂ rfl hidle
    have hx := rewards_step h.cut.2.1 hidle
    rw [rewards, rewards, along_snoc, Nat.add_assoc, hx]
  · intro F
    have hsum := hacc.sum_earned_le (by decide) F
    rw [along_map shared_entryOf] at hsum
    simpa only [hrun.rewards_eq] using hsum

end Earned

namespace Vectors

/-- Two stakes, a slash, and the first position's claim. -/
def run (first second : UInt64) : List (Market Bool) :=
  [.stake true first, .stake false second, .distribute (Split.of 10000), .claim true].scanl call
    default

def after (first second : UInt64) (n : ℕ) : Market Bool := (run first second).getD n default

def entries (first second : UInt64) : List (Entry (Market Bool) (PoolCall Bool)) :=
  [⟨default, .stake true first, after first second 1⟩,
    ⟨after first second 1, .stake false second, after first second 2⟩,
    ⟨after first second 2, .distribute (Split.of 10000), after first second 3⟩,
    ⟨after first second 3, .claim true, after first second 4⟩]

lemma trace_entries (first second : UInt64) :
    Trace Step default (entries first second) (after first second 4) :=
  (((Trace.nil.snoc rfl).snoc rfl).snoc rfl).snoc rfl

lemma poolShare_entries (first second : UInt64) : along poolShare (entries first second) = 2000 := by
  change 0 + (0 + ((Split.of 10000).pool.toNat + (0 + 0))) = 2000
  decide

lemma runs_evaluate :
    ((default : Market Bool).pool.staked.toNat + UInt64.toNat 1000 < 2 ^ 64 ∧
      (after 1000 3000 1).pool.staked.toNat + UInt64.toNat 3000 < 2 ^ 64) ∧
    (after 18446744073709551615 1001 2).pool.staked = 1000 ∧
    ((after 18446744073709551615 1001 2).position true).staked = 18446744073709551615 ∧
    along (settling true) (entries 18446744073709551615 1001) = 2 ∧
    rewards (entries 18446744073709551615 1001) (after 18446744073709551615 1001 4) true =
      18446744073709551614 ∧
    along distributed (entries 18446744073709551615 1001) = 2000 := by decide +kernel

end Vectors

theorem position_earns_fair_share_ordinary :
    along poolShare (Vectors.entries 1000 3000) < 2 ^ 64 ∧
      rewards (Vectors.entries 1000 3000) (Vectors.after 1000 3000 4) true +
        rewards (Vectors.entries 1000 3000) (Vectors.after 1000 3000 4) false ≤
        along distributed (Vectors.entries 1000 3000) := by
  have hshares : along poolShare (Vectors.entries 1000 3000) < 2 ^ 64 := by
    rw [Vectors.poolShare_entries]
    norm_num
  have hroom : ∀ x ∈ Vectors.entries 1000 3000, ∀ i amount, x.event = .stake i amount →
      x.before.pool.staked.toNat + amount.toNat < 2 ^ 64 := by
    intro x hx i amount hevent
    simp only [Vectors.entries, List.mem_cons, List.not_mem_nil, or_false] at hx
    rcases hx with rfl | rfl | rfl | rfl
    · cases hevent
      exact Vectors.runs_evaluate.1.1
    · cases hevent
      exact Vectors.runs_evaluate.1.2
    · cases hevent
    · cases hevent
  have hall := (position_earns_fair_share (Vectors.trace_entries 1000 3000) hshares hroom).2.2
    Finset.univ
  rw [Fintype.sum_bool] at hall
  exact ⟨hshares, hall⟩

/-- Once the total has wrapped, a slash of which the pool gets 2000 is worth almost a whole
`u64` to the first position, and still less than its formal share. -/
theorem wrapped_total_breaks_fair_share :
    Trace Step default (Vectors.entries 18446744073709551615 1001)
        (Vectors.after 18446744073709551615 1001 4) ∧
      along poolShare (Vectors.entries 18446744073709551615 1001) < 2 ^ 64 ∧
      ¬(along (fairShare true) (Vectors.entries 18446744073709551615 1001) -
          ((along (settling true) (Vectors.entries 18446744073709551615 1001) : ℕ) + 1) -
          along (dust true) (Vectors.entries 18446744073709551615 1001) ≤
        rewards (Vectors.entries 18446744073709551615 1001)
          (Vectors.after 18446744073709551615 1001 4) true) ∧
      ¬∑ i, rewards (Vectors.entries 18446744073709551615 1001)
          (Vectors.after 18446744073709551615 1001 4) i ≤
        along distributed (Vectors.entries 18446744073709551615 1001) := by
  obtain ⟨_, htotal, hstaked, hsettled, hrewards, hdistributed⟩ := Vectors.runs_evaluate
  have hpool : (Split.of 10000).pool.toNat = 2000 := by decide
  have hsome : (1000 : UInt64) ≠ 0 := by decide
  refine ⟨Vectors.trace_entries _ _, ?_, ?_, ?_⟩
  · rw [Vectors.poolShare_entries]
    norm_num
  · have hfair : along (fairShare true) (Vectors.entries 18446744073709551615 1001) =
        36893488147419103230 := by
      simp only [along, Vectors.entries, List.map_cons, List.map_nil, fairShare, htotal, hstaked,
        hpool, if_neg hsome, UInt64.reduceToNat]
      norm_num
    have hdust : along (dust true) (Vectors.entries 18446744073709551615 1001) =
        18446744073709551615 / 1000000000000 := by
      simp only [along, Vectors.entries, List.map_cons, List.map_nil, dust, htotal, hstaked,
        Position.scale, if_neg hsome, UInt64.reduceToNat]
      norm_num
    rw [hfair, hdust, hsettled, hrewards]
    norm_num
  · rw [Fintype.sum_bool, hrewards, hdistributed]
    omega

end Market

end Blitz.Slashing
