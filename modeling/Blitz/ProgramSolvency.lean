import Blitz.ProgramEffects

/-! Solvency over records and balances alone: what the records of operators,
positions and convictions promise, and the changes under which it keeps. -/
namespace Blitz.Program
open CheckedArith RewardIndex Slashing

abbrev Records := Pubkey → Option Record

/-- An account's share in the pool of `operator`; only its positions have one. -/
def shareOf (operator : Pubkey) : Option Record → Share
  | some (.position p) => if p.operator = operator then p.position.toShare else Share.empty
  | _ => Share.empty

def books (R : Records) (operator : Pubkey) (a : OperatorAccount) : Books Pubkey where
  total := a.poolStaked.toNat
  index := a.rewardIndex.toNat
  share := fun k => shareOf operator (R k)

/-- Every operator account covers its rent, its bond, its stakes and its debts to
stakers, every position belongs to an operator, and every conviction holds what
it owes. -/
structure Solvent (operatorRent convictionRent : ℕ) (R : Records) (H : Pubkey → ℕ) : Prop where
  operators : ∀ o a, R o = some (.operator a) →
    (books R o a).Sound Position.scale (operatorRent + a.bond.toNat) (H o)
  index : ∀ o a, R o = some (.operator a) → a.bond ≠ 0 → a.rewardIndex = 0
  positions : ∀ k p, R k = some (.position p) →
    (∃ a, R p.operator = some (.operator a)) ∧ p.owner ≠ p.operator ∧ 0 < H k
  convictions : ∀ k c, R k = some (.conviction c) → convictionRent + c.owedToVictim.toNat ≤ H k

section Keys
variable {R : Records} {o k : Pubkey} {a a' : OperatorAccount} {p : PositionAccount}
  {c : ConvictionAccount}

lemma operator_inj (h : R o = some (.operator a)) (h' : R o = some (.operator a')) :
    a = a' := Record.operator.inj (Option.some.inj (h.symm.trans h'))

lemma ne_of_operator_position (ho : R o = some (.operator a))
    (hk : R k = some (.position p)) : o ≠ k := by
  intro he
  rw [he, hk] at ho
  cases ho

lemma ne_of_operator_conviction (ho : R o = some (.operator a))
    (hk : R k = some (.conviction c)) : o ≠ k := by
  intro he
  rw [he, hk] at ho
  cases ho

lemma ne_of_position_conviction {j : Pubkey} (hj : R j = some (.position p))
    (hk : R k = some (.conviction c)) : j ≠ k := by
  intro he
  rw [he, hk] at hj
  cases hj

lemma ne_of_vacant {r : Record} {j : Pubkey} (hj : R j = some r) (hk : R k = none) :
    j ≠ k := by
  intro he
  rw [he, hk] at hj
  cases hj

end Keys

namespace Solvent
variable {operatorRent convictionRent : ℕ} {R R' : Records} {H H' : Pubkey → ℕ} {o k : Pubkey}
  {a a' : OperatorAccount} {p p' : PositionAccount} {c c' : ConvictionAccount}

lemma books_congr (h : ∀ j, shareOf o (R' j) = shareOf o (R j)) : books R' o a = books R o a := by
  simp only [books, h]

lemma shareOf_update {r : Record} (hr : shareOf o (some r) = shareOf o (R k)) (j : Pubkey) :
    shareOf o (Function.update R k (some r) j) = shareOf o (R j) := by
  by_cases hj : j = k
  · subst hj
    rw [Function.update_self, hr]
  · rw [Function.update_of_ne hj]

lemma update_eq_some {r s : Record} {j : Pubkey} (h : Function.update R k (some r) j = some s) :
    (j = k ∧ r = s) ∨ (j ≠ k ∧ R j = some s) := by
  by_cases hj : j = k
  · subst hj
    rw [Function.update_self, Option.some.injEq] at h
    exact .inl ⟨rfl, h⟩
  · rw [Function.update_of_ne hj] at h
    exact .inr ⟨hj, h⟩

lemma exists_operator_update {r : Record} {j : Pubkey} (hj : ∃ b, R j = some (.operator b))
    (hr : j = k → ∃ b, r = .operator b) :
    ∃ b, Function.update R k (some r) j = some (.operator b) := by
  by_cases hjk : j = k
  · obtain ⟨b, rfl⟩ := hr hjk
    exact ⟨b, by rw [hjk, Function.update_self]⟩
  · rwa [Function.update_of_ne hjk]

lemma books_update_position (hop : p.operator = o) :
    books (Function.update R k (some (.position p))) o a =
      (books R o a).put k p.position.toShare a.poolStaked.toNat := by
  simp only [books, Books.put, Books.mk.injEq, true_and]
  funext j
  by_cases hj : j = k
  · subst hj
    rw [Function.update_self, Function.update_self]
    simp [shareOf, hop]
  · rw [Function.update_of_ne hj, Function.update_of_ne hj]

/-- What solvency asks of the account at `k`. -/
def Covered (operatorRent convictionRent : ℕ) (R : Records) (H : Pubkey → ℕ) (k : Pubkey) :
    Record → Prop
  | .operator a => (books R k a).Sound Position.scale (operatorRent + a.bond.toNat) (H k) ∧
      (a.bond ≠ 0 → a.rewardIndex = 0)
  | .position p => (∃ a, R p.operator = some (.operator a)) ∧ p.owner ≠ p.operator ∧ 0 < H k
  | .conviction c => convictionRent + c.owedToVictim.toNat ≤ H k

lemma covered (h : Solvent operatorRent convictionRent R H) {r : Record} (hk : R k = some r) :
    Covered operatorRent convictionRent R H k r := by
  cases r with
  | operator a => exact ⟨h.operators k a hk, h.index k a hk⟩
  | position p => exact h.positions k p hk
  | conviction c => exact h.convictions k c hk

lemma of_covered (h : ∀ k r, R k = some r → Covered operatorRent convictionRent R H k r) :
    Solvent operatorRent convictionRent R H where
  operators o _ ho := (h o _ ho).1
  index o _ ho := (h o _ ho).2
  positions k _ hk := h k _ hk
  convictions k _ hk := h k _ hk

lemma Covered.frame {r : Record} (h : Covered operatorRent convictionRent R H k r)
    (hstay : ∀ j, (∃ b, R j = some (.operator b)) → ∃ b, R' j = some (.operator b))
    (hle : H k ≤ H' k) (hshare : ∀ j, shareOf k (R' j) = shareOf k (R j)) :
    Covered operatorRent convictionRent R' H' k r := by
  cases r with
  | operator a =>
    obtain ⟨hsound, hindex⟩ := h
    refine ⟨?_, hindex⟩
    rw [books_congr hshare]
    exact hsound.mono hle
  | position p =>
    obtain ⟨hop, hne, hpos⟩ := h
    exact ⟨hstay _ hop, hne, hpos.trans_le hle⟩
  | conviction c => exact le_trans h hle

theorem change (h : Solvent operatorRent convictionRent R H)
    (hstay : ∀ j, (∃ b, R j = some (.operator b)) → ∃ b, R' j = some (.operator b))
    (hrecords : ∀ j r, R' j = some r →
      (R j = some r ∧ H j ≤ H' j ∧ ∀ i, shareOf j (R' i) = shareOf j (R i)) ∨
        Covered operatorRent convictionRent R' H' j r) :
    Solvent operatorRent convictionRent R' H' := by
  apply of_covered
  intro j r hj
  rcases hrecords j r hj with ⟨hold, hle, hshare⟩ | hnew
  · exact (h.covered hold).frame hstay hle hshare
  · exact hnew

theorem mono (h : Solvent operatorRent convictionRent R H)
    (hle : ∀ k, R k ≠ none → H k ≤ H' k) : Solvent operatorRent convictionRent R H' := by
  apply h.change fun _ hj => hj
  intro j r hj
  exact .inl ⟨hj, hle j (by simp [hj]), fun _ => rfl⟩

lemma books_of_vacant (h : Solvent operatorRent convictionRent R H) (ho : R o = none)
    (hpool : a.poolStaked = 0) :
    books R o a = ⟨0, a.rewardIndex.toNat, fun _ => Share.empty⟩ := by
  -- No position can point to an account that was not there.
  simp only [books, hpool, UInt64.toNat_zero, Books.mk.injEq, true_and]
  funext j
  cases hj : R j with
  | none => rfl
  | some r =>
    cases r with
    | position p =>
      have hne : p.operator ≠ o := by
        intro he
        obtain ⟨⟨_, hop⟩, _⟩ := h.positions j p hj
        rw [he, ho] at hop
        cases hop
      simp [shareOf, hne]
    | _ => rfl

theorem addOperator (h : Solvent operatorRent convictionRent R H) (ho : R o = none)
    (hpool : a.poolStaked = 0) (hindex : a.rewardIndex = 0)
    (hheld : operatorRent + a.bond.toNat ≤ H o) :
    Solvent operatorRent convictionRent (Function.update R o (some (.operator a))) H := by
  have hshare (o' : Pubkey) (j : Pubkey) :
      shareOf o' (Function.update R o (some (.operator a)) j) = shareOf o' (R j) :=
    shareOf_update (by rw [ho]; rfl) j
  apply h.change fun j hj => exists_operator_update hj fun _ => ⟨a, rfl⟩
  intro j r hj
  rcases update_eq_some hj with ⟨rfl, rfl⟩ | ⟨_, hold⟩
  · right
    refine ⟨?_, fun _ => hindex⟩
    rw [books_congr (hshare j), h.books_of_vacant ho hpool]
    exact Books.Sound.fresh _ hheld
  · exact .inl ⟨hold, le_rfl, hshare j⟩

theorem addPosition (h : Solvent operatorRent convictionRent R H) (hk : R k = none)
    (hop : R p.operator = some (.operator a)) (hfresh : p.position = ⟨0, 0, 0⟩)
    (hne : p.owner ≠ p.operator) (hpos : 0 < H k) :
    Solvent operatorRent convictionRent (Function.update R k (some (.position p))) H := by
  have hshare (o' : Pubkey) (j : Pubkey) :
      shareOf o' (Function.update R k (some (.position p)) j) = shareOf o' (R j) := by
    apply shareOf_update
    rw [hk]
    simp only [shareOf, hfresh, ite_eq_right_iff]
    intro _
    rfl
  have hstay (j : Pubkey) (hj : ∃ b, R j = some (.operator b)) :
      ∃ b, Function.update R k (some (.position p)) j = some (.operator b) := by
    obtain ⟨b, hb⟩ := hj
    exact exists_operator_update ⟨b, hb⟩ fun hjk => absurd hjk (ne_of_vacant hb hk)
  apply h.change hstay
  intro j r hj
  rcases update_eq_some hj with ⟨rfl, rfl⟩ | ⟨_, hold⟩
  · exact .inr ⟨hstay _ ⟨a, hop⟩, hne, hpos⟩
  · exact .inl ⟨hold, le_rfl, hshare j⟩

theorem setOperator (h : Solvent operatorRent convictionRent R H) (ho : R o = some (.operator a))
    (hsound : (books R o a').Sound Position.scale (operatorRent + a'.bond.toNat) (H' o))
    (hindex : a'.bond ≠ 0 → a'.rewardIndex = 0)
    (hle : ∀ j, j ≠ o → R j ≠ none → H j ≤ H' j) :
    Solvent operatorRent convictionRent (Function.update R o (some (.operator a'))) H' := by
  have hshare (o' : Pubkey) (j : Pubkey) :
      shareOf o' (Function.update R o (some (.operator a')) j) = shareOf o' (R j) :=
    shareOf_update (by rw [ho]; rfl) j
  apply h.change fun j hj => exists_operator_update hj fun _ => ⟨a', rfl⟩
  intro j r hj
  rcases update_eq_some hj with ⟨rfl, rfl⟩ | ⟨hjo, hold⟩
  · right
    refine ⟨?_, hindex⟩
    rw [books_congr (hshare j)]
    exact hsound
  · exact .inl ⟨hold, hle j hjo (by simp [hold]), hshare j⟩

theorem setShare (h : Solvent operatorRent convictionRent R H) (ho : R o = some (.operator a))
    (hk : R k = some (.position p)) (hop : p.operator = o) (hown' : p'.owner = p.owner)
    (hop' : p'.operator = o) (hbond : a'.bond = a.bond) (hindex : a'.rewardIndex = a.rewardIndex)
    (hsound : ((books R o a).put k p'.position.toShare a'.poolStaked.toNat).Sound Position.scale
      (operatorRent + a.bond.toNat) (H' o))
    (hle : ∀ j, j ≠ o → R j ≠ none → H j ≤ H' j) :
    Solvent operatorRent convictionRent
      (Function.update (Function.update R o (some (.operator a'))) k (some (.position p'))) H' := by
  have hko : k ≠ o := (ne_of_operator_position ho hk).symm
  have hpool (o' : Pubkey) (j : Pubkey) :
      shareOf o' (Function.update R o (some (.operator a')) j) = shareOf o' (R j) :=
    shareOf_update (by rw [ho]; rfl) j
  have hbooks : books (Function.update (Function.update R o (some (.operator a'))) k
      (some (.position p'))) o a' = (books R o a).put k p'.position.toShare a'.poolStaked.toNat := by
    rw [books_update_position hop', books_congr (hpool o)]
    simp only [books, Books.put, hindex]
  -- Pools of other operators see neither record.
  have hshare (o' : Pubkey) (hoo : o' ≠ o) (j : Pubkey) :
      shareOf o' (Function.update (Function.update R o (some (.operator a'))) k
        (some (.position p')) j) = shareOf o' (R j) := by
    refine (shareOf_update ?_ j).trans (hpool o' j)
    rw [Function.update_of_ne hko, hk]
    simp [shareOf, hop', hop, Ne.symm hoo]
  have hstay (j : Pubkey) (hj : ∃ b, R j = some (.operator b)) :
      ∃ b, Function.update (Function.update R o (some (.operator a'))) k
        (some (.position p')) j = some (.operator b) := by
    obtain ⟨b, hb⟩ := hj
    apply exists_operator_update (exists_operator_update ⟨b, hb⟩ fun _ => ⟨a', rfl⟩)
    exact fun hjk => absurd hjk (ne_of_operator_position hb hk)
  apply h.change hstay
  intro j r hj
  rcases update_eq_some hj with ⟨rfl, rfl⟩ | ⟨_, hmid⟩
  · obtain ⟨_, hne, hpos⟩ := h.positions j p hk
    refine .inr ⟨?_, ?_, hpos.trans_le (hle j hko (by simp [hk]))⟩
    · rw [hop']
      exact hstay o ⟨a, ho⟩
    · rwa [hown', hop', ← hop]
  · rcases update_eq_some hmid with ⟨rfl, rfl⟩ | ⟨hjo, hold⟩
    · right
      refine ⟨?_, ?_⟩
      · rw [hbooks, hbond]
        exact hsound
      · rw [hbond, hindex]
        exact h.index j a ho
    · exact .inl ⟨hold, hle j hjo (by simp [hold]), hshare j hjo⟩

theorem setConviction (h : Solvent operatorRent convictionRent R H)
    (hk : R k = none ∨ ∃ c, R k = some (.conviction c))
    (hheld : convictionRent + c'.owedToVictim.toNat ≤ H' k)
    (hle : ∀ j, j ≠ k → R j ≠ none → H j ≤ H' j) :
    Solvent operatorRent convictionRent (Function.update R k (some (.conviction c'))) H' := by
  have hshare (o' : Pubkey) (j : Pubkey) :
      shareOf o' (Function.update R k (some (.conviction c')) j) = shareOf o' (R j) := by
    apply shareOf_update
    rcases hk with hk | ⟨c, hk⟩ <;> rw [hk] <;> rfl
  have hstay (j : Pubkey) (hj : ∃ b, R j = some (.operator b)) :
      ∃ b, Function.update R k (some (.conviction c')) j = some (.operator b) := by
    obtain ⟨b, hb⟩ := hj
    refine exists_operator_update ⟨b, hb⟩ fun hjk => absurd hjk ?_
    rcases hk with hk | ⟨c, hk⟩
    · exact ne_of_vacant hb hk
    · exact ne_of_operator_conviction hb hk
  apply h.change hstay
  intro j r hj
  rcases update_eq_some hj with ⟨rfl, rfl⟩ | ⟨hjk, hold⟩
  · exact .inr hheld
  · exact .inl ⟨hold, hle j hjk (by simp [hold]), hshare j⟩

section Numbers

lemma share_position (hk : R k = some (.position p)) (hop : p.operator = o) :
    (books R o a).share k = p.position.toShare := by
  simp [books, hk, shareOf, hop]

lemma books_eq (hpool : a'.poolStaked = a.poolStaked) (hindex : a'.rewardIndex = a.rewardIndex) :
    books R o a' = books R o a := by
  simp only [books, hpool, hindex]

lemma floor_le (h : Solvent operatorRent convictionRent R H) (ho : R o = some (.operator a)) :
    operatorRent + a.bond.toNat + a.poolStaked.toNat +
      ∑ j, ((books R o a).share j).claimable Position.scale a.rewardIndex.toNat ≤ H o :=
  (h.operators o a ho).solvent (by decide)

variable (h : Solvent operatorRent convictionRent R H) (hfit : H o < 2 ^ 64)
  (ho : R o = some (.operator a)) (hk : R k = some (.position p)) (hop : p.operator = o)
include h ho hk hop

lemma staked_le : p.staked.toNat ≤ a.poolStaked.toNat := by
  have hle := (h.operators o a ho).staked_le k
  rwa [share_position hk hop] at hle

lemma poolStaked_sub {amount : UInt64} (hle : amount ≤ p.staked) :
    (a.poolStaked - amount).toNat = a.poolStaked.toNat - amount.toNat := by
  have hleNat : amount.toNat ≤ p.staked.toNat := UInt64.le_iff_toNat_le.mp hle
  exact UInt64.toNat_sub_of_le _ _
    (UInt64.le_iff_toNat_le.mpr (hleNat.trans (h.staked_le ho hk hop)))

include hfit

lemma owed_lt :
    p.position.toShare.owed Position.scale a.rewardIndex.toNat < Position.scale * 2 ^ 64 := by
  have hle := (h.operators o a ho).owed_le k
  rw [share_position hk hop] at hle
  have hlt := Nat.mul_lt_mul_of_pos_left hfit (show 0 < Position.scale by decide)
  simp only [books] at hle
  omega

lemma claimable_le :
    operatorRent + a.bond.toNat + a.poolStaked.toNat +
      (p.position.claimable a.rewardIndex).toNat ≤ H o := by
  have hfloor := h.floor_le ho
  have hone := Finset.single_le_sum (f := fun j => ((books R o a).share j).claimable
    Position.scale a.rewardIndex.toNat) (fun _ _ => Nat.zero_le _) (Finset.mem_univ k)
  rw [Position.claimable_toNat (h.owed_lt hfit ho hk hop)]
  simp only [share_position hk hop] at hone
  omega

lemma put (staked reward total held' : ℕ)
    (htotal : total + p.staked.toNat = a.poolStaked.toNat + staked)
    (hheld : held' + p.staked.toNat + (p.position.claimable a.rewardIndex).toNat =
      H o + staked + reward) :
    ((books R o a).put k ⟨staked, a.rewardIndex.toNat, reward⟩ total).Sound
      Position.scale (operatorRent + a.bond.toNat) held' := by
  rw [Position.claimable_toNat (h.owed_lt hfit ho hk hop)] at hheld
  refine (h.operators o a ho).put k ?_ ?_
  · rw [share_position hk hop]
    exact htotal
  · rw [share_position hk hop]
    exact hheld

lemma settled {pool : Pool} {position : Position} {staked reward : ℕ}
    (hindex : pool.rewardIndex = a.rewardIndex)
    (hshare : position.toShare = ⟨staked, a.rewardIndex.toNat, reward⟩)
    (htotal : pool.staked.toNat + p.staked.toNat = a.poolStaked.toNat + staked)
    (hheld : H o + staked + reward ≤
      H' o + p.staked.toNat + (p.position.claimable a.rewardIndex).toNat)
    (hothers : ∀ j, j ≠ o → R j ≠ none → H j ≤ H' j) :
    Solvent operatorRent convictionRent
      (Function.update (Function.update R o (some (.operator (a.setPool pool)))) k
        (some (.position (p.setPosition position)))) H' := by
  have hstaked := h.staked_le ho hk hop
  have hfloor := h.claimable_le hfit ho hk hop
  have hput := h.put hfit ho hk hop staked reward pool.staked.toNat
    (H o + staked + reward - p.staked.toNat - (p.position.claimable a.rewardIndex).toNat)
    htotal (by omega)
  rw [← hshare] at hput
  exact h.setShare ho hk hop rfl hop rfl hindex (hput.mono (by omega)) hothers

theorem stake {amount : UInt64} {pool : Pool} {position : Position}
    (hstake : a.pool.stake p.position amount = .ok (pool, position))
    (hpaid : H' o = H o + amount.toNat) (hfit' : H' o < 2 ^ 64)
    (hothers : ∀ j, j ≠ o → R j ≠ none → H j ≤ H' j) :
    Solvent operatorRent convictionRent
      (Function.update (Function.update R o (some (.operator (a.setPool pool)))) k
        (some (.position (p.setPosition position)))) H' := by
  obtain ⟨_, _, hpool, hposition⟩ := Pool.stake_eq_ok.mp hstake
  have hstaked := h.staked_le ho hk hop
  have hfloor := h.claimable_le hfit ho hk hop
  have hpoolNat : pool.staked.toNat = a.poolStaked.toNat + amount.toNat := by
    rw [hpool]
    exact toNat_add_of_lt (show a.poolStaked.toNat + amount.toNat < 2 ^ 64 by omega)
  have hshare : position.toShare = ⟨p.staked.toNat + amount.toNat, a.rewardIndex.toNat,
      (p.position.claimable a.rewardIndex).toNat⟩ := by
    rw [hposition]
    simp only [Position.toShare, Share.mk.injEq]
    exact ⟨toNat_add_of_lt (by simp only [PositionAccount.position]; omega), rfl, rfl⟩
  have hindex : pool.rewardIndex = a.rewardIndex := by
    rw [hpool]
    rfl
  exact h.settled hfit ho hk hop hindex hshare (by omega) (by omega) hothers

theorem unstake {amount : UInt64} {pool : Pool} {position : Position}
    (hunstake : a.pool.unstake p.position amount = .ok (amount, pool, position))
    (hpaid : H o ≤ H' o + amount.toNat) (hothers : ∀ j, j ≠ o → R j ≠ none → H j ≤ H' j) :
    Solvent operatorRent convictionRent
      (Function.update (Function.update R o (some (.operator (a.setPool pool)))) k
        (some (.position (p.setPosition position)))) H' := by
  obtain ⟨hle, _, hpool, hposition⟩ := Pool.unstake_eq_ok.mp hunstake
  have hleNat : amount.toNat ≤ p.staked.toNat := UInt64.le_iff_toNat_le.mp hle
  have hstaked := h.staked_le ho hk hop
  have hpoolNat : pool.staked.toNat = a.poolStaked.toNat - amount.toNat := by
    rw [hpool]
    exact h.poolStaked_sub ho hk hop hle
  have hshare : position.toShare = ⟨p.staked.toNat - amount.toNat, a.rewardIndex.toNat,
      (p.position.claimable a.rewardIndex).toNat⟩ := by
    rw [hposition]
    simp only [Position.toShare, Share.mk.injEq]
    exact ⟨UInt64.toNat_sub_of_le _ _ hle, rfl, rfl⟩
  have hindex : pool.rewardIndex = a.rewardIndex := by
    rw [hpool]
    rfl
  exact h.settled hfit ho hk hop hindex hshare (by omega) (by omega) hothers

theorem claim (hpaid : H o ≤ H' o + (p.position.claimable a.rewardIndex).toNat)
    (hothers : ∀ j, j ≠ o → R j ≠ none → H j ≤ H' j) :
    Solvent operatorRent convictionRent
      (Function.update R k (some (.position (p.setPosition (a.pool.claim p.position).2)))) H' := by
  have hshare : (a.pool.claim p.position).2.toShare = ⟨p.staked.toNat, a.rewardIndex.toNat, 0⟩ := rfl
  have hset := h.settled hfit ho hk hop (show a.pool.rewardIndex = a.rewardIndex from rfl) hshare rfl
    (show H o + _ + _ ≤ H' o + _ + _ by omega) hothers
  -- The operator's record is not written by a claim.
  rwa [show a.setPool a.pool = a from rfl, ← ho, Function.update_eq_self] at hset

end Numbers

theorem slash (h : Solvent operatorRent convictionRent R H) (ho : R o = some (.operator a))
    (hbond : a.bond ≠ 0) {applied : Split} {pool : Pool}
    (hd : a.pool.distribute (Split.of a.bond) = (applied, pool))
    (hpaid : H o ≤ H' o + (applied.burn.toNat + applied.victim.toNat))
    (hothers : ∀ j, j ≠ o → R j ≠ none → H j ≤ H' j) :
    Solvent operatorRent convictionRent (Function.update R o
      (some (.operator (({ a with bond := 0 } : OperatorAccount).setPool pool)))) H' := by
  refine h.setOperator ho ?_ (fun hb => absurd rfl hb) hothers
  have hzero := h.index o a ho hbond
  have hspec := Pool.distribute_spec (Split.of_total a.bond) a.bond.toNat_lt
    (show a.pool.rewardIndex = 0 from hzero)
  rw [hd] at hspec
  obtain ⟨htotal, hstaked, hindex⟩ := hspec
  simp only at htotal hstaked hindex
  have hsound := h.operators o a ho
  have hsplit : operatorRent + a.bond.toNat =
      operatorRent + applied.pool.toNat + (applied.burn.toNat + applied.victim.toNat) := by
    unfold Split.Of at htotal
    omega
  rw [hsplit] at hsound
  have hreleased := hsound.release hpaid
  rw [show (({ a with bond := 0 } : OperatorAccount).setPool pool).bond.toNat = 0 from rfl,
    Nat.add_zero]
  rcases hindex with ⟨hnone, hindex⟩ | hindex
  · rw [books_eq (a := a) hstaked (hindex.trans hzero.symm)]
    rwa [hnone, UInt64.toNat_zero, Nat.add_zero] at hreleased
  · have hbooks : books R o (({ a with bond := 0 } : OperatorAccount).setPool pool) =
        (books R o a).distribute Position.scale applied.pool.toNat := by
      have hidx : a.rewardIndex.toNat = 0 := by
        rw [hzero]
        rfl
      have hstakedNat : pool.staked.toNat = a.poolStaked.toNat := by
        rw [hstaked]
        rfl
      simp only [books, Books.distribute, OperatorAccount.setPool, hidx, hindex, hstakedNat,
        Nat.zero_add]
      rfl
    rw [hbooks]
    exact hreleased.distribute

theorem unbond (h : Solvent operatorRent convictionRent R H) (ho : R o = some (.operator a))
    (unbondAt : UInt64) :
    Solvent operatorRent convictionRent
      (Function.update R o (some (.operator { a with unbondAt := unbondAt }))) H :=
  h.setOperator ho (h.operators o a ho) (h.index o a ho) fun _ _ _ => le_rfl

theorem withdraw (h : Solvent operatorRent convictionRent R H) (ho : R o = some (.operator a))
    (unbondAt : UInt64) (hpaid : H o ≤ H' o + a.bond.toNat)
    (hothers : ∀ j, j ≠ o → R j ≠ none → H j ≤ H' j) :
    Solvent operatorRent convictionRent (Function.update R o
      (some (.operator { a with bond := 0, unbondAt := unbondAt }))) H' := by
  refine h.setOperator ho ?_ (fun hb => absurd rfl hb) hothers
  exact (h.operators o a ho).release hpaid

end Solvent

/-- Whether a record counts when only the operators in `backed` do. -/
def Shown (backed : Pubkey → Prop) (k : Pubkey) : Record → Prop
  | .operator _ => backed k
  | .position p => backed p.operator
  | .conviction _ => True

open Classical in
/-- Without the operators outside `backed` and their positions. -/
noncomputable def visible (backed : Pubkey → Prop) (R : Records) : Records := fun k =>
  (R k).filter fun r => decide (Shown backed k r)

section Visible
variable {backed : Pubkey → Prop} {R : Records} {k o : Pubkey} {r : Record} {a : OperatorAccount}

lemma shown_operator : Shown backed k (.operator a) ↔ backed k := Iff.rfl

lemma shown_position {p : PositionAccount} (hop : p.operator = o) :
    Shown backed k (.position p) ↔ backed o := by
  rw [← hop]
  rfl

lemma visible_eq_some : visible backed R k = some r ↔ R k = some r ∧ Shown backed k r := by
  simp [visible, Option.filter_eq_some_iff]

lemma visible_eq_none (h : R k = none) : visible backed R k = none := by
  simp [visible, h]

lemma visible_of_hidden (hk : R k = some r) (h : ¬Shown backed k r) :
    visible backed R k = none := by
  simp [visible, hk, h]

lemma ne_none_of_visible (h : visible backed R k ≠ none) : R k ≠ none :=
  fun hk => h (visible_eq_none hk)

lemma visible_of_forall (h : ∀ k, backed k) : visible backed R = R := by
  funext k
  cases hk : R k with
  | none => exact visible_eq_none hk
  | some r =>
    refine visible_eq_some.mpr ⟨hk, ?_⟩
    cases r with
    | operator a => exact h k
    | position p => exact h p.operator
    | conviction c => trivial

lemma visible_update_of_shown (h : Shown backed k r) :
    visible backed (Function.update R k (some r)) = Function.update (visible backed R) k (some r) := by
  funext j
  by_cases hj : j = k
  · subst hj
    rw [Function.update_self]
    exact visible_eq_some.mpr ⟨Function.update_self .., h⟩
  · rw [Function.update_of_ne hj, visible, visible, Function.update_of_ne hj]

lemma visible_update_of_hidden (h : ¬Shown backed k r) (hk : visible backed R k = none) :
    visible backed (Function.update R k (some r)) = visible backed R := by
  funext j
  by_cases hj : j = k
  · subst hj
    rw [hk]
    simp [visible, h]
  · rw [visible, visible, Function.update_of_ne hj]

lemma books_visible (h : backed o) : books (visible backed R) o a = books R o a := by
  apply Solvent.books_congr
  intro j
  cases hj : R j with
  | none => rw [visible_eq_none hj]
  | some r =>
    by_cases hs : Shown backed j r
    · rw [visible_eq_some.mpr ⟨hj, hs⟩]
    · rw [visible_of_hidden hj hs]
      cases r with
      | operator a => rfl
      | position p =>
        have hne : p.operator ≠ o := fun he => hs ((shown_position he).mpr h)
        simp [shareOf, hne]
      | conviction c => rfl

end Visible

end Blitz.Program
