import Mathlib

/-! Reward-per-unit accounting over an arbitrary finite set of shareholders. One
running index stands for all past distributions; a share owes the distance from
where it entered. Scaled sums are exact, so a bound on them survives every
rounding of what is finally paid. -/
namespace Blitz.RewardIndex

lemma sum_update {ι α : Type*} [Fintype ι] [DecidableEq ι] (f : α → ℕ) (g : ι → α) (i : ι) (a : α) :
    ∑ j, f (Function.update g i a j) + f (g i) = ∑ j, f (g j) + f a := by
  have hup : ∀ j, f (Function.update g i a j) = Function.update (fun j => f (g j)) i (f a) j := by
    intro j
    by_cases hj : j = i
    · subst hj
      simp
    · simp [hj]
  have hsplit := Finset.add_sum_erase Finset.univ (fun j => f (g j)) (Finset.mem_univ i)
  simp only [hup]
  rw [Finset.sum_update_of_mem (Finset.mem_univ i), Finset.sdiff_singleton_eq_erase]
  omega

lemma sum_part_eq {ι : Type*} [Fintype ι] [DecidableEq ι] (s : Finset ι) {f g : ι → ℕ}
    (hall : ∑ i, f i = ∑ i, g i) (hout : ∀ i, i ∉ s → f i = g i) : ∑ i ∈ s, f i = ∑ i ∈ s, g i := by
  have hf := Finset.sum_add_sum_compl s f
  have hg := Finset.sum_add_sum_compl s g
  have hrest : ∑ i ∈ sᶜ, f i = ∑ i ∈ sᶜ, g i :=
    Finset.sum_congr rfl fun i hi => hout i (Finset.mem_compl.mp hi)
  omega

/-- A holder's stake, the index it last settled at and what it has banked. -/
@[ext]
structure Share where
  staked : ℕ
  entry : ℕ
  reward : ℕ

namespace Share

/-- Nothing staked, nothing earned. -/
def empty : Share := ⟨0, 0, 0⟩

/-- The exact scaled debt to a holder. -/
def owed (scale index : ℕ) (s : Share) : ℕ := scale * s.reward + s.staked * (index - s.entry)

/-- What can be paid out in whole units. -/
def claimable (scale index : ℕ) (s : Share) : ℕ := s.reward + s.staked * (index - s.entry) / scale

def settle (scale index : ℕ) (s : Share) : Share := ⟨s.staked, index, s.claimable scale index⟩

variable {scale index : ℕ}

lemma claimable_le_owed (scale index : ℕ) (s : Share) : scale * s.claimable scale index ≤ s.owed scale index := by
  have := Nat.mul_div_le (s.staked * (index - s.entry)) scale
  rw [claimable, owed, Nat.mul_add]
  omega

lemma owed_lt (hscale : 0 < scale) (index : ℕ) (s : Share) :
    s.owed scale index < scale * (s.claimable scale index + 1) := by
  have hrest := Nat.lt_mul_div_succ (s.staked * (index - s.entry)) hscale
  rw [owed, claimable, Nat.mul_add, Nat.mul_add]
  rw [Nat.mul_add] at hrest
  omega

lemma claimable_mono {index' : ℕ} {s : Share} (h : index ≤ index') :
    s.claimable scale index ≤ s.claimable scale index' := by
  have hspan := Nat.mul_le_mul_left s.staked (Nat.sub_le_sub_right h s.entry)
  exact Nat.add_le_add_left (Nat.div_le_div_right hspan) s.reward

lemma owed_settled (staked reward : ℕ) :
    (⟨staked, index, reward⟩ : Share).owed scale index = scale * reward := by
  simp [owed]

lemma owed_add {s : Share} (h : s.entry ≤ index) (delta : ℕ) :
    s.owed scale (index + delta) = s.owed scale index + s.staked * delta := by
  have hd : index + delta - s.entry = (index - s.entry) + delta := by omega
  rw [owed, owed, hd, Nat.mul_add, add_assoc]

end Share

/-- The pool's total and index, and the share of every holder. -/
structure Books (ι : Type*) where
  total : ℕ
  index : ℕ
  share : ι → Share

namespace Books
variable {ι : Type*} [Fintype ι]

/-- The books agree with themselves and `held` units cover `reserve`, every stake
and every debt. -/
structure Sound (scale reserve held : ℕ) (b : Books ι) : Prop where
  total_eq : b.total = ∑ i, (b.share i).staked
  entry_le : ∀ i, (b.share i).entry ≤ b.index
  covered : scale * (reserve + b.total) + ∑ i, (b.share i).owed scale b.index ≤ scale * held

/-- Credit every staked unit with its part of `amount`. -/
def distribute (scale : ℕ) (b : Books ι) (amount : ℕ) : Books ι :=
  { b with index := b.index + amount * scale / b.total }

variable {scale reserve held : ℕ} {b : Books ι}

lemma Sound.fresh (index : ℕ) (h : reserve ≤ held) :
    Sound scale reserve held (⟨0, index, fun _ => Share.empty⟩ : Books ι) := by
  refine ⟨by simp [Share.empty], fun _ => Nat.zero_le _, ?_⟩
  simpa [Share.empty, Share.owed] using Nat.mul_le_mul_left scale h

lemma Sound.mono (h : Sound scale reserve held b) {held' : ℕ} (hle : held ≤ held') :
    Sound scale reserve held' b :=
  ⟨h.total_eq, h.entry_le, h.covered.trans (Nat.mul_le_mul_left scale hle)⟩

theorem Sound.solvent (h : Sound scale reserve held b) (hs : 0 < scale) :
    reserve + b.total + ∑ i, (b.share i).claimable scale b.index ≤ held := by
  have hsum : scale * ∑ i, (b.share i).claimable scale b.index ≤
      ∑ i, (b.share i).owed scale b.index := by
    rw [Finset.mul_sum]
    exact Finset.sum_le_sum fun i _ => Share.claimable_le_owed _ _ _
  have hc := h.covered
  have hall : scale * (reserve + b.total + ∑ i, (b.share i).claimable scale b.index) ≤
      scale * held := by
    rw [Nat.mul_add]
    omega
  exact Nat.le_of_mul_le_mul_left hall hs

lemma Sound.staked_le (h : Sound scale reserve held b) (i : ι) : (b.share i).staked ≤ b.total := by
  rw [h.total_eq]
  exact Finset.single_le_sum (f := fun j => (b.share j).staked) (fun _ _ => Nat.zero_le _)
    (Finset.mem_univ i)

lemma Sound.owed_le (h : Sound scale reserve held b) (i : ι) :
    scale * (reserve + b.total) + (b.share i).owed scale b.index ≤ scale * held := by
  have hi := Finset.single_le_sum (f := fun j => (b.share j).owed scale b.index)
    (fun _ _ => Nat.zero_le _) (Finset.mem_univ i)
  have hc := h.covered
  omega

theorem Sound.distribute {amount : ℕ} (h : Sound scale (reserve + amount) held b) :
    Sound scale reserve held (b.distribute scale amount) := by
  refine ⟨h.total_eq, ?_, ?_⟩
  · intro i
    exact (h.entry_le i).trans (Nat.le_add_right _ _)
  · have hsum : ∑ i, (b.share i).owed scale (b.index + amount * scale / b.total) =
        ∑ i, (b.share i).owed scale b.index + b.total * (amount * scale / b.total) := by
      simp only [Share.owed_add (h.entry_le _)]
      rw [Finset.sum_add_distrib, ← Finset.sum_mul, h.total_eq]
    have hdiv := Nat.mul_div_le (amount * scale) b.total
    have hc := h.covered
    simp only [Books.distribute, hsum]
    have hcomm : amount * scale = scale * amount := Nat.mul_comm _ _
    simp only [Nat.mul_add] at hc ⊢
    omega

lemma Sound.release {amount held' : ℕ} (h : Sound scale (reserve + amount) held b)
    (hheld : held ≤ held' + amount) : Sound scale reserve held' b := by
  refine ⟨h.total_eq, h.entry_le, ?_⟩
  have hc := h.covered
  have hle := Nat.mul_le_mul_left scale hheld
  simp only [Nat.mul_add] at hc hle ⊢
  omega

variable [DecidableEq ι]

/-- Replace one share, keeping the index, and the total by hand. -/
def put (b : Books ι) (i : ι) (s : Share) (total : ℕ) : Books ι :=
  { b with total := total, share := Function.update b.share i s }

theorem Sound.put (h : Sound scale reserve held b) (i : ι) {staked' reward' total' held' : ℕ}
    (htotal : total' + (b.share i).staked = b.total + staked')
    (hheld : held' + (b.share i).staked + (b.share i).claimable scale b.index =
      held + staked' + reward') :
    Sound scale reserve held' (b.put i ⟨staked', b.index, reward'⟩ total') := by
  have hst := sum_update (fun s => s.staked) b.share i ⟨staked', b.index, reward'⟩
  have how := sum_update (fun s => s.owed scale b.index) b.share i ⟨staked', b.index, reward'⟩
  have hcl := Share.claimable_le_owed scale b.index (b.share i)
  refine ⟨?_, ?_, ?_⟩
  · have ht := h.total_eq
    simp only [Books.put]
    simp only at hst
    omega
  · intro j
    by_cases hj : j = i
    · subst hj
      simp [Books.put]
    · simpa [Books.put, hj] using h.entry_le j
  · have hc := h.covered
    simp only [Share.owed_settled] at how
    have hscaled : scale * held' + scale * (b.share i).staked +
        scale * (b.share i).claimable scale b.index =
          scale * held + scale * staked' + scale * reward' := by
      rw [← Nat.mul_add, ← Nat.mul_add, hheld, Nat.mul_add, Nat.mul_add]
    have htscaled : scale * total' + scale * (b.share i).staked =
        scale * b.total + scale * staked' := by
      rw [← Nat.mul_add, htotal, Nat.mul_add]
    simp only [Books.put, Nat.mul_add] at hc ⊢
    omega

end Books

end Blitz.RewardIndex
