import Blitz.RewardIndex
import Blitz.Traces

/-! What a holder earns from a running index over a whole run, against its exact part of
every distribution. The index is rounded down once for each distribution and a share once
for each settlement; nothing else is lost, and nothing is gained. -/
namespace Blitz.RewardIndex
open Traces

/-- A holder settles, is paid out of what it has banked and changes its stake, or an
amount is shared out among the units that are staked. -/
inductive Move (ι : Type*)
  | idle
  | settle (i : ι) (staked paid : ℕ)
  | distribute (amount : ℕ)

namespace Books

section Runs
variable {ι : Type*} [DecidableEq ι]

inductive Step (scale : ℕ) : Move ι → Books ι → Books ι → Prop
  | idle (b : Books ι) : Step scale .idle b b
  | settle {b : Books ι} {i : ι} {staked paid reward total : ℕ}
      (hpaid : reward + paid = (b.share i).claimable scale b.index)
      (htotal : total + (b.share i).staked = b.total + staked) :
      Step scale (.settle i staked paid) b (b.put i ⟨staked, b.index, reward⟩ total)
  | distribute (b : Books ι) (amount : ℕ) :
      Step scale (.distribute amount) b (b.distribute scale amount)

/-- Books nobody has entered yet. -/
def empty : Books ι := ⟨0, 0, fun _ => Share.empty⟩

end Runs

section Entries
variable {ι : Type*}

/-- A quantity summed over a run. -/
def along {σ ε M : Type*} [AddCommMonoid M] (f : Entry σ ε → M) (t : List (Entry σ ε)) : M :=
  (t.map f).sum

variable {σ ε M : Type*} [AddCommMonoid M]

@[simp] lemma along_nil (f : Entry σ ε → M) : along f [] = 0 := rfl

@[simp] lemma along_snoc (f : Entry σ ε → M) (t : List (Entry σ ε)) (x : Entry σ ε) :
    along f (t ++ [x]) = along f t + f x := by
  simp [along]

def paid [DecidableEq ι] (i : ι) (x : Entry (Books ι) (Move ι)) : ℕ :=
  match x.event with
  | .settle j _ paid => if j = i then paid else 0
  | _ => 0

def settlements [DecidableEq ι] (i : ι) (x : Entry (Books ι) (Move ι)) : ℕ :=
  match x.event with
  | .settle j _ _ => if j = i then 1 else 0
  | _ => 0

/-- What a distribution adds to the scaled debt to a holder. -/
def credited (scale : ℕ) (i : ι) (x : Entry (Books ι) (Move ι)) : ℕ :=
  match x.event with
  | .distribute amount => (x.before.share i).staked * (amount * scale / x.before.total)
  | _ => 0

/-- What is shared out while something is staked. -/
def shared (x : Entry (Books ι) (Move ι)) : ℕ :=
  match x.event with
  | .distribute amount => if x.before.total = 0 then 0 else amount
  | _ => 0

/-- A holder's exact part of a distribution. -/
def fair (i : ι) (x : Entry (Books ι) (Move ι)) : ℚ :=
  match x.event with
  | .distribute amount =>
    if x.before.total = 0 then 0 else ((x.before.share i).staked * amount : ℚ) / x.before.total
  | _ => 0

/-- The units of a holder that take part in a distribution. -/
def carried (i : ι) (x : Entry (Books ι) (Move ι)) : ℕ :=
  match x.event with
  | .distribute _ => if x.before.total = 0 then 0 else (x.before.share i).staked
  | _ => 0

lemma credited_bounds (scale : ℕ) (i : ι) (x : Entry (Books ι) (Move ι)) :
    (credited scale i x : ℚ) ≤ scale * fair i x ∧
      scale * fair i x ≤ credited scale i x + carried i x := by
  unfold credited fair carried
  cases x.event with
  | idle => simp
  | settle j staked paid => simp
  | distribute amount =>
    by_cases htotal : x.before.total = 0
    · simp [htotal]
    · have hpos : (0 : ℚ) < x.before.total := by exact_mod_cast Nat.pos_of_ne_zero htotal
      have hle : ((amount * scale / x.before.total : ℕ) : ℚ) ≤ amount * scale / x.before.total := by
        simpa using Nat.cast_div_le (α := ℚ) (m := amount * scale) (n := x.before.total)
      have hlt : (amount * scale / x.before.total : ℚ) ≤
          ((amount * scale / x.before.total : ℕ) : ℚ) + 1 := by
        rw [div_le_iff₀ hpos]
        have h : amount * scale ≤ (amount * scale / x.before.total + 1) * x.before.total := by
          rw [Nat.mul_comm (_ + 1)]
          exact (Nat.lt_mul_div_succ _ (Nat.pos_of_ne_zero htotal)).le
        exact_mod_cast h
      have hstaked : (0 : ℚ) ≤ (x.before.share i).staked := Nat.cast_nonneg _
      have hshare : (scale : ℚ) * ((x.before.share i).staked * amount / x.before.total) =
          (x.before.share i).staked * (amount * scale / x.before.total) := by ring
      simp only [htotal, if_false, hshare]
      push_cast
      constructor
      · exact mul_le_mul_of_nonneg_left hle hstaked
      · calc _ ≤ ((x.before.share i).staked : ℚ) *
              (((amount * scale / x.before.total : ℕ) : ℚ) + 1) :=
            mul_le_mul_of_nonneg_left hlt hstaked
          _ = _ := by ring

lemma along_credited_bounds (scale : ℕ) (i : ι) (t : List (Entry (Books ι) (Move ι))) :
    ((along (credited scale i) t : ℕ) : ℚ) ≤ scale * along (fair i) t ∧
      scale * along (fair i) t ≤ ((along (credited scale i) t : ℕ) : ℚ) + (along (carried i) t : ℕ) := by
  induction t using List.reverseRecOn with
  | nil => simp
  | append_singleton t x ih =>
    obtain ⟨hle, hge⟩ := credited_bounds scale i x
    simp only [along_snoc]
    push_cast
    constructor <;> linarith [ih.1, ih.2]

end Entries

section Runs
variable {ι : Type*} [DecidableEq ι] {scale : ℕ} {b b' : Books ι} {m : Move ι}
  {t : List (Entry (Books ι) (Move ι))}

/-- The books after a run: what a holder has been paid and is owed is what was credited to
it, up to one unit for each time it settled. -/
structure Accounted (scale : ℕ) (t : List (Entry (Books ι) (Move ι))) (b : Books ι) : Prop where
  staked_le : ∀ F : Finset ι, ∑ i ∈ F, (b.share i).staked ≤ b.total
  entry_le : ∀ i, (b.share i).entry ≤ b.index
  index_le : b.index ≤ scale * along shared t
  paid_le : ∀ i, scale * along (paid i) t + (b.share i).owed scale b.index ≤
    along (credited scale i) t
  le_paid : ∀ i, along (credited scale i) t ≤ scale * along (paid i) t +
    (b.share i).owed scale b.index + scale * along (settlements i) t
  credited_le : ∀ F : Finset ι, ∑ i ∈ F, along (credited scale i) t ≤ scale * along shared t

lemma accounted_empty (scale : ℕ) : Accounted scale [] (empty : Books ι) := by
  constructor <;> simp [empty, Share.empty, Share.owed]

lemma put_share_self (i : ι) (s : Share) (total : ℕ) : (b.put i s total).share i = s := by
  simp [put]

lemma put_share_of_ne {i j : ι} (hj : j ≠ i) (s : Share) (total : ℕ) :
    (b.put i s total).share j = b.share j := by
  simp [put, hj]

lemma staked_le_put (h : ∀ F : Finset ι, ∑ i ∈ F, (b.share i).staked ≤ b.total) {i : ι} {s : Share}
    {total : ℕ} (htotal : total + (b.share i).staked = b.total + s.staked) (F : Finset ι) :
    ∑ j ∈ F, ((b.put i s total).share j).staked ≤ total := by
  have hrest : ∑ j ∈ F.erase i, ((b.put i s total).share j).staked =
      ∑ j ∈ F.erase i, (b.share j).staked := by
    apply Finset.sum_congr rfl
    intro j hj
    rw [put_share_of_ne (Finset.ne_of_mem_erase hj)]
  have hall := h (insert i (F.erase i))
  rw [Finset.sum_insert (Finset.notMem_erase i F)] at hall
  by_cases hi : i ∈ F
  · rw [← Finset.add_sum_erase F _ hi, hrest, put_share_self]
    omega
  · rw [Finset.erase_eq_of_notMem hi] at hrest hall
    rw [hrest]
    omega

variable (hscale : 0 < scale)
include hscale

lemma Accounted.settle (h : Accounted scale t b) {i : ι} {staked paid reward total : ℕ}
    (hpaid : reward + paid = (b.share i).claimable scale b.index)
    (htotal : total + (b.share i).staked = b.total + staked) :
    Accounted scale (t ++ [⟨b, .settle i staked paid, b.put i ⟨staked, b.index, reward⟩ total⟩])
      (b.put i ⟨staked, b.index, reward⟩ total) := by
  have howed := Share.claimable_le_owed scale b.index (b.share i)
  have hlost := Share.owed_lt hscale b.index (b.share i)
  rw [Nat.mul_add, Nat.mul_one] at hlost
  have hbanked : scale * reward + scale * paid =
      scale * (b.share i).claimable scale b.index := by
    rw [← Nat.mul_add, hpaid]
  refine ⟨staked_le_put h.staked_le htotal, ?_, ?_, ?_, ?_, ?_⟩
  · intro j
    by_cases hj : j = i
    · subst hj
      rw [put_share_self]
      exact le_rfl
    · rw [put_share_of_ne hj]
      exact h.entry_le j
  · simpa [shared, put] using h.index_le
  · intro j
    have hj' := h.paid_le j
    simp only [along_snoc, Books.paid, credited, Nat.add_zero]
    by_cases hj : j = i
    · subst hj
      rw [put_share_self]
      simp only [put, Share.owed_settled, if_true, Nat.mul_add]
      omega
    · rw [put_share_of_ne hj, if_neg (Ne.symm hj)]
      exact hj'
  · intro j
    have hj' := h.le_paid j
    simp only [along_snoc, Books.paid, credited, settlements, Nat.add_zero]
    by_cases hj : j = i
    · subst hj
      rw [put_share_self]
      simp only [put, Share.owed_settled, if_true, Nat.mul_add]
      omega
    · rw [put_share_of_ne hj, if_neg (Ne.symm hj), if_neg (Ne.symm hj)]
      exact hj'
  · intro F
    simpa [credited, shared] using h.credited_le F

omit hscale in
lemma Accounted.distribute (h : Accounted scale t b) (amount : ℕ) :
    Accounted scale (t ++ [⟨b, .distribute amount, b.distribute scale amount⟩])
      (b.distribute scale amount) := by
  have howed (i : ι) : (b.share i).owed scale (b.index + amount * scale / b.total) =
      (b.share i).owed scale b.index + (b.share i).staked * (amount * scale / b.total) :=
    Share.owed_add (h.entry_le i) _
  have hrate : b.total * (amount * scale / b.total) ≤
      scale * if b.total = 0 then 0 else amount := by
    split_ifs with htotal
    · simp [htotal]
    · rw [Nat.mul_comm scale]
      exact Nat.mul_div_le _ _
  refine ⟨h.staked_le, ?_, ?_, ?_, ?_, ?_⟩
  · intro i
    exact (h.entry_le i).trans (Nat.le_add_right _ _)
  · have hindex := h.index_le
    have hone : amount * scale / b.total ≤ b.total * (amount * scale / b.total) := by
      rcases Nat.eq_zero_or_pos b.total with hzero | hpos
      · simp [hzero]
      · exact Nat.le_mul_of_pos_left _ hpos
    simp only [along_snoc, shared, Books.distribute, Nat.mul_add]
    omega
  · intro i
    have hi := h.paid_le i
    simp only [along_snoc, paid, credited, Books.distribute, howed, Nat.add_zero]
    omega
  · intro i
    have hi := h.le_paid i
    simp only [along_snoc, paid, credited, settlements, Books.distribute, howed, Nat.add_zero]
    omega
  · intro F
    have hsum : ∑ i ∈ F, (b.share i).staked * (amount * scale / b.total) ≤
        b.total * (amount * scale / b.total) := by
      rw [← Finset.sum_mul]
      exact Nat.mul_le_mul_right _ (h.staked_le F)
    have hF := h.credited_le F
    simp only [along_snoc, credited, shared, Finset.sum_add_distrib, Nat.mul_add]
    omega

theorem Accounted.step (h : Accounted scale t b) (hs : Step scale m b b') :
    Accounted scale (t ++ [⟨b, m, b'⟩]) b' := by
  cases hs with
  | idle =>
    obtain ⟨h1, h2, h3, h4, h5, h6⟩ := h
    constructor <;> simpa [paid, credited, settlements, shared]
  | settle hpaid htotal => exact h.settle hscale hpaid htotal
  | distribute => exact h.distribute _

theorem accounted (h : Trace (Step scale) empty t b) : Accounted scale t b := by
  induction h with
  | nil => exact accounted_empty scale
  | snoc _ hs ih => exact ih.step hscale hs

end Runs

section Earned
variable {ι : Type*} [DecidableEq ι] {scale : ℕ} {b : Books ι}
  {t : List (Entry (Books ι) (Move ι))}

/-- Everything a holder has been paid and could be paid now. -/
def earned (scale : ℕ) (t : List (Entry (Books ι) (Move ι))) (b : Books ι) (i : ι) : ℕ :=
  along (paid i) t + (b.share i).claimable scale b.index

lemma Accounted.scale_mul_earned_le (h : Accounted scale t b) (i : ι) :
    scale * earned scale t b i ≤ along (credited scale i) t := by
  have hpaid := h.paid_le i
  have hclaim := Share.claimable_le_owed scale b.index (b.share i)
  rw [earned, Nat.mul_add]
  omega

theorem Accounted.earned_le_fair (h : Accounted scale t b) (hscale : 0 < scale) (i : ι) :
    (earned scale t b i : ℚ) ≤ along (fair i) t := by
  have hle : (scale : ℚ) * earned scale t b i ≤ (along (credited scale i) t : ℕ) := by
    exact_mod_cast h.scale_mul_earned_le i
  have hpos : (0 : ℚ) < scale := by exact_mod_cast hscale
  exact le_of_mul_le_mul_left (hle.trans (along_credited_bounds scale i t).1) hpos

theorem Accounted.fair_le_earned (h : Accounted scale t b) (hscale : 0 < scale) (i : ι) :
    along (fair i) t - ((along (settlements i) t : ℕ) + 1) - ((along (carried i) t : ℕ) : ℚ) / scale ≤
      earned scale t b i := by
  have hlost := Share.owed_lt hscale b.index (b.share i)
  have hpaid := h.le_paid i
  have hnat : along (credited scale i) t ≤
      scale * earned scale t b i + scale * (along (settlements i) t + 1) := by
    rw [earned, Nat.mul_add, Nat.mul_add]
    rw [Nat.mul_add] at hlost
    omega
  have hcast : ((along (credited scale i) t : ℕ) : ℚ) ≤
      scale * earned scale t b i + scale * ((along (settlements i) t : ℕ) + 1) := by
    exact_mod_cast hnat
  have hfair := (along_credited_bounds scale i t).2
  have hpos : (0 : ℚ) < scale := by exact_mod_cast hscale
  have hall : (scale : ℚ) * (along (fair i) t - ((along (settlements i) t : ℕ) + 1) -
      ((along (carried i) t : ℕ) : ℚ) / scale) ≤ scale * earned scale t b i := by
    rw [mul_sub, mul_div_cancel₀ _ hpos.ne', mul_sub]
    linarith
  exact le_of_mul_le_mul_left hall hpos

theorem Accounted.sum_earned_le (h : Accounted scale t b) (hscale : 0 < scale) (F : Finset ι) :
    ∑ i ∈ F, earned scale t b i ≤ along shared t := by
  have hsum : scale * ∑ i ∈ F, earned scale t b i ≤ scale * along shared t := by
    rw [Finset.mul_sum]
    exact (Finset.sum_le_sum fun i _ => h.scale_mul_earned_le i).trans (h.credited_le F)
  exact Nat.le_of_mul_le_mul_left hsum hscale

end Earned

end Books

end Blitz.RewardIndex
