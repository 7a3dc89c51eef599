import Mathlib.Data.Set.Function
import Mathlib.Data.Sym.Sym2

/-! Unordered pairs by an ordered representative. -/
namespace Blitz.CanonicalPair

section Pairs
variable {α β : Type} {r : α → α → Prop} [DecidableRel r] {a b c d : α}

/-- Two values in the order of the relation, the first one first where they tie. -/
def pair (r : α → α → Prop) [DecidableRel r] (a b : α) : α × α :=
  if r a b then (a, b) else (b, a)

lemma mk_pair : s((pair r a b).1, (pair r a b).2) = s(a, b) := by
  unfold pair
  split_ifs
  · rfl
  · exact Sym2.eq_swap

lemma pair_comm (htotal : ∀ a b, r a b ∨ r b a) (hanti : ∀ {a b}, r a b → r b a → a = b) :
    pair r a b = pair r b a := by
  unfold pair
  split_ifs with hab hba hba
  · rw [hanti hab hba]
  · rfl
  · rfl
  · rcases htotal a b with h | h
    · exact absurd h hab
    · exact absurd h hba

theorem pair_eq_iff (htotal : ∀ a b, r a b ∨ r b a) (hanti : ∀ {a b}, r a b → r b a → a = b) :
    pair r a b = pair r c d ↔ s(a, b) = s(c, d) := by
  constructor
  · intro h
    rw [← mk_pair (r := r) (a := a), ← mk_pair (r := r) (a := c), h]
  · intro h
    rcases Sym2.eq_iff.mp h with ⟨rfl, rfl⟩ | ⟨rfl, rfl⟩
    · rfl
    · exact pair_comm htotal hanti

lemma map_pair_eq_iff {f : α → β} (hf : Set.InjOn f {a, b, c, d}) :
    (f (pair r a b).1 = f (pair r c d).1 ∧ f (pair r a b).2 = f (pair r c d).2) ↔
      pair r a b = pair r c d := by
  have hmem (x y : α) : ((pair r x y).1 = x ∨ (pair r x y).1 = y) ∧
      ((pair r x y).2 = x ∨ (pair r x y).2 = y) := by
    unfold pair
    split_ifs <;> simp
  have hleft : (pair r a b).1 ∈ ({a, b, c, d} : Set α) ∧ (pair r a b).2 ∈ ({a, b, c, d} : Set α) := by
    rcases hmem a b with ⟨h1 | h1, h2 | h2⟩ <;> simp [h1, h2]
  have hright : (pair r c d).1 ∈ ({a, b, c, d} : Set α) ∧ (pair r c d).2 ∈ ({a, b, c, d} : Set α) := by
    rcases hmem c d with ⟨h1 | h1, h2 | h2⟩ <;> simp [h1, h2]
  rw [Prod.ext_iff, hf.eq_iff hleft.1 hright.1, hf.eq_iff hleft.2 hright.2]

end Pairs

end Blitz.CanonicalPair
