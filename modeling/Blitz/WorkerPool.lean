import Mathlib

/-! A fixed number of workers: what each claims of the things they share, and what is queued
with each. -/
namespace Blitz.WorkerPool

section Claims
variable {E K : Type*}

/-- Two lists of claims meet on a thing that one of them writes. The flag of a claim says
whether it is to write. -/
def Clash (xs ys : List (K × Bool)) : Prop :=
  ∃ k w w', (k, w) ∈ xs ∧ (k, w') ∈ ys ∧ (w = true ∨ w' = true)

/-- What the claims name twice they only read. -/
def Apart (xs : List (K × Bool)) : Prop :=
  xs.Pairwise fun a b => a.1 = b.1 → a.2 = false ∧ b.2 = false

instance [DecidableEq K] (xs : List (K × Bool)) : Decidable (Apart xs) :=
  inferInstanceAs (Decidable (xs.Pairwise _))

/-- No party writes what another one holds. -/
def Exclusive (held : E → List (K × Bool)) : Prop :=
  ∀ e e', e ≠ e' → ¬Clash (held e) (held e')

lemma exclusive_of_alone {held : E → List (K × Bool)}
    (h : ∀ k e e' w, (k, true) ∈ held e → (k, w) ∈ held e' → e = e') : Exclusive held := by
  rintro e e' hne ⟨k, w, w', hx, hy, rfl | rfl⟩
  · exact hne (h k e e' w' hx hy)
  · exact hne (h k e' e w hy hx).symm

end Claims

section Pool
variable {α : Type*} {count : ℕ} {f : ℕ → List α} {b : ℕ} {a : α} {rest : List α}

/-- Everything queued with the first `count` workers. -/
def pool (count : ℕ) (f : ℕ → List α) : Multiset α := ∑ e ∈ Finset.range count, (f e : Multiset α)

@[simp] lemma pool_nil (count : ℕ) : pool count (fun _ => ([] : List α)) = 0 := by simp [pool]

lemma pool_update (hb : b < count) (l : List α) :
    pool count (Function.update f b l) + f b = pool count f + l := by
  have hmem : b ∈ Finset.range count := Finset.mem_range.mpr hb
  have hfun : (fun e => ((Function.update f b l e : List α) : Multiset α)) =
      Function.update (fun e => (f e : Multiset α)) b (l : Multiset α) := by
    funext e
    by_cases he : e = b
    · subst he
      simp
    · simp [he]
  rw [pool, pool, hfun, Finset.sum_update_of_mem hmem, Finset.sum_eq_sum_sdiff_singleton_add hmem]
  abel

lemma pool_pop (hb : b < count) (h : f b = a :: rest) :
    pool count f = a ::ₘ pool count (Function.update f b rest) := by
  have hpool := pool_update (f := f) hb rest
  rw [h, ← Multiset.cons_coe, Multiset.add_cons, ← Multiset.cons_add] at hpool
  exact (add_right_cancel hpool).symm

lemma pool_push (hb : b < count) {l : List α} (h : l.Perm (a :: f b)) :
    pool count (Function.update f b l) = a ::ₘ pool count f := by
  have hpool := pool_update (f := f) hb l
  rw [Multiset.coe_eq_coe.mpr h, ← Multiset.cons_coe, Multiset.add_cons, ← Multiset.cons_add] at hpool
  exact add_right_cancel hpool

lemma mem_pool : a ∈ pool count f ↔ ∃ e < count, a ∈ f e := by
  simp [pool, Multiset.mem_sum]

lemma pool_eq_zero : pool count f = 0 ↔ ∀ e < count, f e = [] := by
  simp [pool, Finset.sum_eq_zero_iff]

end Pool

end Blitz.WorkerPool
