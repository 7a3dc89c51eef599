import Mathlib

/-! Indexes built by one pass over a list, where a later entry replaces an
earlier one under the same key: looking up is finding the last match. -/
namespace Blitz.LatestIndex

variable {κ α : Type*} [DecidableEq κ] {p : α → Prop} [DecidablePred p] {key : α → κ}

/-- Entries that pass `p` go in under their key. -/
def insertIf (p : α → Prop) [DecidablePred p] (key : α → κ) (index : κ → Option α) (a : α) :
    κ → Option α :=
  if p a then Function.update index (key a) (some a) else index

/-- The last entry that passes `p` and has this key. -/
def latest (p : α → Prop) [DecidablePred p] (key : α → κ) (l : List α) (k : κ) : Option α :=
  l.reverse.find? fun a => p a ∧ key a = k

theorem foldl_insertIf (l : List α) (index : κ → Option α) (k : κ) :
    l.foldl (insertIf p key) index k = (latest p key l k).or (index k) := by
  induction l generalizing index with
  | nil => simp [latest]
  | cons a l ih =>
    rw [List.foldl_cons, ih, latest, latest, List.reverse_cons, List.find?_append, Option.or_assoc]
    congr 1
    by_cases ha : p a <;> by_cases hk : key a = k
    · subst hk
      simp [insertIf, ha]
    · simp [insertIf, ha, hk, Function.update_of_ne (Ne.symm hk)]
    · simp [insertIf, ha]
    · simp [insertIf, ha]

lemma latest_eq_some {l : List α} {k : κ} {a : α} (h : latest p key l k = some a) :
    a ∈ l ∧ p a ∧ key a = k := by
  have hp := List.find?_some h
  have hm := List.mem_of_find?_eq_some h
  exact ⟨List.mem_reverse.mp hm, by simpa using hp⟩

lemma latest_eq_none {l : List α} {k : κ} :
    latest p key l k = none ↔ ∀ a ∈ l, p a → key a ≠ k := by
  simp [latest]

lemma latest_concat_of_pos {l : List α} {a : α} {k : κ} (hp : p a) (hk : key a = k) :
    latest p key (l ++ [a]) k = some a := by
  simp [latest, hp, hk]

lemma latest_concat_of_neg {l : List α} {a : α} {k : κ} (h : p a → key a ≠ k) :
    latest p key (l ++ [a]) k = latest p key l k := by
  have hn : ¬(p a ∧ key a = k) := fun hp => h hp.1 hp.2
  simp [latest, hn]

end Blitz.LatestIndex
