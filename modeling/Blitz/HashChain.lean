import Mathlib

/-! Numbered, hash-linked logs over arbitrary entry and digest types: entry `i`
carries number `i`, the first entry links to a fixed origin and every later
one to the digest of its predecessor. -/
namespace Blitz.HashChain

variable {α β : Type*} {number : α → ℕ} {link digest : α → β} {origin : β}

structure Linked (number : α → ℕ) (link digest : α → β) (origin : β) (log : List α) : Prop where
  numbered : ∀ i a, log[i]? = some a → number a = i
  rooted : ∀ a, log[0]? = some a → link a = origin
  linked : ∀ i a b, log[i]? = some a → log[i + 1]? = some b → link b = digest a

/-- The link the next entry of the log has to carry. -/
def head (digest : α → β) (origin : β) (log : List α) : β :=
  (log.getLast?.map digest).getD origin

@[simp] lemma head_nil : head digest origin [] = origin := rfl

@[simp] lemma head_concat (log : List α) (a : α) :
    head digest origin (log ++ [a]) = digest a := by
  simp [head]

lemma Linked.nil : Linked number link digest origin [] := by
  constructor <;> simp

namespace Linked
variable {log : List α}

lemma getElem?_number (h : Linked number link digest origin log) {a : α} (ha : a ∈ log) :
    log[number a]? = some a := by
  obtain ⟨i, hi⟩ := List.mem_iff_getElem?.mp ha
  rwa [h.numbered i a hi]

lemma number_lt (h : Linked number link digest origin log) {a : α} (ha : a ∈ log) :
    number a < log.length :=
  (List.getElem?_eq_some_iff.mp (h.getElem?_number ha)).1

theorem eq_of_number_eq (h : Linked number link digest origin log) {a b : α}
    (ha : a ∈ log) (hb : b ∈ log) (he : number a = number b) : a = b := by
  have h1 := h.getElem?_number ha
  rw [he, h.getElem?_number hb] at h1
  exact (Option.some.inj h1).symm

theorem link_of_succ (h : Linked number link digest origin log) {a b : α}
    (ha : a ∈ log) (hb : b ∈ log) (he : number b = number a + 1) : link b = digest a := by
  have h2 := h.getElem?_number hb
  rw [he] at h2
  exact h.linked _ a b (h.getElem?_number ha) h2

theorem link_of_zero (h : Linked number link digest origin log) {a : α}
    (ha : a ∈ log) (he : number a = 0) : link a = origin := by
  have h1 := h.getElem?_number ha
  rw [he] at h1
  exact h.rooted a h1

theorem agree_below {log₁ log₂ : List α} (h₁ : Linked number link digest origin log₁)
    (h₂ : Linked number link digest origin log₂)
    (hdigest : ∀ a ∈ log₁, ∀ b ∈ log₂, digest a = digest b → a = b) {n : ℕ} {a : α}
    (ha₁ : log₁[n]? = some a) (ha₂ : log₂[n]? = some a) {i : ℕ} (hi : i ≤ n) :
    log₁[i]? = log₂[i]? := by
  induction n generalizing a with
  | zero =>
    obtain rfl : i = 0 := by omega
    rw [ha₁, ha₂]
  | succ n ih =>
    rcases Nat.lt_or_ge n i with hlt | hle
    · obtain rfl : i = n + 1 := by omega
      rw [ha₁, ha₂]
    · -- Both predecessors exist, and the shared entry links to each of them.
      have hn₁ := (List.getElem?_eq_some_iff.mp ha₁).1
      have hn₂ := (List.getElem?_eq_some_iff.mp ha₂).1
      have hp₁ : log₁[n]? = some log₁[n] := List.getElem?_eq_getElem (by omega)
      have hp₂ : log₂[n]? = some log₂[n] := List.getElem?_eq_getElem (by omega)
      have hlink : digest log₁[n] = digest log₂[n] := by
        rw [← h₁.linked n _ a hp₁ ha₁, h₂.linked n _ a hp₂ ha₂]
      have heq := hdigest _ (List.mem_of_getElem? hp₁) _ (List.mem_of_getElem? hp₂) hlink
      rw [heq] at hp₁
      exact ih hp₁ hp₂ hle

theorem concat (h : Linked number link digest origin log) {a : α}
    (hn : number a = log.length) (hl : link a = head digest origin log) :
    Linked number link digest origin (log ++ [a]) := by
  refine ⟨?_, ?_, ?_⟩
  · intro i b hb
    rcases Nat.lt_or_ge i log.length with hi | hi
    · rw [List.getElem?_append_left hi] at hb
      exact h.numbered i b hb
    · obtain ⟨hlt, hb⟩ := List.getElem?_eq_some_iff.mp hb
      have hie : i = log.length := by simp at hlt; omega
      subst hie
      simp at hb
      rw [← hb, hn]
  · intro b hb
    cases hlog : log with
    | nil =>
      subst hlog
      simp at hb
      rw [← hb, hl, head_nil]
    | cons x xs =>
      rw [hlog] at hb
      exact h.rooted b (by rw [hlog]; simpa using hb)
  · intro i b d hb hd
    have hlt : i + 1 < (log ++ [a]).length := (List.getElem?_eq_some_iff.mp hd).1
    rw [List.length_append, List.length_singleton] at hlt
    rw [List.getElem?_append_left (by omega)] at hb
    rcases Nat.lt_or_ge (i + 1) log.length with hi | hi
    · rw [List.getElem?_append_left hi] at hd
      exact h.linked i b d hb hd
    · -- The new entry is the successor, so its link is the last digest.
      have hie : log.length = i + 1 := by omega
      rw [List.getElem?_append_right hi, hie] at hd
      simp at hd
      have hlast : log.getLast? = some b := by rw [List.getLast?_eq_getElem?, hie]; simpa using hb
      rw [← hd, hl, head, hlast]
      rfl

end Linked

end Blitz.HashChain
