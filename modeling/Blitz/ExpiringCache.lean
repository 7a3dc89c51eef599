import Mathlib.Tactic
import Mathlib.Logic.Function.Basic

/-! A cache whose entries live for a fixed time from when they were first put in, and are
removed when something else is. -/
namespace Blitz

/-- `queue` holds the keys with the instants they came at, oldest first. -/
structure ExpiringCache (K V : Type*) where
  index : K → Option V
  queue : List (K × ℕ)
  ttl : ℕ

namespace ExpiringCache
variable {K V : Type*}

def new (ttl : ℕ) : ExpiringCache K V := ⟨fun _ => none, [], ttl⟩

def contains (cache : ExpiringCache K V) (key : K) : Bool := (cache.index key).isSome

/-- The key was put in at least a lifetime ago. -/
def Expired (cache : ExpiringCache K V) (now : ℕ) (key : K) : Prop :=
  ∃ genesis, (key, genesis) ∈ cache.queue ∧ cache.ttl ≤ now - genesis

/-- The same keys, but for what may have expired by now. -/
structure SameKeys (now : ℕ) (before after : ExpiringCache K V) : Prop where
  nothingNew : ∀ key, after.contains key → before.contains key
  onlyExpired : ∀ key, before.contains key → ¬after.contains key → before.Expired now key

lemma SameKeys.refl (now : ℕ) (cache : ExpiringCache K V) : SameKeys now cache cache where
  nothingNew _ h := h
  onlyExpired _ h hnot := absurd h hnot

variable [DecidableEq K]

/-- The loop at the front of the queue. -/
def evict (ttl now : ℕ) : List (K × ℕ) → (K → Option V) → List (K × ℕ) × (K → Option V)
  | [], index => ([], index)
  | record :: queue, index =>
    if ttl ≤ now - record.2 then evict ttl now queue (Function.update index record.1 none)
    else (record :: queue, index)

/-- An entry that is there already gets the new value and keeps its time. -/
def push (cache : ExpiringCache K V) (now : ℕ) (key : K) (value : V) : Bool × ExpiringCache K V :=
  let (queue, index) := evict cache.ttl now cache.queue cache.index
  let isNew := (index key).isNone
  (isNew, { cache with
    index := Function.update index key (some value)
    queue := if isNew then queue ++ [(key, now)] else queue })

variable {cache : ExpiringCache K V} {now : ℕ} {key other : K} {value : V}

lemma isSome_of_evict {ttl : ℕ} {queue : List (K × ℕ)} {index : K → Option V}
    (h : ((evict ttl now queue index).2 key).isSome) : (index key).isSome := by
  induction queue generalizing index with
  | nil => exact h
  | cons record queue ih =>
    rw [evict] at h
    split_ifs at h with hexpired
    · have hkept := ih h
      by_cases hkey : key = record.1
      · rw [hkey, Function.update_self] at hkept
        cases hkept
      · rwa [Function.update_of_ne hkey] at hkept
    · exact h

lemma contains_push : (cache.push now key value).2.contains key := by
  simp [push, contains]

lemma contains_of_push (h : (cache.push now key value).2.contains other) :
    other = key ∨ cache.contains other := by
  by_cases hkey : other = key
  · exact .inl hkey
  · have hleft : ((evict cache.ttl now cache.queue cache.index).2 other).isSome := by
      simpa only [contains, push, Function.update_of_ne hkey] using h
    exact .inr (isSome_of_evict hleft)

lemma push_isNew (h : ¬cache.contains key) : (cache.push now key value).1 = true := by
  change ((evict cache.ttl now cache.queue cache.index).2 key).isNone = true
  rw [← Option.not_isSome, Bool.not_eq_true']
  exact Bool.eq_false_iff.mpr fun hleft => h (isSome_of_evict hleft)

end ExpiringCache

end Blitz
