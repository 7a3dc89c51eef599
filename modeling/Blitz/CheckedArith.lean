import Mathlib

/-! Fallible sequencing and machine arithmetic with an explicit answer to
overflow: checked, saturating and wrapping, each with its value in `ℕ`. -/
namespace Blitz.CheckedArith

universe u

section Sequencing
variable {ε : Type*} {α β : Type u}

/-- Fail with `e` unless `p` holds. -/
def require (p : Prop) [Decidable p] (e : ε) : Except ε Unit := if p then .ok () else .error e

/-- Turn a missing value into an error. -/
def orElse (x : Option α) (e : ε) : Except ε α := match x with
  | some a => .ok a
  | none => .error e

@[simp] lemma require_eq_ok {p : Prop} [Decidable p] {e : ε} {u : Unit} :
    require p e = .ok u ↔ p := by
  unfold require
  split_ifs with h <;> simp [h]

@[simp] lemma require_eq_error {p : Prop} [Decidable p] {e e' : ε} :
    require p e = .error e' ↔ ¬p ∧ e = e' := by
  unfold require
  split_ifs with h <;> simp [h]

@[simp] lemma orElse_eq_ok {x : Option α} {e : ε} {a : α} : orElse x e = .ok a ↔ x = some a := by
  cases x <;> simp [orElse]

@[simp] lemma orElse_eq_error {x : Option α} {e e' : ε} :
    orElse x e = .error e' ↔ x = none ∧ e = e' := by
  cases x <;> simp [orElse]

@[simp] lemma bind_eq_ok {x : Except ε α} {f : α → Except ε β} {b : β} :
    (x >>= f) = .ok b ↔ ∃ a, x = .ok a ∧ f a = .ok b := by
  cases x <;> simp [bind, Except.bind]

@[simp] lemma bind_eq_error {x : Except ε α} {f : α → Except ε β} {e : ε} :
    (x >>= f) = .error e ↔ x = .error e ∨ ∃ a, x = .ok a ∧ f a = .error e := by
  cases x <;> simp [bind, Except.bind]

lemma map_eq_ok {f : α → β} {x : Except ε α} {b : β} :
    x.map f = .ok b ↔ ∃ a, x = .ok a ∧ f a = b := by
  cases x <;> simp [Except.map]

lemma mapError_eq_ok {ε' : Type*} {f : ε → ε'} {x : Except ε α} {a : α} :
    x.mapError f = .ok a ↔ x = .ok a := by
  cases x <;> simp [Except.mapError]

lemma mapError_eq_error {ε' : Type*} {f : ε → ε'} {x : Except ε α} {e : ε'} :
    x.mapError f = .error e ↔ ∃ e', x = .error e' ∧ f e' = e := by
  cases x <;> simp [Except.mapError]

lemma toBool_eq_true {x : Except ε α} : x.toBool = true ↔ ∃ a, x = .ok a := by
  cases x <;> simp [Except.toBool]

lemma mapM_eq_ok {f : α → Except ε β} {l : List α} {bs : List β} :
    l.mapM f = .ok bs ↔ List.Forall₂ (fun a b => f a = .ok b) l bs := by
  induction l generalizing bs with
  | nil =>
    rw [List.mapM_nil, List.forall₂_nil_left_iff]
    constructor
    · rintro ⟨⟩
      rfl
    · rintro rfl
      rfl
  | cons a l ih =>
    rw [List.mapM_cons, bind_eq_ok, List.forall₂_cons_left_iff]
    simp only [bind_eq_ok, ih]
    constructor
    · rintro ⟨b, hb, bs', hbs, h⟩
      exact ⟨b, bs', hb, hbs, (Except.ok.inj h).symm⟩
    · rintro ⟨b, bs', hb, hbs, rfl⟩
      exact ⟨b, hb, bs', hbs, rfl⟩

lemma mem_of_mapM_eq_ok {f : α → Except ε β} {l : List α} {bs : List β} (h : l.mapM f = .ok bs)
    (b : β) : b ∈ bs ↔ ∃ a ∈ l, f a = .ok b := by
  induction mapM_eq_ok.mp h with
  | nil => simp
  | @cons a b' l bs ha hrest ih =>
    have hb : b = b' ↔ f a = .ok b := by
      rw [ha, Except.ok.injEq, eq_comm]
    rw [List.mem_cons, ih (mapM_eq_ok.mpr hrest), hb, List.exists_mem_cons_iff]

lemma exists_mapM_eq_ok {f : α → Except ε β} {l : List α} (h : ∀ a ∈ l, ∃ b, f a = .ok b) :
    ∃ bs, l.mapM f = .ok bs := by
  induction l with
  | nil => exact ⟨[], rfl⟩
  | cons a l ih =>
    obtain ⟨b, hb⟩ := h a List.mem_cons_self
    obtain ⟨bs, hbs⟩ := ih fun a' ha' => h a' (List.mem_cons_of_mem _ ha')
    exact ⟨b :: bs, mapM_eq_ok.mpr (.cons hb (mapM_eq_ok.mp hbs))⟩

end Sequencing

section Words

def checkedAdd (a b : UInt64) : Option UInt64 :=
  if a.toNat + b.toNat < 2 ^ 64 then some (a + b) else none

def checkedSub (a b : UInt64) : Option UInt64 := if b ≤ a then some (a - b) else none

def saturatingSub (a b : UInt64) : UInt64 := if b ≤ a then a - b else 0

lemma toNat_add_of_lt {a b : UInt64} (h : a.toNat + b.toNat < 2 ^ 64) :
    (a + b).toNat = a.toNat + b.toNat := by
  rw [UInt64.toNat_add, Nat.mod_eq_of_lt h]

lemma toNat_eq_zero {a : UInt64} : a.toNat = 0 ↔ a = 0 := by
  rw [← UInt64.toNat_inj, UInt64.toNat_zero]

lemma toNat_saturatingSub (a b : UInt64) : (saturatingSub a b).toNat = a.toNat - b.toNat := by
  unfold saturatingSub
  split_ifs with h
  · exact UInt64.toNat_sub_of_le _ _ h
  · have hlt : ¬b.toNat ≤ a.toNat := fun hle => h (UInt64.le_iff_toNat_le.mpr hle)
    have : a.toNat - b.toNat = 0 := by omega
    simp [this]

lemma checkedAdd_eq_some {a b s : UInt64} :
    checkedAdd a b = some s ↔ s.toNat = a.toNat + b.toNat := by
  unfold checkedAdd
  split_ifs with h
  · rw [Option.some.injEq, ← UInt64.toNat_inj, toNat_add_of_lt h, eq_comm]
  · have := s.toNat_lt
    simp only [false_iff]
    omega

lemma checkedAdd_eq_none {a b : UInt64} :
    checkedAdd a b = none ↔ 2 ^ 64 ≤ a.toNat + b.toNat := by
  unfold checkedAdd
  split_ifs with h
  · simp only [false_iff]
    omega
  · simp only [true_iff]
    omega

lemma checkedSub_eq_some {a b d : UInt64} :
    checkedSub a b = some d ↔ d.toNat + b.toNat = a.toNat := by
  unfold checkedSub
  split_ifs with h
  · have hs := UInt64.toNat_sub_of_le _ _ h
    have hle := UInt64.le_iff_toNat_le.mp h
    rw [Option.some.injEq, ← UInt64.toNat_inj, hs]
    omega
  · have hlt : ¬b.toNat ≤ a.toNat := fun hle => h (UInt64.le_iff_toNat_le.mpr hle)
    simp only [false_iff]
    omega

end Words

end Blitz.CheckedArith
