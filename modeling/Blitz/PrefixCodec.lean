import Blitz.LittleEndian

/-! Values written to the front of a byte string and read back from it. A codec accepts
only what it writes, and hands on whatever follows. -/
namespace Blitz.PrefixCodec
open LittleEndian

structure Codec (α : Type*) where
  encode : α → List UInt8
  decode : List UInt8 → Option (α × List UInt8)
  decode_eq_some : ∀ {w : List UInt8} {a : α} {rest : List UInt8},
    decode w = some (a, rest) ↔ w = encode a ++ rest

namespace Codec
variable {α β : Type*} (f : Codec α) (g : Codec β)

@[simp] lemma decode_encode_append (a : α) (rest : List UInt8) :
    f.decode (f.encode a ++ rest) = some (a, rest) := f.decode_eq_some.mpr rfl

lemma encode_append_inj {a b : α} {v w : List UInt8} (h : f.encode a ++ v = f.encode b ++ w) :
    a = b ∧ v = w := by
  have hdecode := f.decode_encode_append a v
  rw [h, decode_encode_append, Option.some.injEq, Prod.mk.injEq] at hdecode
  exact ⟨hdecode.1.symm, hdecode.2.symm⟩

def byte : Codec UInt8 where
  encode b := [b]
  decode
    | [] => none
    | b :: rest => some (b, rest)
  decode_eq_some {w a rest} := by
    cases w with
    | nil => simp
    | cons b w => simp

/-- A fixed array. -/
def bytes (n : ℕ) : Codec (Bytes n) where
  encode b := b.val
  decode w := if n ≤ w.length then some (Bytes.ofList n (w.take n), w.drop n) else none
  decode_eq_some {w a rest} := by
    constructor
    · intro h
      split_ifs at h with hn
      obtain ⟨rfl, rfl⟩ := Prod.mk.inj (Option.some.inj h)
      rw [Bytes.ofList_val (by simpa using hn), List.take_append_drop]
    · rintro rfl
      have hn : n ≤ (a.val ++ rest).length := by simp
      have htake : (a.val ++ rest).take n = a.val := List.take_left' a.property
      have hdrop : (a.val ++ rest).drop n = rest := List.drop_left' a.property
      rw [if_pos hn, htake, hdrop, Bytes.ofList_self]

/-- Bytes that are always there. -/
def literal (tag : List UInt8) : Codec Unit where
  encode _ := tag
  decode w := if tag <+: w then some ((), w.drop tag.length) else none
  decode_eq_some {w a rest} := by
    constructor
    · intro h
      split_ifs at h with htag
      obtain ⟨rest', rfl⟩ := htag
      obtain ⟨_, rfl⟩ := Prod.mk.inj (Option.some.inj h)
      rw [List.drop_left]
    · rintro rfl
      rw [if_pos (List.prefix_append tag rest), List.drop_left]

/-- What comes second may depend on what came first. -/
def sigma {γ : α → Type*} (g : (a : α) → Codec (γ a)) : Codec (Σ a, γ a) where
  encode p := f.encode p.1 ++ (g p.1).encode p.2
  decode w :=
    match f.decode w with
    | none => none
    | some (a, rest) =>
      match (g a).decode rest with
      | none => none
      | some (b, rest) => some (⟨a, b⟩, rest)
  decode_eq_some {w p rest} := by
    constructor
    · intro h
      split at h
      next => cases h
      next a middle hf =>
        split at h
        next => cases h
        next b last hg =>
          obtain ⟨rfl, rfl⟩ := Prod.mk.inj (Option.some.inj h)
          rw [f.decode_eq_some.mp hf, (g a).decode_eq_some.mp hg, List.append_assoc]
    · rintro rfl
      simp

/-- Another way to hold the same value. -/
def map (e : α ≃ β) : Codec β where
  encode b := f.encode (e.symm b)
  decode w := (f.decode w).map fun p => (e p.1, p.2)
  decode_eq_some {w b rest} := by
    constructor
    · intro h
      obtain ⟨⟨a, rest'⟩, hf, hp⟩ := Option.map_eq_some_iff.mp h
      obtain ⟨rfl, rfl⟩ := Prod.mk.inj hp
      rw [Equiv.symm_apply_apply]
      exact f.decode_eq_some.mp hf
    · rintro rfl
      simp

def pair : Codec (α × β) := (f.sigma fun _ => g).map (Equiv.sigmaEquivProd α β)

/-- Only the values that pass a test are read. -/
def restrict (p : α → Prop) [DecidablePred p] : Codec {a // p a} where
  encode a := f.encode a.val
  decode w :=
    match f.decode w with
    | none => none
    | some (a, rest) => if h : p a then some (⟨a, h⟩, rest) else none
  decode_eq_some {w a rest} := by
    constructor
    · intro h
      split at h
      next => cases h
      next b rest' hf =>
        split_ifs at h with hb
        obtain ⟨rfl, rfl⟩ := Prod.mk.inj (Option.some.inj h)
        exact f.decode_eq_some.mp hf
    · rintro rfl
      simp [a.property]

/-- Whatever the first codec does not read is left to the second. -/
def either (hfree : ∀ b rest, f.decode (g.encode b ++ rest) = none) : Codec (α ⊕ β) where
  encode := Sum.elim f.encode g.encode
  decode w :=
    match f.decode w with
    | some (a, rest) => some (.inl a, rest)
    | none =>
      match g.decode w with
      | some (b, rest) => some (.inr b, rest)
      | none => none
  decode_eq_some {w s rest} := by
    constructor
    · intro h
      split at h
      next a rest' hf =>
        obtain ⟨rfl, rfl⟩ := Prod.mk.inj (Option.some.inj h)
        exact f.decode_eq_some.mp hf
      next =>
        split at h
        next b rest' hg =>
          obtain ⟨rfl, rfl⟩ := Prod.mk.inj (Option.some.inj h)
          exact g.decode_eq_some.mp hg
        next => cases h
    · rintro rfl
      cases s with
      | inl a => simp
      | inr b => simp [hfree]

def times : (n : ℕ) → Codec (List.Vector α n)
  | 0 => (literal []).map
      { toFun := fun _ => List.Vector.nil
        invFun := fun _ => ()
        left_inv := fun _ => rfl
        right_inv := fun v => v.eq_nil.symm }
  | n + 1 => (f.pair (times n)).map
      { toFun := fun p => p.1 ::ᵥ p.2
        invFun := fun v => (v.head, v.tail)
        left_inv := fun p => by simp
        right_inv := fun v => by simp }

lemma encode_times {n : ℕ} (v : List.Vector α n) :
    (f.times n).encode v = v.toList.flatMap f.encode := by
  induction v with
  | nil => rfl
  | @cons n a v ih =>
    change f.encode (a ::ᵥ v).head ++ (f.times n).encode (a ::ᵥ v).tail = _
    rw [List.Vector.head_cons, List.Vector.tail_cons, ih, List.Vector.toList_cons,
      List.flatMap_cons]

/-- A list behind its length, which has to be one that can be written. -/
def counted {n : ℕ} (count : Codec (Fin n)) : Codec {as : List α // as.length < n} :=
  (count.sigma fun k => f.times k).map
    { toFun := fun s => ⟨s.2.val, s.2.property.trans_lt s.1.isLt⟩
      invFun := fun as => ⟨⟨as.val.length, as.property⟩, ⟨as.val, rfl⟩⟩
      left_inv := by
        rintro ⟨⟨k, hk⟩, as, hlength⟩
        change as.length = k at hlength
        subst hlength
        rfl
      right_inv := fun _ => rfl }

lemma encode_counted {n : ℕ} (count : Codec (Fin n)) (as : {as : List α // as.length < n}) :
    (f.counted count).encode as =
      count.encode ⟨as.val.length, as.property⟩ ++ as.val.flatMap f.encode := by
  have htimes := f.encode_times (⟨as.val, rfl⟩ : List.Vector α as.val.length)
  exact congrArg (count.encode ⟨as.val.length, as.property⟩ ++ ·) htimes

end Codec

end Blitz.PrefixCodec
