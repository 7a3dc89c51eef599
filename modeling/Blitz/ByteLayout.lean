import Mathlib

/-! Fixed binary layouts over lists: bounded reads, in-place writes, and fields
that tile a buffer. Nothing here knows which record is being laid out. -/
namespace Blitz.ByteLayout

section Slices
variable {α : Type*}

/-- The elements from `off` to `off + len`, clipped at the end of the data. -/
def slice (data : List α) (off len : ℕ) : List α := (data.drop off).take len

/-- The same range, refused unless all of it lies inside the data. -/
def get? (data : List α) (off len : ℕ) : Option (List α) :=
  if off + len ≤ data.length then some (slice data off len) else none

/-- Overwrite `src.length` elements starting at `off`. -/
def copyAt (data : List α) (off : ℕ) (src : List α) : List α :=
  data.take off ++ src ++ data.drop (off + src.length)

/-- A field is an offset together with the elements stored there. -/
abbrev Piece (α : Type*) := ℕ × List α

def writeFields (data : List α) (fields : List (Piece α)) : List α :=
  fields.foldl (fun d f => copyAt d f.1 f.2) data

/-- Every field starts exactly where the one before it ended. -/
def Tiles : ℕ → List (Piece α) → Prop
  | _, [] => True
  | off, f :: fs => f.1 = off ∧ Tiles (off + f.2.length) fs

def content (fields : List (Piece α)) : List α := fields.flatMap Prod.snd

@[simp] lemma content_nil : content ([] : List (Piece α)) = [] := rfl

@[simp] lemma content_cons (f : Piece α) (fs : List (Piece α)) :
    content (f :: fs) = f.2 ++ content fs := rfl

lemma get?_eq_some {data s : List α} {off len : ℕ} :
    get? data off len = some s ↔ off + len ≤ data.length ∧ s = slice data off len := by
  unfold get?
  split_ifs with h <;> simp [h, eq_comm]

lemma getD_of_slice {data : List α} {off : ℕ} {x : α} (d : α) (h : slice data off 1 = [x]) :
    data.getD off d = x := by
  have hh : (data.drop off).head? = some x := by
    cases hd : data.drop off with
    | nil => simp [slice, hd] at h
    | cons y ys => simpa [slice, hd] using h
  rw [List.head?_drop] at hh
  simp [List.getD_eq_getElem?_getD, hh]

lemma slice_slice_zero {data : List α} {len off n : ℕ} (h : off + n ≤ len) :
    slice (slice data 0 len) off n = slice data off n := by
  rw [slice, slice, slice, List.drop_zero, List.drop_take, List.take_take,
    Nat.min_eq_left (by omega)]

lemma slice_add (data : List α) (off m n : ℕ) :
    slice data off (m + n) = slice data off m ++ slice data (off + m) n := by
  rw [slice, slice, slice, List.take_add, List.drop_drop]

lemma length_slice {data : List α} {off len : ℕ} (h : off + len ≤ data.length) :
    (slice data off len).length = len := by
  rw [slice, List.length_take, List.length_drop]
  omega

lemma slice_one {data : List α} {off : ℕ} (h : off < data.length) (d : α) :
    slice data off 1 = [data.getD off d] := by
  rw [slice, List.drop_eq_getElem_cons h, List.take_succ_cons, List.take_zero,
    List.getD_eq_getElem _ _ h]

lemma copyAt_length {data src : List α} {off : ℕ} (h : off + src.length ≤ data.length) :
    (copyAt data off src).length = data.length := by
  simp only [copyAt, List.length_append, List.length_take, List.length_drop]
  omega

lemma writeFields_tiles (fields : List (Piece α)) (data : List α) (off : ℕ)
    (ht : Tiles off fields) (hl : off + (content fields).length ≤ data.length) :
    writeFields data fields =
      data.take off ++ content fields ++ data.drop (off + (content fields).length) := by
  induction fields generalizing data off with
  | nil => simp [writeFields]
  | cons f fs ih =>
    obtain ⟨rfl, ht⟩ := ht
    simp only [content_cons, List.length_append] at hl ⊢
    have hw : (copyAt data f.1 f.2).length = data.length := copyAt_length (by omega)
    have hi := ih (copyAt data f.1 f.2) (f.1 + f.2.length) ht (by omega)
    change writeFields (copyAt data f.1 f.2) fs = _
    rw [hi]
    have hp : (data.take f.1 ++ f.2).length = f.1 + f.2.length := by
      simp only [List.length_append, List.length_take]
      omega
    -- The write just made is the prefix kept by the later ones.
    have htake : (copyAt data f.1 f.2).take (f.1 + f.2.length) = data.take f.1 ++ f.2 := by
      rw [copyAt, List.take_append_of_le_length (by omega), List.take_of_length_le (by omega)]
    have hdrop : (copyAt data f.1 f.2).drop (f.1 + f.2.length + (content fs).length) =
        data.drop (f.1 + (f.2.length + (content fs).length)) := by
      rw [copyAt, List.drop_append, List.drop_of_length_le (by omega), hp, List.nil_append,
        List.drop_drop]
      congr 1
      omega
    rw [htake, hdrop]
    simp

theorem writeFields_eq {fields : List (Piece α)} {data : List α}
    (ht : Tiles 0 fields) (hl : (content fields).length ≤ data.length) :
    writeFields data fields = content fields ++ data.drop (content fields).length := by
  simpa using writeFields_tiles fields data 0 ht (by simpa using hl)

lemma writeFields_length {fields : List (Piece α)} {data : List α}
    (ht : Tiles 0 fields) (hl : (content fields).length ≤ data.length) :
    (writeFields data fields).length = data.length := by
  rw [writeFields_eq ht hl, List.length_append, List.length_drop]
  omega

lemma Tiles.le {fields : List (Piece α)} {off : ℕ} (ht : Tiles off fields) {f : Piece α}
    (hf : f ∈ fields) : off ≤ f.1 := by
  induction fields generalizing off with
  | nil => simp at hf
  | cons g gs ih =>
    obtain ⟨rfl, ht⟩ := ht
    rcases List.mem_cons.mp hf with rfl | hf
    · exact le_rfl
    · exact (Nat.le_add_right _ _).trans (ih ht hf)

lemma slice_content {fields : List (Piece α)} {off : ℕ} (ht : Tiles off fields)
    {f : Piece α} (hf : f ∈ fields) (tail : List α) :
    slice (content fields ++ tail) (f.1 - off) f.2.length = f.2 := by
  induction fields generalizing off with
  | nil => simp at hf
  | cons g gs ih =>
    obtain ⟨rfl, ht⟩ := ht
    rcases List.mem_cons.mp hf with rfl | hf
    · simp [slice]
    · have hle := ht.le hf
      have hi := ih ht hf
      have he : f.1 - g.1 = g.2.length + (f.1 - (g.1 + g.2.length)) := by omega
      rw [content_cons, List.append_assoc, he]
      simp only [slice, ← List.drop_drop, List.drop_left] at hi ⊢
      exact hi

lemma drop_eq_content {fields : List (Piece α)} {data : List α} {off : ℕ} (ht : Tiles off fields)
    (hl : data.length = off + (content fields).length)
    (hs : ∀ f ∈ fields, slice data f.1 f.2.length = f.2) : data.drop off = content fields := by
  induction fields generalizing off with
  | nil => exact List.drop_of_length_le (by simpa using hl.le)
  | cons f fs ih =>
    obtain ⟨rfl, ht⟩ := ht
    rw [content_cons, List.length_append, ← Nat.add_assoc] at hl
    have hrest := ih ht hl fun g hg => hs g (List.mem_cons_of_mem _ hg)
    rw [content_cons, ← hrest, ← List.drop_drop]
    nth_rewrite 1 [← hs f List.mem_cons_self]
    exact (List.take_append_drop _ _).symm

theorem slice_writeFields {fields : List (Piece α)} {data : List α} {off len : ℕ} {s : List α}
    (ht : Tiles 0 fields) (hl : (content fields).length ≤ data.length)
    (hf : (off, s) ∈ fields) (hlen : len = s.length) :
    slice (writeFields data fields) off len = s := by
  rw [writeFields_eq ht hl, hlen]
  exact slice_content ht hf _

lemma slice_flatMap {β : Type*} {f : β → List α} {k : ℕ} (hk : ∀ b, (f b).length = k)
    {xs : List β} {n : ℕ} {x : β} (hx : xs[n]? = some x) :
    slice (xs.flatMap f) (n * k) k = f x := by
  induction xs generalizing n with
  | nil => simp at hx
  | cons y ys ih =>
    rw [List.flatMap_cons]
    cases n with
    | zero =>
      obtain rfl : y = x := by simpa using hx
      simp [slice, ← hk y]
    | succ n =>
      have hi := ih (n := n) (by simpa using hx)
      rw [slice, show (n + 1) * k = (f y).length + n * k by rw [hk]; ring, ← List.drop_drop,
        List.drop_left]
      exact hi

lemma flatMap_inj_of_length {β : Type*} {f : β → List α} (hf : Function.Injective f) {k : ℕ}
    (hpos : 0 < k) (hk : ∀ b, (f b).length = k) {xs ys : List β}
    (h : xs.flatMap f = ys.flatMap f) : xs = ys := by
  have hcons {y : β} {ys : List β} : (y :: ys).flatMap f ≠ [] := by
    rw [List.flatMap_cons, ← List.length_pos_iff, List.length_append, hk]
    omega
  induction xs generalizing ys with
  | nil =>
    cases ys with
    | nil => rfl
    | cons y ys => exact absurd h.symm hcons
  | cons x xs ih =>
    cases ys with
    | nil => exact absurd h hcons
    | cons y ys =>
      rw [List.flatMap_cons, List.flatMap_cons] at h
      obtain ⟨hhead, htail⟩ := List.append_inj h ((hk x).trans (hk y).symm)
      rw [hf hhead, ih htail]

end Slices

end Blitz.ByteLayout
