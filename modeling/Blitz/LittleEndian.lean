import Blitz.ByteLayout

/-! Fixed-size byte arrays and little-endian integers of 2, 8 and 16 bytes,
with both round trips. -/
namespace Blitz.LittleEndian
open ByteLayout

/-- The `n` low base-256 digits, least significant first. -/
def leBytes : ℕ → ℕ → List UInt8
  | 0, _ => []
  | n + 1, x => UInt8.ofNat x :: leBytes n (x / 256)

@[simp] lemma leBytes_length (n x : ℕ) : (leBytes n x).length = n := by
  induction n generalizing x with
  | zero => rfl
  | succ n ih => simp [leBytes, ih]

/-- A Rust `[u8; n]`. -/
abbrev Bytes (n : ℕ) := List.Vector UInt8 n

namespace Bytes

/-- `[b; n]`. -/
def fill (n : ℕ) (b : UInt8) : Bytes n := List.Vector.replicate n b

@[simp] lemma val_length {n : ℕ} (b : Bytes n) : b.val.length = n := b.property

/-- The first `n` bytes of a list; callers only pass lists of that length. -/
def ofList (n : ℕ) (bs : List UInt8) : Bytes n := ⟨bs.takeD n 0, bs.takeD_length n 0⟩

/-- A fixed field read out of a buffer at its offset. -/
def read (n : ℕ) (data : List UInt8) (off : ℕ) : Bytes n := ofList n (slice data off n)

/-- The bytes of a number written in hexadecimal, most significant first. -/
def hex (n x : ℕ) : Bytes n := ⟨(leBytes n x).reverse, by simp⟩

lemma ofList_val {n : ℕ} {bs : List UInt8} (h : bs.length = n) : (ofList n bs).val = bs := by
  subst h
  exact (List.takeD_eq_take 0 le_rfl).trans List.take_length

@[simp] lemma ofList_self {n : ℕ} (b : Bytes n) : ofList n b.val = b :=
  Subtype.ext (ofList_val b.property)

lemma read_val {n : ℕ} {data : List UInt8} {off : ℕ} (h : off + n ≤ data.length) :
    (read n data off).val = slice data off n :=
  ofList_val (length_slice h)

end Bytes

def leNat : List UInt8 → ℕ
  | [] => 0
  | b :: bs => b.toNat + 256 * leNat bs

lemma leNat_leBytes (n x : ℕ) : leNat (leBytes n x) = x % 256 ^ n := by
  induction n generalizing x with
  | zero => simp [leBytes, leNat, Nat.mod_one]
  | succ n ih =>
    simp only [leBytes, leNat, ih]
    rw [pow_succ', Nat.mod_mul]
    simp

lemma leNat_lt (bs : List UInt8) : leNat bs < 256 ^ bs.length := by
  induction bs with
  | nil => simp [leNat]
  | cons b bs ih =>
    have hb := b.toNat_lt
    rw [leNat, List.length_cons, pow_succ']
    omega

lemma leBytes_leNat (bs : List UInt8) : leBytes bs.length (leNat bs) = bs := by
  induction bs with
  | nil => rfl
  | cons b bs ih =>
    have hb := b.toNat_lt
    have hdigit : UInt8.ofNat (b.toNat + 256 * leNat bs) = b := by
      apply UInt8.toNat_inj.mp
      rw [UInt8.toNat_ofNat']
      omega
    have hrest : (b.toNat + 256 * leNat bs) / 256 = leNat bs := by omega
    rw [List.length_cons, leNat, leBytes, hdigit, hrest, ih]

lemma leNat_append (bs cs : List UInt8) :
    leNat (bs ++ cs) = leNat bs + 256 ^ bs.length * leNat cs := by
  induction bs with
  | nil => simp [leNat]
  | cons b bs ih =>
    rw [List.cons_append, leNat, leNat, ih, List.length_cons]
    ring

def u16Bytes (x : UInt16) : List UInt8 := leBytes 2 x.toNat
def u64Bytes (x : UInt64) : List UInt8 := leBytes 8 x.toNat
def u128Bytes (x : BitVec 128) : List UInt8 := leBytes 16 x.toNat

def u16Of (bs : List UInt8) : UInt16 := UInt16.ofNat (leNat bs)
def u64Of (bs : List UInt8) : UInt64 := UInt64.ofNat (leNat bs)
def u128Of (bs : List UInt8) : BitVec 128 := BitVec.ofNat 128 (leNat bs)

@[simp] lemma u16Bytes_length (x : UInt16) : (u16Bytes x).length = 2 := leBytes_length _ _
@[simp] lemma u64Bytes_length (x : UInt64) : (u64Bytes x).length = 8 := leBytes_length _ _
@[simp] lemma u128Bytes_length (x : BitVec 128) : (u128Bytes x).length = 16 := leBytes_length _ _

@[simp] theorem u16Of_u16Bytes (x : UInt16) : u16Of (u16Bytes x) = x := by
  apply UInt16.toNat_inj.mp
  have hx := x.toNat_lt
  rw [u16Of, u16Bytes, leNat_leBytes, UInt16.toNat_ofNat']
  omega

@[simp] theorem u64Of_u64Bytes (x : UInt64) : u64Of (u64Bytes x) = x := by
  apply UInt64.toNat_inj.mp
  have hx := x.toNat_lt
  rw [u64Of, u64Bytes, leNat_leBytes, UInt64.toNat_ofNat']
  omega

@[simp] theorem u128Of_u128Bytes (x : BitVec 128) : u128Of (u128Bytes x) = x := by
  apply BitVec.eq_of_toNat_eq
  have hx := x.isLt
  rw [u128Of, u128Bytes, leNat_leBytes, BitVec.toNat_ofNat]
  omega

lemma toNat_u64Of {bs : List UInt8} (h : bs.length = 8) : (u64Of bs).toNat = leNat bs := by
  have hlt := leNat_lt bs
  rw [h] at hlt
  rw [u64Of, UInt64.toNat_ofNat', Nat.mod_eq_of_lt (by omega)]

lemma toNat_u128Of {bs : List UInt8} (h : bs.length = 16) : (u128Of bs).toNat = leNat bs := by
  have hlt := leNat_lt bs
  rw [h] at hlt
  rw [u128Of, BitVec.toNat_ofNat, Nat.mod_eq_of_lt (by omega)]

lemma u64Bytes_u64Of {bs : List UInt8} (h : bs.length = 8) : u64Bytes (u64Of bs) = bs := by
  rw [u64Bytes, toNat_u64Of h, ← h]
  exact leBytes_leNat bs

end Blitz.LittleEndian
