import Mathlib.Tactic

/-! Base64 with the standard alphabet and canonical padding. -/
namespace Blitz.Base64

def alphabet : List Char :=
  "ABCDEFGHIJKLMNOPQRSTUVWXYZabcdefghijklmnopqrstuvwxyz0123456789+/".toList

def digit (n : ℕ) : Char := alphabet.getD n '='

def value (ch : Char) : Option ℕ := alphabet.findIdx? (· == ch)

lemma value_digit {n : ℕ} (h : n < 64) : value (digit n) = some n := by
  have hall : ∀ n < 64, value (digit n) = some n := by decide +kernel
  exact hall n h

lemma value_pad : value '=' = none := by decide +kernel

/-- Three bytes are four digits; a shorter last group is padded. -/
def encodeChars : List UInt8 → List Char
  | [] => []
  | [a] => [digit (a.toNat / 4), digit (a.toNat % 4 * 16), '=', '=']
  | [a, b] =>
    [digit (a.toNat / 4), digit (a.toNat % 4 * 16 + b.toNat / 16), digit (b.toNat % 16 * 4), '=']
  | a :: b :: c :: rest =>
    digit (a.toNat / 4) :: digit (a.toNat % 4 * 16 + b.toNat / 16) ::
      digit (b.toNat % 16 * 4 + c.toNat / 64) :: digit (c.toNat % 64) :: encodeChars rest

/-- Padding stands at the end only, and the bits it cuts off are zero. -/
def decodeChars : List Char → Option (List UInt8)
  | [] => some []
  | w :: x :: y :: z :: rest =>
    match value w, value x, value y, value z with
    | some w, some x, some y, some z =>
      (decodeChars rest).map fun bytes =>
        UInt8.ofNat (w * 4 + x / 16) :: UInt8.ofNat (x % 16 * 16 + y / 4) ::
          UInt8.ofNat (y % 4 * 64 + z) :: bytes
    | some w, some x, some y, none =>
      if z = '=' ∧ rest = [] ∧ y % 4 = 0 then
        some [UInt8.ofNat (w * 4 + x / 16), UInt8.ofNat (x % 16 * 16 + y / 4)]
      else none
    | some w, some x, none, none =>
      if y = '=' ∧ z = '=' ∧ rest = [] ∧ x % 16 = 0 then some [UInt8.ofNat (w * 4 + x / 16)]
      else none
    | _, _, _, _ => none
  | _ => none

def encode (bytes : List UInt8) : String := String.ofList (encodeChars bytes)

def decode (text : String) : Option (List UInt8) := decodeChars text.toList

section Group
variable (a b c : UInt8)

lemma first_byte : UInt8.ofNat (a.toNat / 4 * 4 + (a.toNat % 4 * 16 + b.toNat / 16) / 16) = a := by
  have hb := b.toNat_lt
  rw [show a.toNat / 4 * 4 + (a.toNat % 4 * 16 + b.toNat / 16) / 16 = a.toNat by omega,
    UInt8.ofNat_toNat]

lemma second_byte :
    UInt8.ofNat ((a.toNat % 4 * 16 + b.toNat / 16) % 16 * 16 +
      (b.toNat % 16 * 4 + c.toNat / 64) / 4) = b := by
  have hb := b.toNat_lt
  have hc := c.toNat_lt
  rw [show (a.toNat % 4 * 16 + b.toNat / 16) % 16 * 16 + (b.toNat % 16 * 4 + c.toNat / 64) / 4 =
    b.toNat by omega, UInt8.ofNat_toNat]

lemma third_byte :
    UInt8.ofNat ((b.toNat % 16 * 4 + c.toNat / 64) % 4 * 64 + c.toNat % 64) = c := by
  have hc := c.toNat_lt
  rw [show (b.toNat % 16 * 4 + c.toNat / 64) % 4 * 64 + c.toNat % 64 = c.toNat by omega,
    UInt8.ofNat_toNat]

end Group

lemma decodeChars_encodeChars (bytes : List UInt8) :
    decodeChars (encodeChars bytes) = some bytes := by
  induction bytes using encodeChars.induct with
  | case1 => rfl
  | case2 a =>
    have ha := a.toNat_lt
    have hbyte := first_byte a 0
    simp only [UInt8.toNat_zero, Nat.zero_div, Nat.add_zero] at hbyte
    simp only [encodeChars, decodeChars, value_pad,
      value_digit (show a.toNat / 4 < 64 by omega),
      value_digit (show a.toNat % 4 * 16 < 64 by omega)]
    rw [if_pos ⟨trivial, trivial, trivial, by omega⟩, hbyte]
  | case3 a b =>
    have ha := a.toNat_lt
    have hb := b.toNat_lt
    have hsecond := second_byte a b 0
    simp only [UInt8.toNat_zero, Nat.zero_div, Nat.add_zero] at hsecond
    simp only [encodeChars, decodeChars, value_pad,
      value_digit (show a.toNat / 4 < 64 by omega),
      value_digit (show a.toNat % 4 * 16 + b.toNat / 16 < 64 by omega),
      value_digit (show b.toNat % 16 * 4 < 64 by omega)]
    rw [if_pos ⟨trivial, trivial, by omega⟩, first_byte, hsecond]
  | case4 a b c rest ih =>
    have ha := a.toNat_lt
    have hb := b.toNat_lt
    have hc := c.toNat_lt
    simp only [encodeChars, decodeChars,
      value_digit (show a.toNat / 4 < 64 by omega),
      value_digit (show a.toNat % 4 * 16 + b.toNat / 16 < 64 by omega),
      value_digit (show b.toNat % 16 * 4 + c.toNat / 64 < 64 by omega),
      value_digit (show c.toNat % 64 < 64 by omega), ih, Option.map_some, first_byte, second_byte,
      third_byte]

@[simp] theorem decode_encode (bytes : List UInt8) : decode (encode bytes) = some bytes := by
  rw [decode, encode, String.toList_ofList, decodeChars_encodeChars]

example : encode [0x66, 0x6f, 0x6f, 0x62] = "Zm9vYg==" := by decide +kernel

example : decode "Zm9vYh==" = none := by decide +kernel

end Blitz.Base64
