import Blitz.PrefixCodec

/-! Transactions and the bytes they travel as: legacy and v0 messages, with every list
behind a length in Solana's compact form. -/
namespace Blitz.Solana
open LittleEndian PrefixCodec

/-- Seven bits a byte, the lowest first; every byte but the last has its high bit set. -/
def shortU16Bytes (n : ℕ) : List UInt8 :=
  if n < 128 then [UInt8.ofNat n]
  else if n < 16384 then [UInt8.ofNat (n % 128 + 128), UInt8.ofNat (n / 128)]
  else [UInt8.ofNat (n % 128 + 128), UInt8.ofNat (n / 128 % 128 + 128), UInt8.ofNat (n / 16384)]

/-- A last byte of zero would be a second way to write the number, and is refused. -/
def readShortU16 : List UInt8 → Option (ℕ × List UInt8)
  | [] => none
  | a :: w =>
    if a.toNat < 128 then some (a.toNat, w)
    else match w with
      | [] => none
      | b :: w =>
        if b = 0 then none
        else if b.toNat < 128 then some (a.toNat - 128 + 128 * b.toNat, w)
        else match w with
          | [] => none
          | c :: w =>
            if c = 0 then none
            else some (a.toNat - 128 + 128 * (b.toNat - 128) + 16384 * c.toNat, w)

lemma toNat_ne_zero {b : UInt8} (h : b ≠ 0) : b.toNat ≠ 0 := by
  intro hzero
  exact h (UInt8.toNat_inj.mp hzero)

lemma ofNat_eq {n : ℕ} {b : UInt8} (h : n = b.toNat) : UInt8.ofNat n = b := by
  rw [h, UInt8.ofNat_toNat]

lemma eq_of_readShortU16 {w rest : List UInt8} {n : ℕ} (h : readShortU16 w = some (n, rest)) :
    w = shortU16Bytes n ++ rest := by
  unfold readShortU16 at h
  split at h
  · cases h
  next a w =>
    have ha := a.toNat_lt
    split_ifs at h with hone
    · obtain ⟨rfl, rfl⟩ := Prod.mk.inj (Option.some.inj h)
      rw [shortU16Bytes, if_pos hone, UInt8.ofNat_toNat]
      rfl
    · split at h
      · cases h
      next b w =>
        have hb := b.toNat_lt
        split_ifs at h with hzero htwo
        · obtain ⟨rfl, rfl⟩ := Prod.mk.inj (Option.some.inj h)
          have hpos := toNat_ne_zero hzero
          rw [shortU16Bytes, if_neg (by omega), if_pos (by omega), ofNat_eq (b := a) (by omega),
            ofNat_eq (b := b) (by omega)]
          rfl
        · split at h
          · cases h
          next d w =>
            split_ifs at h with hlast
            obtain ⟨rfl, rfl⟩ := Prod.mk.inj (Option.some.inj h)
            have hpos := toNat_ne_zero hlast
            rw [shortU16Bytes, if_neg (by omega), if_neg (by omega),
              ofNat_eq (b := a) (by omega), ofNat_eq (b := b) (by omega),
              ofNat_eq (b := d) (by omega)]
            rfl

lemma readShortU16_append {n : ℕ} (hn : n < 65536) (rest : List UInt8) :
    readShortU16 (shortU16Bytes n ++ rest) = some (n, rest) := by
  have htoNat {m : ℕ} (hm : m < 256) : (UInt8.ofNat m).toNat = m := UInt8.toNat_ofNat_of_lt' hm
  have hne {m : ℕ} (hm : m < 256) (hpos : 0 < m) : UInt8.ofNat m ≠ 0 := by
    intro hzero
    rw [← UInt8.toNat_inj, htoNat hm, UInt8.toNat_zero] at hzero
    omega
  unfold shortU16Bytes
  split_ifs with hone htwo
  · simp only [List.cons_append, List.nil_append, readShortU16, htoNat (m := n) (by omega)]
    rw [if_pos hone]
  · simp only [List.cons_append, List.nil_append, readShortU16,
      htoNat (m := n % 128 + 128) (by omega), htoNat (m := n / 128) (by omega)]
    rw [if_neg (by omega), if_neg (hne (by omega) (by omega)), if_pos (by omega)]
    congr 2
    omega
  · simp only [List.cons_append, List.nil_append, readShortU16,
      htoNat (m := n % 128 + 128) (by omega), htoNat (m := n / 128 % 128 + 128) (by omega),
      htoNat (m := n / 16384) (by omega)]
    rw [if_neg (by omega), if_neg (hne (by omega) (by omega)), if_neg (by omega),
      if_neg (hne (by omega) (by omega))]
    congr 2
    omega

def shortU16 : Codec (Fin 65536) where
  encode n := shortU16Bytes n
  decode w :=
    match readShortU16 w with
    | none => none
    | some (n, rest) => if h : n < 65536 then some (⟨n, h⟩, rest) else none
  decode_eq_some {w n rest} := by
    constructor
    · intro h
      split at h
      next => cases h
      next m rest' hread =>
        split_ifs at h with hm
        obtain ⟨rfl, rfl⟩ := Prod.mk.inj (Option.some.inj h)
        exact eq_of_readShortU16 hread
    · rintro rfl
      simp [readShortU16_append n.isLt]

/-- `ShortVec<T>`. -/
abbrev ShortVec (α : Type*) := {as : List α // as.length < 65536}

def shortVec {α : Type*} (f : Codec α) : Codec (ShortVec α) := f.counted shortU16

lemma encode_shortVec {α : Type*} (f : Codec α) (as : ShortVec α) :
    (shortVec f).encode as = shortU16Bytes as.val.length ++ as.val.flatMap f.encode :=
  f.encode_counted shortU16 as

structure MessageHeader where
  numRequiredSignatures : UInt8
  numReadonlySignedAccounts : UInt8
  numReadonlyUnsignedAccounts : UInt8
  deriving DecidableEq

structure CompiledInstruction where
  programIdIndex : UInt8
  accounts : ShortVec UInt8
  data : ShortVec UInt8
  deriving DecidableEq

structure MessageAddressTableLookup where
  accountKey : Bytes 32
  writableIndexes : ShortVec UInt8
  readonlyIndexes : ShortVec UInt8
  deriving DecidableEq

/-- The fields that both kinds of message have. -/
structure Message where
  header : MessageHeader
  accountKeys : ShortVec (Bytes 32)
  recentBlockhash : Bytes 32
  instructions : ShortVec CompiledInstruction
  deriving DecidableEq

/-- The high bit of a legacy message's first byte would make it a versioned one. -/
inductive VersionedMessage
  | legacy (message : Message) (unversioned : message.header.numRequiredSignatures < 0x80)
  | v0 (message : Message) (addressTableLookups : ShortVec MessageAddressTableLookup)
  deriving DecidableEq

structure VersionedTransaction where
  signatures : ShortVec (Bytes 64)
  message : VersionedMessage
  deriving DecidableEq

namespace VersionedMessage

def message : VersionedMessage → Message
  | legacy message _ => message
  | v0 message _ => message

def addressTableLookups : VersionedMessage → List MessageAddressTableLookup
  | legacy _ _ => []
  | v0 _ lookups => lookups.val

def staticAccountKeys (m : VersionedMessage) : List (Bytes 32) := m.message.accountKeys.val
def recentBlockhash (m : VersionedMessage) : Bytes 32 := m.message.recentBlockhash
def instructions (m : VersionedMessage) : List CompiledInstruction := m.message.instructions.val

def setRecentBlockhash (hash : Bytes 32) : VersionedMessage → VersionedMessage
  | legacy message h => legacy { message with recentBlockhash := hash } h
  | v0 message lookups => v0 { message with recentBlockhash := hash } lookups

end VersionedMessage

open Codec

def headerCodec : Codec MessageHeader :=
  (byte.pair (byte.pair byte)).map
    { toFun := fun p => ⟨p.1, p.2.1, p.2.2⟩
      invFun := fun h =>
        (h.numRequiredSignatures, h.numReadonlySignedAccounts, h.numReadonlyUnsignedAccounts)
      left_inv := fun _ => rfl
      right_inv := fun _ => rfl }

def instructionCodec : Codec CompiledInstruction :=
  (byte.pair ((shortVec byte).pair (shortVec byte))).map
    { toFun := fun p => ⟨p.1, p.2.1, p.2.2⟩
      invFun := fun i => (i.programIdIndex, i.accounts, i.data)
      left_inv := fun _ => rfl
      right_inv := fun _ => rfl }

def lookupCodec : Codec MessageAddressTableLookup :=
  ((bytes 32).pair ((shortVec byte).pair (shortVec byte))).map
    { toFun := fun p => ⟨p.1, p.2.1, p.2.2⟩
      invFun := fun l => (l.accountKey, l.writableIndexes, l.readonlyIndexes)
      left_inv := fun _ => rfl
      right_inv := fun _ => rfl }

def messageCodec : Codec Message :=
  (headerCodec.pair ((shortVec (bytes 32)).pair ((bytes 32).pair (shortVec instructionCodec)))).map
    { toFun := fun p => ⟨p.1, p.2.1, p.2.2.1, p.2.2.2⟩
      invFun := fun m => (m.header, m.accountKeys, m.recentBlockhash, m.instructions)
      left_inv := fun _ => rfl
      right_inv := fun _ => rfl }

def legacyCodec : Codec {m : Message // m.header.numRequiredSignatures < 0x80} :=
  messageCodec.restrict fun m => m.header.numRequiredSignatures < 0x80

/-- The version byte stands before the header. -/
def v0Codec : Codec (Unit × Message × ShortVec MessageAddressTableLookup) :=
  (literal [0x80]).pair (messageCodec.pair (shortVec lookupCodec))

lemma legacyCodec_v0 (b : Unit × Message × ShortVec MessageAddressTableLookup)
    (rest : List UInt8) : legacyCodec.decode (v0Codec.encode b ++ rest) = none := by
  cases h : legacyCodec.decode (v0Codec.encode b ++ rest) with
  | none => rfl
  | some p =>
    obtain ⟨m, rest'⟩ := p
    have hbytes := legacyCodec.decode_eq_some.mp h
    have hfirst : m.val.header.numRequiredSignatures = 0x80 := (List.cons.inj hbytes).1.symm
    have hsmall := m.property
    rw [hfirst] at hsmall
    exact absurd hsmall (by decide)

def versionedMessageCodec : Codec VersionedMessage :=
  (legacyCodec.either v0Codec legacyCodec_v0).map
    { toFun := Sum.elim (fun m => .legacy m.val m.property) fun p => .v0 p.2.1 p.2.2
      invFun := fun m => match m with
        | .legacy message h => .inl ⟨message, h⟩
        | .v0 message lookups => .inr ((), message, lookups)
      left_inv := by rintro (m | p) <;> rfl
      right_inv := by rintro (_ | _) <;> rfl }

def transactionCodec : Codec VersionedTransaction :=
  ((shortVec (bytes 64)).pair versionedMessageCodec).map
    { toFun := fun p => ⟨p.1, p.2⟩
      invFun := fun t => (t.signatures, t.message)
      left_inv := fun _ => rfl
      right_inv := fun _ => rfl }

end Blitz.Solana
