import Blitz.ProgramAccounts

/-! The program's accounts as the web client decodes them, and the byte formats as a
whole: what is written is read, by one reader only, and by both languages alike. -/
namespace Blitz.App
open ByteLayout LittleEndian CheckedArith Program

/-- What reading a view out of its range throws. -/
inductive ViewError
  | rangeError
  deriving DecidableEq, Repr

/-- `getBigUint64` of the view on an array, little endian. -/
def u64 (b : List UInt8) (off : ℕ) : Except ViewError ℕ :=
  if off + 8 ≤ b.length then .ok (leNat (slice b off 8)) else .error .rangeError

def u128 (b : List UInt8) (off : ℕ) : Except ViewError ℕ := do
  let low ← u64 b off
  let high ← u64 b (off + 8)
  .ok (low + high <<< 64)

/-- A public key from a slice of 32 bytes. -/
def key (b : List UInt8) (off : ℕ) : Pubkey := Bytes.read 32 b off

def operatorLen : ℕ := 106
def positionLen : ℕ := 98
def convictionLen : ℕ := 154

def operatorTag : UInt8 := 1
def positionTag : UInt8 := 2
def convictionTag : UInt8 := 3

structure Operator where
  address : Pubkey
  authority : Pubkey
  signingKey : List UInt8
  bond : ℕ
  poolStaked : ℕ
  rewardIndex : ℕ
  unbondAt : ℕ
  deriving DecidableEq

structure Position where
  address : Pubkey
  owner : Pubkey
  operator : Pubkey
  staked : ℕ
  entryIndex : ℕ
  reward : ℕ
  deriving DecidableEq

structure Conviction where
  address : Pubkey
  operator : Pubkey
  wronged : List UInt8
  wrongedTxHash : List UInt8
  slashed : ℕ
  owedToVictim : ℕ
  slot : ℕ
  deriving DecidableEq

def decodeOperator (address : Pubkey) (data : List UInt8) : Except ViewError (Option Operator) :=
  if data.length < operatorLen ∨ data.getD 0 0 ≠ operatorTag then .ok none
  else do
    let bond ← u64 data 65
    let poolStaked ← u64 data 73
    let rewardIndex ← u128 data 81
    let unbondAt ← u64 data 97
    .ok (some
      { address
        authority := key data 1
        signingKey := slice data 33 32
        bond, poolStaked, rewardIndex, unbondAt })

def decodePosition (address : Pubkey) (data : List UInt8) : Except ViewError (Option Position) :=
  if data.length < positionLen ∨ data.getD 0 0 ≠ positionTag then .ok none
  else do
    let staked ← u64 data 65
    let entryIndex ← u128 data 73
    let reward ← u64 data 89
    .ok (some { address, owner := key data 1, operator := key data 33, staked, entryIndex, reward })

def decodeConviction (address : Pubkey) (data : List UInt8) :
    Except ViewError (Option Conviction) :=
  if data.length < convictionLen ∨ data.getD 0 0 ≠ convictionTag then .ok none
  else do
    let slashed ← u64 data 129
    let owedToVictim ← u64 data 137
    let slot ← u64 data 145
    .ok (some
      { address
        operator := key data 1
        wronged := slice data 33 64
        wrongedTxHash := slice data 97 32
        slashed, owedToVictim, slot })

/-! The values the client is to find: those of the program's record, all but the bump. -/

def Operator.of (address : Pubkey) (a : OperatorAccount) : Operator :=
  ⟨address, a.authority, a.signingKey.val, a.bond.toNat, a.poolStaked.toNat, a.rewardIndex.toNat,
    a.unbondAt.toNat⟩

def Position.of (address : Pubkey) (p : PositionAccount) : Position :=
  ⟨address, p.owner, p.operator, p.staked.toNat, p.entryIndex.toNat, p.reward.toNat⟩

def Conviction.of (address : Pubkey) (c : ConvictionAccount) : Conviction :=
  ⟨address, c.operator, c.wronged.val, c.wrongedTxHash.val, c.slashed.toNat, c.owedToVictim.toNat,
    c.slot.toNat⟩

section Fields
variable {data : List UInt8} {len : ℕ} (hlen : len ≤ data.length) (off : ℕ)
include hlen

/-! A field of an opened record, as the client reads it out of the whole account. -/

lemma u64_of_record (hoff : off + 8 ≤ len) :
    u64 data off = .ok (u64Of (slice (slice data 0 len) off 8)).toNat := by
  rw [u64, if_pos (by omega), slice_slice_zero hoff,
    toNat_u64Of (length_slice (by omega))]

lemma u128_of_record (hoff : off + 16 ≤ len) :
    u128 data off = .ok (u128Of (slice (slice data 0 len) off 16)).toNat := by
  have hlow : (slice data off 8).length = 8 := length_slice (by omega)
  have hsplit : slice data off 16 = slice data off 8 ++ slice data (off + 8) 8 :=
    slice_add data off 8 8
  rw [slice_slice_zero hoff, toNat_u128Of (length_slice (by omega)), hsplit, leNat_append, hlow]
  simp only [u128, u64, if_pos (show off + 8 ≤ data.length by omega),
    if_pos (show off + 8 + 8 ≤ data.length by omega), Nat.shiftLeft_eq]
  change Except.ok _ = _
  congr 2
  ring

omit hlen in
lemma key_of_record (hoff : off + 32 ≤ len) :
    key data off = Bytes.read 32 (slice data 0 len) off := by
  rw [key, Bytes.read, Bytes.read, slice_slice_zero hoff]

lemma slice_of_record (n : ℕ) (hoff : off + n ≤ len) :
    slice data off n = (Bytes.read n (slice data 0 len) off).val := by
  have hrecord : (slice data 0 len).length = len := length_slice (by omega)
  rw [Bytes.read_val (by omega), slice_slice_zero hoff]

end Fields

section Agreement
variable {data : List UInt8} (address : Pubkey)

lemma accepted_of_open {len : ℕ} {tag : UInt8} {record : List UInt8} (len' : ℕ) (tag' : UInt8)
    (hsame : len' = len ∧ tag' = tag) (hpos : 0 < len)
    (h : openRecord len tag data = .ok record) :
    len ≤ data.length ∧ record = slice data 0 len ∧
      ¬(data.length < len' ∨ data.getD 0 0 ≠ tag') := by
  obtain ⟨hlen, hrecord, _⟩ := openRecord_eq_ok.mp h
  refine ⟨hlen, hrecord, ?_⟩
  rw [hsame.1, hsame.2, openRecord_tag h hpos]
  simpa using hlen

theorem decodeOperator_of_read {a : OperatorAccount} (h : OperatorAccount.read data = .ok a) :
    decodeOperator address data = .ok (some (Operator.of address a)) := by
  obtain ⟨record, hopen, rfl⟩ := map_eq_ok.mp h
  obtain ⟨hlen, rfl, hseen⟩ :=
    accepted_of_open operatorLen operatorTag ⟨rfl, rfl⟩ (by decide) hopen
  rw [decodeOperator, if_neg hseen, u64_of_record hlen 65 (by decide),
    u64_of_record hlen 73 (by decide), u128_of_record hlen 81 (by decide),
    u64_of_record hlen 97 (by decide), key_of_record 1 (show 1 + 32 ≤ Program.operatorLen by decide),
    slice_of_record hlen 33 32 (by decide)]
  rfl

theorem decodePosition_of_read {p : PositionAccount} (h : PositionAccount.read data = .ok p) :
    decodePosition address data = .ok (some (Position.of address p)) := by
  obtain ⟨record, hopen, rfl⟩ := map_eq_ok.mp h
  obtain ⟨hlen, rfl, hseen⟩ :=
    accepted_of_open positionLen positionTag ⟨rfl, rfl⟩ (by decide) hopen
  rw [decodePosition, if_neg hseen, u64_of_record hlen 65 (by decide),
    u128_of_record hlen 73 (by decide), u64_of_record hlen 89 (by decide),
    key_of_record 1 (show 1 + 32 ≤ Program.positionLen by decide),
    key_of_record 33 (show 33 + 32 ≤ Program.positionLen by decide)]
  rfl

theorem decodeConviction_of_read {c : ConvictionAccount} (h : ConvictionAccount.read data = .ok c) :
    decodeConviction address data = .ok (some (Conviction.of address c)) := by
  obtain ⟨record, hopen, rfl⟩ := map_eq_ok.mp h
  obtain ⟨hlen, rfl, hseen⟩ :=
    accepted_of_open convictionLen convictionTag ⟨rfl, rfl⟩ (by decide) hopen
  rw [decodeConviction, if_neg hseen, u64_of_record hlen 129 (by decide),
    u64_of_record hlen 137 (by decide), u64_of_record hlen 145 (by decide),
    key_of_record 1 (show 1 + 32 ≤ Program.convictionLen by decide),
    slice_of_record hlen 33 64 (by decide), slice_of_record hlen 97 32 (by decide)]
  rfl

end Agreement

lemma written {α : Type} {len : ℕ} {tag : UInt8} {fields : List (Piece UInt8)}
    (hlayout : Layout len tag fields) {parse : List UInt8 → α} {a : α}
    (hparse : parse (content fields) = a) {into : List UInt8} (hlen : len ≤ into.length) :
    ∃ out, writeRecord len fields into = .ok out ∧ (openRecord len tag out).map parse = .ok a ∧
      out.length = into.length ∧ out.drop len = into.drop len := by
  have hwrite : writeRecord len fields into = .ok (writeFields into fields) :=
    writeRecord_eq_ok.mpr ⟨hlen, rfl⟩
  obtain ⟨hopen, hout, hrest⟩ := hlayout.open_written hwrite
  exact ⟨_, hwrite, map_eq_ok.mpr ⟨_, hopen, hparse⟩, hout, hrest⟩

lemma strict_prefix_refused {i : Instruction} {p : List UInt8}
    (hi : (∃ signingKey bond, i = .register signingKey bond) ∨ (∃ amount, i = .stake amount) ∨
      ∃ amount, i = .unstake amount)
    (hp : p <+: i.write) (hne : p ≠ i.write) : Instruction.read p = .error .badInstruction := by
  have hlen : p.length < i.write.length :=
    lt_of_le_of_ne hp.length_le fun he => hne (hp.eq_of_length he)
  cases p with
  | nil => rfl
  | cons tag rest =>
    obtain ⟨tail, htail⟩ := hp
    apply Instruction.read_of_short
    rcases hi with ⟨signingKey, bond, rfl⟩ | ⟨amount, rfl⟩ | ⟨amount, rfl⟩ <;>
      obtain ⟨rfl, _⟩ := List.cons.inj htail <;>
      simp only [Instruction.write, List.length_cons, List.length_append, List.cons_append,
        Bytes.val_length, u64Bytes_length] at hlen
    · exact .inl ⟨rfl, by omega⟩
    · exact .inr ⟨.inl rfl, by omega⟩
    · exact .inr ⟨.inr rfl, by omega⟩

/-- The byte formats of the program are unambiguous: records are read back from any
buffer they fit and by one reader only, instructions are read back and do not end early,
and the web client finds the values the program finds. -/
theorem byteFormats_unambiguous :
    ((∀ (a : OperatorAccount) (into : List UInt8), Program.operatorLen ≤ into.length →
        ∃ out, a.write into = .ok out ∧ OperatorAccount.read out = .ok a ∧
          out.length = into.length ∧ out.drop Program.operatorLen = into.drop Program.operatorLen) ∧
      (∀ (p : PositionAccount) (into : List UInt8), Program.positionLen ≤ into.length →
        ∃ out, p.write into = .ok out ∧ PositionAccount.read out = .ok p ∧
          out.length = into.length ∧ out.drop Program.positionLen = into.drop Program.positionLen) ∧
      ∀ (c : ConvictionAccount) (into : List UInt8), Program.convictionLen ≤ into.length →
        ∃ out, c.write into = .ok out ∧ ConvictionAccount.read out = .ok c ∧
          out.length = into.length ∧
          out.drop Program.convictionLen = into.drop Program.convictionLen) ∧
      (∀ data a p c,
        ¬(OperatorAccount.read data = .ok a ∧ PositionAccount.read data = .ok p) ∧
          ¬(OperatorAccount.read data = .ok a ∧ ConvictionAccount.read data = .ok c) ∧
          ¬(PositionAccount.read data = .ok p ∧ ConvictionAccount.read data = .ok c)) ∧
      (∀ i : Instruction, Instruction.read i.write = .ok i) ∧
      (∀ (i : Instruction) (p : List UInt8),
        (∃ signingKey bond, i = .register signingKey bond) ∨ (∃ amount, i = .stake amount) ∨
          (∃ amount, i = .unstake amount) →
        p <+: i.write → p ≠ i.write → Instruction.read p = .error .badInstruction) ∧
      ∀ address data,
        (∀ a, OperatorAccount.read data = .ok a →
          decodeOperator address data = .ok (some (Operator.of address a))) ∧
        (∀ p, PositionAccount.read data = .ok p →
          decodePosition address data = .ok (some (Position.of address p))) ∧
        ∀ c, ConvictionAccount.read data = .ok c →
          decodeConviction address data = .ok (some (Conviction.of address c)) := by
  refine ⟨⟨fun a into h => written a.layout a.parse_content h,
      fun p into h => written p.layout p.parse_content h,
      fun c into h => written c.layout c.parse_content h⟩, fun data a p c => ⟨?_, ?_, ?_⟩,
    Instruction.read_write, fun i p hi hp hne => strict_prefix_refused hi hp hne,
    fun address data => ⟨fun a h => decodeOperator_of_read address h,
      fun p h => decodePosition_of_read address h, fun c h => decodeConviction_of_read address h⟩⟩
  · rintro ⟨ha, hp⟩
    have htag := (operator_tag ha).symm.trans (position_tag hp)
    exact absurd htag (by decide)
  · rintro ⟨ha, hc⟩
    have htag := (operator_tag ha).symm.trans (conviction_tag hc)
    exact absurd htag (by decide)
  · rintro ⟨hp, hc⟩
    have htag := (position_tag hp).symm.trans (conviction_tag hc)
    exact absurd htag (by decide)

namespace Vectors

/-- The account of the round-trip test, its wide index past 64 bits. -/
def sample : OperatorAccount where
  authority := Bytes.fill 32 0x11
  signingKey := Bytes.fill 32 0x22
  bond := 5000000000
  poolStaked := 1234
  rewardIndex := 987654321098765432109
  unbondAt := 42
  bump := 254

end Vectors

theorem byteFormats_unambiguous_sample :
    ∃ out, Vectors.sample.write (List.replicate 120 7) = .ok out ∧ out.drop 106 = List.replicate 14 7 ∧
      decodeOperator (Bytes.fill 32 0) out = .ok (some
        { address := Bytes.fill 32 0
          authority := Bytes.fill 32 0x11
          signingKey := List.replicate 32 0x22
          bond := 5000000000
          poolStaked := 1234
          rewardIndex := 987654321098765432109
          unbondAt := 42 }) := by
  obtain ⟨⟨hoperator, _⟩, _, _, _, hclient⟩ := byteFormats_unambiguous
  obtain ⟨out, hwrite, hread, _, hrest⟩ := hoperator Vectors.sample (List.replicate 120 7) (by decide)
  refine ⟨out, hwrite, ?_, (hclient _ out).1 _ hread⟩
  rw [← show Program.operatorLen = 106 from rfl, hrest]
  rfl

end Blitz.App
