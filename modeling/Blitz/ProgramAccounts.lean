import Blitz.ProgramEvidence
import Blitz.Slashing

/-! The program's wire formats: the three account records, the instruction
encoding and the fee payer of a wire transaction. -/
namespace Blitz.Program
open ByteLayout LittleEndian CheckedArith Slashing

abbrev Pubkey := Bytes 32

section Records

/-- Write a record's fields over the first `len` bytes of an account. -/
def writeRecord (len : ℕ) (fields : List (Piece UInt8)) (into : List UInt8) :
    Except SlashError (List UInt8) :=
  if into.length < len then .error .badAccountData else .ok (writeFields into fields)

/-- The first `len` bytes of an account, if they carry the record's tag. -/
def openRecord (len : ℕ) (tag : UInt8) (data : List UInt8) : Except SlashError (List UInt8) := do
  let record ← orElse (get? data 0 len) SlashError.badAccountData
  require (record.getD 0 0 = tag) SlashError.badAccountData
  .ok record

/-- A record's fields: they tile `len` bytes and start with the tag. -/
structure Layout (len : ℕ) (tag : UInt8) (fields : List (Piece UInt8)) : Prop where
  tiles : Tiles 0 fields
  size : (content fields).length = len
  tagged : (0, [tag]) ∈ fields

variable {len : ℕ} {tag : UInt8} {fields : List (Piece UInt8)} {into out data : List UInt8}

lemma writeRecord_eq_ok :
    writeRecord len fields into = .ok out ↔ len ≤ into.length ∧ out = writeFields into fields := by
  unfold writeRecord
  split_ifs with h
  · simp only [false_iff, not_and]
    omega
  · rw [Except.ok.injEq, eq_comm]
    exact ⟨fun h' => ⟨by omega, h'⟩, And.right⟩

lemma openRecord_eq_ok {record : List UInt8} :
    openRecord len tag data = .ok record ↔
      len ≤ data.length ∧ record = slice data 0 len ∧ record.getD 0 0 = tag := by
  simp only [openRecord, bind_eq_ok, orElse_eq_ok, get?_eq_some, require_eq_ok, exists_const,
    Nat.zero_add, Except.ok.injEq]
  constructor
  · rintro ⟨r, ⟨hle, rfl⟩, htag, rfl⟩
    exact ⟨hle, rfl, htag⟩
  · rintro ⟨hle, rfl, htag⟩
    exact ⟨_, ⟨hle, rfl⟩, htag, rfl⟩

lemma Layout.slice (h : Layout len tag fields) {off n : ℕ} {s : List UInt8}
    (hf : (off, s) ∈ fields) (hn : n = s.length) : ByteLayout.slice (content fields) off n = s := by
  have hs := slice_content h.tiles hf []
  rw [List.append_nil, Nat.sub_zero] at hs
  rw [hn]
  exact hs

lemma Layout.open_append (h : Layout len tag fields) (more : List UInt8) :
    openRecord len tag (content fields ++ more) = .ok (content fields) := by
  have hrecord : ByteLayout.slice (content fields ++ more) 0 len = content fields := by
    rw [ByteLayout.slice, List.drop_zero, ← h.size, List.take_left]
  have htag : (content fields).getD 0 0 = tag := getD_of_slice 0 (h.slice h.tagged rfl)
  refine openRecord_eq_ok.mpr ⟨?_, hrecord.symm, htag⟩
  rw [List.length_append, h.size]
  exact Nat.le_add_right _ _

lemma Layout.open_written (h : Layout len tag fields) (hw : writeRecord len fields into = .ok out) :
    openRecord len tag out = .ok (content fields) ∧ out.length = into.length ∧
      out.drop len = into.drop len := by
  obtain ⟨hlen, rfl⟩ := writeRecord_eq_ok.mp hw
  have hle : (content fields).length ≤ into.length := by rw [h.size]; exact hlen
  have hwritten : writeFields into fields = content fields ++ into.drop len := by
    rw [writeFields_eq h.tiles hle, h.size]
  refine ⟨?_, writeFields_length h.tiles hle, ?_⟩
  · rw [hwritten, h.open_append]
  · rw [hwritten, List.drop_append, h.size, Nat.sub_self, List.drop_zero,
      List.drop_of_length_le h.size.le, List.nil_append]

/-! A field of the record is read back at its offset. -/

lemma Layout.read_bytes (h : Layout len tag fields) {n off : ℕ} {b : Bytes n}
    (hf : (off, b.val) ∈ fields) : Bytes.read n (content fields) off = b := by
  rw [Bytes.read, h.slice hf (by simp), Bytes.ofList_self]

lemma Layout.read_u64 (h : Layout len tag fields) {off : ℕ} {x : UInt64}
    (hf : (off, u64Bytes x) ∈ fields) : u64Of (ByteLayout.slice (content fields) off 8) = x := by
  rw [h.slice hf (by simp), u64Of_u64Bytes]

lemma Layout.read_u128 (h : Layout len tag fields) {off : ℕ} {x : BitVec 128}
    (hf : (off, u128Bytes x) ∈ fields) :
    u128Of (ByteLayout.slice (content fields) off 16) = x := by
  rw [h.slice hf (by simp), u128Of_u128Bytes]

lemma Layout.read_u8 (h : Layout len tag fields) {off : ℕ} {x : UInt8} (hf : (off, [x]) ∈ fields) :
    (content fields).getD off 0 = x :=
  getD_of_slice 0 (h.slice hf rfl)

lemma openRecord_tag {record : List UInt8} (h : openRecord len tag data = .ok record)
    (hlen : 0 < len) : data.getD 0 0 = tag := by
  obtain ⟨_, rfl, htag⟩ := openRecord_eq_ok.mp h
  rw [← htag]
  simp [ByteLayout.slice, List.getD_eq_getElem?_getD, hlen]

end Records

def operatorLen : ℕ := 1 + 32 + 32 + 8 + 8 + 16 + 8 + 1
def operatorTag : UInt8 := 1
/-- The bytes of `operator`. -/
def operatorSeed : List UInt8 := [0x6f, 0x70, 0x65, 0x72, 0x61, 0x74, 0x6f, 0x72]

structure OperatorAccount where
  authority : Pubkey
  signingKey : Bytes 32
  bond : UInt64
  poolStaked : UInt64
  rewardIndex : BitVec 128
  unbondAt : UInt64
  bump : UInt8
  deriving DecidableEq

namespace OperatorAccount

def fields (a : OperatorAccount) : List (Piece UInt8) :=
  [(0, [operatorTag]), (1, a.authority.val), (33, a.signingKey.val), (65, u64Bytes a.bond),
    (73, u64Bytes a.poolStaked), (81, u128Bytes a.rewardIndex), (97, u64Bytes a.unbondAt),
    (105, [a.bump])]

def write (a : OperatorAccount) (into : List UInt8) : Except SlashError (List UInt8) :=
  writeRecord operatorLen a.fields into

def parse (data : List UInt8) : OperatorAccount where
  authority := Bytes.read 32 data 1
  signingKey := Bytes.read 32 data 33
  bond := u64Of (slice data 65 8)
  poolStaked := u64Of (slice data 73 8)
  rewardIndex := u128Of (slice data 81 16)
  unbondAt := u64Of (slice data 97 8)
  bump := data.getD 105 0

def read (data : List UInt8) : Except SlashError OperatorAccount :=
  (openRecord operatorLen operatorTag data).map parse

def pool (a : OperatorAccount) : Pool := ⟨a.poolStaked, a.rewardIndex⟩

def setPool (a : OperatorAccount) (pool : Pool) : OperatorAccount :=
  { a with poolStaked := pool.staked, rewardIndex := pool.rewardIndex }

lemma layout (a : OperatorAccount) : Layout operatorLen operatorTag a.fields where
  tiles := by simp [Tiles, fields]
  size := by simp [content, fields, operatorLen]
  tagged := by simp [fields]

lemma parse_content (a : OperatorAccount) : parse (content a.fields) = a := by
  have h := a.layout
  simp only [parse]
  rw [h.read_bytes (show (1, a.authority.val) ∈ _ by simp [fields]),
    h.read_bytes (show (33, a.signingKey.val) ∈ _ by simp [fields]),
    h.read_u64 (show (65, u64Bytes a.bond) ∈ _ by simp [fields]),
    h.read_u64 (show (73, u64Bytes a.poolStaked) ∈ _ by simp [fields]),
    h.read_u128 (show (81, u128Bytes a.rewardIndex) ∈ _ by simp [fields]),
    h.read_u64 (show (97, u64Bytes a.unbondAt) ∈ _ by simp [fields]),
    h.read_u8 (show (105, [a.bump]) ∈ _ by simp [fields])]

theorem read_write {a : OperatorAccount} {into out : List UInt8} (h : a.write into = .ok out) :
    read out = .ok a ∧ out.length = into.length := by
  obtain ⟨hopen, hlen, _⟩ := a.layout.open_written h
  refine ⟨?_, hlen⟩
  rw [read, hopen, Except.map, parse_content]

end OperatorAccount

def positionLen : ℕ := 1 + 32 + 32 + 8 + 16 + 8 + 1
def positionTag : UInt8 := 2
/-- The bytes of `position`. -/
def positionSeed : List UInt8 := [0x70, 0x6f, 0x73, 0x69, 0x74, 0x69, 0x6f, 0x6e]

structure PositionAccount where
  owner : Pubkey
  operator : Pubkey
  staked : UInt64
  entryIndex : BitVec 128
  reward : UInt64
  bump : UInt8
  deriving DecidableEq

namespace PositionAccount

def fields (p : PositionAccount) : List (Piece UInt8) :=
  [(0, [positionTag]), (1, p.owner.val), (33, p.operator.val), (65, u64Bytes p.staked),
    (73, u128Bytes p.entryIndex), (89, u64Bytes p.reward), (97, [p.bump])]

def write (p : PositionAccount) (into : List UInt8) : Except SlashError (List UInt8) :=
  writeRecord positionLen p.fields into

def parse (data : List UInt8) : PositionAccount where
  owner := Bytes.read 32 data 1
  operator := Bytes.read 32 data 33
  staked := u64Of (slice data 65 8)
  entryIndex := u128Of (slice data 73 16)
  reward := u64Of (slice data 89 8)
  bump := data.getD 97 0

def read (data : List UInt8) : Except SlashError PositionAccount :=
  (openRecord positionLen positionTag data).map parse

def position (p : PositionAccount) : Position := ⟨p.staked, p.entryIndex, p.reward⟩

def setPosition (p : PositionAccount) (position : Position) : PositionAccount :=
  { p with staked := position.staked, entryIndex := position.entryIndex, reward := position.reward }

lemma layout (p : PositionAccount) : Layout positionLen positionTag p.fields where
  tiles := by simp [Tiles, fields]
  size := by simp [content, fields, positionLen]
  tagged := by simp [fields]

lemma parse_content (p : PositionAccount) : parse (content p.fields) = p := by
  have h := p.layout
  simp only [parse]
  rw [h.read_bytes (show (1, p.owner.val) ∈ _ by simp [fields]),
    h.read_bytes (show (33, p.operator.val) ∈ _ by simp [fields]),
    h.read_u64 (show (65, u64Bytes p.staked) ∈ _ by simp [fields]),
    h.read_u128 (show (73, u128Bytes p.entryIndex) ∈ _ by simp [fields]),
    h.read_u64 (show (89, u64Bytes p.reward) ∈ _ by simp [fields]),
    h.read_u8 (show (97, [p.bump]) ∈ _ by simp [fields])]

theorem read_write {p : PositionAccount} {into out : List UInt8} (h : p.write into = .ok out) :
    read out = .ok p ∧ out.length = into.length := by
  obtain ⟨hopen, hlen, _⟩ := p.layout.open_written h
  refine ⟨?_, hlen⟩
  rw [read, hopen, Except.map, parse_content]

end PositionAccount

def convictionLen : ℕ := 1 + 32 + 64 + 32 + 8 + 8 + 8 + 1
def convictionTag : UInt8 := 3
/-- The bytes of `conviction`. -/
def convictionSeed : List UInt8 := [0x63, 0x6f, 0x6e, 0x76, 0x69, 0x63, 0x74, 0x69, 0x6f, 0x6e]

structure ConvictionAccount where
  operator : Pubkey
  wronged : Bytes 64
  wrongedTxHash : Bytes 32
  slashed : UInt64
  owedToVictim : UInt64
  slot : UInt64
  bump : UInt8
  deriving DecidableEq

namespace ConvictionAccount

def fields (c : ConvictionAccount) : List (Piece UInt8) :=
  [(0, [convictionTag]), (1, c.operator.val), (33, c.wronged.val), (97, c.wrongedTxHash.val),
    (129, u64Bytes c.slashed), (137, u64Bytes c.owedToVictim), (145, u64Bytes c.slot),
    (153, [c.bump])]

def write (c : ConvictionAccount) (into : List UInt8) : Except SlashError (List UInt8) :=
  writeRecord convictionLen c.fields into

def parse (data : List UInt8) : ConvictionAccount where
  operator := Bytes.read 32 data 1
  wronged := Bytes.read 64 data 33
  wrongedTxHash := Bytes.read 32 data 97
  slashed := u64Of (slice data 129 8)
  owedToVictim := u64Of (slice data 137 8)
  slot := u64Of (slice data 145 8)
  bump := data.getD 153 0

def read (data : List UInt8) : Except SlashError ConvictionAccount :=
  (openRecord convictionLen convictionTag data).map parse

lemma layout (c : ConvictionAccount) : Layout convictionLen convictionTag c.fields where
  tiles := by simp [Tiles, fields]
  size := by simp [content, fields, convictionLen]
  tagged := by simp [fields]

lemma parse_content (c : ConvictionAccount) : parse (content c.fields) = c := by
  have h := c.layout
  simp only [parse]
  rw [h.read_bytes (show (1, c.operator.val) ∈ _ by simp [fields]),
    h.read_bytes (show (33, c.wronged.val) ∈ _ by simp [fields]),
    h.read_bytes (show (97, c.wrongedTxHash.val) ∈ _ by simp [fields]),
    h.read_u64 (show (129, u64Bytes c.slashed) ∈ _ by simp [fields]),
    h.read_u64 (show (137, u64Bytes c.owedToVictim) ∈ _ by simp [fields]),
    h.read_u64 (show (145, u64Bytes c.slot) ∈ _ by simp [fields]),
    h.read_u8 (show (153, [c.bump]) ∈ _ by simp [fields])]

theorem read_write {c : ConvictionAccount} {into out : List UInt8} (h : c.write into = .ok out) :
    read out = .ok c ∧ out.length = into.length := by
  obtain ⟨hopen, hlen, _⟩ := c.layout.open_written h
  refine ⟨?_, hlen⟩
  rw [read, hopen, Except.map, parse_content]

end ConvictionAccount

section Tags
variable {data : List UInt8}

lemma operator_tag {a : OperatorAccount} (h : OperatorAccount.read data = .ok a) :
    data.getD 0 0 = operatorTag := by
  obtain ⟨_, hr, _⟩ := map_eq_ok.mp h
  exact openRecord_tag hr (by decide)

lemma position_tag {p : PositionAccount} (h : PositionAccount.read data = .ok p) :
    data.getD 0 0 = positionTag := by
  obtain ⟨_, hr, _⟩ := map_eq_ok.mp h
  exact openRecord_tag hr (by decide)

lemma conviction_tag {c : ConvictionAccount} (h : ConvictionAccount.read data = .ok c) :
    data.getD 0 0 = convictionTag := by
  obtain ⟨_, hr, _⟩ := map_eq_ok.mp h
  exact openRecord_tag hr (by decide)

end Tags

inductive Instruction
  | register (signingKey : Bytes 32) (bond : UInt64)
  | stake (amount : UInt64)
  | unstake (amount : UInt64)
  | claim
  | proveEquivocation
  | claimVictim (wireBytes : List UInt8)
  | beginUnbond
  | withdrawBond
  deriving DecidableEq

namespace Instruction

/-- The amount both stake instructions carry right after their tag. -/
def amount (rest : List UInt8) : Except SlashError UInt64 :=
  orElse ((get? rest 0 8).map u64Of) .badInstruction

def read (data : List UInt8) : Except SlashError Instruction :=
  match data with
  | [] => .error .badInstruction
  | tag :: rest =>
    match tag with
    | 0 => do
      let signingKey ← orElse ((get? rest 0 32).map (Bytes.ofList 32)) SlashError.badInstruction
      let bond ← orElse ((get? rest 32 8).map u64Of) SlashError.badInstruction
      .ok (.register signingKey bond)
    | 1 => (amount rest).map .stake
    | 2 => (amount rest).map .unstake
    | 3 => .ok .claim
    | 4 => .ok .proveEquivocation
    | 5 => .ok (.claimVictim rest)
    | 6 => .ok .beginUnbond
    | 7 => .ok .withdrawBond
    | _ => .error .badInstruction

def write : Instruction → List UInt8
  | .register signingKey bond => 0 :: signingKey.val ++ u64Bytes bond
  | .stake amount => 1 :: u64Bytes amount
  | .unstake amount => 2 :: u64Bytes amount
  | .claim => [3]
  | .proveEquivocation => [4]
  | .claimVictim wireBytes => 5 :: wireBytes
  | .beginUnbond => [6]
  | .withdrawBond => [7]

theorem read_write (i : Instruction) : read i.write = .ok i := by
  have hamount (x : UInt64) : amount (u64Bytes x) = .ok x := by
    have hg : get? (u64Bytes x) 0 8 = some (u64Bytes x) := by
      rw [get?_eq_some]
      simp [slice]
    simp [amount, hg]
  cases i with
  | register signingKey bond =>
    have hk : get? (signingKey.val ++ u64Bytes bond) 0 32 = some signingKey.val := by
      rw [get?_eq_some]
      simp [slice]
    have hb : get? (signingKey.val ++ u64Bytes bond) 32 8 = some (u64Bytes bond) := by
      rw [get?_eq_some]
      simp [slice]
    simp [write, read, hk, hb]
  | stake x => simp [write, read, hamount, Except.map]
  | unstake x => simp [write, read, hamount, Except.map]
  | _ => rfl

lemma read_of_short {tag : UInt8} {rest : List UInt8}
    (h : tag = 0 ∧ rest.length < 40 ∨ (tag = 1 ∨ tag = 2) ∧ rest.length < 8) :
    read (tag :: rest) = .error .badInstruction := by
  have hamount (hshort : rest.length < 8) : amount rest = .error .badInstruction := by
    rw [amount, get?, if_neg (by omega)]
    rfl
  rcases h with ⟨rfl, hshort⟩ | ⟨rfl | rfl, hshort⟩
  · have hbond : get? rest 32 8 = none := by rw [get?, if_neg (by omega)]
    simp only [read, hbond]
    cases get? rest 0 32 <;> rfl
  · simp only [read, hamount hshort]
    rfl
  · simp only [read, hamount hshort]
    rfl

end Instruction

/-- Solana's compact-u16: the value and the offset just past it. -/
def compactU16From (wire : List UInt8) (off value : ℕ) : List ℕ → Except SlashError (ℕ × ℕ)
  | [] => .error .malformedReceipt
  | step :: steps =>
    match wire[off + step]? with
    | none => .error .malformedReceipt
    | some byte =>
      let value := value ||| ((byte &&& 0x7f).toNat <<< (step * 7))
      if byte &&& 0x80 = 0 then .ok (value, off + step + 1)
      else compactU16From wire off value steps

def compactU16 (wire : List UInt8) (off : ℕ) : Except SlashError (ℕ × ℕ) :=
  compactU16From wire off 0 [0, 1, 2]

def feePayer (wire : List UInt8) : Except SlashError (Bytes 32) := do
  let (signatures, afterCount) ← compactU16 wire 0
  let messageAt := afterCount + signatures * 64
  -- A versioned message starts with the version byte, high bit set.
  let byte ← orElse wire[messageAt]? SlashError.malformedReceipt
  let headerAt := if byte &&& 0x80 ≠ 0 then messageAt + 1 else messageAt
  let (_, afterKeys) ← compactU16 wire (headerAt + 3)
  let key ← orElse (get? wire afterKeys 32) SlashError.malformedReceipt
  .ok (Bytes.ofList 32 key)

end Blitz.Program
