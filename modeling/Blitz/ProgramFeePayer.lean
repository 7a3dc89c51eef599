import Blitz.ProgramTransitions
import Blitz.SolanaWire
import Blitz.ProgramBond

/-! The fee payer read out of a transaction's bytes is its first account key, and so is
whoever the escrow of a conviction is paid to. -/
namespace Blitz.Program
open ByteLayout LittleEndian CheckedArith Solana PrefixCodec.Codec

lemma toNat_and_127 (b : UInt8) : (b &&& 0x7f).toNat = b.toNat % 128 := by
  rw [UInt8.toNat_and]
  exact Nat.and_two_pow_sub_one_eq_mod b.toNat 7

lemma and_128_eq_zero (b : UInt8) : b &&& 0x80 = 0 ↔ b.toNat < 128 := by
  have hb := b.toNat_lt
  have hbit : b.toNat &&& 2 ^ 7 = (b.toNat.testBit 7).toNat * 2 ^ 7 := Nat.and_two_pow b.toNat 7
  rw [← UInt8.toNat_inj, UInt8.toNat_and]
  change b.toNat &&& 2 ^ 7 = 0 ↔ _
  rw [hbit, Nat.testBit_eq_decide_div_mod_eq]
  by_cases h : b.toNat < 128
  · have hdiv : b.toNat / 128 = 0 := by omega
    simp [hdiv, h]
  · have hdiv : b.toNat / 128 = 1 := by omega
    simp [hdiv, h]

section Turns
variable {wire : List UInt8} {off value step : ℕ} {steps : List ℕ} {byte : UInt8}

/-! One turn of the loop over the bytes of a count: the last byte, and one with more to
come. -/

lemma compactU16From_last (hbyte : wire[off + step]? = some byte) (hlast : byte.toNat < 128) :
    compactU16From wire off value (step :: steps) =
      .ok (value ||| byte.toNat <<< (step * 7), off + step + 1) := by
  simp only [compactU16From, hbyte, toNat_and_127, Nat.mod_eq_of_lt hlast]
  rw [if_pos ((and_128_eq_zero byte).mpr hlast)]

lemma compactU16From_more (hbyte : wire[off + step]? = some byte) (hmore : 128 ≤ byte.toNat) :
    compactU16From wire off value (step :: steps) =
      compactU16From wire off (value ||| (byte.toNat % 128) <<< (step * 7)) steps := by
  simp only [compactU16From, hbyte, toNat_and_127]
  rw [if_neg fun h => absurd ((and_128_eq_zero byte).mp h) (by omega)]

end Turns

lemma compactU16_eq {wire pre post : List UInt8} {off n : ℕ} (hn : n < 65536)
    (hwire : wire = pre ++ (shortU16Bytes n ++ post)) (hoff : pre.length = off) :
    compactU16 wire off = .ok (n, off + (shortU16Bytes n).length) := by
  have hget (step : ℕ) : wire[off + step]? = (shortU16Bytes n ++ post)[step]? := by
    rw [hwire, ← hoff, List.getElem?_append_right (Nat.le_add_right _ _), Nat.add_sub_cancel_left]
  have htoNat {m : ℕ} (hm : m < 256) : (UInt8.ofNat m).toNat = m := UInt8.toNat_ofNat_of_lt' hm
  have hjoin (i a b : ℕ) (ha : a < 2 ^ i) : a ||| b <<< i = a + b * 2 ^ i := by
    rw [Nat.or_comm, Nat.shiftLeft_eq, Nat.mul_comm b, ← Nat.two_pow_add_eq_or_of_lt ha,
      Nat.add_comm]
  have hlast {m : ℕ} (hm : m < 128) : (UInt8.ofNat m).toNat < 128 := by
    rw [htoNat (by omega)]
    exact hm
  have hmore (m : ℕ) : 128 ≤ (UInt8.ofNat (m % 128 + 128)).toNat := by
    rw [htoNat (by omega)]
    omega
  unfold shortU16Bytes at hget ⊢
  rw [compactU16]
  -- one, two or three bytes
  split_ifs at hget ⊢ with hone htwo
  · rw [compactU16From_last (hget 0) (hlast hone), htoNat (by omega)]
    simp
  · rw [compactU16From_more (hget 0) (hmore n), compactU16From_last (hget 1) (hlast (by omega)),
      htoNat (by omega), htoNat (by omega), Nat.zero_or, Nat.zero_mul, Nat.shiftLeft_zero,
      Nat.one_mul, hjoin 7 _ _ (by omega)]
    congr 2
    omega
  · rw [compactU16From_more (hget 0) (hmore n), compactU16From_more (hget 1) (hmore (n / 128)),
      compactU16From_last (hget 2) (hlast (by omega)), htoNat (by omega), htoNat (by omega),
      htoNat (by omega), Nat.zero_or, Nat.zero_mul, Nat.shiftLeft_zero, Nat.one_mul,
      hjoin 7 _ _ (by omega), hjoin 14 _ _ (by omega)]
    congr 2
    omega

lemma compactU16From_append {wire more : List UInt8} {off value : ℕ} {steps : List ℕ} {r : ℕ × ℕ}
    (h : compactU16From wire off value steps = .ok r) :
    compactU16From (wire ++ more) off value steps = .ok r := by
  induction steps generalizing value with
  | nil => cases h
  | cons step steps ih =>
    cases hbyte : wire[off + step]? with
    | none => simp [compactU16From, hbyte] at h
    | some byte =>
      have hbyte' : (wire ++ more)[off + step]? = some byte := by
        rw [List.getElem?_append_left (List.getElem?_eq_some_iff.mp hbyte).1, hbyte]
      by_cases hlast : byte.toNat < 128
      · rw [compactU16From_last hbyte hlast] at h
        rw [compactU16From_last hbyte' hlast, h]
      · rw [compactU16From_more hbyte (by omega)] at h
        rw [compactU16From_more hbyte' (by omega)]
        exact ih h

/-- `fee_payer` up to the offset it takes the key from. -/
def firstKeyAt (wire : List UInt8) : Except SlashError ℕ := do
  let (signatures, afterCount) ← compactU16 wire 0
  let messageAt := afterCount + signatures * 64
  let byte ← orElse wire[messageAt]? SlashError.malformedReceipt
  let headerAt := if byte &&& 0x80 ≠ 0 then messageAt + 1 else messageAt
  let (_, afterKeys) ← compactU16 wire (headerAt + 3)
  .ok afterKeys

lemma feePayer_eq_ok {wire : List UInt8} {payer : Bytes 32} :
    feePayer wire = .ok payer ↔ ∃ off, firstKeyAt wire = .ok off ∧ off + 32 ≤ wire.length ∧
      payer = Bytes.read 32 wire off := by
  simp only [feePayer, firstKeyAt, bind_eq_ok, orElse_eq_ok, get?_eq_some, Except.ok.injEq,
    Prod.exists, Bytes.read]
  constructor
  · rintro ⟨n, after, hcount, byte, hbyte, k, off, hkeys, key, ⟨hle, rfl⟩, rfl⟩
    exact ⟨off, ⟨n, after, hcount, byte, hbyte, k, off, hkeys, rfl⟩, hle, rfl⟩
  · rintro ⟨off, ⟨n, after, hcount, byte, hbyte, k, off', hkeys, rfl⟩, hle, rfl⟩
    exact ⟨n, after, hcount, byte, hbyte, k, off', hkeys, _, ⟨hle, rfl⟩, rfl⟩

lemma firstKeyAt_append {wire : List UInt8} {off : ℕ} (h : firstKeyAt wire = .ok off)
    (more : List UInt8) : firstKeyAt (wire ++ more) = .ok off := by
  simp only [firstKeyAt, bind_eq_ok, orElse_eq_ok, Except.ok.injEq, Prod.exists] at h ⊢
  obtain ⟨n, after, hcount, byte, hbyte, k, off', hkeys, rfl⟩ := h
  refine ⟨n, after, compactU16From_append hcount, byte, ?_, k, off', compactU16From_append hkeys,
    rfl⟩
  rw [List.getElem?_append_left (List.getElem?_eq_some_iff.mp hbyte).1, hbyte]

/-- A transaction as far as its keys: a legacy message starts with its header, any other
with a version byte. What follows the keys is left open. -/
structure WireTransaction where
  signatures : ShortVec (Bytes 64)
  version : Option UInt8
  header : MessageHeader
  accountKeys : ShortVec (Bytes 32)
  rest : List UInt8
  legacy : version = none → header.numRequiredSignatures.toNat < 128
  versioned : ∀ byte ∈ version, 128 ≤ byte.toNat
  keyed : accountKeys.val ≠ []

namespace WireTransaction
variable (t : WireTransaction)

def firstKey : Bytes 32 := t.accountKeys.val.head t.keyed

def serialize : List UInt8 :=
  (shortVec (bytes 64)).encode t.signatures ++ (t.version.toList ++
    (headerCodec.encode t.header ++ ((shortVec (bytes 32)).encode t.accountKeys ++ t.rest)))

/-- The bytes in front of the number of keys. -/
def beforeCount : List UInt8 :=
  (shortVec (bytes 64)).encode t.signatures ++ (t.version.toList ++ headerCodec.encode t.header)

/-- The bytes in front of the first key. -/
def beforeKeys : List UInt8 := t.beforeCount ++ shortU16Bytes t.accountKeys.val.length

lemma serialize_eq_count : t.serialize = t.beforeCount ++
    (shortU16Bytes t.accountKeys.val.length ++
      (t.accountKeys.val.flatMap (bytes 32).encode ++ t.rest)) := by
  rw [serialize, beforeCount, encode_shortVec (bytes 32)]
  simp only [List.append_assoc]

lemma serialize_eq_keys : ∃ post, t.serialize = t.beforeKeys ++ (t.firstKey.val ++ post) := by
  obtain ⟨key, keys, hkeys⟩ := List.exists_cons_of_ne_nil t.keyed
  have hfirst : t.firstKey = key := by simp only [firstKey, hkeys, List.head_cons]
  refine ⟨keys.flatMap (bytes 32).encode ++ t.rest, ?_⟩
  rw [serialize_eq_count, beforeKeys, hkeys, List.flatMap_cons, hfirst]
  simp only [List.append_assoc]
  rfl

lemma length_signatures : ((shortVec (bytes 64)).encode t.signatures).length =
    (shortU16Bytes t.signatures.val.length).length + t.signatures.val.length * 64 := by
  have hlength : ∀ s ∈ t.signatures.val, ((bytes 64).encode s).length = 64 := by
    intro s _
    exact s.property
  rw [encode_shortVec, List.length_append, List.length_flatMap, List.map_congr_left hlength,
    List.map_const', List.sum_replicate, smul_eq_mul]

lemma compactU16_signatures : compactU16 t.serialize 0 =
    .ok (t.signatures.val.length, (shortU16Bytes t.signatures.val.length).length) := by
  obtain ⟨post, hpost⟩ : ∃ post,
      t.serialize = [] ++ (shortU16Bytes t.signatures.val.length ++ post) := by
    rw [serialize, encode_shortVec (bytes 64), List.append_assoc]
    exact ⟨_, rfl⟩
  rw [compactU16_eq t.signatures.property hpost List.length_nil, Nat.zero_add]

lemma header_after_version :
    ∃ byte, t.serialize[((shortVec (bytes 64)).encode t.signatures).length]? = some byte ∧
      (byte &&& 0x80 ≠ 0 ↔ t.version.isSome) := by
  rw [serialize, List.getElem?_append_right le_rfl, Nat.sub_self]
  cases hversion : t.version with
  | none =>
    have hlow := (and_128_eq_zero _).mpr (t.legacy hversion)
    exact ⟨t.header.numRequiredSignatures, rfl, by simp [hlow]⟩
  | some byte =>
    have hhigh : byte &&& 0x80 ≠ 0 := by
      intro h
      exact absurd ((and_128_eq_zero byte).mp h) (not_lt.mpr (t.versioned byte hversion))
    exact ⟨byte, rfl, by simp [hhigh]⟩

lemma firstKeyAt_serialize : firstKeyAt t.serialize = .ok t.beforeKeys.length := by
  obtain ⟨byte, hbyte, hversion⟩ := t.header_after_version
  have hheader : t.beforeCount.length = (if byte &&& 0x80 ≠ 0 then
      (shortU16Bytes t.signatures.val.length).length + t.signatures.val.length * 64 + 1 else
      (shortU16Bytes t.signatures.val.length).length + t.signatures.val.length * 64) + 3 := by
    rw [beforeCount, List.length_append, List.length_append, length_signatures]
    change _ + (_ + 3) = _
    cases h : t.version with
    | none => simp [hversion, h]
    | some version => simp [hversion, h, Nat.add_assoc]
  rw [length_signatures] at hbyte
  simp only [firstKeyAt, bind_eq_ok, orElse_eq_ok, Except.ok.injEq, Prod.exists]
  refine ⟨_, _, t.compactU16_signatures, byte, hbyte, _, _,
    compactU16_eq t.accountKeys.property t.serialize_eq_count hheader, ?_⟩
  rw [beforeKeys, List.length_append, hheader]

theorem feePayer_serialize : feePayer t.serialize = .ok t.firstKey := by
  obtain ⟨post, hpost⟩ := t.serialize_eq_keys
  have hslice : slice t.serialize t.beforeKeys.length 32 = t.firstKey.val := by
    rw [hpost, slice, List.drop_left, List.take_left' t.firstKey.property]
  refine feePayer_eq_ok.mpr ⟨_, t.firstKeyAt_serialize, ?_, ?_⟩
  · simp [hpost]
  · rw [Bytes.read, hslice, Bytes.ofList_self]

theorem feePayer_of_short {p : List UInt8} (hp : p <+: t.serialize)
    (hshort : p.length < t.beforeKeys.length + 32) : ∃ e, feePayer p = .error e := by
  obtain ⟨more, hmore⟩ := hp
  cases h : feePayer p with
  | error e => exact ⟨e, rfl⟩
  | ok payer =>
    obtain ⟨off, hoff, hle, _⟩ := feePayer_eq_ok.mp h
    have hwhole := firstKeyAt_append hoff more
    rw [hmore, firstKeyAt_serialize, Except.ok.injEq] at hwhole
    omega

end WireTransaction

theorem exists_wireTransaction (tx : VersionedTransaction) (h : tx.message.staticAccountKeys ≠ []) :
    ∃ t : WireTransaction, t.serialize = transactionCodec.encode tx ∧
      t.firstKey = tx.message.staticAccountKeys.head h := by
  obtain ⟨signatures, message⟩ := tx
  cases message with
  | legacy message hsmall =>
    refine ⟨⟨signatures, none, message.header, message.accountKeys,
      (bytes 32).encode message.recentBlockhash ++
        (shortVec instructionCodec).encode message.instructions, ?_, ?_, h⟩, ?_, rfl⟩
    · intro _
      exact hsmall
    · intro byte hbyte
      cases hbyte
    · rfl
  | v0 message lookups =>
    refine ⟨⟨signatures, some 0x80, message.header, message.accountKeys,
      (bytes 32).encode message.recentBlockhash ++
        ((shortVec instructionCodec).encode message.instructions ++
          (shortVec lookupCodec).encode lookups), ?_, ?_, h⟩, ?_, rfl⟩
    · intro hnone
      cases hnone
    · intro byte hbyte
      obtain rfl := Option.mem_some_iff.mp hbyte
      decide
    · change _ = (shortVec (bytes 64)).encode signatures ++ ([0x80] ++
        (messageCodec.encode message ++ (shortVec lookupCodec).encode lookups))
      have hmessage : messageCodec.encode message = headerCodec.encode message.header ++
          ((shortVec (bytes 32)).encode message.accountKeys ++
            ((bytes 32).encode message.recentBlockhash ++
              (shortVec instructionCodec).encode message.instructions)) := rfl
      rw [hmessage, WireTransaction.serialize]
      simp only [List.append_assoc, Option.toList_some]

theorem feePayer_encode (tx : VersionedTransaction) (h : tx.message.staticAccountKeys ≠ []) :
    feePayer (transactionCodec.encode tx) = .ok (tx.message.staticAccountKeys.head h) := by
  obtain ⟨t, hbytes, hfirst⟩ := exists_wireTransaction tx h
  rw [← hbytes, t.feePayer_serialize, hfirst]

/-- The first key of a transaction is its fee payer, and what a conviction owes goes to a
signer: to the first key of the wronged transaction, if one was wronged. -/
theorem escrow_paid_to_firstKey :
    (∀ t : WireTransaction, feePayer t.serialize = .ok t.firstKey ∧
      ∀ p, p <+: t.serialize → p.length < t.beforeKeys.length + 32 →
        ∃ e, feePayer p = .error e) ∧
    ∀ (rt : Runtime) (l l' : Ledger) (accounts : List AccountInfo) (wire : List UInt8),
      claimVictim rt l accounts wire = .ok l' →
      ∃ (claimant convictionInfo : AccountInfo) (rest : List AccountInfo) (c : ConvictionAccount),
        accounts = claimant :: convictionInfo :: rest ∧
        VictimPaid rt l claimant convictionInfo c l' ∧ rt.hash wire = c.wrongedTxHash ∧
        (∀ t : WireTransaction, wire = t.serialize → claimant.key = t.firstKey) ∧
        ∀ t : WireTransaction, rt.hash t.serialize = c.wrongedTxHash →
          (rt.hash wire = rt.hash t.serialize → wire = t.serialize) →
          claimant.key = t.firstKey := by
  refine ⟨?_, ?_⟩
  · intro t
    refine ⟨t.feePayer_serialize, ?_⟩
    intro p hp hshort
    exact t.feePayer_of_short hp hshort
  · intro rt l l' accounts wire h
    obtain ⟨claimant, convictionInfo, rest, c, hlist, hhash, hpayer, hpaid⟩ :=
      victimPaid_of_claimVictim h
    have hfirst : ∀ t : WireTransaction, wire = t.serialize → claimant.key = t.firstKey := by
      rintro t rfl
      rw [t.feePayer_serialize, Except.ok.injEq] at hpayer
      exact hpayer.symm
    refine ⟨claimant, convictionInfo, rest, c, hlist, hpaid, hhash, hfirst, ?_⟩
    intro t ht hcollision
    exact hfirst t (hcollision (hhash.trans ht.symm))

namespace Vectors

/-- The legacy transfer of the parser's own tests. -/
def legacyTransfer : WireTransaction where
  signatures := ⟨[Bytes.fill 64 0x11], by decide⟩
  version := none
  header := ⟨1, 0, 1⟩
  accountKeys := ⟨[Bytes.fill 32 0x22, Bytes.fill 32 0x33, Bytes.fill 32 0x00], by decide⟩
  rest := (Bytes.fill 32 0x44).val
  legacy := by decide
  versioned := by simp
  keyed := List.cons_ne_nil _ _

def legacyTransferHash : Bytes 32 := Bytes.hex 32
  0x80ea100a8e46b1e35ff67aad75b54cbbfe2650f57909e47d9750ebc73a44d9d0

/-- A message with no keys, and thirty-two bytes after it. -/
def keyless : List UInt8 := [0, 1, 0, 1, 0] ++ (Bytes.fill 32 0x22).val

def keylessHash : Bytes 32 := Bytes.hex 32
  0x6d00b5e1fcde3d32064b33d9146fbda2c4634e389e251f71855761be43c182eb

/-- The digests of the two, and none of anything else. -/
def wireDigests : List (List UInt8 × Bytes 32) :=
  [(legacyTransfer.serialize, legacyTransferHash), (keyless, keylessHash)]

def wireRuntime : Runtime :=
  { runtime with hash := fun bs => (wireDigests.lookup bs).getD (Bytes.fill 32 0) }

/-- A conviction that owes half a bond to whoever sent the bytes with this hash. -/
def convictionOver (txHash : Bytes 32) : ConvictionAccount where
  operator := operator
  wronged := Bytes.fill 64 0x55
  wrongedTxHash := txHash
  slashed := 10000000000
  owedToVictim := 5000000000
  slot := 6150410
  bump := 252

def escrow (txHash : Bytes 32) : Ledger :=
  ledgerOf [(conviction, ⟨5002060800, programId, content (convictionOver txHash).fields⟩)]

lemma recordAt_escrow (txHash : Bytes 32) :
    recordAt wireRuntime (escrow txHash) conviction =
      some (.conviction (convictionOver txHash)) := by
  refine recordAt_conviction.mpr ⟨rfl, ?_⟩
  have hopen := (convictionOver txHash).layout.open_append []
  rw [List.append_nil] at hopen
  change (openRecord _ _ (content (convictionOver txHash).fields)).map _ = _
  rw [hopen, Except.map, ConvictionAccount.parse_content]

/-- Whoever signs, with the conviction it claims from. -/
def claimAccounts : List AccountInfo := [signer (Bytes.fill 32 0x22), passive conviction]

lemma serialize_ne_keyless (t : WireTransaction) : t.serialize ≠ keyless := by
  intro h
  have hkeyless : keyless = (shortVec (bytes 64)).encode ⟨[], by decide⟩ ++
      (headerCodec.encode ⟨1, 0, 1⟩ ++ ((shortVec (bytes 32)).encode ⟨[], by decide⟩ ++
        (Bytes.fill 32 0x22).val)) := rfl
  rw [hkeyless, WireTransaction.serialize] at h
  obtain ⟨_, hmessage⟩ := (shortVec (bytes 64)).encode_append_inj h
  cases hversion : t.version with
  | none =>
    rw [hversion, Option.toList_none, List.nil_append] at hmessage
    obtain ⟨_, hrest⟩ := headerCodec.encode_append_inj hmessage
    obtain ⟨hkeys, _⟩ := (shortVec (bytes 32)).encode_append_inj hrest
    exact t.keyed (congrArg Subtype.val hkeys)
  | some byte =>
    rw [hversion] at hmessage
    have hbyte := t.versioned byte hversion
    rw [(List.cons.inj hmessage).1] at hbyte
    exact absurd hbyte (by decide)

lemma hash_serialize_ne (t : WireTransaction) : wireRuntime.hash t.serialize ≠ keylessHash := by
  have hkeyless : (t.serialize == keyless) = false := by simpa using serialize_ne_keyless t
  change ((wireDigests.lookup t.serialize).getD (Bytes.fill 32 0)) ≠ keylessHash
  rw [wireDigests, List.lookup_cons, List.lookup_cons, hkeyless, List.lookup_nil]
  cases t.serialize == legacyTransfer.serialize with
  | true => decide
  | false => decide

end Vectors

open Vectors

theorem escrow_paid_to_firstKey_legacy :
    (∃ e, feePayer (legacyTransfer.serialize.take 100) = .error e) ∧
    ∃ l' claimant convictionInfo rest c,
      claimVictim wireRuntime (escrow legacyTransferHash) claimAccounts legacyTransfer.serialize =
        .ok l' ∧ claimAccounts = claimant :: convictionInfo :: rest ∧
      VictimPaid wireRuntime (escrow legacyTransferHash) claimant convictionInfo c l' ∧
      claimant.key = legacyTransfer.firstKey := by
  have hruns : (claimVictim wireRuntime (escrow legacyTransferHash) claimAccounts
      legacyTransfer.serialize).toBool = true := by decide +kernel
  obtain ⟨l', hl⟩ := toBool_eq_true.mp hruns
  obtain ⟨hparse, hclaim⟩ := escrow_paid_to_firstKey
  refine ⟨(hparse legacyTransfer).2 _ (List.take_prefix 100 _) (by decide), l', ?_⟩
  obtain ⟨claimant, convictionInfo, rest, c, hlist, hpaid, hhash, _, hfirst⟩ := hclaim _ _ _ _ _ hl
  have hkey := hfirst legacyTransfer hhash fun _ => rfl
  exact ⟨claimant, convictionInfo, rest, c, hl, hlist, hpaid, hkey⟩

/-- Thirty-two bytes after a message with no keys are paid like a fee payer, though no
transaction has the wronged hash. -/
theorem keyless_bytes_paid :
    ∃ l', claimVictim wireRuntime (escrow keylessHash) claimAccounts keyless = .ok l' ∧
      recordAt wireRuntime (escrow keylessHash) conviction =
        some (.conviction (convictionOver keylessHash)) ∧
      held l' (Bytes.fill 32 0x22) = held (escrow keylessHash) (Bytes.fill 32 0x22) + 5000000000 ∧
      ∀ t : WireTransaction, wireRuntime.hash t.serialize ≠
        (convictionOver keylessHash).wrongedTxHash := by
  have hruns : (claimVictim wireRuntime (escrow keylessHash) claimAccounts keyless).toBool =
      true := by decide +kernel
  obtain ⟨l', hl⟩ := toBool_eq_true.mp hruns
  obtain ⟨claimant, convictionInfo, rest, c, hlist, _, _, hpaid⟩ := victimPaid_of_claimVictim hl
  obtain ⟨rfl, hrest⟩ := List.cons.inj hlist
  obtain ⟨rfl, _⟩ := List.cons.inj hrest
  have hrecord := (recordAt_escrow keylessHash).symm.trans hpaid.conviction
  obtain rfl := Record.conviction.inj (Option.some.inj hrecord)
  exact ⟨l', hl, recordAt_escrow keylessHash, hpaid.paid.credit (by decide), hash_serialize_ne⟩

end Blitz.Program
