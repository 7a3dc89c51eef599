import Blitz.ProgramEvidence
import Blitz.WatchtowerFault

/-! The instruction a court client builds from two receipts, read back by the
precompile and by the program, against the watchtower's own predicate. -/
namespace Blitz.Court
open ByteLayout LittleEndian CheckedArith Receipts

def headerLen : ℕ := 2
def offsetsLen : ℕ := 14
def thisInstruction : UInt16 := 0xFFFF
def payloadStart : ℕ := headerLen + 2 * offsetsLen

/-- One turn of the loop over the two receipts: payload and offsets grow together. -/
def pushReceipt (signer : Bytes 32) (state : List UInt8 × List UInt8) (receipt : SignedReceipt) :
    List UInt8 × List UInt8 :=
  let (data, payload) := state
  let signatureAt := payloadStart + payload.length
  let payload := payload ++ receipt.signature.val
  let keyAt := payloadStart + payload.length
  let payload := payload ++ signer.val
  let messageAt := payloadStart + payload.length
  let message := receipt.message
  let payload := payload ++ message
  let values := [UInt16.ofNat signatureAt, thisInstruction, UInt16.ofNat keyAt, thisInstruction,
    UInt16.ofNat messageAt, UInt16.ofNat message.length, thisInstruction]
  (data ++ values.flatMap u16Bytes, payload)

/-- The data of the instruction addressed to the ed25519 program. -/
def verifyTwo (signer : Bytes 32) (a b : SignedReceipt) : List UInt8 :=
  let (data, payload) := [a, b].foldl (pushReceipt signer) ([2, 0], [])
  data ++ payload

section Layout
variable (signer : Bytes 32) (a b : SignedReceipt)

/-- The offsets entry of a receipt whose payload starts at `start`. -/
def offsetsAt (start : ℕ) : List UInt16 :=
  [UInt16.ofNat start, thisInstruction, UInt16.ofNat (start + 64), thisInstruction,
    UInt16.ofNat (start + 96), UInt16.ofNat receiptLen, thisInstruction]

def verifyTwoFields : List (Piece UInt8) :=
  [(0, [2, 0]), (2, (offsetsAt 30).flatMap u16Bytes), (16, (offsetsAt 387).flatMap u16Bytes),
    (30, a.signature.val), (94, signer.val), (126, a.message),
    (387, b.signature.val), (451, signer.val), (483, b.message)]

lemma offsetsAt_length (start : ℕ) : ((offsetsAt start).flatMap u16Bytes).length = 14 := by
  simp [offsetsAt]

lemma message_length (s : SignedReceipt) : s.message.length = 261 := s.receipt.toBytes_length

lemma verifyTwo_eq_content : verifyTwo signer a b = content (verifyTwoFields signer a b) := by
  simp [verifyTwo, pushReceipt, verifyTwoFields, content, offsetsAt, message_length, payloadStart,
    headerLen, offsetsLen, receiptLen, offTIngressMicros, offIngressSlot, offCommitter,
    offPrevReceiptHash, offRecentBlockhash, offTxHash, offTxSig, offSeq, offMode, offLogId,
    offDomainTag]

lemma verifyTwo_length : (verifyTwo signer a b).length = 744 := by
  rw [verifyTwo_eq_content]
  simp [content, verifyTwoFields, offsetsAt, message_length]

lemma slice_verifyTwo {off len : ℕ} {s : List UInt8} (hf : (off, s) ∈ verifyTwoFields signer a b)
    (hlen : len = s.length) : slice (verifyTwo signer a b) off len = s := by
  have ht : Tiles 0 (verifyTwoFields signer a b) := by
    simp [Tiles, verifyTwoFields, offsetsAt, message_length]
  have hs := slice_content ht hf []
  rw [List.append_nil, ← verifyTwo_eq_content, Nat.sub_zero] at hs
  rw [hlen]
  exact hs

end Layout

lemma offsetField_offsetsAt {start n : ℕ} {x : UInt16} (hx : (offsetsAt start)[n]? = some x) :
    Program.offsetField ((offsetsAt start).flatMap u16Bytes) n = x := by
  rw [Program.offsetField, slice_flatMap u16Bytes_length hx, u16Of_u16Bytes]

/-- A receipt's payload starts where its entry of the table says. -/
structure EntryAt (data : List UInt8) (entry start : ℕ) (signer : Bytes 32) (s : SignedReceipt) :
    Prop where
  small : start < 2 ^ 15
  fits : start + 357 ≤ data.length
  listed : Program.headerLen + entry * Program.offsetsLen + Program.offsetsLen ≤ data.length
  offsets : slice data (Program.headerLen + entry * Program.offsetsLen) Program.offsetsLen =
    (offsetsAt start).flatMap u16Bytes
  signature : slice data start 64 = s.signature.val
  key : slice data (start + 64) 32 = signer.val
  message : slice data (start + 96) receiptLen = s.message

section Entry
variable {data : List UInt8} {entry start : ℕ} {signer : Bytes 32} {s : SignedReceipt}

lemma EntryAt.offsets_found (h : EntryAt data entry start signer s) :
    get? data (Program.headerLen + entry * Program.offsetsLen) Program.offsetsLen =
      some ((offsetsAt start).flatMap u16Bytes) :=
  get?_eq_some.mpr ⟨h.listed, h.offsets.symm⟩

lemma EntryAt.signature_found (h : EntryAt data entry start signer s) :
    get? data (Program.offsetField ((offsetsAt start).flatMap u16Bytes) 0).toNat 64 =
      some s.signature.val := by
  have hsmall := h.small
  have hfits := h.fits
  rw [offsetField_offsetsAt (show (offsetsAt start)[0]? = some (UInt16.ofNat start) from rfl),
    UInt16.toNat_ofNat', Nat.mod_eq_of_lt (by omega)]
  exact get?_eq_some.mpr ⟨by omega, h.signature.symm⟩

lemma EntryAt.read (h : EntryAt data entry start signer s)
    (others : UInt16 → Option (List UInt8)) (index : UInt16) :
    Program.verifiedEntry data index entry = .ok ⟨signer, s.message⟩ ∧
      Program.reading data others entry = some ⟨s.signature, signer, s.message⟩ := by
  have hsmall := h.small
  have hfits := h.fits
  have hr : receiptLen = 261 := rfl
  have hnat (n k : ℕ) (hk : k < 2 ^ 16) (hx : (offsetsAt start)[n]? = some (UInt16.ofNat k)) :
      (Program.offsetField ((offsetsAt start).flatMap u16Bytes) n).toNat = k := by
    rw [offsetField_offsetsAt hx, UInt16.toNat_ofNat']
    omega
  -- The other six values, in the order both readers index them.
  have h1 := offsetField_offsetsAt (show (offsetsAt start)[1]? = some thisInstruction from rfl)
  have h2 := hnat 2 (start + 64) (by omega) rfl
  have h3 := offsetField_offsetsAt (show (offsetsAt start)[3]? = some thisInstruction from rfl)
  have h4 := hnat 4 (start + 96) (by omega) rfl
  have h5 := hnat 5 receiptLen (by omega) rfl
  have h6 := offsetField_offsetsAt (show (offsetsAt start)[6]? = some thisInstruction from rfl)
  have hkey : get? data (start + 64) 32 = some signer.val :=
    get?_eq_some.mpr ⟨by omega, h.key.symm⟩
  have hmsg : get? data (start + 96) receiptLen = some s.message :=
    get?_eq_some.mpr ⟨by omega, h.message.symm⟩
  constructor
  · simp [Program.verifiedEntry, h.offsets_found, h.signature_found, h1, h2, h3, h4, h5, h6, hkey,
      hmsg, thisInstruction, Program.thisInstruction]
  · simp [Program.reading, Program.named, h.offsets_found, h.signature_found, h1, h2, h3, h4, h5,
      h6, hkey, hmsg, thisInstruction, Program.thisInstruction]

end Entry

lemma entryAt_verifyTwo (signer : Bytes 32) (a b : SignedReceipt) :
    EntryAt (verifyTwo signer a b) 0 30 signer a ∧
      EntryAt (verifyTwo signer a b) 1 387 signer b := by
  have hlen := verifyTwo_length signer a b
  have hslice {off len : ℕ} {s : List UInt8} (hf : (off, s) ∈ verifyTwoFields signer a b)
      (hl : len = s.length) := slice_verifyTwo signer a b hf hl
  constructor
  · exact
      { small := by norm_num
        fits := by omega
        listed := by rw [hlen]; decide
        offsets := hslice (by simp [verifyTwoFields, Program.headerLen]) (offsetsAt_length 30).symm
        signature := hslice (by simp [verifyTwoFields]) (by simp)
        key := hslice (by simp [verifyTwoFields]) (by simp)
        message := hslice (by simp [verifyTwoFields]) (message_length a).symm }
  · exact
      { small := by norm_num
        fits := by omega
        listed := by rw [hlen]; decide
        offsets := hslice (by simp [verifyTwoFields, Program.headerLen, Program.offsetsLen])
          (offsetsAt_length 387).symm
        signature := hslice (by simp [verifyTwoFields]) (by simp)
        key := hslice (by simp [verifyTwoFields]) (by simp)
        message := hslice (by simp [verifyTwoFields]) (message_length b).symm }

section ReadBack
variable {signer : Bytes 32} {a b : SignedReceipt} {others : UInt16 → Option (List UInt8)}

lemma verifyTwo_count : ((verifyTwo signer a b).getD 0 0).toNat = 2 := by
  rw [verifyTwo_eq_content]
  rfl

theorem verifiedPairs_verifyTwo (index : UInt16) :
    Program.verifiedPairs (verifyTwo signer a b) index =
      .ok [⟨signer, a.message⟩, ⟨signer, b.message⟩] := by
  obtain ⟨hfirst, hsecond⟩ := entryAt_verifyTwo signer a b
  have ha := (hfirst.read (fun _ => none) index).1
  have hb := (hsecond.read (fun _ => none) index).1
  rw [Program.verifiedPairs_eq_ok, verifyTwo_length, verifyTwo_count]
  refine ⟨by decide, ?_⟩
  simp [List.range_succ, ha, hb]

theorem precompile_verifyTwo {verifies : Bytes 32 → List UInt8 → Bytes 64 → Bool} :
    Program.PrecompileAccepts (verifyTwo signer a b) others verifies ↔
      verifies signer a.message a.signature = true ∧
        verifies signer b.message b.signature = true := by
  obtain ⟨hfirst, hsecond⟩ := entryAt_verifyTwo signer a b
  have ha := (hfirst.read others 0).2
  have hb := (hsecond.read others 0).2
  unfold Program.PrecompileAccepts
  rw [verifyTwo_count]
  constructor
  · intro h
    obtain ⟨ra, hra, hva⟩ := h 0 (by omega)
    obtain ⟨rb, hrb, hvb⟩ := h 1 (by omega)
    rw [ha] at hra
    rw [hb] at hrb
    cases hra
    cases hrb
    exact ⟨hva, hvb⟩
  · rintro ⟨hva, hvb⟩ entry hentry
    interval_cases entry
    · exact ⟨_, ha, hva⟩
    · exact ⟨_, hb, hvb⟩

lemma whole_message (s : SignedReceipt) : Program.Equivocation.Whole s.message :=
  ⟨s.receipt.toBytes_length, s.receipt.toBytes_domainTag⟩

lemma checkEvidence_verifyTwo_eq (index : UInt16) :
    Program.checkEvidence signer (verifyTwo signer a b) index =
      Program.Equivocation.check a.message b.message :=
  Program.checkEvidence_of_pairs (verifiedPairs_verifyTwo index) a.receipt.toBytes_length
    b.receipt.toBytes_length

theorem checkEvidence_verifyTwo (index : UInt16) :
    (∃ e, Program.checkEvidence signer (verifyTwo signer a b) index = .ok e) ↔
      a.receipt.logId = b.receipt.logId ∧ a.receipt.seq = b.receipt.seq ∧
        a.receipt ≠ b.receipt := by
  have hlog : slice b.message offLogId 32 = slice a.message offLogId 32 ↔
      a.receipt.logId = b.receipt.logId := by
    rw [SignedReceipt.message, SignedReceipt.message, Receipt.toBytes_logId, Receipt.toBytes_logId,
      eq_comm]
    exact Subtype.ext_iff.symm
  have hseq : u64Of (slice b.message offSeq 8) = u64Of (slice a.message offSeq 8) ↔
      a.receipt.seq = b.receipt.seq := by
    rw [SignedReceipt.message, SignedReceipt.message, Receipt.toBytes_seq, Receipt.toBytes_seq,
      u64Of_u64Bytes, u64Of_u64Bytes, eq_comm]
  have hne : a.message ≠ b.message ↔ a.receipt ≠ b.receipt :=
    Receipt.toBytes_injective.ne_iff
  simp only [checkEvidence_verifyTwo_eq, Program.Equivocation.check_eq_ok]
  constructor
  · rintro ⟨e, _, _, h1, h2, h3, _⟩
    exact ⟨hlog.mp h1, hseq.mp h2, hne.mp h3⟩
  · rintro ⟨h1, h2, h3⟩
    exact ⟨_, whole_message a, whole_message b, hlog.mpr h1, hseq.mpr h2, hne.mpr h3, rfl⟩

end ReadBack

section Agreement
open Watchtower
variable {c : Crypto} {key : Bytes 32} {a b : SignedReceipt}
  {others : UInt16 → Option (List UInt8)} {index : UInt16}

/-- The watchtower's predicate and the program's differ on what the other does
not look at: the signatures of equal statements, and the rules of the modes. -/
theorem offChain_onChain_agree :
    ((Fault.equivocation a.receipt.seq a b).verify c key = .ok () ↔
        Program.PrecompileAccepts (verifyTwo key a b) others c.verifyStrict ∧
          ∃ e, Program.checkEvidence key (verifyTwo key a b) index = .ok e) ↔
      (c.verifyStrict key a.message a.signature = true →
        c.verifyStrict key b.message b.signature = true →
        a.receipt.logId = b.receipt.logId → a.receipt.seq = b.receipt.seq →
        if a.receipt = b.receipt then a.signature = b.signature ∨ a.receipt.validate ≠ .ok ()
        else a.receipt.validate = .ok () ∧ b.receipt.validate = .ok ()) := by
  rw [verify_equivocation, precompile_verifyTwo, checkEvidence_verifyTwo,
    SignedReceipt.verify_eq_ok, SignedReceipt.verify_eq_ok]
  by_cases hsa : c.verifyStrict key a.message a.signature = true
  swap
  · simp [hsa]
  by_cases hsb : c.verifyStrict key b.message b.signature = true
  swap
  · simp [hsb]
  by_cases hlog : a.receipt.logId = b.receipt.logId
  swap
  · simp [hlog]
  by_cases hseq : a.receipt.seq = b.receipt.seq
  swap
  · simp [hseq, Ne.symm hseq]
  by_cases hr : a.receipt = b.receipt
  · -- Equal statements: only the off-chain side can still tell them apart.
    have hab : a = b ↔ a.signature = b.signature := by
      obtain ⟨ra, sa⟩ := a
      obtain ⟨rb, sb⟩ := b
      simp_all
    simp only [hsa, hsb, hr, if_true, ne_eq, not_true_eq_false, and_true, and_false,
      iff_false, true_and, forall_const, hab, not_and, not_not]
    constructor
    · intro h
      by_cases hv : b.receipt.validate = .ok ()
      · exact Or.inl (h hv hv)
      · exact Or.inr hv
    · rintro (h | h) hv _
      · exact h
      · exact absurd hv h
  · -- Different statements: only the off-chain side asks for the mode rules.
    have hab : a ≠ b := fun h => hr (by rw [h])
    simp [hsa, hsb, hlog, hseq, hr, hab]

/-- One statement signed twice is an equivocation off chain and none on chain;
a rival under the reserved mode is one on chain and none off chain. -/
theorem offChain_onChain_disagree :
    (Fault.equivocation 0 Receipts.Vectors.plainGenesis
        Receipts.Vectors.plainGenesisResigned).verify Receipts.Vectors.crypto
        Receipts.Vectors.operatorPubkey = .ok () ∧
      (∀ index, ¬∃ e, Program.checkEvidence Receipts.Vectors.operatorPubkey
        (verifyTwo Receipts.Vectors.operatorPubkey Receipts.Vectors.plainGenesis
          Receipts.Vectors.plainGenesisResigned) index = .ok e) ∧
      (Fault.equivocation 0 Receipts.Vectors.plainGenesis Receipts.Vectors.revealRival).verify
        Receipts.Vectors.crypto Receipts.Vectors.operatorPubkey ≠ .ok () ∧
      (∀ others, Program.PrecompileAccepts (verifyTwo Receipts.Vectors.operatorPubkey
        Receipts.Vectors.plainGenesis Receipts.Vectors.revealRival) others
        Receipts.Vectors.crypto.verifyStrict) ∧
      ∀ index, ∃ e, Program.checkEvidence Receipts.Vectors.operatorPubkey
        (verifyTwo Receipts.Vectors.operatorPubkey Receipts.Vectors.plainGenesis
          Receipts.Vectors.revealRival) index = .ok e := by
  refine ⟨by decide +kernel, ?_, by decide +kernel, ?_, ?_⟩
  · intro index h
    exact (checkEvidence_verifyTwo index |>.mp h).2.2 rfl
  · intro others
    exact precompile_verifyTwo.mpr (by decide +kernel)
  · intro index
    exact (checkEvidence_verifyTwo index).mpr (by decide +kernel)

end Agreement

end Blitz.Court
