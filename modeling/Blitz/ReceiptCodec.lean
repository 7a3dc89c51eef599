import Blitz.ProgramEvidence
import Blitz.SignedReceipt

/-! Both directions of the receipt codecs, and what the slashing program reads out of a
message that parses. -/
namespace Blitz.Receipts
open ByteLayout LittleEndian CheckedArith Program

lemma Mode.asU8_of_fromU8 {byte : UInt8} {m : Mode} (h : Mode.fromU8 byte = some m) :
    m.asU8 = byte := by
  unfold Mode.fromU8 at h
  split_ifs at h with h1 h2 h3 h4 <;>
  · obtain rfl := Option.some.inj h
    exact Eq.symm ‹_›

namespace Receipt

lemma fromBytes_eq_ok {buf : List UInt8} {r : Receipt} :
    fromBytes buf = .ok r ↔ buf.length = receiptLen ∧ slice buf offDomainTag 12 = domainTag ∧
      Mode.fromU8 (buf.getD offMode 0) = some r.mode ∧ r = parse buf r.mode ∧
      r.validate = .ok () := by
  unfold fromBytes
  by_cases hlen : buf.length = receiptLen
  swap
  · simp [hlen]
  by_cases htag : slice buf offDomainTag 12 = domainTag
  swap
  · simp [hlen, htag]
  simp only [hlen, htag, ne_eq, not_true_eq_false, if_false, true_and]
  cases hmode : Mode.fromU8 (buf.getD offMode 0) with
  | none => simp
  | some mode =>
    dsimp only
    constructor
    · intro h
      cases hvalid : (parse buf mode).validate with
      | error e => simp [hvalid] at h
      | ok u =>
        rw [hvalid] at h
        obtain rfl := Except.ok.inj h
        exact ⟨rfl, rfl, hvalid⟩
    · rintro ⟨hm, hr, hvalid⟩
      obtain rfl := Option.some.inj hm
      rw [← hr, hvalid]

lemma slice_of_parse {buf : List UInt8} {mode : Mode} (hlen : buf.length = receiptLen)
    (htag : slice buf offDomainTag 12 = domainTag) (hmode : mode.asU8 = buf.getD offMode 0) :
    ∀ f ∈ (parse buf mode).fields, slice buf f.1 f.2.length = f.2 := by
  have hread {n : ℕ} (off : ℕ) (h : off + n ≤ receiptLen) :
      slice buf off (Bytes.read n buf off).val.length = (Bytes.read n buf off).val := by
    rw [Bytes.val_length, Bytes.read_val (hlen ▸ h)]
  have hword (off : ℕ) (h : off + 8 ≤ receiptLen) :
      slice buf off (u64Bytes (u64Of (slice buf off 8))).length =
        u64Bytes (u64Of (slice buf off 8)) := by
    rw [u64Bytes_length, u64Bytes_u64Of (length_slice (hlen ▸ h))]
  have hbyte : slice buf offMode 1 = [mode.asU8] := by
    rw [hmode, slice_one (by rw [hlen]; decide) 0]
  simp only [fields, parse, List.forall_mem_cons, List.not_mem_nil, false_imp_iff, implies_true,
    and_true]
  exact ⟨htag, hread _ (by decide), hbyte, hword _ (by decide), hread _ (by decide),
    hread _ (by decide), hread _ (by decide), hread _ (by decide), hread _ (by decide),
    hword _ (by decide), hword _ (by decide)⟩

theorem toBytes_of_fromBytes {buf : List UInt8} {r : Receipt} (h : fromBytes buf = .ok r) :
    r.toBytes = buf := by
  obtain ⟨hlen, htag, hmode, hr, _⟩ := fromBytes_eq_ok.mp h
  rw [hr, toBytes_eq_content]
  have hslices := slice_of_parse hlen htag (Mode.asU8_of_fromU8 hmode)
  have hcontent : buf.length = 0 + (content (parse buf r.mode).fields).length := by
    rw [content_fields_length, hlen, Nat.zero_add]
  exact (drop_eq_content (fields_tile _) hcontent hslices).symm

end Receipt

namespace SignedReceipt

theorem toBytes_of_fromBytes {buf : List UInt8} {s : SignedReceipt} (h : fromBytes buf = .ok s) :
    buf.length = signedReceiptLen ∧ s.toBytes = buf := by
  unfold fromBytes at h
  split_ifs at h with hlen
  rw [not_not] at hlen
  cases hr : Receipt.fromBytes (slice buf 0 offSignature) with
  | error e => simp [hr] at h
  | ok r =>
    rw [hr] at h
    obtain rfl := Except.ok.inj h
    refine ⟨hlen, ?_⟩
    have hsig : (Bytes.read 64 buf offSignature).val = buf.drop offSignature := by
      rw [Bytes.read_val (by rw [hlen]; decide), slice, List.take_of_length_le]
      rw [List.length_drop, hlen]
      decide
    rw [toBytes_eq, Receipt.toBytes_of_fromBytes hr, hsig]
    exact List.take_append_drop _ _

lemma sha256_toBytes (c : Crypto) (s : SignedReceipt) :
    c.sha256 s.toBytes = s.receiptHash c := by
  rw [toBytes_eq]
  rfl

end SignedReceipt

section OnChain
variable {m m' : List UInt8} {r r' : Receipt}

lemma field_of_parses (h : Receipt.fromBytes m = .ok r) {off len : ℕ} {s : List UInt8}
    (hf : (off, s) ∈ r.fields) (hlen : len = s.length) (hle : off + len ≤ receiptLen) :
    Equivocation.field m off len = .ok s := by
  rw [Equivocation.field, orElse_eq_ok, get?_eq_some, ← Receipt.toBytes_of_fromBytes h,
    Receipt.toBytes_length]
  exact ⟨hle, (r.slice_toBytes hf hlen).symm⟩

lemma read_of_parses (h : Receipt.fromBytes m = .ok r) {n off : ℕ} {b : Bytes n}
    (hf : (off, b.val) ∈ r.fields) : Bytes.read n m off = b := by
  rw [← Receipt.toBytes_of_fromBytes h, Bytes.read, r.slice_toBytes hf (by simp),
    Bytes.ofList_self]

lemma check_of_parses (h : Receipt.fromBytes m = .ok r) (h' : Receipt.fromBytes m' = .ok r')
    {e : Equivocation} (hcheck : Equivocation.check m m' = .ok e) :
    e.logId = r.logId ∧ e.seq = r.seq ∧ r'.logId = r.logId ∧ r'.seq = r.seq ∧
      e.wrongedSignature = (if m ≤ m' then r else r').txSig ∧
      e.wrongedTxHash = (if m ≤ m' then r else r').txHash := by
  obtain ⟨_, _, hlog, hseq, _, rfl⟩ := Equivocation.check_eq_ok.mp hcheck
  have hword {m : List UInt8} {r : Receipt} (h : Receipt.fromBytes m = .ok r) :
      u64Of (slice m offSeq 8) = r.seq := by
    rw [← Receipt.toBytes_of_fromBytes h, r.toBytes_seq, u64Of_u64Bytes]
  have hread {m : List UInt8} {r : Receipt} (h : Receipt.fromBytes m = .ok r) :
      Bytes.read 32 m offLogId = r.logId :=
    read_of_parses h (by simp [Receipt.fields])
  have hsame : Bytes.read 32 m' offLogId = Bytes.read 32 m offLogId := by
    rw [Bytes.read, Bytes.read, hlog]
  refine ⟨hread h, hword h, ?_, ?_, ?_⟩
  · rw [← hread h', hsame, hread h]
  · rw [← hword h', hseq, hword h]
  · simp only [Equivocation.wrongedSignature, Equivocation.wrongedTxHash, Equivocation.ordered]
    split_ifs
    · exact ⟨read_of_parses h (by simp [Receipt.fields]),
        read_of_parses h (by simp [Receipt.fields])⟩
    · exact ⟨read_of_parses h' (by simp [Receipt.fields]),
        read_of_parses h' (by simp [Receipt.fields])⟩

end OnChain

/-- The codecs are bijections between valid receipts and the byte strings they accept,
and the program's offsets read the fields of the receipt a message parses to. -/
theorem receiptCodec_exact (c : Crypto) :
    (∀ r : Receipt, Receipt.fromBytes r.toBytes = r.validate.map fun _ => r) ∧
      (∀ b r, Receipt.fromBytes b = .ok r → b.length = 261 ∧ r.toBytes = b) ∧
      (∀ s : SignedReceipt,
        SignedReceipt.fromBytes s.toBytes = s.receipt.validate.map fun _ => s) ∧
      (∀ b s, SignedReceipt.fromBytes b = .ok s → b.length = 325 ∧ s.toBytes = b) ∧
      (∀ s : SignedReceipt, c.sha256 s.toBytes = s.receiptHash c) ∧
      (∀ m r, Receipt.fromBytes m = .ok r →
        Equivocation.field m offLogId 32 = .ok r.logId.val ∧
          (Equivocation.field m offSeq 8).map u64Of = .ok r.seq ∧
          Bytes.read 64 m offTxSig = r.txSig ∧ Bytes.read 32 m offTxHash = r.txHash) ∧
      ∀ m m' r r' e, Receipt.fromBytes m = .ok r → Receipt.fromBytes m' = .ok r' →
        Equivocation.check m m' = .ok e →
          e.logId = r.logId ∧ e.seq = r.seq ∧ r'.logId = r.logId ∧ r'.seq = r.seq ∧
            e.wrongedSignature = (if m ≤ m' then r else r').txSig ∧
            e.wrongedTxHash = (if m ≤ m' then r else r').txHash := by
  refine ⟨Receipt.fromBytes_toBytes, fun b r h => ?_, SignedReceipt.fromBytes_toBytes,
    fun b s h => SignedReceipt.toBytes_of_fromBytes h, SignedReceipt.sha256_toBytes c,
    fun m r h => ?_, fun m m' r r' e h h' hcheck => check_of_parses h h' hcheck⟩
  · exact ⟨(Receipt.fromBytes_eq_ok.mp h).1, Receipt.toBytes_of_fromBytes h⟩
  · have hseq : Equivocation.field m offSeq 8 = .ok (u64Bytes r.seq) :=
      field_of_parses h (by simp [Receipt.fields]) (by simp) (by decide)
    refine ⟨field_of_parses h (by simp [Receipt.fields]) (by simp) (by decide), ?_,
      read_of_parses h (by simp [Receipt.fields]), read_of_parses h (by simp [Receipt.fields])⟩
    rw [hseq, Except.map, u64Of_u64Bytes]

theorem receiptCodec_exact_published :
    Vectors.plainGenesis.receipt.toBytes = Vectors.plainGenesis.message ∧
      ∀ e, Equivocation.check Vectors.plainGenesis.message Vectors.plainRival.message = .ok e →
        e.logId = Vectors.logId ∧ e.seq = 0 := by
  have hparse : Receipt.fromBytes Vectors.plainGenesis.message = .ok Vectors.plainGenesis.receipt ∧
      Receipt.fromBytes Vectors.plainRival.message = .ok Vectors.plainRival.receipt := by
    decide +kernel
  obtain ⟨_, hcanonical, _, _, _, _, hcheck⟩ := receiptCodec_exact Vectors.crypto
  refine ⟨(hcanonical _ _ hparse.1).2, fun e he => ?_⟩
  obtain ⟨hlog, hseq, _⟩ := hcheck _ _ _ _ e hparse.1 hparse.2 he
  exact ⟨hlog, hseq⟩

end Blitz.Receipts
