import Blitz.LittleEndian

/-! The receipt wire format: the frozen offset table, the four modes and their
field rules, the 261-byte message and the 325-byte signed transport form. -/
namespace Blitz
open ByteLayout LittleEndian

/-- The third-party cryptography the workspace calls. A signature made with a
seed verifies under that seed's public key; nothing else is assumed of it. -/
structure Crypto where
  sha256 : List UInt8 → Bytes 32
  blake3 : List UInt8 → Bytes 32
  verifyingKey : Bytes 32 → Bytes 32
  sign : Bytes 32 → List UInt8 → Bytes 64
  verifyStrict : Bytes 32 → List UInt8 → Bytes 64 → Bool
  sign_verifies : ∀ seed msg, verifyStrict (verifyingKey seed) msg (sign seed msg) = true

namespace Receipts

/-- The bytes of `MBRECEIPT_V1`. -/
def domainTag : List UInt8 :=
  [0x4d, 0x42, 0x52, 0x45, 0x43, 0x45, 0x49, 0x50, 0x54, 0x5f, 0x56, 0x31]

def offDomainTag : ℕ := 0
def offLogId : ℕ := offDomainTag + 12
def offMode : ℕ := offLogId + 32
def offSeq : ℕ := offMode + 1
def offTxSig : ℕ := offSeq + 8
def offTxHash : ℕ := offTxSig + 64
def offRecentBlockhash : ℕ := offTxHash + 32
def offPrevReceiptHash : ℕ := offRecentBlockhash + 32
def offCommitter : ℕ := offPrevReceiptHash + 32
def offIngressSlot : ℕ := offCommitter + 32
def offTIngressMicros : ℕ := offIngressSlot + 8
def receiptLen : ℕ := offTIngressMicros + 8
def offSignature : ℕ := receiptLen
def signedReceiptLen : ℕ := offSignature + 64

def zeroSig : Bytes 64 := Bytes.fill 64 0
def zeroPubkey : Bytes 32 := Bytes.fill 32 0
def zeroHash : Bytes 32 := Bytes.fill 32 0
def genesisPrevHash : Bytes 32 := zeroHash

inductive Mode
  | plain | commit | reveal | retract
  deriving DecidableEq, Repr

def Mode.asU8 : Mode → UInt8
  | .plain => 0x01
  | .commit => 0x02
  | .reveal => 0x03
  | .retract => 0x04

def Mode.fromU8 (byte : UInt8) : Option Mode :=
  if byte = 0x01 then some .plain
  else if byte = 0x02 then some .commit
  else if byte = 0x03 then some .reveal
  else if byte = 0x04 then some .retract
  else none

@[simp] lemma Mode.fromU8_asU8 (m : Mode) : Mode.fromU8 m.asU8 = some m := by cases m <;> rfl

inductive ReceiptError
  | wrongLength (got : ℕ)
  | badDomainTag
  | invalidMode (byte : UInt8)
  | modeReserved
  | txSigNotZeroed
  | txSigZeroed
  | txHashZeroed
  | recentBlockhashNotZeroed
  | committerNotZeroed
  | committerZeroed
  | badSignature
  deriving DecidableEq, Repr

structure Receipt where
  logId : Bytes 32
  mode : Mode
  seq : UInt64
  txSig : Bytes 64
  txHash : Bytes 32
  recentBlockhash : Bytes 32
  prevReceiptHash : Bytes 32
  committer : Bytes 32
  ingressSlot : UInt64
  tIngressMicros : UInt64
  deriving DecidableEq

namespace Receipt

/-- The writes of `to_bytes`, in source order. -/
def fields (r : Receipt) : List (Piece UInt8) :=
  [(offDomainTag, domainTag), (offLogId, r.logId.val), (offMode, [r.mode.asU8]),
    (offSeq, u64Bytes r.seq), (offTxSig, r.txSig.val), (offTxHash, r.txHash.val),
    (offRecentBlockhash, r.recentBlockhash.val), (offPrevReceiptHash, r.prevReceiptHash.val),
    (offCommitter, r.committer.val), (offIngressSlot, u64Bytes r.ingressSlot),
    (offTIngressMicros, u64Bytes r.tIngressMicros)]

def toBytes (r : Receipt) : List UInt8 := writeFields (List.replicate receiptLen 0) r.fields

def validate (r : Receipt) : Except ReceiptError Unit :=
  match r.mode with
  | .plain =>
    if r.txSig = zeroSig then .error .txSigZeroed
    else if r.committer ≠ zeroPubkey then .error .committerNotZeroed
    else .ok ()
  | .commit =>
    if r.txSig ≠ zeroSig then .error .txSigNotZeroed
    else if r.committer = zeroPubkey then .error .committerZeroed
    else .ok ()
  | .retract =>
    if r.txSig = zeroSig then .error .txSigZeroed
    else if r.txHash = zeroHash then .error .txHashZeroed
    else if r.recentBlockhash ≠ zeroHash then .error .recentBlockhashNotZeroed
    else if r.committer ≠ zeroPubkey then .error .committerNotZeroed
    else .ok ()
  | .reveal => .error .modeReserved

/-- The fields at their offsets, once the mode byte has been understood. -/
def parse (buf : List UInt8) (mode : Mode) : Receipt where
  logId := Bytes.read 32 buf offLogId
  mode := mode
  seq := u64Of (slice buf offSeq 8)
  txSig := Bytes.read 64 buf offTxSig
  txHash := Bytes.read 32 buf offTxHash
  recentBlockhash := Bytes.read 32 buf offRecentBlockhash
  prevReceiptHash := Bytes.read 32 buf offPrevReceiptHash
  committer := Bytes.read 32 buf offCommitter
  ingressSlot := u64Of (slice buf offIngressSlot 8)
  tIngressMicros := u64Of (slice buf offTIngressMicros 8)

def fromBytes (buf : List UInt8) : Except ReceiptError Receipt :=
  if buf.length ≠ receiptLen then .error (.wrongLength buf.length)
  else if slice buf offDomainTag 12 ≠ domainTag then .error .badDomainTag
  else
    let modeByte := buf.getD offMode 0
    match Mode.fromU8 modeByte with
    | none => .error (.invalidMode modeByte)
    | some mode =>
      let receipt := parse buf mode
      match receipt.validate with
      | .error e => .error e
      | .ok () => .ok receipt

lemma fields_tile (r : Receipt) : Tiles 0 r.fields := by
  simp [Tiles, fields, offDomainTag, offLogId, offMode, offSeq, offTxSig, offTxHash,
    offRecentBlockhash, offPrevReceiptHash, offCommitter, offIngressSlot, offTIngressMicros,
    domainTag]

lemma content_fields_length (r : Receipt) : (content r.fields).length = receiptLen := by
  simp [content, fields, domainTag, receiptLen, offTIngressMicros, offIngressSlot, offCommitter,
    offPrevReceiptHash, offRecentBlockhash, offTxHash, offTxSig, offSeq, offMode, offLogId,
    offDomainTag]

lemma toBytes_eq_content (r : Receipt) : r.toBytes = content r.fields := by
  have hl : (content r.fields).length ≤ (List.replicate receiptLen (0 : UInt8)).length := by
    simp [content_fields_length]
  rw [toBytes, writeFields_eq r.fields_tile hl, content_fields_length]
  simp

@[simp] lemma toBytes_length (r : Receipt) : r.toBytes.length = receiptLen := by
  rw [toBytes_eq_content, content_fields_length]

lemma slice_toBytes (r : Receipt) {off len : ℕ} {s : List UInt8} (hf : (off, s) ∈ r.fields)
    (hlen : len = s.length) : slice r.toBytes off len = s :=
  slice_writeFields r.fields_tile (by simp [content_fields_length]) hf hlen

lemma toBytes_domainTag (r : Receipt) : slice r.toBytes offDomainTag 12 = domainTag :=
  r.slice_toBytes (by simp [fields]) rfl

lemma toBytes_logId (r : Receipt) : slice r.toBytes offLogId 32 = r.logId.val :=
  r.slice_toBytes (by simp [fields]) (by simp)

lemma toBytes_seq (r : Receipt) : slice r.toBytes offSeq 8 = u64Bytes r.seq :=
  r.slice_toBytes (by simp [fields]) (by simp)

lemma toBytes_modeByte (r : Receipt) : r.toBytes.getD offMode 0 = r.mode.asU8 :=
  getD_of_slice 0 (r.slice_toBytes (by simp [fields]) rfl)

lemma parse_toBytes (r : Receipt) : parse r.toBytes r.mode = r := by
  have hread {n : ℕ} {off : ℕ} {b : Bytes n} (hf : (off, b.val) ∈ r.fields) :
      Bytes.read n r.toBytes off = b := by
    rw [Bytes.read, r.slice_toBytes hf (by simp), Bytes.ofList_self]
  have hword {off : ℕ} {x : UInt64} (hf : (off, u64Bytes x) ∈ r.fields) :
      u64Of (slice r.toBytes off 8) = x := by
    rw [r.slice_toBytes hf (by simp), u64Of_u64Bytes]
  simp only [parse]
  rw [hread (b := r.logId) (by simp [fields]), hword (x := r.seq) (by simp [fields]),
    hread (b := r.txSig) (by simp [fields]), hread (b := r.txHash) (by simp [fields]),
    hread (b := r.recentBlockhash) (by simp [fields]),
    hread (b := r.prevReceiptHash) (by simp [fields]),
    hread (b := r.committer) (by simp [fields]), hword (x := r.ingressSlot) (by simp [fields]),
    hword (x := r.tIngressMicros) (by simp [fields])]

theorem fromBytes_toBytes (r : Receipt) : fromBytes r.toBytes = r.validate.map fun _ => r := by
  simp only [fromBytes, toBytes_length, ne_eq, not_true_eq_false, if_false, toBytes_domainTag,
    toBytes_modeByte, Mode.fromU8_asU8, parse_toBytes]
  cases r.validate <;> rfl

theorem toBytes_injective : Function.Injective toBytes := by
  intro a b h
  have hm : a.mode = b.mode := by
    have := congrArg (fun bs : List UInt8 => Mode.fromU8 (bs.getD offMode 0)) h
    simpa only [toBytes_modeByte, Mode.fromU8_asU8, Option.some.injEq] using this
  rw [← parse_toBytes a, ← parse_toBytes b, h, hm]

end Receipt

end Receipts
end Blitz
