import Blitz.Receipt

/-! Signed receipts: what a client is handed, what the log stores and chains,
and when one counts as a statement by a key. -/
namespace Blitz.Receipts
open ByteLayout LittleEndian

structure SignedReceipt where
  receipt : Receipt
  signature : Bytes 64
  deriving DecidableEq

/-- Signing refuses a receipt that breaks the rules of its mode. -/
def Receipt.sign (c : Crypto) (r : Receipt) (key : Bytes 32) : Except ReceiptError SignedReceipt :=
  match r.validate with
  | .error e => .error e
  | .ok () => .ok ⟨r, c.sign key r.toBytes⟩

namespace SignedReceipt

def message (s : SignedReceipt) : List UInt8 := s.receipt.toBytes

/-- Both updates of the streaming hasher: the message, then the signature. -/
def receiptHash (c : Crypto) (s : SignedReceipt) : Bytes 32 :=
  c.sha256 (s.receipt.toBytes ++ s.signature.val)

def fields (s : SignedReceipt) : List (Piece UInt8) :=
  [(0, s.receipt.toBytes), (offSignature, s.signature.val)]

def toBytes (s : SignedReceipt) : List UInt8 :=
  writeFields (List.replicate signedReceiptLen 0) s.fields

def fromBytes (buf : List UInt8) : Except ReceiptError SignedReceipt :=
  if buf.length ≠ signedReceiptLen then .error (.wrongLength buf.length)
  else match Receipt.fromBytes (slice buf 0 offSignature) with
    | .error e => .error e
    | .ok r => .ok ⟨r, Bytes.read 64 buf offSignature⟩

def verify (c : Crypto) (s : SignedReceipt) (key : Bytes 32) : Except ReceiptError Unit :=
  match s.receipt.validate with
  | .error e => .error e
  | .ok () => if c.verifyStrict key s.message s.signature then .ok () else .error .badSignature

lemma fields_tile (s : SignedReceipt) : Tiles 0 s.fields := by
  simp [Tiles, fields, offSignature]

lemma content_fields_length (s : SignedReceipt) :
    (content s.fields).length = signedReceiptLen := by
  simp [fields, signedReceiptLen, offSignature]

lemma toBytes_eq (s : SignedReceipt) : s.toBytes = s.receipt.toBytes ++ s.signature.val := by
  have hl : (content s.fields).length ≤ (List.replicate signedReceiptLen (0 : UInt8)).length := by
    simp [content_fields_length]
  rw [toBytes, writeFields_eq s.fields_tile hl, content_fields_length]
  simp [fields]

@[simp] lemma toBytes_length (s : SignedReceipt) : s.toBytes.length = signedReceiptLen := by
  simp [toBytes_eq, signedReceiptLen, offSignature]

lemma slice_toBytes (s : SignedReceipt) {off len : ℕ} {b : List UInt8} (hf : (off, b) ∈ s.fields)
    (hlen : len = b.length) : slice s.toBytes off len = b :=
  slice_writeFields s.fields_tile (by simp [content_fields_length]) hf hlen

theorem fromBytes_toBytes (s : SignedReceipt) :
    fromBytes s.toBytes = s.receipt.validate.map fun _ => s := by
  have hr : slice s.toBytes 0 offSignature = s.receipt.toBytes :=
    s.slice_toBytes (by simp [fields]) (by simp [offSignature])
  have hs : Bytes.read 64 s.toBytes offSignature = s.signature := by
    rw [Bytes.read, s.slice_toBytes (b := s.signature.val) (by simp [fields]) (by simp),
      Bytes.ofList_self]
  simp only [fromBytes, toBytes_length, ne_eq, not_true_eq_false, if_false, hr, hs,
    Receipt.fromBytes_toBytes]
  cases s.receipt.validate <;> rfl

lemma verify_eq_ok {c : Crypto} {s : SignedReceipt} {key : Bytes 32} :
    s.verify c key = .ok () ↔
      s.receipt.validate = .ok () ∧ c.verifyStrict key s.message s.signature = true := by
  unfold verify
  cases hv : s.receipt.validate with
  | error e => simp
  | ok u => cases hs : c.verifyStrict key s.message s.signature <;> simp

end SignedReceipt

lemma Receipt.sign_eq_ok {c : Crypto} {r : Receipt} {key : Bytes 32} {s : SignedReceipt} :
    r.sign c key = .ok s ↔ r.validate = .ok () ∧ s = ⟨r, c.sign key r.toBytes⟩ := by
  unfold Receipt.sign
  cases r.validate with
  | error e => simp
  | ok u => simp [eq_comm]

lemma Receipt.verify_of_sign {c : Crypto} {r : Receipt} {key : Bytes 32} {s : SignedReceipt}
    (h : r.sign c key = .ok s) : s.verify c (c.verifyingKey key) = .ok () := by
  obtain ⟨hv, rfl⟩ := Receipt.sign_eq_ok.mp h
  exact SignedReceipt.verify_eq_ok.mpr ⟨hv, c.sign_verifies key r.toBytes⟩

/-- Signatures and digests looked up in tables. What is not recorded signs and
hashes to zero, so the tables have to cover whatever is looked at. A message may
be recorded with more than one signature; the first is the one `sign` gives. -/
def recorded (seed key : Bytes 32) (signatures : List (List UInt8 × Bytes 64))
    (digests blocks : List (List UInt8 × Bytes 32)) : Crypto :=
  let signFor (k : Bytes 32) (msg : List UInt8) : Bytes 64 :=
    if k = key then (signatures.lookup msg).getD zeroSig else zeroSig
  let publicOf (s : Bytes 32) : Bytes 32 := if s = seed then key else s
  { sha256 := fun bs => (digests.lookup bs).getD zeroHash
    blake3 := fun bs => (blocks.lookup bs).getD zeroHash
    verifyingKey := publicOf
    sign := fun s msg => signFor (publicOf s) msg
    verifyStrict := fun k msg sig => (k = key ∧ (msg, sig) ∈ signatures) ∨ sig = signFor k msg
    sign_verifies := fun _ _ => by simp }

namespace Vectors

def operatorSeed : Bytes 32 := Bytes.hex 32
  0x000102030405060708090a0b0c0d0e0f101112131415161718191a1b1c1d1e1f

def operatorPubkey : Bytes 32 := Bytes.hex 32
  0x03a107bff3ce10be1d70dd18e74bc09967e4d6309ba50d5f1ddc8664125531b8

def logId : Bytes 32 := Bytes.fill 32 0x9c

def plainGenesis : SignedReceipt where
  receipt :=
    { logId := logId
      mode := .plain
      seq := 0
      txSig := Bytes.fill 64 0x11
      txHash := Bytes.hex 32
        0xedeb063af77f2c8f812a98f318320ca13e767bb5cf461dca1b0d20d21defeffb
      recentBlockhash := Bytes.fill 32 0x44
      prevReceiptHash := Bytes.fill 32 0
      committer := Bytes.fill 32 0
      ingressSlot := 6150402
      tIngressMicros := 1754300123456789 }
  signature := Bytes.hex 64
    0x3faa5865e83bbe538e64b86ad90da471ae6c54672b77ac1af2a32a9b7461a3dba1d98d7567913f9c655cd042641be7ac075ef2d014a158117ea2ee027a31e908

def commitChained : SignedReceipt where
  receipt :=
    { logId := logId
      mode := .commit
      seq := 1
      txSig := Bytes.fill 64 0
      txHash := Bytes.hex 32
        0x4afb17ee68dc6f68c216b72840a2ebe178e66a78a826cd6600c4bd488c8789d2
      recentBlockhash := Bytes.fill 32 0x88
      prevReceiptHash := Bytes.hex 32
        0xd044380c8148b28fe02344b8a682a0410add18432a314bdf97b2bfda75cad9c5
      committer := Bytes.fill 32 0x55
      ingressSlot := 6150403
      tIngressMicros := 1754300123506789 }
  signature := Bytes.hex 64
    0x8bee60f971494906c721841c57123a2f3ae72a1fb9944591abd6627d985aefc4221a518c59238ccbe8dcb18b8781676674a4e084f5505ba7470893a0e3713c0b

def retractOfPlainGenesis : SignedReceipt where
  receipt :=
    { logId := logId
      mode := .retract
      seq := 2
      txSig := Bytes.fill 64 0x11
      txHash := Bytes.hex 32
        0xd044380c8148b28fe02344b8a682a0410add18432a314bdf97b2bfda75cad9c5
      recentBlockhash := Bytes.fill 32 0
      prevReceiptHash := Bytes.hex 32
        0xec4e6fc479c7caed3ec60b7c95b5b4b8727456ef7b0f43ad35167304ca643577
      committer := Bytes.fill 32 0
      ingressSlot := 6150404
      tIngressMicros := 1754300123556789 }
  signature := Bytes.hex 64
    0xb26bc4b617e732769eaafb9fbad19544dc6f86efdf4ad60bf0b08255283f2ed6e4077efca6b44e40634895fb8a5cfa0f117a55041685e376eb792ca3c4654504

/-- The same statement as `plainGenesis`, signed with another nonce. -/
def plainGenesisResigned : SignedReceipt where
  receipt := plainGenesis.receipt
  signature := Bytes.hex 64
    0xeb21f0883a825bf813ba73af18ae6b4d0db51b55f3c85485072eaebd08a7a625c4df7e41f50e66ac2943c75df2fbd85f5b949c6333d59fee71b2bca53c08390c

/-- A second statement for the position of `plainGenesis`. -/
def plainRival : SignedReceipt where
  receipt :=
    { plainGenesis.receipt with
      txSig := Bytes.fill 64 0x12
      txHash := Bytes.hex 32
        0xe7dcb0192bc7405d1cb87093a7523b027646b641b2e981a4dcfcdbb6cddc2da2
      tIngressMicros := 1754300123456790 }
  signature := Bytes.hex 64
    0xa1b960462d6af7bafa33cbaab161186773dc129dda7142d15ed9a981300d19eed03143ee65b88370fc4b4292d5207becd57b63c55baa2b9d08a71d4f42ebe60a

/-- The rival statement under the reserved mode. -/
def revealRival : SignedReceipt where
  receipt := { plainRival.receipt with mode := .reveal }
  signature := Bytes.hex 64
    0x710d7ee489bc624b5f7359738ae11070e12fc09e86dcf4595d38d575a650a6d3b6cffd4e48c9cf98340de14a5a78ef8bc5b3446051615323ffa89901a5fd5909

/-- The first receipt of a later run, which has its own log id. -/
def plainRestart : SignedReceipt where
  receipt :=
    { plainRival.receipt with
      logId := Bytes.fill 32 0x9d
      txSig := Bytes.fill 64 0x13
      ingressSlot := 6150500
      tIngressMicros := 1754300133456789 }
  signature := Bytes.hex 64
    0x06a63c63845bd9bcafd4c55d98254ed146074c9b9f2fbe7e7757b071abe61f9d8a94355982800ae9a089e1605dadcbd2e5606833c9f74e382afb9a8b239ecd04

def log : List SignedReceipt := [plainGenesis, commitChained, retractOfPlainGenesis]

/-- The receipt hashes the vectors publish for the three entries. -/
def hashes : List (Bytes 32) :=
  [Bytes.hex 32
      0xd044380c8148b28fe02344b8a682a0410add18432a314bdf97b2bfda75cad9c5,
    Bytes.hex 32
      0xec4e6fc479c7caed3ec60b7c95b5b4b8727456ef7b0f43ad35167304ca643577,
    Bytes.hex 32
      0xa7cfe519b2af117f51da8ac3c03f30ce0f8d4fc37cce324d3a604d9b11b890c5]

def crypto : Crypto :=
  recorded operatorSeed operatorPubkey
    ((log ++ [plainGenesisResigned, plainRival, revealRival, plainRestart]).map
      fun s => (s.message, s.signature))
    ((log.map SignedReceipt.toBytes).zip hashes) []

end Vectors

end Blitz.Receipts
