import Blitz.AppAccounts
import Blitz.ConvictionAddress
import Blitz.CourtEvidence

/-! The evidence instruction as the web client lays it out, against the court client's
and against the program that reads it back. -/
namespace Blitz.App
open ByteLayout LittleEndian CheckedArith Receipts

/-- A receipt, as far as the evidence depends on it. -/
structure SignedMessage extends Receipt where
  signature : List UInt8

/-- A two-byte store into a view, little endian, of a number taken modulo its range. -/
def setUint16 (data : List UInt8) (off value : ℕ) : Except ViewError (List UInt8) :=
  if off + 2 ≤ data.length then .ok (copyAt data off (u16Bytes (UInt16.ofNat value)))
  else .error .rangeError

/-- `set` of an array: it has to fit. -/
def setBytes (data payload : List UInt8) (off : ℕ) : Except ViewError (List UInt8) :=
  if off + payload.length ≤ data.length then .ok (copyAt data off payload)
  else .error .rangeError

def headerLen : ℕ := 2
def offsetsLen : ℕ := 14
def thisInstruction : ℕ := 0xffff
def payloadStart : ℕ := headerLen + 2 * offsetsLen

/-- One turn of the loop over the two receipts. -/
def pushEntry (signingKey : List UInt8) (state : List ℕ × List UInt8) (receipt : SignedMessage) :
    List ℕ × List UInt8 :=
  let (entries, payload) := state
  let signatureAt := payloadStart + payload.length
  let payload := payload ++ receipt.signature
  let keyAt := payloadStart + payload.length
  let payload := payload ++ signingKey
  let messageAt := payloadStart + payload.length
  let payload := payload ++ receipt.message
  (entries ++ [signatureAt, thisInstruction, keyAt, thisInstruction, messageAt,
    receipt.message.length, thisInstruction], payload)

/-- A zeroed array, filled in by stores: the count, the table of offsets, the payload. -/
def layOut (entries : List ℕ) (payload : List UInt8) : Except ViewError (List UInt8) := do
  let data := List.replicate (payloadStart + payload.length) 0
  let data := copyAt data 0 [2]
  let data ← entries.zipIdx.foldlM
    (fun data entry => setUint16 data (headerLen + entry.2 * 2) entry.1) data
  setBytes data payload payloadStart

/-- The data of the instruction addressed to the ed25519 program. -/
def verifyTwo (signingKey : List UInt8) (a b : SignedMessage) : Except ViewError (List UInt8) :=
  let (entries, payload) := [a, b].foldl (pushEntry signingKey) ([], [])
  layOut entries payload

/-- The receipt a client holds for a signed receipt of the log. -/
def SignedMessage.of (s : Receipts.SignedReceipt) : SignedMessage where
  message := s.message
  signature := s.signature.val

/-- The stores of the loop from index `k` on. -/
def stores (k : ℕ) (entries : List ℕ) : List (Piece UInt8) :=
  (entries.zipIdx k).map fun entry => (headerLen + entry.2 * 2, u16Bytes (UInt16.ofNat entry.1))

lemma stores_cons (k value : ℕ) (entries : List ℕ) :
    stores k (value :: entries) =
      (headerLen + k * 2, u16Bytes (UInt16.ofNat value)) :: stores (k + 1) entries := rfl

lemma foldlM_setUint16 (entries : List ℕ) (k : ℕ) (data : List UInt8)
    (h : headerLen + (k + entries.length) * 2 ≤ data.length) :
    (entries.zipIdx k).foldlM
      (fun data entry => setUint16 data (headerLen + entry.2 * 2) entry.1) data =
        .ok (writeFields data (stores k entries)) := by
  induction entries generalizing k data with
  | nil => rfl
  | cons value entries ih =>
    rw [List.length_cons] at h
    have hstore : setUint16 data (headerLen + k * 2) value =
        .ok (copyAt data (headerLen + k * 2) (u16Bytes (UInt16.ofNat value))) :=
      if_pos (by omega)
    have hlen : (copyAt data (headerLen + k * 2) (u16Bytes (UInt16.ofNat value))).length =
        data.length :=
      copyAt_length (by rw [u16Bytes_length]; omega)
    rw [List.zipIdx_cons, List.foldlM_cons, hstore, stores_cons]
    exact ih (k + 1) _ (by omega)

lemma tiles_stores (entries : List ℕ) (k : ℕ) :
    Tiles (headerLen + k * 2) (stores k entries) := by
  induction entries generalizing k with
  | nil => trivial
  | cons value entries ih =>
    refine ⟨rfl, ?_⟩
    rw [u16Bytes_length, show headerLen + k * 2 + 2 = headerLen + (k + 1) * 2 by ring]
    exact ih (k + 1)

lemma content_stores (entries : List ℕ) (k : ℕ) :
    content (stores k entries) = entries.flatMap fun value => u16Bytes (UInt16.ofNat value) := by
  induction entries generalizing k with
  | nil => rfl
  | cons value entries ih => rw [stores_cons, content_cons, ih, List.flatMap_cons]

lemma layOut_eq {entries : List ℕ} (hlen : entries.length = 14) (payload : List UInt8) :
    layOut entries payload =
      .ok ([2, 0] ++ (entries.flatMap fun value => u16Bytes (UInt16.ofNat value)) ++ payload) := by
  have hstart : payloadStart = 30 := rfl
  have htable : (entries.flatMap fun value => u16Bytes (UInt16.ofNat value)).length = 28 := by
    simp [List.length_flatMap, hlen]
  have hcounted : copyAt (List.replicate (payloadStart + payload.length) (0 : UInt8)) 0 [2] =
      [2, 0] ++ List.replicate (28 + payload.length) 0 := by
    rw [hstart, show 30 + payload.length = 28 + payload.length + 1 + 1 by omega,
      List.replicate_succ, List.replicate_succ]
    rfl
  have hfilled : writeFields ([2, 0] ++ List.replicate (28 + payload.length) 0) (stores 0 entries) =
      [2, 0] ++ (entries.flatMap fun value => u16Bytes (UInt16.ofNat value)) ++
        List.replicate payload.length 0 := by
    rw [writeFields_tiles _ _ _ (tiles_stores entries 0)
      (by rw [content_stores, htable]; simp [headerLen]), content_stores, htable]
    simp [headerLen]
  have hprefix : ([2, 0] ++ (entries.flatMap fun value => u16Bytes (UInt16.ofNat value))).length =
      30 := by
    rw [List.length_append, htable]
    rfl
  have hroom : headerLen + (0 + entries.length) * 2 ≤
      ([2, 0] ++ List.replicate (28 + payload.length) (0 : UInt8)).length := by
    simp only [headerLen, hlen, List.length_append, List.length_cons, List.length_nil,
      List.length_replicate]
    omega
  rw [layOut, hcounted, foldlM_setUint16 entries 0 _ hroom, hfilled]
  change setBytes _ payload payloadStart = _
  have hfits : ([2, 0] ++ (entries.flatMap fun value => u16Bytes (UInt16.ofNat value)) ++
      List.replicate payload.length (0 : UInt8)).length = payloadStart + payload.length := by
    rw [List.length_append, hprefix, List.length_replicate, hstart]
  rw [setBytes, if_pos hfits.ge, copyAt, List.drop_of_length_le hfits.le, List.append_nil, hstart,
    ← hprefix, List.take_left]

theorem verifyTwo_eq_court (signer : Bytes 32) (a b : Receipts.SignedReceipt) :
    verifyTwo signer.val (.of a) (.of b) = .ok (Court.verifyTwo signer a b) := by
  have hlaid : verifyTwo signer.val (.of a) (.of b) = layOut
      (([a, b].map SignedMessage.of).foldl (pushEntry signer.val) ([], [])).1
      (([a, b].map SignedMessage.of).foldl (pushEntry signer.val) ([], [])).2 := rfl
  rw [hlaid, layOut_eq rfl]
  simp [pushEntry, SignedMessage.of, Court.verifyTwo, Court.pushReceipt, payloadStart, headerLen,
    offsetsLen, Court.payloadStart, Court.headerLen, Court.offsetsLen, thisInstruction,
    Court.thisInstruction]

/-- The evidence builders and the reader agree: the program reads the two pairs that were
put in, each entry points at its receipt's signature, and the web client builds the bytes
the court client builds. -/
theorem evidence_read_back (signer : Bytes 32) (a b : Receipts.SignedReceipt) (index : UInt16) :
    Program.verifiedPairs (Court.verifyTwo signer a b) index =
        .ok [⟨signer, a.message⟩, ⟨signer, b.message⟩] ∧
      (∃ offsets, get? (Court.verifyTwo signer a b) Program.headerLen Program.offsetsLen =
          some offsets ∧
        get? (Court.verifyTwo signer a b) (Program.offsetField offsets 0).toNat 64 =
          some a.signature.val) ∧
      (∃ offsets, get? (Court.verifyTwo signer a b) (Program.headerLen + Program.offsetsLen)
          Program.offsetsLen = some offsets ∧
        get? (Court.verifyTwo signer a b) (Program.offsetField offsets 0).toNat 64 =
          some b.signature.val) ∧
      verifyTwo signer.val (.of a) (.of b) = .ok (Court.verifyTwo signer a b) := by
  obtain ⟨hfirst, hsecond⟩ := Court.entryAt_verifyTwo signer a b
  exact ⟨Court.verifiedPairs_verifyTwo index, ⟨_, hfirst.offsets_found, hfirst.signature_found⟩,
    ⟨_, hsecond.offsets_found, hsecond.signature_found⟩, verifyTwo_eq_court signer a b⟩

end Blitz.App
