import Blitz.ReceiptTickets

/-! The two columns of the store, receipts by position and positions by signature: what a
turn of the writer does to them, and what they say about the turns so far. -/
namespace Blitz.Validator
open LittleEndian Receipts CheckedArith Traces

def Returned (c : Crypto) (h : List (Entry Node Turn)) (s : SignedReceipt) : Prop :=
  ∃ x ∈ h, (x.before.handle c x.event).2 = .issued (.ok s)

/-- The receipt is about the transaction with this signature: it names the signature, or
it is a ticket for contents that were revealed under it. -/
def IssuedFor (h : List (Entry Node Turn)) (s : SignedReceipt) (txSig : Bytes 64) : Prop :=
  (s.receipt.mode = .plain ∧ s.receipt.txSig = txSig) ∨
    (s.receipt.mode = .commit ∧ ∃ x ∈ h, x.event.command = .reveal s.receipt.txHash txSig)

/-- The index with the row a write adds to it. -/
def indexedBy (m : Std.TreeMap (Bytes 64) (List UInt8) compareBytes) (seq : UInt64) :
    Option (Bytes 64) → Std.TreeMap (Bytes 64) (List UInt8) compareBytes
  | none => m
  | some txSig => m.insert txSig (ReceiptLedger.seqBytes seq)

/-- What a receipt says it is about, with the signature it is filed under. -/
inductive About (w : Writer) (t : Turn) (s : SignedReceipt) :
    Option (Bytes 64) → PendingCommits → Prop
  | plain (txSig : Bytes 64) (wireBytes : List UInt8) (recentBlockhash : Bytes 32)
      (command : t.command = .stamp txSig wireBytes recentBlockhash)
      (mode : s.receipt.mode = .plain) (names : s.receipt.txSig = txSig) :
      About w t s (some txSig) w.pending
  | ticket (hash committer : Bytes 32) (command : t.command = .commit hash committer)
      (mode : s.receipt.mode = .commit) (names : s.receipt.txHash = hash) :
      About w t s none (w.pending.record w.seq hash committer t.slot)

/-- The ways a turn can end, by what it leaves in the store. -/
inductive Stored (c : Crypto) (n : Node) (w : Writer) (t : Turn) : Node → Reply → Prop
  /-- Nothing was written that a reader could find under a position or a signature. -/
  | untouched {n' : Node} {reply : Reply} (w' : Writer) (writer : n'.writer = some w')
      (seq : w'.seq = w.seq) (honest : w'.equivocation = w.equivocation)
      (held : ∀ hash entry, w'.pending.held hash = some entry → w.pending.held hash = some entry)
      (stored : n'.ledger.stored = n.ledger.stored)
      (bySig : n'.ledger.receiptBySig = n.ledger.receiptBySig)
      (answer : ∀ s, reply ≠ .issued (.ok s)) : Stored c n w t n' reply
  /-- A receipt was written whose index row failed. -/
  | dangling {n' : Node} (e : StampError) (s : SignedReceipt) (signature : Option (Bytes 64))
      (pending : PendingCommits) (next : Next c w s) (about : About w t s signature pending)
      (w' : Writer) (writer : n'.writer = some w') (seq : w'.seq = w.seq)
      (honest : w'.equivocation = w.equivocation) (held : w'.pending.held = w.pending.held)
      (stored : n'.ledger.stored = Function.update n.ledger.stored w.seq (some s.toBytes))
      (bySig : n'.ledger.receiptBySig = n.ledger.receiptBySig) :
      Stored c n w t n' (.issued (.error e))
  | written {n' : Node} (s : SignedReceipt) (signature : Option (Bytes 64))
      (pending : PendingCommits) (next : Next c w s) (about : About w t s signature pending)
      (w' : Writer) (writer : n'.writer = some w') (seq : w'.seq.toNat = w.seq.toNat + 1)
      (honest : w'.equivocation = w.equivocation) (held : w'.pending = pending)
      (stored : n'.ledger.stored = Function.update n.ledger.stored w.seq (some s.toBytes))
      (bySig : n'.ledger.receiptBySig = indexedBy n.ledger.receiptBySig w.seq signature) :
      Stored c n w t n' (.issued (.ok s))
  | panicked {n' : Node} (s : SignedReceipt) (signature : Option (Bytes 64))
      (pending : PendingCommits) (next : Next c w s) (about : About w t s signature pending)
      (writer : n'.writer = none)
      (stored : n'.ledger.stored = Function.update n.ledger.stored w.seq (some s.toBytes))
      (bySig : n'.ledger.receiptBySig = indexedBy n.ledger.receiptBySig w.seq signature) :
      Stored c n w t n' (.issued (.error .writerGone))
  /-- A ticket became reachable by the signature of its transaction. -/
  | revealed {n' : Node} {reply : Reply} (hash : Bytes 32) (txSig : Bytes 64)
      (entry : UInt64 × PendingCommit) (command : t.command = .reveal hash txSig)
      (claimed : w.pending.held hash = some entry) (w' : Writer) (writer : n'.writer = some w')
      (seq : w'.seq = w.seq) (honest : w'.equivocation = w.equivocation)
      (held : w'.pending.held = Function.update w.pending.held hash none)
      (stored : n'.ledger.stored = n.ledger.stored)
      (bySig : n'.ledger.receiptBySig =
        indexedBy n.ledger.receiptBySig entry.1 (some txSig))
      (answer : ∀ s, reply ≠ .issued (.ok s)) : Stored c n w t n' reply

section Turns
variable {c : Crypto} {n : Node} {w : Writer} {t : Turn} {s : SignedReceipt}

lemma stored_persist (w₁ : Writer) (hseq : w₁.seq = w.seq) (hhonest : w₁.equivocation = w.equivocation)
    (hnext : Next c w s) {signature : Option (Bytes 64)}
    (habout : About w t s signature w₁.pending) :
    Stored c n w t (n.answer w (w₁.persist c n.ledger t signature s s)).1
      (n.answer w (w₁.persist c n.ledger t signature s s)).2 := by
  unfold Writer.persist ReceiptLedger.writeReceipt
  rw [hseq]
  cases hput : n.ledger.putBySeq (t.disk 0) w.seq (Outcome.pending.asU8 :: s.toBytes) with
  | error e => exact .untouched _ rfl rfl rfl (fun _ _ hh => hh) rfl rfl (by simp [Node.answer])
  | ok l₁ =>
    obtain ⟨_, hstored⟩ := ReceiptLedger.stored_putBySeq hput
    have hsame : l₁.receiptBySig = n.ledger.receiptBySig := by
      unfold ReceiptLedger.putBySeq at hput
      cases hd : t.disk 0 with
      | some e =>
        rw [hd] at hput
        cases hput
      | none =>
        rw [hd] at hput
        rw [← Except.ok.inj hput]
    -- Once both puts went through only the counter can still stop the writer.
    have hboth (l : ReceiptLedger) (hl : l.stored = l₁.stored)
        (hsig : l.receiptBySig = indexedBy n.ledger.receiptBySig w.seq signature) :
        Stored c n w t (n.answer w (l, w₁.advance c s s)).1 (n.answer w (l, w₁.advance c s s)).2 := by
      rw [hstored] at hl
      unfold Writer.advance
      rw [hseq]
      cases hadd : checkedAdd w.seq 1 with
      | none => exact .panicked s signature _ hnext habout rfl hl hsig
      | some seq =>
        exact .written s signature _ hnext habout _ rfl (checkedAdd_eq_some.mp hadd) hhonest rfl hl
          hsig
    cases signature with
    | none => exact hboth l₁ rfl hsame
    | some txSig =>
      dsimp only
      cases hdisk : t.disk 1 with
      | some e =>
        exact .dangling _ s _ _ hnext habout _ rfl rfl rfl rfl hstored hsame
      | none =>
        exact hboth _ rfl (by simp only [indexedBy, hsame])

lemma bySig_setReceiptOutcome {l : ReceiptLedger} {disk : Disk} {seq : UInt64} {outcome : UInt8} :
    (l.setReceiptOutcome disk seq outcome).1.receiptBySig = l.receiptBySig := by
  unfold ReceiptLedger.setReceiptOutcome ReceiptLedger.putBySeq
  split <;> try rfl
  cases disk 1 <;> rfl

lemma bySig_markExpired {disk : Disk} (l : ReceiptLedger)
    (expired : List (UInt64 × PendingCommit)) :
    (Writer.markExpired disk l expired).receiptBySig = l.receiptBySig := by
  apply markExpired_keeps (P := fun l' => l'.receiptBySig = l.receiptBySig) _ rfl
  intro l' disk seq h
  rw [bySig_setReceiptOutcome, h]

theorem handle_stored (hw : n.writer = some w) (hoff : w.equivocation = false) :
    Stored c n w t (n.handle c t).1 (n.handle c t).2 := by
  have hrefused (e : StampError) : Stored c n w t (n.answer w (n.ledger, .refused e)).1
      (n.answer w (n.ledger, .refused e)).2 :=
    .untouched _ rfl rfl rfl (fun _ _ hh => hh) rfl rfl (by simp [Node.answer])
  unfold Node.handle
  rw [hw]
  cases hcommand : t.command with
  | stamp txSig wireBytes recentBlockhash =>
    dsimp only [Writer.stamp]
    cases hsign : (w.plainReceipt c t txSig wireBytes recentBlockhash).sign c w.key with
    | error e => exact hrefused _
    | ok signed =>
      obtain ⟨_, hsigned⟩ := Receipt.sign_eq_ok.mp hsign
      simp only [Writer.publish, hoff]
      exact stored_persist w rfl rfl (next_of_sign hsign rfl rfl rfl)
        (.plain txSig wireBytes recentBlockhash hcommand (by rw [hsigned]; rfl)
          (by rw [hsigned]; rfl))
  | commit hash committer =>
    dsimp only [Writer.commit]
    split_ifs with hmany
    · exact hrefused _
    · cases hsign : (w.ticket t hash committer).sign c w.key with
      | error e => exact hrefused _
      | ok signed =>
        obtain ⟨_, hsigned⟩ := Receipt.sign_eq_ok.mp hsign
        have habout : About w t signed none (w.pending.record w.seq hash committer t.slot) :=
          .ticket hash committer hcommand (by rw [hsigned]; rfl) (by rw [hsigned]; rfl)
        have hnext : Next c w signed := next_of_sign hsign rfl rfl rfl
        exact stored_persist (w := w)
          { w with pending := w.pending.record w.seq hash committer t.slot } rfl rfl hnext habout
  | reveal hash txSig =>
    have hheld := PendingCommits.held_claim w.pending hash
    have hclaim : w.pending.claim hash = (w.pending.held hash, (w.pending.claim hash).2) := rfl
    dsimp only [Writer.reveal]
    rw [hclaim]
    cases hh : w.pending.held hash with
    | none => exact .untouched w rfl rfl rfl (fun _ _ hh => hh) rfl rfl (by simp)
    | some entry =>
      dsimp only [ReceiptLedger.indexReceiptSignature, ReceiptLedger.putBySig]
      cases hdisk : t.disk 0 with
      | some e =>
        refine .untouched _ rfl rfl rfl ?_ rfl rfl (by simp)
        intro other found hfound
        rw [hheld] at hfound
        exact PendingCommits.held_of_update_none hfound
      | none =>
        exact .revealed hash txSig entry hcommand hh _ rfl rfl rfl hheld rfl rfl (by simp)
  | recordOutcome seq outcome =>
    exact .untouched w rfl rfl rfl (fun _ _ hh => hh) ReceiptLedger.stored_setReceiptOutcome
      bySig_setReceiptOutcome (by simp)
  | sweep =>
    exact .untouched _ rfl rfl rfl (fun _ _ hh => (PendingCommits.held_expire.mp hh).1)
      (stored_markExpired _ _ _) (bySig_markExpired _ _) (by simp)

end Turns

/-- The row at the receipt's position holds the receipt, and a reader can decode it. -/
structure Holds (l : ReceiptLedger) (s : SignedReceipt) : Prop where
  valid : s.receipt.validate = .ok ()
  row : l.stored s.receipt.seq = some s.toBytes

/-- Everything returned is held, and the index leads to receipts about its signatures. -/
structure Faithful (c : Crypto) (h : List (Entry Node Turn)) (l : ReceiptLedger) : Prop where
  returned : ∀ s, Returned c h s → Holds l s
  index : ∀ txSig bytes, l.receiptBySig[txSig]? = some bytes →
    ∃ s, bytes = ReceiptLedger.seqBytes s.receipt.seq ∧ Holds l s ∧ IssuedFor h s txSig

/-- A store that a running writer has filled from empty: all that counts lies below the
writer's position. -/
structure Filling (c : Crypto) (h : List (Entry Node Turn)) (n : Node) (w : Writer) : Prop where
  honest : w.equivocation = false
  returned : ∀ s, Returned c h s → Holds n.ledger s ∧ s.receipt.seq.toNat < w.seq.toNat
  index : ∀ txSig bytes, n.ledger.receiptBySig[txSig]? = some bytes →
    ∃ s, bytes = ReceiptLedger.seqBytes s.receipt.seq ∧ Holds n.ledger s ∧
      s.receipt.seq.toNat < w.seq.toNat ∧ IssuedFor h s txSig
  table : ∀ hash entry, w.pending.held hash = some entry →
    ∃ s, s.receipt.seq = entry.1 ∧ Holds n.ledger s ∧ s.receipt.seq.toNat < w.seq.toNat ∧
      s.receipt.mode = .commit ∧ s.receipt.txHash = hash

section Steps
variable {c : Crypto} {h : List (Entry Node Turn)} {n n' : Node} {w w' : Writer} {x : Entry Node Turn}
  {s : SignedReceipt} {txSig : Bytes 64} {l : ReceiptLedger}

lemma Filling.faithful (hf : Filling c h n w) : Faithful c h n.ledger where
  returned s hs := (hf.returned s hs).1
  index txSig bytes hb := by
    obtain ⟨s, hbytes, hholds, _, hissued⟩ := hf.index txSig bytes hb
    exact ⟨s, hbytes, hholds, hissued⟩

lemma IssuedFor.mono (hissued : IssuedFor h s txSig) (x : Entry Node Turn) :
    IssuedFor (h ++ [x]) s txSig := by
  rcases hissued with hplain | ⟨hmode, y, hy, hcommand⟩
  · exact Or.inl hplain
  · exact Or.inr ⟨hmode, y, List.mem_append_left _ hy, hcommand⟩

lemma returned_concat :
    Returned c (h ++ [x]) s ↔
      Returned c h s ∨ (x.before.handle c x.event).2 = .issued (.ok s) := by
  simp [Returned, or_and_right, exists_or]

lemma Holds.of_stored (hs : Holds l s) {l' : ReceiptLedger} (hstored : l'.stored = l.stored) :
    Holds l' s := ⟨hs.valid, by rw [hstored]; exact hs.row⟩

lemma Holds.update (hs : Holds l s) {l' : ReceiptLedger} {seq : UInt64} {receipt : List UInt8}
    (hstored : l'.stored = Function.update l.stored seq (some receipt))
    (hlt : s.receipt.seq.toNat < seq.toNat) : Holds l' s := by
  refine ⟨hs.valid, ?_⟩
  have hne : s.receipt.seq ≠ seq := by
    intro he
    rw [he] at hlt
    exact lt_irrefl _ hlt
  rw [hstored, Function.update_of_ne hne]
  exact hs.row

lemma Next.holds (hnext : Next c w s) {l' : ReceiptLedger}
    (hstored : l'.stored = Function.update l.stored w.seq (some s.toBytes)) : Holds l' s := by
  refine ⟨(SignedReceipt.verify_eq_ok.mp hnext.verified).1, ?_⟩
  rw [hstored, hnext.seq, Function.update_self]

lemma Filling.untouched (hf : Filling c h n w)
    (hno : ∀ s, (x.before.handle c x.event).2 ≠ .issued (.ok s)) (seq : w'.seq = w.seq)
    (honest : w'.equivocation = w.equivocation)
    (held : ∀ hash entry, w'.pending.held hash = some entry → w.pending.held hash = some entry)
    (stored : n'.ledger.stored = n.ledger.stored)
    (index : ∀ txSig bytes, n'.ledger.receiptBySig[txSig]? = some bytes →
      n.ledger.receiptBySig[txSig]? = some bytes ∨
        ∃ s, bytes = ReceiptLedger.seqBytes s.receipt.seq ∧ Holds n.ledger s ∧
          s.receipt.seq.toNat < w.seq.toNat ∧ IssuedFor (h ++ [x]) s txSig) :
    Filling c (h ++ [x]) n' w' where
  honest := honest.trans hf.honest
  returned s hs := by
    rw [seq]
    rcases returned_concat.mp hs with hold | hnew
    · obtain ⟨hholds, hlt⟩ := hf.returned s hold
      exact ⟨hholds.of_stored stored, hlt⟩
    · exact absurd hnew (hno s)
  index txSig bytes hb := by
    rw [seq]
    rcases index txSig bytes hb with hold | ⟨s, hbytes, hholds, hlt, hissued⟩
    · obtain ⟨s, hbytes, hholds, hlt, hissued⟩ := hf.index txSig bytes hold
      exact ⟨s, hbytes, hholds.of_stored stored, hlt, hissued.mono x⟩
    · exact ⟨s, hbytes, hholds.of_stored stored, hlt, hissued⟩
  table hash entry hh := by
    rw [seq]
    obtain ⟨s, hseq, hholds, hlt, habout⟩ := hf.table hash entry (held hash entry hh)
    exact ⟨s, hseq, hholds.of_stored stored, hlt, habout⟩

lemma Filling.dangling (hf : Filling c h n w)
    (hno : ∀ s, (x.before.handle c x.event).2 ≠ .issued (.ok s)) (seq : w'.seq = w.seq)
    (honest : w'.equivocation = w.equivocation) (held : w'.pending.held = w.pending.held)
    {receipt : List UInt8}
    (stored : n'.ledger.stored = Function.update n.ledger.stored w.seq (some receipt))
    (bySig : n'.ledger.receiptBySig = n.ledger.receiptBySig) : Filling c (h ++ [x]) n' w' where
  honest := honest.trans hf.honest
  returned s hs := by
    rw [seq]
    rcases returned_concat.mp hs with hold | hnew
    · obtain ⟨hholds, hlt⟩ := hf.returned s hold
      exact ⟨hholds.update stored hlt, hlt⟩
    · exact absurd hnew (hno s)
  index txSig bytes hb := by
    rw [seq]
    rw [bySig] at hb
    obtain ⟨s, hbytes, hholds, hlt, hissued⟩ := hf.index txSig bytes hb
    exact ⟨s, hbytes, hholds.update stored hlt, hlt, hissued.mono x⟩
  table hash entry hh := by
    rw [seq]
    rw [held] at hh
    obtain ⟨s, hseq, hholds, hlt, habout⟩ := hf.table hash entry hh
    exact ⟨s, hseq, hholds.update stored hlt, hlt, habout⟩

lemma indexedBy_cases {m : Std.TreeMap (Bytes 64) (List UInt8) compareBytes} {seq : UInt64}
    {signature : Option (Bytes 64)} {bytes : List UInt8}
    (hb : (indexedBy m seq signature)[txSig]? = some bytes) :
    m[txSig]? = some bytes ∨ (signature = some txSig ∧ bytes = ReceiptLedger.seqBytes seq) := by
  cases signature with
  | none => exact Or.inl hb
  | some signature =>
    rw [indexedBy, Std.TreeMap.getElem?_insert] at hb
    split_ifs at hb with he
    · obtain rfl := Std.LawfulEqCmp.eq_of_compare he
      exact Or.inr ⟨rfl, (Option.some.inj hb).symm⟩
    · exact Or.inl hb

lemma Filling.index_written (hf : Filling c h n w) {signature : Option (Bytes 64)}
    {pending : PendingCommits} {t : Turn} (hnext : Next c w s) (habout : About w t s signature pending)
    (stored : n'.ledger.stored = Function.update n.ledger.stored w.seq (some s.toBytes))
    (bySig : n'.ledger.receiptBySig = indexedBy n.ledger.receiptBySig w.seq signature)
    {bytes : List UInt8} (hb : n'.ledger.receiptBySig[txSig]? = some bytes) :
    ∃ a, bytes = ReceiptLedger.seqBytes a.receipt.seq ∧ Holds n'.ledger a ∧
      a.receipt.seq.toNat ≤ w.seq.toNat ∧ IssuedFor (h ++ [x]) a txSig := by
  rw [bySig] at hb
  rcases indexedBy_cases hb with hold | ⟨hsignature, rfl⟩
  · obtain ⟨a, hbytes, hholds, hlt, hissued⟩ := hf.index txSig bytes hold
    exact ⟨a, hbytes, hholds.update stored hlt, hlt.le, hissued.mono x⟩
  · refine ⟨s, by rw [hnext.seq], hnext.holds stored, by rw [hnext.seq], ?_⟩
    cases habout with
    | plain _ _ _ _ mode names => exact Or.inl ⟨mode, names.trans (Option.some.inj hsignature)⟩
    | ticket _ _ _ _ _ => cases hsignature

lemma Filling.written (hf : Filling c h n w) {signature : Option (Bytes 64)}
    {pending : PendingCommits} {t : Turn} (hnext : Next c w s) (habout : About w t s signature pending)
    (hreply : (x.before.handle c x.event).2 = .issued (.ok s))
    (seq : w'.seq.toNat = w.seq.toNat + 1) (honest : w'.equivocation = w.equivocation)
    (held : w'.pending = pending)
    (stored : n'.ledger.stored = Function.update n.ledger.stored w.seq (some s.toBytes))
    (bySig : n'.ledger.receiptBySig = indexedBy n.ledger.receiptBySig w.seq signature) :
    Filling c (h ++ [x]) n' w' where
  honest := honest.trans hf.honest
  returned a ha := by
    rw [seq]
    rcases returned_concat.mp ha with hold | hnew
    · obtain ⟨hholds, hlt⟩ := hf.returned a hold
      exact ⟨hholds.update stored hlt, by omega⟩
    · rw [hreply] at hnew
      obtain rfl : s = a := by simpa using hnew
      exact ⟨hnext.holds stored, by rw [hnext.seq]; omega⟩
  index txSig bytes hb := by
    rw [seq]
    obtain ⟨a, hbytes, hholds, hle, hissued⟩ := hf.index_written hnext habout stored bySig hb
    exact ⟨a, hbytes, hholds, by omega, hissued⟩
  table hash entry hh := by
    rw [seq]
    have hold (hh : w.pending.held hash = some entry) :
        ∃ a, a.receipt.seq = entry.1 ∧ Holds n'.ledger a ∧
          a.receipt.seq.toNat < w.seq.toNat + 1 ∧ a.receipt.mode = .commit ∧
          a.receipt.txHash = hash := by
      obtain ⟨a, hseq, hholds, hlt, htable⟩ := hf.table hash entry hh
      exact ⟨a, hseq, hholds.update stored hlt, by omega, htable⟩
    rw [held] at hh
    cases habout with
    | plain _ _ _ _ _ _ => exact hold hh
    | ticket other committer _ mode names =>
      rw [PendingCommits.held_record] at hh
      by_cases he : hash = other
      · rw [he, Function.update_self] at hh
        obtain rfl := Option.some.inj hh
        exact ⟨s, hnext.seq, hnext.holds stored, by rw [hnext.seq]; omega, mode, names.trans he.symm⟩
      · rw [Function.update_of_ne he] at hh
        exact hold hh

lemma Filling.panicked (hf : Filling c h n w) {signature : Option (Bytes 64)}
    {pending : PendingCommits} {t : Turn} (hnext : Next c w s) (habout : About w t s signature pending)
    (hno : ∀ a, (x.before.handle c x.event).2 ≠ .issued (.ok a))
    (stored : n'.ledger.stored = Function.update n.ledger.stored w.seq (some s.toBytes))
    (bySig : n'.ledger.receiptBySig = indexedBy n.ledger.receiptBySig w.seq signature) :
    Faithful c (h ++ [x]) n'.ledger where
  returned a ha := by
  -- The row is written, and then the writer is gone.
    rcases returned_concat.mp ha with hold | hnew
    · obtain ⟨hholds, hlt⟩ := hf.returned a hold
      exact hholds.update stored hlt
    · exact absurd hnew (hno a)
  index txSig bytes hb := by
    obtain ⟨a, hbytes, hholds, _, hissued⟩ := hf.index_written hnext habout stored bySig hb
    exact ⟨a, hbytes, hholds, hissued⟩

lemma Filling.revealed (hf : Filling c h n w) {hash : Bytes 32} {entry : UInt64 × PendingCommit}
    (hno : ∀ a, (x.before.handle c x.event).2 ≠ .issued (.ok a))
    (command : x.event.command = .reveal hash txSig) (claimed : w.pending.held hash = some entry)
    (seq : w'.seq = w.seq) (honest : w'.equivocation = w.equivocation)
    (held : w'.pending.held = Function.update w.pending.held hash none)
    (stored : n'.ledger.stored = n.ledger.stored)
    (bySig : n'.ledger.receiptBySig = indexedBy n.ledger.receiptBySig entry.1 (some txSig)) :
    Filling c (h ++ [x]) n' w' := by
  refine hf.untouched hno seq honest ?_ stored ?_
  · intro other found hfound
    rw [held] at hfound
    exact PendingCommits.held_of_update_none hfound
  · intro other bytes hb
    rw [bySig] at hb
    rcases indexedBy_cases hb with hold | ⟨hsignature, rfl⟩
    · exact Or.inl hold
    · obtain ⟨s, hseq, hholds, hlt, mode, names⟩ := hf.table hash entry claimed
      obtain rfl := Option.some.inj hsignature
      refine Or.inr ⟨s, by rw [hseq], hholds, hlt, Or.inr ⟨mode, x, by simp, ?_⟩⟩
      rw [names]
      exact command

theorem Filling.handle (hf : Filling c h n w) (hw : n.writer = some w) (t : Turn) :
    Faithful c (h ++ [⟨n, t, (n.handle c t).1⟩]) (n.handle c t).1.ledger ∧
      ∀ w', (n.handle c t).1.writer = some w' →
        Filling c (h ++ [⟨n, t, (n.handle c t).1⟩]) (n.handle c t).1 w' := by
  have hturn := handle_stored (c := c) (t := t) hw hf.honest
  -- While the writer runs the stronger statement is enough.
  have hboth {n' : Node} {w₁ : Writer} (hw₁ : n'.writer = some w₁)
      (hfill : Filling c (h ++ [⟨n, t, (n.handle c t).1⟩]) n' w₁) :
      Faithful c (h ++ [⟨n, t, (n.handle c t).1⟩]) n'.ledger ∧
        ∀ w', n'.writer = some w' → Filling c (h ++ [⟨n, t, (n.handle c t).1⟩]) n' w' := by
    refine ⟨hfill.faithful, ?_⟩
    intro w' hw'
    rwa [← Option.some.inj (hw₁.symm.trans hw')]
  generalize hx : (⟨n, t, (n.handle c t).1⟩ : Entry Node Turn) = x at *
  have hreply : (x.before.handle c x.event).2 = (n.handle c t).2 := by rw [← hx]
  generalize (n.handle c t).1 = n' at hturn ⊢
  generalize hr : (n.handle c t).2 = reply at hturn hreply
  cases hturn with
  | untouched w₁ writer seq honest held stored bySig answer =>
    refine hboth writer (hf.untouched (by rwa [hreply]) seq honest held stored ?_)
    intro txSig bytes hb
    rw [bySig] at hb
    exact Or.inl hb
  | dangling e s signature pending next about w₁ writer seq honest held stored bySig =>
    exact hboth writer (hf.dangling (by simp [hreply]) seq honest held stored bySig)
  | written s signature pending next about w₁ writer seq honest held stored bySig =>
    exact hboth writer (hf.written next about hreply seq honest held stored bySig)
  | panicked s signature pending next about writer stored bySig =>
    refine ⟨hf.panicked next about (by simp [hreply]) stored bySig, ?_⟩
    intro w' hw'
    rw [writer] at hw'
    cases hw'
  | revealed hash txSig entry command claimed w₁ writer seq honest held stored bySig answer =>
    refine hboth writer (hf.revealed (by rwa [hreply]) ?_ claimed seq honest held stored bySig)
    rw [← hx]
    exact command

lemma Faithful.quiet (hf : Faithful c h l)
    (hno : ∀ s, (x.before.handle c x.event).2 ≠ .issued (.ok s)) {l' : ReceiptLedger}
    (stored : l'.stored = l.stored) (bySig : l'.receiptBySig = l.receiptBySig) :
    Faithful c (h ++ [x]) l' where
  returned s hs := by
    rcases returned_concat.mp hs with hold | hnew
    · exact (hf.returned s hold).of_stored stored
    · exact absurd hnew (hno s)
  index txSig bytes hb := by
    rw [bySig] at hb
    obtain ⟨s, hbytes, hholds, hissued⟩ := hf.index txSig bytes hb
    exact ⟨s, hbytes, hholds.of_stored stored, hissued.mono x⟩

lemma Faithful.gone (hf : Faithful c h n.ledger) (hw : n.writer = none) (t : Turn) :
    Faithful c (h ++ [⟨n, t, (n.handle c t).1⟩]) (n.handle c t).1.ledger ∧
      (n.handle c t).1.writer = none := by
  have hsame : n.handle c t = (n, Node.unanswered t.command) := by rw [Node.handle, hw]
  rw [hsame]
  refine ⟨hf.quiet ?_ rfl rfl, hw⟩
  intro s hs
  dsimp only at hs
  rw [hsame] at hs
  cases hc : t.command <;> rw [hc] at hs <;> cases hs

/-- The commands that issue receipts. -/
def WriterCommand.Issues : WriterCommand → Prop
  | .stamp _ _ _ => True
  | .commit _ _ => True
  | _ => False

lemma About.issues {t : Turn} {signature : Option (Bytes 64)} {pending : PendingCommits}
    (h : About w t s signature pending) : t.command.Issues := by
  cases h with
  | plain _ _ _ command _ _ =>
    rw [command]
    trivial
  | ticket _ _ command _ _ =>
    rw [command]
    trivial

lemma handle_quiet (hw : n.writer = some w) (hoff : w.equivocation = false)
    (hempty : ∀ hash, w.pending.held hash = none) {t : Turn} (hquiet : ¬t.command.Issues) :
    (n.handle c t).1.ledger.stored = n.ledger.stored ∧
      (n.handle c t).1.ledger.receiptBySig = n.ledger.receiptBySig ∧
      (∀ s, (n.handle c t).2 ≠ .issued (.ok s)) ∧
      ∃ w', (n.handle c t).1.writer = some w' ∧ w'.equivocation = false ∧
        ∀ hash, w'.pending.held hash = none := by
  have hturn := handle_stored (c := c) (t := t) hw hoff
  generalize (n.handle c t).1 = n' at hturn ⊢
  generalize (n.handle c t).2 = reply at hturn ⊢
  cases hturn with
  | untouched w' writer seq honest held stored bySig answer =>
    refine ⟨stored, bySig, answer, w', writer, honest.trans hoff, ?_⟩
    intro hash
    rw [Option.eq_none_iff_forall_ne_some]
    intro entry hh
    have hfound := held hash entry hh
    rw [hempty] at hfound
    cases hfound
  | dangling _ _ _ _ _ about => exact absurd about.issues hquiet
  | written _ _ _ _ about => exact absurd about.issues hquiet
  | panicked _ _ _ _ about => exact absurd about.issues hquiet
  | revealed hash _ _ _ claimed =>
    rw [hempty] at claimed
    cases claimed

end Steps

end Blitz.Validator
