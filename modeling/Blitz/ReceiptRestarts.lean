import Blitz.ReceiptStore

/-! The receipt log across restarts: every writer starts counting at zero again, over
the two columns that earlier writers have left behind. -/
namespace Blitz.Validator
open LittleEndian Receipts CheckedArith Traces

/-- One lifetime of the node's process: a writer built on the store as it is found, and
the turns it takes. -/
structure Lifetime where
  key : Bytes 32
  nanos : UInt64
  minted : UInt64
  equivocation : Bool
  deadline : RevealDeadline
  turns : List Turn

section Lifetimes
variable (c : Crypto)

def Lifetime.start (r : Lifetime) (l : ReceiptLedger) : Node :=
  Node.spawn c l r.key r.nanos r.minted r.equivocation r.deadline

def Lifetime.finish (r : Lifetime) (l : ReceiptLedger) : Node := (r.start c l).run c r.turns

/-- The store after the given lifetimes. -/
def survived : ReceiptLedger → List Lifetime → ReceiptLedger
  | l, [] => l
  | l, r :: rest => survived (r.finish c l).ledger rest

/-- All the turns of the given lifetimes. -/
def chronicle : ReceiptLedger → List Lifetime → List (Entry Node Turn)
  | _, [] => []
  | l, r :: rest => (r.start c l).history c r.turns ++ chronicle (r.finish c l).ledger rest

end Lifetimes

section Runs
variable {c : Crypto} {h : List (Entry Node Turn)} {n : Node} {w : Writer} {l : ReceiptLedger}

theorem Filling.run (hf : Faithful c h n.ledger)
    (hfill : ∀ w, n.writer = some w → Filling c h n w) (turns : List Turn) :
    Faithful c (h ++ n.history c turns) (n.run c turns).ledger := by
  induction turns generalizing n h with
  | nil => simpa [Node.history, Node.run] using hf
  | cons t turns ih =>
    have hstep : Faithful c (h ++ [⟨n, t, (n.handle c t).1⟩]) (n.handle c t).1.ledger ∧
        ∀ w, (n.handle c t).1.writer = some w →
          Filling c (h ++ [⟨n, t, (n.handle c t).1⟩]) (n.handle c t).1 w := by
      cases hw : n.writer with
      | none =>
        obtain ⟨hfaithful, hgone⟩ := hf.gone hw t
        refine ⟨hfaithful, ?_⟩
        intro w hw'
        rw [hgone] at hw'
        cases hw'
      | some w => exact (hfill w hw).handle hw t
    simpa [Node.history, Node.run] using ih hstep.1 hstep.2

theorem Faithful.run (hf : Faithful c h n.ledger) (hw : n.writer = some w)
    (hoff : w.equivocation = false) (hempty : ∀ hash, w.pending.held hash = none)
    {turns : List Turn} (hquiet : ∀ t ∈ turns, ¬t.command.Issues) :
    Faithful c (h ++ n.history c turns) (n.run c turns).ledger := by
  induction turns generalizing n h w with
  | nil => simpa [Node.history, Node.run] using hf
  | cons t turns ih =>
    obtain ⟨stored, bySig, hno, w', hw', hoff', hempty'⟩ :=
      handle_quiet (c := c) hw hoff hempty (hquiet t List.mem_cons_self)
    have hstep : Faithful c (h ++ [⟨n, t, (n.handle c t).1⟩]) (n.handle c t).1.ledger :=
      hf.quiet hno stored bySig
    have hrest := ih hstep hw' hoff' hempty' fun u hu => hquiet u (List.mem_cons_of_mem _ hu)
    simpa [Node.history, Node.run] using hrest

lemma Faithful.filling (hf : Faithful c h l) (hl : ∀ seq, l.stored seq = none) (r : Lifetime)
    (hoff : r.equivocation = false) :
    Filling c h (r.start c l) (Writer.new c r.key r.nanos r.minted r.equivocation r.deadline) where
  honest := hoff
  returned s hs := by
    have hrow := (hf.returned s hs).row
    rw [hl] at hrow
    cases hrow
  index txSig bytes hb := by
    obtain ⟨s, _, hholds, _⟩ := hf.index txSig bytes hb
    have hrow := hholds.row
    rw [hl] at hrow
    cases hrow
  table hash entry hh := by
    have hnone : (Writer.new c r.key r.nanos r.minted r.equivocation r.deadline).pending.held hash =
      none := PendingCommits.held_empty hash
    rw [hnone] at hh
    cases hh

/-- The attack mode is off, and a writer built over a store that already holds a receipt
is never asked to issue one. -/
def Careful (c : Crypto) : ReceiptLedger → List Lifetime → Prop
  | _, [] => True
  | l, r :: rest => r.equivocation = false ∧
      ((∃ seq, l.stored seq ≠ none) → ∀ t ∈ r.turns, ¬t.command.Issues) ∧
      Careful c (r.finish c l).ledger rest

theorem Faithful.survived (hf : Faithful c h l) {lifetimes : List Lifetime}
    (hcareful : Careful c l lifetimes) :
    Faithful c (h ++ chronicle c l lifetimes) (survived c l lifetimes) := by
  induction lifetimes generalizing l h with
  | nil => simpa [chronicle, Validator.survived] using hf
  | cons r rest ih =>
    obtain ⟨hoff, hquiet, hrest⟩ := hcareful
    have hstart : Faithful c h (r.start c l).ledger := hf
    have hrun : Faithful c (h ++ (r.start c l).history c r.turns) (r.finish c l).ledger := by
      by_cases hl : ∃ seq, l.stored seq ≠ none
      · exact hstart.run rfl hoff PendingCommits.held_empty (hquiet hl)
      · apply Filling.run hstart
        intro w hw
        obtain rfl := Option.some.inj hw
        apply hf.filling _ r hoff
        intro seq
        by_contra hne
        exact hl ⟨seq, hne⟩
    rw [chronicle, ← List.append_assoc]
    exact ih hrun hrest

lemma u64Of_seqBytes (seq : UInt64) : u64Of (ReceiptLedger.seqBytes seq).reverse = seq := by
  rw [ReceiptLedger.seqBytes, List.reverse_reverse, u64Of_u64Bytes]

/-- Over careful lifetimes every receipt returned stays readable byte for byte, and a
read by signature finds a receipt for that transaction. -/
theorem evidence_survives_restarts {lifetimes : List Lifetime}
    (hcareful : Careful c .empty lifetimes) :
    (∀ s, Returned c (chronicle c .empty lifetimes) s →
      ∃ outcome, (survived c .empty lifetimes).readReceipt none s.receipt.seq =
        .ok (some (outcome, s.toBytes))) ∧
      ∀ disk txSig seq outcome bytes,
        (survived c .empty lifetimes).readReceiptBySignature disk txSig =
          .ok (some (seq, outcome, bytes)) →
        ∃ s, SignedReceipt.fromBytes bytes = .ok s ∧
          IssuedFor (chronicle c .empty lifetimes) s txSig := by
  have hempty : Faithful c [] ReceiptLedger.empty := by
    constructor
    · rintro s ⟨x, hx, _⟩
      cases hx
    · intro txSig bytes hb
      simp [ReceiptLedger.empty] at hb
  have hf := hempty.survived hcareful
  rw [List.nil_append] at hf
  constructor
  · intro s hs
    obtain ⟨outcome, hrow⟩ := ReceiptLedger.stored_eq_some.mp (hf.returned s hs).row
    exact ⟨outcome, ReceiptLedger.readReceipt_eq_ok.mpr ⟨rfl, hrow⟩⟩
  · intro disk txSig seq outcome bytes hread
    obtain ⟨⟨index, hindex, hseq⟩, hrow⟩ := ReceiptLedger.readReceiptBySignature_eq_ok hread
    obtain ⟨s, rfl, hholds, hissued⟩ := hf.index txSig index hindex
    rw [u64Of_seqBytes] at hseq
    dsimp only at hseq hrow
    obtain rfl := hseq
    have hstored := ReceiptLedger.stored_eq_some.mpr
      ⟨outcome, (ReceiptLedger.readReceipt_eq_ok.mp hrow).2⟩
    dsimp only at hstored
    rw [hholds.row] at hstored
    refine ⟨s, ?_, hissued⟩
    rw [← Option.some.inj hstored, SignedReceipt.fromBytes_toBytes, hholds.valid]
    rfl

end Runs

namespace Vectors

def laterNanos : UInt64 := 1754300133000000000

/-- The receipt for `def`, issued after a restart. -/
def restartedDef : SignedReceipt where
  receipt :=
    { stampedDef.receipt with
      logId := Bytes.hex 32 0x7937103dc8d4285bb312dbfd5475c97e80ae61c384f23e5e9f930f8907d813ef
      ingressSlot := 6150500
      tIngressMicros := 1754300133456789 }
  signature := Bytes.hex 64
    0xb5d7eb53539083ac7df00c90e44bcaa97d441ff173ff14e524713df8e63a05bc809d4d7ab21f7349019fa742439ee5dc2d924c8b7425c42e97d7bfa183e28600

def restartCrypto : Crypto :=
  recorded Receipts.Vectors.operatorSeed Receipts.Vectors.operatorPubkey
    [(stampedAbc.message, stampedAbc.signature), (restartedDef.message, restartedDef.signature)]
    [(Receipts.Vectors.operatorPubkey.val ++ u64Bytes nanos ++ u64Bytes 0, stampedAbc.receipt.logId),
      (Receipts.Vectors.operatorPubkey.val ++ u64Bytes laterNanos ++ u64Bytes 0,
        restartedDef.receipt.logId),
      (abcBytes, stampedAbc.receipt.txHash), (defBytes, stampedDef.receipt.txHash),
      (stampedAbc.toBytes,
        Bytes.hex 32 0x68d451ab4098d7ba27879b41fabd2edebf1ba7ba9c5acffe949415b0db6a68c8),
      (restartedDef.toBytes,
        Bytes.hex 32 0x7fabc07f484fbcbf04294e3cb9b4246fedc76b5887af5db5957dc75f81ae48e9)] []

/-- The first lifetime stamps `abc`. -/
def firstLifetime : Lifetime where
  key := Receipts.Vectors.operatorSeed
  nanos := nanos
  minted := 0
  equivocation := false
  deadline := .default
  turns := [firstTurn fun _ => none]

/-- The second stamps `def`. -/
def secondLifetime : Lifetime where
  key := Receipts.Vectors.operatorSeed
  nanos := laterNanos
  minted := 0
  equivocation := false
  deadline := .default
  turns := [{ secondTurn with slot := 6150500, micros := 1754300133456789 }]

/-- A lifetime that has nothing to do but sweep. -/
def idleLifetime : Lifetime :=
  { secondLifetime with turns := [{ secondTurn with command := .sweep }] }

lemma lifetimes_evaluate :
    ((firstLifetime.start restartCrypto .empty).history restartCrypto firstLifetime.turns).map
        (fun x => (x.before.handle restartCrypto x.event).2) = [.issued (.ok stampedAbc)] ∧
      (survived restartCrypto .empty [firstLifetime, secondLifetime]).readReceipt none 0 =
        .ok (some (Outcome.pending.asU8, restartedDef.toBytes)) ∧
      (survived restartCrypto .empty [firstLifetime, secondLifetime]).readReceiptBySignature
          (fun _ => none) stampedAbc.receipt.txSig =
        .ok (some (0, Outcome.pending.asU8, restartedDef.toBytes)) ∧
      SignedReceipt.fromBytes restartedDef.toBytes = .ok restartedDef ∧
      restartedDef.toBytes ≠ stampedAbc.toBytes := by
  decide +kernel

lemma returned_abc (rest : List Lifetime) :
    Returned restartCrypto (chronicle restartCrypto .empty (firstLifetime :: rest)) stampedAbc := by
  have hmem : Reply.issued (.ok stampedAbc) ∈
      ((firstLifetime.start restartCrypto .empty).history restartCrypto firstLifetime.turns).map
        fun x => (x.before.handle restartCrypto x.event).2 := by
    rw [lifetimes_evaluate.1]
    exact List.mem_singleton_self _
  obtain ⟨x, hx, hreply⟩ := List.mem_map.mp hmem
  exact ⟨x, List.mem_append_left _ hx, hreply⟩

end Vectors

theorem evidence_survives_restarts_recorded :
    Careful Vectors.restartCrypto .empty [Vectors.firstLifetime, Vectors.idleLifetime] ∧
      ∃ outcome, (survived Vectors.restartCrypto .empty
        [Vectors.firstLifetime, Vectors.idleLifetime]).readReceipt none
          Vectors.stampedAbc.receipt.seq = .ok (some (outcome, Vectors.stampedAbc.toBytes)) := by
  have hcareful : Careful Vectors.restartCrypto .empty
      [Vectors.firstLifetime, Vectors.idleLifetime] := by
    refine ⟨rfl, ?_, rfl, ?_, trivial⟩
    · rintro ⟨seq, hne⟩
      simp [ReceiptLedger.stored, ReceiptLedger.empty] at hne
    · intro _ t ht hissues
      rw [List.mem_singleton.mp ht] at hissues
      exact hissues
  exact ⟨hcareful, (evidence_survives_restarts hcareful).1 _ (Vectors.returned_abc _)⟩

/-- The first receipt after a restart takes the row of the first receipt before it: what
the client holds can not be read any more, and its signature leads to a receipt for
another transaction. -/
theorem evidence_lost_by_restart :
    Returned Vectors.restartCrypto
        (chronicle Vectors.restartCrypto .empty [Vectors.firstLifetime, Vectors.secondLifetime])
        Vectors.stampedAbc ∧
      (¬∃ outcome, (survived Vectors.restartCrypto .empty
        [Vectors.firstLifetime, Vectors.secondLifetime]).readReceipt none
          Vectors.stampedAbc.receipt.seq = .ok (some (outcome, Vectors.stampedAbc.toBytes))) ∧
      (survived Vectors.restartCrypto .empty
          [Vectors.firstLifetime, Vectors.secondLifetime]).readReceiptBySignature (fun _ => none)
          Vectors.stampedAbc.receipt.txSig =
        .ok (some (0, Outcome.pending.asU8, Vectors.restartedDef.toBytes)) ∧
      SignedReceipt.fromBytes Vectors.restartedDef.toBytes = .ok Vectors.restartedDef ∧
      ¬IssuedFor (chronicle Vectors.restartCrypto .empty
        [Vectors.firstLifetime, Vectors.secondLifetime]) Vectors.restartedDef
          Vectors.stampedAbc.receipt.txSig := by
  obtain ⟨_, hrow, hsig, hdecode, hne⟩ := Vectors.lifetimes_evaluate
  refine ⟨Vectors.returned_abc _, ?_, hsig, hdecode, ?_⟩
  · rintro ⟨outcome, hread⟩
    have hsame := hrow.symm.trans hread
    simp only [Except.ok.injEq, Option.some.injEq, Prod.mk.injEq] at hsame
    exact hne hsame.2
  · rintro (⟨_, hnames⟩ | ⟨hmode, _⟩)
    · exact absurd hnames (by decide)
    · cases hmode

end Blitz.Validator
