import Blitz.IngressPipeline
import Blitz.ReceiptPending

/-! What the receipt writer keeps of the outcomes it is told, and what a rejection found
in its store says. -/
namespace Blitz.Validator
open LittleEndian Receipts Traces

namespace ReceiptLedger
variable {l : ReceiptLedger} {seq : UInt64} {outcome : UInt8}

lemma outcomeAt_eq_some :
    l.outcomeAt seq = some outcome ↔ ∃ receipt, l.receiptBySeq[seq]? = some (outcome :: receipt) := by
  constructor
  · intro h
    unfold outcomeAt at h
    split at h
    next b receipt hread =>
      obtain ⟨_, hrow⟩ := readReceipt_eq_ok.mp hread
      rw [Option.some.inj h] at hrow
      exact ⟨receipt, hrow⟩
    next => cases h
  · rintro ⟨receipt, hrow⟩
    exact outcomeAt_of_row hrow

lemma outcomeAt_insert {s : UInt64} {b : UInt8} {receipt : List UInt8}
    {sigs : Std.TreeMap (Bytes 64) (List UInt8) compareBytes}
    (h : outcomeAt ⟨l.receiptBySeq.insert s (b :: receipt), sigs⟩ seq = some outcome) :
    l.outcomeAt seq = some outcome ∨ (s = seq ∧ b = outcome) := by
  obtain ⟨rest, hrow⟩ := outcomeAt_eq_some.mp h
  rw [Std.TreeMap.getElem?_insert] at hrow
  split_ifs at hrow with hs
  · obtain ⟨rfl, _⟩ := List.cons.inj (Option.some.inj hrow)
    exact .inr ⟨Std.LawfulEqCmp.eq_of_compare hs, rfl⟩
  · exact .inl (outcomeAt_eq_some.mpr ⟨rest, hrow⟩)

lemma outcomeAt_writeReceipt {disk : Disk} {s : UInt64} {signature : Option (Bytes 64)} {b : UInt8}
    {receipt : List UInt8}
    (h : (l.writeReceipt disk s signature b receipt).1.outcomeAt seq = some outcome) :
    l.outcomeAt seq = some outcome ∨ b = outcome := by
  unfold writeReceipt putBySeq putBySig at h
  cases hput : disk 0 with
  | some e =>
    rw [hput] at h
    exact .inl h
  | none =>
    simp only [hput] at h
    have hkept (sigs : Std.TreeMap (Bytes 64) (List UInt8) compareBytes)
        (h : outcomeAt ⟨l.receiptBySeq.insert s (b :: receipt), sigs⟩ seq = some outcome) :
        l.outcomeAt seq = some outcome ∨ b = outcome := (outcomeAt_insert h).imp_right And.right
    cases signature with
    | none => exact hkept _ h
    | some signature =>
      cases hindex : disk 1 with
      | some e =>
        simp only [hindex] at h
        exact hkept _ h
      | none =>
        simp only [hindex] at h
        exact hkept _ h

lemma outcomeAt_setReceiptOutcome {disk : Disk} {s : UInt64} {b : UInt8}
    (h : (l.setReceiptOutcome disk s b).1.outcomeAt seq = some outcome) :
    l.outcomeAt seq = some outcome ∨ (s = seq ∧ b = outcome) := by
  unfold setReceiptOutcome putBySeq at h
  split at h
  · exact .inl h
  · exact .inl h
  · exact .inl h
  · cases hput : disk 1 with
    | some e =>
      simp only [hput] at h
      exact .inl h
    | none =>
      simp only [hput] at h
      exact outcomeAt_insert h

end ReceiptLedger

section Store
variable {c : Crypto} {n : Node} {seq : UInt64}

lemma outcomeAt_markExpired {disk : Disk} {expired : List (UInt64 × PendingCommit)}
    (l : ReceiptLedger)
    (h : (Writer.markExpired disk l expired).outcomeAt seq = some Outcome.rejected.asU8) :
    l.outcomeAt seq = some Outcome.rejected.asU8 := by
  apply markExpired_keeps (P := fun l' => l'.outcomeAt seq = some Outcome.rejected.asU8 →
    l.outcomeAt seq = some Outcome.rejected.asU8) _ id disk expired h
  intro l' disk s hkept hmarked
  rcases ReceiptLedger.outcomeAt_setReceiptOutcome hmarked with hold | ⟨_, hbyte⟩
  · exact hkept hold
  · cases hbyte

lemma outcomeAt_persist {w : Writer} {l : ReceiptLedger} {t : Turn} {signature : Option (Bytes 64)}
    {published reply : SignedReceipt}
    (h : (w.persist c l t signature published reply).1.outcomeAt seq = some Outcome.rejected.asU8) :
    l.outcomeAt seq = some Outcome.rejected.asU8 := by
  have hfirst : (w.persist c l t signature published reply).1 =
      (l.writeReceipt t.disk w.seq signature Outcome.pending.asU8 published.toBytes).1 := by
    unfold Writer.persist
    split <;> simp_all
  rw [hfirst] at h
  rcases ReceiptLedger.outcomeAt_writeReceipt h with hold | hbyte
  · exact hold
  · cases hbyte

lemma ledger_answer {w : Writer} {issued : ReceiptLedger × Issued} :
    (n.answer w issued).1.ledger = issued.1 := by
  obtain ⟨l, _ | _ | _⟩ := issued <;> rfl

lemma asU8_eq_rejected {outcome : Outcome} :
    outcome.asU8 = Outcome.rejected.asU8 ↔ outcome = .rejected := by
  cases outcome <;> decide

lemma outcomeAt_handle {t : Turn}
    (h : (n.handle c t).1.ledger.outcomeAt seq = some Outcome.rejected.asU8) :
    n.ledger.outcomeAt seq = some Outcome.rejected.asU8 ∨
      t.command = .recordOutcome seq .rejected := by
  unfold Node.handle at h
  cases hw : n.writer with
  | none =>
    rw [hw] at h
    exact .inl h
  | some w =>
    rw [hw] at h
    cases hcommand : t.command with
    | stamp txSig wireBytes recentBlockhash =>
      simp only [hcommand, ledger_answer, Writer.stamp] at h
      split at h
      · exact .inl h
      · split at h
        · exact .inl h
        · exact .inl (outcomeAt_persist h)
    | commit hash committer =>
      simp only [hcommand, ledger_answer, Writer.commit] at h
      split_ifs at h
      · exact .inl h
      · split at h
        · exact .inl h
        · exact .inl (outcomeAt_persist h)
    | reveal hash txSig =>
      obtain ⟨w', l', hreveal, _, _, _, hrows⟩ := reveal_eq (w := w) (t := t) n.ledger hash txSig
      simp only [hcommand, hreveal] at h
      rw [ReceiptLedger.outcomeAt_eq_some, hrows] at h
      exact .inl (ReceiptLedger.outcomeAt_eq_some.mpr h)
    | recordOutcome s outcome =>
      simp only [hcommand] at h
      rcases ReceiptLedger.outcomeAt_setReceiptOutcome h with hold | ⟨rfl, hbyte⟩
      · exact .inl hold
      · rw [asU8_eq_rejected.mp hbyte]
        exact .inr rfl
    | sweep =>
      simp only [hcommand] at h
      exact .inl (outcomeAt_markExpired _ h)

lemma outcomeAt_run (turns : List Turn)
    (h : (n.run c turns).ledger.outcomeAt seq = some Outcome.rejected.asU8) :
    n.ledger.outcomeAt seq = some Outcome.rejected.asU8 ∨
      ∃ t ∈ turns, t.command = .recordOutcome seq .rejected := by
  induction turns generalizing n with
  | nil => exact .inl h
  | cons t turns ih =>
    rcases ih h with hold | ⟨u, hu, hcommand⟩
    · rcases outcomeAt_handle hold with hold | hcommand
      · exact .inl hold
      · exact .inr ⟨t, by simp, hcommand⟩
    · exact .inr ⟨u, by simp [hu], hcommand⟩

end Store

/-- A rejection is told the writer, and found in its store, only of a transaction that
was never on the scheduler's channel. -/
theorem rejected_never_enqueued {requests : UInt64 → Request} {attack : Attack}
    {t : List (Entry Pipeline PipelineEvent)} {p : Pipeline}
    (hrun : Trace (PipelineStep requests attack) .start t p)
    (hquiet : ∀ x ∈ t, Undisturbed attack x) (seq : UInt64) :
    (.recordOutcome seq .rejected ∈ p.outbox → seq ∉ p.enqueued) ∧
      ∀ (c : Crypto) (n : Node) (turns : List Turn),
        (∀ u ∈ turns, u.command = .recordOutcome seq .rejected → u.command ∈ p.outbox) →
        n.ledger.outcomeAt seq ≠ some Outcome.rejected.asU8 →
        (n.run c turns).ledger.outcomeAt seq = some Outcome.rejected.asU8 → seq ∉ p.enqueued := by
  have hconsistent : Consistent requests p :=
    hrun.invariant (consistent_start requests) fun x hx hstep h => h.step hstep (hquiet x hx)
  have htold : .recordOutcome seq .rejected ∈ p.outbox → seq ∉ p.enqueued := by
    intro hout
    have hknows := hconsistent.handlers seq
    cases hphase : p.phase seq with
    | answered =>
      rw [hphase] at hknows
      exact hknows hout
    | _ =>
      rw [hphase] at hknows
      exact absurd hout hknows.1
  refine ⟨htold, ?_⟩
  intro c n turns hhandlers hfresh hfound
  rcases outcomeAt_run turns hfound with hold | ⟨u, hu, hcommand⟩
  · exact absurd hold hfresh
  · apply htold
    rw [← hcommand]
    exact hhandlers u hu hcommand

namespace Vectors

/-- A request that waits for its execution. -/
def awaited (method : Method) (_ : UInt64) : Request := ⟨method, false⟩

def Reached (requests : UInt64 → Request) (P : Entry Pipeline PipelineEvent → Prop) (p : Pipeline) :
    Prop :=
  ∃ t, Trace (PipelineStep requests .none) .start t p ∧ ∀ x ∈ t, P x

lemma Reached.step {requests : UInt64 → Request} {P : Entry Pipeline PipelineEvent → Prop}
    {p p' : Pipeline} {e : PipelineEvent} (h : Reached requests P p)
    (hstep : PipelineStep requests .none e p p') (hentry : P ⟨p, e, p'⟩) : Reached requests P p' := by
  obtain ⟨t, hrun, hall⟩ := h
  refine ⟨t ++ [⟨p, e, p'⟩], hrun.snoc hstep, ?_⟩
  intro x hx
  rcases List.mem_append.mp hx with hx | hx
  · exact hall x hx
  · rw [List.mem_singleton.mp hx]
    exact hentry

lemma refused_run : ∃ p, Reached (awaited .sendTransaction) (Undisturbed .none) p ∧
    p.outbox = [.recordOutcome 1 .accepted, .recordOutcome 0 .rejected] ∧ p.enqueued = [1] := by
  -- The scheduler executes one transaction and ends; the one before it was still waiting for its
  -- accounts, and then finds the channel closed.
  have h : Reached (awaited .sendTransaction) (Undisturbed .none) .start := ⟨[], .nil, by simp⟩
  replace h := h.step (@PipelineStep.receipted _ _ _ 0 rfl) ⟨by decide, trivial⟩
  replace h := h.step (@PipelineStep.receipted _ _ _ 1 rfl) ⟨by decide, trivial⟩
  replace h := h.step (@PipelineStep.accountsEnsured _ _ _ 1 rfl) ⟨by decide, trivial⟩
  replace h := h.step (@PipelineStep.forward _ _ _ 1 _ _ _ rfl) ⟨by decide, trivial⟩
  replace h := h.step (@PipelineStep.take _ _ _ ⟨1, true⟩ [] rfl) ⟨by decide, trivial⟩
  replace h := h.step (@PipelineStep.execute _ _ _ ⟨1, true⟩ (.ok ()) (by decide))
    ⟨by decide, by decide⟩
  replace h := h.step (@PipelineStep.resume _ _ _ 1 _ _ _ rfl rfl) ⟨by decide, trivial⟩
  replace h := h.step (@PipelineStep.respond _ _ _ 1 _ rfl) ⟨by decide, trivial⟩
  replace h := h.step (@PipelineStep.close _ _ _) ⟨by decide, by decide⟩
  replace h := h.step (@PipelineStep.accountsEnsured _ _ _ 0 rfl) ⟨by decide, trivial⟩
  replace h := h.step (@PipelineStep.forward _ _ _ 0 _ _ _ rfl) ⟨by decide, trivial⟩
  replace h := h.step (@PipelineStep.respond _ _ _ 0 _ rfl) ⟨by decide, trivial⟩
  exact ⟨_, h, rfl, rfl⟩

lemma dropped_run (method : Method) : ∃ t p,
    Trace (PipelineStep (awaited method) .none) .start t p ∧
      p.outbox = [.recordOutcome 0 .rejected] ∧ p.enqueued = [0] := by
  have h : Reached (awaited method) (fun _ => True) .start := ⟨[], .nil, by simp⟩
  replace h := h.step (@PipelineStep.receipted _ _ _ 0 rfl) trivial
  replace h := h.step (@PipelineStep.accountsEnsured _ _ _ 0 rfl) trivial
  cases method with
  | _ =>
    replace h := h.step (@PipelineStep.forward _ _ _ 0 _ _ _ rfl) trivial
    replace h := h.step (@PipelineStep.take _ _ _ ⟨0, true⟩ [] rfl) trivial
    replace h := h.step (@PipelineStep.discard _ _ _ ⟨0, true⟩ (by decide)) trivial
    replace h := h.step (@PipelineStep.resume _ _ _ 0 _ _ _ rfl rfl) trivial
    replace h := h.step (@PipelineStep.respond _ _ _ 0 _ rfl) trivial
    obtain ⟨t, hrun, _⟩ := h
    exact ⟨t, _, hrun, rfl, rfl⟩

def rejectTurn : Turn where
  command := .recordOutcome 0 .rejected
  slot := 6150402
  micros := 1754300123656789
  disk := fun _ => none

/-- The first request is receipted, and its rejection recorded. -/
def rejectedTurns : List Turn := [firstTurn fun _ => none, rejectTurn]

lemma rejection_evaluates : node.ledger.outcomeAt 0 = none ∧
    (node.run crypto rejectedTurns).ledger.outcomeAt 0 = some Outcome.rejected.asU8 := by
  decide +kernel

end Vectors

theorem rejected_never_enqueued_closed :
    ∃ t p, Trace (PipelineStep (Vectors.awaited .sendTransaction) .none) .start t p ∧
      (Vectors.node.run Vectors.crypto Vectors.rejectedTurns).ledger.outcomeAt 0 =
        some Outcome.rejected.asU8 ∧ 0 ∉ p.enqueued := by
  obtain ⟨p, ⟨t, hrun, hquiet⟩, houtbox, _⟩ := Vectors.refused_run
  obtain ⟨hfresh, hfound⟩ := Vectors.rejection_evaluates
  refine ⟨t, p, hrun, hfound, (rejected_never_enqueued hrun hquiet 0).2 _ _ _ ?_ ?_ hfound⟩
  · intro u _ hcommand
    rw [hcommand, houtbox]
    simp
  · rw [hfresh]
    simp

/-- Both methods: what the scheduler took and dropped is recorded as rejected. -/
theorem rejected_after_dropped_reply :
    (∃ t p, Trace (PipelineStep (Vectors.awaited .sendTransaction) .none) .start t p ∧
      .recordOutcome 0 .rejected ∈ p.outbox ∧ 0 ∈ p.enqueued) ∧
    (∃ t p, Trace (PipelineStep (Vectors.awaited .revealTransaction) .none) .start t p ∧
      .recordOutcome 0 .rejected ∈ p.outbox ∧ 0 ∈ p.enqueued) ∧
    (Vectors.node.run Vectors.crypto Vectors.rejectedTurns).ledger.outcomeAt 0 =
      some Outcome.rejected.asU8 := by
  obtain ⟨t, p, hrun, houtbox, henqueued⟩ := Vectors.dropped_run .sendTransaction
  obtain ⟨t', p', hrun', houtbox', henqueued'⟩ := Vectors.dropped_run .revealTransaction
  refine ⟨⟨t, p, hrun, ?_, ?_⟩, ⟨t', p', hrun', ?_, ?_⟩, Vectors.rejection_evaluates.2⟩
  · simp [houtbox]
  · simp [henqueued]
  · simp [houtbox']
  · simp [henqueued']

end Blitz.Validator
