import Blitz.ReceiptTicketFates
import Blitz.WatchtowerWithholding

/-! The reveal deadline, on both sides: the sweep that drops overdue promises from the
node's table, the watchtower that reports them, and the reveal, which asks neither. -/
namespace Blitz.Validator
open LittleEndian Receipts CheckedArith Traces Watchtower

lemma stale_iff_overdue {now deadline : UInt64} {entry : UInt64 × PendingCommit} :
    PendingCommits.Stale (saturatingSub now deadline) entry ↔
      deadline < saturatingSub now entry.2.committedAtSlot := by
  simp only [PendingCommits.Stale, UInt64.lt_iff_toNat_lt, toNat_saturatingSub]
  omega

/-- The signed ticket of a promise in the table. -/
structure TicketFor (hash : Bytes 32) (entry : UInt64 × PendingCommit) (ticket : SignedReceipt) :
    Prop where
  mode : ticket.receipt.mode = .commit
  seq : ticket.receipt.seq = entry.1
  txHash : ticket.receipt.txHash = hash
  committer : ticket.receipt.committer = entry.2.committer
  ingressSlot : ticket.receipt.ingressSlot = entry.2.committedAtSlot

/-- The watchtower is shown the operator's ticket, not taken back, and no execution of its
contents. -/
structure Unproduced (c : Crypto) (op : Operator) (receipts : List SignedReceipt)
    (executed : ExecutionIndex) (ticket : SignedReceipt) : Prop where
  listed : ticket ∈ receipts
  accepted : op.accepts c ticket = .ok ()
  standing : takenBack c op receipts ticket = none
  unexecuted : executed.byHash ticket.receipt.txHash = none

/-- The scan accuses the operator of an unrevealed ticket. -/
def ReportsNotRevealed (scan : Scan) (ticket : SignedReceipt) (head : UInt64) : Prop :=
  ∃ waited, .notRevealed ticket head waited ∈ scan.faults

section Report
variable {c : Crypto} {op : Operator} {receipts : List SignedReceipt} {executed : ExecutionIndex}
  {blockhashes : BlockhashSlots} {head : UInt64} {patience : Patience} {ticket : SignedReceipt}

lemma reportsNotRevealed_iff (hmode : ticket.receipt.mode = .commit)
    (hticket : Unproduced c op receipts executed ticket) :
    ReportsNotRevealed (scanWithholding c receipts executed blockhashes head patience op) ticket
        head ↔
      patience.revealSlots < saturatingSub head ticket.receipt.ingressSlot := by
  have hnone : executed.find ticket = none := by
    rw [ExecutionIndex.find, hmode]
    exact hticket.unexecuted
  constructor
  · rintro ⟨waited, hfault⟩
    obtain ⟨receipt, _, hverdict⟩ := mem_withholdingFaults.mp hfault
    have hnames := promiseVerdicts_names hverdict
    obtain rfl : ticket = receipt := by simpa [Fault.receipts] using hnames
    obtain ⟨_, _, hingress | ⟨_, hdelivery⟩⟩ := mem_promiseVerdicts.mp hverdict
    · exact absurd hmode (checkIngress_eq_fault.mp hingress).1
    · rcases checkDelivery_eq_fault.mp hdelivery with ⟨execution, hfound, _⟩ | ⟨_, hlate⟩
      · rw [hnone] at hfound
        cases hfound
      · rw [if_pos hmode] at hlate
        exact hlate.1
  · intro hlate
    refine ⟨saturatingSub head ticket.receipt.ingressSlot, mem_withholdingFaults.mpr
      ⟨ticket, hticket.listed, mem_promiseVerdicts.mpr
        ⟨hticket.accepted, by simp [hmode], .inr ⟨hticket.standing, ?_⟩⟩⟩⟩
    refine checkDelivery_eq_fault.mpr (.inr ⟨hnone, ?_⟩)
    rw [if_pos hmode]
    exact ⟨hlate, rfl⟩

end Report

section Sweep
variable {c : Crypto} {n : Node} {w : Writer} {t : Turn}

lemma row_setReceiptOutcome_of_ne {l : ReceiptLedger} {disk : Disk} {seq s : UInt64}
    {outcome : UInt8} (hs : seq ≠ s) :
    (l.setReceiptOutcome disk seq outcome).1.receiptBySeq[s]? = l.receiptBySeq[s]? := by
  unfold ReceiptLedger.setReceiptOutcome ReceiptLedger.putBySeq
  split
  · rfl
  · rfl
  · rfl
  · cases disk 1 with
    | some e => rfl
    | none => simp [Std.TreeMap.getElem?_insert, hs]

lemma row_markExpired_of_ne {disk : Disk} {l : ReceiptLedger}
    {expired : List (UInt64 × PendingCommit)} {s : UInt64} (hs : ∀ entry ∈ expired, entry.1 ≠ s) :
    (Writer.markExpired disk l expired).receiptBySeq[s]? = l.receiptBySeq[s]? := by
  unfold Writer.markExpired
  have hindexed : ∀ entry ∈ expired.zipIdx, entry.1.1 ≠ s := by
    intro entry hm
    exact hs entry.1 (List.fst_mem_of_mem_zipIdx hm)
  generalize expired.zipIdx = entries at hindexed
  induction entries generalizing l with
  | nil => rfl
  | cons entry entries ih =>
    rw [List.foldl_cons, ih fun other hm => hindexed other (List.mem_cons_of_mem _ hm)]
    exact row_setReceiptOutcome_of_ne (hindexed entry List.mem_cons_self)

lemma handle_sweep (hw : n.writer = some w) (hcommand : t.command = .sweep) :
    ∃ w', (n.handle c t).1.writer = some w' ∧ w'.seq = w.seq ∧ w'.deadline = w.deadline ∧
      (∀ hash entry, w'.pending.held hash = some entry ↔ w.pending.held hash = some entry ∧
        ¬w.deadline.slots < saturatingSub t.slot entry.2.committedAtSlot) ∧
      (n.handle c t).1.ledger = Writer.markExpired t.disk n.ledger
        (w.pending.expire (saturatingSub t.slot w.deadline.slots)).1 := by
  have hhandle : (n.handle c t).1 =
      { n with writer := some (w.sweep n.ledger t).1, ledger := (w.sweep n.ledger t).2 } := by
    simp only [Node.handle, hw, hcommand]
  rw [hhandle]
  refine ⟨_, rfl, rfl, rfl, ?_, rfl⟩
  intro hash entry
  rw [← stale_iff_overdue]
  exact PendingCommits.held_expire

/-- A sweep at a slot drops from the table, and marks as expired, exactly the tickets
that a watchtower at that slot with the same deadline reports as not revealed; the rest
of the table, and of the log, stays as it is. -/
theorem sweep_expires_notRevealed (hw : n.writer = some w) (hcommand : t.command = .sweep) :
    ∃ w', (n.handle c t).1.writer = some w' ∧
      (∀ hash entry ticket, w.pending.held hash = some entry → TicketFor hash entry ticket →
        ∀ op receipts executed blockhashes patience, Unproduced c op receipts executed ticket →
          patience.revealSlots = w.deadline.slots →
          (w'.pending.held hash = none ↔ ReportsNotRevealed
            (scanWithholding c receipts executed blockhashes t.slot patience op) ticket t.slot)) ∧
      (∀ hash, w'.pending.held hash ≠ none → w'.pending.held hash = w.pending.held hash) ∧
      ((∀ i, t.disk i = none) → ∀ hash entry, w.pending.held hash = some entry →
        w'.pending.held hash = none → (n.handle c t).1.ledger.receiptBySeq[entry.1]? =
          n.ledger.receiptBySeq[entry.1]?.map (ReceiptLedger.remark Outcome.expired.asU8)) ∧
      ∀ s, (∀ hash entry, w.pending.held hash = some entry → w'.pending.held hash = none →
        entry.1 ≠ s) → (n.handle c t).1.ledger.receiptBySeq[s]? = n.ledger.receiptBySeq[s]? := by
  obtain ⟨w', hw', _, _, hkept, hledger⟩ := handle_sweep (c := c) hw hcommand
  have hgone {hash : Bytes 32} {entry : UInt64 × PendingCommit}
      (hheld : w.pending.held hash = some entry) : w'.pending.held hash = none ↔
        w.deadline.slots < saturatingSub t.slot entry.2.committedAtSlot := by
    rw [Option.eq_none_iff_forall_ne_some]
    constructor
    · intro hnone
      by_contra htimely
      exact hnone entry ((hkept hash entry).mpr ⟨hheld, htimely⟩)
    · intro hlate other hother
      obtain ⟨hsame, htimely⟩ := (hkept hash other).mp hother
      rw [hheld] at hsame
      exact htimely (Option.some.inj hsame ▸ hlate)
  refine ⟨w', hw', ?_, ?_, ?_, ?_⟩
  · intro hash entry ticket hheld hticket op receipts executed blockhashes patience hun hdeadline
    rw [hgone hheld, reportsNotRevealed_iff hticket.mode hun, hdeadline, hticket.ingressSlot]
  · intro hash hsome
    obtain ⟨entry, hentry⟩ := Option.ne_none_iff_exists'.mp hsome
    rw [hentry, ((hkept hash entry).mp hentry).1]
  · intro hdisk hash entry hheld hnone
    rw [hledger, row_markExpired hdisk]
    refine if_pos (List.mem_map_of_mem (PendingCommits.mem_expire.mpr ⟨hash, hheld, ?_⟩))
    exact stale_iff_overdue.mpr ((hgone hheld).mp hnone)
  · intro s hothers
    rw [hledger]
    apply row_markExpired_of_ne
    intro entry hm
    obtain ⟨hash, hheld, hstale⟩ := PendingCommits.mem_expire.mp hm
    exact hothers hash entry hheld ((hgone hheld).mpr (stale_iff_overdue.mp hstale))

end Sweep

section Tickets
variable {c : Crypto} {n : Node} {w : Writer} {t : Turn} {hash committer : Bytes 32}
  {ticket : SignedReceipt} {entry : UInt64 × PendingCommit} {deadline : RevealDeadline}

lemma handle_commit (hw : n.writer = some w) (hcommand : t.command = .commit hash committer) :
    (∃ e, e ≠ .writerGone ∧ (n.handle c t).2 = .issued (.error e)) ∨
      ((n.handle c t).2 = .issued (.error .writerGone) ∧ (n.handle c t).1.writer = none) ∨
      ∃ s : SignedReceipt, (n.handle c t).2 = .issued (.ok s) ∧
        s.receipt = w.ticket t hash committer := by
  simp only [Node.handle, hw, hcommand, Writer.commit]
  split_ifs with hmany
  · exact .inl ⟨_, by simp, rfl⟩
  · cases hsign : (w.ticket t hash committer).sign c w.key with
    | error e => exact .inl ⟨_, by simp, rfl⟩
    | ok signed =>
      obtain ⟨_, hsigned⟩ := Receipt.sign_eq_ok.mp hsign
      simp only [Writer.persist]
      split
      · exact .inl ⟨_, by simp, rfl⟩
      · unfold Writer.advance
        split
        · exact .inr (.inl ⟨rfl, rfl⟩)
        · exact .inr (.inr ⟨signed, rfl, by rw [hsigned]⟩)

lemma ticketFor_of_issued (hw : n.writer = some w) (hcommand : t.command = .commit hash committer)
    (hissued : (n.handle c t).2 = .issued (.ok ticket)) :
    TicketFor hash (w.seq, ⟨hash, committer, t.slot⟩) ticket := by
  -- The writer reads the slot once, for the ticket and for the table.
  have hreceipt : ticket.receipt = w.ticket t hash committer := by
    rcases handle_commit (c := c) hw hcommand with ⟨e, _, hreply⟩ | ⟨hreply, _⟩ | ⟨s, hreply, hs⟩
    · cases hissued.symm.trans hreply
    · cases hissued.symm.trans hreply
    · cases hissued.symm.trans hreply
      exact hs
  constructor <;> rw [hreceipt] <;> rfl

lemma writer_of_writerGone (hw : n.writer = some w) (hcommand : t.command = .commit hash committer)
    (hgone : (n.handle c t).2 = .issued (.error .writerGone)) : (n.handle c t).1.writer = none := by
  rcases handle_commit (c := c) hw hcommand with ⟨e, he, hreply⟩ | ⟨_, hnone⟩ | ⟨s, hreply, _⟩
  · cases hgone.symm.trans hreply
    exact absurd rfl he
  · exact hnone
  · cases hgone.symm.trans hreply

/-- What every turn about tickets leaves of the table: the configuration stays, the counter
does not fall, and an entry that was not there has the position that was next. -/
structure TableTurned (w w' : Writer) : Prop where
  deadline : w'.deadline = w.deadline
  seq : w.seq.toNat ≤ w'.seq.toNat
  held : ∀ hash entry, w'.pending.held hash = some entry →
    w.pending.held hash = some entry ∨ entry.1 = w.seq

lemma handle_tableTurned {w' : Writer} (hc : t.command.AboutTickets)
    (hw' : (n.handle c t).1.writer = some w') :
    ∃ w, n.writer = some w ∧ TableTurned w w' := by
  cases hw : n.writer with
  | none =>
    simp only [Node.handle, hw] at hw'
    cases hw'
  | some w =>
    refine ⟨w, rfl, ?_⟩
    have hturn := handle_ticketTurned (c := c) hw hc
    have hgone (other committer : Bytes 32) (hcommand : t.command = .commit other committer) :=
      writer_of_writerGone (c := c) hw hcommand
    generalize (n.handle c t).1 = n' at *
    generalize (n.handle c t).2 = reply at *
    cases hturn with
    | refused other committer e w₁ command writer held seq deadline rows =>
      obtain rfl := Option.some.inj (writer.symm.trans hw')
      exact ⟨deadline, seq.symm ▸ le_rfl, fun other entry hentry => .inl (held ▸ hentry)⟩
    | reserved other committer ticket w₁ command writer room held seq deadline position rows =>
      obtain rfl := Option.some.inj (writer.symm.trans hw')
      refine ⟨deadline, by omega, fun other entry hentry => ?_⟩
      rcases held_reserved held hentry with ⟨_, rfl⟩ | ⟨_, hold⟩
      · exact .inr rfl
      · exact .inl hold
    | panicked other committer command last =>
      rw [hgone other committer command rfl] at hw'
      cases hw'
    | revealed other txSig w₁ command writer held seq deadline rows =>
      obtain rfl := Option.some.inj (writer.symm.trans hw')
      refine ⟨deadline, seq.symm ▸ le_rfl, fun other entry hentry => .inl ?_⟩
      rw [held] at hentry
      exact PendingCommits.held_of_update_none hentry
    | swept cutoff w₁ command writer held seq deadline marked others =>
      obtain rfl := Option.some.inj (writer.symm.trans hw')
      exact ⟨deadline, seq.symm ▸ le_rfl, fun other entry hentry =>
        .inl ((held other entry).mp hentry).1⟩

/-- What takes a ticket out of the table: a sweep once it is overdue, the reveal of its
contents, another ticket for them, or the end of the writer. -/
def TakesOut (c : Crypto) (hash : Bytes 32) (issuedAt deadline : UInt64) (x : Entry Node Turn) :
    Prop :=
  match x.event.command with
  | .commit other _ => (other = hash ∧
      ∃ ticket, (x.before.handle c x.event).2 = .issued (.ok ticket)) ∨ x.after.writer = none
  | .reveal other _ => other = hash
  | .sweep => deadline < saturatingSub x.event.slot issuedAt
  | _ => False

/-- The reveal is answered with this position. -/
def Claims (c : Crypto) (n : Node) (t : Turn) (seq : UInt64) : Prop :=
  ∃ commit, (n.handle c t).2 = .revealed (some (seq, commit))

/-- The table holds the promise for its contents, at a position that was handed out. -/
def Outstanding (deadline : RevealDeadline) (hash : Bytes 32) (entry : UInt64 × PendingCommit)
    (n : Node) : Prop :=
  ∃ w, n.writer = some w ∧ w.deadline = deadline ∧ w.pending.held hash = some entry ∧
    entry.1.toNat < w.seq.toNat

/-- No reveal of these contents can be answered with the position any more. -/
def Spent (hash : Bytes 32) (seq : UInt64) (n : Node) : Prop :=
  ∀ w, n.writer = some w → seq.toNat < w.seq.toNat ∧
    ∀ entry, w.pending.held hash = some entry → entry.1 ≠ seq

lemma spent_of_writer {w' : Writer} {seq : UInt64} (hw : n.writer = some w')
    (hbelow : seq.toNat < w'.seq.toNat)
    (hfree : ∀ entry, w'.pending.held hash = some entry → entry.1 ≠ seq) : Spent hash seq n := by
  intro w'' hw''
  obtain rfl := Option.some.inj (hw.symm.trans hw'')
  exact ⟨hbelow, hfree⟩

lemma Outstanding.handle (h : Outstanding deadline hash entry n) (hc : t.command.AboutTickets) :
    (¬TakesOut c hash entry.2.committedAtSlot deadline.slots ⟨n, t, (n.handle c t).1⟩ ∧
        Outstanding deadline hash entry (n.handle c t).1) ∨
      (TakesOut c hash entry.2.committedAtSlot deadline.slots ⟨n, t, (n.handle c t).1⟩ ∧
        Spent hash entry.1 (n.handle c t).1) := by
  obtain ⟨w, hw, hdeadline, hheld, hbelow⟩ := h
  have hturn := handle_ticketTurned (c := c) hw hc
  have hgone (other committer : Bytes 32) (hcommand : t.command = .commit other committer) :=
    writer_of_writerGone (c := c) hw hcommand
  have hswept := handle_sweep (c := c) (t := t) hw
  simp only [TakesOut]
  generalize (n.handle c t).1 = n' at *
  generalize (n.handle c t).2 = reply at *
  cases hturn with
  | refused other committer e w' command writer held seq hconfigured rows =>
    refine .inl ⟨?_, w', writer, hconfigured.trans hdeadline, by rw [held, hheld], by rwa [seq]⟩
    simp [command, writer]
  | reserved other committer ticket w' command writer room held seq hconfigured position rows =>
    by_cases ho : other = hash
    · subst ho
      refine .inr ⟨by simp [command], spent_of_writer writer (by omega) ?_⟩
      intro entry' hentry
      rw [held, Function.update_self] at hentry
      obtain rfl := Option.some.inj hentry
      rintro he
      rw [← he] at hbelow
      exact lt_irrefl _ hbelow
    · refine .inl ⟨?_, w', writer, hconfigured.trans hdeadline, ?_, by omega⟩
      · simp [command, writer, ho]
      · rw [held, Function.update_of_ne (Ne.symm ho), hheld]
  | panicked other committer command last =>
    have hnone := hgone other committer command rfl
    refine .inr ⟨by simp [command, hnone], ?_⟩
    intro w' hw'
    rw [hnone] at hw'
    cases hw'
  | revealed other txSig w' command writer held seq hconfigured rows =>
    by_cases ho : other = hash
    · subst ho
      refine .inr ⟨by simp [command], spent_of_writer writer (by rwa [seq]) ?_⟩
      intro entry' hentry
      rw [held, Function.update_self] at hentry
      cases hentry
    · refine .inl ⟨by simpa [command] using ho, w', writer, hconfigured.trans hdeadline, ?_,
        by rwa [seq]⟩
      rw [held, Function.update_of_ne (Ne.symm ho), hheld]
  | swept cutoff w₁ command writer₁ =>
    obtain ⟨w', writer, seq, hconfigured, hkept, _⟩ := hswept command
    rw [hdeadline] at hkept
    simp only [command]
    by_cases hlate : deadline.slots < saturatingSub t.slot entry.2.committedAtSlot
    · refine .inr ⟨hlate, spent_of_writer writer (by rwa [seq]) ?_⟩
      intro entry' hentry
      obtain ⟨hsame, htimely⟩ := (hkept hash entry').mp hentry
      rw [hheld] at hsame
      exact absurd (Option.some.inj hsame ▸ hlate) htimely
    · exact .inl ⟨hlate, w', writer, hconfigured.trans hdeadline,
        (hkept hash entry).mpr ⟨hheld, hlate⟩, by rwa [seq]⟩

lemma Spent.handle {seq : UInt64} (h : Spent hash seq n) (hc : t.command.AboutTickets) :
    Spent hash seq (n.handle c t).1 := by
  intro w' hw'
  obtain ⟨w, hw, hturned⟩ := handle_tableTurned hc hw'
  obtain ⟨hbelow, hfree⟩ := h w hw
  refine ⟨hbelow.trans_le hturned.seq, ?_⟩
  intro entry hentry
  rcases hturned.held hash entry hentry with hold | hnew
  · exact hfree entry hold
  · rintro rfl
    rw [hnew] at hbelow
    exact lt_irrefl _ hbelow

lemma run_keeps {J : Node → Prop} {turns : List Turn}
    (hstep : ∀ n, ∀ t ∈ turns, J n → J (n.handle c t).1) (h : J n) : J (n.run c turns) := by
  induction turns generalizing n with
  | nil => exact h
  | cons t turns ih =>
    exact ih (fun m u hu => hstep m u (List.mem_cons_of_mem t hu)) (hstep n t List.mem_cons_self h)

lemma Spent.run {seq : UInt64} (h : Spent hash seq n) {turns : List Turn}
    (hc : ∀ u ∈ turns, u.command.AboutTickets) : Spent hash seq (n.run c turns) :=
  run_keeps (fun _ t ht hspent => hspent.handle (hc t ht)) h

lemma Outstanding.run (h : Outstanding deadline hash entry n) {turns : List Turn}
    (hc : ∀ u ∈ turns, u.command.AboutTickets) :
    ((∀ x ∈ n.history c turns, ¬TakesOut c hash entry.2.committedAtSlot deadline.slots x) ∧
        Outstanding deadline hash entry (n.run c turns)) ∨
      ((∃ x ∈ n.history c turns, TakesOut c hash entry.2.committedAtSlot deadline.slots x) ∧
        Spent hash entry.1 (n.run c turns)) := by
  induction turns generalizing n with
  | nil => exact .inl ⟨by simp [Node.history], h⟩
  | cons t turns ih =>
    have hrest : ∀ u ∈ turns, u.command.AboutTickets := fun u hu => hc u (List.mem_cons_of_mem t hu)
    rcases h.handle (c := c) (hc t List.mem_cons_self) with ⟨hstays, hout⟩ | ⟨hgoes, hspent⟩
    · rcases ih hout hrest with ⟨hnone, hend⟩ | ⟨⟨x, hx, htakes⟩, hend⟩
      · refine .inl ⟨?_, hend⟩
        intro x hx
        rcases List.mem_cons.mp hx with rfl | hx
        · exact hstays
        · exact hnone x hx
      · exact .inr ⟨⟨x, List.mem_cons_of_mem _ hx, htakes⟩, hend⟩
    · exact .inr ⟨⟨_, List.mem_cons_self, hgoes⟩, hspent.run hrest⟩

lemma Outstanding.claims (h : Outstanding deadline hash entry n) {txSig : Bytes 64}
    (hcommand : t.command = .reveal hash txSig) : Claims c n t entry.1 := by
  obtain ⟨w, hw, _, hheld, _⟩ := h
  exact Claimable.reveal ⟨w, entry.2, hw, hheld⟩ hcommand

lemma Spent.not_claims {seq : UInt64} (h : Spent hash seq n) {txSig : Bytes 64}
    (hcommand : t.command = .reveal hash txSig) : ¬Claims c n t seq := by
  rintro ⟨commit, hreply⟩
  cases hw : n.writer with
  | none =>
    simp only [Node.handle, hw, hcommand, Node.unanswered] at hreply
    cases hreply
  | some w =>
    obtain ⟨w', l', hreveal, _⟩ := reveal_eq (w := w) (t := t) n.ledger hash txSig
    simp only [Node.handle, hw, hcommand, hreveal] at hreply
    exact (h w hw).2 _ (Reply.revealed.inj hreply) rfl

/-- The deadline is set when the writer is made, and never again. -/
def Configured (deadline : RevealDeadline) (n : Node) : Prop :=
  ∀ w, n.writer = some w → w.deadline = deadline

lemma Configured.handle (h : Configured deadline n) (hc : t.command.AboutTickets) :
    Configured deadline (n.handle c t).1 := by
  intro w' hw'
  obtain ⟨w, hw, hturned⟩ := handle_tableTurned hc hw'
  exact hturned.deadline.trans (h w hw)

lemma Configured.run (h : Configured deadline n) {turns : List Turn}
    (hc : ∀ u ∈ turns, u.command.AboutTickets) : Configured deadline (n.run c turns) :=
  run_keeps (fun _ t ht hconfigured => hconfigured.handle (hc t ht)) h

lemma outstanding_of_issued (h : Configured deadline n)
    (hcommand : t.command = .commit hash committer)
    (hissued : (n.handle c t).2 = .issued (.ok ticket)) :
    Outstanding deadline hash (ticket.receipt.seq, ⟨hash, committer, t.slot⟩) (n.handle c t).1 ∧
      ticket.receipt.mode = .commit ∧ ticket.receipt.ingressSlot = t.slot := by
  cases hw : n.writer with
  | none =>
    simp only [Node.handle, hw, hcommand, Node.unanswered] at hissued
    cases hissued
  | some w =>
    have hticket := ticketFor_of_issued hw hcommand hissued
    refine ⟨?_, hticket.mode, hticket.ingressSlot⟩
    have hturn := handle_ticketTurned (c := c) hw (t := t) (by rw [hcommand]; trivial)
    generalize (n.handle c t).1 = n' at *
    rw [hissued] at hturn
    cases hturn with
    | reserved other committer' _ w' command writer room held seq hdeadline position rows =>
      obtain ⟨rfl, rfl⟩ := WriterCommand.commit.inj (hcommand.symm.trans command)
      rw [position]
      refine ⟨w', writer, hdeadline.trans (h w hw), by rw [held, Function.update_self], ?_⟩
      change w.seq.toNat < _
      omega

end Tickets

section Runs
variable {c : Crypto} {ledger : ReceiptLedger} {key : Bytes 32} {nanos minted : UInt64}
  {equivocation : Bool} {deadline : RevealDeadline} {before between : List Turn} {issue reveal : Turn}
  {hash committer : Bytes 32} {txSig : Bytes 64} {ticket : SignedReceipt}

/-- Whatever the slot source does, a reveal keeps to the deadline of a ticket, and no ticket
reported as not revealed is claimed after that, exactly if the reveal is in time or the
ticket was taken out of the table before it. -/
theorem reveal_keeps_deadline_iff
    (htickets : ∀ u ∈ before ++ issue :: between, u.command.AboutTickets)
    (hissue : issue.command = .commit hash committer)
    (hissued : (((Node.spawn c ledger key nanos minted equivocation deadline).run c before).handle c
      issue).2 = .issued (.ok ticket))
    (hreveal : reveal.command = .reveal hash txSig) :
    ((Claims c ((Node.spawn c ledger key nanos minted equivocation deadline).run c
          (before ++ issue :: between)) reveal ticket.receipt.seq →
        saturatingSub reveal.slot issue.slot ≤ deadline.slots) ∧
      ∀ op receipts executed blockhashes patience head,
        Unproduced c op receipts executed ticket → patience.revealSlots = deadline.slots →
        ReportsNotRevealed (scanWithholding c receipts executed blockhashes head patience op)
          ticket head → head ≤ reveal.slot →
        ¬Claims c ((Node.spawn c ledger key nanos minted equivocation deadline).run c
          (before ++ issue :: between)) reveal ticket.receipt.seq) ↔
      (saturatingSub reveal.slot issue.slot ≤ deadline.slots ∨
        ∃ x ∈ ((Node.spawn c ledger key nanos minted equivocation deadline).run c
          (before ++ [issue])).history c between,
          TakesOut c hash issue.slot deadline.slots x) := by
  have hspawn : Configured deadline (Node.spawn c ledger key nanos minted equivocation deadline) := by
    intro w hw
    obtain rfl := Option.some.inj hw
    rfl
  have hbefore : ∀ u ∈ before, u.command.AboutTickets := fun u hu => htickets u (by simp [hu])
  have hbetween : ∀ u ∈ between, u.command.AboutTickets := fun u hu => htickets u (by simp [hu])
  obtain ⟨hout, hmode, hslot⟩ :=
    outstanding_of_issued (hspawn.run (c := c) hbefore) hissue hissued
  have hrun : (Node.spawn c ledger key nanos minted equivocation deadline).run c
      (before ++ issue :: between) = ((((Node.spawn c ledger key nanos minted equivocation
        deadline).run c before).handle c issue).1).run c between := by
    simp [Node.run]
  rw [hrun, run_concat]
  rcases hout.run (c := c) hbetween with ⟨hnone, hend⟩ | ⟨htaken, hspent⟩
  · have hclaims := hend.claims (c := c) hreveal
    constructor
    · intro h
      exact .inl (h.1 hclaims)
    · rintro (htimely | ⟨x, hx, htakes⟩)
      · refine ⟨fun _ => htimely, ?_⟩
        intro op receipts executed blockhashes patience head hun hdeadline hreported hhead
        rw [reportsNotRevealed_iff hmode hun, hdeadline, hslot] at hreported
        simp only [UInt64.lt_iff_toNat_lt, UInt64.le_iff_toNat_le, toNat_saturatingSub]
          at hreported htimely hhead
        omega
      · exact absurd htakes (hnone x hx)
  · have hno := hspent.not_claims (c := c) hreveal
    constructor
    · intro _
      exact .inr htaken
    · intro _
      exact ⟨fun hclaims => absurd hclaims hno, fun _ _ _ _ _ _ _ _ _ _ => hno⟩

end Runs

namespace Vectors

/-- The node has promised the first position to the contents `abc`. -/
def promised : Node :=
  (ticketNode .default).run ticketCrypto [commitTurn firstCommitter 1754300123456789]

/-- The first slot past the deadline of that promise. -/
def overdueSlot : UInt64 := 6150402 + 151

def sweepTurn : Turn where
  command := .sweep
  slot := overdueSlot
  micros := 1754300131006789
  disk := fun _ => none

def lateRevealTurn : Turn := { revealTurn with slot := overdueSlot }

/-- Who watches this node. -/
def ticketOperator : Operator := ⟨Receipts.Vectors.operatorPubkey, stampedAbc.receipt.logId⟩

/-- What the watchtower makes of the ticket at that slot, having seen no block with it. -/
def overdueScan : Scan :=
  scanWithholding ticketCrypto [reservedAbc] .empty
    (BlockhashSlots.new BlockhashSlots.defaultCapacity) overdueSlot Patience.default ticketOperator

lemma promised_evaluates :
    (promised.writer.map fun w => (w.pending.held abcHash, w.deadline.slots)) =
        some (some (0, ⟨abcHash, firstCommitter, 6150402⟩), 150) ∧
      ((ticketNode .default).handle ticketCrypto
        (commitTurn firstCommitter 1754300123456789)).2 = .issued (.ok reservedAbc) ∧
      ticketOperator.accepts ticketCrypto reservedAbc = .ok () ∧
      takenBack ticketCrypto ticketOperator [reservedAbc] reservedAbc = none ∧
      (promised.handle ticketCrypto lateRevealTurn).2 =
        .revealed (some (0, ⟨abcHash, firstCommitter, 6150402⟩)) := by
  decide +kernel

lemma reservedAbc_unproduced :
    Unproduced ticketCrypto ticketOperator [reservedAbc] .empty reservedAbc :=
  ⟨List.mem_singleton_self _, promised_evaluates.2.2.1, promised_evaluates.2.2.2.1, rfl⟩

lemma overdueScan_reports : ReportsNotRevealed overdueScan reservedAbc overdueSlot :=
  (reportsNotRevealed_iff rfl reservedAbc_unproduced).mpr (by decide)

end Vectors

theorem sweep_expires_notRevealed_overdue :
    ∃ w w', Vectors.promised.writer = some w ∧
      w.pending.held Vectors.abcHash = some (0, ⟨Vectors.abcHash, Vectors.firstCommitter, 6150402⟩) ∧
      (Vectors.promised.handle Vectors.ticketCrypto Vectors.sweepTurn).1.writer = some w' ∧
      w'.pending.held Vectors.abcHash = none ∧
      ReportsNotRevealed Vectors.overdueScan Vectors.reservedAbc Vectors.overdueSlot := by
  obtain ⟨w, hw, hread⟩ := Option.map_eq_some_iff.mp Vectors.promised_evaluates.1
  obtain ⟨hheld, hslots⟩ := Prod.mk.inj hread
  obtain ⟨w', hw', hexpired, _⟩ :=
    sweep_expires_notRevealed (c := Vectors.ticketCrypto) (t := Vectors.sweepTurn) hw rfl
  refine ⟨w, w', hw, hheld, hw', ?_, Vectors.overdueScan_reports⟩
  refine (hexpired _ _ Vectors.reservedAbc hheld ⟨rfl, rfl, rfl, rfl, rfl⟩ _ _ _ _ _
    Vectors.reservedAbc_unproduced ?_).mpr Vectors.overdueScan_reports
  rw [hslots]
  rfl

/-- With no sweep in between, a reveal one slot past the deadline claims the ticket, which
the watchtower has reported as not revealed by then. -/
theorem overdue_ticket_claimed :
    (Vectors.commitTurn Vectors.firstCommitter 1754300123456789).slot ≤
        Vectors.lateRevealTurn.slot ∧
      ((Vectors.ticketNode .default).handle Vectors.ticketCrypto
        (Vectors.commitTurn Vectors.firstCommitter 1754300123456789)).2 =
          .issued (.ok Vectors.reservedAbc) ∧
      ReportsNotRevealed Vectors.overdueScan Vectors.reservedAbc Vectors.lateRevealTurn.slot ∧
      Claims Vectors.ticketCrypto
        ((Vectors.ticketNode .default).run Vectors.ticketCrypto
          [Vectors.commitTurn Vectors.firstCommitter 1754300123456789])
        Vectors.lateRevealTurn Vectors.reservedAbc.receipt.seq ∧
      ¬saturatingSub Vectors.lateRevealTurn.slot
          (Vectors.commitTurn Vectors.firstCommitter 1754300123456789).slot ≤
        RevealDeadline.default.slots := by
  obtain ⟨_, hissued, _, _, hclaimed⟩ := Vectors.promised_evaluates
  exact ⟨by decide, hissued, Vectors.overdueScan_reports, ⟨_, hclaimed⟩, by decide⟩

theorem reveal_keeps_deadline_iff_swept :
    ¬Claims Vectors.ticketCrypto
      ((Vectors.ticketNode .default).run Vectors.ticketCrypto
        [Vectors.commitTurn Vectors.firstCommitter 1754300123456789, Vectors.sweepTurn])
      Vectors.lateRevealTurn Vectors.reservedAbc.receipt.seq := by
  have htickets : ∀ u ∈ [] ++ Vectors.commitTurn Vectors.firstCommitter 1754300123456789 ::
      [Vectors.sweepTurn], u.command.AboutTickets := by
    intro u hu
    rcases List.mem_pair.mp hu with rfl | rfl
    · trivial
    · trivial
  have hoverdue : RevealDeadline.default.slots < saturatingSub Vectors.sweepTurn.slot
      (Vectors.commitTurn Vectors.firstCommitter 1754300123456789).slot := by
    decide
  have hreveal : Vectors.lateRevealTurn.command =
      .reveal Vectors.reservedAbc.receipt.txHash (Bytes.fill 64 0x11) := rfl
  have hkeeps := (reveal_keeps_deadline_iff htickets rfl Vectors.promised_evaluates.2.1
    hreveal).mpr (.inr ⟨_, List.mem_singleton_self _, hoverdue⟩)
  exact hkeeps.2 _ _ _ _ _ _ Vectors.reservedAbc_unproduced rfl Vectors.overdueScan_reports
    (UInt64.le_refl _)

end Blitz.Validator
