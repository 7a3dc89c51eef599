import Blitz.ReceiptWriterRuns

/-! The table of promises as the writer uses it: what it holds for a hash, how many
positions a committer has open, and what one turn does to tickets. -/
namespace Blitz.Validator
open LittleEndian Receipts CheckedArith

namespace PendingCommits
variable {p : PendingCommits} {hash : Bytes 32} {entry : UInt64 × PendingCommit}

def held (p : PendingCommits) (hash : Bytes 32) : Option (UInt64 × PendingCommit) := p.byHash[hash]?

lemma held_empty (hash : Bytes 32) : empty.held hash = none := by simp [held, empty]

lemma held_record (p : PendingCommits) (seq : UInt64) (hash committer : Bytes 32) (slot : UInt64) :
    (p.record seq hash committer slot).held =
      Function.update p.held hash (some (seq, ⟨hash, committer, slot⟩)) := by
  funext other
  by_cases ho : other = hash
  · subst ho
    simp [held, record]
  · have hne : ¬hash = other := fun he => ho he.symm
    simp [held, record, Std.TreeMap.getElem?_insert, ho, hne]

lemma held_of_update_none {held : Bytes 32 → Option (UInt64 × PendingCommit)} {hash other : Bytes 32}
    {entry : UInt64 × PendingCommit} (h : Function.update held hash none other = some entry) :
    held other = some entry := by
  by_cases ho : other = hash
  · rw [ho, Function.update_self] at h
    cases h
  · rwa [Function.update_of_ne ho] at h

lemma held_claim (p : PendingCommits) (hash : Bytes 32) :
    (p.claim hash).2.held = Function.update p.held hash none := by
  funext other
  by_cases ho : other = hash
  · subst ho
    simp [held, claim]
  · have hne : ¬hash = other := fun he => ho he.symm
    simp [held, claim, Std.TreeMap.getElem?_erase, ho, hne]

lemma foldl_claim (hashes : List (Bytes 32)) (removed : List (UInt64 × PendingCommit))
    (p : PendingCommits) :
    let out := hashes.foldl (fun (removed, p) hash =>
      let (claimed, p) := p.claim hash
      (removed ++ claimed.toList, p)) (removed, p)
    (∀ entry, entry ∈ out.1 ↔ entry ∈ removed ∨ ∃ hash ∈ hashes, p.held hash = some entry) ∧
      ∀ hash, out.2.held hash = if hash ∈ hashes then none else p.held hash := by
  induction hashes generalizing removed p with
  | nil => simp
  | cons first rest ih =>
    obtain ⟨hremoved, hheld⟩ := ih (removed ++ (p.claim first).1.toList) (p.claim first).2
    rw [held_claim] at hremoved hheld
    constructor
    · intro entry
      rw [List.foldl_cons]
      refine (hremoved entry).trans ?_
      simp only [List.mem_append, Option.mem_toList, List.exists_mem_cons_iff, or_assoc]
      apply or_congr Iff.rfl
      constructor
      · rintro (hfirst | ⟨hash, hm, hh⟩)
        · exact Or.inl hfirst
        · by_cases he : hash = first
          · subst he
            simp at hh
          · exact Or.inr ⟨hash, hm, by rwa [Function.update_of_ne he] at hh⟩
      · rintro (hfirst | ⟨hash, hm, hh⟩)
        · exact Or.inl hfirst
        · by_cases he : hash = first
          · subst he
            exact Or.inl hh
          · exact Or.inr ⟨hash, hm, by rwa [Function.update_of_ne he]⟩
    · intro hash
      rw [List.foldl_cons]
      refine (hheld hash).trans ?_
      by_cases he : hash = first
      · subst he
        simp
      · simp [he]

/-- Made before the cutoff. -/
def Stale (cutoff : UInt64) (entry : UInt64 × PendingCommit) : Prop :=
  entry.2.committedAtSlot < cutoff

lemma mem_stale {cutoff : UInt64} :
    hash ∈ (p.byHash.toList.filter fun row => row.2.2.committedAtSlot < cutoff).map Prod.fst ↔
      ∃ entry, p.held hash = some entry ∧ Stale cutoff entry := by
  simp only [List.mem_map, List.mem_filter, Prod.exists, exists_and_right, exists_eq_right,
    decide_eq_true_eq, Std.TreeMap.mem_toList_iff_getElem?_eq_some, held, Stale]

lemma mem_expire {cutoff : UInt64} :
    entry ∈ (p.expire cutoff).1 ↔ ∃ hash, p.held hash = some entry ∧ Stale cutoff entry := by
  unfold expire
  refine ((foldl_claim _ [] p).1 entry).trans ?_
  simp only [List.not_mem_nil, false_or, mem_stale]
  constructor
  · rintro ⟨hash, ⟨other, ho, hs⟩, hh⟩
    rw [hh] at ho
    obtain rfl := Option.some.inj ho
    exact ⟨hash, hh, hs⟩
  · rintro ⟨hash, hh, hs⟩
    exact ⟨hash, ⟨entry, hh, hs⟩, hh⟩

lemma held_expire {cutoff : UInt64} :
    (p.expire cutoff).2.held hash = some entry ↔
      p.held hash = some entry ∧ ¬Stale cutoff entry := by
  unfold expire
  refine (Eq.congr_left ((foldl_claim _ [] p).2 hash)).trans ?_
  split_ifs with hstale <;> rw [mem_stale] at hstale
  · obtain ⟨other, ho, hs⟩ := hstale
    constructor
    · intro he
      cases he
    · rintro ⟨hh, hn⟩
      rw [hh] at ho
      exact absurd (Option.some.inj ho ▸ hs) hn
  · constructor
    · intro hh
      exact ⟨hh, fun hs => hstale ⟨entry, hh, hs⟩⟩
    · exact fun hh => hh.1

/-- The hashes a committer has open. -/
def hashesOf (p : PendingCommits) (committer : Bytes 32) : List (Bytes 32) :=
  (p.byHash.toList.filter fun row => row.2.2.committer = committer).map Prod.fst

lemma mem_hashesOf {committer : Bytes 32} :
    hash ∈ p.hashesOf committer ↔ ∃ entry, p.held hash = some entry ∧ entry.2.committer = committer := by
  simp only [hashesOf, List.mem_map, List.mem_filter, Prod.exists, exists_and_right,
    exists_eq_right, decide_eq_true_eq, Std.TreeMap.mem_toList_iff_getElem?_eq_some, held]

lemma nodup_hashesOf (p : PendingCommits) (committer : Bytes 32) :
    (p.hashesOf committer).Nodup := by
  have hkeys : (p.byHash.toList.map Prod.fst).Nodup := by
    rw [Std.TreeMap.map_fst_toList_eq_keys]
    exact Std.TreeMap.nodup_keys
  exact hkeys.sublist (List.filter_sublist.map _)

lemma values_eq (p : PendingCommits) : p.byHash.values = p.byHash.toList.map Prod.snd := by
  change Std.DTreeMap.Internal.Impl.values _ = (Std.DTreeMap.Internal.Impl.Const.toList _).map _
  rw [Std.DTreeMap.Internal.Impl.values_eq_map_snd,
    Std.DTreeMap.Internal.Impl.Const.toList_eq_toListModel_map, List.map_map]
  rfl

lemma length_hashesOf (p : PendingCommits) (committer : Bytes 32) :
    (p.hashesOf committer).length = p.outstandingFor committer := by
  rw [hashesOf, outstandingFor, values_eq, List.filter_map, List.length_map, List.length_map]
  rfl

lemma length_le_outstandingFor {committer : Bytes 32} {hashes : List (Bytes 32)}
    (hnodup : hashes.Nodup) (hopen : hashes ⊆ p.hashesOf committer) :
    hashes.length ≤ p.outstandingFor committer := by
  rw [← length_hashesOf]
  exact (hnodup.subperm hopen).length_le

lemma outstandingFor_le_of_subset {p' : PendingCommits} {committer : Bytes 32}
    (h : ∀ hash entry, p'.held hash = some entry → p.held hash = some entry) :
    p'.outstandingFor committer ≤ p.outstandingFor committer := by
  rw [← length_hashesOf p']
  apply length_le_outstandingFor (nodup_hashesOf p' committer)
  intro hash hm
  obtain ⟨entry, hh, hc⟩ := mem_hashesOf.mp hm
  exact mem_hashesOf.mpr ⟨entry, h hash entry hh, hc⟩

lemma outstandingFor_le_of_update {p' : PendingCommits} {committer other : Bytes 32} {seq slot : UInt64}
    (h : p'.held = Function.update p.held hash (some (seq, ⟨hash, other, slot⟩))) :
    p'.outstandingFor committer ≤ p.outstandingFor committer + if committer = other then 1 else 0 := by
  have hsub : p'.hashesOf committer ⊆
      (if committer = other then [hash] else []) ++ p.hashesOf committer := by
    intro x hx
    obtain ⟨entry, hh, hc⟩ := mem_hashesOf.mp hx
    rw [h] at hh
    by_cases hxh : x = hash
    · subst hxh
      rw [Function.update_self] at hh
      obtain rfl := Option.some.inj hh
      simp [← hc]
    · rw [Function.update_of_ne hxh] at hh
      exact List.mem_append_right _ (mem_hashesOf.mpr ⟨entry, hh, hc⟩)
  have hle := ((nodup_hashesOf p' committer).subperm hsub).length_le
  rw [List.length_append, length_hashesOf, length_hashesOf] at hle
  split_ifs at hle ⊢ <;> simp at hle ⊢ <;> omega

end PendingCommits

namespace ReceiptLedger

/-- The outcome byte a reader finds at a position. -/
def outcomeAt (l : ReceiptLedger) (seq : UInt64) : Option UInt8 :=
  match l.readReceipt none seq with
  | .ok (some (outcome, _)) => some outcome
  | _ => none

/-- A row with its first byte replaced. -/
def remark (outcome : UInt8) : List UInt8 → List UInt8
  | [] => []
  | _ :: receipt => outcome :: receipt

lemma outcomeAt_of_row {l : ReceiptLedger} {seq : UInt64} {outcome : UInt8} {receipt : List UInt8}
    (h : l.receiptBySeq[seq]? = some (outcome :: receipt)) : l.outcomeAt seq = some outcome := by
  have hread : l.readReceipt none seq = .ok (some (outcome, receipt)) :=
    readReceipt_eq_ok.mpr ⟨rfl, h⟩
  simp only [outcomeAt, hread]

lemma row_setReceiptOutcome {l : ReceiptLedger} {disk : Disk} (hdisk : ∀ i, disk i = none)
    (seq : UInt64) (outcome : UInt8) (s : UInt64) :
    (l.setReceiptOutcome disk seq outcome).1.receiptBySeq[s]? =
      if s = seq then l.receiptBySeq[s]?.map (remark outcome) else l.receiptBySeq[s]? := by
  simp only [setReceiptOutcome, getBySeq, putBySeq, hdisk]
  cases hrow : l.receiptBySeq[seq]? with
  | none =>
    split_ifs with he
    · rw [he, hrow]
      rfl
    · rfl
  | some row =>
    cases row with
    | nil =>
      split_ifs with he
      · rw [he, hrow]
        rfl
      · rfl
    | cons b receipt =>
      split_ifs with he
      · subst he
        simp [hrow, remark]
      · have hne : ¬seq = s := fun heq => he heq.symm
        simp [Std.TreeMap.getElem?_insert, hne]

end ReceiptLedger

lemma row_markExpired {disk : Disk} (hdisk : ∀ i, disk i = none) (l : ReceiptLedger)
    (expired : List (UInt64 × PendingCommit)) (s : UInt64) :
    (Writer.markExpired disk l expired).receiptBySeq[s]? =
      if s ∈ expired.map Prod.fst then
        l.receiptBySeq[s]?.map (ReceiptLedger.remark Outcome.expired.asU8)
      else l.receiptBySeq[s]? := by
  have hfst : expired.map Prod.fst = expired.zipIdx.map fun entry => entry.1.1 := by
    rw [show (fun entry : (UInt64 × PendingCommit) × ℕ => entry.1.1) = Prod.fst ∘ Prod.fst from rfl,
      ← List.map_map, List.zipIdx_map_fst]
  have htwice (row : List UInt8) : ReceiptLedger.remark Outcome.expired.asU8
      (ReceiptLedger.remark Outcome.expired.asU8 row) =
        ReceiptLedger.remark Outcome.expired.asU8 row := by
    cases row <;> rfl
  rw [hfst, Writer.markExpired]
  generalize expired.zipIdx = entries
  induction entries generalizing l with
  | nil => simp
  | cons entry rest ih =>
    rw [List.foldl_cons, ih, ReceiptLedger.row_setReceiptOutcome (fun i => hdisk _)]
    rw [List.map_cons]
    by_cases hrest : s ∈ rest.map (fun entry => entry.1.1) <;> by_cases he : s = entry.1.1
    · rw [if_pos hrest, if_pos he, if_pos (List.mem_cons.mpr (Or.inl he)), Option.map_map]
      congr 1
      funext row
      exact htwice row
    · rw [if_pos hrest, if_neg he, if_pos (List.mem_cons.mpr (Or.inr hrest))]
    · rw [if_neg hrest, if_pos he, if_pos (List.mem_cons.mpr (Or.inl he))]
    · rw [if_neg hrest, if_neg he, if_neg (List.not_mem_cons_of_ne_of_not_mem he hrest)]

/-- The commands that tickets are made and spent by. -/
def WriterCommand.AboutTickets : WriterCommand → Prop
  | .commit _ _ => True
  | .reveal _ _ => True
  | .sweep => True
  | _ => False

/-- The ways a turn about tickets can end. -/
inductive TicketTurned (n : Node) (w : Writer) (t : Turn) : Node → Reply → Prop
  | refused {n' : Node} (hash committer : Bytes 32) (e : StampError) (w' : Writer)
      (command : t.command = .commit hash committer) (writer : n'.writer = some w')
      (held : w'.pending.held = w.pending.held) (seq : w'.seq = w.seq)
      (deadline : w'.deadline = w.deadline)
      (rows : n'.ledger.receiptBySeq = n.ledger.receiptBySeq) :
      TicketTurned n w t n' (.issued (.error e))
  | reserved {n' : Node} (hash committer : Bytes 32) (ticket : SignedReceipt) (w' : Writer)
      (command : t.command = .commit hash committer) (writer : n'.writer = some w')
      (room : w.pending.outstandingFor committer < w.deadline.maxOutstanding)
      (held : w'.pending.held =
        Function.update w.pending.held hash (some (w.seq, ⟨hash, committer, t.slot⟩)))
      (seq : w'.seq.toNat = w.seq.toNat + 1) (deadline : w'.deadline = w.deadline)
      (position : ticket.receipt.seq = w.seq)
      (rows : n'.ledger.receiptBySeq =
        n.ledger.receiptBySeq.insert w.seq (Outcome.pending.asU8 :: ticket.toBytes)) :
      TicketTurned n w t n' (.issued (.ok ticket))
  | panicked {n' : Node} (hash committer : Bytes 32) (command : t.command = .commit hash committer)
      (last : w.seq.toNat + 1 = 2 ^ 64) : TicketTurned n w t n' (.issued (.error .writerGone))
  | revealed {n' : Node} (hash : Bytes 32) (txSig : Bytes 64) (w' : Writer)
      (command : t.command = .reveal hash txSig) (writer : n'.writer = some w')
      (held : w'.pending.held = Function.update w.pending.held hash none) (seq : w'.seq = w.seq)
      (deadline : w'.deadline = w.deadline)
      (rows : n'.ledger.receiptBySeq = n.ledger.receiptBySeq) :
      TicketTurned n w t n' (.revealed (w.pending.held hash))
  | swept {n' : Node} (cutoff : UInt64) (w' : Writer) (command : t.command = .sweep)
      (writer : n'.writer = some w')
      (held : ∀ hash entry, w'.pending.held hash = some entry ↔
        w.pending.held hash = some entry ∧ ¬PendingCommits.Stale cutoff entry)
      (seq : w'.seq = w.seq) (deadline : w'.deadline = w.deadline)
      (marked : (∀ i, t.disk i = none) → ∀ hash entry, w.pending.held hash = some entry →
        PendingCommits.Stale cutoff entry → n'.ledger.receiptBySeq[entry.1]? =
          n.ledger.receiptBySeq[entry.1]?.map (ReceiptLedger.remark Outcome.expired.asU8))
      (others : (∀ i, t.disk i = none) → ∀ s, (∀ hash entry, w.pending.held hash = some entry →
        PendingCommits.Stale cutoff entry → entry.1 ≠ s) →
          n'.ledger.receiptBySeq[s]? = n.ledger.receiptBySeq[s]?) :
      TicketTurned n w t n' .silent

section Turned
variable {c : Crypto} {n : Node} {w : Writer} {t : Turn}

lemma ticketTurned_commit {hash committer : Bytes 32} (hcommand : t.command = .commit hash committer) :
    TicketTurned n w t (n.answer w (w.commit c n.ledger t hash committer)).1
      (n.answer w (w.commit c n.ledger t hash committer)).2 := by
  have hrefused (e : StampError) : TicketTurned n w t (n.answer w (n.ledger, .refused e)).1
      (n.answer w (n.ledger, .refused e)).2 :=
    .refused hash committer e _ hcommand rfl rfl rfl rfl rfl
  unfold Writer.commit
  split_ifs with hmany
  · exact hrefused _
  · cases hsign : (w.ticket t hash committer).sign c w.key with
    | error e => exact hrefused _
    | ok signed =>
      obtain ⟨_, hsigned⟩ := Receipt.sign_eq_ok.mp hsign
      have hposition : signed.receipt.seq = w.seq := by rw [hsigned]; rfl
      simp only [Writer.persist, ReceiptLedger.writeReceipt, ReceiptLedger.putBySeq]
      cases hdisk : t.disk 0 with
      | some e => exact hrefused _
      | none =>
        simp only [Writer.advance]
        cases hadd : checkedAdd w.seq 1 with
        | none =>
          have hlast : w.seq.toNat + 1 = 2 ^ 64 := by
            have hlt := w.seq.toNat_lt
            rw [checkedAdd_eq_none, UInt64.toNat_one] at hadd
            omega
          exact .panicked hash committer hcommand hlast
        | some seq =>
          exact .reserved hash committer signed _ hcommand rfl (not_le.mp hmany)
            (PendingCommits.held_record ..) (checkedAdd_eq_some.mp hadd) rfl hposition rfl

lemma row_indexReceiptSignature {l : ReceiptLedger} {disk : Disk} {seq : UInt64}
    {signature : Bytes 64} :
    (l.indexReceiptSignature disk seq signature).1.receiptBySeq = l.receiptBySeq := by
  simp only [ReceiptLedger.indexReceiptSignature, ReceiptLedger.putBySig]
  cases disk 0 <;> rfl

lemma reveal_eq (l : ReceiptLedger) (hash : Bytes 32) (txSig : Bytes 64) :
    ∃ w' l', w.reveal l t hash txSig = (w', l', w.pending.held hash) ∧
      w'.pending.held = Function.update w.pending.held hash none ∧ w'.seq = w.seq ∧
      w'.deadline = w.deadline ∧ l'.receiptBySeq = l.receiptBySeq := by
  have hheld := PendingCommits.held_claim w.pending hash
  have hclaim : w.pending.claim hash = (w.pending.held hash, (w.pending.claim hash).2) := rfl
  rw [Writer.reveal, hclaim]
  cases hh : w.pending.held hash with
  | none =>
    refine ⟨w, l, rfl, ?_, rfl, rfl, rfl⟩
    rw [eq_comm, Function.update_eq_self_iff, hh]
  | some claimed => exact ⟨_, _, rfl, hheld, rfl, rfl, row_indexReceiptSignature⟩

theorem handle_ticketTurned (hw : n.writer = some w) (hc : t.command.AboutTickets) :
    TicketTurned n w t (n.handle c t).1 (n.handle c t).2 := by
  unfold Node.handle
  rw [hw]
  cases hcommand : t.command with
  | stamp txSig wireBytes recentBlockhash =>
    rw [hcommand] at hc
    cases hc
  | recordOutcome seq outcome =>
    rw [hcommand] at hc
    cases hc
  | commit hash committer => exact ticketTurned_commit hcommand
  | reveal hash txSig =>
    obtain ⟨w', l', hreveal, hheld, hseq, hdeadline, hrows⟩ :=
      reveal_eq (w := w) (t := t) n.ledger hash txSig
    dsimp only
    rw [hreveal]
    exact .revealed hash txSig w' hcommand rfl hheld hseq hdeadline hrows
  | sweep =>
    refine .swept (saturatingSub t.slot w.deadline.slots) _ hcommand rfl
      (fun _ _ => PendingCommits.held_expire) rfl rfl ?_ ?_
    · intro hdisk hash entry hheld hstale
      refine (row_markExpired hdisk _ _ _).trans (if_pos ?_)
      exact List.mem_map_of_mem (PendingCommits.mem_expire.mpr ⟨hash, hheld, hstale⟩)
    · intro hdisk s hothers
      refine (row_markExpired hdisk _ _ _).trans (if_neg ?_)
      intro hm
      obtain ⟨entry, hentry, rfl⟩ := List.mem_map.mp hm
      obtain ⟨hash, hheld, hstale⟩ := PendingCommits.mem_expire.mp hentry
      exact hothers hash entry hheld hstale rfl

end Turned

end Blitz.Validator
