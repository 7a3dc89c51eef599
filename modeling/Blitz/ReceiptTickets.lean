import Blitz.ReceiptPending
import Blitz.Traces

/-! Commit tickets over whole runs: positions are handed out by sequence number, the
table of promises is keyed by content hash, and an orderly run keeps the two in step. -/
namespace Blitz.Validator
open LittleEndian Receipts CheckedArith Traces

/-- A run from `n`, as the turns with the nodes before and after them. -/
def Node.history (c : Crypto) : Node → List Turn → List (Entry Node Turn)
  | _, [] => []
  | n, t :: turns => ⟨n, t, (n.handle c t).1⟩ :: Node.history c (n.handle c t).1 turns

/-- The ticket an entry issued: content hash, committer and position. -/
def ticketOf (c : Crypto) (x : Entry Node Turn) : Option (Bytes 32 × Bytes 32 × UInt64) :=
  match x.event.command, (x.before.handle c x.event).2 with
  | .commit hash committer, .issued (.ok ticket) => some (hash, committer, ticket.receipt.seq)
  | _, _ => none

/-- The ticket an entry claimed: content hash and position. -/
def claimOf (c : Crypto) (x : Entry Node Turn) : Option (Bytes 32 × UInt64) :=
  match x.event.command, (x.before.handle c x.event).2 with
  | .reveal hash _, .revealed (some claimed) => some (hash, claimed.1)
  | _, _ => none

def tickets (c : Crypto) (t : List (Entry Node Turn)) : List (Bytes 32 × Bytes 32 × UInt64) :=
  t.filterMap (ticketOf c)

def Claimable (n : Node) (hash : Bytes 32) (seq : UInt64) : Prop :=
  ∃ w commit, n.writer = some w ∧ w.pending.held hash = some (seq, commit)

def Claimed (c : Crypto) (t : List (Entry Node Turn)) (hash : Bytes 32) (seq : UInt64) : Prop :=
  ∃ x ∈ t, claimOf c x = some (hash, seq)

instance (c : Crypto) (t : List (Entry Node Turn)) (hash : Bytes 32) (seq : UInt64) :
    Decidable (Claimed c t hash seq) :=
  inferInstanceAs (Decidable (∃ x ∈ t, _))

def Expired (n : Node) (seq : UInt64) : Prop :=
  n.ledger.outcomeAt seq = some Outcome.expired.asU8

instance (n : Node) (seq : UInt64) : Decidable (Expired n seq) :=
  inferInstanceAs (Decidable (_ = _))

/-- A commitment is to contents no outstanding ticket is for, and leaves room for a
next position; the storage works while a sweep marks what it drops. -/
def Orderly (x : Entry Node Turn) : Prop :=
  match x.event.command with
  | .commit hash _ => ∀ w, x.before.writer = some w →
      w.pending.held hash = none ∧ w.seq.toNat + 1 < 2 ^ 64
  | .sweep => ∀ i, x.event.disk i = none
  | _ => True

section Histories
variable {c : Crypto} {n : Node} {turns : List Turn} {t : Turn}

lemma run_concat (n : Node) (turns : List Turn) (t : Turn) :
    n.run c (turns ++ [t]) = ((n.run c turns).handle c t).1 := by
  simp [Node.run]

lemma history_concat (n : Node) (turns : List Turn) (t : Turn) :
    n.history c (turns ++ [t]) =
      n.history c turns ++ [⟨n.run c turns, t, ((n.run c turns).handle c t).1⟩] := by
  induction turns generalizing n with
  | nil => rfl
  | cons first turns ih =>
    rw [List.cons_append, Node.history, ih, Node.history, List.cons_append]
    rfl

lemma tickets_concat (h : List (Entry Node Turn)) (x : Entry Node Turn) :
    tickets c (h ++ [x]) = tickets c h ++ (ticketOf c x).toList := by
  cases hx : ticketOf c x <;> simp [tickets, hx]

lemma claimed_concat {h : List (Entry Node Turn)} {x : Entry Node Turn} {hash : Bytes 32}
    {seq : UInt64} :
    Claimed c (h ++ [x]) hash seq ↔ Claimed c h hash seq ∨ claimOf c x = some (hash, seq) := by
  simp [Claimed, or_and_right, exists_or]

lemma claimed_concat_of_none {h : List (Entry Node Turn)} {x : Entry Node Turn}
    (hnone : claimOf c x = none) (hash : Bytes 32) (seq : UInt64) :
    Claimed c (h ++ [x]) hash seq ↔ Claimed c h hash seq := by
  rw [claimed_concat, hnone]
  simp

end Histories

/-- The three places a ticket can be, with what the table and the row say there. -/
inductive TicketState (c : Crypto) (h : List (Entry Node Turn)) (n : Node) (w : Writer)
    (hash committer : Bytes 32) (seq : UInt64) : Prop
  | claimable (slot : UInt64) (receipt : List UInt8)
      (held : w.pending.held hash = some (seq, ⟨hash, committer, slot⟩))
      (unclaimed : ¬Claimed c h hash seq)
      (row : n.ledger.receiptBySeq[seq]? = some (Outcome.pending.asU8 :: receipt))
  | claimed (receipt : List UInt8) (free : ∀ hash entry, w.pending.held hash = some entry → entry.1 ≠ seq)
      (claimed : Claimed c h hash seq)
      (row : n.ledger.receiptBySeq[seq]? = some (Outcome.pending.asU8 :: receipt))
  | expired (receipt : List UInt8) (free : ∀ hash entry, w.pending.held hash = some entry → entry.1 ≠ seq)
      (unclaimed : ¬Claimed c h hash seq)
      (row : n.ledger.receiptBySeq[seq]? = some (Outcome.expired.asU8 :: receipt))

/-- What an orderly run keeps: the table's positions are different and lie below the
counter, no committer has more of them than the cap, and every ticket issued is in one
place. -/
structure TicketsKept (c : Crypto) (deadline : RevealDeadline) (h : List (Entry Node Turn))
    (n : Node) (w : Writer) : Prop where
  writer : n.writer = some w
  configured : w.deadline = deadline
  below : ∀ hash entry, w.pending.held hash = some entry → entry.1.toNat < w.seq.toNat
  apart : ∀ hash hash' entry entry', w.pending.held hash = some entry →
    w.pending.held hash' = some entry' → entry.1 = entry'.1 → hash = hash'
  past : ∀ hash seq, Claimed c h hash seq → seq.toNat < w.seq.toNat
  issued : ∀ ticket ∈ tickets c h, ticket.2.2.toNat < w.seq.toNat
  distinct : ((tickets c h).map fun ticket => ticket.2.2).Nodup
  state : ∀ hash committer seq, (hash, committer, seq) ∈ tickets c h →
    TicketState c h n w hash committer seq
  room : ∀ committer, w.pending.outstandingFor committer ≤ deadline.maxOutstanding

section Steps
variable {c : Crypto} {deadline : RevealDeadline} {h : List (Entry Node Turn)} {n : Node} {w : Writer}
  {t : Turn}

lemma ticketOf_eq_some {x : Entry Node Turn} {hash committer : Bytes 32} {seq : UInt64} :
    ticketOf c x = some (hash, committer, seq) ↔
      ∃ ticket, x.event.command = .commit hash committer ∧
        (x.before.handle c x.event).2 = .issued (.ok ticket) ∧ ticket.receipt.seq = seq := by
  unfold ticketOf
  split
  · next hash' committer' ticket hcommand hreply => simp [hcommand, hreply, and_assoc]
  · next hno =>
    simp only [false_iff, not_exists, reduceCtorEq]
    rintro ticket ⟨hcommand, hreply, _⟩
    exact hno _ _ _ hcommand hreply

lemma claimOf_eq_some {x : Entry Node Turn} {hash : Bytes 32} {seq : UInt64} :
    claimOf c x = some (hash, seq) ↔
      ∃ txSig commit, x.event.command = .reveal hash txSig ∧
        (x.before.handle c x.event).2 = .revealed (some (seq, commit)) := by
  unfold claimOf
  split
  · next hash' txSig claimed hcommand hreply =>
    simp only [hcommand, hreply, Option.some.injEq, Prod.mk.injEq, WriterCommand.reveal.injEq,
      Reply.revealed.injEq]
    constructor
    · rintro ⟨rfl, rfl⟩
      exact ⟨txSig, claimed.2, ⟨rfl, rfl⟩, rfl⟩
    · rintro ⟨_, commit, ⟨rfl, _⟩, rfl⟩
      exact ⟨rfl, rfl⟩
  · next hno =>
    simp only [false_iff, not_exists, reduceCtorEq]
    rintro txSig commit ⟨hcommand, hreply⟩
    exact hno _ _ _ hcommand hreply

lemma TicketState.frame {h' : List (Entry Node Turn)} {n' : Node} {w' : Writer}
    {hash committer : Bytes 32} {seq : UInt64} (hs : TicketState c h n w hash committer seq)
    (hclaimed : Claimed c h' hash seq ↔ Claimed c h hash seq)
    (hheld : ∀ commit, w.pending.held hash = some (seq, commit) →
      w'.pending.held hash = some (seq, commit))
    (hfree : ∀ hash entry, w'.pending.held hash = some entry → entry.1 = seq →
      ∃ hash, w.pending.held hash = some entry)
    (hrow : n'.ledger.receiptBySeq[seq]? = n.ledger.receiptBySeq[seq]?) :
    TicketState c h' n' w' hash committer seq := by
  have hstill (free : ∀ hash entry, w.pending.held hash = some entry → entry.1 ≠ seq) :
      ∀ hash entry, w'.pending.held hash = some entry → entry.1 ≠ seq := by
    intro other entry hh he
    obtain ⟨old, hold⟩ := hfree other entry hh he
    exact free old entry hold he
  cases hs with
  | claimable slot receipt hh hun hr =>
    exact .claimable slot receipt (hheld _ hh) (by rwa [hclaimed]) (by rwa [hrow])
  | claimed receipt free hc hr =>
    exact .claimed receipt (hstill free) (by rwa [hclaimed]) (by rwa [hrow])
  | expired receipt free hun hr =>
    exact .expired receipt (hstill free) (by rwa [hclaimed]) (by rwa [hrow])

lemma TicketsKept.shrink (hk : TicketsKept c deadline h n w) {x : Entry Node Turn} {n' : Node}
    {w' : Writer} (hno : ticketOf c x = none)
    (hclaims : ∀ hash seq, claimOf c x = some (hash, seq) →
      ∃ commit, w.pending.held hash = some (seq, commit))
    (writer : n'.writer = some w') (seq : w'.seq = w.seq) (hdeadline : w'.deadline = w.deadline)
    (hsub : ∀ hash entry, w'.pending.held hash = some entry → w.pending.held hash = some entry)
    (hstate : ∀ hash committer seq, TicketState c h n w hash committer seq →
      TicketState c (h ++ [x]) n' w' hash committer seq) :
    TicketsKept c deadline (h ++ [x]) n' w' := by
  have hsame : tickets c (h ++ [x]) = tickets c h := by
    rw [tickets_concat, hno, Option.toList_none, List.append_nil]
  constructor
  · exact writer
  · exact hdeadline.trans hk.configured
  · intro hash entry hh
    rw [seq]
    exact hk.below hash entry (hsub hash entry hh)
  · intro hash hash' entry entry' hh hh' he
    exact hk.apart hash hash' entry entry' (hsub _ _ hh) (hsub _ _ hh') he
  · intro hash s hclaimed
    rw [seq]
    rcases claimed_concat.mp hclaimed with hold | hnew
    · exact hk.past hash s hold
    · obtain ⟨commit, hh⟩ := hclaims hash s hnew
      exact hk.below hash _ hh
  · rw [hsame, seq]
    exact hk.issued
  · rw [hsame]
    exact hk.distinct
  · intro hash committer s hm
    rw [hsame] at hm
    exact hstate hash committer s (hk.state hash committer s hm)
  · intro committer
    exact (PendingCommits.outstandingFor_le_of_subset hsub).trans (hk.room committer)

lemma TicketsKept.free_of_gone (hk : TicketsKept c deadline h n w) {w' : Writer} {hash : Bytes 32}
    {seq : UInt64} {commit : PendingCommit} (hheld : w.pending.held hash = some (seq, commit))
    (hsub : ∀ hash entry, w'.pending.held hash = some entry → w.pending.held hash = some entry)
    (hgone : w'.pending.held hash = none) :
    ∀ hash entry, w'.pending.held hash = some entry → entry.1 ≠ seq := by
  -- Positions of the table belong to one hash, so emptying that hash frees them.
  intro other entry hh he
  have hsame := hk.apart other hash entry (seq, commit) (hsub _ _ hh) hheld he
  rw [hsame, hgone] at hh
  cases hh

lemma TicketsKept.refused (hk : TicketsKept c deadline h n w) {x : Entry Node Turn} {n' : Node}
    {w' : Writer} (hno : ticketOf c x = none) (hnone : claimOf c x = none)
    (writer : n'.writer = some w') (held : w'.pending.held = w.pending.held)
    (seq : w'.seq = w.seq) (hdeadline : w'.deadline = w.deadline)
    (rows : n'.ledger.receiptBySeq = n.ledger.receiptBySeq) :
    TicketsKept c deadline (h ++ [x]) n' w' := by
  apply hk.shrink hno _ writer seq hdeadline
  · intro hash entry hh
    rwa [held] at hh
  · intro hash committer s hstate
    apply hstate.frame (claimed_concat_of_none hnone hash s)
    · intro commit hh
      rwa [held]
    · intro other entry hh _
      exact ⟨other, by rwa [held] at hh⟩
    · rw [rows]
  · intro hash s he
    rw [hnone] at he
    cases he

lemma TicketsKept.revealed (hk : TicketsKept c deadline h n w) {x : Entry Node Turn} {n' : Node}
    {w' : Writer} {hash : Bytes 32} (hno : ticketOf c x = none)
    (hclaim : claimOf c x = (w.pending.held hash).map fun entry => (hash, entry.1))
    (writer : n'.writer = some w') (held : w'.pending.held = Function.update w.pending.held hash none)
    (seq : w'.seq = w.seq) (hdeadline : w'.deadline = w.deadline)
    (rows : n'.ledger.receiptBySeq = n.ledger.receiptBySeq) :
    TicketsKept c deadline (h ++ [x]) n' w' := by
  have hclaims (other : Bytes 32) (s : UInt64) (he : claimOf c x = some (other, s)) :
      other = hash ∧ ∃ commit, w.pending.held hash = some (s, commit) := by
    rw [hclaim] at he
    obtain ⟨entry, hh, hp⟩ := Option.map_eq_some_iff.mp he
    obtain ⟨rfl, rfl⟩ := Prod.mk.inj hp
    exact ⟨rfl, entry.2, hh⟩
  have hsub : ∀ other entry, w'.pending.held other = some entry →
      w.pending.held other = some entry := by
    intro other entry hh
    rw [held] at hh
    exact PendingCommits.held_of_update_none hh
  apply hk.shrink hno _ writer seq hdeadline hsub
  · intro other committer s hstate
    cases hstate with
    | claimable slot receipt hh hun hrow =>
      by_cases he : other = hash
      · -- The ticket's own contents: it is claimed by this very turn.
        subst he
        refine .claimed receipt ?_ (claimed_concat.mpr (Or.inr ?_)) (by rwa [rows])
        · exact hk.free_of_gone hh hsub (by rw [held, Function.update_self])
        · rw [hclaim, hh]
          rfl
      · refine .claimable slot receipt ?_ ?_ (by rwa [rows])
        · rwa [held, Function.update_of_ne he]
        · rw [claimed_concat, not_or]
          exact ⟨hun, fun hx => he (hclaims other s hx).1⟩
    | claimed receipt hfree hc hrow =>
      exact .claimed receipt (fun _ _ hh => hfree _ _ (hsub _ _ hh))
        (claimed_concat.mpr (Or.inl hc)) (by rwa [rows])
    | expired receipt hfree hun hrow =>
      refine .expired receipt (fun _ _ hh => hfree _ _ (hsub _ _ hh)) ?_ (by rwa [rows])
      rw [claimed_concat, not_or]
      refine ⟨hun, fun hx => ?_⟩
      obtain ⟨_, commit, hh⟩ := hclaims other s hx
      exact hfree hash _ hh rfl
  · intro other s he
    obtain ⟨rfl, commit, hh⟩ := hclaims other s he
    exact ⟨commit, hh⟩

lemma TicketsKept.swept (hk : TicketsKept c deadline h n w) {x : Entry Node Turn} {n' : Node}
    {w' : Writer} {cutoff : UInt64} (hno : ticketOf c x = none) (hnone : claimOf c x = none)
    (writer : n'.writer = some w')
    (held : ∀ hash entry, w'.pending.held hash = some entry ↔
      w.pending.held hash = some entry ∧ ¬PendingCommits.Stale cutoff entry)
    (seq : w'.seq = w.seq) (hdeadline : w'.deadline = w.deadline)
    (marked : ∀ hash entry, w.pending.held hash = some entry → PendingCommits.Stale cutoff entry →
      n'.ledger.receiptBySeq[entry.1]? =
        n.ledger.receiptBySeq[entry.1]?.map (ReceiptLedger.remark Outcome.expired.asU8))
    (others : ∀ s, (∀ hash entry, w.pending.held hash = some entry →
      PendingCommits.Stale cutoff entry → entry.1 ≠ s) →
        n'.ledger.receiptBySeq[s]? = n.ledger.receiptBySeq[s]?) :
    TicketsKept c deadline (h ++ [x]) n' w' := by
  have hclaimed := claimed_concat_of_none (h := h) hnone
  have hsub : ∀ hash entry, w'.pending.held hash = some entry →
      w.pending.held hash = some entry := fun hash entry hh => ((held hash entry).mp hh).1
  apply hk.shrink hno _ writer seq hdeadline hsub
  · intro hash committer s hstate
    cases hstate with
    | claimable slot receipt hh hun hrow =>
      by_cases hstale : PendingCommits.Stale cutoff (s, ⟨hash, committer, slot⟩)
      · -- Dropped and marked in one turn.
        have hgone : w'.pending.held hash = none := by
          rw [Option.eq_none_iff_forall_ne_some]
          intro entry he
          obtain ⟨hh', hfresh⟩ := (held hash entry).mp he
          rw [hh] at hh'
          exact hfresh (Option.some.inj hh' ▸ hstale)
        refine .expired receipt (hk.free_of_gone hh hsub hgone) (by rwa [hclaimed]) ?_
        rw [marked hash _ hh hstale, hrow]
        rfl
      · refine .claimable slot receipt ((held hash _).mpr ⟨hh, hstale⟩) (by rwa [hclaimed]) ?_
        rw [others s, hrow]
        intro other entry hh' hstale' he
        obtain rfl := hk.apart other hash entry _ hh' hh he
        rw [hh] at hh'
        exact hstale (Option.some.inj hh' ▸ hstale')
    | claimed receipt hfree hc hrow =>
      refine .claimed receipt (fun _ _ hh => hfree _ _ (hsub _ _ hh)) (by rwa [hclaimed]) ?_
      rw [others s fun other entry hh _ => hfree other entry hh, hrow]
    | expired receipt hfree hun hrow =>
      refine .expired receipt (fun _ _ hh => hfree _ _ (hsub _ _ hh)) (by rwa [hclaimed]) ?_
      rw [others s fun other entry hh _ => hfree other entry hh, hrow]
  · intro hash s he
    rw [hnone] at he
    cases he

lemma held_reserved {w' : Writer} {hash other : Bytes 32} {new entry : UInt64 × PendingCommit}
    (held : w'.pending.held = Function.update w.pending.held hash (some new))
    (hh : w'.pending.held other = some entry) :
    (other = hash ∧ entry = new) ∨ (other ≠ hash ∧ w.pending.held other = some entry) := by
  rw [held] at hh
  by_cases he : other = hash
  · rw [he, Function.update_self] at hh
    exact Or.inl ⟨he, (Option.some.inj hh).symm⟩
  · exact Or.inr ⟨he, by rwa [Function.update_of_ne he] at hh⟩

lemma TicketsKept.apart_reserved (hk : TicketsKept c deadline h n w) {w' : Writer}
    {hash : Bytes 32} {commit : PendingCommit}
    (held : w'.pending.held = Function.update w.pending.held hash (some (w.seq, commit)))
    {other other' : Bytes 32} {entry entry' : UInt64 × PendingCommit}
    (hh : w'.pending.held other = some entry) (hh' : w'.pending.held other' = some entry')
    (he : entry.1 = entry'.1) : other = other' := by
  -- The new position is the counter's, which no other entry has reached.
  rcases held_reserved held hh with ⟨rfl, rfl⟩ | ⟨_, hold⟩ <;>
    rcases held_reserved held hh' with ⟨rfl, rfl⟩ | ⟨_, hold'⟩
  · rfl
  · have hbelow := hk.below _ _ hold'
    rw [← he] at hbelow
    exact absurd hbelow (lt_irrefl _)
  · have hbelow := hk.below _ _ hold
    rw [he] at hbelow
    exact absurd hbelow (lt_irrefl _)
  · exact hk.apart other other' entry entry' hold hold' he

lemma TicketsKept.state_reserved (hk : TicketsKept c deadline h n w) {x : Entry Node Turn}
    {n' : Node} {w' : Writer} {hash : Bytes 32} {commit : PendingCommit} {row : List UInt8}
    (hnone : claimOf c x = none) (hnew : w.pending.held hash = none)
    (held : w'.pending.held = Function.update w.pending.held hash (some (w.seq, commit)))
    (rows : n'.ledger.receiptBySeq = n.ledger.receiptBySeq.insert w.seq row)
    {other committer : Bytes 32} {s : UInt64} (hold : (other, committer, s) ∈ tickets c h) :
    TicketState c (h ++ [x]) n' w' other committer s := by
  have hlt : s.toNat < w.seq.toNat := hk.issued _ hold
  have hne : w.seq ≠ s := by
    rintro rfl
    exact lt_irrefl _ hlt
  apply (hk.state other committer s hold).frame (claimed_concat_of_none hnone other s)
  · intro kept hh
    have hother : other ≠ hash := by
      rintro rfl
      rw [hnew] at hh
      cases hh
    rwa [held, Function.update_of_ne hother]
  · intro any entry hh hs
    rcases held_reserved held hh with ⟨_, rfl⟩ | ⟨_, hold⟩
    · exact absurd hs hne
    · exact ⟨any, hold⟩
  · rw [rows, Std.TreeMap.getElem?_insert]
    simp [hne]

lemma TicketsKept.reserved (hk : TicketsKept c deadline h n w) {x : Entry Node Turn} {n' : Node}
    {w' : Writer} {hash committer : Bytes 32} {slot : UInt64} {receipt : List UInt8}
    (hticket : ticketOf c x = some (hash, committer, w.seq)) (hnone : claimOf c x = none)
    (writer : n'.writer = some w') (hnew : w.pending.held hash = none)
    (room : w.pending.outstandingFor committer < w.deadline.maxOutstanding)
    (held : w'.pending.held =
      Function.update w.pending.held hash (some (w.seq, ⟨hash, committer, slot⟩)))
    (seq : w'.seq.toNat = w.seq.toNat + 1) (hdeadline : w'.deadline = w.deadline)
    (rows : n'.ledger.receiptBySeq =
      n.ledger.receiptBySeq.insert w.seq (Outcome.pending.asU8 :: receipt)) :
    TicketsKept c deadline (h ++ [x]) n' w' := by
  have htickets : tickets c (h ++ [x]) = tickets c h ++ [(hash, committer, w.seq)] := by
    rw [tickets_concat, hticket, Option.toList_some]
  constructor
  · exact writer
  · exact hdeadline.trans hk.configured
  · intro other entry hh
    rcases held_reserved held hh with ⟨_, rfl⟩ | ⟨_, hold⟩
    · change w.seq.toNat < _
      omega
    · have := hk.below other entry hold
      omega
  · intro other other' entry entry' hh hh' he
    exact hk.apart_reserved held hh hh' he
  · intro other s hc
    have := hk.past other s ((claimed_concat_of_none hnone other s).mp hc)
    omega
  · intro ticket hm
    rw [htickets] at hm
    rcases List.mem_append.mp hm with hold | hlast
    · have := hk.issued ticket hold
      omega
    · obtain rfl := List.mem_singleton.mp hlast
      change w.seq.toNat < _
      omega
  · rw [htickets, List.map_append, List.map_singleton]
    refine hk.distinct.append (List.nodup_singleton _) ?_
    intro s hs hlast
    obtain ⟨ticket, hm, rfl⟩ := List.mem_map.mp hs
    have hlt := hk.issued ticket hm
    rw [List.mem_singleton.mp hlast] at hlt
    exact lt_irrefl _ hlt
  · intro other committer' s hm
    rw [htickets] at hm
    rcases List.mem_append.mp hm with hold | hlast
    · exact hk.state_reserved hnone hnew held rows hold
    · simp only [List.mem_singleton, Prod.mk.injEq] at hlast
      obtain ⟨rfl, rfl, rfl⟩ := hlast
      refine .claimable slot receipt (by rw [held, Function.update_self]) ?_ ?_
      · rw [claimed_concat_of_none hnone]
        intro hc
        exact lt_irrefl _ (hk.past _ _ hc)
      · rw [rows, Std.TreeMap.getElem?_insert_self]
  · intro other
    have hle : w'.pending.outstandingFor other ≤
        w.pending.outstandingFor other + if other = committer then 1 else 0 :=
      PendingCommits.outstandingFor_le_of_update held
    have hroom := hk.room other
    split_ifs at hle with he
    · subst he
      rw [hk.configured] at room
      omega
    · omega

theorem TicketsKept.handle (hk : TicketsKept c deadline h n w) (hc : t.command.AboutTickets)
    (horderly : Orderly ⟨n, t, (n.handle c t).1⟩) :
    ∃ w', TicketsKept c deadline (h ++ [⟨n, t, (n.handle c t).1⟩]) (n.handle c t).1 w' := by
  have hturn := handle_ticketTurned (c := c) hk.writer hc
  have hticket (hno : ∀ ticket, (n.handle c t).2 ≠ .issued (.ok ticket)) :
      ticketOf c ⟨n, t, (n.handle c t).1⟩ = none := by
    rw [Option.eq_none_iff_forall_ne_some]
    rintro ⟨hash, committer, seq⟩ he
    obtain ⟨ticket, _, hreply, _⟩ := ticketOf_eq_some.mp he
    exact hno ticket hreply
  have hclaim (hno : ∀ claimed, (n.handle c t).2 ≠ .revealed claimed) :
      claimOf c ⟨n, t, (n.handle c t).1⟩ = none := by
    rw [Option.eq_none_iff_forall_ne_some]
    rintro ⟨hash, seq⟩ he
    obtain ⟨_, commit, _, hreply⟩ := claimOf_eq_some.mp he
    exact hno _ hreply
  generalize hn' : (n.handle c t).1 = n' at *
  generalize hreply : (n.handle c t).2 = reply at *
  cases hturn with
  | refused hash committer e w' command writer held seq hdeadline rows =>
    exact ⟨w', hk.refused (hticket (by simp)) (hclaim (by simp)) writer held seq hdeadline rows⟩
  | reserved hash committer ticket w' command writer room held seq hdeadline position rows =>
    have hissued : ticketOf c ⟨n, t, n'⟩ = some (hash, committer, w.seq) :=
      ticketOf_eq_some.mpr ⟨ticket, command, hreply, position⟩
    have hnew : w.pending.held hash = none := by
      simp only [Orderly, command] at horderly
      exact (horderly w hk.writer).1
    exact ⟨w', hk.reserved hissued (hclaim (by simp)) writer hnew room held seq hdeadline rows⟩
  | panicked hash committer command last =>
    simp only [Orderly, command] at horderly
    have := (horderly w hk.writer).2
    omega
  | revealed hash txSig w' command writer held seq hdeadline rows =>
    refine ⟨w', hk.revealed (hticket (by simp)) ?_ writer held seq hdeadline rows⟩
    cases hh : w.pending.held hash with
    | none =>
      apply Option.eq_none_iff_forall_ne_some.mpr
      rintro ⟨other, s⟩ he
      obtain ⟨_, commit, _, hr⟩ := claimOf_eq_some.mp he
      dsimp only at hr
      rw [hreply, hh] at hr
      cases hr
    | some entry =>
      refine claimOf_eq_some.mpr ⟨txSig, entry.2, command, ?_⟩
      dsimp only
      rw [hreply, hh]
  | swept cutoff w' command writer held seq hdeadline marked others =>
    simp only [Orderly, command] at horderly
    exact ⟨w', hk.swept (hticket (by simp)) (hclaim (by simp)) writer held seq hdeadline
      (marked horderly) (others horderly)⟩

end Steps

section Runs
variable {c : Crypto} {ledger : ReceiptLedger} {key : Bytes 32} {nanos minted : UInt64}
  {equivocation : Bool} {deadline : RevealDeadline} {turns : List Turn}

/-- A run of a fresh writer whose turns are about tickets and orderly. -/
structure OrderlyRun (c : Crypto) (n : Node) (turns : List Turn) : Prop where
  tickets : ∀ t ∈ turns, t.command.AboutTickets
  orderly : ∀ x ∈ n.history c turns, Orderly x

lemma ticketsKept_spawn :
    TicketsKept c deadline [] (Node.spawn c ledger key nanos minted equivocation deadline)
      (Writer.new c key nanos minted equivocation deadline) := by
  have hempty (hash : Bytes 32) :
      (Writer.new c key nanos minted equivocation deadline).pending.held hash = none :=
    PendingCommits.held_empty hash
  constructor
  · rfl
  · rfl
  · intro hash entry hh
    rw [hempty] at hh
    cases hh
  · intro hash hash' entry entry' hh
    rw [hempty] at hh
    cases hh
  · rintro hash seq ⟨x, hx, _⟩
    cases hx
  · simp [tickets]
  · simp [tickets]
  · simp [tickets]
  · intro committer
    have hnone := PendingCommits.length_hashesOf
      (Writer.new c key nanos minted equivocation deadline).pending committer
    rw [← hnone, List.length_eq_zero_iff.mpr]
    · exact Nat.zero_le _
    · rw [List.eq_nil_iff_forall_not_mem]
      intro hash hm
      obtain ⟨entry, hh, _⟩ := PendingCommits.mem_hashesOf.mp hm
      rw [hempty] at hh
      cases hh

theorem OrderlyRun.ticketsKept
    (hrun : OrderlyRun c (Node.spawn c ledger key nanos minted equivocation deadline) turns) :
    ∃ w, TicketsKept c deadline
      ((Node.spawn c ledger key nanos minted equivocation deadline).history c turns)
      ((Node.spawn c ledger key nanos minted equivocation deadline).run c turns) w := by
  induction turns using List.reverseRecOn with
  | nil => exact ⟨_, ticketsKept_spawn⟩
  | append_singleton turns t ih =>
    obtain ⟨htickets, horderly⟩ := hrun
    rw [history_concat] at horderly
    obtain ⟨w, hk⟩ := ih ⟨fun u hu => htickets u (List.mem_append_left _ hu),
      fun x hx => horderly x (List.mem_append_left _ hx)⟩
    rw [history_concat, run_concat]
    exact hk.handle (htickets t (by simp)) (horderly _ (by simp))

end Runs

end Blitz.Validator
