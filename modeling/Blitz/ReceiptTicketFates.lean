import Blitz.ReceiptTickets

/-! What becomes of a commit ticket, and how many of them a committer can have open;
and what two commitments to one transaction do to both. -/
namespace Blitz.Validator
open LittleEndian Receipts Traces

section Runs
variable {c : Crypto} {ledger : ReceiptLedger} {key : Bytes 32} {nanos minted : UInt64}
  {equivocation : Bool} {deadline : RevealDeadline} {turns : List Turn}

/-- One of three, and no two of them. -/
def ExactlyOne (p q r : Prop) : Prop := (p ∧ ¬q ∧ ¬r) ∨ (¬p ∧ q ∧ ¬r) ∨ (¬p ∧ ¬q ∧ r)

lemma TicketState.exactlyOne {h : List (Entry Node Turn)} {n : Node} {w : Writer}
    {hash committer : Bytes 32} {seq : UInt64} (hw : n.writer = some w)
    (hstate : TicketState c h n w hash committer seq) :
    ExactlyOne (Claimable n hash seq) (Claimed c h hash seq) (Expired n seq) := by
  have hnot (free : ∀ hash entry, w.pending.held hash = some entry → entry.1 ≠ seq) :
      ¬Claimable n hash seq := by
    rintro ⟨w', commit, hw', hh⟩
    obtain rfl := Option.some.inj (hw.symm.trans hw')
    exact free hash _ hh rfl
  have houtcome {outcome : UInt8} {receipt : List UInt8}
      (hrow : n.ledger.receiptBySeq[seq]? = some (outcome :: receipt)) :
      Expired n seq ↔ outcome = Outcome.expired.asU8 := by
    rw [Expired, ReceiptLedger.outcomeAt_of_row hrow, Option.some.injEq]
  cases hstate with
  | claimable slot receipt hh hun hrow =>
    exact Or.inl ⟨⟨w, _, hw, hh⟩, hun, by rw [houtcome hrow]; decide⟩
  | claimed receipt free hc hrow =>
    exact Or.inr (Or.inl ⟨hnot free, hc, by rw [houtcome hrow]; decide⟩)
  | expired receipt free hun hrow =>
    exact Or.inr (Or.inr ⟨hnot free, hun, (houtcome hrow).mpr rfl⟩)

lemma Claimable.reveal {n : Node} {hash : Bytes 32} {seq : UInt64} (h : Claimable n hash seq)
    {t : Turn} {txSig : Bytes 64} (hcommand : t.command = .reveal hash txSig) :
    ∃ commit, (n.handle c t).2 = .revealed (some (seq, commit)) := by
  obtain ⟨w, commit, hw, hh⟩ := h
  obtain ⟨w', l', hreveal, _⟩ := reveal_eq (w := w) (t := t) n.ledger hash txSig
  refine ⟨commit, ?_⟩
  rw [Node.handle, hw, hcommand]
  dsimp only
  rw [hreveal, hh]

/-- In an orderly run every ticket is claimable, claimed or recorded as expired, and
only one of the three; while it is outstanding, its contents still claim a position
that is no later. -/
theorem ticket_never_lost {hash committer : Bytes 32} {seq : UInt64}
    (hrun : OrderlyRun c (Node.spawn c ledger key nanos minted equivocation deadline) turns)
    (hticket : (hash, committer, seq) ∈
      tickets c ((Node.spawn c ledger key nanos minted equivocation deadline).history c turns)) :
    ExactlyOne
        (Claimable ((Node.spawn c ledger key nanos minted equivocation deadline).run c turns)
          hash seq)
        (Claimed c ((Node.spawn c ledger key nanos minted equivocation deadline).history c turns)
          hash seq)
        (Expired ((Node.spawn c ledger key nanos minted equivocation deadline).run c turns) seq) ∧
      (¬Claimed c ((Node.spawn c ledger key nanos minted equivocation deadline).history c turns)
          hash seq →
        ¬Expired ((Node.spawn c ledger key nanos minted equivocation deadline).run c turns) seq →
        ∀ t txSig, t.command = .reveal hash txSig →
          ∃ position commit,
            (((Node.spawn c ledger key nanos minted equivocation deadline).run c turns).handle c
              t).2 = .revealed (some (position, commit)) ∧ position ≤ seq) := by
  obtain ⟨w, hk⟩ := hrun.ticketsKept
  have hone := (hk.state hash committer seq hticket).exactlyOne hk.writer
  refine ⟨hone, ?_⟩
  intro hunclaimed hpending t txSig hcommand
  rcases hone with ⟨hclaimable, _⟩ | ⟨_, hclaimed, _⟩ | ⟨_, _, hexpired⟩
  · obtain ⟨commit, hreply⟩ := hclaimable.reveal (c := c) hcommand
    exact ⟨seq, commit, hreply, UInt64.le_refl _⟩
  · exact absurd hclaimed hunclaimed
  · exact absurd hexpired hpending

/-- The tickets of a committer that are neither revealed nor recorded as expired. -/
def openTickets (c : Crypto) (committer : Bytes 32) (h : List (Entry Node Turn)) (n : Node) :
    List (Bytes 32 × Bytes 32 × UInt64) :=
  (tickets c h).filter fun ticket => ticket.2.1 = committer ∧ ¬Claimed c h ticket.1 ticket.2.2 ∧
    ¬Expired n ticket.2.2

/-- In an orderly run no committer ever has more tickets open than the cap. -/
theorem openTickets_le_cap (committer : Bytes 32)
    (hrun : OrderlyRun c (Node.spawn c ledger key nanos minted equivocation deadline) turns) :
    (openTickets c committer
        ((Node.spawn c ledger key nanos minted equivocation deadline).history c turns)
        ((Node.spawn c ledger key nanos minted equivocation deadline).run c turns)).length ≤
      deadline.maxOutstanding := by
  obtain ⟨w, hk⟩ := hrun.ticketsKept
  generalize (Node.spawn c ledger key nanos minted equivocation deadline).history c turns = h at *
  generalize (Node.spawn c ledger key nanos minted equivocation deadline).run c turns = n at *
  have hopen : ∀ ticket ∈ openTickets c committer h n,
      ∃ commit, w.pending.held ticket.1 = some (ticket.2.2, commit) ∧
        commit.committer = committer := by
    rintro ⟨hash, other, seq⟩ hm
    simp only [openTickets, List.mem_filter, decide_eq_true_eq] at hm
    obtain ⟨hticket, rfl, hunclaimed, hpending⟩ := hm
    cases hk.state hash other seq hticket with
    | claimable slot receipt hh hun hrow => exact ⟨_, hh, rfl⟩
    | claimed receipt free hc hrow => exact absurd hc hunclaimed
    | expired receipt free hun hrow => exact absurd (ReceiptLedger.outcomeAt_of_row hrow) hpending
  have hseqs : ((openTickets c committer h n).map fun ticket => ticket.2.2).Nodup :=
    hk.distinct.sublist (List.filter_sublist.map _)
  -- One hash holds one position, so different positions are under different hashes.
  have hhashes : ((openTickets c committer h n).map fun ticket => ticket.1).Nodup := by
    apply List.Nodup.map_on _ (List.Nodup.of_map _ hseqs)
    intro ticket hm ticket' hm' he
    obtain ⟨commit, hh, _⟩ := hopen ticket hm
    obtain ⟨commit', hh', _⟩ := hopen ticket' hm'
    rw [he, hh'] at hh
    exact List.inj_on_of_nodup_map hseqs hm hm' (congrArg Prod.fst (Option.some.inj hh)).symm
  have hcounted : ((openTickets c committer h n).map fun ticket => ticket.1) ⊆
      w.pending.hashesOf committer := by
    intro hash hm
    obtain ⟨ticket, hticket, rfl⟩ := List.mem_map.mp hm
    obtain ⟨commit, hh, hc⟩ := hopen ticket hticket
    exact PendingCommits.mem_hashesOf.mpr ⟨_, hh, hc⟩
  have hle := PendingCommits.length_le_outstandingFor hhashes hcounted
  rw [List.length_map] at hle
  exact hle.trans (hk.room committer)

end Runs

namespace Vectors

def firstCommitter : Bytes 32 := Bytes.fill 32 0x21
def secondCommitter : Bytes 32 := Bytes.fill 32 0x22

/-- The hash of `abc`, which is all the writer is told. -/
def abcHash : Bytes 32 := stampedAbc.receipt.txHash

def reservedAbc : SignedReceipt where
  receipt :=
    { logId := stampedAbc.receipt.logId
      mode := .commit
      seq := 0
      txSig := zeroSig
      txHash := abcHash
      recentBlockhash := zeroHash
      prevReceiptHash := genesisPrevHash
      committer := firstCommitter
      ingressSlot := 6150402
      tIngressMicros := 1754300123456789 }
  signature := Bytes.hex 64
    0x3840bbe3308f8e59e3ba12a3a2f7efc11b47dbc3b813374ff9f1fb4a757f164affd55ec12d8a4aa7c4e6c5a6c7e7361c2a314cfd6ac9999532e48ec7fb9c6f08

/-- The same committer asks again. -/
def reservedAgain : SignedReceipt where
  receipt :=
    { reservedAbc.receipt with
      seq := 1
      prevReceiptHash :=
        Bytes.hex 32 0x7b088b66d9242ac17b7203625c324b993ac3b80c9466dad31421fffe821feaa5
      tIngressMicros := 1754300123556789 }
  signature := Bytes.hex 64
    0x8d9d335a06e304a572a22cf2c7dbbb2cb77d548029f52d4d3aa38774e248f356f624ff7ec0c5feff683c97dece334a75928e22e73969162cc305cd9152c3ad04

/-- And again. -/
def reservedThrice : SignedReceipt where
  receipt :=
    { reservedAgain.receipt with
      seq := 2
      prevReceiptHash :=
        Bytes.hex 32 0xed4a02355b4bb426966c7358f2df571ea1cfd5c4adbe5a26059e4f42d0f2db60
      tIngressMicros := 1754300123656789 }
  signature := Bytes.hex 64
    0x5a05660d5035fd8b6c344291a93a617024a71f77ab06f90d3d92510226d555a641016e7b319d86fc9256ebd3ff193d3d32404c29c70408f4f4c8984a9f096901

/-- Somebody who saw the ticket asks for the same contents. -/
def reservedRival : SignedReceipt where
  receipt := { reservedAgain.receipt with committer := secondCommitter }
  signature := Bytes.hex 64
    0x7c661de9415e0f32a4eae1b9160f40a32a79c4069699937d5c1171a026e6817dcaa4adae804f236a9a749f65d99838a5d5a2f468f75ab93f9a2dc5bec3b14309

def ticketCrypto : Crypto :=
  recorded Receipts.Vectors.operatorSeed Receipts.Vectors.operatorPubkey
    ([reservedAbc, reservedAgain, reservedThrice, reservedRival].map fun s => (s.message, s.signature))
    [(Receipts.Vectors.operatorPubkey.val ++ u64Bytes nanos ++ u64Bytes 0, stampedAbc.receipt.logId),
      (reservedAbc.toBytes, reservedAgain.receipt.prevReceiptHash),
      (reservedAgain.toBytes, reservedThrice.receipt.prevReceiptHash),
      (reservedThrice.toBytes,
        Bytes.hex 32 0x2bb63a2f134f8d1c60c8d1724db7a724d7140c19fc58b386e5f6d719b26f5354),
      (reservedRival.toBytes,
        Bytes.hex 32 0xa1771b66313bb9c722ddfeb2b60afe14770396c2aa8d17aa1d5f1b0bf5626cc5)] []

def ticketNode (deadline : RevealDeadline) : Node :=
  Node.spawn ticketCrypto .empty Receipts.Vectors.operatorSeed nanos 0 false deadline

def commitTurn (committer : Bytes 32) (micros : UInt64) : Turn where
  command := .commit abcHash committer
  slot := 6150402
  micros := micros
  disk := fun _ => none

def revealTurn : Turn where
  command := .reveal abcHash (Bytes.fill 64 0x11)
  slot := 6150403
  micros := 1754300123606789
  disk := fun _ => none

/-- Commit and reveal, as it should go. -/
def honestTurns : List Turn := [commitTurn firstCommitter 1754300123456789, revealTurn]

/-- Another commitment to contents that are still outstanding. -/
def contestedTurns : List Turn :=
  [commitTurn firstCommitter 1754300123456789, commitTurn secondCommitter 1754300123556789]

/-- One committer asks for the same contents three times. -/
def repeatedTurns : List Turn :=
  [commitTurn firstCommitter 1754300123456789, commitTurn firstCommitter 1754300123556789,
    commitTurn firstCommitter 1754300123656789]

/-- Two positions per committer, as the environment may set it. -/
def twoEach : RevealDeadline := ⟨150, 2⟩

lemma ticketRuns_evaluate :
    tickets ticketCrypto ((ticketNode .default).history ticketCrypto honestTurns) =
        [(abcHash, firstCommitter, 0)] ∧
      tickets ticketCrypto
          ((ticketNode .default).history ticketCrypto contestedTurns) =
        [(abcHash, firstCommitter, 0), (abcHash, secondCommitter, 1)] ∧
      (((ticketNode .default).run ticketCrypto contestedTurns).writer.map
          fun w => w.pending.held abcHash) =
        some (some (1, ⟨abcHash, secondCommitter, 6150402⟩)) ∧
      ¬Claimed ticketCrypto
          ((ticketNode .default).history ticketCrypto contestedTurns) abcHash 0 ∧
      ¬Expired ((ticketNode .default).run ticketCrypto contestedTurns) 0 ∧
      (((ticketNode .default).run ticketCrypto contestedTurns).handle
          ticketCrypto revealTurn).2 =
        .revealed (some (1, ⟨abcHash, secondCommitter, 6150402⟩)) ∧
      openTickets ticketCrypto firstCommitter
          ((ticketNode twoEach).history ticketCrypto repeatedTurns)
          ((ticketNode twoEach).run ticketCrypto repeatedTurns) =
        [(abcHash, firstCommitter, 0), (abcHash, firstCommitter, 1), (abcHash, firstCommitter, 2)] := by
  decide +kernel

lemma honestTurns_orderly (deadline : RevealDeadline) :
    OrderlyRun ticketCrypto (ticketNode deadline) honestTurns where
  tickets := by
    intro t ht
    rcases List.mem_pair.mp ht with rfl | rfl
    · trivial
    · trivial
  orderly := by
    intro x hx
    rcases List.mem_pair.mp hx with rfl | rfl
    · intro w hw
      obtain rfl := Option.some.inj hw
      exact ⟨PendingCommits.held_empty _, Nat.lt_of_sub_eq_succ rfl⟩
    · trivial

end Vectors

theorem ticket_never_lost_recorded :
    OrderlyRun Vectors.ticketCrypto (Vectors.ticketNode .default) Vectors.honestTurns ∧
      ExactlyOne
        (Claimable ((Vectors.ticketNode .default).run Vectors.ticketCrypto Vectors.honestTurns)
          Vectors.abcHash 0)
        (Claimed Vectors.ticketCrypto
          ((Vectors.ticketNode .default).history Vectors.ticketCrypto Vectors.honestTurns)
          Vectors.abcHash 0)
        (Expired ((Vectors.ticketNode .default).run Vectors.ticketCrypto Vectors.honestTurns) 0) := by
  have hrun := Vectors.honestTurns_orderly .default
  have hticket : (Vectors.abcHash, Vectors.firstCommitter, 0) ∈ tickets Vectors.ticketCrypto
      ((Vectors.ticketNode .default).history Vectors.ticketCrypto Vectors.honestTurns) := by
    rw [Vectors.ticketRuns_evaluate.1]
    exact List.mem_singleton_self _
  exact ⟨hrun, (ticket_never_lost hrun hticket).1⟩

/-- The second commitment takes the first one's place in the table: its ticket can not
be claimed any more, was never claimed and is not recorded as expired, and revealing
the contents gives the later position. -/
theorem ticket_lost_to_rival :
    (∀ t ∈ Vectors.contestedTurns, t.command.AboutTickets) ∧
      (Vectors.abcHash, Vectors.firstCommitter, 0) ∈ tickets Vectors.ticketCrypto
        ((Vectors.ticketNode .default).history Vectors.ticketCrypto
          Vectors.contestedTurns) ∧
      ¬Claimable ((Vectors.ticketNode .default).run Vectors.ticketCrypto
        Vectors.contestedTurns) Vectors.abcHash 0 ∧
      ¬Claimed Vectors.ticketCrypto ((Vectors.ticketNode .default).history Vectors.ticketCrypto
        Vectors.contestedTurns) Vectors.abcHash 0 ∧
      ¬Expired ((Vectors.ticketNode .default).run Vectors.ticketCrypto
        Vectors.contestedTurns) 0 ∧
      (((Vectors.ticketNode .default).run Vectors.ticketCrypto
        Vectors.contestedTurns).handle Vectors.ticketCrypto
          Vectors.revealTurn).2 =
        .revealed (some (1, ⟨Vectors.abcHash, Vectors.secondCommitter, 6150402⟩)) := by
  obtain ⟨_, htickets, hheld, hclaimed, hexpired, hreveal, _⟩ := Vectors.ticketRuns_evaluate
  refine ⟨?_, ?_, ?_, hclaimed, hexpired, hreveal⟩
  · intro t ht
    rcases List.mem_pair.mp ht with rfl | rfl
    · trivial
    · trivial
  · rw [htickets]
    exact List.mem_cons_self
  · rintro ⟨w, commit, hw, hh⟩
    rw [hw, Option.map_some, hh] at hheld
    simp at hheld

theorem openTickets_le_cap_recorded :
    OrderlyRun Vectors.ticketCrypto (Vectors.ticketNode Vectors.twoEach) Vectors.honestTurns ∧
      (openTickets Vectors.ticketCrypto Vectors.firstCommitter
        ((Vectors.ticketNode Vectors.twoEach).history Vectors.ticketCrypto Vectors.honestTurns)
        ((Vectors.ticketNode Vectors.twoEach).run Vectors.ticketCrypto
          Vectors.honestTurns)).length ≤ 2 :=
  ⟨Vectors.honestTurns_orderly _, openTickets_le_cap _ (Vectors.honestTurns_orderly _)⟩

/-- With a cap of two, asking three times for the same contents gives three open
tickets: the cap counts one entry of the table for all of them. -/
theorem openTickets_exceed_cap :
    (∀ t ∈ Vectors.repeatedTurns, t.command.AboutTickets) ∧
      Vectors.twoEach.maxOutstanding = 2 ∧
      (openTickets Vectors.ticketCrypto Vectors.firstCommitter
        ((Vectors.ticketNode Vectors.twoEach).history Vectors.ticketCrypto
          Vectors.repeatedTurns)
        ((Vectors.ticketNode Vectors.twoEach).run Vectors.ticketCrypto
          Vectors.repeatedTurns)).length = 3 := by
  obtain ⟨_, _, _, _, _, _, hopen⟩ := Vectors.ticketRuns_evaluate
  refine ⟨?_, rfl, ?_⟩
  · intro t ht
    simp only [Vectors.repeatedTurns, List.mem_cons, List.not_mem_nil, or_false] at ht
    rcases ht with rfl | rfl | rfl <;> trivial
  · rw [hopen]
    rfl

end Blitz.Validator
