import Blitz.IngressRequests
import Blitz.WatchtowerParse

/-! Requests one after another: which of them leave a signature behind, and whether a
ticket can then still be claimed. -/
namespace Blitz.Validator
open LittleEndian Receipts Traces

/-- A request; a transaction's status, from whoever had it executed; or anything else the
writer is told, such as to sweep. -/
inductive FrontEvent
  | request (s : Surroundings) (r : RpcRequest)
  | status (now : ℕ) (signature : Bytes 64) (result : SignatureResult)
  | writer (t : Turn)

def Front.step (c : Crypto) (f : Front) : FrontEvent → Front
  | .request s r => (f.handle c s r).1
  | .status now signature result =>
    { f with transactions := (f.transactions.push now signature (some result)).2 }
  | .writer t => { f with node := (f.node.handle c t).1 }

def Steps (c : Crypto) (e : FrontEvent) (f f' : Front) : Prop := f' = f.step c e

/-- The step reserves the signature for a transaction that gets its receipt: one of its own,
or the ticket its bytes were committed under. -/
def Receipted (c : Crypto) (x : Entry Front FrontEvent) (signature : Bytes 64) : Prop :=
  match x.event with
  | .request s (.sendTransaction params) => ∃ p skipPreflight,
      x.before.admits s "sendTransaction" params = some (p, skipPreflight) ∧
        p.txn.signature = signature ∧ Stampable x.before.node s.answering p.txn.signature
  | .request s (.revealTransaction params) => ∃ p skipPreflight,
      x.before.admits s "revealTransaction" params = some (p, skipPreflight) ∧
        p.txn.signature = signature ∧ ∃ seq, Claimable x.before.node (p.digest c) seq
  | _ => False

def Executed (x : Entry Front FrontEvent) (signature : Bytes 64) : Prop :=
  match x.event with
  | .status _ executed _ => executed = signature
  | _ => False

/-- A reveal that no commitment matches, or a transaction that can not be stamped, leaves
the reserved signatures as they were. -/
def LeavesNoTrace (c : Crypto) (x : Entry Front FrontEvent) : Prop :=
  match x.event with
  | .request s (.revealTransaction params) =>
      (x.before.revealTransaction c s params).2 = .error .noCommitment →
        x.before.transactions.SameKeys s.now x.after.transactions
  | .request s (.sendTransaction params) =>
      (∃ e : StampError, (x.before.sendTransaction c s params).2 =
        .error (.internal (e.display s.bs58))) →
          x.before.transactions.SameKeys s.now x.after.transactions
  | _ => True

/-- Whatever gets past the replay check finds its commitment, or can be stamped. -/
def Granted (c : Crypto) (x : Entry Front FrontEvent) : Prop :=
  match x.event with
  | .request s (.revealTransaction params) => ∀ p skipPreflight,
      x.before.admits s "revealTransaction" params = some (p, skipPreflight) →
        ∃ seq, Claimable x.before.node (p.digest c) seq
  | .request s (.sendTransaction params) => ∀ p skipPreflight,
      x.before.admits s "sendTransaction" params = some (p, skipPreflight) →
        Stampable x.before.node s.answering p.txn.signature
  | _ => True

/-- Revealing a transaction takes the ticket for its bytes: its position is answered if
the rest goes well, and the ticket is gone either way. -/
def ClaimsTicket (c : Crypto) (f : Front) (s : Surroundings) (params : Option TransactionParams)
    (p : WithEncoded) (skipPreflight : Bool) (seq : UInt64) : Prop :=
  (f.revealTransaction c s params).2 =
      ((s.conclude skipPreflight).map fun _ => .revealedSignature p.txn.signature seq) ∧
    ∀ later, ¬Claimable (f.revealTransaction c s params).1.node (p.digest c) later

section Steps
variable {c : Crypto} {x : Entry Front FrontEvent} {signature : Bytes 64}

lemma clean_iff {f g : Front} {s : Surroundings} {method : String}
    {params : Option TransactionParams} {refused : Prop} {found : WithEncoded → Prop}
    (hnone : f.admits s method params = none → g = f)
    (hsome : ∀ p skipPreflight, f.admits s method params = some (p, skipPreflight) →
      g.transactions = (f.reserved s p).transactions ∧ (refused ↔ ¬found p)) :
    (refused → f.transactions.SameKeys s.now g.transactions) ↔
      ∀ p skipPreflight, f.admits s method params = some (p, skipPreflight) → found p := by
  -- A request that gets past the replay check leaves a key that was not there, so it leaves no
  -- trace only where it is not refused after that.
  constructor
  · intro hclean p skipPreflight hadmits
    obtain ⟨hreserved, hrefused⟩ := hsome p skipPreflight hadmits
    by_contra hnot
    have hsame := hclean (hrefused.mpr hnot)
    refine (admits_eq_some.mp hadmits).2 (hsame.nothingNew _ ?_)
    rw [hreserved]
    exact ExpiringCache.contains_push
  · intro hfound hrefused
    cases hadmits : f.admits s method params with
    | none =>
      rw [hnone hadmits]
      exact .refl _ _
    | some admitted =>
      obtain ⟨p, skipPreflight⟩ := admitted
      exact absurd (hfound p skipPreflight hadmits)
        ((hsome p skipPreflight hadmits).2.mp hrefused)

theorem leavesNoTrace_iff_granted (hx : Steps c x.event x.before x.after) :
    LeavesNoTrace c x ↔ Granted c x := by
  obtain ⟨f, event, f'⟩ := x
  obtain rfl : f' = f.step c event := hx
  cases event with
  | status now signature result => exact Iff.rfl
  | writer t => exact Iff.rfl
  | request s r =>
    cases r with
    | commitTransaction params => exact Iff.rfl
    | revealTransaction params =>
      exact clean_iff (g := (f.revealTransaction c s params).1) reveal_of_none
        fun p skipPreflight h => ⟨reveal_transactions h, reveal_refused_iff h⟩
    | sendTransaction params =>
      exact clean_iff (g := (f.sendTransaction c s params).1) send_of_none
        fun p skipPreflight h => ⟨send_transactions h, send_refused_iff h⟩

lemma contains_admitted {f g : Front} {s : Surroundings} {method : String}
    {params : Option TransactionParams} (hnone : f.admits s method params = none → g = f)
    (hsome : ∀ p skipPreflight, f.admits s method params = some (p, skipPreflight) →
      g.transactions = (f.reserved s p).transactions)
    (hafter : g.transactions.contains signature) :
    f.transactions.contains signature ∨ ∃ p skipPreflight,
      f.admits s method params = some (p, skipPreflight) ∧ p.txn.signature = signature := by
  cases hadmits : f.admits s method params with
  | none =>
    rw [hnone hadmits] at hafter
    exact .inl hafter
  | some admitted =>
    obtain ⟨p, skipPreflight⟩ := admitted
    rw [hsome p skipPreflight hadmits] at hafter
    rcases ExpiringCache.contains_of_push hafter with rfl | hbefore
    · exact .inr ⟨p, skipPreflight, rfl, rfl⟩
    · exact .inl hbefore

lemma commit_transactions (f : Front) (s : Surroundings) (params : Option CommitParams) :
    (f.commitTransaction c s params).1.transactions = f.transactions := by
  unfold Front.commitTransaction
  split
  · rfl
  · dsimp only
    split <;> rfl

lemma contains_step (hx : Steps c x.event x.before x.after) (hgranted : Granted c x)
    (hafter : x.after.transactions.contains signature) :
    x.before.transactions.contains signature ∨ Receipted c x signature ∨ Executed x signature := by
  obtain ⟨f, event, f'⟩ := x
  obtain rfl : f' = f.step c event := hx
  cases event with
  | status now executed result =>
    rcases ExpiringCache.contains_of_push hafter with rfl | hbefore
    · exact .inr (.inr rfl)
    · exact .inl hbefore
  | writer t => exact .inl hafter
  | request s r =>
    cases r with
    | commitTransaction params =>
      rw [Front.step, Front.handle, commit_transactions] at hafter
      exact .inl hafter
    | revealTransaction params =>
      rcases contains_admitted (g := (f.revealTransaction c s params).1) reveal_of_none
        (fun _ _ => reveal_transactions) hafter with hbefore | ⟨p, skipPreflight, hadmits, hsig⟩
      · exact .inl hbefore
      · exact .inr (.inl ⟨p, skipPreflight, hadmits, hsig, hgranted p skipPreflight hadmits⟩)
    | sendTransaction params =>
      rcases contains_admitted (g := (f.sendTransaction c s params).1) send_of_none
        (fun _ _ => send_transactions) hafter with hbefore | ⟨p, skipPreflight, hadmits, hsig⟩
      · exact .inl hbefore
      · exact .inr (.inl ⟨p, skipPreflight, hadmits, hsig, hgranted p skipPreflight hadmits⟩)

end Steps

section Runs
variable {c : Crypto} {ledger : ReceiptLedger} {key : Bytes 32} {nanos minted : UInt64}
  {equivocation : Bool} {deadline : RevealDeadline} {t : List (Entry Front FrontEvent)} {f : Front}

/-- In a run from the start: refused requests leave no trace in the cache, and whoever has
an outstanding ticket for a transaction that was neither receipted nor executed can claim
it, exactly if every request past the replay check found its commitment or its receipt. -/
theorem refused_leaves_no_trace_iff
    (hrun : Trace (Steps c) (.start c ledger key nanos minted equivocation deadline) t f) :
    ((∀ x ∈ t, LeavesNoTrace c x) ∧
      ∀ s params p skipPreflight seq,
        s.prepareRequest "revealTransaction" params = .ok (p, skipPreflight) →
        Claimable f.node (p.digest c) seq →
        (∀ x ∈ t, ¬Receipted c x p.txn.signature) → (∀ x ∈ t, ¬Executed x p.txn.signature) →
        ClaimsTicket c f s params p skipPreflight seq) ↔
      ∀ x ∈ t, Granted c x := by
  constructor
  · intro hclean x hx
    exact (leavesNoTrace_iff_granted (hrun.entry hx)).mp (hclean.1 x hx)
  · intro hgranted
    refine ⟨?_, ?_⟩
    · intro x hx
      exact (leavesNoTrace_iff_granted (hrun.entry hx)).mpr (hgranted x hx)
    · intro s params p skipPreflight seq hprepared hclaimable hreceipted hexecuted
      have hfree : ¬f.transactions.contains p.txn.signature := by
        intro hcontains
        rcases hrun.since (P := fun g => g.transactions.contains p.txn.signature)
          (E := fun x => Receipted c x p.txn.signature ∨ Executed x p.txn.signature)
          (fun x hx hstep => contains_step hstep (hgranted x hx)) hcontains with
          ⟨hstart, _⟩ | ⟨t₁, x, t₂, rfl, hwhy, _⟩
        · cases hstart
        · rcases hwhy with hwhy | hwhy
          · exact hreceipted x (by simp) hwhy
          · exact hexecuted x (by simp) hwhy
      exact reveal_claims (admits_eq_some.mpr ⟨hprepared, hfree⟩) hclaimable

end Runs

namespace Vectors
open Watchtower.Vectors

/-- A primary node, for a client whose text decodes to the given bytes. -/
def surroundings (decoded : List UInt8) (now : ℕ) : Surroundings where
  toHttpDispatcher := { dispatcher decoded with
    display := fun e =>
      if e = .alreadyProcessed then "This transaction has already been processed" else "" }
  needsOnchainInteractions := true
  isReady := true
  validKey := fun _ => true
  verify := fun _ _ _ => true
  bs58 := fun _ => "EUzYVniKtgNNgFweMtRA9vciTWtE8MDTRfh6ai6VvXoU"
  now := now
  answering := ⟨6150402, 1754300123456789, fun _ => none⟩
  recording := ⟨6150402, 1754300123556789, fun _ => none⟩
  accounts := .ok ()
  forward := fun _ => .ok ()

def transferParams : Option TransactionParams := some ⟨some "", some ⟨some .base64, false⟩⟩

def transferDigest : Bytes 32 := (prepared transferWire).digest transferCrypto

/-- The client commits to the transaction under the key that pays for it. -/
def committer : Bytes 32 :=
  Bytes.hex 32 0xc853ad0f0cd2b619aea92ceec4fd56a24d6499d584ce79257e45cfd8139b60a7

def commitParams : Option CommitParams :=
  some ⟨some (Base64.encode transferDigest.val), some "", some (Base64.encode (Bytes.fill 64 0x5c).val)⟩

def freshFront : Front :=
  .start transferCrypto .empty Receipts.Vectors.operatorSeed nanos 0 false .default

def revealEvent : FrontEvent :=
  .request (surroundings transferWire 0) (.revealTransaction transferParams)

def commitEvent : FrontEvent :=
  .request (surroundings committer.val 1000000000) (.commitTransaction commitParams)

/-- The contents are shown before they are committed to. -/
def hastyFront : Front := freshFront.step transferCrypto revealEvent

def ticketedFront (f : Front) : Front := f.step transferCrypto commitEvent

lemma replay_evaluates :
    (surroundings transferWire 2000000000).prepareRequest "revealTransaction" transferParams =
      .ok (prepared transferWire, false) ∧
    (freshFront.revealTransaction transferCrypto (surroundings transferWire 0) transferParams).2 =
      .error .noCommitment ∧
    hastyFront.transactions.contains (prepared transferWire).txn.signature = true ∧
    ((ticketedFront hastyFront).node.writer.bind fun w => w.pending.held transferDigest) =
      some (0, ⟨transferDigest, committer, 6150402⟩) ∧
    ((ticketedFront hastyFront).revealTransaction transferCrypto
      (surroundings transferWire 2000000000) transferParams).2 =
        .error (.ofTransactionError (surroundings transferWire 2000000000).display
          .alreadyProcessed) ∧
    ((ticketedFront freshFront).node.writer.bind fun w => w.pending.held transferDigest) =
      some (0, ⟨transferDigest, committer, 6150402⟩) := by
  decide +kernel

lemma claimable_ticketed {f : Front}
    (h : ((ticketedFront f).node.writer.bind fun w => w.pending.held transferDigest) =
      some (0, ⟨transferDigest, committer, 6150402⟩)) :
    Claimable (ticketedFront f).node transferDigest 0 := by
  obtain ⟨w, hw, hheld⟩ := Option.bind_eq_some_iff.mp h
  exact ⟨w, _, hw, hheld⟩

lemma not_claimable_fresh (hash : Bytes 32) (seq : UInt64) : ¬Claimable freshFront.node hash seq := by
  rintro ⟨w, commit, hw, hheld⟩
  obtain rfl := Option.some.inj hw
  cases (PendingCommits.held_empty hash).symm.trans hheld

end Vectors

theorem refused_leaves_no_trace_iff_committed :
    ∃ t, Trace (Steps Watchtower.Vectors.transferCrypto) Vectors.freshFront t
        (Vectors.ticketedFront Vectors.freshFront) ∧
      ClaimsTicket Watchtower.Vectors.transferCrypto (Vectors.ticketedFront Vectors.freshFront)
        (Vectors.surroundings Watchtower.Vectors.transferWire 2000000000) Vectors.transferParams
        (Watchtower.Vectors.prepared Watchtower.Vectors.transferWire) false 0 := by
  obtain ⟨hprepared, _, _, _, _, hheld⟩ := Vectors.replay_evaluates
  have htrace : Trace (Steps Watchtower.Vectors.transferCrypto) Vectors.freshFront
      [⟨Vectors.freshFront, Vectors.commitEvent, Vectors.ticketedFront Vectors.freshFront⟩]
      (Vectors.ticketedFront Vectors.freshFront) := Trace.nil.snoc rfl
  have hclaims := ((refused_leaves_no_trace_iff htrace).mpr (by simp [Granted, Vectors.commitEvent])).2
  refine ⟨_, htrace, hclaims _ _ _ _ _ hprepared (Vectors.claimable_ticketed hheld) ?_ ?_⟩
  · simp [Receipted, Vectors.commitEvent]
  · simp [Executed, Vectors.commitEvent]

/-- A client that shows its transaction before committing to it is refused, and its
signature stays reserved: the ticket it then gets for the same bytes can not be claimed. -/
theorem refused_reveal_blocks_ticket :
    ∃ t, Trace (Steps Watchtower.Vectors.transferCrypto) Vectors.freshFront t
        (Vectors.ticketedFront Vectors.hastyFront) ∧
      (¬∀ x ∈ t, LeavesNoTrace Watchtower.Vectors.transferCrypto x) ∧
      (Vectors.surroundings Watchtower.Vectors.transferWire 2000000000).prepareRequest
          "revealTransaction" Vectors.transferParams =
        .ok (Watchtower.Vectors.prepared Watchtower.Vectors.transferWire, false) ∧
      Claimable (Vectors.ticketedFront Vectors.hastyFront).node Vectors.transferDigest 0 ∧
      (∀ x ∈ t, ¬Receipted Watchtower.Vectors.transferCrypto x
        (Watchtower.Vectors.prepared Watchtower.Vectors.transferWire).txn.signature) ∧
      (∀ x ∈ t, ¬Executed x
        (Watchtower.Vectors.prepared Watchtower.Vectors.transferWire).txn.signature) ∧
      ((Vectors.ticketedFront Vectors.hastyFront).revealTransaction
          Watchtower.Vectors.transferCrypto
          (Vectors.surroundings Watchtower.Vectors.transferWire 2000000000)
          Vectors.transferParams).2 =
        .error (.ofTransactionError
          (Vectors.surroundings Watchtower.Vectors.transferWire 2000000000).display
          .alreadyProcessed) := by
  obtain ⟨hprepared, hrefused, hreserved, hheld, hblocked, _⟩ := Vectors.replay_evaluates
  have htrace : Trace (Steps Watchtower.Vectors.transferCrypto) Vectors.freshFront
      [⟨Vectors.freshFront, Vectors.revealEvent, Vectors.hastyFront⟩,
        ⟨Vectors.hastyFront, Vectors.commitEvent, Vectors.ticketedFront Vectors.hastyFront⟩]
      (Vectors.ticketedFront Vectors.hastyFront) := (Trace.nil.snoc rfl).snoc rfl
  refine ⟨_, htrace, ?_, hprepared, Vectors.claimable_ticketed hheld, ?_, ?_, hblocked⟩
  · intro hclean
    have hsame := hclean _ List.mem_cons_self hrefused
    cases hsame.nothingNew _ hreserved
  · simp [Receipted, Vectors.commitEvent, Vectors.revealEvent, Vectors.not_claimable_fresh]
  · simp [Executed, Vectors.commitEvent, Vectors.revealEvent]

end Blitz.Validator
