import Blitz.ReceiptWriter
import Blitz.Traces

/-! The last stretch of the two ingress handlers, from the receipt to its outcome, with
the scheduler on the other side of a channel. A transaction goes by the position of its
receipt. -/
namespace Blitz.Validator
open LittleEndian Receipts Traces

/-- As far as a handler tells its values apart. -/
inductive TransactionError
  | clusterMaintenance
  | other (code : UInt32)
  deriving DecidableEq, Repr

abbrev TransactionResult := Except TransactionError Unit

inductive Attack
  | none | reorderSwap | withhold
  deriving DecidableEq, Repr

/-- What is forwarded in place of a transaction, and what is held back from now on. -/
def Attack.intercept (attack : Attack) (held : Option UInt64) (transaction : UInt64) :
    List UInt64 × Option UInt64 :=
  match attack, held with
  | .none, held => ([transaction], held)
  | .withhold, some _ => ([transaction], .none)
  | .withhold, .none => ([], some transaction)
  | .reorderSwap, some earlier => ([transaction, earlier], .none)
  | .reorderSwap, .none => ([], some transaction)

inductive Method
  | sendTransaction | revealTransaction
  deriving DecidableEq, Repr

structure Request where
  method : Method
  skipPreflight : Bool

/-- The handler decides by the error alone. -/
def outcomeOf : TransactionResult → Outcome
  | .error .clusterMaintenance => .rejected
  | _ => .accepted

/-- The end of a one-shot channel. -/
inductive Answer
  | sent (result : TransactionResult)
  | dropped
  deriving DecidableEq

/-- What `execute_receipted` makes of it. -/
def Answer.result : Answer → TransactionResult
  | .sent result => result
  | .dropped => .error .clusterMaintenance

/-- A transaction on the scheduler's channel; `schedule_receipted` does not ask for a
reply, `execute_receipted` does. -/
structure Command where
  transaction : UInt64
  replies : Bool
  deriving DecidableEq

/-- Where the handler of a request stands. -/
inductive Phase
  | arriving
  /-- Holds its receipt, and is waiting for its accounts. -/
  | resolving
  | forwarding (rest : List UInt64) (scheduled : TransactionResult)
  | awaiting (transaction : UInt64) (rest : List UInt64)
  | answered
  deriving DecidableEq

/-- `taken` has left the channel and is with the scheduler or an executor; `enqueued`
remembers everything the channel ever took, and `outbox` what the receipt writer is told. -/
structure Pipeline where
  phase : UInt64 → Phase
  held : Option UInt64
  isOpen : Bool
  queue : List Command
  taken : List Command
  reply : UInt64 → Option Answer
  enqueued : List UInt64
  outbox : List WriterCommand

namespace Pipeline

def start : Pipeline where
  phase := fun _ => .arriving
  held := none
  isOpen := true
  queue := []
  taken := []
  reply := fun _ => none
  enqueued := []
  outbox := []

def turn (p : Pipeline) (seq : UInt64) (phase : Phase) : Pipeline :=
  { p with phase := Function.update p.phase seq phase }

def recordOutcome (p : Pipeline) (seq : UInt64) (outcome : Outcome) : Pipeline :=
  { p with outbox := p.outbox ++ [.recordOutcome seq outcome] }

def enqueue (p : Pipeline) (c : Command) : Pipeline :=
  { p with queue := p.queue ++ [c], enqueued := p.enqueued ++ [c.transaction] }

/-- Only `sendTransaction` goes past the attack rig. -/
def intercept (p : Pipeline) (attack : Attack) (method : Method) (seq : UInt64) : Pipeline :=
  match method with
  | .sendTransaction =>
    let (forwarded, held) := attack.intercept p.held seq
    { p with held := held }.turn seq (.forwarding forwarded (.ok ()))
  | .revealTransaction => p.turn seq (.forwarding [seq] (.ok ()))

/-- `schedule_receipted`, or `execute_receipted` up to where it waits. -/
def forward (p : Pipeline) (seq : UInt64) (skipPreflight : Bool) (transaction : UInt64)
    (rest : List UInt64) : Pipeline :=
  if p.isOpen then
    if skipPreflight then
      (p.enqueue ⟨transaction, false⟩).turn seq (.forwarding rest (.ok ()))
    else (p.enqueue ⟨transaction, true⟩).turn seq (.awaiting transaction rest)
  else p.turn seq (.forwarding rest (.error .clusterMaintenance))

/-- The command is done with, and so is its sender if it has one. -/
def settle (p : Pipeline) (c : Command) (answer : Answer) : Pipeline :=
  { p with
    taken := p.taken.erase c
    reply := if c.replies then Function.update p.reply c.transaction (some answer) else p.reply }

/-- The scheduler ends, and what is still on its channel ends with it. -/
def close (p : Pipeline) : Pipeline :=
  { p with
    isOpen := false
    queue := []
    reply := fun transaction =>
      if ⟨transaction, true⟩ ∈ p.queue then some .dropped else p.reply transaction }

end Pipeline

inductive PipelineEvent
  | receipted (seq : UInt64)
  | accountsMissing (seq : UInt64)
  | accountsEnsured (seq : UInt64)
  | forward (seq : UInt64)
  | resume (seq : UInt64)
  | respond (seq : UInt64)
  | take
  | discard (c : Command)
  | execute (c : Command) (result : TransactionResult)
  | close

/-- Any interleaving of any number of handlers with the scheduler and its executors. -/
inductive PipelineStep (requests : UInt64 → Request) (attack : Attack) :
    PipelineEvent → Pipeline → Pipeline → Prop
  /-- A stamp is answered, or a reveal has claimed its position. -/
  | receipted {p : Pipeline} {seq : UInt64} (h : p.phase seq = .arriving) :
      PipelineStep requests attack (.receipted seq) p (p.turn seq .resolving)
  | accountsMissing {p : Pipeline} {seq : UInt64} (h : p.phase seq = .resolving) :
      PipelineStep requests attack (.accountsMissing seq) p
        ((p.recordOutcome seq .rejected).turn seq .answered)
  | accountsEnsured {p : Pipeline} {seq : UInt64} (h : p.phase seq = .resolving) :
      PipelineStep requests attack (.accountsEnsured seq) p
        (p.intercept attack (requests seq).method seq)
  | forward {p : Pipeline} {seq transaction : UInt64} {rest : List UInt64}
      {scheduled : TransactionResult}
      (h : p.phase seq = .forwarding (transaction :: rest) scheduled) :
      PipelineStep requests attack (.forward seq) p
        (p.forward seq (requests seq).skipPreflight transaction rest)
  | resume {p : Pipeline} {seq transaction : UInt64} {rest : List UInt64} {answer : Answer}
      (h : p.phase seq = .awaiting transaction rest) (hreply : p.reply transaction = some answer) :
      PipelineStep requests attack (.resume seq) p (p.turn seq (.forwarding rest answer.result))
  | respond {p : Pipeline} {seq : UInt64} {scheduled : TransactionResult}
      (h : p.phase seq = .forwarding [] scheduled) :
      PipelineStep requests attack (.respond seq) p
        ((p.recordOutcome seq (outcomeOf scheduled)).turn seq .answered)
  | take {p : Pipeline} {c : Command} {queue : List Command} (h : p.queue = c :: queue) :
      PipelineStep requests attack .take p { p with queue := queue, taken := p.taken ++ [c] }
  /-- The mode does not allow it, its executor is gone, or the scheduler ends. -/
  | discard {p : Pipeline} {c : Command} (h : c ∈ p.taken) :
      PipelineStep requests attack (.discard c) p (p.settle c .dropped)
  | execute {p : Pipeline} {c : Command} (result : TransactionResult) (h : c ∈ p.taken) :
      PipelineStep requests attack (.execute c result) p (p.settle c (.sent result))
  | close {p : Pipeline} : PipelineStep requests attack .close p p.close

/-- Nobody who waits for a reply is left without one, or told of the scheduler's end by
an executor; and no handler forwards another's transaction after its own. -/
def Undisturbed (attack : Attack) (x : Entry Pipeline PipelineEvent) : Prop :=
  attack ≠ .reorderSwap ∧
    match x.event with
    | .discard c => c.replies = false
    | .execute c result => c.replies = true → result ≠ .error .clusterMaintenance
    | .close => ∀ c ∈ x.before.queue, c.replies = false
    | _ => True

/-- What the phase of a handler says about its transaction. -/
def Fits (request : Request) (seq : UInt64) (enqueued rejected : Prop) : Phase → Prop
  | .arriving => ¬rejected ∧ ¬enqueued
  | .resolving => ¬rejected ∧ ¬enqueued
  | .forwarding rest scheduled => ¬rejected ∧ ((rest = [seq] ∧ ¬enqueued) ∨
      (rest = [] ∧ (scheduled = .error .clusterMaintenance → ¬enqueued)))
  | .awaiting transaction rest => ¬rejected ∧ transaction = seq ∧ rest = [] ∧
      request.skipPreflight = false
  | .answered => rejected → ¬enqueued

structure Consistent (requests : UInt64 → Request) (p : Pipeline) : Prop where
  handlers : ∀ seq, Fits (requests seq) seq (seq ∈ p.enqueued)
    (.recordOutcome seq .rejected ∈ p.outbox) (p.phase seq)
  commands : ∀ c, c ∈ p.queue ∨ c ∈ p.taken → c.replies = !(requests c.transaction).skipPreflight
  replies : ∀ transaction answer, p.reply transaction = some answer →
    (requests transaction).skipPreflight = false → answer.result ≠ .error .clusterMaintenance

section Invariant
variable {requests : UInt64 → Request} {attack : Attack} {p p' : Pipeline} {seq : UInt64}

lemma consistent_start (requests : UInt64 → Request) : Consistent requests .start := by
  constructor <;> simp [Pipeline.start, Fits]

lemma Consistent.handler (h : Consistent requests p) (enqueued rejected : Prop) {phase : Phase}
    (hphase : p'.phase = Function.update p.phase seq phase)
    (henqueued : ∀ s, s ∈ p'.enqueued ↔ s ∈ p.enqueued ∨ (s = seq ∧ enqueued))
    (hrejected : ∀ s, WriterCommand.recordOutcome s .rejected ∈ p'.outbox ↔
      WriterCommand.recordOutcome s .rejected ∈ p.outbox ∨ (s = seq ∧ rejected))
    (hcommands : ∀ c, c ∈ p'.queue ∨ c ∈ p'.taken → (c ∈ p.queue ∨ c ∈ p.taken) ∨
      c.replies = !(requests c.transaction).skipPreflight)
    (hreply : p'.reply = p.reply)
    (hfits : Fits (requests seq) seq (seq ∈ p.enqueued ∨ enqueued)
      (WriterCommand.recordOutcome seq .rejected ∈ p.outbox ∨ rejected) phase) :
    Consistent requests p' := by
  refine ⟨?_, ?_, ?_⟩
  · intro s
    rw [hphase]
    by_cases hs : s = seq
    · subst hs
      simpa [henqueued, hrejected] using hfits
    · have hold := h.handlers s
      simpa [henqueued, hrejected, hs] using hold
  · intro c hc
    rcases hcommands c hc with hold | hnew
    · exact h.commands c hold
    · exact hnew
  · rw [hreply]
    exact h.replies

lemma Consistent.scheduler (h : Consistent requests p) (hphase : p'.phase = p.phase)
    (henqueued : p'.enqueued = p.enqueued) (houtbox : p'.outbox = p.outbox)
    (hcommands : ∀ c, c ∈ p'.queue ∨ c ∈ p'.taken → c ∈ p.queue ∨ c ∈ p.taken)
    (hreply : ∀ transaction answer, p'.reply transaction = some answer →
      p.reply transaction = some answer ∨ ∃ c, (c ∈ p.queue ∨ c ∈ p.taken) ∧
        c.transaction = transaction ∧
        (c.replies = true → answer.result ≠ .error .clusterMaintenance)) :
    Consistent requests p' := by
  refine ⟨?_, ?_, ?_⟩
  · rw [hphase, henqueued, houtbox]
    exact h.handlers
  · intro c hc
    exact h.commands c (hcommands c hc)
  · intro transaction answer hanswer hwaits
    rcases hreply transaction answer hanswer with hold | ⟨c, hc, rfl, hresult⟩
    · exact h.replies transaction answer hold hwaits
    · apply hresult
      rw [h.commands c hc, hwaits]
      rfl

lemma Consistent.settle (h : Consistent requests p) {c : Command} {answer : Answer}
    (hc : c ∈ p.taken) (hresult : c.replies = true → answer.result ≠ .error .clusterMaintenance) :
    Consistent requests (p.settle c answer) := by
  refine h.scheduler rfl rfl rfl ?_ ?_
  · intro c' hc'
    rcases hc' with hc' | hc'
    · exact .inl hc'
    · exact .inr (List.mem_of_mem_erase hc')
  · intro transaction answer' hanswer
    simp only [Pipeline.settle] at hanswer
    split_ifs at hanswer
    · by_cases ht : transaction = c.transaction
      · rw [ht, Function.update_self, Option.some.injEq] at hanswer
        subst hanswer
        exact .inr ⟨c, .inr hc, ht.symm, hresult⟩
      · rw [Function.update_of_ne ht] at hanswer
        exact .inl hanswer
    · exact .inl hanswer

lemma Consistent.close (h : Consistent requests p) (hquiet : ∀ c ∈ p.queue, c.replies = false) :
    Consistent requests p.close := by
  refine h.scheduler rfl rfl rfl ?_ ?_
  · intro c hc
    rcases hc with hc | hc
    · simp [Pipeline.close] at hc
    · exact .inr hc
  · intro transaction answer hanswer
    simp only [Pipeline.close] at hanswer
    split_ifs at hanswer with hm
    · cases hquiet _ hm
    · exact .inl hanswer

lemma intercept_forwarded (hattack : attack ≠ .reorderSwap) (held : Option UInt64) (seq : UInt64) :
    (attack.intercept held seq).1 = [seq] ∨ (attack.intercept held seq).1 = [] := by
  -- Short of a reorder, a handler forwards nothing but its own transaction.
  cases attack with
  | none => exact .inl rfl
  | reorderSwap => exact absurd rfl hattack
  | withhold =>
    cases held with
    | none => exact .inr rfl
    | some earlier => exact .inl rfl

lemma Consistent.turned (h : Consistent requests p) {phase : Phase} (held : Option UInt64)
    (hfits : Fits (requests seq) seq (seq ∈ p.enqueued)
      (WriterCommand.recordOutcome seq .rejected ∈ p.outbox) phase) :
    Consistent requests ({ p with held := held }.turn seq phase) := by
  refine h.handler False False rfl ?_ ?_ ?_ rfl ?_
  · simp [Pipeline.turn]
  · simp [Pipeline.turn]
  · intro c hc
    exact .inl hc
  · simpa using hfits

lemma Consistent.intercept (h : Consistent requests p) (hattack : attack ≠ .reorderSwap)
    (method : Method) (hphase : p.phase seq = .resolving) :
    Consistent requests (p.intercept attack method seq) := by
  have hknows := h.handlers seq
  rw [hphase] at hknows
  obtain ⟨hrejected, henqueued⟩ := hknows
  cases method with
  | sendTransaction =>
    apply h.turned
    rcases intercept_forwarded hattack p.held seq with hone | hnone
    · exact ⟨hrejected, .inl ⟨hone, henqueued⟩⟩
    · exact ⟨hrejected, .inr ⟨hnone, fun _ => henqueued⟩⟩
  | revealTransaction => exact h.turned p.held ⟨hrejected, .inl ⟨rfl, henqueued⟩⟩

lemma Consistent.enqueue (h : Consistent requests p) {phase : Phase} {replies : Bool}
    (hreplies : replies = !(requests seq).skipPreflight)
    (hfits : Fits (requests seq) seq True (.recordOutcome seq .rejected ∈ p.outbox) phase) :
    Consistent requests ((p.enqueue ⟨seq, replies⟩).turn seq phase) := by
  refine h.handler True False rfl ?_ ?_ ?_ rfl ?_
  · simp [Pipeline.turn, Pipeline.enqueue]
  · simp [Pipeline.turn, Pipeline.enqueue]
  · intro c hc
    simp only [Pipeline.turn, Pipeline.enqueue, List.mem_append, List.mem_singleton] at hc
    rcases hc with (hc | rfl) | hc
    · exact .inl (.inl hc)
    · exact .inr hreplies
    · exact .inl (.inr hc)
  · simpa using hfits

lemma Consistent.forward (h : Consistent requests p) {transaction : UInt64} {rest : List UInt64}
    {scheduled : TransactionResult}
    (hphase : p.phase seq = .forwarding (transaction :: rest) scheduled) :
    Consistent requests (p.forward seq (requests seq).skipPreflight transaction rest) := by
  have hknows := h.handlers seq
  rw [hphase] at hknows
  obtain ⟨hrejected, ⟨hone, henqueued⟩ | ⟨hnone, _⟩⟩ := hknows
  · obtain ⟨rfl, rfl⟩ := List.cons.inj hone
    unfold Pipeline.forward
    cases hopen : p.isOpen with
    | false => exact h.turned p.held ⟨hrejected, .inr ⟨rfl, fun _ => henqueued⟩⟩
    | true =>
      cases hskip : (requests transaction).skipPreflight with
      | true => exact h.enqueue (by rw [hskip]; rfl) ⟨hrejected, .inr ⟨rfl, by simp⟩⟩
      | false => exact h.enqueue (by rw [hskip]; rfl) ⟨hrejected, rfl, rfl, hskip⟩
  · cases hnone

lemma Consistent.resume (h : Consistent requests p) {transaction : UInt64} {rest : List UInt64}
    {answer : Answer} (hphase : p.phase seq = .awaiting transaction rest)
    (hreply : p.reply transaction = some answer) :
    Consistent requests (p.turn seq (.forwarding rest answer.result)) := by
  have hknows := h.handlers seq
  rw [hphase] at hknows
  obtain ⟨hrejected, rfl, rfl, hwaits⟩ := hknows
  refine h.turned p.held ⟨hrejected, .inr ⟨rfl, ?_⟩⟩
  intro hgone
  exact absurd hgone (h.replies _ _ hreply hwaits)

lemma Consistent.recordOutcome (h : Consistent requests p) (outcome : Outcome)
    (hrejected : .recordOutcome seq .rejected ∉ p.outbox)
    (hfate : outcome = .rejected → seq ∉ p.enqueued) :
    Consistent requests ((p.recordOutcome seq outcome).turn seq .answered) := by
  refine h.handler False (outcome = .rejected) rfl ?_ ?_ ?_ rfl ?_
  · simp [Pipeline.turn, Pipeline.recordOutcome]
  · intro s
    simp [Pipeline.turn, Pipeline.recordOutcome, eq_comm]
  · intro c hc
    exact .inl hc
  · rintro (hold | hnew)
    · exact absurd hold hrejected
    · simpa using hfate hnew

lemma outcomeOf_eq_rejected {scheduled : TransactionResult} :
    outcomeOf scheduled = .rejected ↔ scheduled = .error .clusterMaintenance := by
  rcases scheduled with (_ | code) | _ <;> simp [outcomeOf]

theorem Consistent.step {e : PipelineEvent} (h : Consistent requests p)
    (hstep : PipelineStep requests attack e p p') (hquiet : Undisturbed attack ⟨p, e, p'⟩) :
    Consistent requests p' := by
  obtain ⟨hattack, hquiet⟩ := hquiet
  cases hstep with
  | @receipted _ seq hphase =>
    have hknows := h.handlers seq
    rw [hphase] at hknows
    exact h.turned p.held hknows
  | @accountsMissing _ seq hphase =>
    have hknows := h.handlers seq
    rw [hphase] at hknows
    exact h.recordOutcome .rejected hknows.1 fun _ => hknows.2
  | accountsEnsured hphase => exact h.intercept hattack _ hphase
  | forward hphase => exact h.forward hphase
  | resume hphase hreply => exact h.resume hphase hreply
  | @respond _ seq scheduled hphase =>
    have hknows := h.handlers seq
    rw [hphase] at hknows
    obtain ⟨hrejected, ⟨hone, _⟩ | ⟨_, hfate⟩⟩ := hknows
    · cases hone
    · exact h.recordOutcome _ hrejected fun hout => hfate (outcomeOf_eq_rejected.mp hout)
  | @take _ c queue hqueue =>
    refine h.scheduler rfl rfl rfl ?_ fun _ _ hold => .inl hold
    intro c' hc'
    rw [hqueue]
    simp only [List.mem_append, List.mem_singleton] at hc'
    rw [List.mem_cons]
    tauto
  | @discard _ c hc =>
    apply h.settle hc
    intro hreplies
    rw [show c.replies = false from hquiet] at hreplies
    cases hreplies
  | execute result hc => exact h.settle hc hquiet
  | close => exact h.close hquiet

end Invariant

end Blitz.Validator
