import Blitz.SchedulerStream

/-! The primary's side of the stream: how what the scheduler sends gets into the broker, over a
connection that may lose a message or its acknowledgement. -/
namespace Blitz.Replication
open LittleEndian Validator Scheduler

def publishRetryLimit : ℕ := 5
def maxDeferredTransactionAcks : ℕ := 1024

inductive Confirm
  | no | yes | andTrackSequence
  deriving DecidableEq

def confirmationFor : Message → Confirm
  | .transaction _ _ _ => .no
  | .block _ => .yes
  | .superBlock _ _ => .andTrackSequence
  | .reset _ => .andTrackSequence

/-- What comes of one attempt to publish a message: whether the client reports it as sent, whether
it reaches the broker, whether the broker's answer comes back, and whether the broker has
forgotten the ids as old as this one. -/
structure Attempt where
  reported : Bool
  reached : Bool
  answered : Bool
  forgotten : Bool
  deriving DecidableEq

/-- What comes of the wait for a deferred answer, and of the attempts that follow if it does not
arrive. -/
structure Answer where
  arrived : Bool
  retries : List Attempt

/-- The answers to deferred messages and the attempts for the message itself. Where a list ends,
the time is up. -/
structure Script where
  answers : List Answer
  attempts : List Attempt

/-- The answer that is still to come tells whether the message has reached the broker. -/
structure PendingTransaction where
  message : Message
  ack : Option Bool
  deriving DecidableEq

inductive LockState
  | held | reacquiring
  deriving DecidableEq

/-- Where the service stands: in its loop, emptying its channel before it ends, or at its end,
with the channel emptied or not. -/
inductive ServicePhase
  | running | draining | drained | ended
  deriving DecidableEq

structure Primary where
  messages : List Message
  /-- The scheduler is gone, and with it the other end of the channel. -/
  producerFinished : Bool
  pending : Option Message
  unconfirmedTransactions : List PendingTransaction
  lockState : LockState
  phase : ServicePhase
  /-- What the broker holds. -/
  stream : List Message
  /-- What the service has received so far. It does not keep it; the statements speak of it. -/
  taken : List Message

def Message.isFence (unconfirmed : ℕ) : Message → Bool
  | .block _ => true
  | .transaction _ _ _ => maxDeferredTransactionAcks ≤ unconfirmed
  | _ => false

namespace Primary
variable (p : Primary)

/-- The id of a message is its position. -/
def isDuplicate (message : Message) : Bool :=
  message.slotAndIndex ∈ p.stream.map Message.slotAndIndex

def store (a : Attempt) (message : Message) : Primary :=
  if a.reached && (a.forgotten || !p.isDuplicate message) then
    { p with stream := p.stream ++ [message] }
  else p

/-- A duplicate is answered like any other message. -/
def publish (message : Message) (confirm : Confirm) (a : Attempt) : Bool × Primary :=
  let p := p.store a message
  if confirm = .no then
    (a.reported, { p with
      unconfirmedTransactions := p.unconfirmedTransactions ++
        if a.reported then [⟨message, some a.reached⟩] else [] })
  else (a.reported && a.reached && a.answered, p)

def publishAll (message : Message) (confirm : Confirm) : List Attempt → Primary → Bool × Primary
  | [], p => (false, p)
  | a :: attempts, p =>
    match p.publish message confirm a with
    | (true, p) => (true, p)
    | (false, p) => publishAll message confirm attempts p

def publishWithRetryUntil (message : Message) (confirm : Confirm) (attempts : List Attempt) :
    Bool × Primary :=
  publishAll message confirm (attempts.take publishRetryLimit) p

/-- Whoever has not been confirmed goes back to the front, its answer forgotten. -/
def confirmQueue : List PendingTransaction → List Answer → Primary → Bool × Primary
  | [], _, p => (true, { p with unconfirmedTransactions := [] })
  | transaction :: rest, [], p =>
    (false, { p with unconfirmedTransactions := ⟨transaction.message, none⟩ :: rest })
  | transaction :: rest, answer :: answers, p =>
    if transaction.ack = some true ∧ answer.arrived = true then confirmQueue rest answers p
    else
      match p.publishWithRetryUntil transaction.message .yes answer.retries with
      | (true, p) => confirmQueue rest answers p
      | (false, p) =>
        (false, { p with unconfirmedTransactions := ⟨transaction.message, none⟩ :: rest })

def confirmTransactions (answers : List Answer) : Bool × Primary :=
  confirmQueue p.unconfirmedTransactions answers p

def publishOrderedUntil (message : Message) (script : Script) : Bool × Primary :=
  if message.isFence p.unconfirmedTransactions.length then
    match p.confirmTransactions script.answers with
    | (false, p) => (false, p)
    | (true, p) => p.publishWithRetryUntil message (confirmationFor message) script.attempts
  else p.publishWithRetryUntil message (confirmationFor message) script.attempts

inductive Event
  | send (message : Message)
  | finish
  | publish (script : Script)
  | receive (script : Script)
  | close
  | refresh (kept : Bool)
  | acquire (acquired : Bool)
  | cancel
  | drain (script : Script)
  | complete (answers : List Answer)
  | timeOut

/-- What is published, and stays with the service if it cannot be. -/
def attempt (message : Message) (script : Script) : Primary :=
  let (published, p) := p.publishOrderedUntil message script
  { p with pending := if published then none else some message }

/-- On the way out, what cannot be published ends the service. -/
def drainPublish (message : Message) (script : Script) : Primary :=
  let (published, p) := p.publishOrderedUntil message script
  { p with phase := if published then p.phase else .ended }

def step : Event → Option Primary
  | .send message =>
    if p.producerFinished then none else some { p with messages := p.messages ++ [message] }
  | .finish => some { p with producerFinished := true }
  | .publish script =>
    match p.pending with
    | some message =>
      if p.phase = .running ∧ p.lockState = .held then some (p.attempt message script) else none
    | none => none
  | .receive script =>
    match p.messages with
    | message :: rest =>
      if p.phase = .running ∧ p.pending = none then
        let p := { p with messages := rest, taken := p.taken ++ [message] }
        some (if p.lockState = .held then p.attempt message script
          else { p with pending := some message })
      else none
    | [] => none
  | .close =>
    if p.phase = .running ∧ p.pending = none ∧ p.messages = [] ∧ p.producerFinished = true then
      some { p with phase := .ended }
    else none
  | .refresh kept =>
    if p.phase = .running ∧ p.lockState = .held then
      some { p with lockState := if kept then .held else .reacquiring }
    else none
  | .acquire acquired =>
    if p.phase = .running ∧ p.lockState = .reacquiring then
      some { p with lockState := if acquired then .held else .reacquiring }
    else none
  | .cancel =>
    if p.phase = .running then
      some { p with phase := if p.lockState = .held then .draining else .ended }
    else none
  | .drain script =>
    if p.phase = .draining then
      match p.pending, p.messages with
      | some message, _ => some ({ p with pending := none }.drainPublish message script)
      | none, message :: rest =>
        some ({ p with messages := rest, taken := p.taken ++ [message] }.drainPublish message script)
      | none, [] => none
    else none
  | .complete answers =>
    if p.phase = .draining ∧ p.pending = none ∧ p.messages = [] ∧ p.producerFinished = true then
      let (confirmed, p) := p.confirmTransactions answers
      some { p with phase := if confirmed then .drained else .ended }
    else none
  | .timeOut => if p.phase = .draining then some { p with phase := .ended } else none

/-- A service as it starts, with the lock, on what the broker holds. -/
def new (stream : List Message) : Primary :=
  ⟨[], false, none, [], .held, .running, stream, []⟩

abbrev Run (start : Primary) (t : List (Traces.Entry Primary Event)) (p : Primary) : Prop :=
  Traces.Trace (fun event p p' => p.step event = some p') start t p

def Event.sent : Event → Option Message
  | .send message => some message
  | _ => none

inductive Steps (p : Primary) : Event → Primary → Prop
  | sent (message : Message) (hopen : p.producerFinished = false) :
      Steps p (.send message) { p with messages := p.messages ++ [message] }
  | finished : Steps p .finish { p with producerFinished := true }
  | published {message : Message} {script : Script} (hpending : p.pending = some message)
      (hrunning : p.phase = .running) : Steps p (.publish script) (p.attempt message script)
  | received {message : Message} {rest : List Message} {script : Script}
      (hmessages : p.messages = message :: rest) (hrunning : p.phase = .running)
      (hnone : p.pending = none) :
      Steps p (.receive script)
        ({ p with messages := rest, taken := p.taken ++ [message] }.attempt message script)
  /-- Without the lock a message is only taken in. -/
  | kept {message : Message} {rest : List Message} {script : Script}
      (hmessages : p.messages = message :: rest) (hrunning : p.phase = .running)
      (hnone : p.pending = none) :
      Steps p (.receive script)
        { p with messages := rest, taken := p.taken ++ [message], pending := some message }
  | moved {event : Event} {p' : Primary} (hevent : event.sent = none)
      (hp' : p' = { p with lockState := p'.lockState, phase := p'.phase })
      (hphase : p'.phase = p.phase ∨ p'.phase = .ended ∨
        p.phase = .running ∧ p'.phase = .draining) : Steps p event p'
  | flushed {message : Message} {script : Script} (hpending : p.pending = some message)
      (hdraining : p.phase = .draining) :
      Steps p (.drain script) ({ p with pending := none }.drainPublish message script)
  | drained {message : Message} {rest : List Message} {script : Script}
      (hmessages : p.messages = message :: rest) (hdraining : p.phase = .draining)
      (hnone : p.pending = none) :
      Steps p (.drain script)
        ({ p with messages := rest, taken := p.taken ++ [message] }.drainPublish message script)
  | completed {answers : List Answer} (hdraining : p.phase = .draining) (hnone : p.pending = none)
      (hempty : p.messages = []) (hfinished : p.producerFinished = true) :
      Steps p (.complete answers) { (p.confirmTransactions answers).2 with
        phase := if (p.confirmTransactions answers).1 then .drained else .ended }

lemma step_steps {p p' : Primary} {event : Event} (h : p.step event = some p') :
    Steps p event p' := by
  cases event with
  | send message =>
    simp only [step] at h
    split_ifs at h with hfinished
    obtain rfl := Option.some.inj h
    exact .sent message (by simpa using hfinished)
  | finish =>
    obtain rfl := Option.some.inj h
    exact .finished
  | publish script =>
    simp only [step] at h
    split at h
    · split_ifs at h with hguard
      obtain rfl := Option.some.inj h
      exact .published ‹_› hguard.1
    · cases h
  | receive script =>
    simp only [step] at h
    split at h
    · split_ifs at h with hguard hheld
      · obtain rfl := Option.some.inj h
        exact .received ‹_› hguard.1 hguard.2
      · obtain rfl := Option.some.inj h
        exact .kept ‹_› hguard.1 hguard.2
    · cases h
  | drain script =>
    simp only [step] at h
    split_ifs at h with hdraining
    split at h
    · obtain rfl := Option.some.inj h
      exact .flushed ‹_› hdraining
    · obtain rfl := Option.some.inj h
      exact .drained ‹_› hdraining ‹_›
    · cases h
  | complete answers =>
    simp only [step] at h
    by_cases hguard : p.phase = .draining ∧ p.pending = none ∧ p.messages = [] ∧
        p.producerFinished = true
    · rw [if_pos hguard] at h
      obtain rfl := Option.some.inj h
      exact .completed hguard.1 hguard.2.1 hguard.2.2.1 hguard.2.2.2
    · rw [if_neg hguard] at h
      cases h
  | close =>
    simp only [step] at h
    split_ifs at h with hguard
    obtain rfl := Option.some.inj h
    exact .moved rfl rfl (.inr (.inl rfl))
  | refresh kept =>
    simp only [step] at h
    split_ifs at h with hguard
    all_goals
      obtain rfl := Option.some.inj h
      exact .moved rfl rfl (.inl rfl)
  | acquire acquired =>
    simp only [step] at h
    split_ifs at h with hguard
    all_goals
      obtain rfl := Option.some.inj h
      exact .moved rfl rfl (.inl rfl)
  | cancel =>
    simp only [step] at h
    split_ifs at h with hrunning hheld
    · obtain rfl := Option.some.inj h
      exact .moved rfl rfl (.inr (.inr ⟨hrunning, rfl⟩))
    · obtain rfl := Option.some.inj h
      exact .moved rfl rfl (.inr (.inl rfl))
  | timeOut =>
    simp only [step] at h
    split_ifs at h with hdraining
    obtain rfl := Option.some.inj h
    exact .moved rfl rfl (.inr (.inl rfl))

variable {p} {message : Message} {confirm : Confirm} {a : Attempt} {attempts : List Attempt}
  {base hand : List Message}

/-- The broker has a message of this position. -/
def Known (stream : List Message) (message : Message) : Prop :=
  message.slotAndIndex ∈ stream.map Message.slotAndIndex

lemma Known.append {stream : List Message} (h : Known stream message) (more : List Message) :
    Known (stream ++ more) message := by
  rw [Known, List.map_append]
  exact List.mem_append_left _ h

lemma known_of_mem {stream : List Message} (h : message ∈ stream) : Known stream message :=
  List.mem_map_of_mem h

lemma store_eq (p : Primary) (a : Attempt) (message : Message) :
    ∃ new, p.store a message = { p with stream := p.stream ++ new } ∧ (∀ m ∈ new, m = message) ∧
      (a.reached = true → Known (p.stream ++ new) message) := by
  unfold store
  split_ifs with hstore
  · exact ⟨[message], rfl, by simp, fun _ => known_of_mem (by simp)⟩
  · refine ⟨[], by simp, by simp, fun hreached => ?_⟩
    rw [List.append_nil]
    have hduplicate : p.isDuplicate message = true := by
      cases hdup : p.isDuplicate message <;> simp_all
    simpa [isDuplicate, Known] using hduplicate

/-- What an attempt at a message, or a row of them, can come to. -/
structure Publishes (message : Message) (p p' : Primary) (published : Bool) (confirm : Confirm)
    (new : List Message) (deferred : List PendingTransaction) : Prop where
  eq : p' = { p with
    stream := p.stream ++ new
    unconfirmedTransactions := p.unconfirmedTransactions ++ deferred }
  only : ∀ m ∈ new, m = message
  confirmed : confirm ≠ .no → deferred = [] ∧ (published = true → Known (p.stream ++ new) message)
  unconfirmed : confirm = .no → ∃ ack, (ack = some true → Known (p.stream ++ new) message) ∧
    deferred = if published then [⟨message, ack⟩] else []

namespace Publishes
variable {p p' : Primary} {published : Bool} {new : List Message} {deferred : List PendingTransaction}

lemma of_deferred (h : Publishes message p p' published confirm new deferred) {t : PendingTransaction}
    (ht : t ∈ deferred) : t.message = message ∧ confirm = .no ∧
      (t.ack = some true → Known (p.stream ++ new) message) := by
  by_cases hconfirm : confirm = .no
  · obtain ⟨ack, hknown, hdeferred⟩ := h.unconfirmed hconfirm
    rw [hdeferred] at ht
    split_ifs at ht
    · obtain rfl := List.mem_singleton.mp ht
      exact ⟨rfl, hconfirm, hknown⟩
    · cases ht
  · rw [(h.confirmed hconfirm).1] at ht
    cases ht

lemma done (h : Publishes message p p' true confirm new deferred) :
    Known (p.stream ++ new) message ∨ ∃ t ∈ deferred, t.message = message := by
  by_cases hconfirm : confirm = .no
  · obtain ⟨ack, -, hdeferred⟩ := h.unconfirmed hconfirm
    exact .inr ⟨⟨message, ack⟩, by simp [hdeferred], rfl⟩
  · exact .inl ((h.confirmed hconfirm).2 rfl)

lemma length_le_one (h : Publishes message p p' published confirm new deferred) :
    deferred.length ≤ 1 := by
  by_cases hconfirm : confirm = .no
  · obtain ⟨ack, -, hdeferred⟩ := h.unconfirmed hconfirm
    rw [hdeferred]
    split_ifs <;> simp
  · simp [(h.confirmed hconfirm).1]

end Publishes

lemma publish_publishes {p p' : Primary} {published : Bool}
    (h : p.publish message confirm a = (published, p')) :
    ∃ new deferred, Publishes message p p' published confirm new deferred := by
  obtain ⟨new, hstore, honly, hknown⟩ := p.store_eq a message
  by_cases hconfirm : confirm = .no
  · simp only [publish, if_pos hconfirm, Prod.mk.injEq] at h
    obtain ⟨rfl, rfl⟩ := h
    refine ⟨new, if a.reported then [⟨message, some a.reached⟩] else [], ?_, honly,
      fun hne => absurd hconfirm hne, fun _ => ⟨some a.reached, by simpa using hknown, rfl⟩⟩
    rw [hstore]
  · simp only [publish, if_neg hconfirm, Prod.mk.injEq] at h
    obtain ⟨rfl, rfl⟩ := h
    refine ⟨new, [], by rw [hstore, List.append_nil], honly, fun _ => ⟨rfl, ?_⟩,
      fun heq => absurd heq hconfirm⟩
    simp only [Bool.and_eq_true]
    exact fun hall => hknown hall.1.2

lemma publishAll_publishes {p p' : Primary} {published : Bool}
    (h : publishAll message confirm attempts p = (published, p')) :
    ∃ new deferred, Publishes message p p' published confirm new deferred := by
  induction attempts generalizing p with
  | nil =>
    obtain ⟨rfl, rfl⟩ := Prod.mk.inj h
    exact ⟨[], [], by simp, by simp, fun _ => ⟨rfl, by simp⟩, fun _ => ⟨none, by simp, rfl⟩⟩
  | cons a attempts ih =>
    rw [publishAll] at h
    split at h
    · rename_i q hpublish
      obtain ⟨rfl, rfl⟩ := Prod.mk.inj h
      exact publish_publishes hpublish
    · rename_i q hpublish
      obtain ⟨new, deferred, hfirst⟩ := publish_publishes hpublish
      obtain ⟨more, deferred', hrest⟩ := ih h
      have hnone : deferred = [] := by
        by_cases hconfirm : confirm = .no
        · obtain ⟨ack, -, hdeferred⟩ := hfirst.unconfirmed hconfirm
          exact hdeferred
        · exact (hfirst.confirmed hconfirm).1
      subst hnone
      have hstream : q.stream = p.stream ++ new := by rw [hfirst.eq]
      refine ⟨new ++ more, deferred', ?_, ?_, ?_, ?_⟩
      · rw [hrest.eq, hfirst.eq]
        simp
      · intro m hm
        rcases List.mem_append.mp hm with hm | hm
        · exact hfirst.only m hm
        · exact hrest.only m hm
      · rw [← List.append_assoc, ← hstream]
        exact hrest.confirmed
      · rw [← List.append_assoc, ← hstream]
        exact hrest.unconfirmed

/-- What the wait for the answers can come to. -/
structure Confirms (queue : List PendingTransaction) (p p' : Primary) (confirmed : Bool)
    (new : List Message) (left : List PendingTransaction) : Prop where
  eq : p' = { p with stream := p.stream ++ new, unconfirmedTransactions := left }
  only : ∀ m ∈ new, ∃ transaction ∈ queue, transaction.message = m
  settled : ∀ transaction ∈ queue,
    Known (p.stream ++ new) transaction.message ∨ ∃ t ∈ left, t.message = transaction.message
  remains : ∀ t ∈ left, t ∈ queue ∨ t.ack = none ∧ ∃ transaction ∈ queue, transaction.message = t.message
  length_le : left.length ≤ queue.length
  done : confirmed = true → left = []

namespace Confirms
variable {transaction : PendingTransaction} {rest left : List PendingTransaction}
  {q p' : Primary} {new more : List Message} {confirmed : Bool}

lemma stop (p : Primary) (transaction : PendingTransaction) (rest : List PendingTransaction)
    (honly : ∀ m ∈ new, m = transaction.message) :
    Confirms (transaction :: rest) p
      { p with
        stream := p.stream ++ new
        unconfirmedTransactions := ⟨transaction.message, none⟩ :: rest } false new
      (⟨transaction.message, none⟩ :: rest) := by
  refine ⟨rfl, ?_, ?_, ?_, by simp, by simp⟩
  · intro m hm
    exact ⟨transaction, List.mem_cons_self, (honly m hm).symm⟩
  · intro t ht
    rcases List.mem_cons.mp ht with rfl | ht
    · exact .inr ⟨_, List.mem_cons_self, rfl⟩
    · exact .inr ⟨t, List.mem_cons_of_mem _ ht, rfl⟩
  · intro t ht
    rcases List.mem_cons.mp ht with rfl | ht
    · exact .inr ⟨rfl, transaction, List.mem_cons_self, rfl⟩
    · exact .inl (List.mem_cons_of_mem _ ht)

lemma cons (h : Confirms rest q p' confirmed more left)
    (hq : q = { p with stream := p.stream ++ new }) (honly : ∀ m ∈ new, m = transaction.message)
    (hknown : Known (p.stream ++ new) transaction.message) :
    Confirms (transaction :: rest) p p' confirmed (new ++ more) left := by
  have hstream : q.stream = p.stream ++ new := by rw [hq]
  refine ⟨?_, ?_, ?_, ?_, h.length_le.trans (by simp), h.done⟩
  · rw [h.eq, hq]
    simp
  · intro m hm
    rcases List.mem_append.mp hm with hm | hm
    · exact ⟨transaction, List.mem_cons_self, (honly m hm).symm⟩
    · obtain ⟨t, ht, heq⟩ := h.only m hm
      exact ⟨t, List.mem_cons_of_mem _ ht, heq⟩
  · intro t ht
    rw [← List.append_assoc]
    rcases List.mem_cons.mp ht with rfl | ht
    · exact .inl (hknown.append more)
    · rw [← hstream]
      exact h.settled t ht
  · intro t ht
    rcases h.remains t ht with hmem | ⟨hnone, u, hu, heq⟩
    · exact .inl (List.mem_cons_of_mem _ hmem)
    · exact .inr ⟨hnone, u, List.mem_cons_of_mem _ hu, heq⟩

end Confirms

lemma confirmQueue_confirms {queue : List PendingTransaction} {answers : List Answer}
    {p p' : Primary} {confirmed : Bool}
    (hacks : ∀ t ∈ queue, t.ack = some true → Known p.stream t.message)
    (h : confirmQueue queue answers p = (confirmed, p')) :
    ∃ new left, Confirms queue p p' confirmed new left := by
  induction queue generalizing answers p with
  | nil =>
    obtain ⟨rfl, rfl⟩ := Prod.mk.inj h
    exact ⟨[], [], by simp, by simp, by simp, by simp, by simp, fun _ => rfl⟩
  | cons transaction rest ih =>
    cases answers with
    | nil =>
      obtain ⟨rfl, rfl⟩ := Prod.mk.inj h
      have hstops := @Confirms.stop [] p transaction rest (by simp)
      rw [List.append_nil] at hstops
      exact ⟨[], _, hstops⟩
    | cons answer answers =>
      rw [confirmQueue] at h
      split_ifs at h with hanswered
      · obtain ⟨more, left, hrest⟩ := ih (fun t ht => hacks t (List.mem_cons_of_mem _ ht)) h
        refine ⟨[] ++ more, left, hrest.cons (by simp) (by simp) ?_⟩
        rw [List.append_nil]
        exact hacks transaction List.mem_cons_self hanswered.1
      · split at h
        · rename_i q hpublish
          obtain ⟨new, deferred, hretry⟩ := publishAll_publishes hpublish
          obtain ⟨rfl, hknown⟩ := hretry.confirmed (by simp)
          have hq := hretry.eq
          rw [List.append_nil] at hq
          obtain ⟨more, left, hrest⟩ := ih (fun t ht hack => by
            rw [hq]
            exact (hacks t (List.mem_cons_of_mem _ ht) hack).append new) h
          exact ⟨new ++ more, left, hrest.cons hq hretry.only (hknown rfl)⟩
        · rename_i q hpublish
          obtain ⟨new, deferred, hretry⟩ := publishAll_publishes hpublish
          obtain ⟨rfl, rfl⟩ := Prod.mk.inj h
          refine ⟨new, ⟨transaction.message, none⟩ :: rest, ?_⟩
          rw [hretry.eq]
          exact Confirms.stop p transaction rest hretry.only

lemma confirmQueue_frame (queue : List PendingTransaction) (answers : List Answer) (p : Primary) :
    ∃ stream unconfirmed, (confirmQueue queue answers p).2 =
      { p with stream := stream, unconfirmedTransactions := unconfirmed } := by
  induction queue generalizing answers p with
  | nil => exact ⟨_, _, rfl⟩
  | cons transaction rest ih =>
    cases answers with
    | nil => exact ⟨_, _, rfl⟩
    | cons answer answers =>
      rw [confirmQueue]
      split_ifs with hanswered
      · exact ih answers p
      · cases hpublish : p.publishWithRetryUntil transaction.message .yes answer.retries with
        | mk published q =>
          obtain ⟨new, deferred, hpublishes⟩ := publishAll_publishes hpublish
          cases published with
          | false => exact ⟨_, _, by rw [hpublishes.eq]⟩
          | true =>
            obtain ⟨stream, unconfirmed, hrest⟩ := ih answers q
            refine ⟨stream, unconfirmed, hrest.trans ?_⟩
            rw [hpublishes.eq]

lemma publishOrderedUntil_frame (p : Primary) (message : Message) (script : Script) :
    ∃ stream unconfirmed, (p.publishOrderedUntil message script).2 =
      { p with stream := stream, unconfirmedTransactions := unconfirmed } := by
  have hown : ∀ q : Primary, ∃ stream unconfirmed,
      (q.publishWithRetryUntil message (confirmationFor message) script.attempts).2 =
        { q with stream := stream, unconfirmedTransactions := unconfirmed } := by
    intro q
    obtain ⟨new, deferred, hpublishes⟩ := publishAll_publishes
      (rfl : publishAll message (confirmationFor message)
        (script.attempts.take publishRetryLimit) q = (_, _))
    exact ⟨_, _, hpublishes.eq⟩
  unfold publishOrderedUntil
  split_ifs
  · obtain ⟨stream, unconfirmed, hconfirm⟩ :=
      confirmQueue_frame p.unconfirmedTransactions script.answers p
    cases hresult : p.confirmTransactions script.answers with
    | mk confirmed q =>
      have hq : q = { p with stream := stream, unconfirmedTransactions := unconfirmed } := by
        rw [← hconfirm]
        exact (congrArg Prod.snd hresult).symm
      cases confirmed with
      | false => exact ⟨_, _, hq⟩
      | true =>
        obtain ⟨stream', unconfirmed', hlast⟩ := hown q
        refine ⟨stream', unconfirmed', hlast.trans ?_⟩
        rw [hq]
  · exact hown p

/-- Before a block stands whatever was received before it. -/
def Fenced (taken stream : List Message) : Prop :=
  ∀ before b after earlier later, stream = before ++ .block b :: after →
    taken = earlier ++ .block b :: later → ∀ m ∈ earlier, Known before m

lemma Fenced.append {taken stream new : List Message} (h : Fenced taken stream)
    (hnew : ∀ b, .block b ∈ new → ∀ earlier later, taken = earlier ++ .block b :: later →
      ∀ m ∈ earlier, Known stream m) : Fenced taken (stream ++ new) := by
  intro before b after earlier later hstream htaken m hm
  rcases List.append_eq_append_iff.mp hstream with ⟨more, hbefore, hrest⟩ | ⟨more, hprefix, hrest⟩
  · rw [hbefore]
    refine (hnew b ?_ earlier later htaken m hm).append more
    rw [hrest]
    simp
  · cases more with
    | nil =>
      rw [List.append_nil] at hprefix
      rw [List.nil_append] at hrest
      rw [← hprefix]
      exact hnew b (by simp [← hrest]) earlier later htaken m hm
    | cons first more =>
      rw [List.cons_append] at hrest
      obtain ⟨rfl, -⟩ := List.cons.inj hrest
      exact h before b more earlier later hprefix htaken m hm

/-- The positions of what is received are new, and different. -/
structure Distinct (base taken : List Message) : Prop where
  nodup : (taken.map Message.slotAndIndex).Nodup
  fresh : ∀ m ∈ base, ¬Known taken m

lemma Distinct.of_append {taken more : List Message} (h : Distinct base (taken ++ more)) :
    Distinct base taken where
  nodup := (List.nodup_append.mp (List.map_append ▸ h.nodup)).1
  fresh m hm hknown := h.fresh m hm (hknown.append more)

/-- What the service has received, but for what it has in hand, is with the broker or waits for an
answer. -/
structure Tracked (base : List Message) (p : Primary) (hand : List Message) : Prop where
  origin : ∀ m ∈ p.stream, m ∈ base ∨ m ∈ p.taken
  deferred : ∀ t ∈ p.unconfirmedTransactions, t.message ∈ p.taken ∧
    confirmationFor t.message = .no ∧ (t.ack = some true → Known p.stream t.message)
  settled : ∀ m ∈ p.taken, Known p.stream m ∨
    (∃ t ∈ p.unconfirmedTransactions, t.message = m) ∨ m ∈ hand
  last : ∀ m ∈ hand, ∃ earlier, p.taken = earlier ++ [m]
  bounded : p.unconfirmedTransactions.length ≤ maxDeferredTransactionAcks
  fenced : Fenced p.taken p.stream

namespace Tracked
variable {p p' : Primary} {published : Bool}

lemma frame (h : Tracked base p hand) (hstream : p'.stream = p.stream) (htaken : p'.taken = p.taken)
    (hunconfirmed : p'.unconfirmedTransactions = p.unconfirmedTransactions) :
    Tracked base p' hand := by
  constructor
  · rw [hstream, htaken]
    exact h.origin
  · rw [hstream, htaken, hunconfirmed]
    exact h.deferred
  · rw [hstream, htaken, hunconfirmed]
    exact h.settled
  · rw [htaken]
    exact h.last
  · rw [hunconfirmed]
    exact h.bounded
  · rw [hstream, htaken]
    exact h.fenced

lemma confirms {confirmed : Bool} {new : List Message} {left : List PendingTransaction}
    (h : Tracked base p hand)
    (hconfirms : Confirms p.unconfirmedTransactions p p' confirmed new left) :
    Tracked base p' hand := by
  obtain ⟨hp, honly, hsettled, hremains, hlength, -⟩ := hconfirms
  subst hp
  constructor
  · intro m hm
    rcases List.mem_append.mp hm with hm | hm
    · exact h.origin m hm
    · obtain ⟨t, ht, rfl⟩ := honly m hm
      exact .inr (h.deferred t ht).1
  · intro t ht
    rcases hremains t ht with hmem | ⟨hnone, u, hu, heq⟩
    · obtain ⟨htaken, hno, hack⟩ := h.deferred t hmem
      exact ⟨htaken, hno, fun htrue => (hack htrue).append new⟩
    · obtain ⟨htaken, hno, -⟩ := h.deferred u hu
      exact ⟨heq ▸ htaken, heq ▸ hno, by simp [hnone]⟩
  · intro m hm
    rcases h.settled m hm with hknown | ⟨t, ht, rfl⟩ | hhand
    · exact .inl (hknown.append new)
    · rcases hsettled t ht with hknown | hleft
      · exact .inl hknown
      · exact .inr (.inl hleft)
    · exact .inr (.inr hhand)
  · exact h.last
  · exact hlength.trans h.bounded
  · refine h.fenced.append fun b hb => ?_
    obtain ⟨t, ht, heq⟩ := honly _ hb
    have hno := (h.deferred t ht).2.1
    rw [heq] at hno
    cases hno

lemma publishes {new : List Message} {deferred : List PendingTransaction}
    (h : Tracked base p [message]) (hdistinct : Distinct base p.taken)
    (hfence : message.isFence p.unconfirmedTransactions.length = true →
      p.unconfirmedTransactions = [])
    (hpublishes : Publishes message p p' published (confirmationFor message) new deferred) :
    Tracked base p' (if published then [] else [message]) := by
  obtain ⟨earlier, htaken⟩ := h.last message (List.mem_singleton_self _)
  have hmem : message ∈ p.taken := by simp [htaken]
  have hp := hpublishes.eq
  subst hp
  constructor
  · intro m hm
    rcases List.mem_append.mp hm with hm | hm
    · exact h.origin m hm
    · exact .inr (hpublishes.only m hm ▸ hmem)
  · intro t ht
    rcases List.mem_append.mp ht with ht | ht
    · obtain ⟨htaken, hno, hack⟩ := h.deferred t ht
      exact ⟨htaken, hno, fun htrue => (hack htrue).append new⟩
    · obtain ⟨hmessage, hno, hack⟩ := hpublishes.of_deferred ht
      rw [hmessage]
      exact ⟨hmem, hno, hack⟩
  · intro m hm
    rcases h.settled m hm with hknown | ⟨t, ht, heq⟩ | hhand
    · exact .inl (hknown.append new)
    · exact .inr (.inl ⟨t, List.mem_append_left _ ht, heq⟩)
    · cases published with
      | false => exact .inr (.inr hhand)
      | true =>
        rw [List.mem_singleton.mp hhand]
        rcases hpublishes.done with hknown | ⟨t, ht, heq⟩
        · exact .inl hknown
        · exact .inr (.inl ⟨t, List.mem_append_right _ ht, heq⟩)
  · intro m hm
    split_ifs at hm
    · cases hm
    · exact h.last m hm
  · rw [List.length_append]
    cases hdeferred : deferred with
    | nil => exact h.bounded
    | cons t rest =>
      -- only a transaction waits for its answer, and there was room for it
      obtain ⟨-, hno, -⟩ := hpublishes.of_deferred (hdeferred ▸ List.mem_cons_self)
      have hone := hpublishes.length_le_one
      rw [hdeferred] at hone
      cases message with
      | transaction slot index payload =>
        by_cases hfull : maxDeferredTransactionAcks ≤ p.unconfirmedTransactions.length
        · rw [hfence (by simpa [Message.isFence] using hfull)] at hfull
          exact absurd hfull (by decide)
        · omega
      | _ => cases hno
  · refine h.fenced.append fun b hb earlier later htaken' m hm => ?_
    obtain rfl := hpublishes.only _ hb
    have hin : m ∈ p.taken := by simp [htaken', hm]
    rcases h.settled m hin with hknown | ⟨t, ht, -⟩ | hhand
    · exact hknown
    · rw [hfence rfl] at ht
      cases ht
    · have hnodup := hdistinct.nodup
      rw [List.mem_singleton.mp hhand] at hm
      rw [htaken', List.map_append, List.map_cons, List.nodup_append] at hnodup
      exact absurd rfl (hnodup.2.2 _ (List.mem_map_of_mem hm) _ List.mem_cons_self)

lemma publishOrderedUntil {script : Script} (h : Tracked base p [message])
    (hdistinct : Distinct base p.taken)
    (hpublish : p.publishOrderedUntil message script = (published, p')) :
    Tracked base p' (if published then [] else [message]) := by
  unfold Primary.publishOrderedUntil at hpublish
  split_ifs at hpublish with hfence
  · split at hpublish
    · rename_i q hconfirm
      obtain ⟨rfl, rfl⟩ := Prod.mk.inj hpublish
      obtain ⟨new, left, hconfirms⟩ :=
        confirmQueue_confirms (fun t ht => (h.deferred t ht).2.2) hconfirm
      exact h.confirms hconfirms
    · rename_i q hconfirm
      obtain ⟨new, left, hconfirms⟩ :=
        confirmQueue_confirms (fun t ht => (h.deferred t ht).2.2) hconfirm
      have hleft : q.unconfirmedTransactions = [] := by
        rw [hconfirms.eq]
        exact hconfirms.done rfl
      have htaken : q.taken = p.taken := by rw [hconfirms.eq]
      obtain ⟨more, deferred, hpublishes⟩ := publishAll_publishes hpublish
      exact (h.confirms hconfirms).publishes (htaken ▸ hdistinct) (fun _ => hleft) hpublishes
  · obtain ⟨more, deferred, hpublishes⟩ := publishAll_publishes hpublish
    exact h.publishes hdistinct (fun hfence' => absurd hfence' hfence) hpublishes

end Tracked

lemma Tracked.receive {p : Primary} {rest : List Message} (h : Tracked base p [])
    (hdistinct : Distinct base (p.taken ++ [message])) :
    Tracked base { p with messages := rest, taken := p.taken ++ [message] } [message] := by
  have hnew : ¬Known p.taken message := by
    have hnodup := hdistinct.nodup
    rw [List.map_append, List.nodup_append] at hnodup
    intro hknown
    exact hnodup.2.2 _ hknown _ (by simp) rfl
  constructor
  · intro m hm
    rcases h.origin m hm with hbase | htaken
    · exact .inl hbase
    · exact .inr (List.mem_append_left _ htaken)
  · intro t ht
    obtain ⟨htaken, hrest⟩ := h.deferred t ht
    exact ⟨List.mem_append_left _ htaken, hrest⟩
  · intro m hm
    rcases List.mem_append.mp hm with hm | hm
    · rcases h.settled m hm with hknown | hwaiting | hhand
      · exact .inl hknown
      · exact .inr (.inl hwaiting)
      · cases hhand
    · exact .inr (.inr hm)
  · intro m hm
    exact ⟨p.taken, by rw [List.mem_singleton.mp hm]⟩
  · exact h.bounded
  · intro before b after earlier later hstream htaken m hm
    change p.stream = _ at hstream
    change p.taken ++ [message] = _ at htaken
    -- a block that is with the broker has been received before
    have hold : .block b ∈ p.taken := by
      rcases h.origin (.block b) (by simp [hstream]) with hbase | hin
      · refine absurd ?_ (hdistinct.fresh _ hbase)
        rw [htaken]
        exact known_of_mem (by simp)
      · exact hin
    cases later using List.reverseRecOn with
    | nil =>
      obtain ⟨-, hlast⟩ := List.append_inj' htaken rfl
      obtain rfl := List.singleton_inj.mp hlast
      exact absurd (known_of_mem hold) hnew
    | append_singleton later last =>
      rw [← List.cons_append, ← List.append_assoc] at htaken
      obtain ⟨hbefore, -⟩ := List.append_inj' htaken rfl
      exact h.fenced before b after earlier later hstream hbefore m hm

/-- What holds of the service and the broker at any time. -/
structure Ordered (base : List Message) (p : Primary) : Prop where
  tracked : p.phase ≠ .ended → Tracked base p p.pending.toList
  origin : ∀ m ∈ p.stream, m ∈ base ∨ m ∈ p.taken
  fenced : Fenced p.taken p.stream
  drained : p.phase = .drained → p.pending = none ∧ p.unconfirmedTransactions = [] ∧
    p.messages = [] ∧ p.producerFinished = true

namespace Ordered
variable {p p' : Primary} {event : Event} {script : Script}

lemma of_tracked (h : Tracked base p p.pending.toList)
    (hdrained : p.phase = .drained → p.pending = none ∧ p.unconfirmedTransactions = [] ∧
      p.messages = [] ∧ p.producerFinished = true) : Ordered base p :=
  ⟨fun _ => h, h.origin, h.fenced, hdrained⟩

lemma attempt (h : Tracked base p [message]) (hdistinct : Distinct base p.taken)
    (hrunning : p.phase = .running) : Ordered base (p.attempt message script) := by
  obtain ⟨stream, unconfirmed, hframe⟩ := p.publishOrderedUntil_frame message script
  cases hpublish : p.publishOrderedUntil message script with
  | mk published q =>
    have htracked := h.publishOrderedUntil hdistinct hpublish
    have hphase : q.phase = .running := by
      rw [hpublish] at hframe
      exact (congrArg Primary.phase hframe).trans hrunning
    simp only [Primary.attempt, hpublish]
    refine of_tracked ?_ fun hdrained => absurd (hphase.symm.trans hdrained) (by simp)
    cases published with
    | false => exact htracked.frame rfl rfl rfl
    | true => exact htracked.frame rfl rfl rfl

lemma drainPublish (h : Tracked base p [message]) (hdistinct : Distinct base p.taken)
    (hnone : p.pending = none) (hdraining : p.phase = .draining) :
    Ordered base (p.drainPublish message script) := by
  obtain ⟨stream, unconfirmed, hframe⟩ := p.publishOrderedUntil_frame message script
  cases hpublish : p.publishOrderedUntil message script with
  | mk published q =>
    have htracked := h.publishOrderedUntil hdistinct hpublish
    rw [hpublish] at hframe
    have hphase : q.phase = .draining := (congrArg Primary.phase hframe).trans hdraining
    have hpending : q.pending = none := (congrArg Primary.pending hframe).trans hnone
    simp only [Primary.drainPublish, hpublish]
    cases published with
    | false =>
      exact ⟨fun hended => absurd rfl hended, htracked.origin, htracked.fenced, by simp⟩
    | true =>
      refine of_tracked ?_ fun hdrained => absurd (hphase.symm.trans hdrained) (by simp)
      change Tracked base _ q.pending.toList
      rw [hpending]
      exact htracked.frame rfl rfl rfl

end Ordered

lemma taken_attempt (p : Primary) (message : Message) (script : Script) :
    (p.attempt message script).taken = p.taken ∧ (p.attempt message script).messages = p.messages := by
  obtain ⟨stream, unconfirmed, hframe⟩ := p.publishOrderedUntil_frame message script
  simp [attempt, hframe]

lemma taken_drainPublish (p : Primary) (message : Message) (script : Script) :
    (p.drainPublish message script).taken = p.taken ∧
      (p.drainPublish message script).messages = p.messages := by
  obtain ⟨stream, unconfirmed, hframe⟩ := p.publishOrderedUntil_frame message script
  simp [drainPublish, hframe]

lemma step_taken {p p' : Primary} {event : Event} (h : p.step event = some p') :
    p'.taken ++ p'.messages = p.taken ++ p.messages ++ event.sent.toList ∧
      ∃ more, p'.taken = p.taken ++ more := by
  cases step_steps h with
  | sent message hopen => exact ⟨by simp [Event.sent], [], by simp⟩
  | finished => exact ⟨by simp [Event.sent], [], by simp⟩
  | @published message script hpending hrunning =>
    obtain ⟨htaken, hmessages⟩ := p.taken_attempt message script
    exact ⟨by simp [Event.sent, htaken, hmessages], [], by simp [htaken]⟩
  | @received message rest script hmessages hrunning hnone =>
    obtain ⟨htaken, hleft⟩ := taken_attempt
      { p with messages := rest, taken := p.taken ++ [message] } message script
    exact ⟨by simp [Event.sent, htaken, hleft, hmessages], [message], by simp [htaken]⟩
  | @kept message rest script hmessages hrunning hnone =>
    exact ⟨by simp [Event.sent, hmessages], [message], rfl⟩
  | moved hevent hp' hphase =>
    rw [hp', hevent]
    exact ⟨by simp, [], by simp⟩
  | @flushed message script hpending hdraining =>
    obtain ⟨htaken, hmessages⟩ := taken_drainPublish { p with pending := none } message script
    exact ⟨by simp [Event.sent, htaken, hmessages], [], by simp [htaken]⟩
  | @drained message rest script hmessages hdraining hnone =>
    obtain ⟨htaken, hleft⟩ := taken_drainPublish
      { p with messages := rest, taken := p.taken ++ [message] } message script
    exact ⟨by simp [Event.sent, htaken, hleft, hmessages], [message], by simp [htaken]⟩
  | @completed answers hdraining hnone hempty hfinished =>
    obtain ⟨stream, unconfirmed, hframe⟩ :=
      confirmQueue_frame p.unconfirmedTransactions answers p
    have htaken : (p.confirmTransactions answers).2.taken = p.taken := by
      rw [confirmTransactions, hframe]
    have hleft : (p.confirmTransactions answers).2.messages = p.messages := by
      rw [confirmTransactions, hframe]
    exact ⟨by simp [Event.sent, htaken, hleft], [], by simp [htaken]⟩

lemma Ordered.step {p p' : Primary} {event : Event} (h : Ordered base p)
    (hdistinct : Distinct base p'.taken) (hstep : p.step event = some p') : Ordered base p' := by
  have hbefore : Distinct base p.taken := by
    obtain ⟨-, more, hmore⟩ := step_taken hstep
    exact (hmore ▸ hdistinct).of_append
  cases step_steps hstep with
  | sent message hopen =>
    refine ⟨fun hphase => (h.tracked hphase).frame rfl rfl rfl, h.origin, h.fenced, fun hdrained => ?_⟩
    rw [(h.drained hdrained).2.2.2] at hopen
    cases hopen
  | finished =>
    refine ⟨fun hphase => (h.tracked hphase).frame rfl rfl rfl, h.origin, h.fenced, fun hdrained => ?_⟩
    obtain ⟨hnone, hconfirmed, hempty, -⟩ := h.drained hdrained
    exact ⟨hnone, hconfirmed, hempty, rfl⟩
  | published hpending hrunning =>
    have htracked := h.tracked (by simp [hrunning])
    rw [hpending] at htracked
    exact .attempt htracked hbefore hrunning
  | @received message rest script hmessages hrunning hnone =>
    have htracked := h.tracked (by simp [hrunning])
    rw [hnone] at htracked
    rw [(taken_attempt _ message script).1] at hdistinct
    exact .attempt (htracked.receive hdistinct) hdistinct hrunning
  | @kept message rest script hmessages hrunning hnone =>
    have htracked := h.tracked (by simp [hrunning])
    rw [hnone] at htracked
    have hreceived : Tracked base
        { p with messages := rest, taken := p.taken ++ [message] } [message] :=
      htracked.receive hdistinct
    refine .of_tracked (hreceived.frame rfl rfl rfl) fun hdrained => ?_
    exact absurd (hrunning.symm.trans hdrained) (by simp)
  | moved hevent hp' hphase =>
    have hpending : p'.pending = p.pending := by rw [hp']
    refine ⟨fun hended => ?_, ?_, ?_, fun hdrained => ?_⟩
    · have hopen : p.phase ≠ .ended := by
        rcases hphase with hsame | hend | ⟨hrunning, -⟩
        · exact hsame ▸ hended
        · exact absurd hend hended
        · simp [hrunning]
      rw [hpending, hp']
      exact (h.tracked hopen).frame rfl rfl rfl
    · rw [hp']
      exact h.origin
    · rw [hp']
      exact h.fenced
    · rcases hphase with hsame | hend | ⟨-, hdraining⟩
      · rw [hp']
        exact h.drained (hsame ▸ hdrained)
      · exact absurd (hdrained.symm.trans hend) (by simp)
      · exact absurd (hdrained.symm.trans hdraining) (by simp)
  | flushed hpending hdraining =>
    have htracked := h.tracked (by simp [hdraining])
    rw [hpending] at htracked
    exact .drainPublish (htracked.frame rfl rfl rfl) hbefore rfl hdraining
  | @drained message rest script hmessages hdraining hnone =>
    have htracked := h.tracked (by simp [hdraining])
    rw [hnone] at htracked
    rw [(taken_drainPublish _ message script).1] at hdistinct
    exact .drainPublish (htracked.receive hdistinct) hdistinct hnone hdraining
  | @completed answers hdraining hnone hempty hfinished =>
    have htracked := h.tracked (by simp [hdraining])
    cases hconfirm : p.confirmTransactions answers with
    | mk confirmed q =>
      obtain ⟨new, left, hconfirms⟩ :=
        confirmQueue_confirms (fun t ht => (htracked.deferred t ht).2.2) hconfirm
      have hafter := htracked.confirms hconfirms
      have hpending : q.pending = none := by rw [hconfirms.eq]; exact hnone
      rw [hnone] at hafter
      cases confirmed with
      | false => exact ⟨fun hended => absurd rfl hended, hafter.origin, hafter.fenced, by simp⟩
      | true =>
        refine .of_tracked ?_ fun _ => ⟨hpending, ?_, ?_, ?_⟩
        · change Tracked base _ q.pending.toList
          rw [hpending]
          exact hafter.frame rfl rfl rfl
        · change q.unconfirmedTransactions = []
          rw [hconfirms.eq]
          exact hconfirms.done rfl
        · change q.messages = []
          rw [hconfirms.eq]
          exact hempty
        · change q.producerFinished = true
          rw [hconfirms.eq]
          exact hfinished

lemma Ordered.new (base : List Message) : Ordered base (Primary.new base) := by
  refine .of_tracked ⟨fun m hm => .inl hm, by simp [Primary.new], by simp [Primary.new],
    by simp [Primary.new], by simp [Primary.new], ?_⟩ (by simp [Primary.new])
  intro before b after earlier later _ htaken
  exact absurd (congrArg List.length htaken) (by simp [Primary.new])

/-- What the scheduler has sent in a run. -/
def sent (t : List (Traces.Entry Primary Event)) : List Message :=
  (t.map Traces.Entry.event).filterMap Event.sent

section Runs
variable {t : List (Traces.Entry Primary Event)} {p : Primary}

lemma Run.taken_append (h : Run (Primary.new base) t p) : p.taken ++ p.messages = sent t := by
  induction h with
  | nil => rfl
  | @snoc t q p event _ hlast ih =>
    rw [(step_taken hlast).1, ih, sent, sent, List.map_append, List.filterMap_append]
    cases hsent : event.sent <;> simp [hsent]

lemma Run.ordered (h : Run (Primary.new base) t p) (hdistinct : Distinct base (sent t)) :
    Ordered base p := by
  have hkept : Distinct base p.taken → Ordered base p := by
    refine h.invariant (I := fun p => Distinct base p.taken → Ordered base p)
      (fun _ => Ordered.new base) ?_
    intro entry _ hstep ih hafter
    obtain ⟨-, more, hmore⟩ := step_taken hstep
    exact (ih (hmore ▸ hafter).of_append).step hafter hstep
  rw [← h.taken_append] at hdistinct
  exact hkept hdistinct.of_append

end Runs

section Positions
variable {taken : List Message} {m m' : Message}

lemma Distinct.eq_of_position (h : Distinct base taken) (hm : m ∈ taken) (hm' : m' ∈ taken)
    (hposition : m'.slotAndIndex = m.slotAndIndex) : m' = m :=
  List.inj_on_of_nodup_map h.nodup hm' hm hposition

lemma Distinct.mem_of_known {stream : List Message} (h : Distinct base taken)
    (horigin : ∀ m ∈ stream, m ∈ base ∨ m ∈ taken) (hm : m ∈ taken) (hknown : Known stream m) :
    m ∈ stream := by
  obtain ⟨m', hm', hposition⟩ := List.mem_map.mp hknown
  rcases horigin m' hm' with hbase | htaken
  · refine absurd ?_ (h.fresh m' hbase)
    rw [Known, hposition]
    exact List.mem_map_of_mem hm
  · exact h.eq_of_position hm htaken hposition ▸ hm'

end Positions

namespace Vectors

def fine : Attempt := ⟨true, true, true, false⟩
def lost : Attempt := ⟨true, false, false, false⟩

def first : Message := Node.Vectors.paid 9 0 1
def second : Message := Node.Vectors.paid 9 1 2
def closing : Block := Node.Vectors.closing

def sends : List Event := [.send first, .send second, .send (.block closing)]

/-- The first of two transactions is lost, which is noticed when their block is due. -/
def lostOnce : List Event :=
  [.receive ⟨[], [lost]⟩, .receive ⟨[], [fine]⟩, .receive ⟨[⟨true, [fine]⟩, ⟨true, []⟩], [fine]⟩]

lemma exists_sends {α : Type*} {f : Primary → α} {v : α} (events : List Event)
    (hevents : events.filterMap Event.sent = [])
    (h : (Traces.play Primary.step (Primary.new []) (sends ++ events)).map f = some v) :
    ∃ t p, Run (Primary.new []) t p ∧ t.map Traces.Entry.event = sends ++ events ∧
      sent t = [first, second, .block closing] ∧ Distinct [] (sent t) ∧ f p = v := by
  obtain ⟨t, p, hrun, hplayed, hv⟩ := Traces.exists_trace h
  have hsent : sent t = [first, second, .block closing] := by
    rw [sent, hplayed, List.filterMap_append, hevents]
    rfl
  refine ⟨t, p, hrun, hplayed, hsent, ?_, hv⟩
  rw [hsent]
  exact ⟨by decide, by simp⟩

end Vectors

/-- No block overtakes what was sent before it, whatever the connection loses and however often
the lock is lost: by the time a block of this run is with the broker, all of that is there, and
stands before it. -/
theorem stored_before_block {base before after earlier later : List Message} {b : Block}
    {t : List (Traces.Entry Primary Event)} {p : Primary} (hrun : Run (Primary.new base) t p)
    (hdistinct : Distinct base (sent t)) (hstream : p.stream = before ++ .block b :: after)
    (hsent : sent t = earlier ++ .block b :: later) : ∀ m ∈ earlier, m ∈ before := by
  have hordered := hrun.ordered hdistinct
  have hall := hrun.taken_append
  have horigin : ∀ m ∈ p.stream, m ∈ base ∨ m ∈ sent t := by
    intro m hm
    rw [← hall]
    exact (hordered.origin m hm).imp_right (List.mem_append_left _)
  -- the block has been received, and at the same place as it was sent
  have htaken : .block b ∈ p.taken := by
    rcases hordered.origin (.block b) (by simp [hstream]) with hbase | htaken
    · refine absurd ?_ (hdistinct.fresh _ hbase)
      rw [hsent]
      exact known_of_mem (by simp)
    · exact htaken
  obtain ⟨earlier', later', htaken⟩ := List.append_of_mem htaken
  have hsame : earlier' = earlier := by
    have hnodup : (sent t).Nodup := hdistinct.nodup.of_map
    rw [htaken, List.append_assoc, List.cons_append] at hall
    rw [← hall, List.nodup_append, List.nodup_cons] at hnodup
    rw [hsent] at hall
    refine ((List.append_cons_inj_of_notMem ?_ hnodup.2.1.1).mp hall).1
    exact fun hin => hnodup.2.2 _ hin _ List.mem_cons_self rfl
  intro m hm
  refine hdistinct.mem_of_known (fun m' hm' => horigin m' (by simp [hstream, hm']))
    (by simp [hsent, hm]) ?_
  exact hordered.fenced before b after earlier' later' hstream htaken m (hsame ▸ hm)

theorem stored_before_block_lostOnce : ∃ t p, Run (Primary.new []) t p ∧
    sent t = [Vectors.first, Vectors.second, .block Vectors.closing] ∧
    p.stream = [Vectors.second, Vectors.first, .block Vectors.closing] ∧
    ∀ m ∈ [Vectors.first, Vectors.second], m ∈ [Vectors.second, Vectors.first] := by
  obtain ⟨t, p, hrun, -, hsent, hdistinct, hstream⟩ := Vectors.exists_sends (f := Primary.stream)
    (v := [Vectors.second, Vectors.first, .block Vectors.closing]) Vectors.lostOnce rfl
    (by decide +kernel)
  have hblock : p.stream =
      [Vectors.second, Vectors.first] ++ .block Vectors.closing :: [] := hstream
  have hlast : sent t = [Vectors.first, Vectors.second] ++ .block Vectors.closing :: [] := hsent
  exact ⟨t, p, hrun, hsent, hstream, stored_before_block hrun hdistinct hblock hlast⟩

/-- Nothing is lost on the way: until the service ends, what was sent is with the broker, waits for
its answer, is in the service's hands or in the channel. A service that ends with its channel
emptied has brought everything to the broker. -/
theorem sent_accounted {base : List Message} {t : List (Traces.Entry Primary Event)} {p : Primary}
    (hrun : Run (Primary.new base) t p) (hdistinct : Distinct base (sent t))
    (hphase : p.phase ≠ .ended) :
    (∀ m ∈ sent t, m ∈ p.stream ∨ (∃ x ∈ p.unconfirmedTransactions, x.message = m) ∨
      p.pending = some m ∨ m ∈ p.messages) ∧
    p.unconfirmedTransactions.length ≤ maxDeferredTransactionAcks ∧
    (p.phase = .drained → ∀ m ∈ sent t, m ∈ p.stream) := by
  have hordered := hrun.ordered hdistinct
  have htracked := hordered.tracked hphase
  have hplaces : ∀ m ∈ sent t, m ∈ p.stream ∨ (∃ x ∈ p.unconfirmedTransactions, x.message = m) ∨
      p.pending = some m ∨ m ∈ p.messages := by
    intro m hm
    rw [← hrun.taken_append] at hm hdistinct
    rcases List.mem_append.mp hm with hm | hm
    · rcases htracked.settled m hm with hknown | hwaiting | hhand
      · exact .inl (hdistinct.of_append.mem_of_known hordered.origin hm hknown)
      · exact .inr (.inl hwaiting)
      · exact .inr (.inr (.inl (by simpa using hhand)))
    · exact .inr (.inr (.inr hm))
  refine ⟨hplaces, htracked.bounded, fun hdrained m hm => ?_⟩
  obtain ⟨hnone, hconfirmed, hempty, -⟩ := hordered.drained hdrained
  simpa [hnone, hconfirmed, hempty] using hplaces m hm

theorem sent_accounted_lostOnce : ∃ t p, Run (Primary.new []) t p ∧
    sent t = [Vectors.first, Vectors.second, .block Vectors.closing] ∧ p.phase = .drained ∧
    ∀ m ∈ [Vectors.first, Vectors.second, .block Vectors.closing], m ∈ p.stream := by
  obtain ⟨t, p, hrun, -, hsent, hdistinct, hphase⟩ := Vectors.exists_sends (f := Primary.phase)
    (v := .drained) (Vectors.lostOnce ++ [.cancel, .finish, .complete []]) rfl (by decide +kernel)
  have haccounted := sent_accounted hrun hdistinct (by simp [hphase])
  rw [hsent] at haccounted
  exact ⟨t, p, hrun, hsent, hphase, haccounted.2.2 hphase⟩

end Primary

end Blitz.Replication
