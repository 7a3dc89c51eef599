import Blitz.ReplicatorPrimary
import Blitz.ReplicatorReplica

/-! From the scheduler of a primary to that of its replica: through the service that publishes, the
broker that stores, and the replica that applies. -/
namespace Blitz.Replication
open LittleEndian HighWater Scheduler

namespace Primary

def Event.attempts : Event → List Attempt
  | .publish script | .receive script | .drain script =>
    script.answers.flatMap Answer.retries ++ script.attempts
  | .complete answers => answers.flatMap Answer.retries
  | _ => []

variable {base : List Message} {p p' : Primary} {message : Message} {confirm : Confirm}
  {a : Attempt} {attempts : List Attempt} {published : Bool} {k : ℕ}

/-- The broker holds the first `k` messages received, in their order, some of them repeatedly. -/
structure Carried (base : List Message) (p : Primary) (k : ℕ) : Prop where
  stream : ∃ s, p.stream = base ++ s ∧ Walk p.taken s k
  deferred : ∀ t ∈ p.unconfirmedTransactions, t.message ∈ p.taken.take k

lemma mem_take_of_le {taken : List Message} {k k' : ℕ} (h : message ∈ taken.take k) (hle : k ≤ k') :
    message ∈ taken.take k' :=
  List.take_subset_take_left taken hle h

namespace Carried

lemma frame (h : Carried base p k) (hstream : p'.stream = p.stream) (htaken : p'.taken = p.taken)
    (hunconfirmed : p'.unconfirmedTransactions = p.unconfirmedTransactions) :
    Carried base p' k := by
  constructor
  · rw [hstream, htaken]
    exact h.stream
  · rw [htaken, hunconfirmed]
    exact h.deferred

lemma store (h : Carried base p k) (hdistinct : Distinct base p.taken) (hreached : a.reached = true)
    (hplace : message ∈ p.taken.take (k + 1)) :
    ∃ k', k ≤ k' ∧ Carried base (p.store a message) k' ∧ message ∈ p.taken.take k' := by
  obtain ⟨s, hstream, hwalk⟩ := h.stream
  unfold Primary.store
  split_ifs with hstored
  · by_cases hold : message ∈ p.taken.take k
    · refine ⟨k, le_rfl, ⟨⟨s ++ [message], ?_, hwalk.again hold⟩, h.deferred⟩, hold⟩
      simp [hstream]
    · have hnext : p.taken[k]? = some message := by
        rw [List.take_add_one, List.mem_append] at hplace
        simpa [hold] using hplace
      refine ⟨k + 1, k.le_succ, ⟨⟨s ++ [message], ?_, hwalk.next hnext⟩, fun t ht => ?_⟩, hplace⟩
      · simp [hstream]
      · exact mem_take_of_le (h.deferred t ht) k.le_succ
  · refine ⟨k, le_rfl, h, ?_⟩
    have hknown : Known p.stream message := by
      simp only [hreached, Bool.true_and, Bool.or_eq_true, not_or, Bool.not_eq_true,
        Bool.not_eq_false'] at hstored
      simpa [isDuplicate, Known] using hstored.2
    rw [hstream] at hknown
    obtain ⟨m, hm, hposition⟩ := List.mem_map.mp hknown
    have hmessage : message ∈ p.taken := List.mem_of_mem_take hplace
    rcases List.mem_append.mp hm with hbase | hs
    · refine absurd ?_ (hdistinct.fresh m hbase)
      rw [Known, hposition]
      exact List.mem_map_of_mem hmessage
    · have hin := hwalk.mem m hs
      exact hdistinct.eq_of_position hmessage (List.mem_of_mem_take hin) hposition ▸ hin

lemma publish (h : Carried base p k) (hdistinct : Distinct base p.taken) (hreached : a.reached = true)
    (hplace : message ∈ p.taken.take (k + 1)) (hpublish : p.publish message confirm a = (published, p')) :
    ∃ k', k ≤ k' ∧ Carried base p' k' ∧ message ∈ p.taken.take k' := by
  obtain ⟨k', hle, hcarried, hin⟩ := h.store hdistinct hreached hplace
  obtain ⟨new, hstore, -⟩ := p.store_eq a message
  have htaken : (p.store a message).taken = p.taken := by rw [hstore]
  refine ⟨k', hle, ?_, hin⟩
  simp only [Primary.publish] at hpublish
  by_cases hconfirm : confirm = .no
  · rw [if_pos hconfirm] at hpublish
    obtain ⟨-, rfl⟩ := Prod.mk.inj hpublish
    refine ⟨hcarried.stream, fun t ht => ?_⟩
    rcases List.mem_append.mp ht with ht | ht
    · exact hcarried.deferred t ht
    · split_ifs at ht
      · rw [List.mem_singleton.mp ht]
        change message ∈ (p.store a message).taken.take k'
        rwa [htaken]
      · cases ht
  · rw [if_neg hconfirm] at hpublish
    obtain ⟨-, rfl⟩ := Prod.mk.inj hpublish
    exact hcarried

lemma publishAll (h : Carried base p k) (hdistinct : Distinct base p.taken)
    (hreached : ∀ a ∈ attempts, a.reached = true) (hplace : message ∈ p.taken.take (k + 1))
    (hpublish : publishAll message confirm attempts p = (published, p')) :
    ∃ k', k ≤ k' ∧ Carried base p' k' ∧ (published = true → message ∈ p.taken.take k') := by
  induction attempts generalizing p k with
  | nil =>
    obtain ⟨rfl, rfl⟩ := Prod.mk.inj hpublish
    exact ⟨k, le_rfl, h, by simp⟩
  | cons a attempts ih =>
    rw [Primary.publishAll] at hpublish
    cases hfirst : p.publish message confirm a with
    | mk done q =>
      obtain ⟨k', hle, hcarried, hin⟩ := h.publish hdistinct (hreached a List.mem_cons_self) hplace hfirst
      obtain ⟨new, deferred, hpublishes⟩ := publish_publishes hfirst
      have htaken : q.taken = p.taken := by rw [hpublishes.eq]
      rw [hfirst] at hpublish
      cases done with
      | true =>
        obtain ⟨rfl, rfl⟩ := Prod.mk.inj hpublish
        exact ⟨k', hle, hcarried, fun _ => hin⟩
      | false =>
        obtain ⟨k'', hle', hafter, hdone⟩ := ih hcarried (htaken ▸ hdistinct)
          (fun b hb => hreached b (List.mem_cons_of_mem _ hb))
          (htaken ▸ mem_take_of_le hin k'.le_succ) hpublish
        exact ⟨k'', hle.trans hle', hafter, htaken ▸ hdone⟩

lemma confirmQueue {queue : List PendingTransaction} {answers : List Answer} {confirmed : Bool}
    (h : Carried base p k) (hdistinct : Distinct base p.taken)
    (hqueue : ∀ t ∈ queue, t.message ∈ p.taken.take k)
    (hreached : ∀ a ∈ answers.flatMap Answer.retries, a.reached = true)
    (hconfirm : confirmQueue queue answers p = (confirmed, p')) :
    ∃ k', k ≤ k' ∧ Carried base p' k' := by
  -- The answers come in, and what has none is published again: nothing new gets to the broker.
  induction queue generalizing answers p k with
  | nil =>
    obtain ⟨-, rfl⟩ := Prod.mk.inj hconfirm
    exact ⟨k, le_rfl, h.stream, by simp⟩
  | cons transaction rest ih =>
    have hrest : ∀ t ∈ rest, t.message ∈ p.taken.take k :=
      fun t ht => hqueue t (List.mem_cons_of_mem _ ht)
    have hhead := hqueue transaction List.mem_cons_self
    have hstop : ∀ {q : Primary} {k' : ℕ}, Carried base q k' → q.taken = p.taken → k ≤ k' →
        Carried base { q with unconfirmedTransactions := ⟨transaction.message, none⟩ :: rest } k' := by
      intro q k' hq htaken hle
      refine ⟨hq.stream, fun t ht => ?_⟩
      change t.message ∈ q.taken.take k'
      rw [htaken]
      rcases List.mem_cons.mp ht with rfl | ht
      · exact mem_take_of_le hhead hle
      · exact mem_take_of_le (hrest t ht) hle
    cases answers with
    | nil =>
      obtain ⟨-, rfl⟩ := Prod.mk.inj hconfirm
      exact ⟨k, le_rfl, hstop h rfl le_rfl⟩
    | cons answer answers =>
      rw [List.flatMap_cons] at hreached
      have hlater : ∀ a ∈ answers.flatMap Answer.retries, a.reached = true :=
        fun a ha => hreached a (List.mem_append_right _ ha)
      rw [Primary.confirmQueue] at hconfirm
      split_ifs at hconfirm with hanswered
      · exact ih h hdistinct hrest hlater hconfirm
      · cases hpublish : p.publishWithRetryUntil transaction.message .yes answer.retries with
        | mk published q =>
          obtain ⟨new, deferred, hpublishes⟩ := publishAll_publishes hpublish
          have htaken : q.taken = p.taken := by rw [hpublishes.eq]
          obtain ⟨k', hle, hcarried, -⟩ := h.publishAll hdistinct
            (fun a ha => hreached a (List.mem_append_left _ (List.mem_of_mem_take ha)))
            (mem_take_of_le hhead k.le_succ) hpublish
          rw [hpublish] at hconfirm
          cases published with
          | false =>
            obtain ⟨-, rfl⟩ := Prod.mk.inj hconfirm
            exact ⟨k', hle, hstop hcarried htaken hle⟩
          | true =>
            obtain ⟨k'', hle', hafter⟩ := ih hcarried (htaken ▸ hdistinct)
              (fun t ht => htaken ▸ mem_take_of_le (hrest t ht) hle) hlater hconfirm
            exact ⟨k'', hle.trans hle', hafter⟩

lemma publishOrderedUntil {script : Script} (h : Carried base p k) (hdistinct : Distinct base p.taken)
    (hreached : ∀ a ∈ script.answers.flatMap Answer.retries ++ script.attempts, a.reached = true)
    (hplace : message ∈ p.taken.take (k + 1))
    (hpublish : p.publishOrderedUntil message script = (published, p')) :
    ∃ k', k ≤ k' ∧ Carried base p' k' ∧ (published = true → message ∈ p.taken.take k') := by
  have hown : ∀ a ∈ script.attempts.take publishRetryLimit, a.reached = true :=
    fun a ha => hreached a (List.mem_append_right _ (List.mem_of_mem_take ha))
  unfold Primary.publishOrderedUntil at hpublish
  split_ifs at hpublish with hfence
  · cases hconfirm : p.confirmTransactions script.answers with
    | mk confirmed q =>
      obtain ⟨k', hle, hcarried⟩ := h.confirmQueue hdistinct h.deferred
        (fun a ha => hreached a (List.mem_append_left _ ha)) hconfirm
      obtain ⟨stream, unconfirmed, hframe⟩ :=
        confirmQueue_frame p.unconfirmedTransactions script.answers p
      have htaken : q.taken = p.taken := by
        rw [← confirmTransactions, hconfirm] at hframe
        simpa using congrArg Primary.taken hframe
      rw [hconfirm] at hpublish
      cases confirmed with
      | false =>
        obtain ⟨rfl, rfl⟩ := Prod.mk.inj hpublish
        exact ⟨k', hle, hcarried, by simp⟩
      | true =>
        obtain ⟨k'', hle', hafter, hdone⟩ := hcarried.publishAll (htaken ▸ hdistinct) hown
          (htaken ▸ mem_take_of_le hplace (Nat.succ_le_succ hle)) hpublish
        exact ⟨k'', hle.trans hle', hafter, htaken ▸ hdone⟩
  · exact h.publishAll hdistinct hown hplace hpublish

lemma receive {rest : List Message} (h : Carried base p k) :
    Carried base { p with messages := rest, taken := p.taken ++ [message] } k := by
  obtain ⟨s, hstream, hwalk⟩ := h.stream
  refine ⟨⟨s, hstream, hwalk.extend [message]⟩, fun t ht => ?_⟩
  change t.message ∈ (p.taken ++ [message]).take k
  rw [List.take_append_of_le_length hwalk.le_length]
  exact h.deferred t ht

end Carried

/-- Until it ends, the service is behind by what it has in its hands at most. -/
def InStep (base : List Message) (p : Primary) : Prop :=
  ∃ k, Carried base p k ∧ (p.phase ≠ .ended → p.taken.length ≤ k + p.pending.toList.length)

lemma length_le_of_mem_take {earlier : List Message} (hnodup : (earlier ++ [message]).Nodup)
    (h : message ∈ (earlier ++ [message]).take k) : (earlier ++ [message]).length ≤ k := by
  by_contra hlt
  have hle : k ≤ earlier.length := by
    simp only [List.length_append, List.length_singleton] at hlt
    omega
  rw [List.take_append_of_le_length hle] at h
  exact (List.nodup_append.mp hnodup).2.2 _ (List.mem_of_mem_take h) _ (List.mem_singleton_self _) rfl

namespace InStep
variable {script : Script} {earlier : List Message}

lemma attempt (h : Carried base p k) (hdistinct : Distinct base p.taken)
    (hlast : p.taken = earlier ++ [message]) (hlength : p.taken.length ≤ k + 1)
    (hreached : ∀ a ∈ script.answers.flatMap Answer.retries ++ script.attempts, a.reached = true) :
    InStep base (p.attempt message script) := by
  have hplace : message ∈ p.taken.take (k + 1) := by
    rw [List.take_of_length_le hlength, hlast]
    simp
  cases hpublish : p.publishOrderedUntil message script with
  | mk published q =>
    obtain ⟨k', hle, hcarried, hdone⟩ := h.publishOrderedUntil hdistinct hreached hplace hpublish
    have htaken := (p.taken_attempt message script).1
    refine ⟨k', ?_, fun _ => ?_⟩
    · simp only [Primary.attempt, hpublish]
      exact hcarried.frame rfl rfl rfl
    · rw [htaken]
      simp only [Primary.attempt, hpublish]
      cases published with
      | false => simpa using hlength.trans (Nat.succ_le_succ hle)
      | true =>
        have hin := hdone rfl
        rw [hlast] at hin ⊢
        exact length_le_of_mem_take (hlast ▸ hdistinct.nodup.of_map) hin

lemma drainPublish (h : Carried base p k) (hdistinct : Distinct base p.taken)
    (hlast : p.taken = earlier ++ [message]) (hlength : p.taken.length ≤ k + 1)
    (hreached : ∀ a ∈ script.answers.flatMap Answer.retries ++ script.attempts, a.reached = true) :
    InStep base (p.drainPublish message script) := by
  have hplace : message ∈ p.taken.take (k + 1) := by
    rw [List.take_of_length_le hlength, hlast]
    simp
  cases hpublish : p.publishOrderedUntil message script with
  | mk published q =>
    obtain ⟨k', hle, hcarried, hdone⟩ := h.publishOrderedUntil hdistinct hreached hplace hpublish
    have htaken := (p.taken_drainPublish message script).1
    refine ⟨k', ?_, fun hphase => ?_⟩
    · simp only [Primary.drainPublish, hpublish]
      exact hcarried.frame rfl rfl rfl
    · rw [htaken]
      simp only [Primary.drainPublish, hpublish] at hphase ⊢
      cases published with
      | false => exact absurd rfl hphase
      | true =>
        have hin := hdone rfl
        rw [hlast] at hin ⊢
        exact (length_le_of_mem_take (hlast ▸ hdistinct.nodup.of_map) hin).trans (Nat.le_add_right _ _)

lemma step {event : Event} (h : InStep base p) (hordered : Ordered base p)
    (hdistinct : Distinct base p'.taken) (hreached : ∀ a ∈ event.attempts, a.reached = true)
    (hstep : p.step event = some p') : InStep base p' := by
  obtain ⟨k, hcarried, hlength⟩ := h
  have hbefore : Distinct base p.taken := by
    obtain ⟨-, more, hmore⟩ := step_taken hstep
    exact (hmore ▸ hdistinct).of_append
  cases step_steps hstep with
  | sent message hopen => exact ⟨k, hcarried.frame rfl rfl rfl, hlength⟩
  | finished => exact ⟨k, hcarried.frame rfl rfl rfl, hlength⟩
  | @published message script hpending hrunning =>
    have hopen : p.phase ≠ .ended := by simp [hrunning]
    obtain ⟨earlier, hlast⟩ := (hordered.tracked hopen).last message (by simp [hpending])
    have hbehind := hlength hopen
    rw [hpending] at hbehind
    exact attempt hcarried hbefore hlast hbehind hreached
  | @received message rest script hmessages hrunning hnone =>
    have hbehind := hlength (by simp [hrunning])
    rw [hnone] at hbehind
    rw [(taken_attempt _ message script).1] at hdistinct
    exact attempt hcarried.receive hdistinct rfl (by simpa using hbehind) hreached
  | @kept message rest script hmessages hrunning hnone =>
    have hbehind := hlength (by simp [hrunning])
    rw [hnone] at hbehind
    have hreceived : Carried base { p with messages := rest, taken := p.taken ++ [message] } k :=
      hcarried.receive
    exact ⟨k, hreceived.frame rfl rfl rfl, fun _ => by simpa using hbehind⟩
  | moved hevent hp' hphase =>
    refine ⟨k, hcarried.frame (by rw [hp']) (by rw [hp']) (by rw [hp']), fun hopen => ?_⟩
    have hwas : p.phase ≠ .ended := by
      rcases hphase with hsame | hend | ⟨hrunning, -⟩
      · exact hsame ▸ hopen
      · exact absurd hend hopen
      · simp [hrunning]
    rw [hp']
    exact hlength hwas
  | @flushed message script hpending hdraining =>
    have hopen : p.phase ≠ .ended := by simp [hdraining]
    obtain ⟨earlier, hlast⟩ := (hordered.tracked hopen).last message (by simp [hpending])
    have hbehind := hlength hopen
    rw [hpending] at hbehind
    have hflushed : Carried base { p with pending := none } k := hcarried.frame rfl rfl rfl
    exact drainPublish hflushed hbefore hlast hbehind hreached
  | @drained message rest script hmessages hdraining hnone =>
    have hbehind := hlength (by simp [hdraining])
    rw [hnone] at hbehind
    rw [(taken_drainPublish _ message script).1] at hdistinct
    exact drainPublish hcarried.receive hdistinct rfl (by simpa using hbehind) hreached
  | @completed answers hdraining hnone hempty hfinished =>
    have hbehind := hlength (by simp [hdraining])
    cases hconfirm : p.confirmTransactions answers with
    | mk confirmed q =>
      obtain ⟨k', hle, hafter⟩ :=
        hcarried.confirmQueue hbefore hcarried.deferred hreached hconfirm
      obtain ⟨stream, unconfirmed, hframe⟩ :=
        confirmQueue_frame p.unconfirmedTransactions answers p
      rw [← confirmTransactions, hconfirm] at hframe
      have htaken : q.taken = p.taken := by simpa using congrArg Primary.taken hframe
      have hpending : q.pending = p.pending := by simpa using congrArg Primary.pending hframe
      refine ⟨k', hafter.frame rfl rfl rfl, fun _ => ?_⟩
      change q.taken.length ≤ k' + q.pending.toList.length
      rw [htaken, hpending]
      omega

end InStep

lemma Run.inStep {t : List (Traces.Entry Primary Event)} (h : Run (Primary.new base) t p)
    (hdistinct : Distinct base (sent t))
    (hreached : ∀ entry ∈ t, ∀ a ∈ entry.event.attempts, a.reached = true) : InStep base p := by
  have hkept : Distinct base p.taken → Ordered base p ∧ InStep base p := by
    refine h.invariant (I := fun p => Distinct base p.taken → Ordered base p ∧ InStep base p)
      (fun _ => ⟨Ordered.new base, 0, ⟨⟨[], by simp [Primary.new], .nil⟩, by simp [Primary.new]⟩,
        by simp [Primary.new]⟩) ?_
    intro entry hentry hstep ih hafter
    obtain ⟨-, more, hmore⟩ := step_taken hstep
    obtain ⟨hordered, hinStep⟩ := ih (hmore ▸ hafter).of_append
    exact ⟨hordered.step hafter hstep, hinStep.step hordered hafter (hreached entry hentry) hstep⟩
  rw [← h.taken_append] at hdistinct
  exact (hkept hdistinct.of_append).2

lemma Run.walk {t : List (Traces.Entry Primary Event)} (h : Run (Primary.new base) t p)
    (hdistinct : Distinct base (sent t))
    (hreached : ∀ entry ∈ t, ∀ a ∈ entry.event.attempts, a.reached = true) :
    ∃ s k, p.stream = base ++ s ∧ Walk (sent t) s k ∧
      (p.phase ≠ .ended → p.taken.length ≤ k + p.pending.toList.length) := by
  obtain ⟨k, hcarried, hlength⟩ := h.inStep hdistinct hreached
  obtain ⟨s, hstream, hwalk⟩ := hcarried.stream
  have hwalk' := hwalk.extend p.messages
  rw [h.taken_append] at hwalk'
  exact ⟨s, k, hstream, hwalk', hlength⟩

namespace Vectors

/-- Stored although its id was there before: the broker has forgotten it. -/
def anew : Attempt := ⟨true, true, true, true⟩

/-- The answer to the first transaction is lost, and it is published once more. -/
def answerLost : List Event :=
  [.receive ⟨[], [fine]⟩, .receive ⟨[], [fine]⟩,
    .receive ⟨[⟨false, [anew]⟩, ⟨true, []⟩], [fine]⟩]

lemma exists_answerLost {α : Type*} {f : Primary → α} {v : α} (events : List Event)
    (hevents : events.filterMap Event.sent = []) (hquiet : events.flatMap Event.attempts = [])
    (h : (Traces.play Primary.step (Primary.new []) (sends ++ (answerLost ++ events))).map f =
      some v) :
    ∃ t p, Run (Primary.new []) t p ∧ sent t = [first, second, .block closing] ∧
      Distinct [] (sent t) ∧ (∀ entry ∈ t, ∀ a ∈ entry.event.attempts, a.reached = true) ∧
      f p = v := by
  obtain ⟨t, p, hrun, hplayed, hsent, hdistinct, hv⟩ :=
    exists_sends (answerLost ++ events) (by rw [List.filterMap_append, hevents]; rfl) h
  refine ⟨t, p, hrun, hsent, hdistinct, ?_, hv⟩
  refine Traces.forall_of_events (P := fun event => ∀ a ∈ event.attempts, a.reached = true)
    hplayed fun event hevent a ha => ?_
  have hall : a ∈ (sends ++ (answerLost ++ events)).flatMap Event.attempts :=
    List.mem_flatMap.mpr ⟨event, hevent, ha⟩
  rw [List.flatMap_append, List.flatMap_append, hquiet, List.append_nil] at hall
  have hmade : ∀ a ∈ sends.flatMap Event.attempts ++ answerLost.flatMap Event.attempts,
      a.reached = true := by decide
  exact hmade a hall

end Vectors

/-- As long as every attempt gets to the broker, what the broker holds of a run is what was sent,
in its order, apart from repetitions: whichever answers are lost, and whatever the broker has
forgotten. If the service ends with its channel emptied, all of it is there. -/
theorem stored_in_order {t : List (Traces.Entry Primary Event)} (hrun : Run (Primary.new base) t p)
    (hdistinct : Distinct base (sent t))
    (hreached : ∀ entry ∈ t, ∀ a ∈ entry.event.attempts, a.reached = true) :
    ∃ s k, p.stream = base ++ s ∧ Walk (sent t) s k ∧
      (p.phase = .drained → k = (sent t).length) := by
  obtain ⟨s, k, hstream, hwalk, hlength⟩ := hrun.walk hdistinct hreached
  refine ⟨s, k, hstream, hwalk, fun hdrained => ?_⟩
  obtain ⟨hnone, -, hempty, -⟩ := (hrun.ordered hdistinct).drained hdrained
  have hall := hrun.taken_append
  have hbehind := hlength (by simp [hdrained])
  rw [hempty, List.append_nil] at hall
  rw [hnone, hall] at hbehind
  exact le_antisymm hwalk.le_length hbehind

theorem stored_in_order_answerLost : ∃ t p, Run (Primary.new []) t p ∧ p.phase = .drained ∧
    p.stream = [Vectors.first, Vectors.second, Vectors.first, .block Vectors.closing] ∧
    ∃ s k, p.stream = [] ++ s ∧ Walk (sent t) s k ∧
      (p.phase = .drained → k = (sent t).length) := by
  obtain ⟨t, p, hrun, -, hdistinct, hreached, hfacts⟩ := Vectors.exists_answerLost
    (f := fun p => (p.phase, p.stream))
    (v := (.drained, [Vectors.first, Vectors.second, Vectors.first, .block Vectors.closing]))
    [.cancel, .finish, .complete []] rfl rfl (by decide +kernel)
  obtain ⟨hphase, hstream⟩ := Prod.mk.inj hfacts
  exact ⟨t, p, hrun, hphase, hstream, stored_in_order hrun hdistinct hreached⟩

end Primary

/-- What lies between the scheduler of a primary, which sends `messages`, and that of a replica: a
service whose attempts get to the broker, and a replica new to all of it, which applies what it is
delivered, from the front and with any repetitions. -/
structure Linked (intake : Intake) (messages base : List Message)
    (u : List (Traces.Entry Primary Primary.Event)) (p : Primary) (r : Replica)
    (deliveries : List Delivery) : Prop where
  service : Primary.Run (Primary.new base) u p
  sent : Primary.sent u <+: messages
  fresh : ∀ m ∈ base, ¬Primary.Known messages m
  reached : ∀ entry ∈ u, ∀ a ∈ entry.event.attempts, a.reached = true
  delivered : ∃ j, Walk (p.stream.drop base.length) (deliveries.map Delivery.message) j
  applies : ∀ delivery ∈ deliveries, Replica.applies intake delivery = true
  above : ∀ m ∈ messages, Earlier r.position m.slotAndIndex
  untold : r.commands = []

section System
variable {intake : Intake} {messages base : List Message} {p : Primary} {r : Replica}
  {u : List (Traces.Entry Primary Primary.Event)} {deliveries : List Delivery}

lemma Rising.nodup (h : Rising messages) : (messages.map Message.slotAndIndex).Nodup := by
  refine List.pairwise_map.mpr (h.imp fun {a b} hearlier heq => ?_)
  rw [heq] at hearlier
  exact Earlier.irrefl _ hearlier

lemma Linked.commands (h : Linked intake messages base u p r deliveries) (hrising : Rising messages) :
    (r.handleAll intake deliveries).commands <+: messages.filterMap (Message.command intake) := by
  obtain ⟨rest, hrest⟩ := h.sent
  have hdistinct : Primary.Distinct base (Primary.sent u ++ rest) := by
    rw [hrest]
    exact ⟨hrising.nodup, h.fresh⟩
  obtain ⟨s, k, hstream, hwalk, -⟩ := h.service.walk hdistinct.of_append h.reached
  obtain ⟨j, hdelivered⟩ := h.delivered
  rw [hstream, List.drop_left] at hdelivered
  have hsource := hwalk.extend rest
  rw [hrest] at hsource
  obtain ⟨i, hgiven⟩ := hsource.comp hrising.nodup.of_map hdelivered
  rw [Replica.handleAll_commands r h.applies, takes_walk hrising h.above hgiven, h.untold,
    List.nil_append]
  exact (List.take_prefix i messages).filterMap _

/-- A transaction that first gets to the broker behind a later one is applied by no replica, however
often it is stored and delivered. -/
theorem overtaken_never_applied {before after : List Message} {m m' : Message} {k : ℕ}
    (hstream : p.stream = before ++ m' :: after) (hlate : m ∉ before)
    (hearlier : Earlier m.slotAndIndex m'.slotAndIndex)
    (hwalk : Walk p.stream (deliveries.map Delivery.message) k)
    (happlies : ∀ delivery ∈ deliveries, Replica.applies intake delivery = true) :
    ∃ new, (r.handleAll intake deliveries).applied = r.applied ++ new ∧ m ∉ new := by
  rw [hstream] at hwalk
  refine ⟨_, Replica.handleAll_applied r deliveries, ?_⟩
  rw [List.filter_eq_self.mpr happlies]
  exact not_mem_takes_of_overtaken hwalk hlate hearlier

theorem overtaken_never_applied_lostOnce : ∃ t p, Primary.Run (Primary.new []) t p ∧
    Primary.sent t =
      [Primary.Vectors.first, Primary.Vectors.second, .block Primary.Vectors.closing] ∧
    p.stream =
      [Primary.Vectors.second, Primary.Vectors.first, .block Primary.Vectors.closing] ∧
    ∃ new, (Replica.Vectors.idle.handleAll Node.Vectors.solanaIntake (Replica.Vectors.deliver
        [Primary.Vectors.second, Primary.Vectors.first, .block Primary.Vectors.closing])).applied =
      [] ++ new ∧ Primary.Vectors.first ∉ new := by
  obtain ⟨t, p, hrun, -, hsent, -, hstream⟩ := Primary.Vectors.exists_sends (f := Primary.stream)
    (v := [Primary.Vectors.second, Primary.Vectors.first, .block Primary.Vectors.closing])
    Primary.Vectors.lostOnce rfl (by decide +kernel)
  have hfirst : p.stream =
      [] ++ Primary.Vectors.second :: [Primary.Vectors.first, .block Primary.Vectors.closing] :=
    hstream
  have hwalk : Walk p.stream ((Replica.Vectors.deliver [Primary.Vectors.second,
      Primary.Vectors.first, .block Primary.Vectors.closing]).map Delivery.message) 3 := by
    rw [hstream, Replica.Vectors.map_deliver]
    exact ((Walk.nil.next rfl).next rfl).next rfl
  refine ⟨t, p, hrun, hsent, hstream, overtaken_never_applied hfirst (by simp) (by decide) hwalk ?_⟩
  apply Replica.Vectors.applies_deliver
  simp only [List.mem_cons, List.not_mem_nil, or_false]
  rintro m (rfl | rfl | rfl)
  · exact .inr ⟨_, _, _, rfl⟩
  · exact .inr ⟨_, _, _, rfl⟩
  · exact .inl ⟨_, rfl⟩

end System

end Blitz.Replication
