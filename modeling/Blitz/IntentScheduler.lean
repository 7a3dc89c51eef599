import Blitz.Traces

/-! The committor's scheduler of intents: whoever commits an account waits for all that came before
it on this account. -/
namespace Blitz.Committor

/-- The accounts of a bundle are different; this is checked when it is made. -/
structure ScheduledIntentBundle (K : Type*) where
  id : UInt64
  pubkeys : List K
  distinct : pubkeys.Nodup
  deriving DecidableEq

structure IntentMeta (K : Type*) where
  numKeys : ℕ
  intent : ScheduledIntentBundle K

inductive IntentSchedulerError
  | nonScheduledMessage | corruptedIntent | completingBlockedIntent
  deriving DecidableEq

/-- The map of queues is given by its keys and the queue of each of them. -/
structure IntentScheduler (K : Type*) where
  keys : Finset K
  blockedKeys : K → List UInt64
  blockedIntents : UInt64 → Option (IntentMeta K)

namespace IntentScheduler
variable {K : Type*} [DecidableEq K] (s : IntentScheduler K)

def new : IntentScheduler K := ⟨∅, fun _ => [], fun _ => none⟩

/-- The accounts on which an intent comes first. -/
def front (id : UInt64) : Finset K := s.keys.filter fun k => (s.blockedKeys k).head? = some id

def isDuplicate (id : UInt64) : Bool := (s.blockedIntents id).isSome || decide (s.front id).Nonempty

def pushBack (id : UInt64) (k : K) : IntentScheduler K :=
  { s with
    keys := insert k s.keys
    blockedKeys := Function.update s.blockedKeys k (s.blockedKeys k ++ [id]) }

def popFront (k : K) : IntentScheduler K :=
  { s with
    keys := if (s.blockedKeys k).tail = [] then s.keys.erase k else s.keys
    blockedKeys := Function.update s.blockedKeys k (s.blockedKeys k).tail }

/-- An intent that is scheduled already is dropped. -/
def schedule (intent : ScheduledIntentBundle K) :
    Option (ScheduledIntentBundle K) × IntentScheduler K :=
  if s.isDuplicate intent.id then (none, s)
  else if intent.pubkeys = [] then (some intent, s)
  else
    let isConflicting := decide (∃ k ∈ intent.pubkeys, k ∈ s.keys)
    let s := intent.pubkeys.foldl (pushBack · intent.id) s
    if isConflicting then
      (none, { s with
        blockedIntents :=
          Function.update s.blockedIntents intent.id (some ⟨intent.pubkeys.length, intent⟩) })
    else (some intent, s)

def complete (intent : ScheduledIntentBundle K) :
    Except IntentSchedulerError (IntentScheduler K) :=
  if intent.pubkeys = [] then .ok s
  else if (s.blockedIntents intent.id).isSome then .error .completingBlockedIntent
  else if ∀ k ∈ intent.pubkeys, k ∈ s.front intent.id then
    if (s.front intent.id).card ≠ intent.pubkeys.length then .error .corruptedIntent
    else .ok (intent.pubkeys.foldl popFront s)
  else if ∃ k ∈ intent.pubkeys, k ∈ s.front intent.id then .error .corruptedIntent
  else .error .nonScheduledMessage

/-- The ids that come first on some account, each once, in the order of a hash map. -/
def Candidates (order : List UInt64) : Prop :=
  order.Nodup ∧ (∀ id ∈ order, (s.front id).Nonempty) ∧
    ∀ k ∈ s.keys, ∀ id ∈ (s.blockedKeys k).head?, id ∈ order

instance (order : List UInt64) : Decidable (s.Candidates order) :=
  inferInstanceAs (Decidable (_ ∧ _ ∧ _))

/-- The candidates are gone through until one has nobody before it on any account. -/
def popNextScheduledIntent (order : List UInt64) :
    Option (ScheduledIntentBundle K) × IntentScheduler K :=
  match order with
  | [] => (none, s)
  | id :: order =>
    match s.blockedIntents id with
    | none => popNextScheduledIntent order
    | some found =>
      if found.numKeys = (s.front id).card then
        (some found.intent, { s with blockedIntents := Function.update s.blockedIntents id none })
      else popNextScheduledIntent order

end IntentScheduler

/-- The engine around it. What has arrived and what has been started it does not keep; the
statements speak of it. -/
structure IntentExecutionEngine (K : Type*) where
  inner : IntentScheduler K
  /-- What is being executed. -/
  executing : List (ScheduledIntentBundle K)
  /-- What is being executed and commits no account. -/
  actions : List (ScheduledIntentBundle K)
  /-- The executors that have ended and have not been looked at. -/
  ended : ℕ
  arrived : List (ScheduledIntentBundle K)
  started : List (ScheduledIntentBundle K)

namespace IntentExecutionEngine
variable {K : Type*} [DecidableEq K] (e : IntentExecutionEngine K)

def new : IntentExecutionEngine K := ⟨.new, [], [], 0, [], []⟩

/-- The number of `running_executors`. -/
def running : ℕ := e.executing.length + e.actions.length + e.ended

/-- How many steps are left without further arrivals: one that waits is popped, finishes, and its
executor is looked at. -/
def work : ℕ :=
  3 * (e.arrived.length - e.started.length) + 2 * (e.executing.length + e.actions.length) + e.ended

/-- What the scheduler lets go is executed. -/
def start (inner : IntentScheduler K) : Option (ScheduledIntentBundle K) → IntentExecutionEngine K
  | none => { e with inner := inner }
  | some intent => { e with
      inner := inner
      executing := e.executing ++ if intent.pubkeys = [] then [] else [intent]
      actions := e.actions ++ if intent.pubkeys = [] then [intent] else []
      started := e.started ++ [intent] }

inductive Event (K : Type*)
  | receive (intent : ScheduledIntentBundle K)
  | pop (order : List UInt64)
  | finish (intent : ScheduledIntentBundle K)

/-- The end of an execution that the scheduler refuses to complete would stop the engine. -/
def step : Event K → Option (IntentExecutionEngine K)
  | .receive intent =>
    let (next, inner) := e.inner.schedule intent
    some ({ e with arrived := e.arrived ++ if e.inner.isDuplicate intent.id then [] else [intent]
      }.start inner next)
  | .pop order =>
    if 0 < e.ended ∧ e.inner.Candidates order then
      let (next, inner) := e.inner.popNextScheduledIntent order
      some ({ e with ended := e.ended - 1 }.start inner next)
    else none
  | .finish intent =>
    if intent ∈ e.executing ∨ intent ∈ e.actions then
      match e.inner.complete intent with
      | .ok inner => some { e with
          inner := inner
          executing := e.executing.erase intent
          actions := e.actions.erase intent
          ended := e.ended + 1 }
      | .error _ => none
    else none

abbrev Run (e : IntentExecutionEngine K)
    (t : List (Traces.Entry (IntentExecutionEngine K) (Event K))) (e' : IntentExecutionEngine K) :
    Prop :=
  Traces.Trace (fun event e e' => e.step event = some e') e t e'

end IntentExecutionEngine

namespace IntentScheduler
variable {K : Type*} [DecidableEq K] {s : IntentScheduler K} {id : UInt64} {keys : List K} {k : K}

omit [DecidableEq K] in
lemma mem_front : k ∈ s.front id ↔ k ∈ s.keys ∧ (s.blockedKeys k).head? = some id := by
  simp [front]

lemma foldl_pushBack (hkeys : keys.Nodup) :
    (∀ k, (keys.foldl (pushBack · id) s).blockedKeys k =
      s.blockedKeys k ++ if k ∈ keys then [id] else []) ∧
    (keys.foldl (pushBack · id) s).keys = s.keys ∪ keys.toFinset ∧
    (keys.foldl (pushBack · id) s).blockedIntents = s.blockedIntents := by
  induction keys generalizing s with
  | nil => simp
  | cons j keys ih =>
    obtain ⟨hj, hkeys⟩ := List.nodup_cons.mp hkeys
    obtain ⟨hqueues, hentries, hblocked⟩ := @ih (s.pushBack id j) hkeys
    refine ⟨fun k => ?_, ?_, hblocked⟩
    · rw [List.foldl_cons, hqueues]
      by_cases hk : k = j
      · subst hk
        simp [pushBack, hj]
      · simp [pushBack, hk]
    · rw [List.foldl_cons, hentries]
      ext k
      simp only [pushBack, List.toFinset_cons, Finset.mem_union, Finset.mem_insert,
        List.mem_toFinset]
      tauto

lemma foldl_popFront (hkeys : keys.Nodup) (hin : ∀ k ∈ keys, k ∈ s.keys) :
    (∀ k, (keys.foldl popFront s).blockedKeys k =
      if k ∈ keys then (s.blockedKeys k).tail else s.blockedKeys k) ∧
    (∀ k, k ∈ (keys.foldl popFront s).keys ↔
      k ∈ s.keys ∧ (k ∈ keys → (s.blockedKeys k).tail ≠ [])) ∧
    (keys.foldl popFront s).blockedIntents = s.blockedIntents := by
  induction keys generalizing s with
  | nil => simp
  | cons j keys ih =>
    obtain ⟨hj, hkeys⟩ := List.nodup_cons.mp hkeys
    have hrest : ∀ k ∈ keys, k ∈ (s.popFront j).keys := by
      intro k hk
      have hne : k ≠ j := fun heq => hj (heq ▸ hk)
      have hold := hin k (List.mem_cons_of_mem _ hk)
      simp only [popFront]
      split_ifs
      · exact Finset.mem_erase.mpr ⟨hne, hold⟩
      · exact hold
    obtain ⟨hqueues, hentries, hblocked⟩ := ih hkeys hrest
    refine ⟨fun k => ?_, fun k => ?_, hblocked⟩
    · rw [List.foldl_cons, hqueues]
      by_cases hk : k = j
      · subst hk
        simp [popFront, hj]
      · simp [popFront, hk]
    · rw [List.foldl_cons, hentries]
      by_cases hk : k = j
      · subst hk
        have hold := hin k List.mem_cons_self
        simp only [popFront, hj, List.mem_cons]
        split_ifs with htail <;> simp [htail, hold]
      · simp only [popFront, Function.update_of_ne hk, List.mem_cons, hk, false_or]
        split_ifs <;> simp [hk]

variable (s) in
omit [DecidableEq K] in
lemma exists_candidates : ∃ order, s.Candidates order := by
  refine ⟨(s.keys.toList.filterMap fun k => (s.blockedKeys k).head?).dedup, List.nodup_dedup _, ?_,
    ?_⟩
  · intro id hid
    obtain ⟨k, hk, hhead⟩ := List.mem_filterMap.mp (List.mem_dedup.mp hid)
    exact ⟨k, mem_front.mpr ⟨Finset.mem_toList.mp hk, hhead⟩⟩
  · intro k hk id hid
    exact List.mem_dedup.mpr (List.mem_filterMap.mpr ⟨k, Finset.mem_toList.mpr hk, hid⟩)

omit [DecidableEq K] in
lemma popNextScheduledIntent_none {s' : IntentScheduler K} {order : List UInt64}
    (h : s.popNextScheduledIntent order = (none, s')) : s' = s := by
  induction order with
  | nil => exact (Prod.mk.inj h).2.symm
  | cons id order ih =>
    rw [popNextScheduledIntent] at h
    split at h
    · exact ih h
    · split_ifs at h
      · exact absurd (Prod.mk.inj h).1 (by simp)
      · exact ih h

omit [DecidableEq K] in
lemma isSome_popNextScheduledIntent {order : List UInt64} {found : IntentMeta K}
    (hid : id ∈ order) (hblocked : s.blockedIntents id = some found)
    (hready : found.numKeys = (s.front id).card) : (s.popNextScheduledIntent order).1.isSome := by
  induction order with
  | nil => simp at hid
  | cons other order ih =>
    rw [popNextScheduledIntent]
    by_cases heq : id = other
    · subst heq
      simp [hblocked, hready]
    · have hrest := ih ((List.mem_cons.mp hid).resolve_left heq)
      split
      · exact hrest
      · split_ifs
        · rfl
        · exact hrest

end IntentScheduler

namespace IntentExecutionEngine
variable {K : Type*} [DecidableEq K] {e e' : IntentExecutionEngine K}
  {live : List (ScheduledIntentBundle K)} {i j : ScheduledIntentBundle K} {k : K}
  {order : List UInt64}

/-- Who is waiting or executing, by arrival; on an account they stand in this order, and whoever is
executing stands first on all of its accounts. -/
structure Queued (e : IntentExecutionEngine K) (live : List (ScheduledIntentBundle K)) : Prop where
  queues : ∀ k, e.inner.blockedKeys k = (live.filter (k ∈ ·.pubkeys)).map ScheduledIntentBundle.id
  keys : ∀ k, k ∈ e.inner.keys ↔ ∃ i ∈ live, k ∈ i.pubkeys
  ids : (live.map ScheduledIntentBundle.id).Nodup
  keyed : ∀ i ∈ live, i.pubkeys ≠ []
  blocked : ∀ id found, e.inner.blockedIntents id = some found ↔
    ∃ i ∈ live, i ∉ e.executing ∧ i.id = id ∧ found = ⟨i.pubkeys.length, i⟩
  executing : e.executing.Nodup ∧ ∀ i ∈ e.executing, i ∈ live
  first : ∀ i ∈ e.executing, ∀ k ∈ i.pubkeys, (e.inner.blockedKeys k).head? = some i.id
  acts : ∀ i ∈ e.actions, i.pubkeys = []
  order : ∀ k, e.arrived.filter (k ∈ ·.pubkeys) = e.started.filter (k ∈ ·.pubkeys) ++
    live.filter (fun i => k ∈ i.pubkeys ∧ i ∉ e.executing)
  accounted : e.arrived.Perm (e.started ++ live.filter (· ∉ e.executing))

namespace Queued

lemma new : Queued (IntentExecutionEngine.new : IntentExecutionEngine K) [] := by
  constructor <;> simp [IntentExecutionEngine.new, IntentScheduler.new]

lemma eq_of_id (h : Queued e live) (hi : i ∈ live) (hj : j ∈ live) (hid : i.id = j.id) : i = j :=
  List.inj_on_of_nodup_map h.ids hi hj hid

lemma head_iff (h : Queued e live) (hi : i ∈ live) :
    (e.inner.blockedKeys k).head? = some i.id ↔
      ∃ rest, live.filter (k ∈ ·.pubkeys) = i :: rest := by
  rw [h.queues]
  cases hfilter : live.filter (k ∈ ·.pubkeys) with
  | nil => simp
  | cons j rest =>
    have hj : j ∈ live := List.mem_of_mem_filter (hfilter ▸ List.mem_cons_self)
    simp only [List.map_cons, List.head?_cons, Option.some.injEq, List.cons.injEq]
    constructor
    · intro hid
      exact ⟨rest, h.eq_of_id hj hi hid, rfl⟩
    · rintro ⟨_, rfl, -⟩
      rfl

lemma mem_pubkeys_of_head {rest : List (ScheduledIntentBundle K)}
    (h : live.filter (k ∈ ·.pubkeys) = i :: rest) : k ∈ i.pubkeys := by
  have hi : i ∈ live.filter (k ∈ ·.pubkeys) := h ▸ List.mem_cons_self
  simpa using (List.mem_filter.mp hi).2

lemma front_subset (h : Queued e live) (hi : i ∈ live) :
    e.inner.front i.id ⊆ i.pubkeys.toFinset := by
  intro k hk
  obtain ⟨rest, hrest⟩ := (h.head_iff hi).mp (IntentScheduler.mem_front.mp hk).2
  exact List.mem_toFinset.mpr (mem_pubkeys_of_head hrest)

lemma card_front_iff (h : Queued e live) (hi : i ∈ live) :
    i.pubkeys.length = (e.inner.front i.id).card ↔
      ∀ k ∈ i.pubkeys, (e.inner.blockedKeys k).head? = some i.id := by
  have hcard : i.pubkeys.toFinset.card = i.pubkeys.length := List.toFinset_card_of_nodup i.distinct
  constructor
  · intro hlength k hk
    have heq := Finset.eq_of_subset_of_card_le (h.front_subset hi) (by omega)
    have hfront : k ∈ e.inner.front i.id := heq ▸ List.mem_toFinset.mpr hk
    exact (IntentScheduler.mem_front.mp hfront).2
  · intro hall
    have heq : e.inner.front i.id = i.pubkeys.toFinset := by
      refine (h.front_subset hi).antisymm fun k hk => ?_
      rw [List.mem_toFinset] at hk
      exact IntentScheduler.mem_front.mpr ⟨(h.keys k).mpr ⟨i, hi, hk⟩, hall k hk⟩
    rw [heq, hcard]

lemma nodup (h : Queued e live) : live.Nodup := h.ids.of_map

lemma not_mem_rest (h : Queued e live) {rest : List (ScheduledIntentBundle K)}
    (hrest : live.filter (k ∈ ·.pubkeys) = i :: rest) : i ∉ rest := by
  have hnodup := h.nodup.filter (fun i => decide (k ∈ i.pubkeys))
  rw [hrest] at hnodup
  exact (List.nodup_cons.mp hnodup).1

lemma ne_nil_iff :
    (live.filter (k ∈ ·.pubkeys)).map ScheduledIntentBundle.id ≠ [] ↔
      ∃ j ∈ live, k ∈ j.pubkeys := by
  simp [List.filter_eq_nil_iff]

lemma disjoint (h : Queued e live) (hi : i ∈ e.executing) (hj : j ∈ e.executing) (hne : i ≠ j) :
    List.Disjoint i.pubkeys j.pubkeys := by
  intro k hki hkj
  have hid : i.id = j.id :=
    Option.some.inj ((h.first i hi k hki).symm.trans (h.first j hj k hkj))
  exact hne (h.eq_of_id (h.executing.2 i hi) (h.executing.2 j hj) hid)

lemma id_ne (h : Queued e live) (hnew : e.inner.isDuplicate i.id = false) :
    ∀ j ∈ live, j.id ≠ i.id := by
  intro j hj hid
  rw [IntentScheduler.isDuplicate, Bool.or_eq_false_iff] at hnew
  by_cases hexecuting : j ∈ e.executing
  · obtain ⟨k, hk⟩ := List.exists_mem_of_ne_nil _ (h.keyed j hj)
    have hfront : k ∈ e.inner.front i.id :=
      IntentScheduler.mem_front.mpr ⟨(h.keys k).mpr ⟨j, hj, hk⟩, hid ▸ h.first j hexecuting k hk⟩
    exact of_decide_eq_false hnew.2 ⟨k, hfront⟩
  · have hblocked := (h.blocked j.id ⟨_, j⟩).mpr ⟨j, hj, hexecuting, rfl, rfl⟩
    rw [hid] at hblocked
    simp [hblocked] at hnew

omit [DecidableEq K] in
lemma not_mem_of_id_ne (hnew : ∀ j ∈ live, j.id ≠ i.id) : i ∉ live :=
  fun hi => hnew i hi rfl

lemma pushed (h : Queued e live) :
    (∀ k, (i.pubkeys.foldl (IntentScheduler.pushBack · i.id) e.inner).blockedKeys k =
      ((live ++ [i]).filter (k ∈ ·.pubkeys)).map ScheduledIntentBundle.id) ∧
    (∀ k, k ∈ (i.pubkeys.foldl (IntentScheduler.pushBack · i.id) e.inner).keys ↔
      ∃ j ∈ live ++ [i], k ∈ j.pubkeys) ∧
    (i.pubkeys.foldl (IntentScheduler.pushBack · i.id) e.inner).blockedIntents =
      e.inner.blockedIntents := by
  obtain ⟨hqueues, hkeys, hblocked⟩ := @IntentScheduler.foldl_pushBack K _ e.inner i.id _ i.distinct
  refine ⟨fun k => ?_, fun k => ?_, hblocked⟩
  · rw [hqueues, h.queues, List.filter_append, List.map_append]
    by_cases hk : k ∈ i.pubkeys <;> simp [hk]
  · rw [hkeys, Finset.mem_union, h.keys, List.mem_toFinset]
    simp only [List.mem_append, List.mem_singleton, or_and_right, exists_or, exists_eq_left]

lemma ids_append (h : Queued e live) (hnew : ∀ j ∈ live, j.id ≠ i.id) :
    ((live ++ [i]).map ScheduledIntentBundle.id).Nodup := by
  rw [List.map_append, List.nodup_append]
  refine ⟨h.ids, by simp, ?_⟩
  rintro a ha b hb rfl
  obtain ⟨j, hj, rfl⟩ := List.mem_map.mp ha
  exact hnew j hj (by simpa using hb)

lemma keyed_append (h : Queued e live) (hi : i.pubkeys ≠ []) :
    ∀ j ∈ live ++ [i], j.pubkeys ≠ [] :=
  List.forall_mem_append.mpr ⟨h.keyed, List.forall_mem_singleton.mpr hi⟩

lemma nodup_executing (h : Queued e live) (hi : i ∉ e.executing) : (e.executing ++ [i]).Nodup := by
  refine List.nodup_append.mpr ⟨h.executing.1, by simp, ?_⟩
  rintro j hj _ hlast rfl
  exact hi (List.mem_singleton.mp hlast ▸ hj)

lemma first_pushed (h : Queued e live) (hj : j ∈ e.executing) (hk : k ∈ j.pubkeys) :
    ((i.pubkeys.foldl (IntentScheduler.pushBack · i.id) e.inner).blockedKeys k).head? =
      some j.id := by
  obtain ⟨hqueues, -⟩ := @IntentScheduler.foldl_pushBack K _ e.inner i.id _ i.distinct
  rw [hqueues, List.head?_append, h.first j hj k hk]
  rfl

omit [DecidableEq K] in
lemma perm_started {arrived started waiting : List (ScheduledIntentBundle K)}
    (h : arrived.Perm (started ++ waiting)) :
    (arrived ++ [i]).Perm (started ++ [i] ++ waiting) := by
  rw [List.append_assoc]
  refine (h.append_right [i]).trans ?_
  rw [List.append_assoc]
  exact List.perm_append_comm.append_left started

lemma wait (h : Queued e live) (hnew : ∀ j ∈ live, j.id ≠ i.id) (hi : i.pubkeys ≠ []) :
    Queued { e with
      inner := { i.pubkeys.foldl (IntentScheduler.pushBack · i.id) e.inner with
        blockedIntents := Function.update
          (i.pubkeys.foldl (IntentScheduler.pushBack · i.id) e.inner).blockedIntents i.id
          (some ⟨i.pubkeys.length, i⟩) }
      arrived := e.arrived ++ [i] } (live ++ [i]) := by
  obtain ⟨hqueues, hkeys, hblocked⟩ := @pushed K _ e live i h
  have hout : i ∉ e.executing := fun hin => not_mem_of_id_ne hnew (h.executing.2 i hin)
  refine ⟨hqueues, hkeys, h.ids_append hnew, h.keyed_append hi, fun id found => ?_,
    ⟨h.executing.1, fun j hj => List.mem_append_left _ (h.executing.2 j hj)⟩,
    fun j hj k hk => h.first_pushed hj hk, h.acts, fun k => ?_, ?_⟩
  · simp only [hblocked]
    by_cases hid : id = i.id
    · subst hid
      rw [Function.update_self]
      constructor
      · intro hfound
        exact ⟨i, by simp, hout, rfl, (Option.some.inj hfound).symm⟩
      · rintro ⟨j, hj, -, hid, rfl⟩
        rcases List.mem_append.mp hj with hj | hj
        · exact absurd hid (hnew j hj)
        · rw [List.mem_singleton.mp hj]
    · rw [Function.update_of_ne hid, h.blocked]
      refine exists_congr fun j => and_congr_left fun hj => ?_
      rw [List.mem_append, List.mem_singleton]
      refine (or_iff_left ?_).symm
      rintro rfl
      exact hid hj.2.1.symm
  · simp only [List.filter_append, h.order k, List.append_assoc]
    by_cases hk : k ∈ i.pubkeys <;> simp [hk, hout]
  · have hlast : [i].filter (· ∉ e.executing) = [i] := by simp [hout]
    rw [List.filter_append, hlast, ← List.append_assoc]
    exact h.accounted.append_right [i]

lemma launch (h : Queued e live) (hnew : ∀ j ∈ live, j.id ≠ i.id) (hi : i.pubkeys ≠ [])
    (hfree : ∀ k ∈ i.pubkeys, k ∉ e.inner.keys) :
    Queued { e with
      inner := i.pubkeys.foldl (IntentScheduler.pushBack · i.id) e.inner
      executing := e.executing ++ [i]
      arrived := e.arrived ++ [i]
      started := e.started ++ [i] } (live ++ [i]) := by
  obtain ⟨hqueues, hkeys, hblocked⟩ := @pushed K _ e live i h
  have hout : i ∉ e.executing := fun hin => not_mem_of_id_ne hnew (h.executing.2 i hin)
  have hempty : ∀ k ∈ i.pubkeys, live.filter (k ∈ ·.pubkeys) = [] := by
    intro k hk
    rw [List.filter_eq_nil_iff]
    intro j hj hkj
    exact hfree k hk ((h.keys k).mpr ⟨j, hj, by simpa using hkj⟩)
  have hothers : ∀ j ∈ live, j ∉ e.executing ++ [i] ↔ j ∉ e.executing := by
    intro j hj
    have hne : j ≠ i := fun heq => hnew j hj (heq ▸ rfl)
    simp [hne]
  refine ⟨hqueues, hkeys, h.ids_append hnew, h.keyed_append hi, fun id found => ?_, 
    ⟨h.nodup_executing hout, ?_⟩, ?_, h.acts, fun k => ?_, ?_⟩
  · simp only [hblocked, h.blocked]
    constructor
    · rintro ⟨j, hj, hwaits, hrest⟩
      exact ⟨j, List.mem_append_left _ hj, (hothers j hj).mpr hwaits, hrest⟩
    · rintro ⟨j, hj, hwaits, hrest⟩
      rcases List.mem_append.mp hj with hj | hj
      · exact ⟨j, hj, (hothers j hj).mp hwaits, hrest⟩
      · exact absurd (List.mem_append_right _ hj) hwaits
  · intro j hj
    rcases List.mem_append.mp hj with hj | hj
    · exact List.mem_append_left _ (h.executing.2 j hj)
    · exact List.mem_append_right _ hj
  · intro j hj k hk
    rcases List.mem_append.mp hj with hj | hj
    · exact h.first_pushed hj hk
    · obtain rfl := List.mem_singleton.mp hj
      simp only [hqueues, List.filter_append, hempty k hk]
      simp [hk]
  · have hwaiting : (live ++ [i]).filter (fun j => k ∈ j.pubkeys ∧ j ∉ e.executing ++ [i]) =
        live.filter (fun j => k ∈ j.pubkeys ∧ j ∉ e.executing) := by
      rw [List.filter_append]
      have hlast : [i].filter (fun j => k ∈ j.pubkeys ∧ j ∉ e.executing ++ [i]) = [] := by simp
      rw [hlast, List.append_nil]
      refine List.filter_congr fun j hj => ?_
      simp only [hothers j hj]
    rw [hwaiting, List.filter_append, List.filter_append, h.order k]
    by_cases hk : k ∈ i.pubkeys
    · have hnone : live.filter (fun j => k ∈ j.pubkeys ∧ j ∉ e.executing) = [] := by
        rw [List.filter_eq_nil_iff]
        intro j hj hkj
        exact hfree k hk ((h.keys k).mpr ⟨j, hj, (of_decide_eq_true hkj).1⟩)
      rw [hnone]
      simp [hk]
    · simp [hk]
  · have hlast : [i].filter (· ∉ e.executing ++ [i]) = [] := by simp
    have hwaiting : live.filter (· ∉ e.executing ++ [i]) = live.filter (· ∉ e.executing) := by
      refine List.filter_congr fun j hj => ?_
      simp only [hothers j hj]
    rw [List.filter_append, hlast, hwaiting, List.append_nil]
    exact perm_started h.accounted

lemma pass (h : Queued e live) (hi : i.pubkeys = []) :
    Queued { e with
      actions := e.actions ++ [i]
      arrived := e.arrived ++ [i]
      started := e.started ++ [i] } live := by
  refine ⟨h.queues, h.keys, h.ids, h.keyed, h.blocked, h.executing, h.first,
    List.forall_mem_append.mpr ⟨h.acts, List.forall_mem_singleton.mpr hi⟩, fun k => ?_,
    perm_started h.accounted⟩
  simp only [List.filter_append, h.order k]
  simp [hi]

lemma popped {inner : IntentScheduler K} (h : Queued e live)
    (hpop : e.inner.popNextScheduledIntent order = (some i, inner)) :
    i ∈ live ∧ i ∉ e.executing ∧
      (∀ k ∈ i.pubkeys, (e.inner.blockedKeys k).head? = some i.id) ∧
      inner = { e.inner with
        blockedIntents := Function.update e.inner.blockedIntents i.id none } := by
  induction order with
  | nil => simp [IntentScheduler.popNextScheduledIntent] at hpop
  | cons id order ih =>
    rw [IntentScheduler.popNextScheduledIntent] at hpop
    cases hblocked : e.inner.blockedIntents id with
    | none =>
      rw [hblocked] at hpop
      exact ih hpop
    | some found =>
      obtain ⟨j, hj, hwaits, rfl, rfl⟩ := (h.blocked id found).mp hblocked
      simp only [hblocked] at hpop
      split_ifs at hpop with hready
      · obtain ⟨hi, rfl⟩ := Prod.mk.inj hpop
        obtain rfl := Option.some.inj hi
        exact ⟨hj, hwaits, (h.card_front_iff hj).mp hready, rfl⟩
      · exact ih hpop

lemma pop (h : Queued e live) (hi : i ∈ live) (hwaits : i ∉ e.executing)
    (hfirst : ∀ k ∈ i.pubkeys, (e.inner.blockedKeys k).head? = some i.id) :
    Queued { e with
      inner := { e.inner with
        blockedIntents := Function.update e.inner.blockedIntents i.id none }
      executing := e.executing ++ [i]
      ended := e.ended - 1
      started := e.started ++ [i] } live := by
  refine ⟨h.queues, h.keys, h.ids, h.keyed, fun id found => ?_,
    ⟨h.nodup_executing hwaits,
      List.forall_mem_append.mpr ⟨h.executing.2, List.forall_mem_singleton.mpr hi⟩⟩,
    List.forall_mem_append.mpr ⟨h.first, List.forall_mem_singleton.mpr hfirst⟩, h.acts,
    fun k => ?_, ?_⟩
  · by_cases hid : id = i.id
    · subst hid
      simp only [Function.update_self, reduceCtorEq, false_iff]
      rintro ⟨j, hj, hout, hid, -⟩
      exact hout (by simp [h.eq_of_id hj hi hid])
    · simp only [Function.update_of_ne hid, h.blocked]
      refine exists_congr fun j => and_congr_right fun hj => ?_
      refine ⟨fun hrest => ⟨?_, hrest.2⟩, fun hrest => ⟨?_, hrest.2⟩⟩
      · rw [List.mem_append, List.mem_singleton, not_or]
        refine ⟨hrest.1, ?_⟩
        rintro rfl
        exact hid hrest.2.1.symm
      · exact fun hin => hrest.1 (List.mem_append_left _ hin)
  · have hsplit : ∀ executing : List (ScheduledIntentBundle K),
        live.filter (fun j => k ∈ j.pubkeys ∧ j ∉ executing) =
          (live.filter (k ∈ ·.pubkeys)).filter (· ∉ executing) := by
      intro executing
      rw [List.filter_filter]
      refine List.filter_congr fun j _ => ?_
      simp [Bool.and_comm]
    rw [hsplit, List.filter_append, h.order k, hsplit, List.append_assoc]
    congr 1
    by_cases hk : k ∈ i.pubkeys
    · -- it is the first of those that wait on this account
      obtain ⟨rest, hrest⟩ := (h.head_iff hi).mp (hfirst k hk)
      have hnot := h.not_mem_rest hrest
      have hone : [i].filter (k ∈ ·.pubkeys) = [i] := by simp [hk]
      have hbefore : (i :: rest).filter (· ∉ e.executing) = i :: rest.filter (· ∉ e.executing) :=
        List.filter_cons_of_pos (by simpa using hwaits)
      have hafter : (i :: rest).filter (· ∉ e.executing ++ [i]) =
          rest.filter (· ∉ e.executing ++ [i]) := List.filter_cons_of_neg (by simp)
      have hsame : rest.filter (· ∉ e.executing ++ [i]) = rest.filter (· ∉ e.executing) := by
        refine List.filter_congr fun j hj => ?_
        have hne : j ≠ i := fun heq => hnot (heq ▸ hj)
        simp [hne]
      rw [hrest, hone, hbefore, hafter, hsame]
      rfl
    · have hsame : (live.filter (k ∈ ·.pubkeys)).filter (· ∉ e.executing ++ [i]) =
          (live.filter (k ∈ ·.pubkeys)).filter (· ∉ e.executing) := by
        refine List.filter_congr fun j hj => ?_
        have hkj : k ∈ j.pubkeys := by simpa using (List.mem_filter.mp hj).2
        have hne : j ≠ i := fun heq => hk (heq ▸ hkj)
        simp [hne]
      rw [hsame]
      simp [hk]
  · have hmem : i ∈ live.filter (· ∉ e.executing) := List.mem_filter.mpr ⟨hi, by simpa using hwaits⟩
    have hrest : (live.filter (· ∉ e.executing)).erase i =
        live.filter (· ∉ e.executing ++ [i]) := by
      rw [(h.nodup.filter _).erase_eq_filter, List.filter_filter]
      refine List.filter_congr fun j _ => ?_
      by_cases hj : j = i <;> simp [hj]
    rw [← hrest, List.append_assoc]
    exact h.accounted.trans ((List.perm_cons_erase hmem).append_left e.started)

lemma complete_ok (h : Queued e live) (hi : i ∈ e.executing) :
    e.inner.complete i = .ok (i.pubkeys.foldl IntentScheduler.popFront e.inner) := by
  have hlive := h.executing.2 i hi
  have hkeyed := h.keyed i hlive
  have hnone : (e.inner.blockedIntents i.id).isSome = false := by
    rw [Option.isSome_eq_false_iff, Option.isNone_iff_eq_none]
    by_contra hsome
    obtain ⟨found, hfound⟩ := Option.ne_none_iff_exists'.mp hsome
    obtain ⟨j, hj, hwaits, hid, -⟩ := (h.blocked _ _).mp hfound
    exact hwaits (h.eq_of_id hj hlive hid ▸ hi)
  have hfront : ∀ k ∈ i.pubkeys, k ∈ e.inner.front i.id := by
    intro k hk
    exact IntentScheduler.mem_front.mpr ⟨(h.keys k).mpr ⟨i, hlive, hk⟩, h.first i hi k hk⟩
  have hcard := (h.card_front_iff hlive).mpr (h.first i hi)
  rw [IntentScheduler.complete, if_neg hkeyed, hnone, if_neg (by simp), if_pos hfront,
    if_neg (by simp [hcard])]

lemma done (h : Queued e live) (hi : i ∈ e.executing) :
    Queued { e with
      inner := i.pubkeys.foldl IntentScheduler.popFront e.inner
      executing := e.executing.erase i
      actions := e.actions.erase i
      ended := e.ended + 1 } (live.filter (· ≠ i)) := by
  have hlive := h.executing.2 i hi
  obtain ⟨hqueues, hkeys, hblocked⟩ := @IntentScheduler.foldl_popFront K _ e.inner _ i.distinct
    (fun k hk => (h.keys k).mpr ⟨i, hlive, hk⟩)
  have hstill : ∀ j, j ∉ e.executing.erase i ∧ j ≠ i ↔ j ∉ e.executing := by
    intro j
    rw [h.executing.1.mem_erase_iff]
    constructor
    · rintro ⟨hout, hne⟩ hj
      exact hout ⟨hne, hj⟩
    · intro hout
      exact ⟨fun hj => hout hj.2, fun heq => hout (heq ▸ hi)⟩
  have hfilter : ∀ k, (live.filter (· ≠ i)).filter (k ∈ ·.pubkeys) =
      (live.filter (k ∈ ·.pubkeys)).filter (· ≠ i) := fun k => List.filter_comm _ _ _
  have hqueue : ∀ k, (i.pubkeys.foldl IntentScheduler.popFront e.inner).blockedKeys k =
      ((live.filter (· ≠ i)).filter (k ∈ ·.pubkeys)).map ScheduledIntentBundle.id := by
    intro k
    rw [hqueues, hfilter]
    split_ifs with hk
    · obtain ⟨rest, hrest⟩ := (h.head_iff hlive).mp (h.first i hi k hk)
      have hnot := h.not_mem_rest hrest
      rw [h.queues, hrest, List.filter_cons_of_neg (by simp), List.map_cons, List.tail_cons,
        List.filter_eq_self.mpr]
      intro j hj
      simpa using fun heq : j = i => hnot (heq ▸ hj)
    · have hself : (live.filter (k ∈ ·.pubkeys)).filter (· ≠ i) = live.filter (k ∈ ·.pubkeys) := by
        refine List.filter_eq_self.mpr fun j hj => ?_
        have hkj : k ∈ j.pubkeys := by simpa using (List.mem_filter.mp hj).2
        simpa using fun heq : j = i => hk (heq ▸ hkj)
      rw [h.queues, hself]
  refine ⟨hqueue, fun k => ?_, ?_, ?_, fun id found => ?_, ⟨h.executing.1.erase i, ?_⟩, ?_,
    fun j hj => h.acts j (List.mem_of_mem_erase hj), fun k => ?_, ?_⟩
  · have hentry : k ∈ (i.pubkeys.foldl IntentScheduler.popFront e.inner).keys ↔
        (i.pubkeys.foldl IntentScheduler.popFront e.inner).blockedKeys k ≠ [] := by
      rw [hkeys, hqueues]
      split_ifs with hk
      · simp [hk, (h.keys k).mpr ⟨i, hlive, hk⟩]
      · rw [h.queues, ne_nil_iff, h.keys]
        simp [hk]
    rw [hentry, hqueue, ne_nil_iff]
  · exact h.ids.sublist (List.filter_sublist.map _)
  · intro j hj
    exact h.keyed j (List.mem_of_mem_filter hj)
  · simp only [hblocked, h.blocked, List.mem_filter, decide_eq_true_eq]
    refine exists_congr fun j => ⟨?_, ?_⟩
    · rintro ⟨hj, hwaits, hrest⟩
      obtain ⟨hout, hne⟩ := (hstill j).mpr hwaits
      exact ⟨⟨hj, hne⟩, hout, hrest⟩
    · rintro ⟨⟨hj, hne⟩, hout, hrest⟩
      exact ⟨hj, (hstill j).mp ⟨hout, hne⟩, hrest⟩
  · intro j hj
    obtain ⟨hne, hj⟩ := h.executing.1.mem_erase_iff.mp hj
    exact List.mem_filter.mpr ⟨h.executing.2 j hj, by simpa using hne⟩
  · intro j hj k hk
    obtain ⟨hne, hj⟩ := h.executing.1.mem_erase_iff.mp hj
    have hother : k ∉ i.pubkeys := fun hki => h.disjoint hi hj hne.symm hki hk
    change ((i.pubkeys.foldl IntentScheduler.popFront e.inner).blockedKeys k).head? = some j.id
    rw [hqueues, if_neg hother]
    exact h.first j hj k hk
  · change e.arrived.filter (k ∈ ·.pubkeys) = e.started.filter (k ∈ ·.pubkeys) ++ _
    rw [h.order k, List.filter_filter]
    congr 1
    refine List.filter_congr fun j _ => ?_
    simp [← hstill j, Bool.and_assoc]
  · have hsame : (live.filter (· ≠ i)).filter (· ∉ e.executing.erase i) =
        live.filter (· ∉ e.executing) := by
      rw [List.filter_filter]
      refine List.filter_congr fun j _ => ?_
      simp [← hstill j]
    rw [hsame]
    exact h.accounted

lemma acted (h : Queued e live) (hi : i.pubkeys = []) :
    Queued { e with
      executing := e.executing.erase i
      actions := e.actions.erase i
      ended := e.ended + 1 } live := by
  have hout : i ∉ e.executing := fun hin => h.keyed i (h.executing.2 i hin) hi
  rw [List.erase_of_not_mem hout]
  exact ⟨h.queues, h.keys, h.ids, h.keyed, h.blocked, h.executing, h.first,
    fun j hj => h.acts j (List.mem_of_mem_erase hj), h.order, h.accounted⟩

omit [DecidableEq K] in
lemma running_pos_of_mem (hi : i ∈ e.executing) : 0 < e.running := by
  have hpos := List.length_pos_of_mem hi
  rw [running]
  omega

lemma isSome_pop (h : Queued e live) (hlive : live ≠ []) (hidle : e.executing = [])
    (horder : e.inner.Candidates order) : (e.inner.popNextScheduledIntent order).1.isSome := by
  obtain ⟨i, rest, rfl⟩ := List.exists_cons_of_ne_nil hlive
  have hi : i ∈ i :: rest := List.mem_cons_self
  have hfirst : ∀ k ∈ i.pubkeys, (e.inner.blockedKeys k).head? = some i.id := by
    intro k hk
    exact (h.head_iff hi).mpr ⟨_, List.filter_cons_of_pos (by simpa using hk)⟩
  have hblocked := (h.blocked i.id ⟨_, i⟩).mpr ⟨i, hi, by simp [hidle], rfl, rfl⟩
  have hready := (h.card_front_iff hi).mpr hfirst
  have hcandidate : i.id ∈ order := by
    obtain ⟨k, hk⟩ := List.exists_mem_of_ne_nil _ (h.keyed i hi)
    exact horder.2.2 k ((h.keys k).mpr ⟨i, hi, hk⟩) _ (hfirst k hk)
  exact IntentScheduler.isSome_popNextScheduledIntent hcandidate hblocked hready

end Queued

/-- What every step keeps. While anybody waits or executes, some executor is running, so that the
scheduler will be asked again. -/
def Kept (e : IntentExecutionEngine K) : Prop :=
  ∃ live, Queued e live ∧ (live ≠ [] → 0 < e.running)

namespace Kept

lemma receive (h : Kept e) (i : ScheduledIntentBundle K)
    (hstep : e.step (.receive i) = some e') : Kept e' := by
  obtain ⟨live, h, hrunning⟩ := h
  obtain rfl := Option.some.inj hstep
  change Kept (start _ (e.inner.schedule i).2 (e.inner.schedule i).1)
  by_cases hduplicate : e.inner.isDuplicate i.id = true
  · rw [IntentScheduler.schedule, if_pos hduplicate, if_pos hduplicate, List.append_nil]
    exact ⟨live, h, hrunning⟩
  · have hnew := h.id_ne (Bool.eq_false_iff.mpr hduplicate)
    rw [if_neg hduplicate]
    by_cases hi : i.pubkeys = []
    · have hnext : e.inner.schedule i = (some i, e.inner) := by
        rw [IntentScheduler.schedule, if_neg hduplicate, if_pos hi]
      refine ⟨live, ?_, fun _ => ?_⟩
      · simpa [hnext, hi, start] using h.pass hi
      · simp only [hnext, hi, start, running, List.length_append, if_true, List.length_singleton]
        omega
    · refine ⟨live ++ [i], ?_⟩
      by_cases hconflict : ∃ k ∈ i.pubkeys, k ∈ e.inner.keys
      · rw [IntentScheduler.schedule, if_neg hduplicate, if_neg hi,
          if_pos (decide_eq_true hconflict)]
        obtain ⟨k, -, hk⟩ := hconflict
        obtain ⟨j, hj, -⟩ := (h.keys k).mp hk
        exact ⟨h.wait hnew hi, fun _ => hrunning (List.ne_nil_of_mem hj)⟩
      · have hfree : ∀ k ∈ i.pubkeys, k ∉ e.inner.keys := fun k hk hin => hconflict ⟨k, hk, hin⟩
        have hnext : e.inner.schedule i =
            (some i, i.pubkeys.foldl (IntentScheduler.pushBack · i.id) e.inner) := by
          rw [IntentScheduler.schedule, if_neg hduplicate, if_neg hi, if_neg (by simpa using hfree)]
        refine ⟨by simpa [hnext, start, hi] using h.launch hnew hi hfree, fun _ => ?_⟩
        exact Queued.running_pos_of_mem (i := i) (by simp [hnext, start, hi])

lemma pop (h : Kept e) (hstep : e.step (.pop order) = some e') : Kept e' := by
  obtain ⟨live, h, -⟩ := h
  simp only [IntentExecutionEngine.step] at hstep
  split_ifs at hstep with hpop
  obtain rfl := Option.some.inj hstep
  refine ⟨live, ?_⟩
  cases hnext : e.inner.popNextScheduledIntent order with
  | mk next inner =>
    cases next with
    | none =>
      obtain rfl := IntentScheduler.popNextScheduledIntent_none hnext
      refine ⟨⟨h.queues, h.keys, h.ids, h.keyed, h.blocked, h.executing, h.first, h.acts, h.order,
        h.accounted⟩,
        fun hlive => ?_⟩
      -- nothing was ready, so that something is executing
      by_contra hnot
      have hidle : e.executing = [] := by
        by_contra hsome
        obtain ⟨i, hi⟩ := List.exists_mem_of_ne_nil _ hsome
        exact hnot (Queued.running_pos_of_mem (i := i) hi)
      have hready := h.isSome_pop hlive hidle hpop.2
      simp [hnext] at hready
    | some i =>
      obtain ⟨hi, hwaits, hfirst, rfl⟩ := h.popped hnext
      have hkeyed := h.keyed i hi
      refine ⟨by simpa [start, hkeyed] using h.pop hi hwaits hfirst, fun _ => ?_⟩
      exact Queued.running_pos_of_mem (i := i) (by simp [start, hkeyed])

lemma finish (h : Kept e) (hstep : e.step (.finish i) = some e') : Kept e' := by
  obtain ⟨live, h, -⟩ := h
  simp only [IntentExecutionEngine.step] at hstep
  split_ifs at hstep with hi
  by_cases hkeyed : i.pubkeys = []
  · rw [IntentScheduler.complete, if_pos hkeyed] at hstep
    obtain rfl := Option.some.inj hstep
    exact ⟨live, h.acted hkeyed, fun _ => Nat.succ_pos _⟩
  · have hexecuting : i ∈ e.executing := hi.resolve_right fun hacts => hkeyed (h.acts i hacts)
    rw [h.complete_ok hexecuting] at hstep
    obtain rfl := Option.some.inj hstep
    exact ⟨_, h.done hexecuting, fun _ => Nat.succ_pos _⟩

lemma step {event : Event K} (h : Kept e) (hstep : e.step event = some e') : Kept e' := by
  cases event with
  | receive i => exact h.receive i hstep
  | pop order => exact h.pop hstep
  | finish i => exact h.finish hstep

lemma new : Kept (IntentExecutionEngine.new : IntentExecutionEngine K) :=
  ⟨[], Queued.new, fun hlive => absurd rfl hlive⟩

lemma finish_isSome (h : Kept e) (hi : i ∈ e.executing ∨ i ∈ e.actions) :
    (e.step (.finish i)).isSome := by
  obtain ⟨live, h, -⟩ := h
  rw [IntentExecutionEngine.step, if_pos hi]
  rcases hi with hi | hi
  · rw [h.complete_ok hi]
    rfl
  · rw [IntentScheduler.complete, if_pos (h.acts i hi)]
    rfl

lemma work_pop (h : Kept e) (hstep : e.step (.pop order) = some e') :
    e'.arrived = e.arrived ∧ e'.work < e.work := by
  obtain ⟨live, h, -⟩ := h
  simp only [IntentExecutionEngine.step] at hstep
  split_ifs at hstep with hpop
  obtain ⟨hended, -⟩ := hpop
  obtain rfl := Option.some.inj hstep
  cases hnext : e.inner.popNextScheduledIntent order with
  | mk next inner =>
    cases next with
    | none =>
      refine ⟨rfl, ?_⟩
      simp only [start, work]
      omega
    | some i =>
      refine ⟨rfl, ?_⟩
      obtain ⟨hi, hwaits, -⟩ := h.popped hnext
      have hwaiting : i ∈ live.filter (· ∉ e.executing) :=
        List.mem_filter.mpr ⟨hi, by simpa using hwaits⟩
      have hpos := List.length_pos_of_mem hwaiting
      have hlength := h.accounted.length_eq
      simp only [List.length_append] at hlength
      simp only [start, work, h.keyed i hi, if_false, List.append_nil, List.length_append,
        List.length_singleton]
      omega

lemma work_finish (hstep : e.step (.finish i) = some e') :
    e'.arrived = e.arrived ∧ e'.work < e.work := by
  simp only [IntentExecutionEngine.step] at hstep
  split_ifs at hstep with hi
  cases hcomplete : e.inner.complete i with
  | error => simp [hcomplete] at hstep
  | ok inner =>
    simp only [hcomplete] at hstep
    obtain rfl := Option.some.inj hstep
    refine ⟨rfl, ?_⟩
    have hexecuting := List.length_erase_le (a := i) (l := e.executing)
    have hactions := List.length_erase_le (a := i) (l := e.actions)
    have hone : (e.executing.erase i).length + (e.actions.erase i).length <
        e.executing.length + e.actions.length := by
      rcases hi with hi | hi
      · have hlength := List.length_erase_add_one hi
        omega
      · have hlength := List.length_erase_add_one hi
        omega
    simp only [work]
    omega

lemma exists_step (h : Kept e) (hrunning : 0 < e.running) :
    ∃ event, (∀ i, event ≠ .receive i) ∧ (e.step event).isSome := by
  by_cases hended : 0 < e.ended
  · obtain ⟨order, horder⟩ := e.inner.exists_candidates
    refine ⟨.pop order, by simp, ?_⟩
    rw [IntentExecutionEngine.step, if_pos ⟨hended, horder⟩]
    rfl
  · have hsome : e.executing ++ e.actions ≠ [] := by
      intro hnone
      have hlength := congrArg List.length hnone
      rw [List.length_append, List.length_nil] at hlength
      rw [running] at hrunning
      omega
    obtain ⟨i, hi⟩ := List.exists_mem_of_ne_nil _ hsome
    exact ⟨.finish i, by simp, h.finish_isSome (List.mem_append.mp hi)⟩

end Kept

variable {t : List (Traces.Entry (IntentExecutionEngine K) (Event K))}

lemma Run.kept (h : Run new t e) : Kept e :=
  h.invariant Kept.new fun _ _ hstep hkept => hkept.step hstep

lemma Run.work (h : Run e t e') (hkept : Kept e)
    (hquiet : ∀ entry ∈ t, ∀ i, entry.event ≠ .receive i) :
    Kept e' ∧ e'.arrived = e.arrived ∧ t.length + e'.work ≤ e.work := by
  induction h with
  | nil => exact ⟨hkept, rfl, by simp⟩
  | @snoc t m n event _ hstep ih =>
    obtain ⟨hkept, harrived, hwork⟩ := ih fun entry hentry =>
      hquiet entry (List.mem_append_left _ hentry)
    have hlast : n.arrived = m.arrived ∧ n.work < m.work := by
      cases event with
      | receive i => exact absurd rfl (hquiet ⟨m, .receive i, n⟩ (by simp) i)
      | pop order => exact hkept.work_pop hstep
      | finish i => exact Kept.work_finish hstep
    refine ⟨hkept.step hstep, hlast.1.trans harrived, ?_⟩
    rw [List.length_append, List.length_singleton]
    omega

namespace Vectors

/-- An intent that commits the accounts from `first` on. -/
def bundle (id : UInt64) (first count : ℕ) : ScheduledIntentBundle ℕ :=
  ⟨id, List.range' first count, List.nodup_range'⟩

def first : ScheduledIntentBundle ℕ := bundle 1 1 2
/-- It waits for the first. -/
def second : ScheduledIntentBundle ℕ := bundle 2 2 2
/-- It need not. -/
def apart : ScheduledIntentBundle ℕ := bundle 3 7 1

lemma exists_waiting : ∃ t e, Run new t e ∧ e.executing = [first] ∧ e.started = [first] ∧
    (e.inner.blockedIntents second.id).isSome := by
  have hplayed : (Traces.play step new [.receive first, .receive second]).map
      (fun e => (e.executing, e.started, (e.inner.blockedIntents second.id).isSome)) =
      some ([first], [first], true) := by
    decide +kernel
  obtain ⟨t, e, hrun, -, hread⟩ := Traces.exists_trace hplayed
  obtain ⟨hexecuting, hrest⟩ := Prod.mk.inj hread
  obtain ⟨hstarted, hblocked⟩ := Prod.mk.inj hrest
  exact ⟨t, e, hrun, hexecuting, hstarted, hblocked⟩

end Vectors

/-- No two that commit the same account are executed at the same time. -/
theorem executing_disjoint (hrun : Run new t e) :
    e.executing.Pairwise fun i j => List.Disjoint i.pubkeys j.pubkeys := by
  obtain ⟨live, hqueued, -⟩ := hrun.kept
  exact hqueued.executing.1.pairwise_of_forall_ne fun _ hi _ hj hne => hqueued.disjoint hi hj hne

theorem executing_disjoint_apart : ∃ t e, Run new t e ∧
    e.executing = [Vectors.first, Vectors.apart] ∧
    e.executing.Pairwise fun i j => List.Disjoint i.pubkeys j.pubkeys := by
  have hplayed : (Traces.play step new [.receive Vectors.first, .receive Vectors.apart]).map
      IntentExecutionEngine.executing = some [Vectors.first, Vectors.apart] := by
    decide +kernel
  obtain ⟨t, e, hrun, -, hexecuting⟩ := Traces.exists_trace hplayed
  exact ⟨t, e, hrun, hexecuting, executing_disjoint hrun⟩

/-- An account is committed in the order in which the intents that commit it have arrived. -/
theorem started_in_order (hrun : Run new t e) (k : K) :
    e.started.filter (k ∈ ·.pubkeys) <+: e.arrived.filter (k ∈ ·.pubkeys) := by
  obtain ⟨live, hqueued, -⟩ := hrun.kept
  exact ⟨_, (hqueued.order k).symm⟩

theorem started_in_order_waiting : ∃ t e, Run new t e ∧ e.started = [Vectors.first] ∧
    e.started.filter (2 ∈ ·.pubkeys) <+: e.arrived.filter (2 ∈ ·.pubkeys) := by
  obtain ⟨t, e, hrun, -, hstarted, -⟩ := Vectors.exists_waiting
  exact ⟨t, e, hrun, hstarted, started_in_order hrun 2⟩

/-- What the source takes for granted: an account in the map has somebody in its queue, the
completion of an execution is never refused, and somebody who waits is not left without a running
executor. -/
theorem never_panics (hrun : Run new t e) :
    (∀ k ∈ e.inner.keys, e.inner.blockedKeys k ≠ []) ∧
    (∀ i, i ∈ e.executing ∨ i ∈ e.actions → (e.step (.finish i)).isSome) ∧
    ((∃ id, (e.inner.blockedIntents id).isSome) → 0 < e.running) := by
  obtain ⟨live, hqueued, hrunning⟩ := hrun.kept
  refine ⟨fun k hk => ?_, fun i hi => hrun.kept.finish_isSome hi, ?_⟩
  · rw [hqueued.queues, Queued.ne_nil_iff]
    exact (hqueued.keys k).mp hk
  · rintro ⟨id, hblocked⟩
    obtain ⟨found, hfound⟩ := Option.isSome_iff_exists.mp hblocked
    obtain ⟨i, hi, -⟩ := (hqueued.blocked id found).mp hfound
    exact hrunning (List.ne_nil_of_mem hi)

theorem never_panics_waiting : ∃ t e, Run new t e ∧
    (e.step (.finish Vectors.first)).isSome ∧ (e.inner.blockedIntents Vectors.second.id).isSome ∧
    0 < e.running := by
  obtain ⟨t, e, hrun, hexecuting, -, hblocked⟩ := Vectors.exists_waiting
  obtain ⟨-, hfinish, hrunning⟩ := never_panics hrun
  exact ⟨t, e, hrun, hfinish _ (.inl (by simp [hexecuting])), hblocked, hrunning ⟨_, hblocked⟩⟩

/-- Once nothing arrives any more, the engine comes to an end after a bounded number of steps, and
then has started whatever had arrived, once. -/
theorem all_started {t' : List (Traces.Entry (IntentExecutionEngine K) (Event K))}
    (hrun : Run new t e) (hrest : Run e t' e')
    (hquiet : ∀ entry ∈ t', ∀ i, entry.event ≠ .receive i) :
    t'.length ≤ e.work ∧
      ((∃ event, (∀ i, event ≠ .receive i) ∧ (e'.step event).isSome) ∨
        (e'.running = 0 ∧ e.arrived.Perm e'.started)) := by
  obtain ⟨hkept, harrived, hwork⟩ := hrest.work hrun.kept hquiet
  refine ⟨by omega, ?_⟩
  rcases Nat.eq_zero_or_pos e'.running with hzero | hpos
  · obtain ⟨live, hqueued, hrunning⟩ := hkept
    have hlive : live = [] := by
      by_contra hsome
      exact absurd (hrunning hsome) (by omega)
    have haccounted := hqueued.accounted
    rw [hlive, List.filter_nil, List.append_nil, harrived] at haccounted
    exact .inr ⟨hzero, haccounted⟩
  · exact .inl (hkept.exists_step hpos)

theorem all_started_waiting : ∃ t e t' e', Run new t e ∧
    (e.inner.blockedIntents Vectors.second.id).isSome ∧ Run e t' e' ∧
    t'.map Traces.Entry.event = [.finish Vectors.first] ∧ t'.length ≤ e.work ∧
    ((∃ event, (∀ i, event ≠ .receive i) ∧ (e'.step event).isSome) ∨
      (e'.running = 0 ∧ e.arrived.Perm e'.started)) := by
  obtain ⟨t, e, hrun, hexecuting, -, hblocked⟩ := Vectors.exists_waiting
  have hfinish := hrun.kept.finish_isSome (i := Vectors.first) (.inl (by simp [hexecuting]))
  obtain ⟨e', he'⟩ := Option.isSome_iff_exists.mp hfinish
  have hrest : Run e [⟨e, .finish Vectors.first, e'⟩] e' := Traces.Trace.nil.snoc he'
  exact ⟨t, e, _, e', hrun, hblocked, hrest, rfl, all_started hrun hrest (by simp)⟩

end IntentExecutionEngine

end Blitz.Committor
