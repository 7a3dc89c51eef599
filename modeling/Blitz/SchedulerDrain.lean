import Blitz.SchedulerRuns

/-! An idle node has nothing left to do, and waiting for it to become idle comes to an end. -/
namespace Blitz.Scheduler
open LittleEndian Solana Validator WorkerPool

/-- The message names no account twice. -/
def ProcessableTransaction.Distinct (txn : ProcessableTransaction) : Prop :=
  txn.transaction.versioned.message.staticAccountKeys.Nodup

instance (txn : ProcessableTransaction) : Decidable txn.Distinct :=
  inferInstanceAs (Decidable (List.Nodup _))

lemma ProcessableTransaction.Distinct.claims {txn : ProcessableTransaction} (h : txn.Distinct)
    (isWritable : VersionedMessage → ℕ → Bool) :
    ((txn.claims isWritable).map Prod.fst).Nodup := by
  have hkeys : (txn.claims isWritable).map Prod.fst =
      txn.transaction.versioned.message.staticAccountKeys := by
    rw [ProcessableTransaction.claims, List.map_map]
    exact List.zipIdx_map_fst 0 _
  rw [hkeys]
  exact h

namespace Node
variable {x : Setup} {n n' m start : Node} {hand : List ExecutorId}
  {held held' : ExecutorId → List (Bytes 32 × Bool)} {e b : ExecutorId}
  {t : List (Traces.Entry Node Event)}

lemma Accounted.mem_accepted {inHand : Multiset ProcessableTransaction} (h : n.Accounted inHand)
    (hb : b < n.coordinator.count) {txn : TransactionWithId}
    (hmem : txn ∈ n.coordinator.blockedTransactions b) : txn.txn ∈ n.history.accepted := by
  have hwaiting : txn.txn ∈ n.coordinator.waiting :=
    mem_pool.mpr ⟨b, hb, List.mem_map_of_mem hmem⟩
  rw [← Multiset.mem_coe, h.accepted]
  exact Multiset.mem_add.mpr (.inl (Multiset.mem_add.mpr (.inl hwaiting)))

lemma blocked_queueTransaction {c : ExecutionCoordinator} {txn : TransactionWithId} {i : ExecutorId}
    (h : (c.queueTransaction b txn).blockedTransactions i ≠ []) :
    i = b ∨ c.blockedTransactions i ≠ [] := by
  by_cases hi : i = b
  · exact .inl hi
  · right
    simpa [hi] using h

lemma Rescheduled.behind (h : Rescheduled x b n held e n' held') (hb : b < n.coordinator.count)
    (hplaced : n.Placed x [e] held) (haccounted : n.Accounted 0)
    (hdistinct : ∀ txn ∈ n.history.accepted, txn.Distinct)
    (hbehind : ∀ i, i ≠ b → n.coordinator.blockedTransactions i ≠ [] → n.Busy i) :
    ∀ i, n'.coordinator.blockedTransactions i ≠ [] → n'.Busy i := by
  induction h with
  | empty hqueue =>
    intro i hi
    rw [ExecutionCoordinator.blockedTransactions_releaseExecutor,
      ExecutionCoordinator.blockedTransactions_nextBlockedTransaction_of_nil hqueue] at hi
    refine hbehind i ?_ hi
    rintro rfl
    exact hi hqueue
  | @stuck n held e txn rest hqueue hclash hself =>
    have hmem : txn ∈ n.coordinator.blockedTransactions b := hqueue ▸ List.mem_cons_self
    have hne := hself ((hdistinct _ (haccounted.mem_accepted hb hmem)).claims x.isWritable)
    intro i hi
    rcases blocked_queueTransaction hi with rfl | hi
    · exact hplaced.busy_of_clash (hclash hne)
    · by_cases hib : i = b
      · subst hib
        exact hplaced.busy_of_clash (hclash hne)
      · refine hbehind i hib ?_
        simpa [hib] using hi
  | @requeued n n' held held' e b' txn rest hqueue hne hclash hself hnext ih =>
    have hmem : txn ∈ n.coordinator.blockedTransactions b := hqueue ▸ List.mem_cons_self
    have hfree := hself ((hdistinct _ (haccounted.mem_accepted hb hmem)).claims x.isWritable)
    refine ih hb ((hplaced.nextBlockedTransaction b).queueTransaction _ _)
      ((haccounted.pop hb hqueue).queue _ (hplaced.blocker_lt hclash)) hdistinct ?_
    intro i hib hi
    rcases blocked_queueTransaction hi with rfl | hi
    · exact hplaced.busy_of_clash (hclash hfree)
    · refine hbehind i hib ?_
      simpa [hib] using hi
  | @last n held e txn rest c hqueue hlocks hframe hready =>
    have hdispatched := (hplaced.nextBlockedTransaction b).dispatch hlocks hframe
    have hcount : c.count = n.coordinator.count := by rw [hframe]; rfl
    have hcready : c.readyExecutors = [] := by rw [hframe]; exact hready
    have hcqueue : c.blockedTransactions =
        Function.update n.coordinator.blockedTransactions b rest := by
      rw [hframe]
      simp [hqueue]
    intro i hi
    change c.blockedTransactions i ≠ [] at hi
    rw [hdispatched.busy_iff]
    change i < c.count ∧ i ∉ [] ++ c.readyExecutors
    rw [hcount, hcready]
    refine ⟨?_, by simp⟩
    by_cases hib : i = b
    · rw [hib]
      exact hb
    · rw [hcqueue, Function.update_of_ne hib] at hi
      exact ((hplaced.busy_iff i).mp (hbehind i hib hi)).1
  | @next n n' held held' e e' txn rest ready c hqueue hlocks hframe hready hnext ih =>
    have hpopped := hplaced.nextBlockedTransaction b
    have hcready : c.readyExecutors = e' :: ready := by rw [hframe]; exact hready
    have hcount : c.count = n.coordinator.count := by rw [hframe]; rfl
    have hcqueue : c.blockedTransactions =
        Function.update n.coordinator.blockedTransactions b rest := by
      rw [hframe]
      simp [hqueue]
    have hdispatched := (haccounted.pop hb hqueue).dispatch (x := x) hpopped hframe
    have hplaced' := hpopped.dispatch hlocks hframe
    refine ih (hcount ▸ hb) (hplaced'.take hcready) ⟨hdispatched.accepted, hdispatched.dispatched⟩
      hdistinct ?_
    intro i hib hi
    change c.blockedTransactions i ≠ [] at hi
    rw [hcqueue, Function.update_of_ne hib] at hi
    obtain ⟨hlt, hnot⟩ := (hplaced.busy_iff i).mp (hbehind i hib hi)
    refine (hplaced'.busy_iff i).mpr ⟨hcount ▸ hlt, ?_⟩
    change i ∉ [] ++ c.readyExecutors
    rw [hcready, ← hready]
    simp only [List.singleton_append, List.mem_cons, not_or] at hnot
    exact hnot.2

/-- What scheduling leaves alone. -/
def Untouched (n n' : Node) : Prop :=
  n' = { n with
    coordinator := n'.coordinator
    inbox := n'.inbox
    index := n'.index
    hasher := n'.hasher
    replicated := n'.replicated
    history := { n.history with dispatched := n'.history.dispatched } }

lemma Untouched.trans (h : Untouched m n) (h' : Untouched n n') : Untouched m n' := by
  unfold Untouched at h h' ⊢
  rw [h', h]

lemma Rescheduled.untouched (h : Rescheduled x b n held e n' held') : Untouched n n' := by
  induction h with
  | empty hqueue => rfl
  | stuck hqueue hclash hself => rfl
  | requeued hqueue hne hclash hself hnext ih =>
    refine .trans ?_ ih
    rfl
  | last hqueue hlocks hframe hready => rfl
  | next hqueue hlocks hframe hready hnext ih =>
    refine .trans ?_ ih
    rfl

lemma Untouched.accepted (h : Untouched n n') : n'.history.accepted = n.history.accepted := by
  rw [h]

lemma Untouched.phase (h : Untouched n n') : n'.phase = n.phase := by rw [h]

/-- Queues stand behind busy executors only, as long as no message names an account twice. -/
def Behind (n : Node) : Prop :=
  (∀ txn ∈ n.history.accepted, txn.Distinct) →
    ∀ i, n.coordinator.blockedTransactions i ≠ [] → n.Busy i

lemma Quiet.busy (h : Quiet n n') (e : ExecutorId) : n'.Busy e ↔ n.Busy e := by
  rw [Busy, Busy, h.inbox, h.working, h.readyRx]

lemma Behind.of_quiet (h : n.Behind) (hquiet : Quiet n n') : n'.Behind := by
  intro hdistinct i hi
  rw [hquiet.accepted] at hdistinct
  rw [hquiet.coordinator] at hi
  rw [hquiet.busy]
  exact h hdistinct i hi

lemma Moves.behind {event : Event} (hmoves : Moves x n event n') (hsound : n.Sound x)
    (h : n.Behind) : n'.Behind := by
  obtain ⟨⟨held, hplaced⟩, haccounted⟩ := hsound
  cases hmoves with
  | quiet hquiet => exact h.of_quiet hquiet
  | switched mode =>
    obtain ⟨hinbox, hworking, hreadyRx, hhistory⟩ := n.switchMode_fields mode
    intro hdistinct i hi
    rw [hhistory] at hdistinct
    rw [switchMode_coordinator] at hi
    rw [Busy, hinbox, hworking, hreadyRx]
    exact h hdistinct i hi
  | received hinbox =>
    intro hdistinct i hi
    have hbusy := (hplaced.busy_iff i).mp (h hdistinct i hi)
    exact ((hplaced.receive hinbox).busy_iff i).mpr hbusy
  | finished hworking =>
    intro hdistinct i hi
    have hbusy := (hplaced.busy_iff i).mp (h hdistinct i hi)
    exact ((hplaced.finish hworking).busy_iff i).mpr hbusy
  | @accepted _ txn e rest hpending hready hmode hallowed hpermit =>
    have haccepting := hplaced.accepting hready txn
    rcases haccepting.scheduleTransaction ⟨n.counter, txn⟩ with ⟨c, hrun, hlocks, hframe⟩ |
      ⟨b, hrun, hclash, hself⟩
    · rw [hrun]
      intro hdistinct i hi
      have hcqueue : c.blockedTransactions = n.coordinator.blockedTransactions := by rw [hframe]; rfl
      have hcount : c.count = n.coordinator.count := by rw [hframe]; rfl
      have hcready : c.readyExecutors = rest := by rw [hframe]; rfl
      change c.blockedTransactions i ≠ [] at hi
      rw [hcqueue] at hi
      obtain ⟨hlt, hnot⟩ := (hplaced.busy_iff i).mp
        (h (fun txn hmem => hdistinct txn (List.mem_append_left _ hmem)) i hi)
      refine ((haccepting.dispatch hlocks hframe).busy_iff i).mpr ⟨hcount ▸ hlt, ?_⟩
      change i ∉ [] ++ c.readyExecutors
      rw [hcready]
      rw [hready] at hnot
      exact fun hmem => hnot (List.mem_cons_of_mem _ hmem)
    · rw [hrun]
      intro hdistinct i hi
      have htxn : txn.Distinct := hdistinct txn (List.mem_append_right _ (List.mem_singleton_self txn))
      have hne := hself (htxn.claims x.isWritable)
      rcases blocked_queueTransaction hi with rfl | hi
      · exact haccepting.busy_of_clash (hclash hne)
      · exact h (fun txn hmem => hdistinct txn (List.mem_append_left _ hmem)) i hi
  | @reported e rest n' hrx hquiet =>
    obtain ⟨held', hloop⟩ := hplaced.handleReadyExecutor (x := x) hrx
    have hreport := hplaced.report hrx
    refine Behind.of_quiet ?_ hquiet
    intro hdistinct
    rw [hloop.untouched.accepted] at hdistinct
    refine hloop.behind (hreport.lt e (by simp)) hreport ⟨haccounted.accepted, haccounted.dispatched⟩
      hdistinct ?_
    intro i hie hi
    obtain ⟨hlt, hnot⟩ := (hplaced.busy_iff i).mp (h hdistinct i hi)
    refine (hreport.busy_iff i).mpr ⟨hlt, ?_⟩
    simpa [hie] using hnot

lemma Run.behind (hstart : Fresh start) (h : Run x start t n) : n.Behind := by
  refine h.keeps hstart.sound ?_ fun _ _ hsound hstep hbehind =>
    (step_moves hstep).behind hsound hbehind
  obtain ⟨executors, ledger, latestBlock, accountsdbSlot, slotHashes, rfl⟩ := hstart
  intro _ i hi
  exact absurd rfl hi

lemma Placed.not_busy_of_isIdle (h : n.Placed x [] held) (hidle : n.coordinator.isIdle = true)
    (e : ExecutorId) : ¬n.Busy e := by
  intro hbusy
  obtain ⟨hlt, hnot⟩ := (h.busy_iff e).mp hbusy
  have hsub : e :: n.coordinator.readyExecutors ⊆ List.range n.coordinator.count := by
    intro i hi
    rw [List.mem_range]
    rcases List.mem_cons.mp hi with rfl | hi
    · exact hlt
    · exact h.lt i hi
  have hle := (List.nodup_cons.mpr ⟨hnot, h.nodup⟩).subperm hsub |>.length_le
  have hlength : n.coordinator.readyExecutors.length = n.coordinator.count := by
    simpa [ExecutionCoordinator.isIdle] using hidle
  simp only [List.nil_append, List.length_cons, List.length_range] at hle
  omega

lemma Placed.queued_eq_zero (h : ∀ e, ¬n.Busy e) : n.queued = 0 := by
  refine pool_eq_zero.mpr fun e _ => ?_
  rw [Option.toList_eq_nil_iff, ← Option.not_isSome_iff_eq_none]
  exact fun hsome => h e (.inl hsome)

lemma Placed.running_eq_zero (h : ∀ e, ¬n.Busy e) : n.running = 0 := by
  refine pool_eq_zero.mpr fun e _ => ?_
  rw [Option.toList_eq_nil_iff, ← Option.not_isSome_iff_eq_none]
  exact fun hsome => h e (.inr (.inl hsome))

lemma Sound.settled (h : n.Sound x) (hbehind : n.Behind)
    (hdistinct : ∀ txn ∈ n.history.accepted, txn.Distinct) (hidle : n.coordinator.isIdle = true) :
    (∀ e, ¬n.Busy e ∧ n.coordinator.blockedTransactions e = []) ∧
      n.history.accepted.Perm (n.history.finished.map IndexedTransaction.txn) := by
  obtain ⟨⟨held, hplaced⟩, haccounted⟩ := h
  have hfree := hplaced.not_busy_of_isIdle hidle
  have hempty : ∀ e, n.coordinator.blockedTransactions e = [] := by
    intro e
    by_contra hne
    exact hfree e (hbehind hdistinct e hne)
  refine ⟨fun e => ⟨hfree e, hempty e⟩, ?_⟩
  have hwaiting : n.coordinator.waiting = 0 :=
    pool_eq_zero.mpr fun e _ => by rw [hempty e, List.map_nil]
  have hdispatched := haccounted.dispatched
  rw [Placed.queued_eq_zero hfree, Placed.running_eq_zero hfree, zero_add, zero_add,
    Multiset.coe_eq_coe] at hdispatched
  rw [← Multiset.coe_eq_coe, haccounted.accepted, hwaiting, zero_add, zero_add, Multiset.coe_eq_coe]
  exact hdispatched.map _

/-- Once every executor is free, every transaction the node has accepted has been executed:
none is on its way, none waits behind another. -/
theorem finished_of_isIdle (hstart : Fresh start) (h : Run x start t n)
    (hdistinct : ∀ txn ∈ n.history.accepted, txn.Distinct) (hidle : n.coordinator.isIdle = true) :
    (∀ e, ¬n.Busy e ∧ n.coordinator.blockedTransactions e = []) ∧
      n.history.accepted.Perm (n.history.finished.map IndexedTransaction.txn) :=
  (h.sound hstart.sound).settled (h.behind hstart) hdistinct hidle

theorem finished_of_isIdle_twoPayments : ∃ t n, Run Vectors.setup Vectors.twoExecutors t n ∧
    n.history.accepted = [Vectors.executed 1, Vectors.executed 2] ∧ n.coordinator.isIdle = true ∧
    (∀ e, ¬n.Busy e ∧ n.coordinator.blockedTransactions e = []) ∧
      n.history.accepted.Perm (n.history.finished.map IndexedTransaction.txn) := by
  obtain ⟨t, n, hrun, -, hfacts⟩ := exists_run (x := Vectors.setup) (n := Vectors.twoExecutors)
    (Vectors.twoPayments ++ Vectors.complete 0 ++ Vectors.complete 1)
    (f := fun n => (n.history.accepted, n.coordinator.isIdle))
    (v := ([Vectors.executed 1, Vectors.executed 2], true)) (by decide +kernel)
  obtain ⟨haccepted, hidle⟩ := Prod.mk.inj hfacts
  refine ⟨t, n, hrun, haccepted, hidle,
    finished_of_isIdle Vectors.twoExecutors_fresh hrun ?_ hidle⟩
  rw [haccepted]
  decide

/-- Transactions that wait, and executors that have something to do or to report. -/
def workLeft (n : Node) : ℕ :=
  n.coordinator.waiting.card + (n.coordinator.count - n.coordinator.readyExecutors.length)

lemma Placed.length_ready_le (h : n.Placed x hand held) :
    (hand ++ n.coordinator.readyExecutors).length ≤ n.coordinator.count := by
  have hsub : hand ++ n.coordinator.readyExecutors ⊆ List.range n.coordinator.count := by
    intro i hi
    exact List.mem_range.mpr (h.lt i hi)
  simpa using (h.nodup.subperm hsub).length_le

lemma Rescheduled.work (h : Rescheduled x b n held e n' held') (hb : b < n.coordinator.count)
    (hplaced : n.Placed x [e] held) :
    n'.coordinator.waiting.card + n.coordinator.readyExecutors.length + 1 =
        n.coordinator.waiting.card + n'.coordinator.readyExecutors.length ∧
      n'.coordinator.count = n.coordinator.count := by
  -- Whatever comes of a queue, the report that set it off is one thing less to do.
  induction h with
  | @empty n held e hqueue =>
    have hwaiting : ((n.coordinator.nextBlockedTransaction b).2.releaseExecutor e).waiting =
        n.coordinator.waiting := by
      rw [ExecutionCoordinator.waiting, ExecutionCoordinator.waiting,
        ExecutionCoordinator.blockedTransactions_releaseExecutor,
        ExecutionCoordinator.blockedTransactions_nextBlockedTransaction_of_nil hqueue]
      rfl
    simp [hwaiting, add_assoc]
  | @stuck n held e txn rest hqueue hclash hself =>
    have hpop := ExecutionCoordinator.waiting_nextBlockedTransaction hb hqueue
    have hpush := ExecutionCoordinator.waiting_queueTransaction txn
      (c := (n.coordinator.nextBlockedTransaction b).2.releaseExecutor e) hb
    have hrelease : ((n.coordinator.nextBlockedTransaction b).2.releaseExecutor e).waiting =
        (n.coordinator.nextBlockedTransaction b).2.waiting := rfl
    rw [hpush, hrelease, ← hpop]
    simp [add_assoc]
  | @requeued n n' held held' e b' txn rest hqueue hne hclash hself hnext ih =>
    obtain ⟨hwork, hcount⟩ := ih hb ((hplaced.nextBlockedTransaction b).queueTransaction _ _)
    have hpop := ExecutionCoordinator.waiting_nextBlockedTransaction hb hqueue
    have hpush := ExecutionCoordinator.waiting_queueTransaction txn
      (c := (n.coordinator.nextBlockedTransaction b).2) (hplaced.blocker_lt hclash)
    refine ⟨?_, hcount⟩
    rw [hpush, ← hpop] at hwork
    exact hwork
  | @last n held e txn rest c hqueue hlocks hframe hready =>
    have hpop := ExecutionCoordinator.waiting_nextBlockedTransaction hb hqueue
    have hwaiting : c.waiting = (n.coordinator.nextBlockedTransaction b).2.waiting := by
      rw [hframe]
      rfl
    have hcready : c.readyExecutors = [] := by rw [hframe]; exact hready
    have hcount : c.count = n.coordinator.count := by rw [hframe]; rfl
    refine ⟨?_, hcount⟩
    change c.waiting.card + _ + 1 = _ + c.readyExecutors.length
    rw [hwaiting, hpop, hready, hcready, Multiset.card_add, Multiset.card_singleton]
    rfl
  | @next n n' held held' e e' txn rest ready c hqueue hlocks hframe hready hnext ih =>
    have hpopped := hplaced.nextBlockedTransaction b
    have hcready : c.readyExecutors = e' :: ready := by rw [hframe]; exact hready
    have hccount : c.count = n.coordinator.count := by rw [hframe]; rfl
    have hwaiting : c.waiting = (n.coordinator.nextBlockedTransaction b).2.waiting := by
      rw [hframe]
      rfl
    obtain ⟨hwork, hcount⟩ := ih (hccount ▸ hb) ((hpopped.dispatch hlocks hframe).take hcready)
    have hpop := ExecutionCoordinator.waiting_nextBlockedTransaction hb hqueue
    refine ⟨?_, hcount.trans hccount⟩
    change n'.coordinator.waiting.card + ready.length + 1 = c.waiting.card + _ at hwork
    rw [hpop, Multiset.card_add, Multiset.card_singleton, hready, List.length_cons, ← hwaiting]
    omega

lemma Moves.work_reported {rest : List ExecutorId} (hplaced : n.Placed x [] held)
    (hrx : n.readyRx = e :: rest) :
    ({ n with readyRx := rest }.handleReadyExecutor x e).workLeft + 1 = n.workLeft := by
  obtain ⟨held', hloop⟩ := hplaced.handleReadyExecutor (x := x) hrx
  have hreport := hplaced.report hrx
  obtain ⟨hwork, hcount⟩ := hloop.work (hreport.lt e (by simp)) hreport
  have hbefore := hreport.length_ready_le
  have hafter := (hloop.placed hreport).length_ready_le
  rw [hcount] at hafter
  rw [workLeft, workLeft, hcount]
  change _ + n.coordinator.readyExecutors.length + 1 = n.coordinator.waiting.card + _ at hwork
  change n.coordinator.readyExecutors.length + 1 ≤ n.coordinator.count at hbefore
  change _ ≤ n.coordinator.count at hafter
  simp only [List.nil_append, ExecutionCoordinator.count_unlockAccounts] at hafter ⊢
  omega

def Event.isReport : Event → Bool
  | .ready => true
  | _ => false

def Event.isCheckpoint : Event → Bool
  | .checkpoint _ => true
  | _ => false

/-- Steps of the executors, and of the scheduler when it hears from one. -/
def Event.ofExecutors : Event → Bool
  | .receive _ => true
  | .finish _ _ _ => true
  | .ready => true
  | _ => false

lemma step_draining {closing : Bool} {event : Event} (hsound : n.Sound x)
    (hphase : n.phase = .draining closing) (hstep : n.step x event = some n')
    (hwait : event.isCheckpoint = false) :
    n'.phase = .draining closing ∧ n'.history.accepted = n.history.accepted ∧
      n'.workLeft + event.isReport.toNat = n.workLeft := by
  obtain ⟨⟨held, hplaced⟩, haccounted⟩ := hsound
  have hbusy : n.phase ≠ .looping := by
    rw [hphase]
    exact Phase.noConfusion
  cases step_steps hstep with
  | submitted => exact ⟨hphase, rfl, rfl⟩
  | paused => exact ⟨hphase, rfl, rfl⟩
  | resumed => exact ⟨hphase, rfl, rfl⟩
  | received => exact ⟨hphase, rfl, rfl⟩
  | finished => exact ⟨hphase, rfl, rfl⟩
  | heardDraining _ _ hrx =>
    obtain ⟨held', hloop⟩ := hplaced.handleReadyExecutor (x := x) hrx
    have huntouched := hloop.untouched
    exact ⟨huntouched.phase.trans hphase, huntouched.accepted, Moves.work_reported hplaced hrx⟩
  | checkpointed => cases hwait
  | dropped hlooping => exact absurd hlooping hbusy
  | accepted hlooping => exact absurd hlooping hbusy
  | block hlooping => exact absurd hlooping hbusy
  | drained hlooping => exact absurd hlooping hbusy
  | ticked hlooping => exact absurd hlooping hbusy
  | skipped hlooping => exact absurd hlooping hbusy
  | heard hlooping => exact absurd hlooping hbusy
  | switched hlooping => exact absurd hlooping hbusy
  | taken _ hlooping => exact absurd hlooping hbusy
  | closed hlooping => exact absurd hlooping hbusy
  | stopped hlooping => exact absurd hlooping hbusy

lemma exists_step_draining {closing : Bool} (hplaced : n.Placed x [] held)
    (hphase : n.phase = .draining closing) (hbusy : n.coordinator.isIdle = false) :
    ∃ event, event.ofExecutors = true ∧ (n.step x event).isSome := by
  have hlength : n.coordinator.readyExecutors.length < n.coordinator.count := by
    have hle := hplaced.length_ready_le
    have hne : n.coordinator.readyExecutors.length ≠ n.coordinator.count := by
      simpa [ExecutionCoordinator.isIdle] using hbusy
    simp only [List.nil_append] at hle
    omega
  obtain ⟨e, he, hnot⟩ : ∃ e < n.coordinator.count, e ∉ n.coordinator.readyExecutors := by
    by_contra hall
    push Not at hall
    have hsub : List.range n.coordinator.count ⊆ n.coordinator.readyExecutors :=
      fun i hi => hall i (List.mem_range.mp hi)
    have := (List.nodup_range.subperm hsub).length_le
    simp only [List.length_range] at this
    omega
  rcases (hplaced.busy_iff e).mpr ⟨he, by simpa using hnot⟩ with hinbox | hworking | hreported
  · obtain ⟨txn, htxn⟩ := Option.isSome_iff_exists.mp hinbox
    refine ⟨.receive e, rfl, ?_⟩
    simp [step, htxn, (hplaced.inbox_alone e hinbox).1]
  · obtain ⟨txn, htxn⟩ := Option.isSome_iff_exists.mp hworking
    refine ⟨.finish e false .whole, rfl, ?_⟩
    simp [step, htxn]
  · obtain ⟨first, rest, hrx⟩ := List.exists_cons_of_ne_nil (List.ne_nil_of_mem hreported)
    refine ⟨.ready, rfl, ?_⟩
    simp [step, turn, hphase, hrx, hbusy]

lemma Placed.isIdle_iff_workLeft (hplaced : n.Placed x [] held) (hbehind : n.Behind)
    (hdistinct : ∀ txn ∈ n.history.accepted, txn.Distinct) :
    n.coordinator.isIdle = true ↔ n.workLeft = 0 := by
  have hle := hplaced.length_ready_le
  rw [List.nil_append] at hle
  constructor
  · intro hidle
    have hwaiting : n.coordinator.waiting = 0 := by
      refine pool_eq_zero.mpr fun e _ => ?_
      rw [List.map_eq_nil_iff]
      by_contra hne
      exact hplaced.not_busy_of_isIdle hidle e (hbehind hdistinct e hne)
    have hlength : n.coordinator.readyExecutors.length = n.coordinator.count := by
      simpa [ExecutionCoordinator.isIdle] using hidle
    rw [workLeft, hwaiting, hlength]
    simp
  · intro hwork
    unfold workLeft at hwork
    simp only [ExecutionCoordinator.isIdle, decide_eq_true_eq]
    omega

/-- The wait before a snapshot gets nowhere stuck, and takes exactly as many reports as there
were transactions waiting or with executors when it began, whatever their order. -/
theorem drain_reports {t₀ : List (Traces.Entry Node Event)} {closing : Bool} (hstart : Fresh start)
    (h₀ : Run x start t₀ m) (hphase : m.phase = .draining closing)
    (hdistinct : ∀ txn ∈ m.history.accepted, txn.Distinct) (h : Run x m t n)
    (hwait : ∀ entry ∈ t, entry.event.isCheckpoint = false) :
    n.workLeft + t.countP (fun entry => entry.event.isReport) = m.workLeft ∧
      (n.coordinator.isIdle = true ↔ n.workLeft = 0) ∧
      (n.coordinator.isIdle = false →
        ∃ event, event.ofExecutors = true ∧ (n.step x event).isSome) := by
  have hall : n.Sound x ∧ n.Behind ∧ n.phase = .draining closing ∧
      n.history.accepted = m.history.accepted ∧
      n.workLeft + t.countP (fun entry => entry.event.isReport) = m.workLeft := by
    induction h with
    | nil => exact ⟨h₀.sound hstart.sound, h₀.behind hstart, hphase, rfl, rfl⟩
    | @snoc t n n' event _ hstep ih =>
      obtain ⟨hsound, hbehind, hphase, haccepted, hwork⟩ := ih fun entry hentry =>
        hwait entry (List.mem_append_left _ hentry)
      obtain ⟨hphase', haccepted', hwork'⟩ :=
        step_draining hsound hphase hstep (hwait ⟨n, event, n'⟩ (by simp))
      refine ⟨hsound.step hstep, (step_moves hstep).behind hsound hbehind, hphase',
        haccepted'.trans haccepted, ?_⟩
      rw [List.countP_append, List.countP_singleton, ← hwork, ← hwork']
      cases event.isReport with
      | false => simp
      | true =>
        simp
        omega
  obtain ⟨⟨⟨held, hplaced⟩, -⟩, hbehind, hphase, haccepted, hwork⟩ := hall
  rw [← haccepted] at hdistinct
  exact ⟨hwork, hplaced.isIdle_iff_workLeft hbehind hdistinct,
    exists_step_draining hplaced hphase⟩

theorem drain_reports_onePayment : ∃ t₀ m t n, Run Vectors.setup Vectors.twoExecutors t₀ m ∧
    m.phase = .draining false ∧ Run Vectors.setup m t n ∧
    t.map Traces.Entry.event = Vectors.complete 1 ∧
    n.workLeft + t.countP (fun entry => entry.event.isReport) = m.workLeft ∧
      (n.coordinator.isIdle = true ↔ n.workLeft = 0) ∧
      (n.coordinator.isIdle = false →
        ∃ event, event.ofExecutors = true ∧ (n.step Vectors.setup event).isSome) := by
  obtain ⟨t₀, m, t, n, hrun, -, hrun', hevents, hfacts⟩ := exists_run_run (x := Vectors.setup)
    (n := Vectors.twoExecutors)
    ([.switch .primary, .tick Vectors.outside] ++
      Vectors.send (.transaction (Vectors.executed 1)) ++ [.tick Vectors.outside])
    (Vectors.complete 1) (f := fun m _ => (m.phase, m.history.accepted))
    (v := (.draining false, [Vectors.executed 1])) (by decide +kernel)
  obtain ⟨hphase, haccepted⟩ := Prod.mk.inj hfacts
  refine ⟨t₀, m, t, n, hrun, hphase, hrun', hevents,
    drain_reports Vectors.twoExecutors_fresh hrun hphase ?_ hrun' ?_⟩
  · rw [haccepted]
    decide
  · exact Traces.forall_of_events (P := fun event => event.isCheckpoint = false) hevents
      (by simp [Vectors.complete, Event.isCheckpoint])

end Node

end Blitz.Scheduler
