import Blitz.SchedulerOrder

/-! The permit that keeps the node paused: whom it stops, and a wait for it that never ends. -/
namespace Blitz.Scheduler
open LittleEndian Receipts Solana Validator WorkerPool

namespace Node
variable {x : Setup} {n n' start : Node} {held held' : ExecutorId → List (Bytes 32 × Bool)}
  {e b : ExecutorId} {t : List (Traces.Entry Node Event)}

/-- The scheduler has the permit while any executor is busy, and nobody else has it then. -/
structure Permitted (n : Node) : Prop where
  alone : n.pausedOutside = true → n.schedulingPermit = false
  busy : ∀ e, n.Busy e → n.schedulingPermit = true

/-- Executors and the permit are where they were. -/
structure SamePermit (n n' : Node) : Prop where
  schedulingPermit : n'.schedulingPermit = n.schedulingPermit
  pausedOutside : n'.pausedOutside = n.pausedOutside
  busy : ∀ e, n'.Busy e ↔ n.Busy e

lemma Permitted.same (hpermitted : n.Permitted) (h : SamePermit n n') : n'.Permitted where
  alone hpaused := by
    rw [h.pausedOutside] at hpaused
    rw [h.schedulingPermit]
    exact hpermitted.alone hpaused
  busy e he := by
    rw [h.schedulingPermit]
    exact hpermitted.busy e ((h.busy e).mp he)

lemma Timekeeping.samePermit (h : Timekeeping n n') : SamePermit n n' where
  schedulingPermit := by rw [h]
  pausedOutside := by rw [h]
  busy := h.quiet.busy

lemma Untouched.schedulingPermit (h : Untouched n n') :
    n'.schedulingPermit = n.schedulingPermit := by rw [h]

lemma Untouched.pausedOutside (h : Untouched n n') : n'.pausedOutside = n.pausedOutside := by rw [h]

lemma Permitted.of_report (h : n.Permitted) {rest : List ExecutorId} (hrx : n.readyRx = e :: rest) :
    n.schedulingPermit = true := h.busy e (.inr (.inr (hrx ▸ List.mem_cons_self)))

lemma Permitted.pausedOutside_eq_false (h : n.Permitted) (hpermit : n.schedulingPermit = true) :
    n.pausedOutside = false := by
  by_contra hpaused
  have := h.alone (Bool.not_eq_false _ ▸ hpaused)
  rw [hpermit] at this
  cases this

lemma Permitted.reported (h : n.Permitted) (hplaced : n.Placed x [] held) {rest : List ExecutorId}
    (hrx : n.readyRx = e :: rest) : ({ n with readyRx := rest }.handleReadyExecutor x e).Permitted := by
  obtain ⟨held', hloop⟩ := hplaced.handleReadyExecutor (x := x) hrx
  have hpermit := h.of_report hrx
  constructor
  · intro hpaused
    rw [hloop.untouched.pausedOutside] at hpaused
    rw [h.pausedOutside_eq_false hpermit] at hpaused
    cases hpaused
  · intro i _
    rw [hloop.untouched.schedulingPermit]
    exact hpermit

lemma Permitted.step {event : Event} (h : n.Permitted) (hsound : n.Sound x)
    (hstep : n.step x event = some n') : n'.Permitted := by
  have hsound' := hsound.step hstep
  obtain ⟨⟨held, hplaced⟩, -⟩ := hsound
  cases step_steps hstep with
  | paused hpermit hfree =>
    refine ⟨fun _ => hpermit, fun i hi => h.busy i hi⟩
  | resumed hpaused =>
    refine ⟨fun hpaused' => ?_, fun i hi => h.busy i hi⟩
    cases hpaused'
  | received hinbox =>
    refine h.same ⟨rfl, rfl, fun i => ?_⟩
    rw [hplaced.busy_iff, (hplaced.receive hinbox).busy_iff]
  | finished hworking =>
    refine h.same ⟨rfl, rfl, fun i => ?_⟩
    rw [hplaced.busy_iff, (hplaced.finish hworking).busy_iff]
    rfl
  | @accepted out txn e rest hlooping hpending hready hmode hallowed hpermit =>
    have hsame := scheduleTransaction_untouched x (n.accepting txn rest) e ⟨n.counter, txn⟩
    have hfree : n.pausedOutside = false := by
      rcases hpermit with hpermit | hfree
      · exact h.pausedOutside_eq_false hpermit
      · exact hfree
    constructor
    · intro hpaused
      rw [hsame.pausedOutside] at hpaused
      change n.pausedOutside = true at hpaused
      rw [hfree] at hpaused
      cases hpaused
    · intro i _
      rw [hsame.schedulingPermit]
      rfl
  | heard hlooping hwaits hrx =>
    have hreported := h.reported hplaced hrx
    unfold releasePermit at hsound' ⊢
    split
    · rename_i hidle
      rw [if_pos hidle] at hsound'
      obtain ⟨⟨held', hplaced'⟩, -⟩ := hsound'
      exact ⟨fun _ => rfl, fun i hi => absurd hi (hplaced'.not_busy_of_isIdle hidle i)⟩
    · exact hreported
  | heardDraining hphase hbusy hrx => exact h.reported hplaced hrx
  | switched hlooping hwaits =>
    rename_i mode
    obtain ⟨hinbox, hworking, hreadyRx, -⟩ := n.switchMode_fields mode
    refine h.same ⟨?_, ?_, fun i => ?_⟩
    · cases mode <;> rfl
    · cases mode <;> rfl
    · rw [Busy, Busy, hinbox, hworking, hreadyRx]
  | @block _ block _ _ hlooping hpending hidle hanswer =>
    have hhandled : Permitted (n.handled (.block block)) := h.same ⟨rfl, rfl, fun _ => Iff.rfl⟩
    have happlied := hhandled.same (Timekeeping.applyReplayedBlock hanswer).samePermit
    exact happlied.same ⟨rfl, rfl, fun _ => Iff.rfl⟩
  | ticked => exact h.same (Timekeeping.advancePrimarySlot _ false).samePermit
  | checkpointed =>
    exact h.same (((Timekeeping.transitionToNewSlot _).trans
      (.takeSuperblockSnapshot _ _)).withPhase _).samePermit
  | closed => exact h.same (Timekeeping.advancePrimarySlot _ true).samePermit
  | submitted => exact h.same ⟨rfl, rfl, fun _ => Iff.rfl⟩
  | dropped => exact h.same ⟨rfl, rfl, fun _ => Iff.rfl⟩
  | drained => exact h.same ⟨rfl, rfl, fun _ => Iff.rfl⟩
  | skipped => exact h
  | taken => exact h.same ⟨rfl, rfl, fun _ => Iff.rfl⟩
  | stopped => exact h.same ⟨rfl, rfl, fun _ => Iff.rfl⟩

lemma Run.permitted (hstart : Fresh start) (h : Run x start t n) : n.Permitted := by
  refine h.keeps hstart.sound ?_ fun _ _ hsound hstep hpermitted => hpermitted.step hsound hstep
  obtain ⟨executors, ledger, latestBlock, accountsdbSlot, slotHashes, rfl⟩ := hstart
  exact ⟨fun _ => rfl, fun e he => by simp [Busy, new] at he⟩

/-- Whoever holds the permit from outside has the accounts to itself: no executor has a
transaction, and no step starts one before the permit is given back. -/
theorem paused_alone (hstart : Fresh start) (h : Run x start t n) (hpaused : n.pausedOutside = true)
    {event : Event} (hstep : n.step x event = some n') :
    (∀ e, ¬n.Busy e) ∧ n'.history.dispatched = n.history.dispatched ∧
      n'.history.accepted = n.history.accepted := by
  have hpermitted := h.permitted hstart
  have hpermit : n.schedulingPermit ≠ true := by
    rw [hpermitted.alone hpaused]
    exact Bool.false_ne_true
  have hfree : ∀ e, ¬n.Busy e := fun e he => hpermit (hpermitted.busy e he)
  refine ⟨hfree, ?_⟩
  cases step_moves hstep with
  | quiet hquiet => exact ⟨hquiet.dispatched, hquiet.accepted⟩
  | switched mode =>
    obtain ⟨-, -, -, hhistory⟩ := n.switchMode_fields mode
    rw [hhistory]
    exact ⟨rfl, rfl⟩
  | received hinbox => exact ⟨rfl, rfl⟩
  | finished hworking => exact ⟨rfl, rfl⟩
  | accepted hpending hready hmode hallowed hpermit' =>
    rcases hpermit' with hheld | hopen
    · exact absurd hheld hpermit
    · rw [hpaused] at hopen
      cases hopen
  | reported hrx hquiet => exact absurd (hpermitted.of_report hrx) hpermit

theorem paused_alone_twoPayments : ∃ t n n', Run Vectors.setup Vectors.twoExecutors t n ∧
    n.pausedOutside = true ∧ n.step Vectors.setup .take = some n' ∧
    (∀ e, ¬n.Busy e) ∧ n'.history.dispatched = n.history.dispatched ∧
      n'.history.accepted = n.history.accepted := by
  obtain ⟨t, n, hrun, -, hfacts⟩ := exists_run (x := Vectors.setup) (n := Vectors.twoExecutors)
    [.switch .primary, .pause, .submit (.transaction (Vectors.executed 1))]
    (f := fun n => (n.pausedOutside, (n.step Vectors.setup .take).isSome))
    (v := (true, true)) (by decide +kernel)
  obtain ⟨hpaused, hsome⟩ := Prod.mk.inj hfacts
  obtain ⟨n', hstep⟩ := Option.isSome_iff_exists.mp hsome
  exact ⟨t, n, n', hrun, hpaused, hstep,
    paused_alone Vectors.twoExecutors_fresh hrun hpaused hstep⟩

/-- An idle replica that still has the permit, with a block to apply. Applying it takes the
permit. -/
structure Stuck (n : Node) (block : Replication.Block) : Prop where
  looping : n.phase = .looping
  idle : n.coordinator.isIdle = true
  follows : n.coordinator.isPrimary = false
  permit : n.schedulingPermit = true
  pending : n.pendingCommand = some (.block block)

lemma Stuck.processable {block : Replication.Block} (h : n.Stuck block) : n.processable = true := by
  rw [Node.processable, h.pending]
  exact h.idle

lemma Stuck.step {block : Replication.Block} {event : Event} (h : n.Stuck block)
    (hsound : n.Sound x) (hpermitted : n.Permitted) (hstep : n.step x event = some n') :
    (∃ command, event = .submit command) ∧ n'.Stuck block ∧ n'.history.acks = n.history.acks := by
  obtain ⟨⟨held, hplaced⟩, -⟩ := hsound
  have hfree := hplaced.not_busy_of_isIdle h.idle
  have hgoes : n.processable ≠ false := by
    rw [h.processable]
    exact Bool.noConfusion
  have hlooping : ∀ closing, n.phase ≠ .draining closing := by
    intro closing
    rw [h.looping]
    exact Phase.noConfusion
  have hpending : ∀ command, n.pendingCommand = some command → command = .block block := by
    intro command hcommand
    rw [h.pending, Option.some.injEq] at hcommand
    exact hcommand.symm
  cases step_steps hstep with
  | submitted command =>
    exact ⟨⟨command, rfl⟩, ⟨h.looping, h.idle, h.follows, h.permit, h.pending⟩, rfl⟩
  | paused hpermit hfree =>
    rw [h.permit] at hpermit
    cases hpermit
  | resumed hpaused =>
    rw [hpermitted.pausedOutside_eq_false h.permit] at hpaused
    cases hpaused
  | @received e txn hinbox =>
    exact absurd (.inl (Option.isSome_iff_exists.mpr ⟨txn, hinbox⟩)) (hfree e)
  | @finished e _ _ txn hworking =>
    exact absurd (.inr (.inl (Option.isSome_iff_exists.mpr ⟨txn, hworking⟩))) (hfree e)
  | dropped hlooping hcommand => cases hpending _ hcommand
  | accepted hlooping hcommand => cases hpending _ hcommand
  | drained hlooping hcommand => cases hpending _ hcommand
  | block hlooping hcommand hidle hanswer =>
    simp [applyReplayedBlock, handled, h.follows, h.permit] at hanswer
  | ticked _ hwaits => exact absurd hwaits hgoes
  | skipped _ hwaits => exact absurd hwaits hgoes
  | heard _ hwaits => exact absurd hwaits hgoes
  | switched _ hwaits => exact absurd hwaits hgoes
  | closed _ hwaits => exact absurd hwaits hgoes
  | stopped _ hwaits => exact absurd hwaits hgoes
  | heardDraining hphase => exact absurd hphase (hlooping _)
  | checkpointed hphase => exact absurd hphase (hlooping _)
  | taken _ _ hnone =>
    rw [h.pending] at hnone
    cases hnone

/-- The permit that is kept over a snapshot can stop the node for good. Once it follows, and a
block comes before any transaction, the block is never answered, and nothing happens any more
but that clients send commands. -/
theorem block_never_answered {t₀ : List (Traces.Entry Node Event)} {block : Replication.Block}
    (hstart : Fresh start) (h₀ : Run x start t₀ n) (hstuck : n.Stuck block) (h : Run x n t n') :
    n'.pendingCommand = some (.block block) ∧ n'.history.acks = n.history.acks ∧
      ∀ entry ∈ t, ∃ command, entry.event = .submit command := by
  have hall : (n'.Sound x ∧ n'.Permitted ∧ n'.Stuck block) ∧ n'.history.acks = n.history.acks ∧
      ∀ entry ∈ t, ∃ command, entry.event = .submit command := by
    induction h with
    | nil => exact ⟨⟨h₀.sound hstart.sound, h₀.permitted hstart, hstuck⟩, rfl, by simp⟩
    | @snoc t m m' event _ hstep ih =>
      obtain ⟨⟨hsound, hpermitted, hstuck⟩, hacks, hsubmissions⟩ := ih
      obtain ⟨hsubmission, hstuck', hacks'⟩ := hstuck.step hsound hpermitted hstep
      refine ⟨⟨hsound.step hstep, hpermitted.step hsound hstep, hstuck'⟩, hacks'.trans hacks, ?_⟩
      intro entry hentry
      rcases List.mem_append.mp hentry with hentry | hentry
      · exact hsubmissions entry hentry
      · obtain rfl := List.mem_singleton.mp hentry
        exact hsubmission
  exact ⟨hall.1.2.2.pending, hall.2⟩

namespace Vectors

def emptyBlock : Replication.Block := ⟨11, zeroHash, 1754300123⟩

/-- A transaction is still with its executor when the slot of a snapshot ends, and the node
follows another one right after. -/
def snapshotAndFollow : List Event :=
  [.switch .primary, .tick outside] ++ send (.transaction (executed 1)) ++
    [.tick outside, .receive 1, .finish 1 false .whole, .ready, .checkpoint outside, .switch .replica,
      .submit (.block emptyBlock), .take]

end Vectors

theorem block_never_answered_emptyBlock : ∃ t₀ n t n',
    Run Vectors.setup Vectors.twoExecutors t₀ n ∧ n.Stuck Vectors.emptyBlock ∧
    Run Vectors.setup n t n' ∧ t.map Traces.Entry.event = [.submit .drain] ∧
    n'.pendingCommand = some (.block Vectors.emptyBlock) ∧ n'.history.acks = n.history.acks ∧
    ∀ entry ∈ t, ∃ command, entry.event = .submit command := by
  obtain ⟨t₀, n, hrun, -, hfacts⟩ := exists_run (x := Vectors.setup) (n := Vectors.twoExecutors)
    Vectors.snapshotAndFollow
    (f := fun n => (n.phase, n.coordinator.isIdle, n.coordinator.isPrimary, n.schedulingPermit,
      n.pendingCommand))
    (v := (.looping, true, false, true, some (.block Vectors.emptyBlock))) (by decide +kernel)
  simp only [Prod.mk.injEq] at hfacts
  obtain ⟨hlooping, hidle, hfollows, hpermit, hpending⟩ := hfacts
  have hstuck : n.Stuck Vectors.emptyBlock := ⟨hlooping, hidle, hfollows, hpermit, hpending⟩
  have hplay : n.play Vectors.setup [.submit .drain] =
      some { n with transactionsRx := n.transactionsRx ++ [.drain] } := rfl
  obtain ⟨t, hlast, hevents⟩ := Traces.trace_of_play hplay
  exact ⟨t₀, n, t, _, hrun, hstuck, hlast, hevents,
    block_never_answered Vectors.twoExecutors_fresh hrun hstuck hlast⟩

end Node

end Blitz.Scheduler
