import Blitz.SchedulerReplica
import Blitz.WatchtowerParse

/-! A replica that is given what its primary sends agrees with it about every block. -/
namespace Blitz.Replication
open Solana Validator Scheduler

/-- How a replica reads the bytes of a transaction. -/
structure Intake where
  bincode : Bincode
  sanitize : VersionedTransaction → Except TransactionError SanitizedTransaction

def Intake.replayTx (intake : Intake) (slot : UInt64) (index : UInt32) (payload : List UInt8) :
    Option SchedulerCommand :=
  match intake.bincode.deserialize payload with
  | .error _ => none
  | .ok versioned =>
    match intake.sanitize versioned with
    | .error _ => none
    | .ok txn => some (.transaction ⟨txn, .replay ⟨slot, index, true⟩, some payload⟩)

/-- What a replica hands its scheduler for a message: a transaction to replay, a block, or the
wait before the checksum of a snapshot is compared. -/
def Message.command (intake : Intake) : Message → Option SchedulerCommand
  | .transaction slot index payload => intake.replayTx slot index payload
  | .block b => some (.block b)
  | .superBlock _ _ => some .drain
  | .reset _ => none

/-- The bytes of a transaction, where a replica reads the transaction back from them. -/
def Intake.Reads (intake : Intake) (txn : ProcessableTransaction) : Prop :=
  ∃ payload, txn.encoded = some payload ∧
    intake.bincode.deserialize payload = .ok txn.transaction.versioned ∧
    intake.sanitize txn.transaction.versioned = .ok txn.transaction

end Blitz.Replication

namespace Blitz.Scheduler
open LittleEndian Receipts Solana Validator Watchtower Replication

section Commands
variable {c : Crypto} {acc : List UInt8} {commands commands' : List SchedulerCommand}

end Commands

namespace Node
variable {x : Setup} {n n' start : Node} {e : ExecutorId} {t : List (Traces.Entry Node Event)}
  {txn : ProcessableTransaction} {out : Outside} {intake : Intake}

/-- The stream so far tells the hash under way, and no block of it is off. -/
structure Told (x : Setup) (intake : Intake) (start n : Node) : Prop where
  hasher : (n.replicated.filterMap (Message.command intake)).foldl absorb start.hasher = n.hasher
  agrees : mismatches x.crypto start.hasher (n.replicated.filterMap (Message.command intake)) = 0

namespace Told

lemma frame (h : Told x intake start n) (hhasher : n'.hasher = n.hasher)
    (hreplicated : n'.replicated = n.replicated) : Told x intake start n' := by
  constructor
  · rw [hreplicated, hhasher]
    exact h.hasher
  · rw [hreplicated]
    exact h.agrees

lemma dispatch (h : Told x intake start n) (hprimary : n.coordinator.isPrimary = true)
    (hreplicas : x.replicationTx = true) (hinbox : n.inbox e = none)
    (hfresh : ∀ ctx, txn.mode ≠ .replay ctx) (hreads : txn.mode = .execution → intake.Reads txn) :
    Told x intake start (n.dispatch x e txn) := by
  cases hmode : txn.mode with
  | replay ctx => exact absurd hmode (hfresh ctx)
  | simulation =>
    refine h.frame (by simp [Node.dispatch, hmode]) ?_
    unfold Node.dispatch
    cases txn.encoded <;> simp [hmode]
  | execution =>
    obtain ⟨payload, hencoded, hread, hsanitize⟩ := hreads hmode
    have hreplicated : (n.dispatch x e txn).replicated =
        n.replicated ++ [.transaction n.slot n.index payload] := by
      simp [Node.dispatch, hencoded, hmode, isReplicating, hreplicas, hprimary, hinbox, position]
    have hcommand : (Message.transaction n.slot n.index payload).command intake =
        some (.transaction ⟨txn.transaction, .replay ⟨n.slot, n.index, true⟩, some payload⟩) := by
      simp [Message.command, Intake.replayTx, hread, hsanitize]
    have hcommands : (n.dispatch x e txn).replicated.filterMap (Message.command intake) =
        n.replicated.filterMap (Message.command intake) ++
          [.transaction ⟨txn.transaction, .replay ⟨n.slot, n.index, true⟩, some payload⟩] := by
      rw [hreplicated, List.filterMap_append, List.filterMap_cons, hcommand, List.filterMap_nil]
    constructor
    · rw [hcommands, List.foldl_append, h.hasher]
      simp [absorb, ProcessableTransaction.absorbed, Node.dispatch, hmode]
    · rw [hcommands, mismatches_append (by simp)]
      exact h.agrees

lemma closes {checksum : Option UInt64} (h : Told x intake start n)
    (hcloses : Closes x out checksum n n') (hreplicas : x.replicationTx = true) :
    Told x intake start n' := by
  have hcommands : n'.replicated.filterMap (Message.command intake) =
      n.replicated.filterMap (Message.command intake) ++ [.block (n.currentBlock x out)] ++
        checksum.toList.map fun _ => .drain := by
    rw [hcloses.replicated, if_pos hreplicas, List.filterMap_append]
    cases checksum <;> simp [Message.command]
  have hdrain : ∀ acc, (checksum.toList.map fun _ => SchedulerCommand.drain).foldl absorb acc =
      acc := by
    intro acc
    cases checksum <;> rfl
  constructor
  · rw [hcommands, List.foldl_append, List.foldl_append, hdrain, hcloses.hasher]
    rfl
  · have hblock : mismatches x.crypto start.hasher
        (n.replicated.filterMap (Message.command intake) ++ [.block (n.currentBlock x out)]) = 0 := by
      rw [mismatches_append_block, h.agrees, h.hasher, zero_add]
      exact if_pos rfl
    rw [hcommands]
    cases checksum with
    | none => simpa using hblock
    | some value => exact (mismatches_append (by simp)).trans hblock

end Told

/-- What a replica needs of a transaction of its primary. -/
def Readable (intake : Intake) (txn : ProcessableTransaction) : Prop :=
  (∀ ctx, txn.mode ≠ .replay ctx) ∧ (txn.mode = .execution → intake.Reads txn)

lemma Told.writes {event : Event} (h : Told x intake start n) (hwrites : Writes x n event n')
    (hprimary : n.coordinator.isPrimary = true) (hstays : event ≠ .switch .replica)
    (hreadable : ∀ txn ∈ n'.history.accepted, Readable intake txn)
    (hreplicas : x.replicationTx = true) : Told x intake start n' := by
  cases hwrites with
  | same hsame => exact h.frame hsame.hasher hsame.replicated
  | scheduled hkeeps =>
    have hkept : Kept x (Readable intake) fun m =>
        m.coordinator.isPrimary = true ∧ Told x intake start m := by
      constructor
      · rintro m m' hsame ⟨hm, htold⟩
        exact ⟨hsame.isPrimary.trans hm, htold.frame hsame.hasher hsame.replicated⟩
      · rintro m e txn hinbox ⟨hfresh, hreads⟩ - ⟨hm, htold⟩
        exact ⟨hm, htold.dispatch hm hreplicas hinbox hfresh hreads⟩
    exact (hkeeps hkept hreadable ⟨hprimary, h⟩).2
  | finished hworking => exact h.frame rfl rfl
  | closed hevent _ hcloses => exact h.closes hcloses hreplicas
  | switched mode =>
    cases mode with
    | primary => exact h.frame rfl rfl
    | replica => exact absurd rfl hstays
  | adopted hfollows => exact absurd hprimary (by simp [hfollows])

namespace Vectors

def solanaIntake : Intake where
  bincode := .solana
  sanitize versioned := (Watchtower.Vectors.dispatcher []).sanitize versioned true

lemma sanitize_payment (payer : UInt8) :
    solanaIntake.sanitize (payment payer).versioned = .ok (payment payer) := by
  simp only [solanaIntake, Watchtower.Vectors.dispatcher]
  rw [dif_pos ⟨(payment payer).signed, (payment payer).paid⟩]

lemma deserialize_payment (payer : UInt8) :
    solanaIntake.bincode.deserialize (Bincode.solana.serialize (payment payer).versioned) =
      .ok (payment payer).versioned := by
  have hback := Bincode.solana.deserialize_serialize (payment payer).versioned []
  rwa [List.append_nil] at hback

lemma replayTx_payment (payer : UInt8) (slot : UInt64) (index : UInt32) :
    solanaIntake.replayTx slot index (Bincode.solana.serialize (payment payer).versioned) =
      some (.transaction ⟨payment payer, .replay ⟨slot, index, true⟩,
        some (Bincode.solana.serialize (payment payer).versioned)⟩) := by
  simp only [Intake.replayTx, deserialize_payment, sanitize_payment]

end Vectors

end Node

end Blitz.Scheduler
