import Blitz.HighWater
import Blitz.SchedulerAgreement

/-! The replica's side of the stream: what it makes of every message it is delivered, be it new,
repeated or out of order. -/
namespace Blitz.Replication
open LittleEndian Solana Validator Scheduler HighWater

/-- What decides about a message outside of the replica: whether the scheduler could be told, and
whether it took the block or the checksum was the one expected. -/
structure Outcome where
  delivered : Bool
  succeeded : Bool
  deriving DecidableEq

structure Delivery where
  message : Message
  outcome : Outcome
  deriving DecidableEq

/-- The positions of transactions lie below those of the markers. -/
def Message.Fits : Message → Prop
  | .transaction _ index _ => index < resetIndex
  | _ => True

instance : DecidablePred Message.Fits
  | .transaction _ index _ => inferInstanceAs (Decidable (index < resetIndex))
  | .block _ | .superBlock _ _ | .reset _ => inferInstanceAs (Decidable True)

def Message.indexIn (slot : UInt64) : Message → Option UInt32
  | .transaction s index _ => if s = slot then some index else none
  | _ => none

/-- The indices of a slot's transactions. -/
def indicesIn (slot : UInt64) (messages : List Message) : List UInt32 :=
  messages.filterMap (Message.indexIn slot)

/-- The position is that of the last message applied. -/
structure Replica where
  slot : UInt64
  index : UInt32
  streamGaps : ℕ
  bankResets : ℕ
  /-- What the scheduler has been told, in this order. -/
  commands : List SchedulerCommand
  /-- What has moved the position. The replica does not keep it; the statements speak of it. -/
  applied : List Message
  deriving DecidableEq

namespace Replica
variable (intake : Intake) (r : Replica)

def position : UInt64 × UInt32 := (r.slot, r.index)

def updatePosition (message : Message) : Replica :=
  { r with
    slot := message.slotAndIndex.1
    index := message.slotAndIndex.2
    applied := r.applied ++ [message] }

def saturatingSucc (index : UInt32) : UInt32 := if index = superblockIndex then index else index + 1

/-- The gaps it sees between its position and a message. -/
def gapsBefore : Message → ℕ
  | .transaction slot index _ =>
    let expected := if slot = r.slot then saturatingSucc r.index else 0
    (if CheckedArith.saturatingSub slot r.slot > 1 then 1 else 0) + if index ≠ expected then 1 else 0
  | message => if CheckedArith.saturatingSub message.slotAndIndex.1 r.slot > 1 then 1 else 0

def checkContinuity (message : Message) : Replica :=
  { r with streamGaps := r.streamGaps + r.gapsBefore message }

def isObsolete (message : Message) : Bool :=
  r.slot > message.slotAndIndex.1 ∨
    r.slot = message.slotAndIndex.1 ∧ r.index ≥ message.slotAndIndex.2

/-- Tells the scheduler, if it can be told. -/
def tell (command : SchedulerCommand) (outcome : Outcome) : Replica :=
  { r with commands := r.commands ++ if outcome.delivered then [command] else [] }

/-- A reset is not held against the index of the position. -/
def handleReset : Message → Replica
  | .reset slot => if r.slot > slot then r else { r with bankResets := r.bankResets + 1 }
  | _ => r

/-- A reset moves no position, whatever comes of it. -/
def process (message : Message) (outcome : Outcome) : Replica :=
  match message with
  | .reset _ => r
  | .transaction slot index payload =>
    match intake.replayTx slot index payload with
    | none => r
    | some command =>
      let r := r.tell command outcome
      if outcome.delivered then r.updatePosition message else r
  | .block b =>
    let r := r.tell (.block b) outcome
    if outcome.delivered && outcome.succeeded then r.updatePosition message else r
  | .superBlock _ _ =>
    let r := r.tell .drain outcome
    if outcome.delivered && outcome.succeeded then r.updatePosition message else r

def handleMessage (message : Message) (outcome : Outcome) : Replica :=
  let r := r.handleReset message
  if r.isObsolete message then r else (r.checkContinuity message).process intake message outcome

def handleAll : List Delivery → Replica :=
  List.foldl (fun r delivery => r.handleMessage intake delivery.message delivery.outcome) r

/-- Whether a delivery moves the position, if it is new. -/
def applies (delivery : Delivery) : Bool :=
  match delivery.message with
  | .reset _ => false
  | .transaction slot index payload =>
    (intake.replayTx slot index payload).isSome && delivery.outcome.delivered
  | _ => delivery.outcome.delivered && delivery.outcome.succeeded

variable {intake r} {message : Message} {outcome : Outcome} {delivery : Delivery}
  {deliveries : List Delivery}

lemma isObsolete_eq_false : r.isObsolete message = false ↔ Earlier r.position message.slotAndIndex := by
  simp only [isObsolete, decide_eq_false_iff_not, not_or, not_and, Earlier, position, gt_iff_lt,
    UInt64.not_lt, ge_iff_le, UInt32.not_le]
  constructor
  · rintro ⟨hle, hindex⟩
    rcases UInt64.lt_or_eq_of_le hle with hlt | heq
    · exact .inl hlt
    · exact .inr ⟨heq, hindex heq⟩
  · rintro (hlt | ⟨heq, hindex⟩)
    · exact ⟨UInt64.le_of_lt hlt, fun heq => absurd (heq ▸ hlt) (UInt64.lt_irrefl _)⟩
    · exact ⟨heq ▸ UInt64.le_refl _, fun _ => hindex⟩

lemma process_spec (delivery : Delivery) :
    (applies intake delivery = true →
      (r.process intake delivery.message delivery.outcome).position = delivery.message.slotAndIndex ∧
      (r.process intake delivery.message delivery.outcome).applied =
        r.applied ++ [delivery.message]) ∧
    (applies intake delivery = false →
      (r.process intake delivery.message delivery.outcome).position = r.position ∧
      (r.process intake delivery.message delivery.outcome).applied = r.applied) := by
  obtain ⟨message, outcome⟩ := delivery
  cases message with
  | reset slot => simp [applies, process]
  | transaction slot index payload =>
    cases hread : intake.replayTx slot index payload with
    | none => simp [applies, process, hread]
    | some command =>
      cases hdelivered : outcome.delivered with
      | false => simp [applies, process, hread, hdelivered, tell, position]
      | true => simp [applies, process, hread, hdelivered, tell, updatePosition, position]
  | _ =>
    cases hdone : outcome.delivered && outcome.succeeded with
    | false => simp [applies, process, hdone, tell, position]
    | true => simp [applies, process, hdone, tell, updatePosition, position]

lemma handleReset_eq (r : Replica) (message : Message) :
    r.handleReset message = { r with bankResets := (r.handleReset message).bankResets } := by
  cases message with
  | reset slot =>
    simp only [handleReset]
    split_ifs <;> rfl
  | _ => rfl

lemma handleMessage_of_earlier (h : Earlier r.position message.slotAndIndex) :
    r.handleMessage intake message outcome =
      ((r.handleReset message).checkContinuity message).process intake message outcome := by
  have hnew : (r.handleReset message).isObsolete message = false := by
    rw [handleReset_eq]
    exact isObsolete_eq_false.mpr h
  rw [handleMessage, hnew]
  rfl

lemma handleMessage_of_not_earlier (h : ¬Earlier r.position message.slotAndIndex) :
    r.handleMessage intake message outcome = r.handleReset message := by
  have hold : (r.handleReset message).isObsolete message = true := by
    rw [handleReset_eq, ← Bool.not_eq_false]
    exact fun hnew => h (isObsolete_eq_false.mp hnew)
  rw [handleMessage, hold]
  rfl

lemma handleMessage_spec (r : Replica) (delivery : Delivery) :
    (Earlier r.position delivery.message.slotAndIndex ∧ applies intake delivery = true →
      (r.handleMessage intake delivery.message delivery.outcome).position =
        delivery.message.slotAndIndex ∧
      (r.handleMessage intake delivery.message delivery.outcome).applied =
        r.applied ++ [delivery.message]) ∧
    (¬(Earlier r.position delivery.message.slotAndIndex ∧ applies intake delivery = true) →
      (r.handleMessage intake delivery.message delivery.outcome).position = r.position ∧
      (r.handleMessage intake delivery.message delivery.outcome).applied = r.applied) := by
  by_cases hnew : Earlier r.position delivery.message.slotAndIndex
  · have hspec := @process_spec intake
      ((r.handleReset delivery.message).checkContinuity delivery.message) delivery
    have hposition : ((r.handleReset delivery.message).checkContinuity delivery.message).position =
        r.position := by rw [handleReset_eq]; rfl
    have happlied : ((r.handleReset delivery.message).checkContinuity delivery.message).applied =
        r.applied := by rw [handleReset_eq]; rfl
    rw [hposition, happlied] at hspec
    rw [handleMessage_of_earlier hnew]
    simpa [hnew] using hspec
  · rw [handleMessage_of_not_earlier hnew, handleReset_eq]
    exact ⟨fun h => absurd h.1 hnew, fun _ => ⟨rfl, rfl⟩⟩

lemma handleAll_applied (r : Replica) (deliveries : List Delivery) :
    (r.handleAll intake deliveries).applied = r.applied ++ takes Earlier Message.slotAndIndex
      r.position ((deliveries.filter (applies intake)).map Delivery.message) := by
  induction deliveries generalizing r with
  | nil => simp [handleAll, takes]
  | cons delivery deliveries ih =>
    obtain ⟨hmoves, hstays⟩ := @handleMessage_spec intake r delivery
    have hstep : r.handleAll intake (delivery :: deliveries) =
        (r.handleMessage intake delivery.message delivery.outcome).handleAll intake deliveries := rfl
    rw [hstep, ih]
    cases happlies : applies intake delivery with
    | false =>
      obtain ⟨hposition, happlied⟩ := hstays (by simp [happlies])
      rw [hposition, happlied, List.filter_cons_of_neg (by simp [happlies])]
    | true =>
      rw [List.filter_cons_of_pos happlies, List.map_cons, takes]
      split_ifs with hnew
      · obtain ⟨hposition, happlied⟩ := hmoves ⟨hnew, happlies⟩
        rw [hposition, happlied, List.append_assoc, List.singleton_append]
      · obtain ⟨hposition, happlied⟩ := hstays (fun h => hnew h.1)
        rw [hposition, happlied]

instance : IsStrictOrder (UInt64 × UInt32) Earlier where
  irrefl := Earlier.irrefl
  trans _ _ _ := Earlier.trans

/-- However often and in whatever order messages are delivered, and whichever of them fail, the
positions a replica applies rise. None is applied twice, and none after a later one. -/
theorem applied_rising (intake : Intake) (r : Replica) (deliveries : List Delivery) :
    ∃ new, (r.handleAll intake deliveries).applied = r.applied ++ new ∧
      (∀ message ∈ new, Earlier r.position message.slotAndIndex) ∧ Rising new := by
  obtain ⟨habove, hrising⟩ := @takes_rising _ _ Earlier _ Message.slotAndIndex _ r.position
    ((deliveries.filter (applies intake)).map Delivery.message)
  exact ⟨_, handleAll_applied r deliveries, habove, hrising⟩

lemma process_commands (happlies : applies intake delivery = true) :
    (r.process intake delivery.message delivery.outcome).commands =
      r.commands ++ (delivery.message.command intake).toList := by
  obtain ⟨message, outcome⟩ := delivery
  cases message with
  | reset slot => cases happlies
  | transaction slot index payload =>
    simp only [applies, Bool.and_eq_true, Option.isSome_iff_exists] at happlies
    obtain ⟨⟨command, hread⟩, hdelivered⟩ := happlies
    simp [process, hread, hdelivered, tell, updatePosition, Message.command]
  | block b =>
    simp only [applies, Bool.and_eq_true] at happlies
    simp [process, happlies, tell, updatePosition, Message.command]
  | superBlock slot checksum =>
    simp only [applies, Bool.and_eq_true] at happlies
    simp [process, happlies, tell, updatePosition, Message.command]

lemma handleAll_commands (r : Replica) (hall : ∀ delivery ∈ deliveries, applies intake delivery = true) :
    (r.handleAll intake deliveries).commands = r.commands ++
      (takes Earlier Message.slotAndIndex r.position (deliveries.map Delivery.message)).filterMap
        (Message.command intake) := by
  induction deliveries generalizing r with
  | nil => simp [handleAll, takes]
  | cons delivery deliveries ih =>
    have happlies := hall delivery List.mem_cons_self
    have hstep : r.handleAll intake (delivery :: deliveries) =
        (r.handleMessage intake delivery.message delivery.outcome).handleAll intake deliveries := rfl
    obtain ⟨hmoves, hstays⟩ := @handleMessage_spec intake r delivery
    rw [hstep, ih _ (fun d hd => hall d (List.mem_cons_of_mem _ hd)), List.map_cons, takes]
    split_ifs with hnew
    · rw [(hmoves ⟨hnew, happlies⟩).1, handleMessage_of_earlier hnew, process_commands happlies,
        handleReset_eq, List.append_assoc]
      cases hcommand : delivery.message.command intake <;> simp [checkContinuity, hcommand]
    · rw [(hstays fun h => hnew h.1).1, handleMessage_of_not_earlier hnew, handleReset_eq]

/-- A stream that is delivered from its front, with any number of repetitions, is applied once and
in its order, and the scheduler is told accordingly. -/
theorem applied_of_walk {stream : List Message} {k : ℕ} (hrising : Rising stream)
    (habove : ∀ message ∈ stream, Earlier r.position message.slotAndIndex)
    (hwalk : Walk stream (deliveries.map Delivery.message) k)
    (hall : ∀ delivery ∈ deliveries, applies intake delivery = true) :
    (r.handleAll intake deliveries).applied = r.applied ++ stream.take k ∧
      (r.handleAll intake deliveries).commands =
        r.commands ++ (stream.take k).filterMap (Message.command intake) := by
  have htakes := takes_walk hrising habove hwalk
  constructor
  · rw [handleAll_applied, List.filter_eq_self.mpr hall, htakes]
  · rw [handleAll_commands r hall, htakes]

namespace Vectors

/-- A replica that has come to the end of slot 8. -/
def idle : Replica := ⟨8, blockIndex, 0, 0, [], []⟩

/-- Everything delivered goes well. -/
def deliver (messages : List Message) : List Delivery := messages.map fun m => ⟨m, ⟨true, true⟩⟩

lemma map_deliver (messages : List Message) :
    (deliver messages).map Delivery.message = messages := by
  rw [deliver, List.map_map]
  exact List.map_id messages

lemma applies_deliver {messages : List Message}
    (h : ∀ m ∈ messages, (∃ b, m = .block b) ∨ ∃ slot index payer, m = Node.Vectors.paid slot index payer) :
    ∀ delivery ∈ deliver messages, applies Node.Vectors.solanaIntake delivery = true := by
  intro delivery hdelivery
  obtain ⟨m, hm, rfl⟩ := List.mem_map.mp hdelivery
  rcases h m hm with ⟨b, rfl⟩ | ⟨slot, index, payer, rfl⟩
  · rfl
  · simp [applies, Node.Vectors.paid, Node.Vectors.replayTx_payment]

/-- A slot of two payments. -/
def slot : List Message :=
  [Node.Vectors.paid 9 0 1, Node.Vectors.paid 9 1 2, .block Node.Vectors.closing]

/-- The first of them comes once more. -/
def repeated : List Message :=
  [Node.Vectors.paid 9 0 1, Node.Vectors.paid 9 1 2, Node.Vectors.paid 9 0 1,
    .block Node.Vectors.closing]

lemma walk_repeated : Walk slot repeated 3 :=
  (((Walk.nil.next rfl).next rfl).again (by simp [slot])).next rfl

lemma applies_repeated : ∀ delivery ∈ deliver repeated,
    applies Node.Vectors.solanaIntake delivery = true := by
  apply applies_deliver
  simp only [repeated, List.mem_cons, List.not_mem_nil, or_false]
  rintro m (rfl | rfl | rfl | rfl)
  · exact .inr ⟨_, _, _, rfl⟩
  · exact .inr ⟨_, _, _, rfl⟩
  · exact .inr ⟨_, _, _, rfl⟩
  · exact .inl ⟨_, rfl⟩

end Vectors

theorem applied_of_walk_repeated :
    (Vectors.idle.handleAll Node.Vectors.solanaIntake (Vectors.deliver Vectors.repeated)).applied =
      [] ++ Vectors.slot.take 3 :=
  (applied_of_walk (r := Vectors.idle) (by unfold Rising; decide) (by decide)
    (Vectors.map_deliver _ ▸ Vectors.walk_repeated) Vectors.applies_repeated).1

/-- What has been applied since a start has no holes. -/
structure Gapless (start r : Replica) (new : List Message) : Prop where
  le : start.slot ≤ r.slot
  visited : ∀ slot, start.slot < slot → slot ≤ r.slot →
    ∃ message ∈ new, message.slotAndIndex.1 = slot
  numbered : ∀ slot, start.slot < slot → ∃ count,
    indicesIn slot new = (List.range count).map UInt32.ofNat ∧
      (slot = r.slot → r.index.toNat + 1 = count ∨ resetIndex ≤ r.index) ∧
      (r.slot < slot → count = 0)

namespace Gapless
variable {start r' : Replica} {new : List Message}

lemma refl (r : Replica) : Gapless r r [] where
  le := UInt64.le_refl _
  visited slot hlow hhigh := absurd (UInt64.lt_of_lt_of_le hlow hhigh) (UInt64.lt_irrefl _)
  numbered slot hlow := by
    refine ⟨0, rfl, ?_, fun _ => rfl⟩
    rintro rfl
    exact absurd hlow (UInt64.lt_irrefl _)

lemma of_position (h : Gapless start r new) (hposition : r'.position = r.position) :
    Gapless start r' new := by
  obtain ⟨hslot, hindex⟩ := Prod.mk.inj hposition
  constructor
  · rw [hslot]
    exact h.le
  · rw [hslot]
    exact h.visited
  · rw [hslot, hindex]
    exact h.numbered

lemma visited_concat (message : Message) (h : Gapless start r new)
    (hnext : message.slotAndIndex.1.toNat ≤ r.slot.toNat + 1) :
    ∀ slot, start.slot < slot → slot ≤ message.slotAndIndex.1 →
      ∃ m ∈ new ++ [message], m.slotAndIndex.1 = slot := by
  intro slot hlow hhigh
  by_cases hold : slot ≤ r.slot
  · obtain ⟨m, hm, hslot⟩ := h.visited slot hlow hold
    exact ⟨m, List.mem_append_left _ hm, hslot⟩
  · refine ⟨message, by simp, ?_⟩
    rw [UInt64.le_iff_toNat_le] at hold hhigh
    exact UInt64.toNat_inj.mp (by omega)

lemma marker (h : Gapless start r new) (hnone : ∀ slot, message.indexIn slot = none)
    (hmarker : resetIndex ≤ message.slotAndIndex.2) (hle : r.slot ≤ message.slotAndIndex.1)
    (hnext : message.slotAndIndex.1.toNat ≤ r.slot.toNat + 1)
    (hposition : r'.position = message.slotAndIndex) : Gapless start r' (new ++ [message]) := by
  obtain ⟨hslot, hindex⟩ := Prod.mk.inj (hposition.trans (Prod.mk.eta (p := message.slotAndIndex)).symm)
  refine ⟨hslot ▸ UInt64.le_trans h.le hle, hslot ▸ h.visited_concat message hnext, ?_⟩
  intro slot hlow
  obtain ⟨count, hindices, -, hnot⟩ := h.numbered slot hlow
  refine ⟨count, ?_, fun _ => .inr (hindex ▸ hmarker), ?_⟩
  · rw [indicesIn, List.filterMap_append, List.filterMap_cons, hnone]
    simpa [indicesIn] using hindices
  · intro hpast
    rw [hslot] at hpast
    exact hnot (UInt64.lt_of_le_of_lt hle hpast)

lemma toNat_saturatingSucc {index : UInt32} (h : saturatingSucc index < resetIndex) :
    (saturatingSucc index).toNat = index.toNat + 1 ∧ index < resetIndex := by
  have hreset : resetIndex.toNat = 2 ^ 32 - 3 := rfl
  rw [UInt32.lt_iff_toNat_lt] at h ⊢
  unfold saturatingSucc at h ⊢
  split_ifs at h ⊢ with hlast
  · rw [hlast] at h
    exact absurd h (by decide)
  · have hne : index.toNat ≠ superblockIndex.toNat := fun heq => hlast (UInt32.toNat_inj.mp heq)
    have hlt := index.toNat_lt
    have hlast : superblockIndex.toNat = 2 ^ 32 - 1 := rfl
    rw [UInt32.toNat_add] at h ⊢
    simp only [UInt32.reduceToNat] at h ⊢
    omega

lemma transaction {slot : UInt64} {index : UInt32} {payload : List UInt8} (h : Gapless start r new)
    (hfits : index < resetIndex) (hle : r.slot ≤ slot) (hnext : slot.toNat ≤ r.slot.toNat + 1)
    (hexpected : index = if slot = r.slot then saturatingSucc r.index else 0)
    (hposition : r'.position = (slot, index)) :
    Gapless start r' (new ++ [.transaction slot index payload]) := by
  obtain ⟨hslot, hindex⟩ := Prod.mk.inj hposition
  refine ⟨hslot ▸ UInt64.le_trans h.le hle, hslot ▸ h.visited_concat (.transaction slot index payload) hnext, ?_⟩
  intro s hlow
  obtain ⟨count, hindices, hlast, hnot⟩ := h.numbered s hlow
  rw [hslot, hindex, indicesIn, List.filterMap_append, List.filterMap_cons, ← indicesIn, hindices]
  by_cases hs : slot = s
  · subst hs
    have hcount : index.toNat = count := by
      split_ifs at hexpected with hsame
      · subst hexpected
        obtain ⟨hsucc, hbelow⟩ := toNat_saturatingSucc hfits
        rcases hlast hsame with hlast | hmarker
        · rw [hsucc, hlast]
        · exact absurd hbelow (UInt32.not_lt.mpr hmarker)
      · rw [hexpected, hnot (UInt64.lt_of_le_of_ne hle (Ne.symm hsame))]
        rfl
    refine ⟨count + 1, ?_, fun _ => .inl (by rw [hcount]), fun hpast => absurd hpast (UInt64.lt_irrefl _)⟩
    rw [Message.indexIn, if_pos rfl, List.range_succ, List.map_append, ← hcount]
    simp
  · refine ⟨count, by simp [Message.indexIn, hs], fun heq => absurd heq.symm hs, ?_⟩
    exact fun hpast => hnot (UInt64.lt_of_le_of_lt hle hpast)

lemma concat (h : Gapless start r new) (hfits : message.Fits)
    (hnew : Earlier r.position message.slotAndIndex) (hquiet : r.gapsBefore message = 0)
    (happlied : ∀ slot, message ≠ .reset slot) (hposition : r'.position = message.slotAndIndex) :
    Gapless start r' (new ++ [message]) := by
  have hle : r.slot ≤ message.slotAndIndex.1 := by
    rcases hnew with hlt | ⟨heq, -⟩
    · exact UInt64.le_of_lt hlt
    · exact heq ▸ UInt64.le_refl _
  have hnext : (CheckedArith.saturatingSub message.slotAndIndex.1 r.slot).toNat ≤ 1 →
      message.slotAndIndex.1.toNat ≤ r.slot.toNat + 1 := by
    rw [CheckedArith.toNat_saturatingSub]
    omega
  cases message with
  | transaction slot index payload =>
    simp only [gapsBefore, Nat.add_eq_zero_iff, ite_eq_right_iff, one_ne_zero, imp_false, not_not,
      gt_iff_lt, UInt64.not_lt] at hquiet
    exact h.transaction hfits hle (hnext (UInt64.le_iff_toNat_le.mp hquiet.1)) hquiet.2 hposition
  | block b =>
    simp only [gapsBefore, ite_eq_right_iff, one_ne_zero, imp_false, gt_iff_lt, UInt64.not_lt] at hquiet
    exact h.marker (fun _ => rfl) (show resetIndex ≤ blockIndex by decide) hle
      (hnext (UInt64.le_iff_toNat_le.mp hquiet)) hposition
  | superBlock slot checksum =>
    simp only [gapsBefore, ite_eq_right_iff, one_ne_zero, imp_false, gt_iff_lt, UInt64.not_lt] at hquiet
    exact h.marker (fun _ => rfl) (show resetIndex ≤ superblockIndex by decide) hle
      (hnext (UInt64.le_iff_toNat_le.mp hquiet)) hposition
  | reset slot => exact absurd rfl (happlied slot)

end Gapless

lemma streamGaps_process (r : Replica) (message : Message) (outcome : Outcome) :
    (r.process intake message outcome).streamGaps = r.streamGaps := by
  cases message with
  | reset slot => rfl
  | transaction slot index payload =>
    simp only [process]
    split
    · rfl
    · split_ifs <;> rfl
  | _ =>
    simp only [process]
    split_ifs <;> rfl

lemma streamGaps_handleMessage (r : Replica) (message : Message) (outcome : Outcome) :
    (r.handleMessage intake message outcome).streamGaps =
      r.streamGaps + if Earlier r.position message.slotAndIndex then r.gapsBefore message else 0 := by
  split_ifs with hnew
  · rw [handleMessage_of_earlier hnew, streamGaps_process, handleReset_eq]
    cases message <;> rfl
  · rw [handleMessage_of_not_earlier hnew, handleReset_eq]
    rfl

lemma Gapless.handleMessage {start : Replica} {new : List Message} (h : Gapless start r new)
    (hfits : delivery.message.Fits)
    (hquiet : (r.handleMessage intake delivery.message delivery.outcome).streamGaps = r.streamGaps) :
    ∃ more, (r.handleMessage intake delivery.message delivery.outcome).applied = r.applied ++ more ∧
      Gapless start (r.handleMessage intake delivery.message delivery.outcome) (new ++ more) := by
  obtain ⟨hmoves, hstays⟩ := @handleMessage_spec intake r delivery
  by_cases hmove : Earlier r.position delivery.message.slotAndIndex ∧ applies intake delivery = true
  · obtain ⟨hposition, happlied⟩ := hmoves hmove
    rw [streamGaps_handleMessage, if_pos hmove.1] at hquiet
    refine ⟨[delivery.message], happlied, h.concat hfits hmove.1 (by omega) ?_ hposition⟩
    intro slot hreset
    have := hmove.2
    simp [applies, hreset] at this
  · obtain ⟨hposition, happlied⟩ := hstays hmove
    refine ⟨[], by rw [happlied, List.append_nil], ?_⟩
    rw [List.append_nil]
    exact h.of_position hposition

/-- As long as no alarm for a gap is raised, no slot is left out, and the transactions applied of
a slot are numbered from zero on without a hole. -/
theorem gapless_of_no_alarm {start : Replica}
    (hfits : ∀ delivery ∈ deliveries, delivery.message.Fits)
    (hquiet : (start.handleAll intake deliveries).streamGaps = start.streamGaps) :
    ∃ new, (start.handleAll intake deliveries).applied = start.applied ++ new ∧
      (∀ slot, start.slot < slot → slot ≤ (start.handleAll intake deliveries).slot →
        ∃ message ∈ new, message.slotAndIndex.1 = slot) ∧
      ∀ slot, start.slot < slot → indicesIn slot new =
        (List.range (indicesIn slot new).length).map UInt32.ofNat := by
  have hrun : start.streamGaps ≤ (start.handleAll intake deliveries).streamGaps ∧
      ((start.handleAll intake deliveries).streamGaps = start.streamGaps →
        ∃ new, (start.handleAll intake deliveries).applied = start.applied ++ new ∧
          Gapless start (start.handleAll intake deliveries) new) := by
    clear hquiet
    induction deliveries using List.reverseRecOn with
    | nil => exact ⟨le_rfl, fun _ => ⟨[], by simp [handleAll], .refl start⟩⟩
    | append_singleton deliveries delivery ih =>
      have hstep : start.handleAll intake (deliveries ++ [delivery]) =
          (start.handleAll intake deliveries).handleMessage intake delivery.message
            delivery.outcome := by
        rw [handleAll, List.foldl_append]
        rfl
      have hgrows := @streamGaps_handleMessage intake (start.handleAll intake deliveries)
        delivery.message delivery.outcome
      obtain ⟨hle, hquiet⟩ := ih fun d hd => hfits d (List.mem_append_left _ hd)
      rw [hstep]
      refine ⟨by omega, fun hsame => ?_⟩
      have hbefore : (start.handleAll intake deliveries).streamGaps = start.streamGaps := by omega
      obtain ⟨new, happlied, hgapless⟩ := hquiet hbefore
      obtain ⟨more, hmore, hafter⟩ := hgapless.handleMessage (hfits delivery (by simp))
        (hsame.trans hbefore.symm)
      exact ⟨new ++ more, by rw [hmore, happlied, List.append_assoc], hafter⟩
  obtain ⟨new, happlied, hgapless⟩ := hrun.2 hquiet
  refine ⟨new, happlied, hgapless.visited, ?_⟩
  intro slot hlow
  obtain ⟨count, hindices, -, -⟩ := hgapless.numbered slot hlow
  rw [hindices, List.length_map, List.length_range]

theorem gapless_of_no_alarm_repeated :
    ∃ new, (Vectors.idle.handleAll Node.Vectors.solanaIntake
        (Vectors.deliver Vectors.repeated)).applied = [] ++ new ∧
      (∀ slot, 8 < slot → slot ≤ (Vectors.idle.handleAll Node.Vectors.solanaIntake
          (Vectors.deliver Vectors.repeated)).slot →
        ∃ message ∈ new, message.slotAndIndex.1 = slot) ∧
      ∀ slot, 8 < slot → indicesIn slot new =
        (List.range (indicesIn slot new).length).map UInt32.ofNat :=
  gapless_of_no_alarm (by decide) (by decide +kernel)

end Replica

end Blitz.Replication
