import Blitz.AppAccounts
import Blitz.ProgramStakers

/-! What the web client shows before anybody signs: how a bond would split, and what a
position could claim, in unbounded integers, beside what the program then does. -/
namespace Blitz.App
open LittleEndian CheckedArith Program Slashing RewardIndex Traces

def bps : ℕ := 10000
def victimBps : ℕ := 3000
def poolBps : ℕ := 2000
def rewardScale : ℕ := 1000000000000

structure Split where
  burn : ℕ
  victim : ℕ
  pool : ℕ
  deriving DecidableEq, Repr

def splitOf (slashed poolStaked : ℕ) : Split :=
  let victim := slashed * victimBps / bps
  let pool := slashed * poolBps / bps
  let burn := slashed - victim - pool
  if poolStaked = 0 then ⟨burn + pool, victim, 0⟩ else ⟨burn, victim, pool⟩

/-- What this position could claim right now. -/
def claimable (position : Position) (operator : Operator) : ℕ :=
  let moved :=
    if position.entryIndex < operator.rewardIndex then operator.rewardIndex - position.entryIndex
    else 0
  position.reward + position.staked * moved / rewardScale

/-- The program's split, as the client would write it. -/
def Split.of (s : Slashing.Split) : Split := ⟨s.burn.toNat, s.victim.toNat, s.pool.toNat⟩

lemma Split.of_bond (bond : UInt64) :
    Split.of (.of bond) =
      ⟨bond.toNat - bond.toNat * victimBps / bps - bond.toNat * poolBps / bps,
        bond.toNat * victimBps / bps, bond.toNat * poolBps / bps⟩ := by
  have hvictim : (Slashing.Split.of bond).victim.toNat = bond.toNat * victimBps / bps :=
    Slashing.Split.share_toNat (by decide)
  have hpool : (Slashing.Split.of bond).pool.toNat = bond.toNat * poolBps / bps :=
    Slashing.Split.of_pool bond
  have htotal := Slashing.Split.of_total bond
  unfold Slashing.Split.Of at htotal
  simp only [Split.of, Split.mk.injEq]
  omega

lemma Split.of_withoutPool {slashed : ℕ} {s : Slashing.Split} (h : s.Of slashed)
    (hs : slashed < 2 ^ 64) :
    Split.of s.withoutPool = ⟨(Split.of s).burn + (Split.of s).pool, (Split.of s).victim, 0⟩ := by
  -- The pool's share is burned without overflow: it was part of the slash.
  have hburn : (s.burn + s.pool).toNat = s.burn.toNat + s.pool.toNat :=
    toNat_add_of_lt (by unfold Slashing.Split.Of at h; omega)
  simp only [Split.of, Slashing.Split.withoutPool, hburn, UInt64.toNat_zero]

theorem splitOf_eq_distribute (bond : UInt64) (pool : Pool) :
    splitOf bond.toNat pool.staked.toNat = Split.of (pool.distribute (.of bond)).1 := by
  have hof := Split.of_bond bond
  have hwithout := Split.of_withoutPool (Slashing.Split.of_total bond) bond.toNat_lt
  rw [hof] at hwithout
  have hzero : pool.staked.toNat = 0 ↔ pool.staked = 0 := by
    rw [← UInt64.toNat_zero, UInt64.toNat_inj]
  unfold splitOf Pool.distribute
  by_cases hstaked : pool.staked = 0
  · rw [if_pos (hzero.mpr hstaked), if_pos (.inl hstaked), hwithout]
  · rw [if_neg (mt hzero.mp hstaked)]
    by_cases hshare : (Slashing.Split.of bond).pool = 0
    · have hnone : bond.toNat * poolBps / bps = 0 := by
        have hpool : (Split.of (.of bond)).pool = 0 := by rw [Split.of, hshare, UInt64.toNat_zero]
        rwa [hof] at hpool
      rw [if_pos (.inr hshare), hwithout]
      simp only [hnone, Nat.sub_zero, Nat.add_zero]
    · rw [if_neg (not_or.mpr ⟨hstaked, hshare⟩), hof]

lemma claimable_eq (position : Position) (operator : Operator) :
    claimable position operator = position.reward +
      position.staked * (operator.rewardIndex - position.entryIndex) / rewardScale := by
  unfold claimable
  split_ifs with hmoved
  · rfl
  · rw [Nat.sub_eq_zero_of_le (not_lt.mp hmoved)]

section Previews
variable {rt : Runtime} {t : List (Entry Moment Event)} {m : Moment} {k : Pubkey}
  {p : PositionAccount} {a : OperatorAccount}

lemma claimable_of_backed (hrun : Run rt t m) (hb : Backed rt t p.operator)
    (hk : recordAt rt m.ledger k = some (.position p))
    (ho : recordAt rt m.ledger p.operator = some (.operator a)) :
    claimable (Position.of k p) (Operator.of p.operator a) =
      (p.position.claimable a.rewardIndex).toNat := by
  rw [claimable_eq, hrun.invOn.1.claimable_toNat hb ho hk rfl]
  rfl

/-- The split the client shows is the split the program applies. And in every state a run
reaches, if no registration of a position's operator overflowed, the client decodes both
accounts, and a claim by the owner succeeds and pays what the client shows for them. -/
theorem preview_is_outcome (hrun : Run rt t m) :
    (∀ (bond : UInt64) (pool : Pool),
      splitOf bond.toNat pool.staked.toNat = Split.of (pool.distribute (.of bond)).1) ∧
    ∀ k p, recordAt rt m.ledger k = some (.position p) → Backed rt t p.operator →
      ∃ operator position,
        decodeOperator p.operator (m.ledger p.operator).data = .ok (some operator) ∧
        decodePosition k (m.ledger k).data = .ok (some position) ∧
        ∀ tx owner operatorInfo positionInfo rest, owner.isSigner = true → owner.key = p.owner →
          operatorInfo.key = p.operator → positionInfo.key = k →
          ∃ l', process rt tx m.ledger (owner :: operatorInfo :: positionInfo :: rest)
              Instruction.claim.write = .ok l' ∧
            held l' p.operator + claimable position operator = held m.ledger p.operator ∧
            held l' p.owner = held m.ledger p.owner + claimable position operator := by
  refine ⟨splitOf_eq_distribute, ?_⟩
  intro k p hk hb
  obtain ⟨_, a, ho⟩ := hrun.invOn.1.operator_of_position hb hk
  have hshown := claimable_of_backed hrun hb hk ho
  refine ⟨Operator.of p.operator a, Position.of k p,
    decodeOperator_of_read _ (recordAt_operator.mp ho).2,
    decodePosition_of_read _ (recordAt_position.mp hk).2, ?_⟩
  intro tx owner operatorInfo positionInfo rest hsigner hown hop hpos
  rw [← hop] at hb ho
  rw [← hpos] at hk
  obtain ⟨l', hclaim, hdebit, hcredit⟩ :=
    hrun.invOn.1.exists_claim hb rest hsigner hk hown.symm hop.symm ho
  rw [hop] at hdebit
  rw [hown] at hcredit
  rw [hshown]
  exact ⟨l', by rw [process_write]; exact hclaim, hdebit, hcredit⟩

end Previews

namespace Vectors
open Program.Vectors

lemma unbackedConvicted_evaluates :
    decodeOperator operator (unbackedConvicted operator).data = .ok (some
      ⟨operator, authority, Receipts.Vectors.operatorPubkey.val, 0, 14757395258967641292,
        250000000000, 0⟩) ∧
    decodePosition position (unbackedConvicted position).data = .ok (some
      ⟨position, staker, operator, 14757395258967641292, 0, 0⟩) ∧
    (dispatch runtime evidence unbackedConvicted stakeAccounts .claim).toBool = false := by
  decide +kernel

end Vectors

theorem preview_is_outcome_recorded :
    splitOf (10000000000 : UInt64).toNat (3000000000 : UInt64).toNat =
      ⟨5000000000, 3000000000, 2000000000⟩ ∧
    ∃ operator position,
      decodeOperator Program.Vectors.operator
        (Program.Vectors.convicted Program.Vectors.operator).data = .ok (some operator) ∧
      decodePosition Program.Vectors.position
        (Program.Vectors.convicted Program.Vectors.position).data = .ok (some position) ∧
      ∃ l', process Program.Vectors.runtime Program.Vectors.evidence Program.Vectors.convicted
          Program.Vectors.stakeAccounts Instruction.claim.write = .ok l' ∧
        held l' Program.Vectors.operator + claimable position operator =
          held Program.Vectors.convicted Program.Vectors.operator ∧
        held l' Program.Vectors.staker =
          held Program.Vectors.convicted Program.Vectors.staker + claimable position operator := by
  have hpreview := preview_is_outcome (m := ⟨6150410, Program.Vectors.convicted⟩)
    ⟨_, Program.Vectors.genesis_genesis, Program.Vectors.trace_convicted⟩
  dsimp only at hpreview
  have hsplit : Split.of (Pool.distribute ⟨3000000000, 0⟩ (.of 10000000000)).1 =
      ⟨5000000000, 3000000000, 2000000000⟩ := by decide +kernel
  refine ⟨?_, ?_⟩
  · exact (hpreview.1 10000000000 ⟨3000000000, 0⟩).trans hsplit
  · obtain ⟨operator, position, ho, hp, hclaim⟩ := hpreview.2
      Program.Vectors.position Program.Vectors.stakedPosition
      Program.Vectors.recordAt_convictedPosition (Program.Vectors.backed_convicted _)
    exact ⟨operator, position, ho, hp, 
      hclaim Program.Vectors.evidence (Program.Vectors.signer Program.Vectors.staker)
      (Program.Vectors.passive Program.Vectors.operator)
      (Program.Vectors.passive Program.Vectors.position) _ rfl rfl rfl rfl⟩

/-- Where the bond wrapped around when it was registered, the client shows the staker
3689348814741910323 lamports after the conviction, and every claim of them is refused. -/
theorem unbacked_preview_refused :
    (∃ t, Run Program.Vectors.runtime t ⟨6150410, Program.Vectors.unbackedConvicted⟩) ∧
    (∃ operator position,
      decodeOperator Program.Vectors.operator
        (Program.Vectors.unbackedConvicted Program.Vectors.operator).data = .ok (some operator) ∧
      decodePosition Program.Vectors.position
        (Program.Vectors.unbackedConvicted Program.Vectors.position).data = .ok (some position) ∧
      position.owner = Program.Vectors.staker ∧
      claimable position operator = 3689348814741910323) ∧
    ∀ l', process Program.Vectors.runtime Program.Vectors.evidence
      Program.Vectors.unbackedConvicted Program.Vectors.stakeAccounts
      Instruction.claim.write ≠ .ok l' := by
  obtain ⟨ho, hp, hrefused⟩ := Vectors.unbackedConvicted_evaluates
  obtain ⟨t, htrace, _⟩ := Program.Vectors.trace_unbackedConvicted
  refine ⟨⟨t, _, Program.Vectors.richGenesis_genesis, htrace⟩, ⟨_, _, ho, hp, rfl, by decide⟩, ?_⟩
  intro l' hclaim
  rw [process_write] at hclaim
  rw [hclaim] at hrefused
  cases hrefused

end Blitz.App
