import Blitz.ProgramTimeline

/-! Nobody else touches a staker: an instruction the owner did not sign leaves the
position as it is and what it can claim no smaller, and taking a bond or paying a
victim costs the stakers nothing. -/
namespace Blitz.Program
open LittleEndian CheckedArith RewardIndex Slashing Traces

section Stakers
variable {rt : Runtime} {backed : Pubkey → Prop} {l l' : Ledger} {tx : Transaction}
  {accounts : List AccountInfo} {i : Instruction} {o k : Pubkey} {a b : OperatorAccount}
  {p : PositionAccount} {t : List (Entry Moment Event)} {m : Moment} {x : Entry Moment Event}

lemma OperatorTurn.index_le (h : OperatorTurn rt tx l accounts l' o a i b) (hinv : InvOn rt backed l)
    (hb : backed o) (ho : recordAt rt l o = some (.operator a)) :
    a.rewardIndex.toNat ≤ b.rewardIndex.toNat := by
  cases h with
  | same => exact le_rfl
  | pooled hindex =>
    change _ ≤ BitVec.toNat (Pool.rewardIndex _)
    rw [hindex]
  | slashed hlist hkey h =>
    rw [hinv.solvent.index o a (visible_operator hb ho) h.bonded]
    exact Nat.zero_le _
  | unbondBegun => exact le_rfl
  | bondWithdrawn => exact le_rfl

theorem Effect.bystander (h : Effect rt l tx accounts i l') (hinv : InvOn rt backed l)
    (hinv' : InvOn rt backed l') (hb : backed o) (hk : recordAt rt l k = some (.position p))
    (hop : p.operator = o) (hsigned : ¬SignedBy accounts p.owner) :
    ∃ a b, recordAt rt l o = some (.operator a) ∧ recordAt rt l' o = some (.operator b) ∧
      (p.position.claimable a.rewardIndex).toNat ≤ (p.position.claimable b.rewardIndex).toNat := by
  obtain ⟨⟨a, ha⟩, _⟩ := hinv.solvent.positions k p (visible_position hb hk hop)
  obtain ⟨ho, _⟩ := visible_eq_some.mp ha
  rw [hop] at ho
  obtain ⟨b, ho', hturn⟩ := h.operator ho
  obtain ⟨q, hk', _, _, hcases⟩ := h.position hk
  obtain ⟨rfl, _⟩ := hcases.resolve_right hsigned
  refine ⟨a, b, ho, ho', ?_⟩
  rw [hinv.claimable_toNat hb ho hk hop, hinv'.claimable_toNat hb ho' hk' hop]
  exact Share.claimable_mono (hturn.index_le hinv hb ho)

variable (rt) in
/-- The instruction took no more than the bond it cleared, and what is left still
covers the remaining bond, every stake and every claim. -/
def Unspent (l l' : Ledger) (o : Pubkey) : Prop :=
  ∀ a, recordAt rt l o = some (.operator a) → ∃ b, recordAt rt l' o = some (.operator b) ∧
    b.poolStaked = a.poolStaked ∧
    held l o + b.bond.toNat ≤ held l' o + a.bond.toNat ∧
    (rt.rent operatorLen).toNat + b.bond.toNat + b.poolStaked.toNat +
      ∑ j, ((positionOf rt l' o j).map
        fun p => (p.position.claimable b.rewardIndex).toNat).getD 0 ≤ held l' o

/-- The instructions that pay out of the program's accounts without a staker. -/
def Instruction.Spares (i : Instruction) : Prop :=
  i = .proveEquivocation ∨ i = .withdrawBond ∨ ∃ wireBytes, i = .claimVictim wireBytes

lemma Effect.bond_only (h : Effect rt l tx accounts i l') (hi : i.Spares)
    (ho : recordAt rt l o = some (.operator a)) :
    ∃ b, recordAt rt l' o = some (.operator b) ∧ b.poolStaked = a.poolStaked ∧
      held l o + b.bond.toNat ≤ held l' o + a.bond.toNat := by
  rcases hi with rfl | rfl | ⟨wireBytes, rfl⟩
  · cases h with
    | @proveEquivocation accuser operatorInfo convictionInfo burnTo rest c d _ hlist hburn h =>
      have hkey := ne_of_vacant ho h.vacant
      by_cases he : o = operatorInfo.key
      · subst he
        obtain rfl := operator_inj h.operator ho
        refine ⟨slashedOperator c, ?_, Pool.distribute_staked _ _, ?_⟩
        · rw [h.records, Function.update_of_ne hkey, Function.update_self]
        · have hself := h.self_le
          have hsplit := appliedSplit_le c
          rw [show (slashedOperator c).bond.toNat = 0 from rfl]
          omega
      · refine ⟨a, ?_, rfl, ?_⟩
        · rw [h.records, Function.update_of_ne hkey, Function.update_of_ne he, ho]
        · exact Nat.add_le_add_right (h.others_le he (by simp [ho])) _
  · cases h with
    | @withdrawBond authority operatorInfo rest c _ hlist h =>
      by_cases he : o = operatorInfo.key
      · subst he
        obtain rfl := operator_inj h.operator ho
        refine ⟨{ c with bond := 0, unbondAt := 0 }, ?_, rfl, ?_⟩
        · rw [h.records, Function.update_self]
        · simpa using h.paid.source_le
      · refine ⟨a, by rw [h.records, Function.update_of_ne he, ho], rfl, ?_⟩
        exact Nat.add_le_add_right (h.paid.le he) _
  · cases h with
    | claimVictim hlist h =>
      have hne := ne_of_operator_conviction ho h.conviction
      refine ⟨a, by rw [h.records, Function.update_of_ne hne, ho], rfl, ?_⟩
      exact Nat.add_le_add_right (h.paid.le hne) _

lemma Effect.unspent (h : Effect rt l tx accounts i l') (hi : i.Spares)
    (hinv' : InvOn rt backed l') (hb : backed o) : Unspent rt l l' o := by
  intro a ho
  obtain ⟨b, ho', hpool, hheld⟩ := h.bond_only hi ho
  exact ⟨b, ho', hpool, hheld, (hinv'.covers hb ho').2⟩

lemma Effect.data_of_spares (h : Effect rt l tx accounts i l') (hi : i.Spares)
    (hk : recordAt rt l k = some (.position p)) : (l' k).data = (l k).data := by
  rcases hi with rfl | rfl | ⟨wireBytes, rfl⟩
  · cases h with
    | proveEquivocation hlist hburn h =>
      exact h.frame k (ne_of_operator_position h.operator hk).symm (ne_of_vacant hk h.vacant)
  · cases h with
    | withdrawBond hlist h => exact h.frame k (ne_of_operator_position h.operator hk).symm
  · cases h with
    | claimVictim hlist h => exact h.frame k (ne_of_position_conviction hk h.conviction)

/-- In every run, for every instruction with any accounts: positions whose owner
did not sign keep their bytes, and as long as the registrations of their operator
brought what they record, what they can claim does not shrink, and neither a
conviction nor a withdrawal nor a victim's claim spends a stake or a reward. -/
theorem stakers_untouched (hrun : Run rt t m) (hx : x ∈ t)
    (he : x.event = .instruction tx accounts i) (hbacked : Backed rt t o) :
    (∀ k p, recordAt rt x.before.ledger k = some (.position p) → ¬SignedBy accounts p.owner →
      recordAt rt x.after.ledger k = some (.position p) ∧
        (x.after.ledger k).data = (x.before.ledger k).data) ∧
    (∀ k p, recordAt rt x.before.ledger k = some (.position p) → p.operator = o →
      ¬SignedBy accounts p.owner →
      ∃ a b, recordAt rt x.before.ledger o = some (.operator a) ∧
        recordAt rt x.after.ledger o = some (.operator b) ∧
        (p.position.claimable a.rewardIndex).toNat ≤
          (p.position.claimable b.rewardIndex).toNat) ∧
    (i.Spares → Unspent rt x.before.ledger x.after.ledger o ∧
      ∀ k p, recordAt rt x.before.ledger k = some (.position p) →
        (x.after.ledger k).data = (x.before.ledger k).data) := by
  obtain ⟨hinv, hinv'⟩ := hrun.invOn.2 x hx
  obtain ⟨start, hg, htrace⟩ := hrun
  have hstep := htrace.entry hx
  rw [he] at hstep
  have heffect := hstep.effect.2.2
  refine ⟨?_, ?_, ?_⟩
  · intro k p hk hsigned
    obtain ⟨q, hk', _, _, hcases⟩ := heffect.position hk
    obtain ⟨rfl, hdata⟩ := hcases.resolve_right hsigned
    exact ⟨hk', hdata⟩
  · intro k p hk hop hsigned
    exact heffect.bystander hinv hinv' hbacked hk hop hsigned
  · intro hi
    exact ⟨heffect.unspent hi hinv' hbacked, fun k p hk => heffect.data_of_spares hi hk⟩

end Stakers

theorem stakers_untouched_recorded :
    (∃ a b, recordAt Vectors.runtime Vectors.staked Vectors.operator = some (.operator a) ∧
      recordAt Vectors.runtime Vectors.convicted Vectors.operator = some (.operator b) ∧
      ((⟨3000000000, 0, 0⟩ : Position).claimable a.rewardIndex).toNat ≤
        ((⟨3000000000, 0, 0⟩ : Position).claimable b.rewardIndex).toNat) ∧
    (Vectors.convicted Vectors.position).data = (Vectors.staked Vectors.position).data ∧
    Unspent Vectors.runtime Vectors.staked Vectors.convicted Vectors.operator := by
  have hp := Vectors.recordAt_stakedPosition
  have hrun : Run Vectors.runtime
      [Vectors.registerEntry, Vectors.stakeEntry, Vectors.convictEntry]
      ⟨6150410, Vectors.convicted⟩ := ⟨_, Vectors.genesis_genesis, Vectors.trace_convicted⟩
  obtain ⟨hbytes, hclaims, hspares⟩ := stakers_untouched (o := Vectors.operator) hrun
    (show Vectors.convictEntry ∈ _ by simp) rfl (Vectors.backed_convicted _)
  dsimp only [Vectors.convictEntry] at hbytes hclaims hspares
  have hunsigned : ¬SignedBy Vectors.convictAccounts Vectors.staker := by
    unfold SignedBy
    decide
  have hclaim := hclaims _ _ hp rfl hunsigned
  have hdata := (hbytes _ _ hp hunsigned).2
  exact ⟨hclaim, hdata, (hspares (.inl rfl)).1⟩

namespace Vectors

/-- The same three people, one of them with most of all there is. -/
def richGenesis : Ledger :=
  ledgerOf [(authority, ⟨20000000000, systemProgram, []⟩),
    (staker, ⟨15000000000000000000, systemProgram, []⟩), (accuser, ⟨1000000000, systemProgram, []⟩)]

def unbacked : Ledger :=
  after richGenesis registerAccounts (.register Receipts.Vectors.operatorPubkey 18446744073709551615)

def unbackedStaked : Ledger := after unbacked stakeAccounts (.stake 14757395258967641292)

def unbackedOperator : OperatorAccount :=
  ⟨authority, Receipts.Vectors.operatorPubkey, 18446744073709551615, 14757395258967641292, 0, 0, 255⟩

def convictUnbacked : Except ProgramError Ledger :=
  convict runtime evidence unbackedStaked (signer accuser) (passive operator) (passive conviction)
    (passive incinerator) (passive systemProgram) unbackedOperator contradiction

def unbackedConvicted : Ledger := convictUnbacked.toOption.getD unbackedStaked

lemma richGenesis_genesis : Genesis runtime richGenesis where
  supply := (supply_ledgerOf_le _).trans_lt (by decide)
  vacant := owner_ledgerOf (by decide) (by decide)

lemma unbacked_evaluates :
    (dispatch runtime evidence richGenesis registerAccounts
      (.register Receipts.Vectors.operatorPubkey 18446744073709551615)).toBool = true ∧
    (dispatch runtime evidence unbacked stakeAccounts
      (.stake 14757395258967641292)).toBool = true ∧
    convictUnbacked.toBool = true ∧
    ((unbackedStaked operator).owner = programId ∧
      OperatorAccount.read (unbackedStaked operator).data = .ok unbackedOperator) ∧
    ((unbackedConvicted operator).owner = programId ∧
      OperatorAccount.read (unbackedConvicted operator).data = .ok ⟨authority,
        Receipts.Vectors.operatorPubkey, 0, 14757395258967641292, 250000000000, 0, 255⟩) ∧
    held unbackedStaked operator = 14757395258967641292 + 1628639 ∧
    held unbackedConvicted operator = 1628639 := by decide +kernel

lemma recordAt_unbackedStaked :
    recordAt runtime unbackedStaked operator = some (.operator unbackedOperator) :=
  recordAt_operator.mpr unbacked_evaluates.2.2.2.1

lemma process_unbackedConvicted :
    process runtime evidence unbackedStaked convictAccounts Instruction.proveEquivocation.write =
      .ok unbackedConvicted := by
  have hconvict : convictUnbacked = .ok unbackedConvicted := by
    obtain ⟨l', hl⟩ := toBool_eq_true.mp unbacked_evaluates.2.2.1
    rw [unbackedConvicted, hl]
    rfl
  exact process_convict recordAt_unbackedStaked rfl hconvict

lemma trace_unbackedConvicted : ∃ t, Trace (Happens runtime) ⟨6150410, richGenesis⟩ t
    ⟨6150410, unbackedConvicted⟩ ∧
    ⟨⟨6150410, unbackedStaked⟩, .instruction evidence convictAccounts .proveEquivocation,
      ⟨6150410, unbackedConvicted⟩⟩ ∈ t := by
  have hregister : Happens runtime (.instruction evidence registerAccounts
      (.register Receipts.Vectors.operatorPubkey 18446744073709551615))
      ⟨6150410, richGenesis⟩ ⟨6150410, unbacked⟩ :=
    happens_process rfl (process_after unbacked_evaluates.1)
  have hstake : Happens runtime (.instruction evidence stakeAccounts (.stake 14757395258967641292))
      ⟨6150410, unbacked⟩ ⟨6150410, unbackedStaked⟩ :=
    happens_process rfl (process_after unbacked_evaluates.2.1)
  have hconvict : Happens runtime (.instruction evidence convictAccounts .proveEquivocation)
      ⟨6150410, unbackedStaked⟩ ⟨6150410, unbackedConvicted⟩ :=
    happens_process rfl process_unbackedConvicted
  exact ⟨_, ((Trace.nil.snoc hregister).snoc hstake).snoc hconvict, by simp⟩

end Vectors

/-- Slashing a bond that wrapped around when it was registered burns the stake:
14757395258967641292 lamports are staked before and after, and 1628639 are left. -/
theorem unbacked_slash_spends_stake :
    (∃ t, Run Vectors.runtime t ⟨6150410, Vectors.unbackedConvicted⟩ ∧
      ⟨⟨6150410, Vectors.unbackedStaked⟩,
        .instruction Vectors.evidence Vectors.convictAccounts .proveEquivocation,
        ⟨6150410, Vectors.unbackedConvicted⟩⟩ ∈ t) ∧
    held Vectors.unbackedStaked Vectors.operator = 14757395258967641292 + 1628639 ∧
    (∃ b, recordAt Vectors.runtime Vectors.unbackedConvicted Vectors.operator =
      some (.operator b) ∧ b.poolStaked = 14757395258967641292) ∧
    held Vectors.unbackedConvicted Vectors.operator = 1628639 ∧
    ¬Unspent Vectors.runtime Vectors.unbackedStaked Vectors.unbackedConvicted Vectors.operator := by
  obtain ⟨_, _, _, _, hafter, hstake, hheld⟩ := Vectors.unbacked_evaluates
  obtain ⟨t, htrace, hx⟩ := Vectors.trace_unbackedConvicted
  refine ⟨⟨t, ⟨_, Vectors.richGenesis_genesis, htrace⟩, hx⟩, hstake,
    ⟨_, recordAt_operator.mpr hafter, rfl⟩, hheld, ?_⟩
  intro hunspent
  obtain ⟨b, hb, hpool, _, hfloor⟩ := hunspent _ Vectors.recordAt_unbackedStaked
  rw [hheld, hpool] at hfloor
  have hstaked : Vectors.unbackedOperator.poolStaked.toNat = 14757395258967641292 := by decide
  omega

end Blitz.Program
