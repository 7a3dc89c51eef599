import Blitz.ProgramTimeline

/-! Staking in front of an evidence transaction: what the latecomer takes out again. -/
namespace Blitz.Program
open LittleEndian CheckedArith RewardIndex Slashing Traces

/-- While its bond stands, no position of an operator that counts has been credited
with anything. -/
def Unrewarded (backed : Pubkey → Prop) (R : Records) : Prop :=
  ∀ o a, backed o → R o = some (.operator a) → a.bond ≠ 0 →
    ∀ k p, R k = some (.position p) → p.operator = o → p.reward = 0

namespace Unrewarded
variable {backed : Pubkey → Prop} {R R' : Records} {o k : Pubkey} {a b : OperatorAccount}
  {p : PositionAccount}

lemma mono (h : Unrewarded backed R) (hle : ∀ k r, R' k = some r → R k = some r) :
    Unrewarded backed R' := by
  intro o a hb ho hbond k p hk hop
  exact h o a hb (hle o _ ho) hbond k p (hle k _ hk) hop

lemma setOperator (h : Unrewarded backed R) (ho : R o = some (.operator a))
    (hbond : b.bond ≠ 0 → a.bond ≠ 0) :
    Unrewarded backed (Function.update R o (some (.operator b))) := by
  intro o' a' hb ho' hbond' k p hk hop
  rcases Solvent.update_eq_some hk with ⟨_, hr⟩ | ⟨_, hold⟩
  · cases hr
  · rcases Solvent.update_eq_some ho' with ⟨rfl, hr⟩ | ⟨_, hother⟩
    · cases hr
      exact h o' a hb ho (hbond hbond') k p hold hop
    · exact h o' a' hb hother hbond' k p hold hop

lemma setPosition (h : Unrewarded backed R)
    (hp : ∀ a, backed p.operator → R p.operator = some (.operator a) → a.bond ≠ 0 → p.reward = 0) :
    Unrewarded backed (Function.update R k (some (.position p))) := by
  intro o' a' hb ho' hbond' j q hj hop
  rcases Solvent.update_eq_some ho' with ⟨_, hr⟩ | ⟨_, ho'⟩
  · cases hr
  · rcases Solvent.update_eq_some hj with ⟨_, hr⟩ | ⟨_, hj⟩
    · cases hr
      subst hop
      exact hp a' hb ho' hbond'
    · exact h o' a' hb ho' hbond' j q hj hop

lemma setConviction {c : ConvictionAccount} (h : Unrewarded backed R) :
    Unrewarded backed (Function.update R k (some (.conviction c))) := by
  intro o' a' hb ho' hbond' j q hj hop
  rcases Solvent.update_eq_some ho' with ⟨_, hr⟩ | ⟨_, ho'⟩
  · cases hr
  · rcases Solvent.update_eq_some hj with ⟨_, hr⟩ | ⟨_, hj⟩
    · cases hr
    · exact h o' a' hb ho' hbond' j q hj hop

end Unrewarded

section FrontRunning
variable {rt : Runtime} {backed : Pubkey → Prop} {l l' l₁ l₂ l₃ l₄ : Ledger} {tx : Transaction}
  {accounts : List AccountInfo} {i : Instruction} {o k X : Pubkey} {a : OperatorAccount}
  {p : PositionAccount} {amount : UInt64} {t : List (Entry Moment Event)} {m : Moment}

lemma Unrewarded.settled (hu : Unrewarded backed (recordAt rt l)) (hinv : InvOn rt backed l)
    (ho : recordAt rt l o = some (.operator a)) (hop : p.operator = o)
    (hreward : backed o → a.bond ≠ 0 → p.reward = 0) (pool : Pool) {position : Position}
    (hposition : position.reward = (p.position.settle a.rewardIndex).reward) :
    Unrewarded backed (Function.update (Function.update (recordAt rt l) o
      (some (.operator (a.setPool pool)))) k (some (.position (p.setPosition position)))) := by
  have hset : Unrewarded backed (Function.update (recordAt rt l) o
      (some (.operator (a.setPool pool)))) := hu.setOperator ho fun hbond => hbond
  refine hset.setPosition ?_
  intro b hb hrecord hbond
  change backed p.operator at hb
  change Function.update _ o _ p.operator = _ at hrecord
  rw [hop] at hb hrecord
  rw [Function.update_self, Option.some.injEq, Record.operator.injEq] at hrecord
  rw [← hrecord] at hbond
  have hindex := hinv.solvent.index o a (visible_operator hb ho) hbond
  change position.reward = 0
  rw [hposition]
  change p.reward + p.position.accrued a.rewardIndex = 0
  rw [hreward hb hbond, hindex, Position.accrued_zero]
  rfl

theorem Effect.unrewarded (h : Effect rt l tx accounts i l') (hinv : InvOn rt backed l)
    (hu : Unrewarded backed (recordAt rt l)) : Unrewarded backed (recordAt rt l') := by
  cases h with
  | @register authority operatorInfo rest b _ hlist h =>
    rw [h.records]
    intro o a hb ho hbond k p hk hop
    rcases Solvent.update_eq_some hk with ⟨_, hr⟩ | ⟨_, hk⟩
    · cases hr
    · rcases Solvent.update_eq_some ho with ⟨rfl, _⟩ | ⟨_, ho⟩
      · -- A position that pointed here would have an operator here.
        obtain ⟨⟨c, hc⟩, _⟩ := hinv.solvent.positions k p (visible_position hb hk hop)
        rw [hop, visible_eq_none h.vacant] at hc
        cases hc
      · exact hu o a hb ho hbond k p hk hop
  | @stake owner operatorInfo positionInfo rest b q amount pool position _ hlist h =>
    rw [h.records]
    refine hu.settled hinv h.operator h.home ?_ pool ?_
    · intro hb hbond
      rcases h.opened with hk | ⟨_, hfresh, _⟩
      · exact hu _ b hb h.operator hbond _ q hk h.home
      · exact congrArg Position.reward hfresh
    · rw [(Pool.stake_eq_ok.mp h.staked).2.2.2]
      rfl
  | @unstake owner operatorInfo positionInfo rest b q amount pool position _ hlist h =>
    rw [h.records]
    refine hu.settled hinv h.operator h.home ?_ pool ?_
    · intro hb hbond
      exact hu _ b hb h.operator hbond _ q h.found h.home
    · rw [(Pool.unstake_eq_ok.mp h.unstaked).2.2.2]
      rfl
  | claim hlist h =>
    rw [h.records]
    exact hu.setPosition fun _ _ _ _ => rfl
  | proveEquivocation hlist hburn h =>
    rw [h.records]
    exact (hu.setOperator h.operator fun hb => absurd rfl hb).setConviction
  | claimVictim hlist h =>
    rw [h.records]
    exact hu.setConviction
  | beginUnbond hlist h =>
    rw [h.records]
    exact hu.setOperator h.operator fun hb => hb
  | beginUnbondAgain => exact hu
  | withdrawBond hlist h =>
    rw [h.records]
    exact hu.setOperator h.operator fun hb => absurd rfl hb

lemma Happens.unrewarded {e : Event} {n : Moment} (h : Happens rt e m n)
    (hinv : InvOn rt backed m.ledger) (hu : Unrewarded backed (recordAt rt m.ledger)) :
    Unrewarded backed (recordAt rt n.ledger) := by
  cases h with
  | instruction data hslot hread hp =>
    exact (effect_of_dispatch (process_of_read hread hp)).unrewarded hinv hu
  | external he => exact hu.mono fun k r hk => he.record hk
  | tick => exact hu

theorem Run.unrewarded (h : Run rt t m) : Unrewarded (Backed rt t) (recordAt rt m.ledger) := by
  have hinv := h.invOn.2
  obtain ⟨start, hg, htrace⟩ := h
  refine htrace.invariant (I := fun s => Unrewarded (Backed rt t) (recordAt rt s.ledger)) ?_ ?_
  · intro o a _ ho
    rw [recordAt_of_owner_ne (hg.vacant o)] at ho
    cases ho
  · intro x hx hstep hu
    exact hstep.unrewarded (hinv x hx).1 hu

/-- The accounts a staker's instruction begins with. -/
def OnPosition (accounts : List AccountInfo) (owner operator position : Pubkey) : Prop :=
  namedAt accounts 0 = some owner ∧ namedAt accounts 1 = some operator ∧
    namedAt accounts 2 = some position

lemma OnPosition.keys {owner operatorInfo positionInfo : AccountInfo} {rest : List AccountInfo}
    (h : OnPosition accounts X o k)
    (hlist : accounts = owner :: operatorInfo :: positionInfo :: rest) :
    owner.key = X ∧ operatorInfo.key = o ∧ positionInfo.key = k := by
  rw [hlist] at h
  obtain ⟨hX, hO, hK⟩ := h
  exact ⟨Option.some.inj hX, Option.some.inj hO, Option.some.inj hK⟩

/-- What the pool's share of the bond comes to for `amount` staked beside `staked`. -/
def latecomerReward (bond staked amount : ℕ) : ℕ :=
  amount * (bond * 2000 / 10000 * Position.scale / (staked + amount)) / Position.scale

lemma stake_of_latecomer (hinv : InvOn rt backed l) (hu : Unrewarded backed (recordAt rt l))
    (hb : backed o) (ho : recordAt rt l o = some (.operator a)) (hbond : a.bond ≠ 0)
    (hnew : ∀ k p, recordAt rt l k = some (.position p) → p.owner = X → p.operator = o →
      p.staked = 0)
    (h : process rt tx l accounts (Instruction.stake amount).write = .ok l')
    (hon : OnPosition accounts X o k) :
    X ≠ o ∧ ∃ p pool, recordAt rt l' o = some (.operator (a.setPool pool)) ∧
      recordAt rt l' k = some (.position p) ∧ p.owner = X ∧ p.operator = o ∧
      p.position = ⟨amount, 0, 0⟩ ∧ pool.rewardIndex = 0 ∧
      pool.staked.toNat = a.poolStaked.toNat + amount.toNat := by
  rw [process_write] at h
  cases effect_of_dispatch h with
  | @stake owner operatorInfo positionInfo rest b q _ pool position _ hlist h =>
    obtain ⟨rfl, rfl, rfl⟩ := hon.keys hlist
    obtain rfl := operator_inj h.operator ho
    have hindex := hinv.solvent.index _ b (visible_operator hb ho) hbond
    obtain ⟨_, _, hpool, hposition⟩ := Pool.stake_eq_ok.mp h.staked
    have hkey : operatorInfo.key ≠ positionInfo.key := h.key_ne h.operator (by simp)
    have hempty : q.staked = 0 ∧ q.reward = 0 := by
      rcases h.opened with hk | ⟨_, hfresh, _⟩
      · exact ⟨hnew _ q hk h.owned h.home, hu _ b hb ho hbond _ q hk h.home⟩
      · exact ⟨congrArg Position.staked hfresh, congrArg Position.reward hfresh⟩
    have hfloor := hinv.solvent.floor_le (visible_operator hb ho)
    have hpaid := h.paid
    have hfit := held_lt l' operatorInfo.key
    have hpoolNat : pool.staked.toNat = b.poolStaked.toNat + amount.toNat := by
      rw [hpool]
      exact toNat_add_of_lt (show b.poolStaked.toNat + amount.toNat < 2 ^ 64 by omega)
    refine ⟨?_, q.setPosition position, pool, ?_, ?_, h.owned, h.home, ?_, ?_, hpoolNat⟩
    · intro hsame
      exact not_system_of_record h.operator (hsame ▸ h.system)
    · rw [h.records, Function.update_of_ne hkey, Function.update_self]
    · rw [h.records, Function.update_self]
    · change position = _
      rw [hposition]
      change (⟨q.staked + amount, b.rewardIndex, q.reward + q.position.accrued b.rewardIndex⟩ :
        Position) = _
      rw [hempty.1, hempty.2, hindex, Position.accrued_zero]
      simp
    · rw [hpool]
      exact hindex

lemma records_of_conviction
    (h : process rt tx l accounts Instruction.proveEquivocation.write = .ok l')
    (hnamed : namedAt accounts 1 = some o) (ho : recordAt rt l o = some (.operator a))
    (hk : recordAt rt l k = some (.position p)) :
    recordAt rt l' o = some (.operator (slashedOperator a)) ∧
      recordAt rt l' k = some (.position p) := by
  obtain ⟨accuser, operatorInfo, convictionInfo, c, rfl, _, hc⟩ := convicted_of_process h hnamed ho
  refine ⟨?_, ?_⟩
  · rw [hc.records, Function.update_of_ne hc.key_ne, Function.update_self]
  · rw [hc.records, Function.update_of_ne (ne_of_vacant hk hc.vacant),
      Function.update_of_ne (ne_of_operator_position ho hk).symm, hk]

lemma pays_of_claim (h : process rt tx l accounts Instruction.claim.write = .ok l')
    (hon : OnPosition accounts X o k) (ho : recordAt rt l o = some (.operator a))
    (hk : recordAt rt l k = some (.position p)) :
    Pays l o X (p.position.claimable a.rewardIndex) l' := by
  rw [process_write] at h
  cases effect_of_dispatch h with
  | @claim owner operatorInfo positionInfo rest b q _ hlist h =>
    obtain ⟨rfl, rfl, rfl⟩ := hon.keys hlist
    obtain rfl := operator_inj h.operator ho
    obtain rfl : q = p := Record.position.inj (Option.some.inj (h.found.symm.trans hk))
    exact h.paid

lemma pays_of_unstake
    (h : process rt tx l accounts (Instruction.unstake amount).write = .ok l')
    (hon : OnPosition accounts X o k) : Pays l o X amount l' := by
  rw [process_write] at h
  cases effect_of_dispatch h with
  | @unstake owner operatorInfo positionInfo rest b q _ pool position _ hlist h =>
    obtain ⟨rfl, rfl, rfl⟩ := hon.keys hlist
    exact h.paid

lemma InvOn.process_other (hinv : InvOn rt backed l)
    (hi : ∀ signingKey bond, i ≠ .register signingKey bond)
    (h : process rt tx l accounts i.write = .ok l') : InvOn rt backed l' := by
  rw [process_write] at h
  refine hinv.effect (effect_of_dispatch h) ?_
  intro o bond hregisters
  obtain ⟨_, signingKey, he⟩ := hregisters
  exact absurd he (hi signingKey bond)

/-- Whoever stakes right in front of a conviction gets the stake back and a part of
the pool's share of the bond, which is nothing exactly when it rounds to nothing. -/
theorem latecomer_receives_iff {tx₁ tx₂ tx₃ tx₄ : Transaction}
    {accounts₁ accounts₂ accounts₃ accounts₄ : List AccountInfo}
    (hrun : Run rt t m) (hbacked : Backed rt t o)
    (ho : recordAt rt m.ledger o = some (.operator a)) (hbond : a.bond ≠ 0)
    (hnew : ∀ k p, recordAt rt m.ledger k = some (.position p) → p.owner = X → p.operator = o →
      p.staked = 0)
    (hstake : process rt tx₁ m.ledger accounts₁ (Instruction.stake amount).write = .ok l₁)
    (hon₁ : OnPosition accounts₁ X o k)
    (hprove : process rt tx₂ l₁ accounts₂ Instruction.proveEquivocation.write = .ok l₂)
    (hon₂ : namedAt accounts₂ 1 = some o)
    (hclaim : process rt tx₃ l₂ accounts₃ Instruction.claim.write = .ok l₃)
    (hon₃ : OnPosition accounts₃ X o k)
    (hunstake : process rt tx₄ l₃ accounts₄ (Instruction.unstake amount).write = .ok l₄)
    (hon₄ : OnPosition accounts₄ X o k) :
    held l₄ X = held l₂ X + amount.toNat +
        latecomerReward a.bond.toNat a.poolStaked.toNat amount.toNat ∧
      (held l₄ X ≤ held l₂ X + amount.toNat ↔
        amount.toNat * (a.bond.toNat * 2000 / 10000 * Position.scale /
          (a.poolStaked.toNat + amount.toNat)) < Position.scale) := by
  have hinv := hrun.invOn.1
  obtain ⟨hne, p, pool, ho₁, hk₁, _, hop, hposition, hindex, hpool⟩ :=
    stake_of_latecomer hinv hrun.unrewarded hbacked ho hbond hnew hstake hon₁
  obtain ⟨ho₂, hk₂⟩ := records_of_conviction hprove hon₂ ho₁ hk₁
  have hinv₂ := (hinv.process_other (by simp) hstake).process_other (by simp) hprove
  have hcredit := (pays_of_claim hclaim hon₃ ho₂ hk₂).credit hne.symm
  have hcredit' := (pays_of_unstake hunstake hon₄).credit hne.symm
  rw [hinv₂.claimable_toNat hbacked ho₂ hk₂ hop, hposition] at hcredit
  -- The index the slash leaves is the pool's share per unit of the enlarged pool.
  have hshare : (slashedOperator (a.setPool pool)).rewardIndex.toNat =
      a.bond.toNat * 2000 / 10000 * Position.scale / (a.poolStaked.toNat + amount.toNat) := by
    rw [← hpool, ← Split.of_pool]
    exact Pool.distribute_index hindex
  have hreward : Share.claimable Position.scale (slashedOperator (a.setPool pool)).rewardIndex.toNat
      (Position.toShare ⟨amount, 0, 0⟩) =
      latecomerReward a.bond.toNat a.poolStaked.toNat amount.toNat := by
    rw [hshare]
    simp [Share.claimable, Position.toShare, latecomerReward]
  rw [hreward] at hcredit
  have hscale : 0 < Position.scale := by decide
  refine ⟨by omega, ?_⟩
  rw [← Nat.div_eq_zero_iff_lt hscale]
  change _ ↔ latecomerReward a.bond.toNat a.poolStaked.toNat amount.toNat = 0
  omega

lemma no_position_of_register {signingKey : Pubkey} {bond : UInt64} (hg : Genesis rt l)
    (h : process rt tx l accounts (Instruction.register signingKey bond).write = .ok l') :
    recordAt rt l' k ≠ some (.position p) := by
  rw [process_write] at h
  intro hk
  cases effect_of_dispatch h with
  | register hlist h =>
    rw [h.records] at hk
    rcases Solvent.update_eq_some hk with ⟨_, hr⟩ | ⟨_, hold⟩
    · cases hr
    · rw [recordAt_of_owner_ne (hg.vacant k)] at hold
      cases hold

end FrontRunning

namespace Vectors

def claimed : Ledger := after convicted stakeAccounts .claim

def exited : Ledger := after claimed stakeAccounts (.unstake 3000000000)

lemma exit_evaluates :
    (dispatch runtime evidence convicted stakeAccounts .claim).toBool = true ∧
    (dispatch runtime evidence claimed stakeAccounts (.unstake 3000000000)).toBool = true ∧
    held exited staker = held convicted staker + 3000000000 + 1999999999 := by decide +kernel

lemma process_claimed :
    process runtime evidence convicted stakeAccounts Instruction.claim.write = .ok claimed :=
  process_after exit_evaluates.1

lemma process_exited :
    process runtime evidence claimed stakeAccounts (Instruction.unstake 3000000000).write =
      .ok exited := process_after exit_evaluates.2.1

lemma onPosition_stakeAccounts : OnPosition stakeAccounts staker operator position :=
  ⟨rfl, rfl, rfl⟩

lemma run_registered : Run runtime [registerEntry] ⟨6150410, registered⟩ :=
  ⟨_, genesis_genesis, trace_registered⟩

lemma backed_registered (o : Pubkey) : Backed runtime [registerEntry] o :=
  (backed_convicted o).mono (by simp)

lemma unstaked_registered (k : Pubkey) (p : PositionAccount)
    (hk : recordAt runtime registered k = some (.position p)) : p.staked = 0 :=
  absurd hk (no_position_of_register genesis_genesis process_registered)

end Vectors

theorem latecomer_receives_iff_recorded :
    held Vectors.exited Vectors.staker = held Vectors.convicted Vectors.staker + 3000000000 +
        latecomerReward 10000000000 0 3000000000 ∧
      (held Vectors.exited Vectors.staker ≤ held Vectors.convicted Vectors.staker + 3000000000 ↔
        3000000000 * (10000000000 * 2000 / 10000 * Position.scale / (0 + 3000000000)) <
          Position.scale) := by
  have hmain := latecomer_receives_iff Vectors.run_registered (Vectors.backed_registered _)
    Vectors.recordAt_registered (by decide)
    (fun k p hk _ _ => Vectors.unstaked_registered k p hk)
    Vectors.process_staked Vectors.onPosition_stakeAccounts Vectors.process_convicted rfl
    Vectors.process_claimed Vectors.onPosition_stakeAccounts Vectors.process_exited
    Vectors.onPosition_stakeAccounts
  simp only [Vectors.registeredOperator, UInt64.reduceToNat] at hmain
  exact hmain

/-- The recorded staker joins in front of the evidence and leaves with the pool's
whole share, but for one lamport of rounding. -/
theorem latecomer_takes_pool_share :
    Run Vectors.runtime [Vectors.registerEntry] ⟨6150410, Vectors.registered⟩ ∧
    (∀ k p, recordAt Vectors.runtime Vectors.registered k ≠ some (.position p)) ∧
    process Vectors.runtime Vectors.evidence Vectors.registered Vectors.stakeAccounts
      (Instruction.stake 3000000000).write = .ok Vectors.staked ∧
    process Vectors.runtime Vectors.evidence Vectors.staked Vectors.convictAccounts
      Instruction.proveEquivocation.write = .ok Vectors.convicted ∧
    process Vectors.runtime Vectors.evidence Vectors.convicted Vectors.stakeAccounts
      Instruction.claim.write = .ok Vectors.claimed ∧
    process Vectors.runtime Vectors.evidence Vectors.claimed Vectors.stakeAccounts
      (Instruction.unstake 3000000000).write = .ok Vectors.exited ∧
    held Vectors.exited Vectors.staker =
      held Vectors.convicted Vectors.staker + 3000000000 + 1999999999 := by
  refine ⟨Vectors.run_registered, ?_, Vectors.process_staked, Vectors.process_convicted,
    Vectors.process_claimed, Vectors.process_exited, Vectors.exit_evaluates.2.2⟩
  intro k p
  exact no_position_of_register Vectors.genesis_genesis Vectors.process_registered

end Blitz.Program
