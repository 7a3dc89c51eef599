import Blitz.ProgramDonations

/-! The unchecked arithmetic of the pool, step by step: in a run whose registrations fit
their bonds no sum, product or cast of a committed instruction leaves its type. -/
namespace Blitz.Slashing
open CheckedArith

/-- `settle`: the entry is in the past, the product fits a `u128`, the cast keeps the
quotient and the banked reward has room for it. -/
structure SettlesExactly (p : Position) (index : BitVec 128) : Prop where
  entry_le : p.entryIndex ≤ index
  product : p.staked.toNat * (index.toNat - p.entryIndex.toNat) < 2 ^ 128
  cast : (p.accrued index).toNat =
    p.staked.toNat * (index.toNat - p.entryIndex.toNat) / Position.scale
  sum : p.reward.toNat + (p.accrued index).toNat < 2 ^ 64

/-- `Split::of`: the products fit a `u128`, the casts keep the quotients, the burn does not
underflow and the total is what was taken. -/
structure SplitsExactly (slashed : UInt64) : Prop where
  victim_product : slashed.toNat * victimBps.toNat < 2 ^ 128
  pool_product : slashed.toNat * poolBps.toNat < 2 ^ 128
  victim_cast : (Split.of slashed).victim.toNat =
    slashed.toNat * victimBps.toNat / bpsDenominator.toNat
  pool_cast : (Split.of slashed).pool.toNat =
    slashed.toNat * poolBps.toNat / bpsDenominator.toNat
  burn : (Split.of slashed).victim.toNat + (Split.of slashed).pool.toNat ≤ slashed.toNat
  total_lt : (Split.of slashed).burn.toNat + (Split.of slashed).victim.toNat +
    (Split.of slashed).pool.toNat < 2 ^ 64
  total : (Split.of slashed).total = slashed

/-- `distribute`: the product and the index fit a `u128`; what a pool without stakers can
not take fits the burn. -/
structure DistributesExactly (pool : Pool) (split : Split) : Prop where
  product : split.pool.toNat * Position.scale < 2 ^ 128
  index : pool.rewardIndex.toNat + split.pool.toNat * Position.scale / pool.staked.toNat < 2 ^ 128
  moved : (pool.distribute split).2.rewardIndex.toNat =
    pool.rewardIndex.toNat + split.pool.toNat * Position.scale / pool.staked.toNat
  burned : split.burn.toNat + split.pool.toNat < 2 ^ 64

lemma settlesExactly {p : Position} {index : BitVec 128} (hentry : p.entryIndex ≤ index)
    (howed : p.toShare.owed Position.scale index.toNat < Position.scale * 2 ^ 64) :
    SettlesExactly p index := by
  have hwidth : Position.scale * 2 ^ 64 < 2 ^ 128 := by decide
  have hpart : p.staked.toNat * (index.toNat - p.entryIndex.toNat) <
      Position.scale * 2 ^ 64 := by
    simp only [RewardIndex.Share.owed, Position.toShare] at howed
    omega
  have hcast := Position.accrued_toNat hpart
  refine ⟨hentry, hpart.trans hwidth, hcast, ?_⟩
  have hclaim := RewardIndex.Share.claimable_le_owed Position.scale index.toNat p.toShare
  have hlt : p.toShare.claimable Position.scale index.toNat < 2 ^ 64 :=
    Nat.lt_of_mul_lt_mul_left (hclaim.trans_lt howed)
  rw [hcast]
  exact hlt

lemma settlesExactly_fresh (index : BitVec 128) : SettlesExactly ⟨0, 0, 0⟩ index := by
  apply settlesExactly
  · exact BitVec.le_def.mpr (Nat.zero_le _)
  · simp [RewardIndex.Share.owed, Position.toShare, Position.scale]

theorem splitsExactly (slashed : UInt64) : SplitsExactly slashed := by
  have hlt := slashed.toNat_lt
  have hvictim : victimBps.toNat = 3000 := rfl
  have hpool : poolBps.toNat = 2000 := rfl
  have hden : bpsDenominator.toNat = 10000 := rfl
  have hsum := Split.of_total slashed
  unfold Split.Of at hsum
  refine ⟨?_, ?_, ?_, ?_, ?_, ?_, ?_⟩
  · rw [hvictim]
    omega
  · rw [hpool]
    omega
  · rw [hden]
    exact Split.share_toNat (by decide)
  · rw [hden]
    exact Split.share_toNat (by decide)
  · omega
  · omega
  · apply UInt64.toNat_inj.mp
    rw [Split.total, toNat_add_of_lt, toNat_add_of_lt]
    · exact hsum
    · omega
    · rw [toNat_add_of_lt] <;> omega

lemma distributesExactly {pool : Pool} (hindex : pool.rewardIndex = 0) (slashed : UInt64) :
    DistributesExactly pool (Split.of slashed) := by
  have hp := (Split.of slashed).pool.toNat_lt
  have hsum := Split.of_total slashed
  have hlt := slashed.toNat_lt
  unfold Split.Of at hsum
  have hproduct : (Split.of slashed).pool.toNat * Position.scale < 2 ^ 128 := by
    unfold Position.scale
    omega
  have hzero : pool.rewardIndex.toNat = 0 := by rw [hindex]; rfl
  have hdiv := Nat.div_le_self ((Split.of slashed).pool.toNat * Position.scale) pool.staked.toNat
  refine ⟨hproduct, ?_, ?_, ?_⟩
  · omega
  · exact Pool.distribute_rewardIndex (by omega)
  · omega

end Blitz.Slashing

namespace Blitz.Program
open LittleEndian CheckedArith RewardIndex Slashing Traces

/-- What an instruction adds, multiplies and casts fits, for the records it finds. -/
inductive InRange (rt : Runtime) (l : Ledger) (accounts : List AccountInfo) : Instruction → Prop
  | register {signingKey : Bytes 32} {bond : UInt64}
      (sum : (rt.rent operatorLen).toNat + bond.toNat < 2 ^ 64) :
      InRange rt l accounts (.register signingKey bond)
  | stake {o k : Pubkey} {a : OperatorAccount} {p : PositionAccount} {amount : UInt64}
      (hnamed : namedAt accounts 1 = some o ∧ namedAt accounts 2 = some k)
      (ho : recordAt rt l o = some (.operator a))
      (hk : recordAt rt l k = some (.position p) ∨
        (recordAt rt l k = none ∧ p.position = ⟨0, 0, 0⟩))
      (settle : SettlesExactly p.position a.rewardIndex)
      (position : p.staked.toNat + amount.toNat < 2 ^ 64)
      (pool : a.poolStaked.toNat + amount.toNat < 2 ^ 64) : InRange rt l accounts (.stake amount)
  | unstake {o k : Pubkey} {a : OperatorAccount} {p : PositionAccount} {amount : UInt64}
      (hnamed : namedAt accounts 1 = some o ∧ namedAt accounts 2 = some k)
      (ho : recordAt rt l o = some (.operator a)) (hk : recordAt rt l k = some (.position p))
      (settle : SettlesExactly p.position a.rewardIndex)
      (position : amount.toNat ≤ p.staked.toNat) (pool : amount.toNat ≤ a.poolStaked.toNat)
      (floor : (rt.rent operatorLen).toNat + a.bond.toNat +
        (a.poolStaked.toNat - amount.toNat) < 2 ^ 64) : InRange rt l accounts (.unstake amount)
  | claim {o k : Pubkey} {a : OperatorAccount} {p : PositionAccount}
      (hnamed : namedAt accounts 1 = some o ∧ namedAt accounts 2 = some k)
      (ho : recordAt rt l o = some (.operator a)) (hk : recordAt rt l k = some (.position p))
      (settle : SettlesExactly p.position a.rewardIndex)
      (floor : (rt.rent operatorLen).toNat + a.bond.toNat + a.poolStaked.toNat < 2 ^ 64) :
      InRange rt l accounts .claim
  | proveEquivocation {o : Pubkey} {a : OperatorAccount} (hnamed : namedAt accounts 1 = some o)
      (ho : recordAt rt l o = some (.operator a)) (split : SplitsExactly a.bond)
      (distribute : DistributesExactly a.pool (Split.of a.bond)) :
      InRange rt l accounts .proveEquivocation
  /-- No arithmetic of the pool. -/
  | claimVictim {wireBytes : List UInt8} : InRange rt l accounts (.claimVictim wireBytes)
  /-- No arithmetic of the pool. -/
  | beginUnbond : InRange rt l accounts .beginUnbond
  /-- The floor is taken of the account without its bond. -/
  | withdrawBond {o : Pubkey} {a : OperatorAccount} (hnamed : namedAt accounts 1 = some o)
      (ho : recordAt rt l o = some (.operator a))
      (floor : (rt.rent operatorLen).toNat + 0 + a.poolStaked.toNat < 2 ^ 64) :
      InRange rt l accounts .withdrawBond

section Range
variable {rt : Runtime} {l l' : Ledger} {tx : Transaction} {accounts : List AccountInfo}
  {o k : Pubkey} {a : OperatorAccount} {p : PositionAccount} {i : Instruction}

lemma Inv.floor_lt (h : Inv rt l) (ho : recordAt rt l o = some (.operator a)) :
    (rt.rent operatorLen).toNat + a.bond.toNat + a.poolStaked.toNat < 2 ^ 64 := by
  have hfloor := h.solvent.floor_le ho
  have hheld := held_lt l o
  omega

theorem Inv.entry_le (h : Inv rt l) (ho : recordAt rt l o = some (.operator a))
    (hk : recordAt rt l k = some (.position p)) (hop : p.operator = o) :
    p.entryIndex ≤ a.rewardIndex := by
  have hentry := (h.solvent.operators o a ho).entry_le k
  rw [Solvent.share_position hk hop] at hentry
  exact BitVec.le_def.mpr hentry

lemma Inv.settlesExactly (h : Inv rt l) (ho : recordAt rt l o = some (.operator a))
    (hk : recordAt rt l k = some (.position p)) (hop : p.operator = o) :
    SettlesExactly p.position a.rewardIndex :=
  Slashing.settlesExactly (h.entry_le ho hk hop) (h.solvent.owed_lt (held_lt l o) ho hk hop)

lemma Inv.stake_inRange (h : Inv rt l) {owner operatorInfo positionInfo : AccountInfo}
    {amount : UInt64} {pool : Pool} {position : Position} {rest : List AccountInfo}
    (hlist : accounts = owner :: operatorInfo :: positionInfo :: rest)
    (he : Staked rt l owner operatorInfo positionInfo a p amount pool position l') :
    InRange rt l accounts (.stake amount) := by
  -- A stake arrives in full, so the pool's total stays below the balance that holds it.
  have hfloor := h.solvent.floor_le he.operator
  have hheld := held_lt l' operatorInfo.key
  rw [he.paid] at hheld
  have hpool : a.poolStaked.toNat + amount.toNat < 2 ^ 64 := by omega
  have hnamed : namedAt accounts 1 = some operatorInfo.key ∧
      namedAt accounts 2 = some positionInfo.key := by
    rw [hlist]
    exact ⟨rfl, rfl⟩
  rcases he.opened with hk | ⟨hnone, hfresh, _⟩
  · have hle := h.solvent.staked_le he.operator hk he.home
    exact .stake hnamed he.operator (.inl hk) (h.settlesExactly he.operator hk he.home)
      (by omega) hpool
  · have hzero : p.staked = 0 := congrArg Position.staked hfresh
    refine .stake hnamed he.operator (.inr ⟨hnone, hfresh⟩) ?_ ?_ hpool
    · rw [hfresh]
      exact settlesExactly_fresh _
    · rw [hzero, UInt64.toNat_zero, Nat.zero_add]
      exact amount.toNat_lt

theorem Inv.inRange (h : Inv rt l) (he : Effect rt l tx accounts i l')
    (hfit : ∀ o bond, Registers accounts i o bond →
      (rt.rent operatorLen).toNat + bond.toNat < 2 ^ 64) : InRange rt l accounts i := by
  cases he with
  | @register authority operatorInfo rest a _ hlist he =>
    refine .register (hfit operatorInfo.key a.bond ⟨?_, _, rfl⟩)
    rw [hlist]
    rfl
  | stake hlist he => exact h.stake_inRange hlist he
  | unstake hlist he =>
    obtain ⟨hamount, _⟩ := Pool.unstake_eq_ok.mp he.unstaked
    have hamount' := UInt64.le_iff_toNat_le.mp hamount
    have hle := h.solvent.staked_le he.operator he.found he.home
    have hfloor := h.floor_lt he.operator
    refine .unstake ?_ he.operator he.found (h.settlesExactly he.operator he.found he.home) hamount'
      (hamount'.trans hle) (by omega)
    rw [hlist]
    exact ⟨rfl, rfl⟩
  | claim hlist he =>
    refine .claim ?_ he.operator he.found (h.settlesExactly he.operator he.found he.home)
      (h.floor_lt he.operator)
    rw [hlist]
    exact ⟨rfl, rfl⟩
  | proveEquivocation hlist hburn he =>
    -- The index has not moved while the bond is there.
    have hindex := h.solvent.index _ _ he.operator he.bonded
    refine .proveEquivocation ?_ he.operator (splitsExactly _) (distributesExactly hindex _)
    rw [hlist]
    rfl
  | claimVictim => exact .claimVictim
  | beginUnbond => exact .beginUnbond
  | beginUnbondAgain => exact .beginUnbond
  | withdrawBond hlist he =>
    have hfloor := h.floor_lt he.operator
    refine .withdrawBond ?_ he.operator (by omega)
    rw [hlist]
    rfl

end Range

section Runs
variable {rt : Runtime} {t : List (Entry Moment Event)} {m : Moment}

lemma Run.inv (h : Run rt t m) (hfit : ∀ o, Backed rt t o) :
    Inv rt m.ledger ∧ ∀ x ∈ t, Inv rt x.before.ledger := by
  have hall : Backed rt t = fun _ => True := by
    funext o
    exact eq_true (hfit o)
  obtain ⟨hend, hentries⟩ := h.invOn
  rw [hall] at hend hentries
  refine ⟨inv_iff_invOn.mpr hend, ?_⟩
  intro x hx
  exact inv_iff_invOn.mpr (hentries x hx).1

/-- Every committed instruction of a run whose registrations fit computes in range, and in
every state that is reached no position is ahead of its pool's index. -/
theorem pool_arithmetic_exact (hrun : Run rt t m) (hfit : ∀ o, Backed rt t o) :
    (∀ x ∈ t, ∀ tx accounts i, x.event = .instruction tx accounts i →
      InRange rt x.before.ledger accounts i) ∧
      ∀ k p, recordAt rt m.ledger k = some (.position p) →
        ∃ a, recordAt rt m.ledger p.operator = some (.operator a) ∧
          p.entryIndex ≤ a.rewardIndex := by
  obtain ⟨hend, hentries⟩ := hrun.inv hfit
  constructor
  · intro x hx tx accounts i hevent
    obtain ⟨start, _, htrace⟩ := hrun
    have hstep := htrace.entry hx
    rw [hevent] at hstep
    refine (hentries x hx).inRange hstep.effect.2.2 ?_
    intro o bond hregisters
    refine hfit o x hx bond ?_
    rw [hevent]
    exact hregisters
  · intro k p hk
    obtain ⟨⟨a, ho⟩, _⟩ := hend.solvent.positions k p hk
    exact ⟨a, ho, hend.entry_le ho hk rfl⟩

end Runs

theorem pool_arithmetic_exact_recorded :
    InRange Vectors.runtime Vectors.registered Vectors.stakeAccounts (.stake 3000000000) := by
  have hall := (pool_arithmetic_exact Vectors.run_staked Vectors.backed_staked).1
  exact hall Vectors.stakeEntry (by simp) _ _ _ rfl

end Blitz.Program
