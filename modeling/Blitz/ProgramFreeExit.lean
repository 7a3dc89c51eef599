import Blitz.ProgramRuns
import Blitz.ProgramBond

/-! The program on a live chain: every state any run reaches is solvent, and in
every such state a staker's exit goes through and pays exactly what is due. -/
namespace Blitz.Program
open LittleEndian CheckedArith RewardIndex Slashing

/-- What everybody else can do between two instructions of the program. Only the
program writes or debits its funded accounts, an account without lamports may be
purged, an account assigned to the program arrives zeroed, and the total of all
lamports stays a `u64`. -/
structure External (rt : Runtime) (l l' : Ledger) : Prop where
  supply : l'.supply < 2 ^ 64
  kept : ∀ k, (l k).owner = rt.programId → (l k).lamports ≠ 0 →
    (l' k).owner = rt.programId ∧ (l' k).data = (l k).data ∧ held l k ≤ held l' k
  purged : ∀ k, (l k).owner = rt.programId → (l k).lamports = 0 → (l' k).owner = rt.programId →
    (l' k).data = (l k).data ∨ ∃ n, (l' k).data = List.replicate n 0
  assigned : ∀ k, (l k).owner ≠ rt.programId → (l' k).owner = rt.programId →
    ∃ n, (l' k).data = List.replicate n 0

inductive Step (rt : Runtime) : Ledger → Ledger → Prop
  | instruction {l l' : Ledger} (tx : Transaction) (accounts : List AccountInfo) (data : List UInt8)
      (hfit : ∀ signingKey bond, Instruction.read data = .ok (.register signingKey bond) →
        (rt.rent operatorLen).toNat + bond.toNat < 2 ^ 64)
      (h : process rt tx l accounts data = .ok l') : Step rt l l'
  | external {l l' : Ledger} (h : External rt l l') : Step rt l l'

/-- The program has just been deployed: no account is its own. The chain counts
all lamports there are in one `u64`. -/
structure Genesis (rt : Runtime) (l : Ledger) : Prop where
  supply : l.supply < 2 ^ 64
  vacant : ∀ k, (l k).owner ≠ rt.programId

section Runs
variable {rt : Runtime} {l l' g : Ledger} {o k : Pubkey} {a : OperatorAccount} {p : PositionAccount}

lemma Genesis.invOn (h : Genesis rt l) (backed : Pubkey → Prop) : InvOn rt backed l := by
  have hnone (j : Pubkey) : visible backed (recordAt rt l) j = none :=
    visible_eq_none (recordAt_of_owner_ne (h.vacant j))
  refine ⟨h.supply, ?_, ?_, ?_, ?_⟩ <;> intro j r hj <;> rw [hnone] at hj <;> cases hj

lemma Genesis.inv (h : Genesis rt l) : Inv rt l := inv_iff_invOn.mpr (h.invOn _)

lemma External.record (h : External rt l l') {r : Record} (hk : recordAt rt l' k = some r) :
    recordAt rt l k = some r := by
  have howner' := owner_of_recordAt hk
  have hnotBlank : ¬∃ n, (l' k).data = List.replicate n 0 := by
    intro hblank
    obtain ⟨n, hn⟩ := hblank
    rw [recordAt, if_pos howner', hn, decode_blank] at hk
    cases hk
  by_cases howner : (l k).owner = rt.programId
  · have hdata : (l' k).data = (l k).data := by
      by_cases hzero : (l k).lamports = 0
      · exact (h.purged k howner hzero howner').resolve_right hnotBlank
      · exact (h.kept k howner hzero).2.1
    rwa [← recordAt_congr (howner'.trans howner.symm) hdata]
  · exact absurd (h.assigned k howner howner') hnotBlank

lemma External.record_kept (h : External rt l l') {r : Record} (hk : recordAt rt l k = some r)
    (hfunded : (l k).lamports ≠ 0) :
    recordAt rt l' k = some r ∧ (l' k).data = (l k).data ∧ held l k ≤ held l' k := by
  have howner := owner_of_recordAt hk
  obtain ⟨howner', hdata, hle⟩ := h.kept k howner hfunded
  refine ⟨?_, hdata, hle⟩
  rw [recordAt_congr (howner'.trans howner.symm) hdata, hk]

section Backed
variable {backed : Pubkey → Prop}

lemma InvOn.funded (h : InvOn rt backed l) {r : Record}
    (hk : visible backed (recordAt rt l) k = some r) : (l k).lamports ≠ 0 := by
  have hpos : 0 < held l k := by
    cases r with
    | operator a =>
      have hfloor := h.solvent.floor_le hk
      have := rt.rent_pos operatorLen
      omega
    | position p => exact (h.solvent.positions k p hk).2.2
    | conviction c =>
      have howed := h.solvent.convictions k c hk
      have := rt.rent_pos convictionLen
      omega
  intro hzero
  rw [held, hzero] at hpos
  exact absurd hpos (by decide)

theorem InvOn.external (h : InvOn rt backed l) (he : External rt l l') : InvOn rt backed l' := by
  have hkept {j : Pubkey} {r : Record} (hj : visible backed (recordAt rt l) j = some r) :=
    he.record_kept (visible_eq_some.mp hj).1 (h.funded hj)
  have hrecords : visible backed (recordAt rt l') = visible backed (recordAt rt l) := by
    funext j
    apply Option.ext
    intro r
    constructor
    · intro hj
      obtain ⟨hr, hshown⟩ := visible_eq_some.mp hj
      exact visible_eq_some.mpr ⟨he.record hr, hshown⟩
    · intro hj
      exact visible_eq_some.mpr ⟨(hkept hj).1, (visible_eq_some.mp hj).2⟩
  refine ⟨he.supply, ?_⟩
  rw [hrecords]
  refine h.solvent.mono ?_
  intro j hj
  obtain ⟨r, hr⟩ := Option.ne_none_iff_exists'.mp hj
  exact (hkept hr).2.2

end Backed

lemma Inv.step (h : Inv rt l) (hs : Step rt l l') : Inv rt l' := by
  cases hs with
  | instruction tx accounts data hfit hp => exact h.process hfit hp
  | external he => exact inv_iff_invOn.mpr ((inv_iff_invOn.mp h).external he)

theorem Inv.run (h : Inv rt g) (hrun : Relation.ReflTransGen (Step rt) g l) : Inv rt l := by
  induction hrun with
  | refl => exact h
  | tail _ hs ih => exact ih.step hs

/-- `amount` went from the operator account to the owner. -/
structure Paid (l : Ledger) (operator owner : Pubkey) (amount : UInt64) (l' : Ledger) : Prop where
  debit : held l' operator + amount.toNat = held l operator
  credit : held l' owner = held l owner + amount.toNat

lemma exists_store_of_write {r : Record} {out : List UInt8} (h : r.write (l k).data = .ok out) :
    ∃ l', store l k r.write = .ok l' :=
  ⟨l.setData k out, by simp [store, h, slash, Except.mapError]⟩

lemma exists_store {r : Record} (hk : recordAt rt l k = some r) {r' : Record}
    (hlen : ∀ data, decode data = some r → ∃ out, r'.write data = .ok out) :
    ∃ l', store l k r'.write = .ok l' := by
  have hd : decode (l k).data = some r := by
    rw [recordAt, if_pos (owner_of_recordAt hk)] at hk
    exact hk
  obtain ⟨out, hout⟩ := hlen _ hd
  exact exists_store_of_write hout

lemma exists_store_operator (ho : recordAt rt l o = some (.operator a)) (a' : OperatorAccount) :
    ∃ l', store l o (Record.operator a').write = .ok l' := by
  refine exists_store ho ?_
  intro data hd
  obtain ⟨_, hr, _⟩ := map_eq_ok.mp (decode_operator.mp hd)
  exact ⟨_, writeRecord_eq_ok.mpr ⟨(openRecord_eq_ok.mp hr).1, rfl⟩⟩

lemma exists_store_position (hk : recordAt rt l k = some (.position p)) (p' : PositionAccount) :
    ∃ l', store l k (Record.position p').write = .ok l' := by
  refine exists_store hk ?_
  intro data hd
  obtain ⟨_, hr, _⟩ := map_eq_ok.mp (decode_position.mp hd)
  exact ⟨_, writeRecord_eq_ok.mpr ⟨(openRecord_eq_ok.mp hr).1, rfl⟩⟩

lemma exists_payOut (a : OperatorAccount) {operatorInfo owner : AccountInfo} (amount : UInt64)
    {l₂ : Ledger} (hsupply : l.supply < 2 ^ 64) (hheld : ∀ j, (l₂ j).lamports = (l j).lamports)
    (hne : operatorInfo.key ≠ owner.key)
    (hfloor : (reserved rt a).toNat + amount.toNat ≤ held l operatorInfo.key) :
    ∃ l', payOutFromOperator rt l₂ operatorInfo a owner amount = .ok l' ∧
      Paid l operatorInfo.key owner.key amount l' := by
  -- A guarded payout that respects the floor goes through: two accounts together never hold more
  -- than there is.
  have hsame : l₂.supply = l.supply := by simp only [Ledger.supply, hheld]
  obtain ⟨l', hmove⟩ : ∃ l', l₂.move operatorInfo.key owner.key amount = some l' := by
    refine Ledger.exists_move_of_supply _ (by rwa [hsame]) ?_
    rw [hheld]
    exact (Nat.le_add_left _ _).trans hfloor
  have hm := Ledger.moved_of_move hmove
  refine ⟨l', payOutFromOperator_eq_ok.mpr ⟨by rw [hheld]; exact hfloor, hmove⟩, ?_, ?_⟩
  · rw [held, held, ← hheld]
    exact hm.debit hne
  · rw [held, held, ← hheld]
    exact hm.credit hne

variable {owner operatorInfo positionInfo : AccountInfo}

lemma InvOn.operator_of_position {backed : Pubkey → Prop} (h : InvOn rt backed l)
    (hb : backed p.operator) (hk : recordAt rt l k = some (.position p)) :
    p.operator ≠ p.owner ∧ ∃ a, recordAt rt l p.operator = some (.operator a) := by
  obtain ⟨⟨a, ha⟩, hne, _⟩ := h.solvent.positions _ p (visible_position hb hk rfl)
  exact ⟨hne.symm, a, (visible_eq_some.mp ha).1⟩

lemma Inv.operator_of_position (h : Inv rt l)
    (hk : recordAt rt l positionInfo.key = some (.position p)) (hown : p.owner = owner.key)
    (hop : p.operator = operatorInfo.key) :
    operatorInfo.key ≠ owner.key ∧ ∃ a, recordAt rt l operatorInfo.key = some (.operator a) := by
  rw [← hown, ← hop]
  exact (inv_iff_invOn.mp h).operator_of_position trivial hk

theorem Inv.exists_unstake (h : Inv rt l) (rest : List AccountInfo) (hsigner : owner.isSigner = true)
    (hk : recordAt rt l positionInfo.key = some (.position p)) (hown : p.owner = owner.key)
    (hop : p.operator = operatorInfo.key) {amount : UInt64} (hamount : amount ≤ p.staked) :
    ∃ l', Program.unstake rt l (owner :: operatorInfo :: positionInfo :: rest) amount = .ok l' ∧
      Paid l operatorInfo.key owner.key amount l' := by
  obtain ⟨hne, a, ho⟩ := h.operator_of_position hk hown hop
  have hload := loadPosition_eq_ok.mpr ⟨hsigner, ho, hk, hown, hop⟩
  have hfloor := h.solvent.claimable_le (held_lt l _) ho hk hop
  have hstaked := h.solvent.staked_le ho hk hop
  have hfit := held_lt l operatorInfo.key
  have hleNat : amount.toNat ≤ p.staked.toNat := UInt64.le_iff_toNat_le.mp hamount
  obtain ⟨pool, hpool⟩ : ∃ pool : Pool, pool = { a.pool with staked := a.pool.staked - amount } :=
    ⟨_, rfl⟩
  obtain ⟨position, hposition⟩ : ∃ q : Position,
      q = { p.position.settle a.pool.rewardIndex with staked := p.position.staked - amount } :=
    ⟨_, rfl⟩
  have hun : a.pool.unstake p.position amount = .ok (amount, pool, position) :=
    Pool.unstake_eq_ok.mpr ⟨hamount, rfl, hpool, hposition⟩
  have hpoolNat : pool.staked.toNat = a.poolStaked.toNat - amount.toNat := by
    rw [hpool]
    exact h.solvent.poolStaked_sub ho hk hop hamount
  obtain ⟨l₁, hs₁⟩ := exists_store_operator ho (a.setPool pool)
  have st₁ := stored_of_store hs₁ (owner_of_recordAt ho)
  have hkey : positionInfo.key ≠ operatorInfo.key := by
    intro he
    rw [he, ho] at hk
    cases hk
  obtain ⟨l₂, hs₂⟩ := exists_store_position
    (show recordAt rt l₁ positionInfo.key = some (.position p) by
      rw [st₁.records, Function.update_of_ne hkey, hk]) (p.setPosition position)
  have st₂ := stored_of_store hs₂ (by rw [st₁.owner]; exact owner_of_recordAt hk)
  -- The floor moves down with the stake that leaves.
  have hreserved : (reserved rt (a.setPool pool)).toNat =
      (rt.rent operatorLen).toNat + a.bond.toNat + pool.staked.toNat :=
    reserved_toNat (show (rt.rent operatorLen).toNat + a.bond.toNat + pool.staked.toNat < 2 ^ 64 by
      omega)
  obtain ⟨l', hpay, hpaid⟩ := exists_payOut (a.setPool pool) amount h.supply
    (fun j => (st₂.lamports j).trans (st₁.lamports j)) hne
    (show (reserved rt (a.setPool pool)).toNat + _ ≤ _ by omega)
  exact ⟨l', unstake_eq_ok.mpr ⟨owner, operatorInfo, positionInfo, rest, a, p, amount, pool,
    position, l₁, l₂, rfl, hload, hun, hs₁, hs₂, hpay⟩, hpaid⟩

theorem InvOn.exists_claim {backed : Pubkey → Prop} (h : InvOn rt backed l)
    (hb : backed operatorInfo.key) (rest : List AccountInfo) (hsigner : owner.isSigner = true)
    (hk : recordAt rt l positionInfo.key = some (.position p)) (hown : p.owner = owner.key)
    (hop : p.operator = operatorInfo.key) (ho : recordAt rt l operatorInfo.key = some (.operator a)) :
    ∃ l', Program.claim rt l (owner :: operatorInfo :: positionInfo :: rest) = .ok l' ∧
      Paid l operatorInfo.key owner.key (p.position.claimable a.rewardIndex) l' := by
  have hne : operatorInfo.key ≠ owner.key := by
    rw [← hown, ← hop]
    exact (h.operator_of_position (by rwa [hop]) hk).1
  have hload := loadPosition_eq_ok.mpr ⟨hsigner, ho, hk, hown, hop⟩
  have hfloor := h.solvent.claimable_le (held_lt l _) (visible_operator hb ho)
    (visible_position hb hk hop) hop
  have hfit := held_lt l operatorInfo.key
  have hearned : (a.pool.claim p.position).1 = p.position.claimable a.rewardIndex := rfl
  obtain ⟨l₁, hs₁⟩ := exists_store_position hk (p.setPosition (a.pool.claim p.position).2)
  have st₁ := stored_of_store hs₁ (owner_of_recordAt hk)
  have hreserved : (reserved rt a).toNat =
      (rt.rent operatorLen).toNat + a.bond.toNat + a.poolStaked.toNat := reserved_toNat (by omega)
  obtain ⟨l', hpay, hpaid⟩ := exists_payOut a (p.position.claimable a.rewardIndex) h.supply
    st₁.lamports hne (show (reserved rt a).toNat + _ ≤ _ by omega)
  exact ⟨l', claim_eq_ok.mpr ⟨owner, operatorInfo, positionInfo, rest, a, p, l₁, rfl, hload, hs₁,
    by rw [hearned]; exact hpay⟩, hpaid⟩

variable (rt) in
/-- The position account at `k`, if it is one of `operator`'s. -/
def positionOf (l : Ledger) (operator k : Pubkey) : Option PositionAccount :=
  match recordAt rt l k with
  | some (.position p) => if p.operator = operator then some p else none
  | _ => none

lemma share_eq_positionOf (j : Pubkey) :
    (books (recordAt rt l) o a).share j =
      ((positionOf rt l o j).map fun p => p.position.toShare).getD Share.empty := by
  simp only [books, positionOf]
  cases hj : recordAt rt l j with
  | none => rfl
  | some r =>
    cases r with
    | position p => by_cases hop : p.operator = o <;> simp [shareOf, hop]
    | _ => rfl

lemma positionOf_eq_some {j : Pubkey} (hp : positionOf rt l o j = some p) :
    recordAt rt l j = some (.position p) ∧ p.operator = o := by
  unfold positionOf at hp
  split at hp
  · next q hq =>
    split_ifs at hp with hop
    obtain rfl := Option.some.inj hp
    exact ⟨hq, hop⟩
  · cases hp

theorem InvOn.covers {backed : Pubkey → Prop} (h : InvOn rt backed l) (hb : backed o)
    (ho : recordAt rt l o = some (.operator a)) :
    a.poolStaked.toNat = ∑ j, ((positionOf rt l o j).map fun p => p.staked.toNat).getD 0 ∧
      (rt.rent operatorLen).toNat + a.bond.toNat + a.poolStaked.toNat +
        ∑ j, ((positionOf rt l o j).map
          fun p => (p.position.claimable a.rewardIndex).toNat).getD 0 ≤ held l o := by
  have ho' := visible_operator hb ho
  have hfloor := h.solvent.floor_le ho'
  have htotal := (h.solvent.operators o a ho').total_eq
  rw [books_visible hb] at hfloor htotal
  have hstakes (j : Pubkey) : ((books (recordAt rt l) o a).share j).staked =
      ((positionOf rt l o j).map fun p => p.staked.toNat).getD 0 := by
    rw [share_eq_positionOf]
    cases positionOf rt l o j <;> rfl
  have hclaims (j : Pubkey) : ((books (recordAt rt l) o a).share j).claimable Position.scale
      a.rewardIndex.toNat = ((positionOf rt l o j).map
        fun p => (p.position.claimable a.rewardIndex).toNat).getD 0 := by
    rw [share_eq_positionOf]
    cases hp : positionOf rt l o j with
    | none => simp [Share.empty, Share.claimable]
    | some p =>
      obtain ⟨hk, hop⟩ := positionOf_eq_some hp
      exact (Position.claimable_toNat (h.solvent.owed_lt (held_lt l o) ho'
        (visible_position hb hk hop) hop)).symm
  simp only [hstakes] at htotal
  simp only [hclaims] at hfloor
  exact ⟨htotal, hfloor⟩

/-- In every state any run reaches, an operator account's pool is the sum of its
positions and its lamports cover rent, bond, stakes and all claims at once; and
every staker can leave, in full or in part, and is paid exactly. -/
theorem solvency_and_free_exit (hg : Genesis rt g) (hrun : Relation.ReflTransGen (Step rt) g l) :
    (∀ o a, recordAt rt l o = some (.operator a) →
      a.poolStaked.toNat = ∑ j, ((positionOf rt l o j).map fun p => p.staked.toNat).getD 0 ∧
      (rt.rent operatorLen).toNat + a.bond.toNat + a.poolStaked.toNat +
        ∑ j, ((positionOf rt l o j).map
          fun p => (p.position.claimable a.rewardIndex).toNat).getD 0 ≤ (l o).lamports.toNat) ∧
    ∀ tx owner operatorInfo positionInfo rest p, owner.isSigner = true →
      recordAt rt l positionInfo.key = some (.position p) → p.owner = owner.key →
      p.operator = operatorInfo.key →
      (∀ amount, amount ≤ p.staked →
        ∃ l', process rt tx l (owner :: operatorInfo :: positionInfo :: rest)
            (Instruction.unstake amount).write = .ok l' ∧
          Paid l operatorInfo.key owner.key amount l') ∧
      ∃ a, recordAt rt l operatorInfo.key = some (.operator a) ∧
        ∃ l', process rt tx l (owner :: operatorInfo :: positionInfo :: rest)
            Instruction.claim.write = .ok l' ∧
          Paid l operatorInfo.key owner.key (p.position.claimable a.rewardIndex) l' := by
  have h := hg.inv.run hrun
  refine ⟨?_, ?_⟩
  · intro o a ho
    exact (inv_iff_invOn.mp h).covers trivial ho
  · intro tx owner operatorInfo positionInfo rest p hsigner hk hown hop
    obtain ⟨_, a, ho⟩ := h.operator_of_position hk hown hop
    refine ⟨?_, a, ho, ?_⟩
    · intro amount hamount
      obtain ⟨l', hun, hpaid⟩ := h.exists_unstake rest hsigner hk hown hop hamount
      exact ⟨l', by rw [process_write]; exact hun, hpaid⟩
    · obtain ⟨l', hclaim, hpaid⟩ :=
        (inv_iff_invOn.mp h).exists_claim trivial rest hsigner hk hown hop ho
      exact ⟨l', by rw [process_write]; exact hclaim, hpaid⟩

end Runs

namespace Vectors

lemma genesis_genesis : Genesis runtime genesis where
  supply := (supply_ledgerOf_le _).trans_lt (by decide)
  vacant := owner_ledgerOf (by decide) (by decide)

lemma step_after {l l' : Ledger} {accounts : List AccountInfo} {i : Instruction}
    (hi : ∀ signingKey bond, i ≠ .register signingKey bond)
    (h : process runtime evidence l accounts i.write = .ok l') : Step runtime l l' := by
  refine Step.instruction evidence accounts i.write ?_ h
  intro signingKey bond hread
  rw [Instruction.read_write] at hread
  exact absurd (Except.ok.inj hread) (hi signingKey bond)

lemma run_convicted : Relation.ReflTransGen (Step runtime) genesis convicted := by
  have hregister : Step runtime genesis registered := by
    refine Step.instruction _ _ _ ?_ process_registered
    intro signingKey bond hread
    rw [Instruction.read_write] at hread
    obtain ⟨_, rfl⟩ := Instruction.register.inj (Except.ok.inj hread)
    decide
  have hstake : Step runtime registered staked := step_after (by simp) process_staked
  have hconvict : Step runtime staked convicted := step_after (by simp) process_convicted
  exact ((Relation.ReflTransGen.single hregister).tail hstake).tail hconvict

end Vectors

theorem solvency_and_free_exit_recorded :
    (∃ l', process Vectors.runtime Vectors.evidence Vectors.convicted Vectors.stakeAccounts
        (Instruction.unstake 3000000000).write = .ok l' ∧
      Paid Vectors.convicted Vectors.operator Vectors.staker 3000000000 l') ∧
    ∃ l', process Vectors.runtime Vectors.evidence Vectors.convicted Vectors.stakeAccounts
        Instruction.claim.write = .ok l' ∧
      Paid Vectors.convicted Vectors.operator Vectors.staker 1999999999 l' := by
  obtain ⟨hunstake, a, ha, hclaim⟩ := (solvency_and_free_exit Vectors.genesis_genesis
    Vectors.run_convicted).2 Vectors.evidence (Vectors.signer Vectors.staker)
    (Vectors.passive Vectors.operator) (Vectors.passive Vectors.position)
    [Vectors.passive Vectors.systemProgram] _ rfl Vectors.recordAt_convictedPosition rfl rfl
  refine ⟨hunstake 3000000000 (by decide), ?_⟩
  obtain rfl := Record.operator.inj (Option.some.inj (Vectors.recordAt_convicted.symm.trans ha))
  exact hclaim

end Blitz.Program
