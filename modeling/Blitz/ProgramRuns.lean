import Blitz.ProgramTransitions
import Blitz.ProgramSolvency

/-! Every instruction keeps the operators that count solvent; an operator counts
as long as its registrations brought what they record. -/
namespace Blitz.Program
open LittleEndian CheckedArith RewardIndex Slashing

/-- The invariant of every run. -/
structure Inv (rt : Runtime) (l : Ledger) : Prop where
  supply : l.supply < 2 ^ 64
  solvent : Solvent (rt.rent operatorLen).toNat (rt.rent convictionLen).toNat (recordAt rt l) (held l)

/-- The same of the operators in `backed`, whatever became of the others. -/
structure InvOn (rt : Runtime) (backed : Pubkey → Prop) (l : Ledger) : Prop where
  supply : l.supply < 2 ^ 64
  solvent : Solvent (rt.rent operatorLen).toNat (rt.rent convictionLen).toNat
    (visible backed (recordAt rt l)) (held l)

/-- The key of the account at one place of an instruction's list. -/
def namedAt (accounts : List AccountInfo) (n : ℕ) : Option Pubkey :=
  accounts[n]?.map fun info => info.key

/-- The instruction registers the account `o` with this bond. -/
def Registers (accounts : List AccountInfo) (i : Instruction) (o : Pubkey) (bond : UInt64) : Prop :=
  namedAt accounts 1 = some o ∧ ∃ signingKey, i = .register signingKey bond

section Preservation
variable {rt : Runtime} {backed : Pubkey → Prop} {l l' : Ledger} {accounts : List AccountInfo}
  {tx : Transaction} {o k : Pubkey} {a : OperatorAccount} {p : PositionAccount}

lemma inv_iff_invOn : Inv rt l ↔ InvOn rt (fun _ => True) l := by
  have hall : visible (fun _ => True) (recordAt rt l) = recordAt rt l :=
    visible_of_forall fun _ => trivial
  constructor
  · intro h
    exact ⟨h.supply, by rw [hall]; exact h.solvent⟩
  · intro h
    exact ⟨h.supply, by rw [← hall]; exact h.solvent⟩

lemma reserved_toNat (hfit : (rt.rent operatorLen).toNat + a.bond.toNat + a.poolStaked.toNat <
    2 ^ 64) :
    (reserved rt a).toNat = (rt.rent operatorLen).toNat + a.bond.toNat + a.poolStaked.toNat := by
  have h1 : (rt.rent operatorLen + a.bond).toNat = (rt.rent operatorLen).toNat + a.bond.toNat :=
    toNat_add_of_lt (by omega)
  rw [reserved, toNat_add_of_lt (by rw [h1]; exact hfit), h1]

lemma visible_operator (hb : backed o) (ho : recordAt rt l o = some (.operator a)) :
    visible backed (recordAt rt l) o = some (.operator a) := visible_eq_some.mpr ⟨ho, hb⟩

lemma visible_position (hb : backed o) (hk : recordAt rt l k = some (.position p))
    (hop : p.operator = o) : visible backed (recordAt rt l) k = some (.position p) :=
  visible_eq_some.mpr ⟨hk, (shown_position hop).mpr hb⟩

lemma InvOn.claimable_toNat (h : InvOn rt backed l) (hb : backed o)
    (ho : recordAt rt l o = some (.operator a)) (hk : recordAt rt l k = some (.position p))
    (hop : p.operator = o) :
    (p.position.claimable a.rewardIndex).toNat =
      p.position.toShare.claimable Position.scale a.rewardIndex.toNat :=
  Position.claimable_toNat (h.solvent.owed_lt (held_lt l o) (visible_operator hb ho)
    (visible_position hb hk hop) hop)

lemma InvOn.hidden (h : InvOn rt backed l) (hsupply : l'.supply = l.supply)
    (hrecords : visible backed (recordAt rt l') = visible backed (recordAt rt l))
    (hle : ∀ k, visible backed (recordAt rt l) k ≠ none → held l k ≤ held l' k) :
    InvOn rt backed l' := by
  refine ⟨by rw [hsupply]; exact h.supply, ?_⟩
  rw [hrecords]
  exact h.solvent.mono hle

theorem InvOn.registered (h : InvOn rt backed l) {authority operatorInfo : AccountInfo}
    (he : Registered rt l authority operatorInfo a l')
    (hfit : backed operatorInfo.key → (rt.rent operatorLen).toNat + a.bond.toNat < 2 ^ 64) :
    InvOn rt backed l' := by
  have hle (k : Pubkey) (hk : visible backed (recordAt rt l) k ≠ none) : held l k ≤ held l' k :=
    he.kept k (ne_none_of_visible hk)
  have hnone : visible backed (recordAt rt l) operatorInfo.key = none := visible_eq_none he.vacant
  by_cases hb : backed operatorInfo.key
  · refine ⟨by rw [he.supply]; exact h.supply, ?_⟩
    rw [he.records, visible_update_of_shown (shown_operator.mpr hb)]
    refine (h.solvent.mono hle).addOperator hnone he.fresh.1 he.fresh.2.1 ?_
    rw [he.funded, toNat_add_of_lt (hfit hb)]
  · refine h.hidden he.supply ?_ hle
    rw [he.records, visible_update_of_hidden (mt shown_operator.mp hb) hnone]

lemma visible_setOperator (hb : ¬backed o) (ho : recordAt rt l o = some (.operator a))
    (a' : OperatorAccount) :
    visible backed (Function.update (recordAt rt l) o (some (.operator a'))) =
      visible backed (recordAt rt l) :=
  visible_update_of_hidden (mt shown_operator.mp hb) (visible_of_hidden ho (mt shown_operator.mp hb))

lemma visible_setPosition {R : Records} (hb : ¬backed o) (hk : visible backed R k = none)
    (hop : p.operator = o) :
    visible backed (Function.update R k (some (.position p))) = visible backed R :=
  visible_update_of_hidden (mt (shown_position hop).mp hb) hk

lemma InvOn.paid_of_hidden (h : InvOn rt backed l) (hb : ¬backed o)
    (ho : recordAt rt l o = some (.operator a)) {destination : Pubkey} {amount : UInt64}
    (hpaid : Pays l o destination amount l') (hsupply : l'.supply = l.supply)
    (hrecords : visible backed (recordAt rt l') = visible backed (recordAt rt l)) :
    InvOn rt backed l' := by
  refine h.hidden hsupply hrecords ?_
  intro k hk
  refine hpaid.le ?_
  intro he
  rw [he] at hk
  exact hk (visible_of_hidden ho (mt shown_operator.mp hb))

theorem InvOn.staked (h : InvOn rt backed l) {owner operatorInfo positionInfo : AccountInfo}
    {amount : UInt64} {pool : Pool} {position : Position}
    (he : Staked rt l owner operatorInfo positionInfo a p amount pool position l') :
    InvOn rt backed l' := by
  have hle (k : Pubkey) (hk : visible backed (recordAt rt l) k ≠ none) : held l k ≤ held l' k :=
    he.kept k (ne_none_of_visible hk)
  have hkey : positionInfo.key ≠ operatorInfo.key := by
    intro hkey
    rcases he.opened with hk | ⟨hk, _⟩ <;> rw [hkey, he.operator] at hk <;> cases hk
  by_cases hb : backed operatorInfo.key
  · have ho := visible_operator hb he.operator
    -- The balances as they are once the position is open and before the stake is in.
    obtain ⟨H, hH⟩ : ∃ H, H = Function.update (held l') operatorInfo.key (held l operatorInfo.key) :=
      ⟨_, rfl⟩
    have hHo : H operatorInfo.key = held l operatorInfo.key := by rw [hH, Function.update_self]
    have hHne (j : Pubkey) (hj : j ≠ operatorInfo.key) : H j = held l' j := by
      rw [hH, Function.update_of_ne hj]
    have hbefore : Solvent (rt.rent operatorLen).toNat (rt.rent convictionLen).toNat
        (visible backed (recordAt rt l)) H := by
      refine h.solvent.mono fun k hk => ?_
      by_cases hko : k = operatorInfo.key
      · rw [hko, hHo]
      · rw [hHne k hko]
        exact hle k hk
    have hopen : Solvent (rt.rent operatorLen).toNat (rt.rent convictionLen).toNat
        (Function.update (visible backed (recordAt rt l)) positionInfo.key (some (.position p)))
        H := by
      rcases he.opened with hk | ⟨hk, hfresh, hpos⟩
      · rwa [← visible_position hb hk he.home, Function.update_eq_self]
      · refine hbefore.addPosition (visible_eq_none hk) (a := a) (by rw [he.home]; exact ho) hfresh
          ?_ ?_
        · rw [he.owned, he.home]
          intro hsame
          exact not_system_of_record he.operator (hsame ▸ he.system)
        · rwa [hHne _ hkey]
    have hpaid : held l' operatorInfo.key = H operatorInfo.key + amount.toNat := by
      rw [hHo, he.paid]
    have hstake := hopen.stake (by rw [hHo]; exact held_lt l _)
      (show Function.update _ _ _ operatorInfo.key = _ by rw [Function.update_of_ne hkey.symm, ho])
      (Function.update_self ..) he.home he.staked hpaid (held_lt l' _)
      fun j hj _ => (hHne j hj).le
    refine ⟨by rw [he.supply]; exact h.supply, ?_⟩
    rw [he.records, visible_update_of_shown ((shown_position (by exact he.home)).mpr hb),
      visible_update_of_shown (shown_operator.mpr hb)]
    rwa [Function.update_comm hkey, Function.update_idem] at hstake
  · refine h.hidden he.supply ?_ hle
    have hoperator := visible_setOperator hb he.operator (a.setPool pool)
    rw [he.records, visible_setPosition hb ?_ (by exact he.home), hoperator]
    rw [hoperator]
    rcases he.opened with hk | ⟨hk, _⟩
    · exact visible_of_hidden hk (mt (shown_position he.home).mp hb)
    · exact visible_eq_none hk

theorem InvOn.unstaked (h : InvOn rt backed l) {owner operatorInfo positionInfo : AccountInfo}
    {amount : UInt64} {pool : Pool} {position : Position}
    (he : Unstaked rt l owner operatorInfo positionInfo a p amount pool position l') :
    InvOn rt backed l' := by
  by_cases hb : backed operatorInfo.key
  · refine ⟨by rw [he.supply]; exact h.supply, ?_⟩
    rw [he.records, visible_update_of_shown ((shown_position (by exact he.home)).mpr hb),
      visible_update_of_shown (shown_operator.mpr hb)]
    exact h.solvent.unstake (held_lt l _) (visible_operator hb he.operator)
      (visible_position hb he.found he.home) he.home he.unstaked he.paid.source_le
      fun j hj _ => he.paid.le hj
  · refine h.paid_of_hidden hb he.operator he.paid he.supply ?_
    have hoperator := visible_setOperator hb he.operator (a.setPool pool)
    rw [he.records, visible_setPosition hb ?_ (by exact he.home), hoperator]
    rw [hoperator]
    exact visible_of_hidden he.found (mt (shown_position he.home).mp hb)

theorem InvOn.claimed (h : InvOn rt backed l) {owner operatorInfo positionInfo : AccountInfo}
    (he : Claimed rt l owner operatorInfo positionInfo a p l') : InvOn rt backed l' := by
  by_cases hb : backed operatorInfo.key
  · refine ⟨by rw [he.supply]; exact h.supply, ?_⟩
    rw [he.records, visible_update_of_shown ((shown_position (by exact he.home)).mpr hb)]
    exact h.solvent.claim (held_lt l _) (visible_operator hb he.operator)
      (visible_position hb he.found he.home) he.home he.paid.source_le fun j hj _ => he.paid.le hj
  · refine h.paid_of_hidden hb he.operator he.paid he.supply ?_
    rw [he.records, visible_setPosition hb
      (visible_of_hidden he.found (mt (shown_position he.home).mp hb)) (by exact he.home)]

section Convicted
variable {accuser operatorInfo convictionInfo : AccountInfo} {c : ConvictionAccount}

lemma Convicted.key_ne (he : Convicted rt l accuser operatorInfo convictionInfo a c l') :
    operatorInfo.key ≠ convictionInfo.key := ne_of_vacant he.operator he.vacant

lemma Convicted.ne_accuser (he : Convicted rt l accuser operatorInfo convictionInfo a c l')
    {r : Record} (hk : recordAt rt l k = some r) : k ≠ accuser.key := by
  -- The accuser's account is the system program's, so it holds no record.
  intro hsame
  exact not_system_of_record hk (hsame ▸ he.system)

lemma Convicted.others_le (he : Convicted rt l accuser operatorInfo convictionInfo a c l')
    (hk : k ≠ operatorInfo.key) (hrec : recordAt rt l k ≠ none) : held l k ≤ held l' k := by
  obtain ⟨l₁, l₂, _, hframe, hburn, hvictim⟩ := he.paid
  obtain ⟨r, hr⟩ := Option.ne_none_iff_exists'.mp hrec
  rw [← hframe k (he.ne_accuser hr) (ne_of_vacant hr he.vacant)]
  exact (hburn.le hk).trans (hvictim.le hk)

lemma appliedSplit_le (a : OperatorAccount) :
    (appliedSplit a).burn.toNat + (appliedSplit a).victim.toNat ≤ a.bond.toNat := by
  have htotal : (appliedSplit a).Of _ := (Pool.distribute_split a.pool a.bond).1
  unfold Split.Of at htotal
  omega

lemma Convicted.self_le (he : Convicted rt l accuser operatorInfo convictionInfo a c l') :
    held l operatorInfo.key ≤ held l' operatorInfo.key +
      ((appliedSplit a).burn.toNat + (appliedSplit a).victim.toNat) := by
  obtain ⟨l₁, l₂, _, hframe, hburn, hvictim⟩ := he.paid
  have h₁ := hframe operatorInfo.key (he.ne_accuser he.operator) he.key_ne
  have h₂ := hburn.source_le
  have h₃ := hvictim.source_le
  omega

theorem InvOn.convicted (h : InvOn rt backed l)
    (he : Convicted rt l accuser operatorInfo convictionInfo a c l') : InvOn rt backed l' := by
  have hconviction : (rt.rent convictionLen).toNat + c.owedToVictim.toNat ≤
      held l' convictionInfo.key := by
    obtain ⟨l₁, l₂, hrent, _, hburn, hvictim⟩ := he.paid
    have hcredit := hvictim.credit he.key_ne
    have hgain := hburn.le he.key_ne.symm
    rw [he.convicted.2.2]
    omega
  refine ⟨by rw [he.supply]; exact h.supply, ?_⟩
  rw [he.records, visible_update_of_shown (show Shown backed _ (.conviction c) from trivial)]
  by_cases hb : backed operatorInfo.key
  · rw [visible_update_of_shown (shown_operator.mpr hb)]
    have hslash := h.solvent.slash (visible_operator hb he.operator) he.bonded rfl he.self_le
      fun j hj hrec => he.others_le hj (ne_none_of_visible hrec)
    refine hslash.setConviction (.inl ?_) hconviction fun _ _ _ => le_rfl
    rw [Function.update_of_ne he.key_ne.symm]
    exact visible_eq_none he.vacant
  · rw [visible_setOperator hb he.operator]
    refine h.solvent.setConviction (.inl (visible_eq_none he.vacant)) hconviction ?_
    intro j _ hrec
    refine he.others_le ?_ (ne_none_of_visible hrec)
    intro hsame
    rw [hsame] at hrec
    exact hrec (visible_of_hidden he.operator (mt shown_operator.mp hb))

end Convicted

theorem InvOn.victimPaid (h : InvOn rt backed l) {claimant convictionInfo : AccountInfo}
    {c : ConvictionAccount} (he : VictimPaid rt l claimant convictionInfo c l') :
    InvOn rt backed l' := by
  have hvisible : visible backed (recordAt rt l) convictionInfo.key = some (.conviction c) :=
    visible_eq_some.mpr ⟨he.conviction, trivial⟩
  have howed := h.solvent.convictions _ c hvisible
  have hself := he.paid.source_le
  refine ⟨by rw [he.supply]; exact h.supply, ?_⟩
  rw [he.records, visible_update_of_shown (show Shown backed _ (.conviction _) from trivial)]
  refine h.solvent.setConviction (.inr ⟨c, hvisible⟩) ?_ fun j hj _ => he.paid.le hj
  simp only [UInt64.toNat_zero]
  omega

theorem InvOn.unbondBegun (h : InvOn rt backed l) {authority operatorInfo : AccountInfo}
    (he : UnbondBegun rt l tx authority operatorInfo a l') : InvOn rt backed l' := by
  by_cases hb : backed operatorInfo.key
  · refine ⟨by rw [he.supply]; exact h.supply, ?_⟩
    rw [he.records, he.kept, visible_update_of_shown (shown_operator.mpr hb)]
    exact h.solvent.unbond (visible_operator hb he.operator) _
  · refine h.hidden he.supply ?_ fun k _ => by rw [he.kept]
    rw [he.records, visible_setOperator hb he.operator]

theorem InvOn.bondWithdrawn (h : InvOn rt backed l) {authority operatorInfo : AccountInfo}
    (he : BondWithdrawn rt l tx authority operatorInfo a l') : InvOn rt backed l' := by
  by_cases hb : backed operatorInfo.key
  · refine ⟨by rw [he.supply]; exact h.supply, ?_⟩
    rw [he.records, visible_update_of_shown (shown_operator.mpr hb)]
    exact h.solvent.withdraw (visible_operator hb he.operator) 0 he.paid.source_le
      fun j hj _ => he.paid.le hj
  · refine h.paid_of_hidden hb he.operator he.paid he.supply ?_
    rw [he.records, visible_setOperator hb he.operator]

theorem InvOn.effect (h : InvOn rt backed l) {i : Instruction} (he : Effect rt l tx accounts i l')
    (hfit : ∀ o bond, Registers accounts i o bond → backed o →
      (rt.rent operatorLen).toNat + bond.toNat < 2 ^ 64) : InvOn rt backed l' := by
  cases he with
  | register hlist he =>
    refine h.registered he fun hb => hfit _ _ ⟨?_, _, rfl⟩ hb
    rw [hlist]
    rfl
  | stake _ he => exact h.staked he
  | unstake _ he => exact h.unstaked he
  | claim _ he => exact h.claimed he
  | proveEquivocation _ _ he => exact h.convicted he
  | claimVictim _ he => exact h.victimPaid he
  | beginUnbond _ he => exact h.unbondBegun he
  | beginUnbondAgain => exact h
  | withdrawBond _ he => exact h.bondWithdrawn he

theorem Inv.process (h : Inv rt l) {data : List UInt8}
    (hfit : ∀ signingKey bond, Instruction.read data = .ok (.register signingKey bond) →
      (rt.rent operatorLen).toNat + bond.toNat < 2 ^ 64)
    (hr : process rt tx l accounts data = .ok l') : Inv rt l' := by
  simp only [Program.process, bind_eq_ok, slash_eq_ok] at hr
  obtain ⟨i, hi, hr⟩ := hr
  refine inv_iff_invOn.mpr ((inv_iff_invOn.mp h).effect (effect_of_dispatch hr) ?_)
  intro o bond hregisters _
  obtain ⟨_, signingKey, rfl⟩ := hregisters
  exact hfit signingKey bond hi

end Preservation

end Blitz.Program
