import Blitz.ProgramRuns

/-! What an instruction can do to one operator, to one position and to one
conviction, whatever accounts it is handed. -/
namespace Blitz.Program
open LittleEndian CheckedArith RewardIndex Slashing

/-- How an instruction can turn the record of the operator at `o`. -/
inductive OperatorTurn (rt : Runtime) (tx : Transaction) (l : Ledger) (accounts : List AccountInfo)
    (l' : Ledger) (o : Pubkey) (a : OperatorAccount) : Instruction → OperatorAccount → Prop
  | same {i} : OperatorTurn rt tx l accounts l' o a i a
  | pooled {i} {pool : Pool} (hindex : pool.rewardIndex = a.rewardIndex) :
      OperatorTurn rt tx l accounts l' o a i (a.setPool pool)
  | slashed {accuser operatorInfo convictionInfo burnTo rest c}
      (hlist : accounts = accuser :: operatorInfo :: convictionInfo :: burnTo :: rest)
      (hkey : operatorInfo.key = o) (h : Convicted rt l accuser operatorInfo convictionInfo a c l') :
      OperatorTurn rt tx l accounts l' o a .proveEquivocation (slashedOperator a)
  | unbondBegun {authority operatorInfo rest} (hlist : accounts = authority :: operatorInfo :: rest)
      (hkey : operatorInfo.key = o) (h : UnbondBegun rt l tx authority operatorInfo a l') :
      OperatorTurn rt tx l accounts l' o a .beginUnbond
        { a with unbondAt := tx.slot + unbondSlots }
  | bondWithdrawn {authority operatorInfo rest}
      (hlist : accounts = authority :: operatorInfo :: rest) (hkey : operatorInfo.key = o)
      (h : BondWithdrawn rt l tx authority operatorInfo a l') :
      OperatorTurn rt tx l accounts l' o a .withdrawBond { a with bond := 0, unbondAt := 0 }

section Fates
variable {rt : Runtime} {tx : Transaction} {l l' : Ledger} {accounts : List AccountInfo}
  {i : Instruction} {o k : Pubkey} {a a' : OperatorAccount} {p : PositionAccount}
  {c : ConvictionAccount}

lemma Staked.key_ne {owner operatorInfo positionInfo : AccountInfo} {amount : UInt64} {pool : Pool}
    {position : Position}
    (h : Staked rt l owner operatorInfo positionInfo a p amount pool position l') {r : Record}
    (hk : recordAt rt l k = some r) (hr : ∀ q, r ≠ .position q) : k ≠ positionInfo.key := by
  intro he
  rcases h.opened with hp | ⟨hp, _⟩
  · rw [← he, hk] at hp
    exact hr p (Option.some.inj hp)
  · exact ne_of_vacant hk hp he

lemma operator_of_update {R : Records} {key : Pubkey} {b : OperatorAccount}
    (hother : R key = some (.operator a')) (ho : R o = some (.operator a))
    (hturn : key = o → a' = a → OperatorTurn rt tx l accounts l' o a i b) :
    ∃ c, Function.update R key (some (.operator b)) o = some (.operator c) ∧
      OperatorTurn rt tx l accounts l' o a i c := by
  by_cases he : o = key
  · subst he
    exact ⟨b, Function.update_self .., hturn rfl (operator_inj hother ho)⟩
  · exact ⟨a, by rw [Function.update_of_ne he, ho], .same⟩

theorem Effect.operator (h : Effect rt l tx accounts i l')
    (ho : recordAt rt l o = some (.operator a)) :
    ∃ b, recordAt rt l' o = some (.operator b) ∧ OperatorTurn rt tx l accounts l' o a i b := by
  cases h with
  | register hlist h =>
    refine ⟨a, ?_, .same⟩
    rw [h.records, Function.update_of_ne (ne_of_vacant ho h.vacant), ho]
  | stake hlist h =>
    rw [h.records, Function.update_of_ne (h.key_ne ho (by simp))]
    refine operator_of_update h.operator ho ?_
    intro _ ha
    subst ha
    apply OperatorTurn.pooled
    rw [(Pool.stake_eq_ok.mp h.staked).2.2.1]
    rfl
  | unstake hlist h =>
    rw [h.records, Function.update_of_ne (ne_of_operator_position ho h.found)]
    refine operator_of_update h.operator ho ?_
    intro _ ha
    subst ha
    apply OperatorTurn.pooled
    rw [(Pool.unstake_eq_ok.mp h.unstaked).2.2.1]
    rfl
  | claim hlist h =>
    refine ⟨a, ?_, .same⟩
    rw [h.records, Function.update_of_ne (ne_of_operator_position ho h.found), ho]
  | proveEquivocation hlist hburn h =>
    rw [h.records, Function.update_of_ne (ne_of_vacant ho h.vacant)]
    refine operator_of_update h.operator ho ?_
    intro hkey ha
    subst ha
    exact .slashed hlist hkey h
  | claimVictim hlist h =>
    refine ⟨a, ?_, .same⟩
    rw [h.records, Function.update_of_ne (ne_of_operator_conviction ho h.conviction), ho]
  | beginUnbond hlist h =>
    rw [h.records]
    refine operator_of_update h.operator ho ?_
    intro hkey ha
    subst ha
    exact .unbondBegun hlist hkey h
  | beginUnbondAgain => exact ⟨a, ho, .same⟩
  | withdrawBond hlist h =>
    rw [h.records]
    refine operator_of_update h.operator ho ?_
    intro hkey ha
    subst ha
    exact .bondWithdrawn hlist hkey h

lemma operator_of_other {R : Records} {key : Pubkey} {r : Record} (hr : ∀ b, r ≠ .operator b)
    (ho : Function.update R key (some r) o = some (.operator a)) : R o = some (.operator a) := by
  rcases Solvent.update_eq_some ho with ⟨_, he⟩ | ⟨_, hold⟩
  · exact absurd he (hr a)
  · exact hold

lemma operator_of_rewritten {R : Records} {key : Pubkey} {b : OperatorAccount}
    (hkey : R key = some (.operator a'))
    (ho : Function.update R key (some (.operator b)) o = some (.operator a)) :
    ∃ c, R o = some (.operator c) := by
  rcases Solvent.update_eq_some ho with ⟨rfl, _⟩ | ⟨_, hold⟩
  · exact ⟨a', hkey⟩
  · exact ⟨a, hold⟩

theorem Effect.operator_born (h : Effect rt l tx accounts i l')
    (ho : recordAt rt l' o = some (.operator a)) :
    (∃ b, recordAt rt l o = some (.operator b)) ∨
      (Registers accounts i o a.bond ∧ ∃ authority operatorInfo,
        operatorInfo.key = o ∧ Registered rt l authority operatorInfo a l') := by
  cases h with
  | @register authority operatorInfo rest b _ hlist h =>
    rw [h.records] at ho
    rcases Solvent.update_eq_some ho with ⟨rfl, hr⟩ | ⟨_, hold⟩
    · obtain rfl := Record.operator.inj hr
      refine .inr ⟨⟨?_, _, rfl⟩, authority, operatorInfo, rfl, h⟩
      rw [hlist]
      rfl
    · exact .inl ⟨a, hold⟩
  | stake hlist h =>
    rw [h.records] at ho
    exact .inl (operator_of_rewritten h.operator (operator_of_other (by simp) ho))
  | unstake hlist h =>
    rw [h.records] at ho
    exact .inl (operator_of_rewritten h.operator (operator_of_other (by simp) ho))
  | claim hlist h =>
    rw [h.records] at ho
    exact .inl ⟨a, operator_of_other (by simp) ho⟩
  | proveEquivocation hlist hburn h =>
    rw [h.records] at ho
    exact .inl (operator_of_rewritten h.operator (operator_of_other (by simp) ho))
  | claimVictim hlist h =>
    rw [h.records] at ho
    exact .inl ⟨a, operator_of_other (by simp) ho⟩
  | beginUnbond hlist h =>
    rw [h.records] at ho
    exact .inl (operator_of_rewritten h.operator ho)
  | beginUnbondAgain => exact .inl ⟨a, ho⟩
  | withdrawBond hlist h =>
    rw [h.records] at ho
    exact .inl (operator_of_rewritten h.operator ho)

lemma convicted_of_process
    (h : process rt tx l accounts Instruction.proveEquivocation.write = .ok l')
    (hnamed : namedAt accounts 1 = some o) (ho : recordAt rt l o = some (.operator a)) :
    ∃ accuser operatorInfo convictionInfo c, operatorInfo.key = o ∧
      namedAt accounts 2 = some convictionInfo.key ∧
      Convicted rt l accuser operatorInfo convictionInfo a c l' := by
  rw [process_write] at h
  cases effect_of_dispatch h with
  | @proveEquivocation accuser operatorInfo convictionInfo burnTo rest b c _ hlist hburn h =>
    rw [hlist] at hnamed
    obtain rfl : operatorInfo.key = o := Option.some.inj hnamed
    obtain rfl := operator_inj h.operator ho
    exact ⟨accuser, operatorInfo, convictionInfo, c, rfl, by rw [hlist]; rfl, h⟩

variable (rt) in
/-- The operator is left without a bond and convicted for all of it. -/
def SlashedInFull (accounts : List AccountInfo) (l' : Ledger) (o : Pubkey) (bond : UInt64) : Prop :=
  (∃ b, recordAt rt l' o = some (.operator b) ∧ b.bond = 0) ∧
    ∃ k c, namedAt accounts 2 = some k ∧ recordAt rt l' k = some (.conviction c) ∧
      c.operator = o ∧ c.slashed = bond

lemma slashedInFull_of_process (ho : recordAt rt l o = some (.operator a))
    (hnamed : namedAt accounts 1 = some o)
    (h : process rt tx l accounts Instruction.proveEquivocation.write = .ok l') :
    SlashedInFull rt accounts l' o a.bond := by
  obtain ⟨accuser, operatorInfo, convictionInfo, c, rfl, hk, hc⟩ := convicted_of_process h hnamed ho
  refine ⟨⟨slashedOperator a, ?_, rfl⟩, convictionInfo.key, c, hk, ?_, hc.convicted.1,
    hc.convicted.2.1⟩
  · rw [hc.records, Function.update_of_ne hc.key_ne, Function.update_self]
  · rw [hc.records, Function.update_self]

/-- The owner of the position signed the instruction. -/
def SignedBy (accounts : List AccountInfo) (owner : Pubkey) : Prop :=
  ∃ info ∈ accounts, info.isSigner = true ∧ info.key = owner

theorem Effect.position (h : Effect rt l tx accounts i l')
    (hk : recordAt rt l k = some (.position p)) :
    ∃ q, recordAt rt l' k = some (.position q) ∧ q.owner = p.owner ∧ q.operator = p.operator ∧
      ((q = p ∧ (l' k).data = (l k).data) ∨ SignedBy accounts p.owner) := by
  have hkept (hrecord : recordAt rt l' k = recordAt rt l k) (hdata : (l' k).data = (l k).data) :
      ∃ q, recordAt rt l' k = some (.position q) ∧ q.owner = p.owner ∧ q.operator = p.operator ∧
        ((q = p ∧ (l' k).data = (l k).data) ∨ SignedBy accounts p.owner) :=
    ⟨p, hrecord.trans hk, rfl, rfl, .inl ⟨rfl, hdata⟩⟩
  have hset {position : Position} {owner : AccountInfo} (hm : owner ∈ accounts)
      (hsigned : owner.isSigner = true) (howned : p.owner = owner.key)
      (hrecord : recordAt rt l' k = some (.position (p.setPosition position))) :
      ∃ q, recordAt rt l' k = some (.position q) ∧ q.owner = p.owner ∧ q.operator = p.operator ∧
        ((q = p ∧ (l' k).data = (l k).data) ∨ SignedBy accounts p.owner) :=
    ⟨p.setPosition position, hrecord, rfl, rfl, .inr ⟨owner, hm, hsigned, howned.symm⟩⟩
  cases h with
  | register hlist h =>
    have hne := ne_of_vacant hk h.vacant
    exact hkept (by rw [h.records, Function.update_of_ne hne]) (h.frame k hne)
  | @stake owner operatorInfo positionInfo rest b q amount pool position _ hlist h =>
    have hne := (ne_of_operator_position h.operator hk).symm
    by_cases he : k = positionInfo.key
    · subst he
      obtain rfl : q = p := by
        rcases h.opened with hq | ⟨hq, _⟩
        · exact Record.position.inj (Option.some.inj (hq.symm.trans hk))
        · rw [hk] at hq
          cases hq
      exact hset (by simp [hlist]) h.signed h.owned (by rw [h.records, Function.update_self])
    · refine hkept ?_ (h.frame k hne he)
      rw [h.records, Function.update_of_ne he, Function.update_of_ne hne]
  | @unstake owner operatorInfo positionInfo rest b q amount pool position _ hlist h =>
    have hne := (ne_of_operator_position h.operator hk).symm
    by_cases he : k = positionInfo.key
    · subst he
      obtain rfl : q = p := Record.position.inj (Option.some.inj (h.found.symm.trans hk))
      exact hset (by simp [hlist]) h.signed h.owned (by rw [h.records, Function.update_self])
    · refine hkept ?_ (h.frame k hne he)
      rw [h.records, Function.update_of_ne he, Function.update_of_ne hne]
  | @claim owner operatorInfo positionInfo rest b q _ hlist h =>
    by_cases he : k = positionInfo.key
    · subst he
      obtain rfl : q = p := Record.position.inj (Option.some.inj (h.found.symm.trans hk))
      exact hset (by simp [hlist]) h.signed h.owned (by rw [h.records, Function.update_self])
    · exact hkept (by rw [h.records, Function.update_of_ne he]) (h.frame k he)
  | proveEquivocation hlist hburn h =>
    have hne := (ne_of_operator_position h.operator hk).symm
    have hne' := ne_of_vacant hk h.vacant
    refine hkept ?_ (h.frame k hne hne')
    rw [h.records, Function.update_of_ne hne', Function.update_of_ne hne]
  | claimVictim hlist h =>
    have hne := ne_of_position_conviction hk h.conviction
    exact hkept (by rw [h.records, Function.update_of_ne hne]) (h.frame k hne)
  | beginUnbond hlist h =>
    have hne := (ne_of_operator_position h.operator hk).symm
    exact hkept (by rw [h.records, Function.update_of_ne hne]) (h.frame k hne)
  | beginUnbondAgain => exact hkept rfl rfl
  | withdrawBond hlist h =>
    have hne := (ne_of_operator_position h.operator hk).symm
    exact hkept (by rw [h.records, Function.update_of_ne hne]) (h.frame k hne)

/-- The instruction asks the conviction at `k` to pay its victim. -/
def ClaimsVictim (accounts : List AccountInfo) (i : Instruction) (k : Pubkey) : Prop :=
  namedAt accounts 1 = some k ∧ ∃ wireBytes, i = .claimVictim wireBytes

theorem Effect.conviction (h : Effect rt l tx accounts i l')
    (hk : recordAt rt l k = some (.conviction c)) :
    (recordAt rt l' k = some (.conviction c) ∧ ¬ClaimsVictim accounts i k) ∨
      ∃ claimant convictionInfo, convictionInfo.key = k ∧
        VictimPaid rt l claimant convictionInfo c l' := by
  have hother {j : Instruction} (hj : ∀ wireBytes, j ≠ .claimVictim wireBytes) :
      ¬ClaimsVictim accounts j k := by
    intro hclaims
    obtain ⟨_, wireBytes, he⟩ := hclaims
    exact hj wireBytes he
  cases h with
  | register hlist h =>
    refine .inl ⟨?_, hother (by simp)⟩
    rw [h.records, Function.update_of_ne (ne_of_vacant hk h.vacant), hk]
  | stake hlist h =>
    refine .inl ⟨?_, hother (by simp)⟩
    rw [h.records, Function.update_of_ne (h.key_ne hk (by simp)),
      Function.update_of_ne (ne_of_operator_conviction h.operator hk).symm, hk]
  | unstake hlist h =>
    refine .inl ⟨?_, hother (by simp)⟩
    rw [h.records, Function.update_of_ne (ne_of_position_conviction h.found hk).symm,
      Function.update_of_ne (ne_of_operator_conviction h.operator hk).symm, hk]
  | claim hlist h =>
    refine .inl ⟨?_, hother (by simp)⟩
    rw [h.records, Function.update_of_ne (ne_of_position_conviction h.found hk).symm, hk]
  | proveEquivocation hlist hburn h =>
    refine .inl ⟨?_, hother (by simp)⟩
    rw [h.records, Function.update_of_ne (ne_of_vacant hk h.vacant),
      Function.update_of_ne (ne_of_operator_conviction h.operator hk).symm, hk]
  | @claimVictim claimant convictionInfo rest d wireBytes _ hlist h =>
    by_cases he : k = convictionInfo.key
    · subst he
      obtain rfl : d = c := Record.conviction.inj (Option.some.inj (h.conviction.symm.trans hk))
      exact .inr ⟨claimant, convictionInfo, rfl, h⟩
    · refine .inl ⟨by rw [h.records, Function.update_of_ne he, hk], ?_⟩
      intro hclaims
      obtain ⟨hnamed, _⟩ := hclaims
      rw [hlist] at hnamed
      exact he (Option.some.inj hnamed).symm
  | beginUnbond hlist h =>
    refine .inl ⟨?_, hother (by simp)⟩
    rw [h.records, Function.update_of_ne (ne_of_operator_conviction h.operator hk).symm, hk]
  | beginUnbondAgain => exact .inl ⟨hk, hother (by simp)⟩
  | withdrawBond hlist h =>
    refine .inl ⟨?_, hother (by simp)⟩
    rw [h.records, Function.update_of_ne (ne_of_operator_conviction h.operator hk).symm, hk]

lemma Effect.supply_eq (h : Effect rt l tx accounts i l') : l'.supply = l.supply := by
  cases h with
  | register _ h => exact h.supply
  | stake _ h => exact h.supply
  | unstake _ h => exact h.supply
  | claim _ h => exact h.supply
  | proveEquivocation _ _ h => exact h.supply
  | claimVictim _ h => exact h.supply
  | beginUnbond _ h => exact h.supply
  | beginUnbondAgain => rfl
  | withdrawBond _ h => exact h.supply

theorem Effect.untouched (h : Effect rt l tx accounts i l') (hk : ∀ info ∈ accounts, k ≠ info.key) :
    held l' k = held l k := by
  cases h with
  | register hlist h =>
    simp only [hlist, List.forall_mem_cons] at hk
    exact h.untouched k hk.1 hk.2.1
  | stake hlist h =>
    simp only [hlist, List.forall_mem_cons] at hk
    exact h.untouched k hk.1 hk.2.1 hk.2.2.1
  | unstake hlist h =>
    simp only [hlist, List.forall_mem_cons] at hk
    exact h.paid.frame k hk.2.1 hk.1
  | claim hlist h =>
    simp only [hlist, List.forall_mem_cons] at hk
    exact h.paid.frame k hk.2.1 hk.1
  | proveEquivocation hlist hburn h =>
    simp only [hlist, List.forall_mem_cons] at hk
    obtain ⟨l₁, l₂, _, hframe, hpaid, hvictim⟩ := h.paid
    rw [hvictim.frame k hk.2.1 hk.2.2.1, hpaid.frame k hk.2.1 (by rw [← hburn]; exact hk.2.2.2.1),
      hframe k hk.1 hk.2.2.1]
  | claimVictim hlist h =>
    simp only [hlist, List.forall_mem_cons] at hk
    exact h.paid.frame k hk.2.1 hk.1
  | beginUnbond _ h => rw [h.kept]
  | beginUnbondAgain => rfl
  | withdrawBond hlist h =>
    simp only [hlist, List.forall_mem_cons] at hk
    exact h.paid.frame k hk.2.1 hk.1

/-- The accounts an instruction is handed. -/
def involved (accounts : List AccountInfo) : Finset Pubkey :=
  (accounts.map fun info => info.key).toFinset

theorem Effect.total_eq (h : Effect rt l tx accounts i l') :
    ∑ k ∈ involved accounts, held l' k = ∑ k ∈ involved accounts, held l k := by
  refine sum_part_eq _ h.supply_eq fun k hk => h.untouched fun info hinfo he => hk ?_
  rw [involved, List.mem_toFinset, he]
  exact List.mem_map_of_mem hinfo

end Fates

end Blitz.Program
