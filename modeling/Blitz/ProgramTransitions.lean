import Blitz.ProgramSteps

/-! What a successful instruction does, read off once: the records it found, the
records and bytes it left, who was paid what, and that it changes nothing else. -/
namespace Blitz.Program
open LittleEndian CheckedArith Slashing

def held (l : Ledger) (key : Pubkey) : ℕ := (l key).lamports.toNat

/-- `amount` moves from one balance to another, and no other balance changes. -/
structure Pays (l : Ledger) (source destination : Pubkey) (amount : UInt64) (l' : Ledger) :
    Prop where
  enough : amount.toNat ≤ held l source
  self : source = destination → held l' = held l
  debit : source ≠ destination → held l' source + amount.toNat = held l source
  credit : source ≠ destination → held l' destination = held l destination + amount.toNat
  frame : ∀ k, k ≠ source → k ≠ destination → held l' k = held l k

section Pays
variable {l l₁ l' : Ledger} {source destination k : Pubkey} {amount : UInt64}

lemma held_lt (l : Ledger) (k : Pubkey) : held l k < 2 ^ 64 := (l k).lamports.toNat_lt

lemma pays_of_move (hheld : held l₁ = held l) (h : l₁.move source destination amount = some l') :
    Pays l source destination amount l' := by
  have hm := Ledger.moved_of_move h
  have hframe (k : Pubkey) (hk : (l' k).lamports = (l₁ k).lamports) : held l' k = held l k := by
    rw [← hheld, held, held, hk]
  refine ⟨?_, ?_, ?_, ?_, ?_⟩
  · rw [← hheld]
    exact hm.enough
  · exact fun hs => funext fun k => hframe k (hm.self hs k)
  · rw [← hheld]
    exact hm.debit
  · rw [← hheld]
    exact hm.credit
  · exact fun k hs hd => hframe k (hm.frame k hs hd)

lemma Pays.le (h : Pays l source destination amount l') (hk : k ≠ source) :
    held l k ≤ held l' k := by
  by_cases hs : source = destination
  · rw [h.self hs]
  · by_cases hd : k = destination
    · rw [hd, h.credit hs]
      exact Nat.le_add_right _ _
    · rw [h.frame k hk hd]

lemma Pays.source_le (h : Pays l source destination amount l') :
    held l source ≤ held l' source + amount.toNat := by
  by_cases hs : source = destination
  · rw [h.self hs]
    exact Nat.le_add_right _ _
  · exact (h.debit hs).ge

end Pays

section Effects
variable (rt : Runtime) (l : Ledger)

/-- A new operator account, funded with rent and bond as the code adds them. -/
structure Registered (authority operatorInfo : AccountInfo) (a : OperatorAccount) (l' : Ledger) :
    Prop where
  signed : authority.isSigner = true
  distinct : authority.key ≠ operatorInfo.key
  vacant : recordAt rt l operatorInfo.key = none
  owned : a.authority = authority.key
  bonded : a.bond ≠ 0
  fresh : a.poolStaked = 0 ∧ a.rewardIndex = 0 ∧ a.unbondAt = 0
  records : recordAt rt l' = Function.update (recordAt rt l) operatorInfo.key (some (.operator a))
  funded : held l' operatorInfo.key = (rt.rent operatorLen + a.bond).toNat
  kept : ∀ k, recordAt rt l k ≠ none → held l k ≤ held l' k
  untouched : ∀ k, k ≠ authority.key → k ≠ operatorInfo.key → held l' k = held l k
  frame : ∀ k, k ≠ operatorInfo.key → (l' k).data = (l k).data
  supply : l'.supply = l.supply

/-- Stake goes into the operator account; the position is opened if it is the first. -/
structure Staked (owner operatorInfo positionInfo : AccountInfo) (a : OperatorAccount)
    (p : PositionAccount) (amount : UInt64) (pool : Pool) (position : Position) (l' : Ledger) :
    Prop where
  signed : owner.isSigner = true
  system : (l owner.key).owner = rt.systemProgram
  operator : recordAt rt l operatorInfo.key = some (.operator a)
  opened : recordAt rt l positionInfo.key = some (.position p) ∨
    (recordAt rt l positionInfo.key = none ∧ p.position = ⟨0, 0, 0⟩ ∧ 0 < held l' positionInfo.key)
  owned : p.owner = owner.key
  home : p.operator = operatorInfo.key
  staked : a.pool.stake p.position amount = .ok (pool, position)
  records : recordAt rt l' = Function.update
    (Function.update (recordAt rt l) operatorInfo.key (some (.operator (a.setPool pool))))
    positionInfo.key (some (.position (p.setPosition position)))
  paid : held l' operatorInfo.key = held l operatorInfo.key + amount.toNat
  kept : ∀ k, recordAt rt l k ≠ none → held l k ≤ held l' k
  untouched : ∀ k, k ≠ owner.key → k ≠ operatorInfo.key → k ≠ positionInfo.key →
    held l' k = held l k
  frame : ∀ k, k ≠ operatorInfo.key → k ≠ positionInfo.key → (l' k).data = (l k).data
  supply : l'.supply = l.supply

/-- Stake leaves the operator account, which keeps its floor. -/
structure Unstaked (owner operatorInfo positionInfo : AccountInfo) (a : OperatorAccount)
    (p : PositionAccount) (amount : UInt64) (pool : Pool) (position : Position) (l' : Ledger) :
    Prop where
  signed : owner.isSigner = true
  operator : recordAt rt l operatorInfo.key = some (.operator a)
  found : recordAt rt l positionInfo.key = some (.position p)
  owned : p.owner = owner.key
  home : p.operator = operatorInfo.key
  unstaked : a.pool.unstake p.position amount = .ok (amount, pool, position)
  records : recordAt rt l' = Function.update
    (Function.update (recordAt rt l) operatorInfo.key (some (.operator (a.setPool pool))))
    positionInfo.key (some (.position (p.setPosition position)))
  paid : Pays l operatorInfo.key owner.key amount l'
  frame : ∀ k, k ≠ operatorInfo.key → k ≠ positionInfo.key → (l' k).data = (l k).data
  supply : l'.supply = l.supply

/-- A reward leaves the operator account; only the position is written. -/
structure Claimed (owner operatorInfo positionInfo : AccountInfo) (a : OperatorAccount)
    (p : PositionAccount) (l' : Ledger) : Prop where
  signed : owner.isSigner = true
  operator : recordAt rt l operatorInfo.key = some (.operator a)
  found : recordAt rt l positionInfo.key = some (.position p)
  owned : p.owner = owner.key
  home : p.operator = operatorInfo.key
  records : recordAt rt l' = Function.update (recordAt rt l) positionInfo.key
    (some (.position (p.setPosition (a.pool.claim p.position).2)))
  paid : Pays l operatorInfo.key owner.key (p.position.claimable a.rewardIndex) l'
  frame : ∀ k, k ≠ positionInfo.key → (l' k).data = (l k).data
  supply : l'.supply = l.supply

/-- The operator account once its bond is taken and its pool credited. -/
def slashedOperator (a : OperatorAccount) : OperatorAccount :=
  ({ a with bond := 0 } : OperatorAccount).setPool (a.pool.distribute (Split.of a.bond)).2

/-- Where the bond of this account goes when it is slashed. -/
def appliedSplit (a : OperatorAccount) : Split := (a.pool.distribute (Split.of a.bond)).1

/-- The conviction account is created at the accuser's expense; then the burn and
the victim's part leave the operator account, in this order. -/
structure Convicted (accuser operatorInfo convictionInfo : AccountInfo) (a : OperatorAccount)
    (c : ConvictionAccount) (l' : Ledger) : Prop where
  signed : accuser.isSigner = true
  system : (l accuser.key).owner = rt.systemProgram
  operator : recordAt rt l operatorInfo.key = some (.operator a)
  bonded : a.bond ≠ 0
  vacant : recordAt rt l convictionInfo.key = none
  convicted : c.operator = operatorInfo.key ∧ c.slashed = a.bond ∧
    c.owedToVictim = (appliedSplit a).victim
  records : recordAt rt l' = Function.update
    (Function.update (recordAt rt l) operatorInfo.key (some (.operator (slashedOperator a))))
    convictionInfo.key (some (.conviction c))
  paid : ∃ l₁ l₂, held l₁ convictionInfo.key = (rt.rent convictionLen).toNat ∧
    (∀ k, k ≠ accuser.key → k ≠ convictionInfo.key → held l₁ k = held l k) ∧
    Pays l₁ operatorInfo.key rt.incinerator (appliedSplit a).burn l₂ ∧
    Pays l₂ operatorInfo.key convictionInfo.key (appliedSplit a).victim l'
  frame : ∀ k, k ≠ operatorInfo.key → k ≠ convictionInfo.key → (l' k).data = (l k).data
  supply : l'.supply = l.supply

/-- What a conviction owes is paid, and owed no more. -/
structure VictimPaid (claimant convictionInfo : AccountInfo) (c : ConvictionAccount)
    (l' : Ledger) : Prop where
  signed : claimant.isSigner = true
  conviction : recordAt rt l convictionInfo.key = some (.conviction c)
  records : recordAt rt l' = Function.update (recordAt rt l) convictionInfo.key
    (some (.conviction { c with owedToVictim := 0 }))
  paid : Pays l convictionInfo.key claimant.key c.owedToVictim l'
  frame : ∀ k, k ≠ convictionInfo.key → (l' k).data = (l k).data
  supply : l'.supply = l.supply

/-- The clock of a withdrawal is set. -/
structure UnbondBegun (tx : Transaction) (authority operatorInfo : AccountInfo)
    (a : OperatorAccount) (l' : Ledger) : Prop where
  signed : authority.isSigner = true
  operator : recordAt rt l operatorInfo.key = some (.operator a)
  authorised : a.authority = authority.key
  bonded : a.bond ≠ 0
  unset : a.unbondAt = 0
  records : recordAt rt l' = Function.update (recordAt rt l) operatorInfo.key
    (some (.operator { a with unbondAt := tx.slot + unbondSlots }))
  kept : held l' = held l
  frame : ∀ k, k ≠ operatorInfo.key → (l' k).data = (l k).data
  supply : l'.supply = l.supply

/-- Once the clock has run, whatever bond is left goes to the authority. -/
structure BondWithdrawn (tx : Transaction) (authority operatorInfo : AccountInfo)
    (a : OperatorAccount) (l' : Ledger) : Prop where
  signed : authority.isSigner = true
  operator : recordAt rt l operatorInfo.key = some (.operator a)
  authorised : a.authority = authority.key
  matured : a.unbondAt ≠ 0 ∧ a.unbondAt ≤ tx.slot
  records : recordAt rt l' = Function.update (recordAt rt l) operatorInfo.key
    (some (.operator { a with bond := 0, unbondAt := 0 }))
  paid : Pays l operatorInfo.key authority.key a.bond l'
  frame : ∀ k, k ≠ operatorInfo.key → (l' k).data = (l k).data
  supply : l'.supply = l.supply

/-- Everything a successful instruction can have done. -/
inductive Effect (tx : Transaction) (accounts : List AccountInfo) : Instruction → Ledger → Prop
  | register {authority operatorInfo rest a l'} (hlist : accounts = authority :: operatorInfo :: rest)
      (h : Registered rt l authority operatorInfo a l') :
      Effect tx accounts (.register a.signingKey a.bond) l'
  | stake {owner operatorInfo positionInfo rest a p amount pool position l'}
      (hlist : accounts = owner :: operatorInfo :: positionInfo :: rest)
      (h : Staked rt l owner operatorInfo positionInfo a p amount pool position l') :
      Effect tx accounts (.stake amount) l'
  | unstake {owner operatorInfo positionInfo rest a p amount pool position l'}
      (hlist : accounts = owner :: operatorInfo :: positionInfo :: rest)
      (h : Unstaked rt l owner operatorInfo positionInfo a p amount pool position l') :
      Effect tx accounts (.unstake amount) l'
  | claim {owner operatorInfo positionInfo rest a p l'}
      (hlist : accounts = owner :: operatorInfo :: positionInfo :: rest)
      (h : Claimed rt l owner operatorInfo positionInfo a p l') : Effect tx accounts .claim l'
  | proveEquivocation {accuser operatorInfo convictionInfo burnTo rest a c l'}
      (hlist : accounts = accuser :: operatorInfo :: convictionInfo :: burnTo :: rest)
      (hburn : burnTo.key = rt.incinerator)
      (h : Convicted rt l accuser operatorInfo convictionInfo a c l') :
      Effect tx accounts .proveEquivocation l'
  | claimVictim {claimant convictionInfo rest c wireBytes l'}
      (hlist : accounts = claimant :: convictionInfo :: rest)
      (h : VictimPaid rt l claimant convictionInfo c l') :
      Effect tx accounts (.claimVictim wireBytes) l'
  | beginUnbond {authority operatorInfo rest a l'}
      (hlist : accounts = authority :: operatorInfo :: rest)
      (h : UnbondBegun rt l tx authority operatorInfo a l') : Effect tx accounts .beginUnbond l'
  /-- Asking again, while the clock is set, is a no-op. -/
  | beginUnbondAgain {authority operatorInfo rest a}
      (hlist : accounts = authority :: operatorInfo :: rest)
      (hoperator : recordAt rt l operatorInfo.key = some (.operator a)) (hset : a.unbondAt ≠ 0) :
      Effect tx accounts .beginUnbond l
  | withdrawBond {authority operatorInfo rest a l'}
      (hlist : accounts = authority :: operatorInfo :: rest)
      (h : BondWithdrawn rt l tx authority operatorInfo a l') : Effect tx accounts .withdrawBond l'

end Effects

section Success
variable {rt : Runtime} {l l' : Ledger} {accounts : List AccountInfo} {tx : Transaction}
  {o k : Pubkey}

lemma Stored.held_eq {r : Record} (h : Stored rt l k r l') : held l' = held l :=
  funext fun j => by rw [held, held, h.lamports]

lemma data_of_store {write : List UInt8 → Except SlashError (List UInt8)}
    (h : store l o write = .ok l') (hk : k ≠ o) : (l' k).data = (l k).data := by
  simp only [store, bind_eq_ok, Except.ok.injEq] at h
  obtain ⟨data, _, rfl⟩ := h
  rw [Ledger.setData_of_ne _ hk]

section Created
variable {payer destination : Pubkey} {lamports : UInt64} {space : ℕ}

lemma Created.vacant
    (h : Created rt.systemProgram l payer destination lamports space rt.programId l') :
    recordAt rt l destination = none := by
  apply recordAt_of_owner_ne
  rw [h.unused.1]
  exact Ne.symm rt.deployed

lemma Created.held_of_record
    (h : Created rt.systemProgram l payer destination lamports space rt.programId l')
    (hk : recordAt rt l k ≠ none) : held l' k = held l k := by
  obtain ⟨r, hr⟩ := Option.ne_none_iff_exists'.mp hk
  have hd : k ≠ destination := by
    intro he
    rw [he, h.vacant] at hr
    cases hr
  have hp : k ≠ payer := by
    intro he
    exact not_system_of_record hr (he ▸ h.payer_system)
  rw [held, held, (h.of_ne hd).2.2 hp]

end Created

lemma effect_of_register {signingKey : Bytes 32} {bond : UInt64}
    (h : register rt l accounts signingKey bond = .ok l') :
    Effect rt l tx accounts (.register signingKey bond) l' := by
  obtain ⟨authority, operatorInfo, system, rest, bump, l₁, hlist, hsigner, hbond, hc, hs⟩ :=
    register_ok h
  have hq := quiet_of_created hc
  have st := stored_of_store hs (show (l₁ operatorInfo.key).owner = rt.programId by
    rw [hc.destination_eq])
  refine .register (a := ⟨authority.key, signingKey, bond, 0, 0, 0, bump⟩) hlist ?_
  exact
    { signed := hsigner
      distinct := hc.distinct
      vacant := hc.vacant
      owned := rfl
      bonded := hbond
      fresh := ⟨rfl, rfl, rfl⟩
      records := by rw [st.records, hq.records]
      funded := by rw [st.held_eq, held, hc.destination_eq]
      kept := by
        rw [st.held_eq]
        exact hq.lamports
      untouched := by
        intro k hka hko
        rw [st.held_eq, held, held, (hc.of_ne hko).2.2 hka]
      frame := by
        intro k hk
        rw [data_of_store hs hk, (hc.of_ne hk).2.1]
      supply := by rw [st.supply, hq.supply] }

variable (rt l) in
/-- The position a stake goes to: the one that is there, or an empty one. -/
structure Opened (owner operatorInfo positionInfo : AccountInfo) (p : PositionAccount)
    (l' : Ledger) : Prop where
  owned : p.owner = owner.key
  home : p.operator = operatorInfo.key
  found : recordAt rt l positionInfo.key = some (.position p) ∨
    (recordAt rt l positionInfo.key = none ∧ p.position = ⟨0, 0, 0⟩ ∧ 0 < held l' positionInfo.key)
  records : recordAt rt l' = Function.update (recordAt rt l) positionInfo.key (some (.position p))
  kept : ∀ k, recordAt rt l k ≠ none → held l' k = held l k
  untouched : ∀ k, k ≠ owner.key → k ≠ positionInfo.key → held l' k = held l k
  payer : (l' owner.key).owner = (l owner.key).owner
  frame : ∀ k, k ≠ positionInfo.key → (l' k).data = (l k).data
  supply : l'.supply = l.supply

lemma opened_of_openPosition {owner operatorInfo positionInfo system : AccountInfo}
    {p : PositionAccount}
    (h : openPosition rt l owner operatorInfo positionInfo system = .ok (p, l')) :
    Opened rt l owner operatorInfo positionInfo p l' := by
  obtain ⟨hown, hop, hfound⟩ := openPosition_ok h
  rcases hfound with ⟨rfl, hk⟩ | ⟨l₁, hfresh, hc, hs⟩
  · refine ⟨hown, hop, .inl hk, ?_, fun _ _ => rfl, fun _ _ _ => rfl, rfl, fun _ _ => rfl, rfl⟩
    rw [← hk, Function.update_eq_self]
  · have hq := quiet_of_created hc
    have st := stored_of_store hs (show (l₁ positionInfo.key).owner = rt.programId by
      rw [hc.destination_eq])
    exact
      { owned := hown
        home := hop
        found := by
          refine .inr ⟨hc.vacant, hfresh, ?_⟩
          rw [st.held_eq, held, hc.destination_eq]
          exact rt.rent_pos positionLen
        records := by rw [st.records, hq.records]
        kept := by
          intro k hk
          rw [st.held_eq, hc.held_of_record hk]
        untouched := by
          intro k hko hkp
          rw [st.held_eq, held, held, (hc.of_ne hkp).2.2 hko]
        payer := by rw [st.owner, (hc.of_ne hc.distinct).1]
        frame := by
          intro k hk
          rw [data_of_store hs hk, (hc.of_ne hk).2.1]
        supply := by rw [st.supply, hq.supply] }

lemma effect_of_stake {amount : UInt64} (h : stake rt l accounts amount = .ok l') :
    Effect rt l tx accounts (.stake amount) l' := by
  obtain ⟨owner, operatorInfo, positionInfo, system, rest, a, p, l₁, pool, position, l₂, l₃, hlist,
    hsigner, ho, hopen, hstake, hsystem, hmove, hs₃, hs'⟩ := stake_ok h
  have hopened := opened_of_openPosition hopen
  have hm := Ledger.moved_of_move hmove
  have hkey : operatorInfo.key ≠ positionInfo.key := by
    intro he
    rcases hopened.found with hk | ⟨hk, _⟩ <;> rw [← he, ho] at hk <;> cases hk
  have ho₁ : recordAt rt l₁ operatorInfo.key = some (.operator a) := by
    rw [hopened.records, Function.update_of_ne hkey, ho]
  have hk₁ : recordAt rt l₁ positionInfo.key = some (.position p) := by
    rw [hopened.records, Function.update_self]
  have hrec₂ : recordAt rt l₂ = recordAt rt l₁ := recordAt_of_moved hm
  have st₃ := stored_of_store hs₃ (owner_of_recordAt (by rw [hrec₂]; exact ho₁))
  have st' := stored_of_store hs' (by
    rw [st₃.owner, hm.owner]
    exact owner_of_recordAt hk₁)
  have hheld : held l' = held l₂ := st'.held_eq.trans st₃.held_eq
  have hne : owner.key ≠ operatorInfo.key := by
    intro he
    exact not_system_of_record ho₁ (he ▸ hsystem)
  -- The transfer debits an account of the system program's, so records only gain.
  have hgain (k : Pubkey) (hk : recordAt rt l k ≠ none) : held l k ≤ held l₂ k := by
    have hk' : recordAt rt l₁ k ≠ none := by
      rw [hopened.records]
      by_cases he : k = positionInfo.key
      · rw [he, Function.update_self]
        simp
      · rwa [Function.update_of_ne he]
    rw [← hopened.kept k hk]
    exact (quiet_of_transfer hsystem hmove).lamports k hk'
  have heffect : Staked rt l owner operatorInfo positionInfo a p amount pool position l' :=
    { signed := hsigner
      system := hopened.payer ▸ hsystem
      operator := ho
      opened := by
        rcases hopened.found with hk | ⟨hk, hfresh, hpos⟩
        · exact .inl hk
        · refine .inr ⟨hk, hfresh, ?_⟩
          rw [hheld]
          exact hpos.trans_le ((quiet_of_transfer hsystem hmove).lamports _ (by rw [hk₁]; simp))
      owned := hopened.owned
      home := hopened.home
      staked := hstake
      records := by
        rw [st'.records, st₃.records, hrec₂, hopened.records, Function.update_comm hkey.symm,
          Function.update_idem]
      paid := by
        rw [hheld, ← hopened.kept operatorInfo.key (by simp [ho])]
        exact hm.credit hne
      kept := by
        rw [hheld]
        exact hgain
      untouched := by
        intro k hkw hko hkp
        rw [hheld, held, hm.frame k hkw hko]
        exact hopened.untouched k hkw hkp
      frame := by
        intro k hko hkp
        rw [data_of_store hs' hkp, data_of_store hs₃ hko, hm.data, hopened.frame k hkp]
      supply := by rw [st'.supply, st₃.supply, Ledger.supply_move hmove, hopened.supply] }
  exact .stake hlist heffect

lemma effect_of_unstake {amount : UInt64} (h : unstake rt l accounts amount = .ok l') :
    Effect rt l tx accounts (.unstake amount) l' := by
  obtain ⟨owner, operatorInfo, positionInfo, rest, a, p, paid, pool, position, l₁, l₂, hlist, hload,
    hun, hs₁, hs₂, hpay⟩ := unstake_eq_ok.mp h
  obtain ⟨hsigner, ho, hk, hown, hop⟩ := loadPosition_eq_ok.mp hload
  obtain ⟨_, hmove⟩ := payOutFromOperator_eq_ok.mp hpay
  have hm := Ledger.moved_of_move hmove
  have st₁ := stored_of_store hs₁ (owner_of_recordAt ho)
  have st₂ := stored_of_store hs₂ (by rw [st₁.owner]; exact owner_of_recordAt hk)
  obtain rfl : paid = amount := (Pool.unstake_eq_ok.mp hun).2.1
  have heffect : Unstaked rt l owner operatorInfo positionInfo a p paid pool position l' :=
    { signed := hsigner
      operator := ho
      found := hk
      owned := hown
      home := hop
      unstaked := hun
      records := by rw [recordAt_of_moved hm, st₂.records, st₁.records]
      paid := pays_of_move (st₂.held_eq.trans st₁.held_eq) hmove
      frame := by
        intro k hko hkp
        rw [hm.data, data_of_store hs₂ hkp, data_of_store hs₁ hko]
      supply := by rw [Ledger.supply_move hmove, st₂.supply, st₁.supply] }
  exact .unstake hlist heffect

lemma effect_of_claim (h : claim rt l accounts = .ok l') : Effect rt l tx accounts .claim l' := by
  obtain ⟨owner, operatorInfo, positionInfo, rest, a, p, l₁, hlist, hload, hs₁, hpay⟩ :=
    claim_eq_ok.mp h
  obtain ⟨hsigner, ho, hk, hown, hop⟩ := loadPosition_eq_ok.mp hload
  obtain ⟨_, hmove⟩ := payOutFromOperator_eq_ok.mp hpay
  have hm := Ledger.moved_of_move hmove
  have st₁ := stored_of_store hs₁ (owner_of_recordAt hk)
  refine .claim hlist (a := a) (p := p) ?_
  exact
    { signed := hsigner
      operator := ho
      found := hk
      owned := hown
      home := hop
      records := by rw [recordAt_of_moved hm, st₁.records]
      paid := pays_of_move st₁.held_eq hmove
      frame := by
        intro k hkp
        rw [hm.data, data_of_store hs₁ hkp]
      supply := by rw [Ledger.supply_move hmove, st₁.supply] }

lemma effect_of_proveEquivocation (h : proveEquivocation rt tx l accounts = .ok l') :
    Effect rt l tx accounts .proveEquivocation l' := by
  obtain ⟨accuser, operatorInfo, convictionInfo, burnTo, sysvar, system, rest, a, index, verifier,
    evidence, hlist, hsigner, hburn, ho, _, _, hconvict⟩ := proveEquivocation_eq_ok.mp h
  obtain ⟨c, l₁, l₂, l₃, l₄, hbond, hc, hcop, hslashed, howed, hs₂, hs₃, hm₄, hm'⟩ :=
    convict_ok hconvict
  have hq := quiet_of_created hc
  have hkey : convictionInfo.key ≠ operatorInfo.key := by
    intro he
    have hnone := hc.vacant
    rw [he, ho] at hnone
    cases hnone
  have st₂ := stored_of_store hs₂ (show (l₁ convictionInfo.key).owner = rt.programId by
    rw [hc.destination_eq])
  have st₃ := stored_of_store hs₃ (by
    rw [st₂.owner]
    exact owner_of_recordAt (show recordAt rt l₁ operatorInfo.key = _ by rw [hq.records, ho]))
  have hmoved₄ := Ledger.moved_of_move hm₄
  have hmoved' := Ledger.moved_of_move hm'
  refine .proveEquivocation hlist hburn (a := a) (c := c) ?_
  exact
    { signed := hsigner
      system := hc.payer_system
      operator := ho
      bonded := hbond
      vacant := hc.vacant
      convicted := ⟨hcop, hslashed, howed⟩
      records := by
        rw [recordAt_of_moved hmoved', recordAt_of_moved hmoved₄, st₃.records, st₂.records,
          hq.records, Function.update_comm hkey]
        rfl
      paid := by
        refine ⟨l₁, l₄, by rw [held, hc.destination_eq], ?_, ?_, pays_of_move rfl hm'⟩
        · intro k hka hkc
          rw [held, held, (hc.of_ne hkc).2.2 hka]
        · rw [← hburn]
          exact pays_of_move (st₃.held_eq.trans st₂.held_eq) hm₄
      frame := by
        intro k hko hkc
        rw [hmoved'.data, hmoved₄.data, data_of_store hs₃ hko, data_of_store hs₂ hkc,
          (hc.of_ne hkc).2.1]
      supply := by
        rw [Ledger.supply_move hm', Ledger.supply_move hm₄, st₃.supply, st₂.supply, hq.supply] }

lemma victimPaid_of_claimVictim {wireBytes : List UInt8}
    (h : claimVictim rt l accounts wireBytes = .ok l') :
    ∃ (claimant convictionInfo : AccountInfo) (rest : List AccountInfo) (c : ConvictionAccount),
      accounts = claimant :: convictionInfo :: rest ∧ rt.hash wireBytes = c.wrongedTxHash ∧
      feePayer wireBytes = .ok claimant.key ∧ VictimPaid rt l claimant convictionInfo c l' := by
  obtain ⟨claimant, convictionInfo, rest, c, l₁, hlist, hsigner, hc, hhash, hpayer, hs, hmove⟩ :=
    claimVictim_ok h
  have hm := Ledger.moved_of_move hmove
  have st := stored_of_store hs (owner_of_recordAt hc)
  refine ⟨claimant, convictionInfo, rest, c, hlist, hhash, hpayer, ?_⟩
  exact
    { signed := hsigner
      conviction := hc
      records := by rw [recordAt_of_moved hm, st.records]
      paid := pays_of_move st.held_eq hmove
      frame := by
        intro k hk
        rw [hm.data, data_of_store hs hk]
      supply := by rw [Ledger.supply_move hmove, st.supply] }

lemma effect_of_claimVictim {wireBytes : List UInt8}
    (h : claimVictim rt l accounts wireBytes = .ok l') :
    Effect rt l tx accounts (.claimVictim wireBytes) l' := by
  obtain ⟨claimant, convictionInfo, rest, c, hlist, _, _, hpaid⟩ := victimPaid_of_claimVictim h
  exact .claimVictim hlist hpaid

lemma effect_of_beginUnbond (h : beginUnbond rt tx l accounts = .ok l') :
    Effect rt l tx accounts .beginUnbond l' := by
  obtain ⟨authority, operatorInfo, rest, a, hlist, ha, hbond, hset⟩ := beginUnbond_eq_ok.mp h
  obtain ⟨hsigner, ho, hauthority⟩ := asAuthority_eq_ok.mp ha
  rcases hset with ⟨hset, rfl⟩ | ⟨hunset, hs⟩
  · exact .beginUnbondAgain hlist ho hset
  · have st := stored_of_store hs (owner_of_recordAt ho)
    exact .beginUnbond hlist (a := a)
      { signed := hsigner
        operator := ho
        authorised := hauthority
        bonded := hbond
        unset := hunset
        records := st.records
        kept := st.held_eq
        frame := fun k hk => data_of_store hs hk
        supply := st.supply }

lemma effect_of_withdrawBond (h : withdrawBond rt tx l accounts = .ok l') :
    Effect rt l tx accounts .withdrawBond l' := by
  obtain ⟨authority, operatorInfo, rest, a, l₁, hlist, ha, hset, hslot, hs, hpay⟩ :=
    withdrawBond_eq_ok.mp h
  obtain ⟨hsigner, ho, hauthority⟩ := asAuthority_eq_ok.mp ha
  obtain ⟨_, hmove⟩ := payOutFromOperator_eq_ok.mp hpay
  have hm := Ledger.moved_of_move hmove
  have st := stored_of_store hs (owner_of_recordAt ho)
  exact .withdrawBond hlist (a := a)
    { signed := hsigner
      operator := ho
      authorised := hauthority
      matured := ⟨hset, hslot⟩
      records := by rw [recordAt_of_moved hm, st.records]
      paid := pays_of_move st.held_eq hmove
      frame := by
        intro k hk
        rw [hm.data, data_of_store hs hk]
      supply := by rw [Ledger.supply_move hmove, st.supply] }

theorem effect_of_dispatch {i : Instruction} (h : dispatch rt tx l accounts i = .ok l') :
    Effect rt l tx accounts i l' := by
  cases i with
  | register signingKey bond => exact effect_of_register h
  | stake amount => exact effect_of_stake h
  | unstake amount => exact effect_of_unstake h
  | claim => exact effect_of_claim h
  | proveEquivocation => exact effect_of_proveEquivocation h
  | claimVictim wireBytes => exact effect_of_claimVictim h
  | beginUnbond => exact effect_of_beginUnbond h
  | withdrawBond => exact effect_of_withdrawBond h

end Success

end Blitz.Program
