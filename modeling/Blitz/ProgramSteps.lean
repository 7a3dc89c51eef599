import Blitz.ProgramEffects

/-! What each instruction did, given that it succeeded: the records it read, the
calls that went through, and the ledgers in between. -/
namespace Blitz.Program
open LittleEndian CheckedArith Slashing

section Steps
variable {rt : Runtime} {l l' : Ledger} {accounts : List AccountInfo} {tx : Transaction}

lemma ownedBy_eq_ok {info : AccountInfo} {u : Unit} :
    ownedBy rt l info = .ok u ↔ (l info.key).owner = rt.programId := require_eq_ok

lemma owned_operator {info : AccountInfo} {a : OperatorAccount}
    (ho : ownedBy rt l info = .ok ()) (ha : OperatorAccount.read (l info.key).data = .ok a) :
    recordAt rt l info.key = some (.operator a) :=
  recordAt_operator.mpr ⟨ownedBy_eq_ok.mp ho, ha⟩

theorem register_ok {signingKey : Bytes 32} {bond : UInt64}
    (h : register rt l accounts signingKey bond = .ok l') :
    ∃ authority operatorInfo system rest bump l₁,
      accounts = authority :: operatorInfo :: system :: rest ∧
      authority.isSigner = true ∧ bond ≠ 0 ∧
      Created rt.systemProgram l authority.key operatorInfo.key (rt.rent operatorLen + bond)
        operatorLen rt.programId l₁ ∧
      store l₁ operatorInfo.key
        (Record.operator ⟨authority.key, signingKey, bond, 0, 0, 0, bump⟩).write = .ok l' := by
  unfold register at h
  split at h
  · next authority operatorInfo system rest =>
    simp only [bind_eq_ok, require_eq_ok, exists_const] at h
    obtain ⟨hsigner, hbond, bump, _, l₁, hcreate, hstore⟩ := h
    have hc := rt.create_ok _ _ _ _ _ _ _ _ _ (by decide) hcreate
    exact ⟨authority, operatorInfo, system, rest, bump, l₁, rfl, hsigner, hbond, hc, hstore⟩
  · cases h

theorem openPosition_ok {owner operatorInfo positionInfo system : AccountInfo} {p : PositionAccount}
    (h : openPosition rt l owner operatorInfo positionInfo system = .ok (p, l')) :
    p.owner = owner.key ∧ p.operator = operatorInfo.key ∧
      ((l' = l ∧ recordAt rt l positionInfo.key = some (.position p)) ∨
        ∃ l₁, p.position = ⟨0, 0, 0⟩ ∧
          Created rt.systemProgram l owner.key positionInfo.key (rt.rent positionLen) positionLen
            rt.programId l₁ ∧
          store l₁ positionInfo.key (Record.position p).write = .ok l') := by
  simp only [openPosition, bind_eq_ok] at h
  obtain ⟨bump, _, h⟩ := h
  split_ifs at h with hsystem
  · simp only [bind_eq_ok, Except.ok.injEq, Prod.mk.injEq] at h
    obtain ⟨l₁, hcreate, l₂, hstore, rfl, rfl⟩ := h
    have hc := rt.create_ok _ _ _ _ _ _ _ _ _ (by decide) hcreate
    exact ⟨rfl, rfl, Or.inr ⟨l₁, rfl, hc, hstore⟩⟩
  · simp only [bind_eq_ok, require_eq_ok, slash_eq_ok, exists_const, Except.ok.injEq,
      Prod.mk.injEq] at h
    obtain ⟨_, howned, q, hq, hmine, rfl, rfl⟩ := h
    obtain ⟨hown, hop⟩ := not_or.mp hmine
    exact ⟨not_not.mp hown, not_not.mp hop,
      Or.inl ⟨rfl, recordAt_position.mpr ⟨ownedBy_eq_ok.mp howned, hq⟩⟩⟩

theorem stake_ok {amount : UInt64} (h : stake rt l accounts amount = .ok l') :
    ∃ owner operatorInfo positionInfo system rest a p l₁ pool position l₂ l₃,
      accounts = owner :: operatorInfo :: positionInfo :: system :: rest ∧
      owner.isSigner = true ∧ recordAt rt l operatorInfo.key = some (.operator a) ∧
      openPosition rt l owner operatorInfo positionInfo system = .ok (p, l₁) ∧
      a.pool.stake p.position amount = .ok (pool, position) ∧
      (l₁ owner.key).owner = rt.systemProgram ∧
      l₁.move owner.key operatorInfo.key amount = some l₂ ∧
      store l₂ operatorInfo.key (Record.operator (a.setPool pool)).write = .ok l₃ ∧
      store l₃ positionInfo.key (Record.position (p.setPosition position)).write = .ok l' := by
  unfold stake at h
  split at h
  · next owner operatorInfo positionInfo system rest =>
    simp only [bind_eq_ok, require_eq_ok, slash_eq_ok, mapError_eq_ok, exists_const] at h
    obtain ⟨hsigner, _, howned, a, ha, ⟨p, l₁⟩, hopen, ⟨pool, position⟩, hstake, l₂, htransfer,
      l₃, hstore, hstore'⟩ := h
    obtain ⟨hsystem, hmove⟩ := rt.transfer_ok _ _ _ _ _ _ _ htransfer
    exact ⟨owner, operatorInfo, positionInfo, system, rest, a, p, l₁, pool, position, l₂, l₃, rfl,
      hsigner, owned_operator howned ha, hopen, hstake, hsystem, hmove, hstore, hstore'⟩
  · cases h

theorem loadPosition_eq_ok {owner operatorInfo positionInfo : AccountInfo} {a : OperatorAccount}
    {p : PositionAccount} :
    loadPosition rt l owner operatorInfo positionInfo = .ok (a, p) ↔
      owner.isSigner = true ∧ recordAt rt l operatorInfo.key = some (.operator a) ∧
        recordAt rt l positionInfo.key = some (.position p) ∧ p.owner = owner.key ∧
        p.operator = operatorInfo.key := by
  simp only [loadPosition, bind_eq_ok, require_eq_ok, slash_eq_ok, exists_const, Except.ok.injEq,
    Prod.mk.injEq, recordAt_operator, recordAt_position, ownedBy_eq_ok]
  constructor
  · rintro ⟨hs, ho, hp, a', ha, p', hp', hmine, rfl, rfl⟩
    obtain ⟨hown, hop⟩ := not_or.mp hmine
    exact ⟨hs, ⟨ho, ha⟩, ⟨hp, hp'⟩, not_not.mp hown, not_not.mp hop⟩
  · rintro ⟨hs, ⟨ho, ha⟩, ⟨hp, hp'⟩, hown, hop⟩
    exact ⟨hs, ho, hp, a, ha, p, hp', by simp [hown, hop], rfl, rfl⟩

lemma payOut_eq_ok {source destination : AccountInfo} {amount : UInt64} :
    payOut l source destination amount = .ok l' ↔
      l.move source.key destination.key amount = some l' := orElse_eq_ok

lemma payOutFromOperator_eq_ok {operatorInfo destination : AccountInfo} {a : OperatorAccount}
    {amount : UInt64} :
    payOutFromOperator rt l operatorInfo a destination amount = .ok l' ↔
      (reserved rt a).toNat + amount.toNat ≤ (l operatorInfo.key).lamports.toNat ∧
        l.move operatorInfo.key destination.key amount = some l' := by
  simp only [payOutFromOperator, bind_eq_ok, orElse_eq_ok, require_eq_ok, payOut_eq_ok,
    exists_const, checkedSub_eq_some]
  constructor
  · rintro ⟨remaining, hr, hfloor, hmove⟩
    have hle := UInt64.le_iff_toNat_le.mp (UInt64.not_lt.mp hfloor)
    exact ⟨by omega, hmove⟩
  · rintro ⟨hfloor, hmove⟩
    have hle : amount ≤ (l operatorInfo.key).lamports := UInt64.le_iff_toNat_le.mpr (by omega)
    have hsub := UInt64.toNat_sub_of_le _ _ hle
    refine ⟨(l operatorInfo.key).lamports - amount, by omega, ?_, hmove⟩
    rw [UInt64.not_lt, UInt64.le_iff_toNat_le]
    omega

theorem unstake_eq_ok {amount : UInt64} :
    unstake rt l accounts amount = .ok l' ↔
      ∃ owner operatorInfo positionInfo rest a p paid pool position l₁ l₂,
        accounts = owner :: operatorInfo :: positionInfo :: rest ∧
        loadPosition rt l owner operatorInfo positionInfo = .ok (a, p) ∧
        a.pool.unstake p.position amount = .ok (paid, pool, position) ∧
        store l operatorInfo.key (Record.operator (a.setPool pool)).write = .ok l₁ ∧
        store l₁ positionInfo.key (Record.position (p.setPosition position)).write = .ok l₂ ∧
        payOutFromOperator rt l₂ operatorInfo (a.setPool pool) owner amount = .ok l' := by
  constructor
  · intro h
    unfold unstake at h
    split at h
    · next owner operatorInfo positionInfo rest =>
      simp only [bind_eq_ok, slash_eq_ok, mapError_eq_ok] at h
      obtain ⟨⟨a, p⟩, hload, ⟨paid, pool, position⟩, hun, l₁, h₁, l₂, h₂, hpay⟩ := h
      exact ⟨owner, operatorInfo, positionInfo, rest, a, p, paid, pool, position, l₁, l₂, rfl,
        hload, hun, h₁, h₂, hpay⟩
    · cases h
  · rintro ⟨owner, operatorInfo, positionInfo, rest, a, p, paid, pool, position, l₁, l₂, rfl, hload,
      hun, h₁, h₂, hpay⟩
    simp only [unstake, bind_eq_ok, slash_eq_ok, mapError_eq_ok]
    exact ⟨(a, p), hload, (paid, pool, position), hun, l₁, h₁, l₂, h₂, hpay⟩

theorem claim_eq_ok :
    claim rt l accounts = .ok l' ↔
      ∃ owner operatorInfo positionInfo rest a p l₁,
        accounts = owner :: operatorInfo :: positionInfo :: rest ∧
        loadPosition rt l owner operatorInfo positionInfo = .ok (a, p) ∧
        store l positionInfo.key
          (Record.position (p.setPosition (a.pool.claim p.position).2)).write = .ok l₁ ∧
        payOutFromOperator rt l₁ operatorInfo a owner (a.pool.claim p.position).1 = .ok l' := by
  constructor
  · intro h
    unfold claim at h
    split at h
    · next owner operatorInfo positionInfo rest =>
      simp only [bind_eq_ok] at h
      obtain ⟨⟨a, p⟩, hload, l₁, h₁, hpay⟩ := h
      exact ⟨owner, operatorInfo, positionInfo, rest, a, p, l₁, rfl, hload, h₁, hpay⟩
    · cases h
  · rintro ⟨owner, operatorInfo, positionInfo, rest, a, p, l₁, rfl, hload, h₁, hpay⟩
    simp only [claim, bind_eq_ok]
    exact ⟨(a, p), hload, l₁, h₁, hpay⟩

theorem findVerifier_ok {sysvar : AccountInfo} {index : UInt16} {verifier : List UInt8}
    (h : findVerifier rt tx sysvar = .ok (index, verifier)) :
    tx.current.toNat = index.toNat + 1 ∧
      tx.instructions[index.toNat]? = some (rt.ed25519Program, verifier) := by
  simp only [findVerifier, bind_eq_ok, require_eq_ok, exists_const, Except.ok.injEq,
    Prod.mk.injEq] at h
  obtain ⟨here, hcurrent, hone, ⟨programId, data⟩, hload, hprogram, rfl, rfl⟩ := h
  obtain rfl := rt.current_ok _ _ _ hcurrent
  have hsub := UInt16.toNat_sub_of_le _ _ hone
  have hle := UInt16.le_iff_toNat_le.mp hone
  simp only at hprogram
  refine ⟨?_, ?_⟩
  · rw [hsub]
    simp only [UInt16.toNat_one] at hle ⊢
    omega
  · rw [← hprogram]
    exact rt.instruction_ok _ _ _ _ hload

theorem convict_ok {accuser operatorInfo convictionInfo burnTo system : AccountInfo}
    {a : OperatorAccount} {evidence : Equivocation}
    (h : convict rt tx l accuser operatorInfo convictionInfo burnTo system a evidence = .ok l') :
    ∃ (c : ConvictionAccount) (l₁ l₂ l₃ l₄ : Ledger),
      a.bond ≠ 0 ∧
      Created rt.systemProgram l accuser.key convictionInfo.key (rt.rent convictionLen)
        convictionLen rt.programId l₁ ∧
      c.operator = operatorInfo.key ∧ c.slashed = a.bond ∧
      c.owedToVictim = (a.pool.distribute (Split.of a.bond)).1.victim ∧
      store l₁ convictionInfo.key (Record.conviction c).write = .ok l₂ ∧
      store l₂ operatorInfo.key (Record.operator (({ a with bond := 0 } : OperatorAccount).setPool
        (a.pool.distribute (Split.of a.bond)).2)).write = .ok l₃ ∧
      l₃.move operatorInfo.key burnTo.key (a.pool.distribute (Split.of a.bond)).1.burn = some l₄ ∧
      l₄.move operatorInfo.key convictionInfo.key
        (a.pool.distribute (Split.of a.bond)).1.victim = some l' := by
  simp only [convict, bind_eq_ok, require_eq_ok, exists_const, payOut_eq_ok] at h
  obtain ⟨bump, _, _, hbond, l₁, hcreate, l₂, h₂, l₃, h₃, l₄, h₄, h₅⟩ := h
  have hc := rt.create_ok _ _ _ _ _ _ _ _ _ (by decide) hcreate
  exact ⟨_, l₁, l₂, l₃, l₄, hbond, hc, rfl, rfl, rfl, h₂, h₃, h₄, h₅⟩

theorem proveEquivocation_eq_ok :
    proveEquivocation rt tx l accounts = .ok l' ↔
      ∃ accuser operatorInfo convictionInfo burnTo sysvar system rest a index verifier evidence,
        accounts = accuser :: operatorInfo :: convictionInfo :: burnTo :: sysvar :: system :: rest ∧
        accuser.isSigner = true ∧ burnTo.key = rt.incinerator ∧
        recordAt rt l operatorInfo.key = some (.operator a) ∧
        findVerifier rt tx sysvar = .ok (index, verifier) ∧
        checkEvidence a.signingKey verifier index = .ok evidence ∧
        convict rt tx l accuser operatorInfo convictionInfo burnTo system a evidence = .ok l' := by
  constructor
  · intro h
    unfold proveEquivocation at h
    split at h
    · next accuser operatorInfo convictionInfo burnTo sysvar system rest =>
      simp only [bind_eq_ok, require_eq_ok, slash_eq_ok, exists_const] at h
      obtain ⟨hsigner, hburn, _, howned, a, ha, ⟨index, verifier⟩, hfind, evidence, hevidence,
        hconvict⟩ := h
      exact ⟨accuser, operatorInfo, convictionInfo, burnTo, sysvar, system, rest, a, index, verifier,
        evidence, rfl, hsigner, hburn, owned_operator howned ha, hfind, hevidence, hconvict⟩
    · cases h
  · rintro ⟨accuser, operatorInfo, convictionInfo, burnTo, sysvar, system, rest, a, index, verifier,
      evidence, rfl, hsigner, hburn, ho, hfind, hevidence, hconvict⟩
    obtain ⟨howned, ha⟩ := recordAt_operator.mp ho
    simp only [proveEquivocation, bind_eq_ok, require_eq_ok, slash_eq_ok, exists_const]
    exact ⟨hsigner, hburn, (), ownedBy_eq_ok.mpr howned, a, ha, (index, verifier), hfind, evidence,
      hevidence, hconvict⟩

theorem asAuthority_eq_ok {authority operatorInfo : AccountInfo} {a : OperatorAccount} :
    asAuthority rt l authority operatorInfo = .ok a ↔
      authority.isSigner = true ∧ recordAt rt l operatorInfo.key = some (.operator a) ∧
        a.authority = authority.key := by
  simp only [asAuthority, bind_eq_ok, require_eq_ok, slash_eq_ok, exists_const,
    Except.ok.injEq, recordAt_operator, ownedBy_eq_ok]
  constructor
  · intro hok
    obtain ⟨hsigner, howned, a', ha, hauthority, heq⟩ := hok
    subst heq
    exact ⟨hsigner, ⟨howned, ha⟩, hauthority⟩
  · intro hauthorised
    obtain ⟨hsigner, ⟨howned, ha⟩, hauthority⟩ := hauthorised
    exact ⟨hsigner, howned, a, ha, hauthority, rfl⟩

theorem beginUnbond_eq_ok :
    beginUnbond rt tx l accounts = .ok l' ↔
      ∃ authority operatorInfo rest a,
        accounts = authority :: operatorInfo :: rest ∧
        asAuthority rt l authority operatorInfo = .ok a ∧ a.bond ≠ 0 ∧
        ((a.unbondAt ≠ 0 ∧ l' = l) ∨
          (a.unbondAt = 0 ∧ store l operatorInfo.key
            (Record.operator { a with unbondAt := tx.slot + unbondSlots }).write = .ok l')) := by
  constructor
  · intro h
    unfold beginUnbond at h
    split at h
    · next authority operatorInfo rest =>
      simp only [bind_eq_ok, require_eq_ok, exists_const] at h
      obtain ⟨a, ha, hbond, h⟩ := h
      refine ⟨authority, operatorInfo, rest, a, rfl, ha, hbond, ?_⟩
      split_ifs at h with hat
      · exact .inr ⟨hat, h⟩
      · exact .inl ⟨hat, (Except.ok.inj h).symm⟩
    · cases h
  · intro hok
    obtain ⟨authority, operatorInfo, rest, a, haccounts, ha, hbond, h⟩ := hok
    subst haccounts
    simp only [beginUnbond, bind_eq_ok, require_eq_ok, exists_const]
    refine ⟨a, ha, hbond, ?_⟩
    rcases h with ⟨hat, rfl⟩ | ⟨hat, h⟩
    · rw [if_neg hat]
    · rw [if_pos hat]
      exact h

theorem withdrawBond_eq_ok :
    withdrawBond rt tx l accounts = .ok l' ↔
      ∃ authority operatorInfo rest a l₁,
        accounts = authority :: operatorInfo :: rest ∧
        asAuthority rt l authority operatorInfo = .ok a ∧
        a.unbondAt ≠ 0 ∧ a.unbondAt ≤ tx.slot ∧
        store l operatorInfo.key (Record.operator { a with bond := 0, unbondAt := 0 }).write =
          .ok l₁ ∧
        payOutFromOperator rt l₁ operatorInfo { a with bond := 0, unbondAt := 0 } authority
          a.bond = .ok l' := by
  constructor
  · intro h
    unfold withdrawBond at h
    split at h
    · next authority operatorInfo rest =>
      simp only [bind_eq_ok, require_eq_ok, exists_const] at h
      obtain ⟨a, ha, hlock, l₁, h₁, hpay⟩ := h
      obtain ⟨hset, hslot⟩ := not_or.mp hlock
      exact ⟨authority, operatorInfo, rest, a, l₁, rfl, ha, hset, UInt64.not_lt.mp hslot, h₁, hpay⟩
    · cases h
  · intro hok
    obtain ⟨authority, operatorInfo, rest, a, l₁, haccounts, ha, hset, hslot, h₁, hpay⟩ := hok
    subst haccounts
    simp only [withdrawBond, bind_eq_ok, require_eq_ok, exists_const]
    exact ⟨a, ha, not_or.mpr ⟨hset, UInt64.not_lt.mpr hslot⟩, l₁, h₁, hpay⟩

theorem claimVictim_ok {wire : List UInt8} (h : claimVictim rt l accounts wire = .ok l') :
    ∃ (claimant convictionInfo : AccountInfo) (rest : List AccountInfo) (c : ConvictionAccount)
        (l₁ : Ledger),
      accounts = claimant :: convictionInfo :: rest ∧ claimant.isSigner = true ∧
      recordAt rt l convictionInfo.key = some (.conviction c) ∧
      rt.hash wire = c.wrongedTxHash ∧ feePayer wire = .ok claimant.key ∧
      store l convictionInfo.key (Record.conviction { c with owedToVictim := 0 }).write = .ok l₁ ∧
      l₁.move convictionInfo.key claimant.key c.owedToVictim = some l' := by
  unfold claimVictim at h
  split at h
  · next claimant convictionInfo rest =>
    simp only [bind_eq_ok, require_eq_ok, slash_eq_ok, exists_const, payOut_eq_ok] at h
    obtain ⟨hsigner, _, howned, c, hc, hhash, payer, hpayer, rfl, l₁, h₁, hmove⟩ := h
    exact ⟨claimant, convictionInfo, rest, c, l₁, rfl, hsigner,
      recordAt_conviction.mpr ⟨ownedBy_eq_ok.mp howned, hc⟩, hhash, hpayer, h₁, hmove⟩
  · cases h

end Steps

end Blitz.Program
