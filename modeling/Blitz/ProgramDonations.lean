import Blitz.ProgramTimeline

/-! Lamports nobody asked for: what transfers by third parties can do to a
conviction that has not been made yet. -/
namespace Blitz.Program
open CheckedArith Slashing Traces

/-- A plain transfer, out of an account of the system program and to any address. -/
def Transfers (rt : Runtime) (l l' : Ledger) : Prop :=
  ∃ source destination amount, (l source).owner = rt.systemProgram ∧
    l.move source destination amount = some l'

/-- What the address of a conviction is derived from. -/
def convictionSeeds (rt : Runtime) (o : Pubkey) (evidence : Equivocation) : List (List UInt8) :=
  [convictionSeed, o.val, (rt.hash evidence.ordered.1).val, (rt.hash evidence.ordered.2).val]

/-- A signer with a plain account of the system program that can bear a cost. -/
structure CanPay (rt : Runtime) (l : Ledger) (payer : AccountInfo) (lamports : UInt64) : Prop where
  signed : payer.isSigner = true
  system : (l payer.key).owner = rt.systemProgram
  plain : (l payer.key).data = []
  enough : lamports.toNat ≤ held l payer.key

/-- `create_account` called with the seeds of an address: where the address is
unused and the payer can pay, it goes through. A program can have at most ten
kibibytes allocated in one call. -/
def CreatesAt (rt : Runtime) (seeds : List (List UInt8)) : Prop :=
  ∀ l payer destination system lamports space, CanPay rt l payer lamports →
    payer.key ≠ destination.key → system.key = rt.systemProgram → space ≤ 10240 →
    destination.key = (rt.findProgramAddress seeds rt.programId).1 →
    l destination.key = ⟨0, rt.systemProgram, []⟩ →
    ∃ l', rt.invokeSigned l
      (.createAccount payer.key destination.key lamports space rt.programId)
      [payer, destination, system] (seeds ++ [[(rt.findProgramAddress seeds rt.programId).2]]) =
        .ok l'

section Donations
variable {rt : Runtime} {backed : Pubkey → Prop} {l₀ l l' : Ledger} {tx : Transaction}
  {accounts : List AccountInfo} {k : Pubkey} {a : OperatorAccount} {evidence : Equivocation}
  {t : List (Entry Moment Event)} {slot : UInt64}

lemma Transfers.owner (h : Transfers rt l l') : (l' k).owner = (l k).owner := by
  obtain ⟨source, destination, amount, _, hmove⟩ := h
  exact (Ledger.moved_of_move hmove).owner k

lemma Transfers.data (h : Transfers rt l l') : (l' k).data = (l k).data := by
  obtain ⟨source, destination, amount, _, hmove⟩ := h
  exact (Ledger.moved_of_move hmove).data k

lemma Transfers.external (h : Transfers rt l l') (hsupply : l.supply < 2 ^ 64) :
    External rt l l' := by
  have howner (k : Pubkey) : (l' k).owner = (l k).owner := h.owner
  have hdata (k : Pubkey) : (l' k).data = (l k).data := h.data
  obtain ⟨source, destination, amount, hsystem, hmove⟩ := h
  refine ⟨?_, ?_, ?_, ?_⟩
  · rw [Ledger.supply_move hmove]
    exact hsupply
  · intro k hk _
    refine ⟨(howner k).trans hk, hdata k, (pays_of_move rfl hmove).le ?_⟩
    intro hsource
    rw [hsource, hsystem] at hk
    exact rt.deployed hk.symm
  · intro k _ _ _
    exact .inl (hdata k)
  · intro k hk hk'
    exact absurd ((howner k).symm.trans hk') hk

theorem InvOn.transfers (hinv : InvOn rt backed l)
    (h : Relation.ReflTransGen (Transfers rt) l l') : InvOn rt backed l' := by
  induction h with
  | refl => exact hinv
  | tail _ hstep ih => exact ih.external (hstep.external ih.supply)

theorem account_of_transfers (h : Relation.ReflTransGen (Transfers rt) l l') (k : Pubkey) :
    (l' k).owner = (l k).owner ∧ (l' k).data = (l k).data := by
  induction h with
  | refl => exact ⟨rfl, rfl⟩
  | tail _ hstep ih => exact ⟨hstep.owner.trans ih.1, hstep.data.trans ih.2⟩

lemma CanPay.of_move {payer : AccountInfo} {lamports amount : UInt64} {source destination : Pubkey}
    (h : CanPay rt l payer lamports) (hmove : l.move source destination amount = some l')
    (hne : payer.key ≠ source) : CanPay rt l' payer lamports := by
  have hmoved := Ledger.moved_of_move hmove
  refine ⟨h.signed, ?_, ?_, ?_⟩
  · rw [hmoved.owner, h.system]
  · rw [hmoved.data, h.plain]
  · exact h.enough.trans ((pays_of_move rfl hmove).le hne)

lemma unused_of_process
    (h : process rt tx l accounts Instruction.proveEquivocation.write = .ok l')
    (hnamed : namedAt accounts 2 = some k) : held l k = 0 := by
  -- A conviction is created, so nothing can be at its address before.
  rw [process_write] at h
  obtain ⟨accuser, operatorInfo, convictionInfo, burnTo, sysvar, system, rest, a, index, verifier,
    evidence, hlist, _, _, _, _, _, hconvict⟩ := proveEquivocation_eq_ok.mp h
  obtain ⟨c, l₁, l₂, l₃, l₄, _, hcreated, _⟩ := convict_ok hconvict
  rw [hlist] at hnamed
  obtain rfl : convictionInfo.key = k := Option.some.inj hnamed
  rw [held, hcreated.unused.2, UInt64.toNat_zero]

lemma exists_moves {source : Pubkey} (first second : Pubkey) {x y : UInt64}
    (hsupply : l.supply < 2 ^ 64) (henough : x.toNat + y.toNat ≤ held l source) :
    ∃ l₁ l₂, l.move source first x = some l₁ ∧ l₁.move source second y = some l₂ := by
  obtain ⟨l₁, h₁⟩ := Ledger.exists_move_of_supply first hsupply
    (show x.toNat ≤ held l source by omega)
  have hleft := (pays_of_move rfl h₁).source_le
  obtain ⟨l₂, h₂⟩ := Ledger.exists_move_of_supply second
    (by rw [Ledger.supply_move h₁]; exact hsupply) (show y.toNat ≤ held l₁ source by omega)
  exact ⟨l₁, l₂, h₁, h₂⟩

section Convict
variable {accuser operatorInfo convictionInfo system : AccountInfo}

lemma exists_opened {seeds : List (List UInt8)} (c : ConvictionAccount)
    (hpay : CanPay rt l accuser (rt.rent convictionLen)) (hsystem : system.key = rt.systemProgram)
    (hcreates : CreatesAt rt seeds)
    (hpda : convictionInfo.key = (rt.findProgramAddress seeds rt.programId).1)
    (hunused : l convictionInfo.key = ⟨0, rt.systemProgram, []⟩) :
    ∃ l₁ l₂, rt.invokeSigned l (.createAccount accuser.key convictionInfo.key
        (rt.rent convictionLen) convictionLen rt.programId) [accuser, convictionInfo, system]
        (seeds ++ [[(rt.findProgramAddress seeds rt.programId).2]]) = .ok l₁ ∧
      store l₁ convictionInfo.key (Record.conviction c).write = .ok l₂ ∧
      recordAt rt l₂ =
        Function.update (recordAt rt l) convictionInfo.key (some (.conviction c)) ∧
      (∀ k, k ≠ accuser.key → k ≠ convictionInfo.key → held l₂ k = held l k) ∧
      l₂.supply = l.supply := by
  -- The accuser holds something and the address nothing, so they differ.
  have hne : accuser.key ≠ convictionInfo.key := by
    intro hsame
    have henough := hpay.enough
    have hpos := rt.rent_pos convictionLen
    rw [held, hsame, hunused, UInt64.toNat_zero] at henough
    omega
  obtain ⟨l₁, hcreate⟩ := hcreates l accuser convictionInfo system (rt.rent convictionLen)
    convictionLen hpay hne hsystem (by decide) hpda hunused
  have hc := rt.create_ok _ _ _ _ _ _ _ _ _ (by decide) hcreate
  have hq := quiet_of_created hc
  obtain ⟨l₂, hs⟩ : ∃ l₂, store l₁ convictionInfo.key (Record.conviction c).write = .ok l₂ := by
    refine exists_store_of_write (writeRecord_eq_ok.mpr ⟨?_, rfl⟩)
    rw [hc.destination_eq, List.length_replicate]
  have st := stored_of_store hs (show (l₁ convictionInfo.key).owner = rt.programId by
    rw [hc.destination_eq])
  refine ⟨l₁, l₂, hcreate, hs, ?_, ?_, ?_⟩
  · rw [st.records, hq.records]
  · intro k haccuser hconviction
    rw [st.held_eq, held, held, (hc.of_ne hconviction).2.2 haccuser]
  · rw [st.supply, hq.supply]

theorem exists_convict (tx : Transaction) (burnTo : AccountInfo) (hinv : InvOn rt backed l)
    (hb : backed operatorInfo.key)
    (ho : recordAt rt l operatorInfo.key = some (.operator a)) (hbond : a.bond ≠ 0)
    (hpay : CanPay rt l accuser (rt.rent convictionLen)) (hsystem : system.key = rt.systemProgram)
    (hcreates : CreatesAt rt (convictionSeeds rt operatorInfo.key evidence))
    (hpda : convictionInfo.key = (rt.findProgramAddress
      (convictionSeeds rt operatorInfo.key evidence) rt.programId).1)
    (hunused : l convictionInfo.key = ⟨0, rt.systemProgram, []⟩) :
    ∃ l', convict rt tx l accuser operatorInfo convictionInfo burnTo system a evidence = .ok l' := by
  have hsystemOwned : (l convictionInfo.key).owner = rt.systemProgram := by rw [hunused]
  have hkey : operatorInfo.key ≠ convictionInfo.key := by
    intro hsame
    exact not_system_of_record ho (hsame ▸ hsystemOwned)
  have hother : operatorInfo.key ≠ accuser.key := by
    intro hsame
    exact not_system_of_record ho (hsame ▸ hpay.system)
  obtain ⟨l₁, l₂, hcreate, hs₂, hrecords, hframe, hsame⟩ := exists_opened
    { operator := operatorInfo.key, wronged := evidence.wrongedSignature,
      wrongedTxHash := evidence.wrongedTxHash, slashed := a.bond,
      owedToVictim := (appliedSplit a).victim, slot := tx.slot,
      bump := (rt.findProgramAddress (convictionSeeds rt operatorInfo.key evidence)
        rt.programId).2 } hpay hsystem hcreates hpda hunused
  have ho₂ : recordAt rt l₂ operatorInfo.key = some (.operator a) := by
    rw [hrecords, Function.update_of_ne hkey, ho]
  obtain ⟨l₃, hs₃⟩ := exists_store_operator ho₂ (slashedOperator a)
  have st₃ := stored_of_store hs₃ (owner_of_recordAt ho₂)
  have hheld : held l₃ operatorInfo.key = held l operatorInfo.key := by
    rw [st₃.held_eq, hframe _ hother hkey]
  have hsupply : l₃.supply < 2 ^ 64 := by
    rw [st₃.supply, hsame]
    exact hinv.supply
  have hfloor := hinv.solvent.floor_le (visible_operator hb ho)
  have hsplit := appliedSplit_le a
  obtain ⟨l₄, l', hburned, hescrowed⟩ := exists_moves burnTo.key convictionInfo.key hsupply
    (show (appliedSplit a).burn.toNat + (appliedSplit a).victim.toNat ≤ held l₃ operatorInfo.key by
      omega)
  refine ⟨l', ?_⟩
  simp only [convict, bind_eq_ok, require_eq_ok, exists_const, payOut_eq_ok]
  refine ⟨_, ?_, hsystemOwned, hbond, l₁, hcreate, l₂, hs₂, l₃, hs₃, l₄, hburned, hescrowed⟩
  simp only [atPda, bind_eq_ok, require_eq_ok, exists_const]
  exact ⟨hpda, rfl⟩

end Convict

/-- Valid evidence against a bonded operator convicts it after any transfers by
anyone, exactly when none of them went to the conviction's address. -/
theorem conviction_succeeds_iff
    (accuser operatorInfo convictionInfo burnTo sysvar system : AccountInfo)
    (rest : List AccountInfo) {index : UInt16} {verifier : List UInt8}
    (hrun : Run rt t ⟨slot, l₀⟩) (hbacked : Backed rt t operatorInfo.key)
    (ho : recordAt rt l₀ operatorInfo.key = some (.operator a)) (hbond : a.bond ≠ 0)
    (hfind : findVerifier rt tx sysvar = .ok (index, verifier))
    (hevidence : checkEvidence a.signingKey verifier index = .ok evidence)
    (hpda : convictionInfo.key = (rt.findProgramAddress
      (convictionSeeds rt operatorInfo.key evidence) rt.programId).1)
    (hnew : (l₀ convictionInfo.key).owner = rt.systemProgram ∧
      (l₀ convictionInfo.key).data = [])
    (hcreates : CreatesAt rt (convictionSeeds rt operatorInfo.key evidence))
    (hdonated : Relation.ReflTransGen (Transfers rt) l₀ l)
    (hpay : CanPay rt l accuser (rt.rent convictionLen))
    (hburn : burnTo.key = rt.incinerator) (hsystem : system.key = rt.systemProgram)
    (hlist : accounts =
      accuser :: operatorInfo :: convictionInfo :: burnTo :: sysvar :: system :: rest) :
    (∃ l', process rt tx l accounts Instruction.proveEquivocation.write = .ok l' ∧
      SlashedInFull rt accounts l' operatorInfo.key a.bond) ↔ held l convictionInfo.key = 0 := by
  have hsame := account_of_transfers hdonated
  have ho' : recordAt rt l operatorInfo.key = some (.operator a) := by
    rw [recordAt_congr (hsame _).1 (hsame _).2, ho]
  constructor
  · intro hconvicts
    obtain ⟨l', hprocess, _⟩ := hconvicts
    exact unused_of_process hprocess (by rw [hlist]; rfl)
  · intro hempty
    have hunused : l convictionInfo.key = ⟨0, rt.systemProgram, []⟩ := by
      have hlamports : (l convictionInfo.key).lamports = 0 := UInt64.toNat_inj.mp hempty
      rw [← hnew.1, ← hnew.2, ← (hsame _).1, ← (hsame _).2, ← hlamports]
    obtain ⟨l', hconvict⟩ := exists_convict tx burnTo
      (hrun.invOn.1.transfers hdonated) hbacked ho' hbond hpay hsystem hcreates hpda hunused
    have hprocess : process rt tx l accounts Instruction.proveEquivocation.write = .ok l' := by
      rw [process_write]
      exact proveEquivocation_eq_ok.mpr ⟨accuser, operatorInfo, convictionInfo, burnTo, sysvar,
        system, rest, a, index, verifier, evidence, hlist, hpay.signed, hburn, ho', hfind,
        hevidence, hconvict⟩
    exact ⟨l', hprocess, slashedInFull_of_process ho' (by rw [hlist]; rfl) hprocess⟩

end Donations

namespace Vectors

/-- One lamport from the authority, for whoever it is. -/
def topUp (destination : Pubkey) : Ledger := (staked.move authority destination 1).getD staked

lemma staked_evaluates :
    ((staked authority).owner = systemProgram ∧ UInt64.toNat 1 ≤ held staked authority) ∧
    ((staked accuser).owner = systemProgram ∧ (staked accuser).data = [] ∧
      (runtime.rent convictionLen).toNat ≤ held staked accuser) ∧
    staked conviction = ⟨0, systemProgram, []⟩ ∧
    derivedFrom (convictionSeeds runtime operator contradiction ++ [[252]]) conviction ∧
    runtime.findProgramAddress (convictionSeeds runtime operator contradiction) runtime.programId =
      (conviction, 252) := by decide +kernel

lemma run_staked : Run runtime [registerEntry, stakeEntry] ⟨6150410, staked⟩ :=
  ⟨_, genesis_genesis, trace_staked⟩

lemma backed_staked (o : Pubkey) : Backed runtime [registerEntry, stakeEntry] o :=
  (backed_convicted o).mono (by simp)

lemma move_topUp (destination : Pubkey) :
    staked.move authority destination 1 = some (topUp destination) := by
  obtain ⟨l', hmove⟩ := Ledger.exists_move_of_supply destination run_staked.supply_lt
    staked_evaluates.1.2
  rw [topUp, hmove]
  rfl

lemma transfers_topUp (destination : Pubkey) :
    Relation.ReflTransGen (Transfers runtime) staked (topUp destination) :=
  .single ⟨authority, destination, 1, staked_evaluates.1.1, move_topUp destination⟩

lemma canPay_topUp (destination : Pubkey) :
    CanPay runtime (topUp destination) (signer accuser) (runtime.rent convictionLen) := by
  obtain ⟨howner, hdata, henough⟩ := staked_evaluates.2.1
  have hstaked : CanPay runtime staked (signer accuser) (runtime.rent convictionLen) :=
    ⟨rfl, howner, hdata, henough⟩
  exact hstaked.of_move (move_topUp destination) (by decide)

lemma held_staked_conviction : held staked conviction = 0 := by
  rw [held, staked_evaluates.2.2.1, UInt64.toNat_zero]

lemma exists_createAccount {l : Ledger} {infos : List AccountInfo} {seeds : List (List UInt8)}
    {payer destination : Pubkey} {lamports : UInt64} (space : ℕ) (owner : Pubkey)
    (hsigned : signedFor infos payer) (hderived : derivedFrom seeds destination)
    (hunused : l destination = ⟨0, systemProgram, []⟩) (hne : payer ≠ destination)
    (hplain : (l payer).owner = systemProgram ∧ (l payer).data = [])
    (henough : lamports.toNat ≤ held l payer) :
    ∃ l', runtime.invokeSigned l (.createAccount payer destination lamports space owner) infos
      seeds = .ok l' := by
  obtain ⟨l₁, hmove⟩ := Ledger.exists_move henough fun _ => by
    rw [hunused, UInt64.toNat_zero, Nat.zero_add]
    exact lamports.toNat_lt
  refine ⟨Function.update l₁ destination
    ⟨(l₁ destination).lamports, owner, List.replicate space 0⟩, ?_⟩
  simp only [runtime, invokeSigned, bind_eq_ok, require_eq_ok, exists_const, orElse_eq_ok,
    Except.ok.injEq]
  exact ⟨⟨hsigned, hderived⟩, ⟨hunused, hne⟩, hplain, l₁, hmove, rfl⟩

lemma createsAt_conviction : CreatesAt runtime (convictionSeeds runtime operator contradiction) := by
  intro l payer destination system lamports space hpay hne _ _ hkey hunused
  rw [staked_evaluates.2.2.2.2] at hkey ⊢
  refine exists_createAccount _ _ ⟨payer, by simp, rfl, hpay.signed⟩ ?_ hunused hne
    ⟨hpay.system, hpay.plain⟩ hpay.enough
  rw [hkey]
  exact staked_evaluates.2.2.2.1

end Vectors

theorem conviction_succeeds_iff_recorded :
    ∃ l', process Vectors.runtime Vectors.evidence (Vectors.topUp Vectors.operator)
        Vectors.convictAccounts Instruction.proveEquivocation.write = .ok l' ∧
      SlashedInFull Vectors.runtime Vectors.convictAccounts l' Vectors.operator 10000000000 := by
  obtain ⟨_, _, hunused, _, hpda⟩ := Vectors.staked_evaluates
  have hframe := (pays_of_move rfl (Vectors.move_topUp Vectors.operator)).frame Vectors.conviction
    (by decide) (by decide)
  refine (conviction_succeeds_iff (Vectors.signer Vectors.accuser)
    (Vectors.passive Vectors.operator) (Vectors.passive Vectors.conviction)
    (Vectors.passive Vectors.incinerator) (Vectors.passive Vectors.instructionsSysvar)
    (Vectors.passive Vectors.systemProgram) [] Vectors.run_staked (Vectors.backed_staked _)
    Vectors.recordAt_staked (by decide) Vectors.findVerifier_evidence
    Vectors.checkEvidence_contradiction (congrArg Prod.fst hpda).symm
    ⟨congrArg Account.owner hunused, congrArg Account.data hunused⟩
    Vectors.createsAt_conviction (Vectors.transfers_topUp _) (Vectors.canPay_topUp _) rfl rfl
    rfl).mpr ?_
  exact hframe.trans Vectors.held_staked_conviction

/-- A lamport at the conviction's address, sent by the accused, and evidence that
convicted before is refused. -/
theorem donation_blocks_conviction :
    Run Vectors.runtime [Vectors.registerEntry, Vectors.stakeEntry] ⟨6150410, Vectors.staked⟩ ∧
    process Vectors.runtime Vectors.evidence Vectors.staked Vectors.convictAccounts
      Instruction.proveEquivocation.write = .ok Vectors.convicted ∧
    Relation.ReflTransGen (Transfers Vectors.runtime) Vectors.staked
      (Vectors.topUp Vectors.conviction) ∧
    CanPay Vectors.runtime (Vectors.topUp Vectors.conviction) (Vectors.signer Vectors.accuser)
      (Vectors.runtime.rent convictionLen) ∧
    ∀ l', process Vectors.runtime Vectors.evidence (Vectors.topUp Vectors.conviction)
      Vectors.convictAccounts Instruction.proveEquivocation.write ≠ .ok l' := by
  refine ⟨Vectors.run_staked, Vectors.process_convicted, Vectors.transfers_topUp _,
    Vectors.canPay_topUp _, ?_⟩
  intro l' hprocess
  have hempty : held (Vectors.topUp Vectors.conviction) Vectors.conviction = 0 :=
    unused_of_process hprocess rfl
  have hcredit := (pays_of_move rfl (Vectors.move_topUp Vectors.conviction)).credit (by decide)
  rw [hempty, Vectors.held_staked_conviction, UInt64.toNat_one] at hcredit
  omega

end Blitz.Program
