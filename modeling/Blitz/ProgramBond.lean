import Blitz.ProgramSteps
import Blitz.CourtEvidence

/-! What a bond stands for: the contradiction without which it is never taken,
and the lamports behind it when it is registered. The chain they are run on has the published
ids and rent, recorded program addresses and digests, and the system program's two instructions. -/
namespace Blitz.Program
open ByteLayout LittleEndian CheckedArith Receipts

section Bond
variable {rt : Runtime} {tx : Transaction} {l l' : Ledger} {accounts : List AccountInfo}
  {data : List UInt8}

/-- The data of the instruction an offsets entry names. -/
def Transaction.dataAt (tx : Transaction) (instructionIndex : UInt16) : Option (List UInt8) :=
  tx.instructions[instructionIndex.toNat]?.map Prod.snd

/-- The ed25519 program has accepted every instruction addressed to it that came
before the current one. -/
def Precompiled (rt : Runtime) (tx : Transaction)
    (verifies : Bytes 32 → List UInt8 → Bytes 64 → Bool) : Prop :=
  ∀ i < tx.current.toNat, ∀ own, tx.instructions[i]? = some (rt.ed25519Program, own) →
    PrecompileAccepts own tx.dataAt verifies

/-- A conviction rests on two different receipts for one position of one log,
each with a signature the precompile verified under the registered key. -/
theorem conviction_sound {verifies : Bytes 32 → List UInt8 → Bytes 64 → Bool}
    (hprecompile : Precompiled rt tx verifies)
    (hread : Instruction.read data = .ok .proveEquivocation)
    (h : process rt tx l accounts data = .ok l') :
    ∃ (operatorInfo : AccountInfo) (a : OperatorAccount) (own m₁ m₂ : List UInt8) (s₁ s₂ : Bytes 64),
      accounts[1]? = some operatorInfo ∧ (l operatorInfo.key).owner = rt.programId ∧
      OperatorAccount.read (l operatorInfo.key).data = .ok a ∧
      tx.instructions[tx.current.toNat - 1]? = some (rt.ed25519Program, own) ∧
      reading own tx.dataAt 0 = some ⟨s₁, a.signingKey, m₁⟩ ∧
      reading own tx.dataAt 1 = some ⟨s₂, a.signingKey, m₂⟩ ∧
      verifies a.signingKey m₁ s₁ = true ∧ verifies a.signingKey m₂ s₂ = true ∧
      m₁ ≠ m₂ ∧ m₁.length = receiptLen ∧ m₂.length = receiptLen ∧
      slice m₁ 0 offLogId = domainTag ∧ slice m₂ 0 offLogId = domainTag ∧
      slice m₁ offLogId 32 = slice m₂ offLogId 32 ∧
      u64Of (slice m₁ offSeq 8) = u64Of (slice m₂ offSeq 8) := by
  obtain ⟨accuser, operatorInfo, convictionInfo, burnTo, sysvar, system, rest, a, index, own,
    evidence, rfl, _, _, ho, hfind, hevidence, _⟩ :=
    proveEquivocation_eq_ok.mp (process_of_read hread h)
  obtain ⟨howner, ha⟩ := recordAt_operator.mp ho
  obtain ⟨hindex, hown⟩ := findVerifier_ok hfind
  have hnamed : tx.dataAt index = some own := by rw [Transaction.dataAt, hown, Option.map_some]
  obtain ⟨hcount, hcheck, ⟨s₁, h₁⟩, s₂, h₂⟩ := readings_of_checkEvidence hnamed hevidence
  -- Both entries were read from the same bytes by the precompile, which verified them.
  have haccepts := hprecompile index.toNat (by omega) own hown
  obtain ⟨r₁, hr₁, hv₁⟩ := haccepts 0 (by omega)
  obtain ⟨r₂, hr₂, hv₂⟩ := haccepts 1 (by omega)
  obtain rfl := Option.some.inj (h₁.symm.trans hr₁)
  obtain rfl := Option.some.inj (h₂.symm.trans hr₂)
  obtain ⟨⟨hlen₁, htag₁⟩, ⟨hlen₂, htag₂⟩, hlog, hseq, hne, _⟩ :=
    Equivocation.check_eq_ok.mp hcheck
  have hcurrent : tx.current.toNat - 1 = index.toNat := by omega
  refine ⟨operatorInfo, a, own, evidence.a, evidence.b, s₁, s₂, rfl, howner, ha, ?_, h₁, h₂, hv₁,
    hv₂, hne, hlen₁, hlen₂, htag₁, htag₂, hlog.symm, hseq.symm⟩
  rw [hcurrent]
  exact hown

end Bond

namespace Vectors

def systemProgram : Pubkey := Bytes.fill 32 0

/-- `Ed25519SigVerify111111111111111111111111111`. -/
def ed25519Program : Pubkey := Bytes.hex 32
  0x037d46d67c93fbbe12f9428f838d40ff0570744927f48a64fcca704480000000

/-- `1nc1nerator11111111111111111111111111111111`. -/
def incinerator : Pubkey := Bytes.hex 32
  0x003390728d34116079bdc911bfff00dbd44d2ecdccf79ca6e10038e100000000

/-- `Sysvar1nstructions1111111111111111111111111`. -/
def instructionsSysvar : Pubkey := Bytes.hex 32
  0x06a7d517187bd16635dad40455fdc2c0c124c68f215675a5dbbacb5f08000000

def programId : Pubkey := Bytes.hex 32
  0x8a88e3dd7409f195fd52db2d3cba5d72ca6709bf1d94121bf3748801b40f6f5c

def authority : Pubkey := Bytes.hex 32
  0x8139770ea87d175f56a35466c34c7ecccb8d8a91b4ee37a25df60f5b8fc9b394

def staker : Pubkey := Bytes.hex 32
  0xed4928c628d1c2c6eae90338905995612959273a5c63f93636c14614ac8737d1

def accuser : Pubkey := Bytes.hex 32
  0xca93ac1705187071d67b83c7ff0efe8108e8ec4530575d7726879333dbdabe7c

def operator : Pubkey := Bytes.hex 32
  0x7dc0c41d9684d8c37e33bf5436fd9c469965633efb132c9e64369ae7598c746a

def position : Pubkey := Bytes.hex 32
  0x033595adfd6e2bbef85049b29a3a65ff46b0c320089c68e971efb02eb0cc7a2f

def conviction : Pubkey := Bytes.hex 32
  0xdc3cd72c4a7917a531465cf687a9aa81f0550f31d21ead08c3a4958b4404b821

/-- The digests of the two contradicting messages. -/
def digests : List (List UInt8 × Bytes 32) :=
  [(Receipts.Vectors.plainGenesis.message, Bytes.hex 32
      0x3958849e7938076ced81dffa340a14d7da6b31b280d30d09df5cfe9fa62aca50),
    (Receipts.Vectors.plainRival.message, Bytes.hex 32
      0xf5962b729ef32f776e7faef73e8010fd920df2424bf6e430313251131521a970)]

/-- The addresses of this program the run below derives, with their bumps. -/
def addresses : List (List (List UInt8) × Pubkey × UInt8) :=
  [([operatorSeed, authority.val], operator, 255),
    ([positionSeed, operator.val, staker.val], position, 254),
    (convictionSeed :: operator.val :: digests.map (fun d => d.2.val), conviction, 252)]

/-- Two years at 3480 lamports a byte and year, on at most ten mebibytes. -/
def minimumBalance (space : ℕ) : UInt64 :=
  UInt64.ofNat ((128 + min space (10 * 1024 * 1024)) * 3480 * 2)

/-- The payer signed the transaction; a derived address is signed for by its seeds. -/
def signedFor (infos : List AccountInfo) (key : Pubkey) : Prop :=
  ∃ info ∈ infos, info.key = key ∧ info.isSigner = true

instance (infos : List AccountInfo) (key : Pubkey) : Decidable (signedFor infos key) :=
  inferInstanceAs (Decidable (∃ info ∈ infos, _))

def derivedFrom (seeds : List (List UInt8)) (key : Pubkey) : Prop :=
  ∃ row ∈ addresses, row.1 ++ [[row.2.2]] = seeds ∧ row.2.1 = key

instance (seeds : List (List UInt8)) (key : Pubkey) : Decidable (derivedFrom seeds key) :=
  inferInstanceAs (Decidable (∃ row ∈ addresses, _))

def missingSignature : ProgramError := .other 0x800000000
def alreadyInUse : ProgramError := .custom 0
def negativeLamports : ProgramError := .custom 1
def unsupportedSysvar : ProgramError := .other 0x1100000000
def invalidArgument : ProgramError := .other 0x200000000

def invokeSigned (l : Ledger) (infos : List AccountInfo) (seeds : List (List UInt8)) :
    SystemInstruction → Except ProgramError Ledger
  | .createAccount payer destination lamports space owner => do
    require (signedFor infos payer ∧ derivedFrom seeds destination) missingSignature
    require (l destination = ⟨0, systemProgram, []⟩ ∧ payer ≠ destination) alreadyInUse
    require ((l payer).owner = systemProgram ∧ (l payer).data = []) invalidArgument
    let l ← orElse (l.move payer destination lamports) negativeLamports
    .ok (Function.update l destination
      ⟨(l destination).lamports, owner, List.replicate space 0⟩)
  | .transfer payer destination lamports => do
    require (signedFor infos payer) missingSignature
    require ((l payer).owner = systemProgram ∧ (l payer).data = []) invalidArgument
    orElse (l.move payer destination lamports) negativeLamports

def runtime : Runtime where
  programId := programId
  systemProgram := systemProgram
  ed25519Program := ed25519Program
  incinerator := incinerator
  rent := minimumBalance
  findProgramAddress := fun seeds _ => (addresses.lookup seeds).getD (systemProgram, 0)
  hash := fun bs => (digests.lookup bs).getD (Bytes.fill 32 0)
  loadCurrentIndexChecked := fun tx sysvar => do
    require (sysvar.key = instructionsSysvar) unsupportedSysvar
    .ok tx.current
  loadInstructionAtChecked := fun tx i sysvar => do
    require (sysvar.key = instructionsSysvar) unsupportedSysvar
    orElse tx.instructions[i]? invalidArgument
  invokeSigned := fun l instruction infos seeds => invokeSigned l infos seeds instruction
  deployed := by decide
  rent_pos := by
    intro space
    have hfit : (128 + min space (10 * 1024 * 1024)) * 3480 * 2 < UInt64.size := by
      change _ < 18446744073709551616
      omega
    rw [minimumBalance, UInt64.toNat_ofNat_of_lt' hfit]
    omega
  current_ok := by
    intro tx info i h
    simp only [bind_eq_ok, require_eq_ok, exists_const, Except.ok.injEq] at h
    exact h.2.symm
  instruction_ok := by
    intro tx i info ix h
    simp only [bind_eq_ok, require_eq_ok, exists_const, orElse_eq_ok] at h
    exact h.2
  create_ok := by
    intro l payer destination lamports space owner infos seeds l' _ h
    simp only [invokeSigned, bind_eq_ok, require_eq_ok, exists_const, orElse_eq_ok,
      Except.ok.injEq] at h
    obtain ⟨_, ⟨hunused, hne⟩, ⟨howner, _⟩, l₁, hmove, rfl⟩ := h
    exact ⟨howner, by simp [hunused], hne, l₁, hmove, rfl⟩
  transfer_ok := by
    intro l payer destination lamports infos seeds l' h
    simp only [invokeSigned, bind_eq_ok, require_eq_ok, exists_const, orElse_eq_ok] at h
    obtain ⟨_, ⟨howner, _⟩, hmove⟩ := h
    exact ⟨howner, hmove⟩

def ledgerOf (accounts : List (Pubkey × Account)) : Ledger :=
  accounts.foldr (fun entry l => Function.update l entry.1 entry.2)
    fun _ => ⟨0, systemProgram, []⟩

lemma supply_ledgerOf_le (accounts : List (Pubkey × Account)) :
    (ledgerOf accounts).supply ≤ (accounts.map fun entry => entry.2.lamports.toNat).sum := by
  induction accounts with
  | nil => simp [ledgerOf, Ledger.supply]
  | cons entry rest ih =>
    have hs := RewardIndex.sum_update (fun a : Account => a.lamports.toNat) (ledgerOf rest) entry.1 entry.2
    simp only [Ledger.supply, ledgerOf, List.foldr_cons, List.map_cons, List.sum_cons] at hs ih ⊢
    omega

lemma owner_ledgerOf {accounts : List (Pubkey × Account)} {owner : Pubkey}
    (hsystem : owner ≠ systemProgram) (h : ∀ entry ∈ accounts, entry.2.owner ≠ owner) (k : Pubkey) :
    (ledgerOf accounts k).owner ≠ owner := by
  induction accounts with
  | nil => exact hsystem.symm
  | cons entry rest ih =>
    simp only [ledgerOf, List.foldr_cons, Function.update_apply]
    split_ifs with hk
    · exact h entry (by simp)
    · exact ih fun e he => h e (by simp [he])

/-- Three people with funds of their own, before anything else happens. -/
def genesis : Ledger :=
  ledgerOf [(authority, ⟨20000000000, systemProgram, []⟩),
    (staker, ⟨5000000000, systemProgram, []⟩), (accuser, ⟨1000000000, systemProgram, []⟩)]

def signer (key : Pubkey) : AccountInfo := ⟨key, true⟩
def passive (key : Pubkey) : AccountInfo := ⟨key, false⟩

/-- The evidence transaction: the verifier first, the conviction right after it. -/
def evidence : Transaction where
  slot := 6150410
  current := 1
  instructions :=
    [(ed25519Program, Court.verifyTwo Receipts.Vectors.operatorPubkey
        Receipts.Vectors.plainGenesis Receipts.Vectors.plainRival),
      (programId, Instruction.proveEquivocation.write)]

/-- What an instruction leaves behind when it goes through. -/
def after (l : Ledger) (accounts : List AccountInfo) (i : Instruction) : Ledger :=
  (dispatch runtime evidence l accounts i).toOption.getD l

lemma process_after {l : Ledger} {accounts : List AccountInfo} {i : Instruction}
    (h : (dispatch runtime evidence l accounts i).toBool = true) :
    process runtime evidence l accounts i.write = .ok (after l accounts i) := by
  obtain ⟨l', hl⟩ := toBool_eq_true.mp h
  rw [process_write, after, hl]
  rfl

def registerAccounts : List AccountInfo :=
  [signer authority, passive operator, passive systemProgram]

def stakeAccounts : List AccountInfo :=
  [signer staker, passive operator, passive position, passive systemProgram]

def convictAccounts : List AccountInfo :=
  [signer accuser, passive operator, passive conviction, passive incinerator,
    passive instructionsSysvar, passive systemProgram]

def registered : Ledger :=
  after genesis registerAccounts (.register Receipts.Vectors.operatorPubkey 10000000000)

/-- The same registration with all a `u64` can hold as the bond. -/
def overbonded : Ledger :=
  after genesis registerAccounts
    (.register Receipts.Vectors.operatorPubkey 18446744073709551615)

def staked : Ledger := after registered stakeAccounts (.stake 3000000000)

/-- The operator account as the stake leaves it. -/
def stakedOperator : OperatorAccount :=
  ⟨authority, Receipts.Vectors.operatorPubkey, 10000000000, 3000000000, 0, 0, 255⟩

/-- The contradiction the evidence shows. -/
def contradiction : Equivocation :=
  ⟨0, Receipts.Vectors.logId, Receipts.Vectors.plainGenesis.message,
    Receipts.Vectors.plainRival.message⟩

/-- The last step, from the contradiction on. -/
def convictStaked : Except ProgramError Ledger :=
  convict runtime evidence staked (signer accuser) (passive operator) (passive conviction)
    (passive incinerator) (passive systemProgram) stakedOperator contradiction

def convicted : Ledger := convictStaked.toOption.getD staked

lemma run_evaluates :
    (dispatch runtime evidence genesis registerAccounts
      (.register Receipts.Vectors.operatorPubkey 10000000000)).toBool = true ∧
    (dispatch runtime evidence registered stakeAccounts (.stake 3000000000)).toBool = true ∧
    convictStaked.toBool = true := by decide +kernel

lemma process_registered :
    process runtime evidence genesis registerAccounts
      (Instruction.register Receipts.Vectors.operatorPubkey 10000000000).write = .ok registered :=
  process_after run_evaluates.1

lemma process_staked :
    process runtime evidence registered stakeAccounts (Instruction.stake 3000000000).write =
      .ok staked := process_after run_evaluates.2.1

/-- The operator account as it is registered. -/
def registeredOperator : OperatorAccount :=
  ⟨authority, Receipts.Vectors.operatorPubkey, 10000000000, 0, 0, 0, 255⟩

/-- The operator account once it is convicted. -/
def convictedOperator : OperatorAccount :=
  ⟨authority, Receipts.Vectors.operatorPubkey, 0, 3000000000, 666666666666, 0, 255⟩

/-- The staker's position, before and after the conviction. -/
def stakedPosition : PositionAccount := ⟨staker, operator, 3000000000, 0, 0, 254⟩

lemma accounts_evaluate :
    ((registered operator).owner = programId ∧
      OperatorAccount.read (registered operator).data = .ok registeredOperator) ∧
    ((staked operator).owner = programId ∧
      OperatorAccount.read (staked operator).data = .ok stakedOperator) ∧
    ((staked position).owner = programId ∧
      PositionAccount.read (staked position).data = .ok stakedPosition) ∧
    ((convicted operator).owner = programId ∧
      OperatorAccount.read (convicted operator).data = .ok convictedOperator) ∧
    ((convicted position).owner = programId ∧
      PositionAccount.read (convicted position).data = .ok stakedPosition) := by decide +kernel

lemma recordAt_registered :
    recordAt runtime registered operator = some (.operator registeredOperator) :=
  recordAt_operator.mpr accounts_evaluate.1

lemma recordAt_staked : recordAt runtime staked operator = some (.operator stakedOperator) :=
  recordAt_operator.mpr accounts_evaluate.2.1

lemma recordAt_stakedPosition :
    recordAt runtime staked position = some (.position stakedPosition) :=
  recordAt_position.mpr accounts_evaluate.2.2.1

lemma recordAt_convicted : recordAt runtime convicted operator = some (.operator convictedOperator) :=
  recordAt_operator.mpr accounts_evaluate.2.2.2.1

lemma recordAt_convictedPosition :
    recordAt runtime convicted position = some (.position stakedPosition) :=
  recordAt_position.mpr accounts_evaluate.2.2.2.2

lemma checkEvidence_contradiction :
    checkEvidence Receipts.Vectors.operatorPubkey (Court.verifyTwo Receipts.Vectors.operatorPubkey
      Receipts.Vectors.plainGenesis Receipts.Vectors.plainRival) 0 = .ok contradiction := by
  rw [Court.checkEvidence_verifyTwo_eq]
  decide +kernel

lemma findVerifier_evidence :
    findVerifier runtime evidence (passive instructionsSysvar) =
      .ok (0, Court.verifyTwo Receipts.Vectors.operatorPubkey Receipts.Vectors.plainGenesis
        Receipts.Vectors.plainRival) := by rfl

lemma process_convict {l l' : Ledger} {a : OperatorAccount}
    (ho : recordAt runtime l operator = some (.operator a))
    (hkey : a.signingKey = Receipts.Vectors.operatorPubkey)
    (h : convict runtime evidence l (signer accuser) (passive operator) (passive conviction)
      (passive incinerator) (passive systemProgram) a contradiction = .ok l') :
    process runtime evidence l convictAccounts Instruction.proveEquivocation.write = .ok l' := by
  have hevidence : checkEvidence a.signingKey (Court.verifyTwo Receipts.Vectors.operatorPubkey
      Receipts.Vectors.plainGenesis Receipts.Vectors.plainRival) 0 = .ok contradiction := by
    rw [hkey]
    exact checkEvidence_contradiction
  have hprove : proveEquivocation runtime evidence l convictAccounts = .ok l' :=
    proveEquivocation_eq_ok.mpr ⟨signer accuser, passive operator, passive conviction,
      passive incinerator, passive instructionsSysvar, passive systemProgram, [], a, 0,
      _, contradiction, rfl, rfl, rfl, ho, findVerifier_evidence, hevidence, h⟩
  rw [process_write, dispatch, hprove]

lemma process_convicted :
    process runtime evidence staked convictAccounts Instruction.proveEquivocation.write =
      .ok convicted := by
  have hconvict : convictStaked = .ok convicted := by
    obtain ⟨l', hl⟩ := toBool_eq_true.mp run_evaluates.2.2
    rw [convicted, hl]
    rfl
  exact process_convict recordAt_staked rfl hconvict

end Vectors

theorem conviction_sound_recorded :
    ∃ (operatorInfo : AccountInfo) (a : OperatorAccount) (own m₁ m₂ : List UInt8) (s₁ s₂ : Bytes 64),
      Vectors.convictAccounts[1]? = some operatorInfo ∧
      (Vectors.staked operatorInfo.key).owner = Vectors.runtime.programId ∧
      OperatorAccount.read (Vectors.staked operatorInfo.key).data = .ok a ∧
      Vectors.evidence.instructions[Vectors.evidence.current.toNat - 1]? =
        some (Vectors.runtime.ed25519Program, own) ∧
      reading own Vectors.evidence.dataAt 0 = some ⟨s₁, a.signingKey, m₁⟩ ∧
      reading own Vectors.evidence.dataAt 1 = some ⟨s₂, a.signingKey, m₂⟩ ∧
      Receipts.Vectors.crypto.verifyStrict a.signingKey m₁ s₁ = true ∧
      Receipts.Vectors.crypto.verifyStrict a.signingKey m₂ s₂ = true ∧
      m₁ ≠ m₂ ∧ m₁.length = receiptLen ∧ m₂.length = receiptLen ∧
      slice m₁ 0 offLogId = domainTag ∧ slice m₂ 0 offLogId = domainTag ∧
      slice m₁ offLogId 32 = slice m₂ offLogId 32 ∧
      u64Of (slice m₁ offSeq 8) = u64Of (slice m₂ offSeq 8) := by
  refine conviction_sound ?_ (Instruction.read_write _) Vectors.process_convicted
  intro i hi own hown
  obtain rfl : i = 0 := Nat.lt_one_iff.mp hi
  obtain rfl := (Prod.mk.inj (Option.some.inj hown)).2
  exact Court.precompile_verifyTwo.mpr (by decide +kernel)

section Registration
variable {rt : Runtime} {tx : Transaction} {l l' : Ledger} {accounts : List AccountInfo}
  {data : List UInt8}

/-- A registration that goes through is backed in full unless rent and bond
together pass the top of a `u64`. -/
theorem registered_bond_backed_iff {signingKey : Bytes 32} {bond : UInt64}
    (hread : Instruction.read data = .ok (.register signingKey bond))
    (h : process rt tx l accounts data = .ok l') :
    ∃ (operatorInfo : AccountInfo) (a : OperatorAccount),
      accounts[1]? = some operatorInfo ∧ (l' operatorInfo.key).owner = rt.programId ∧
      OperatorAccount.read (l' operatorInfo.key).data = .ok a ∧ a.bond = bond ∧
      ((rt.rent operatorLen).toNat + a.bond.toNat ≤ (l' operatorInfo.key).lamports.toNat ↔
        (rt.rent operatorLen).toNat + bond.toNat < 2 ^ 64) := by
  obtain ⟨authority, operatorInfo, system, rest, bump, l₁, rfl, _, _, hc, hstore⟩ :=
    register_ok (process_of_read hread h)
  have hstored := stored_of_store hstore (show (l₁ operatorInfo.key).owner = rt.programId by
    rw [hc.destination_eq])
  have hrecord : recordAt rt l' operatorInfo.key =
      some (.operator ⟨authority.key, signingKey, bond, 0, 0, 0, bump⟩) := by
    rw [hstored.records, Function.update_self]
  obtain ⟨howner, ha⟩ := recordAt_operator.mp hrecord
  have hlamports : (l' operatorInfo.key).lamports = rt.rent operatorLen + bond := by
    rw [hstored.lamports, hc.destination_eq]
  refine ⟨operatorInfo, _, rfl, howner, ha, rfl, ?_⟩
  rw [hlamports, UInt64.toNat_add]
  constructor
  · intro hle
    have hlt := Nat.mod_lt ((rt.rent operatorLen).toNat + bond.toNat) (Nat.two_pow_pos 64)
    dsimp only at hle
    omega
  · intro hlt
    rw [Nat.mod_eq_of_lt hlt]

end Registration

theorem registered_bond_backed_iff_recorded :
    ∃ (operatorInfo : AccountInfo) (a : OperatorAccount),
      Vectors.registerAccounts[1]? = some operatorInfo ∧
      (Vectors.registered operatorInfo.key).owner = Vectors.runtime.programId ∧
      OperatorAccount.read (Vectors.registered operatorInfo.key).data = .ok a ∧
      a.bond = 10000000000 ∧
      ((Vectors.runtime.rent operatorLen).toNat + a.bond.toNat ≤
          (Vectors.registered operatorInfo.key).lamports.toNat ↔
        (Vectors.runtime.rent operatorLen).toNat + (10000000000 : UInt64).toNat < 2 ^ 64) :=
  registered_bond_backed_iff (Instruction.read_write _) Vectors.process_registered

/-- The largest bond a `u64` can carry is registered for less than the rent. -/
theorem registered_bond_unbacked :
    process Vectors.runtime Vectors.evidence Vectors.genesis Vectors.registerAccounts
        (Instruction.register Receipts.Vectors.operatorPubkey 18446744073709551615).write =
      .ok Vectors.overbonded ∧
    (OperatorAccount.read (Vectors.overbonded Vectors.operator).data).map (fun a => a.bond) =
      .ok 18446744073709551615 ∧
    (Vectors.runtime.rent operatorLen).toNat = 1628640 ∧
    (Vectors.overbonded Vectors.operator).lamports.toNat = 1628639 ∧
    ¬1628640 + 18446744073709551615 ≤ (Vectors.overbonded Vectors.operator).lamports.toNat := by
  have hlamports : (Vectors.overbonded Vectors.operator).lamports.toNat = 1628639 := by
    decide +kernel
  refine ⟨Vectors.process_after (by decide +kernel), by decide +kernel, by decide +kernel,
    hlamports, ?_⟩
  rw [hlamports]
  decide

end Blitz.Program
