import Blitz.ProgramRuntime

/-! The program itself: its eight instructions over the ledger, in the order the
source performs their checks and writes. Nothing is kept of a run that fails. -/
namespace Blitz.Program
open ByteLayout LittleEndian CheckedArith Slashing

/-- The `?` that turns the program's own errors into the runtime's. -/
def slash {α : Type} (x : Except SlashError α) : Except ProgramError α :=
  x.mapError fun e : SlashError => (e : ProgramError)

@[simp] lemma slash_eq_ok {α : Type} {x : Except SlashError α} {a : α} :
    slash x = .ok a ↔ x = .ok a := mapError_eq_ok

/-- Write a record into an account's data, in place. -/
def store (l : Ledger) (key : Pubkey) (write : List UInt8 → Except SlashError (List UInt8)) :
    Except ProgramError Ledger := do
  let data ← slash (write (l key).data)
  .ok (l.setData key data)

section Processor
variable (rt : Runtime)

def ownedBy (l : Ledger) (account : AccountInfo) : Except ProgramError Unit :=
  require ((l account.key).owner = rt.programId) (SlashError.wrongOwner : ProgramError)

def atPda (account : AccountInfo) (seeds : List (List UInt8)) : Except ProgramError UInt8 := do
  let (expected, bump) := rt.findProgramAddress seeds rt.programId
  require (account.key = expected) (SlashError.wrongPda : ProgramError)
  .ok bump

/-- The floor of a guarded payout; the sums are the unchecked ones of the source. -/
def reserved (operator : OperatorAccount) : UInt64 :=
  rt.rent operatorLen + operator.bond + operator.poolStaked

def register (l : Ledger) (accounts : List AccountInfo) (signingKey : Bytes 32) (bond : UInt64) :
    Except ProgramError Ledger :=
  match accounts with
  | authority :: operatorInfo :: system :: _ => do
    require (authority.isSigner = true) (SlashError.notSigner : ProgramError)
    require (bond ≠ 0) (SlashError.insufficientBond : ProgramError)
    let seeds := [operatorSeed, authority.key.val]
    let bump ← atPda rt operatorInfo seeds
    let rent := rt.rent operatorLen
    let l ← rt.invokeSigned l
      (.createAccount authority.key operatorInfo.key (rent + bond) operatorLen rt.programId)
      [authority, operatorInfo, system] (seeds ++ [[bump]])
    store l operatorInfo.key
      (OperatorAccount.write
        { authority := authority.key, signingKey := signingKey, bond := bond, poolStaked := 0,
          rewardIndex := 0, unbondAt := 0, bump := bump })
  | _ => .error .notEnoughAccountKeys

/-- Loads the caller's position, creating it on their first stake. -/
def openPosition (l : Ledger) (owner operatorInfo positionInfo system : AccountInfo) :
    Except ProgramError (PositionAccount × Ledger) := do
  let seeds := [positionSeed, operatorInfo.key.val, owner.key.val]
  let bump ← atPda rt positionInfo seeds
  if (l positionInfo.key).owner = rt.systemProgram then
    let rent := rt.rent positionLen
    let l ← rt.invokeSigned l
      (.createAccount owner.key positionInfo.key rent positionLen rt.programId)
      [owner, positionInfo, system] (seeds ++ [[bump]])
    let fresh : PositionAccount :=
      { owner := owner.key, operator := operatorInfo.key, staked := 0, entryIndex := 0,
        reward := 0, bump := bump }
    let l ← store l positionInfo.key fresh.write
    .ok (fresh, l)
  else
    ownedBy rt l positionInfo
    let position ← slash (PositionAccount.read (l positionInfo.key).data)
    require (¬(position.owner ≠ owner.key ∨ position.operator ≠ operatorInfo.key))
      (SlashError.wrongPda : ProgramError)
    .ok (position, l)

def stake (l : Ledger) (accounts : List AccountInfo) (amount : UInt64) :
    Except ProgramError Ledger :=
  match accounts with
  | owner :: operatorInfo :: positionInfo :: system :: _ => do
    require (owner.isSigner = true) (SlashError.notSigner : ProgramError)
    ownedBy rt l operatorInfo
    let account ← slash (OperatorAccount.read (l operatorInfo.key).data)
    let (stored, l) ← openPosition rt l owner operatorInfo positionInfo system
    let (pool, position) ← slash ((account.pool.stake stored.position amount).mapError
      fun _ => SlashError.nothingStaked)
    let l ← rt.invokeSigned l (.transfer owner.key operatorInfo.key amount)
      [owner, operatorInfo, system] []
    let l ← store l operatorInfo.key (account.setPool pool).write
    store l positionInfo.key (stored.setPosition position).write
  | _ => .error .notEnoughAccountKeys

def payOut (l : Ledger) (source destination : AccountInfo) (amount : UInt64) :
    Except ProgramError Ledger :=
  orElse (l.move source.key destination.key amount) (SlashError.overdraw : ProgramError)

/-- The floor is taken from the state being written. -/
def payOutFromOperator (l : Ledger) (operatorInfo : AccountInfo) (account : OperatorAccount)
    (destination : AccountInfo) (amount : UInt64) : Except ProgramError Ledger := do
  let remaining ← orElse (checkedSub (l operatorInfo.key).lamports amount)
    (SlashError.overdraw : ProgramError)
  require (¬remaining < reserved rt account) (SlashError.overdraw : ProgramError)
  payOut l operatorInfo destination amount

/-- The operator and position an owner's exit works on. -/
def loadPosition (l : Ledger) (owner operatorInfo positionInfo : AccountInfo) :
    Except ProgramError (OperatorAccount × PositionAccount) := do
  require (owner.isSigner = true) (SlashError.notSigner : ProgramError)
  ownedBy rt l operatorInfo
  ownedBy rt l positionInfo
  let account ← slash (OperatorAccount.read (l operatorInfo.key).data)
  let stored ← slash (PositionAccount.read (l positionInfo.key).data)
  require (¬(stored.owner ≠ owner.key ∨ stored.operator ≠ operatorInfo.key))
    (SlashError.wrongPda : ProgramError)
  .ok (account, stored)

def unstake (l : Ledger) (accounts : List AccountInfo) (amount : UInt64) :
    Except ProgramError Ledger :=
  match accounts with
  | owner :: operatorInfo :: positionInfo :: _ => do
    let (account, stored) ← loadPosition rt l owner operatorInfo positionInfo
    let (_, pool, position) ← slash ((account.pool.unstake stored.position amount).mapError
      fun _ => SlashError.overdraw)
    let account := account.setPool pool
    let l ← store l operatorInfo.key account.write
    let l ← store l positionInfo.key (stored.setPosition position).write
    payOutFromOperator rt l operatorInfo account owner amount
  | _ => .error .notEnoughAccountKeys

def claim (l : Ledger) (accounts : List AccountInfo) : Except ProgramError Ledger :=
  match accounts with
  | owner :: operatorInfo :: positionInfo :: _ => do
    let (account, stored) ← loadPosition rt l owner operatorInfo positionInfo
    let (earned, position) := account.pool.claim stored.position
    let l ← store l positionInfo.key (stored.setPosition position).write
    payOutFromOperator rt l operatorInfo account owner earned
  | _ => .error .notEnoughAccountKeys

/-- What the precompile verified is looked for exactly one instruction back. -/
def findVerifier (tx : Transaction) (sysvar : AccountInfo) :
    Except ProgramError (UInt16 × List UInt8) := do
  let here ← rt.loadCurrentIndexChecked tx sysvar
  require (1 ≤ here) (SlashError.noEd25519Instruction : ProgramError)
  let ed25519Index := here - 1
  let verifier ← rt.loadInstructionAtChecked tx ed25519Index.toNat sysvar
  require (verifier.1 = rt.ed25519Program) (SlashError.noEd25519Instruction : ProgramError)
  .ok (ed25519Index, verifier.2)

/-- The second half of `prove_equivocation`: the contradiction stands, and the
bond is taken. -/
def convict (tx : Transaction) (l : Ledger)
    (accuser operatorInfo convictionInfo burnTo system : AccountInfo) (account : OperatorAccount)
    (evidence : Equivocation) : Except ProgramError Ledger := do
  let low := rt.hash evidence.ordered.1
  let high := rt.hash evidence.ordered.2
  let seeds := [convictionSeed, operatorInfo.key.val, low.val, high.val]
  let bump ← atPda rt convictionInfo seeds
  require ((l convictionInfo.key).owner = rt.systemProgram)
    (SlashError.alreadyConvicted : ProgramError)
  let slashed := account.bond
  require (slashed ≠ 0) (SlashError.insufficientBond : ProgramError)
  let (applied, pool) := account.pool.distribute (Split.of slashed)
  let rent := rt.rent convictionLen
  let l ← rt.invokeSigned l
    (.createAccount accuser.key convictionInfo.key rent convictionLen rt.programId)
    [accuser, convictionInfo, system] (seeds ++ [[bump]])
  let l ← store l convictionInfo.key
    (ConvictionAccount.write
      { operator := operatorInfo.key, wronged := evidence.wrongedSignature,
        wrongedTxHash := evidence.wrongedTxHash, slashed := slashed,
        owedToVictim := applied.victim, slot := tx.slot, bump := bump })
  let l ← store l operatorInfo.key
    (({ account with bond := 0 } : OperatorAccount).setPool pool).write
  let l ← payOut l operatorInfo burnTo applied.burn
  payOut l operatorInfo convictionInfo applied.victim

def proveEquivocation (tx : Transaction) (l : Ledger) (accounts : List AccountInfo) :
    Except ProgramError Ledger :=
  match accounts with
  | accuser :: operatorInfo :: convictionInfo :: burnTo :: sysvar :: system :: _ => do
    require (accuser.isSigner = true) (SlashError.notSigner : ProgramError)
    require (burnTo.key = rt.incinerator) (SlashError.badInstruction : ProgramError)
    ownedBy rt l operatorInfo
    let account ← slash (OperatorAccount.read (l operatorInfo.key).data)
    let (ed25519Index, verifier) ← findVerifier rt tx sysvar
    let evidence ← slash (checkEvidence account.signingKey verifier ed25519Index)
    convict rt tx l accuser operatorInfo convictionInfo burnTo system account evidence
  | _ => .error .notEnoughAccountKeys

def asAuthority (l : Ledger) (authority operatorInfo : AccountInfo) :
    Except ProgramError OperatorAccount := do
  require (authority.isSigner = true) (SlashError.notSigner : ProgramError)
  ownedBy rt l operatorInfo
  let account ← slash (OperatorAccount.read (l operatorInfo.key).data)
  require (account.authority = authority.key) (SlashError.notSigner : ProgramError)
  .ok account

/-- Asking again does not restart the clock. -/
def beginUnbond (tx : Transaction) (l : Ledger) (accounts : List AccountInfo) :
    Except ProgramError Ledger :=
  match accounts with
  | authority :: operatorInfo :: _ => do
    let account ← asAuthority rt l authority operatorInfo
    require (account.bond ≠ 0) (SlashError.insufficientBond : ProgramError)
    if account.unbondAt = 0 then
      store l operatorInfo.key
        ({ account with unbondAt := tx.slot + unbondSlots } : OperatorAccount).write
    else .ok l
  | _ => .error .notEnoughAccountKeys

def withdrawBond (tx : Transaction) (l : Ledger) (accounts : List AccountInfo) :
    Except ProgramError Ledger :=
  match accounts with
  | authority :: operatorInfo :: _ => do
    let account ← asAuthority rt l authority operatorInfo
    require (¬(account.unbondAt = 0 ∨ tx.slot < account.unbondAt))
      (SlashError.bondLocked : ProgramError)
    let bond := account.bond
    let account : OperatorAccount := { account with bond := 0, unbondAt := 0 }
    let l ← store l operatorInfo.key account.write
    payOutFromOperator rt l operatorInfo account authority bond
  | _ => .error .notEnoughAccountKeys

def claimVictim (l : Ledger) (accounts : List AccountInfo) (wire : List UInt8) :
    Except ProgramError Ledger :=
  match accounts with
  | claimant :: convictionInfo :: _ => do
    require (claimant.isSigner = true) (SlashError.notSigner : ProgramError)
    ownedBy rt l convictionInfo
    let conviction ← slash (ConvictionAccount.read (l convictionInfo.key).data)
    require (rt.hash wire = conviction.wrongedTxHash) (SlashError.malformedReceipt : ProgramError)
    let payer ← slash (feePayer wire)
    require (claimant.key = payer) (SlashError.notSigner : ProgramError)
    let owed := conviction.owedToVictim
    let l ← store l convictionInfo.key
      ({ conviction with owedToVictim := 0 } : ConvictionAccount).write
    payOut l convictionInfo claimant owed
  | _ => .error .notEnoughAccountKeys

/-- What an instruction does once it has been read. -/
def dispatch (tx : Transaction) (l : Ledger) (accounts : List AccountInfo) :
    Instruction → Except ProgramError Ledger
  | .register signingKey bond => register rt l accounts signingKey bond
  | .stake amount => stake rt l accounts amount
  | .unstake amount => unstake rt l accounts amount
  | .claim => claim rt l accounts
  | .proveEquivocation => proveEquivocation rt tx l accounts
  | .claimVictim wireBytes => claimVictim rt l accounts wireBytes
  | .beginUnbond => beginUnbond rt tx l accounts
  | .withdrawBond => withdrawBond rt tx l accounts

def process (tx : Transaction) (l : Ledger) (accounts : List AccountInfo) (data : List UInt8) :
    Except ProgramError Ledger := do
  let instruction ← slash (Instruction.read data)
  dispatch rt tx l accounts instruction

lemma process_write (tx : Transaction) (l : Ledger) (accounts : List AccountInfo)
    (i : Instruction) : process rt tx l accounts i.write = dispatch rt tx l accounts i := by
  rw [process, Instruction.read_write]
  rfl

variable {rt} in
lemma process_of_read {tx : Transaction} {l l' : Ledger} {accounts : List AccountInfo}
    {data : List UInt8} {i : Instruction} (hread : Instruction.read data = .ok i)
    (h : process rt tx l accounts data = .ok l') : dispatch rt tx l accounts i = .ok l' := by
  simp only [process, bind_eq_ok, slash_eq_ok] at h
  obtain ⟨j, hj, hd⟩ := h
  rw [hread] at hj
  rwa [Except.ok.inj hj]

end Processor

end Blitz.Program
