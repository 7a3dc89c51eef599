import Blitz.ProgramAccounts

/-! The chain under the program: accounts and lamports, the instruction sysvar,
and the calls into the runtime and the system program, which are not part of
this repository and enter with what is documented of them. -/
namespace Blitz.Program
open ByteLayout LittleEndian CheckedArith RewardIndex

structure Account where
  lamports : UInt64
  owner : Pubkey
  data : List UInt8
  deriving DecidableEq

abbrev Ledger := Pubkey → Account

/-- What an instruction is told about an account besides its state. -/
structure AccountInfo where
  key : Pubkey
  isSigner : Bool
  deriving DecidableEq

inductive ProgramError
  | custom (code : UInt32)
  | notEnoughAccountKeys
  | other (code : UInt64)
  deriving DecidableEq, Repr

instance : Coe SlashError ProgramError := ⟨fun e => .custom e.code⟩

namespace Ledger

def setLamports (l : Ledger) (key : Pubkey) (lamports : UInt64) : Ledger :=
  Function.update l key { l key with lamports := lamports }

def setData (l : Ledger) (key : Pubkey) (data : List UInt8) : Ledger :=
  Function.update l key { l key with data := data }

/-- Debit one account and credit another, in that order and on one balance
where they are the same account. -/
def move (l : Ledger) (source destination : Pubkey) (amount : UInt64) : Option Ledger := do
  let remaining ← checkedSub (l source).lamports amount
  let l := l.setLamports source remaining
  let total ← checkedAdd (l destination).lamports amount
  some (l.setLamports destination total)

/-- Everything in existence. -/
def supply (l : Ledger) : ℕ := ∑ key, (l key).lamports.toNat

variable {l l' : Ledger} {key source destination : Pubkey} {amount : UInt64}

@[simp] lemma setLamports_owner (x : UInt64) (k : Pubkey) :
    (l.setLamports key x k).owner = (l k).owner := by
  by_cases h : k = key
  · subst h
    simp [setLamports]
  · simp [setLamports, h]

@[simp] lemma setLamports_data (x : UInt64) (k : Pubkey) :
    (l.setLamports key x k).data = (l k).data := by
  by_cases h : k = key
  · subst h
    simp [setLamports]
  · simp [setLamports, h]

@[simp] lemma setData_owner (d : List UInt8) (k : Pubkey) :
    (l.setData key d k).owner = (l k).owner := by
  by_cases h : k = key
  · subst h
    simp [setData]
  · simp [setData, h]

@[simp] lemma setData_lamports (d : List UInt8) (k : Pubkey) :
    (l.setData key d k).lamports = (l k).lamports := by
  by_cases h : k = key
  · subst h
    simp [setData]
  · simp [setData, h]

@[simp] lemma setData_data_self (d : List UInt8) : (l.setData key d key).data = d := by
  simp [setData]

lemma setData_of_ne (d : List UInt8) {k : Pubkey} (h : k ≠ key) : l.setData key d k = l k := by
  simp [setData, h]

/-- What a move does to each balance, and to nothing else. -/
structure Moved (l : Ledger) (source destination : Pubkey) (amount : UInt64) (l' : Ledger) :
    Prop where
  owner : ∀ k, (l' k).owner = (l k).owner
  data : ∀ k, (l' k).data = (l k).data
  enough : amount.toNat ≤ (l source).lamports.toNat
  self : source = destination → ∀ k, (l' k).lamports = (l k).lamports
  debit : source ≠ destination →
    (l' source).lamports.toNat + amount.toNat = (l source).lamports.toNat
  credit : source ≠ destination →
    (l' destination).lamports.toNat = (l destination).lamports.toNat + amount.toNat
  frame : ∀ k, k ≠ source → k ≠ destination → (l' k).lamports = (l k).lamports

lemma move_eq_some :
    l.move source destination amount = some l' ↔
      ∃ remaining total, checkedSub (l source).lamports amount = some remaining ∧
        checkedAdd (l.setLamports source remaining destination).lamports amount = some total ∧
        l' = (l.setLamports source remaining).setLamports destination total := by
  simp only [move, Option.bind_eq_bind, Option.bind_eq_some_iff, Option.some.injEq]
  constructor
  · rintro ⟨r, hr, t, ht, rfl⟩
    exact ⟨r, t, hr, ht, rfl⟩
  · rintro ⟨r, t, hr, ht, rfl⟩
    exact ⟨r, hr, t, ht, rfl⟩

theorem moved_of_move (h : l.move source destination amount = some l') :
    Moved l source destination amount l' := by
  obtain ⟨remaining, total, hr, ht, rfl⟩ := move_eq_some.mp h
  rw [checkedSub_eq_some] at hr
  rw [checkedAdd_eq_some] at ht
  refine ⟨by simp, by simp, by omega, ?_, ?_, ?_, ?_⟩
  · rintro rfl k
    by_cases hk : k = source
    · subst hk
      apply UInt64.toNat_inj.mp
      simp only [setLamports, Function.update_self] at ht ⊢
      omega
    · simp [setLamports, hk]
  · intro hne
    simp only [setLamports, Function.update_of_ne hne, Function.update_self]
    omega
  · intro hne
    simp only [setLamports, Function.update_of_ne (Ne.symm hne), Function.update_self] at ht ⊢
    exact ht
  · intro k hs hd
    simp [setLamports, hs, hd]

lemma exists_move (henough : amount.toNat ≤ (l source).lamports.toNat)
    (hroom : source ≠ destination →
      (l destination).lamports.toNat + amount.toNat < 2 ^ 64) :
    ∃ l', l.move source destination amount = some l' := by
  obtain ⟨remaining, hr⟩ : ∃ r, checkedSub (l source).lamports amount = some r :=
    ⟨_, if_pos (UInt64.le_iff_toNat_le.mpr henough)⟩
  have hrem := checkedSub_eq_some.mp hr
  have hlt : (l.setLamports source remaining destination).lamports.toNat + amount.toNat < 2 ^ 64 := by
    by_cases hne : source = destination
    · subst hne
      have := (l source).lamports.toNat_lt
      simp only [setLamports, Function.update_self]
      omega
    · simpa [setLamports, Function.update_of_ne (Ne.symm hne)] using hroom hne
  exact ⟨_, move_eq_some.mpr ⟨remaining, _, hr, if_pos hlt, rfl⟩⟩

lemma supply_setLamports (l : Ledger) (key : Pubkey) (x : UInt64) :
    (l.setLamports key x).supply + (l key).lamports.toNat = l.supply + x.toNat :=
  sum_update (fun a : Account => a.lamports.toNat) l key { l key with lamports := x }

@[simp] lemma supply_setData (d : List UInt8) : (l.setData key d).supply = l.supply := by
  simp [supply]

theorem supply_move (h : l.move source destination amount = some l') : l'.supply = l.supply := by
  obtain ⟨remaining, total, hr, ht, rfl⟩ := move_eq_some.mp h
  rw [checkedSub_eq_some] at hr
  rw [checkedAdd_eq_some] at ht
  have h1 := supply_setLamports l source remaining
  have h2 := supply_setLamports (l.setLamports source remaining) destination total
  omega

lemma lamports_add_le_supply (hne : source ≠ destination) :
    (l source).lamports.toNat + (l destination).lamports.toNat ≤ l.supply := by
  have hs := Finset.sum_le_sum_of_subset (f := fun k => (l k).lamports.toNat)
    (Finset.subset_univ {source, destination})
  rwa [Finset.sum_pair hne] at hs

lemma exists_move_of_supply (destination : Pubkey) (hsupply : l.supply < 2 ^ 64)
    (henough : amount.toNat ≤ (l source).lamports.toNat) :
    ∃ l', l.move source destination amount = some l' := by
  refine exists_move henough ?_
  intro hne
  have hboth := lamports_add_le_supply (l := l) hne
  omega

end Ledger

inductive SystemInstruction
  | createAccount (payer destination : Pubkey) (lamports : UInt64) (space : ℕ) (owner : Pubkey)
  | transfer (payer destination : Pubkey) (lamports : UInt64)

/-- The transaction an instruction runs in, as the sysvars show it. -/
structure Transaction where
  slot : UInt64
  current : UInt16
  instructions : List (Pubkey × List UInt8)

/-- The system program funds a new account with exactly the lamports it is
given. The payer is an account of its own and carries no data, so it can not be
the account it creates; the destination was unused. -/
structure Created (systemProgram : Pubkey) (l : Ledger) (payer destination : Pubkey)
    (lamports : UInt64) (space : ℕ) (owner : Pubkey) (l' : Ledger) : Prop where
  payer_system : (l payer).owner = systemProgram
  unused : (l destination).owner = systemProgram ∧ (l destination).lamports = 0
  distinct : payer ≠ destination
  funded : ∃ l₁, l.move payer destination lamports = some l₁ ∧
    l' = Function.update l₁ destination
      ⟨(l₁ destination).lamports, owner, List.replicate space 0⟩

structure Runtime where
  programId : Pubkey
  systemProgram : Pubkey
  ed25519Program : Pubkey
  incinerator : Pubkey
  /-- `Rent::get()?.minimum_balance`. -/
  rent : ℕ → UInt64
  findProgramAddress : List (List UInt8) → Pubkey → Pubkey × UInt8
  hash : List UInt8 → Bytes 32
  loadCurrentIndexChecked : Transaction → AccountInfo → Except ProgramError UInt16
  loadInstructionAtChecked : Transaction → ℕ → AccountInfo → Except ProgramError (Pubkey × List UInt8)
  invokeSigned : Ledger → SystemInstruction → List AccountInfo → List (List UInt8) →
    Except ProgramError Ledger
  deployed : programId ≠ systemProgram
  rent_pos : ∀ space, 0 < (rent space).toNat
  current_ok : ∀ tx info i, loadCurrentIndexChecked tx info = .ok i → i = tx.current
  instruction_ok : ∀ tx i info ix, loadInstructionAtChecked tx i info = .ok ix →
    tx.instructions[i]? = some ix
  create_ok : ∀ l payer destination lamports space owner infos seeds l', 0 < space →
    invokeSigned l (.createAccount payer destination lamports space owner) infos seeds = .ok l' →
    Created systemProgram l payer destination lamports space owner l'
  transfer_ok : ∀ l payer destination lamports infos seeds l',
    invokeSigned l (.transfer payer destination lamports) infos seeds = .ok l' →
    (l payer).owner = systemProgram ∧ l.move payer destination lamports = some l'

section Created
variable {systemProgram payer destination owner : Pubkey} {l l' : Ledger} {lamports : UInt64}
  {space : ℕ}

lemma Created.destination_eq (h : Created systemProgram l payer destination lamports space owner l') :
    l' destination = ⟨lamports, owner, List.replicate space 0⟩ := by
  obtain ⟨l₁, hm, rfl⟩ := h.funded
  have hc := (Ledger.moved_of_move hm).credit h.distinct
  rw [h.unused.2, UInt64.toNat_zero, Nat.zero_add] at hc
  rw [Function.update_self, UInt64.toNat_inj.mp hc]

lemma Created.of_ne (h : Created systemProgram l payer destination lamports space owner l')
    {k : Pubkey} (hk : k ≠ destination) :
    (l' k).owner = (l k).owner ∧ (l' k).data = (l k).data ∧
      (k ≠ payer → (l' k).lamports = (l k).lamports) := by
  obtain ⟨l₁, hm, rfl⟩ := h.funded
  have hmoved := Ledger.moved_of_move hm
  rw [Function.update_of_ne hk]
  exact ⟨hmoved.owner k, hmoved.data k, fun hp => hmoved.frame k hp hk⟩

lemma Created.supply_eq (h : Created systemProgram l payer destination lamports space owner l') :
    l'.supply = l.supply := by
  obtain ⟨l₁, hm, rfl⟩ := h.funded
  rw [← Ledger.supply_move hm]
  have hs := sum_update (fun a : Account => a.lamports.toNat) l₁ destination
    ⟨(l₁ destination).lamports, owner, List.replicate space 0⟩
  simp only [Ledger.supply] at hs ⊢
  omega

end Created

end Blitz.Program
