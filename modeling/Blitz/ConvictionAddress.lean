import Blitz.ProgramDonations
import Blitz.CanonicalPair

/-! One contradiction, one address: the program, the court client and the web client
each put the two messages in order before they derive the address of a conviction. -/
namespace Blitz.Court
open Program

/-- The program and the operator whose accounts are looked for. -/
structure Addresses where
  program : Pubkey
  operator : Pubkey

namespace Addresses

def convictionSeeds (rt : Runtime) (addresses : Addresses) (a b : List UInt8) :
    List (List UInt8) :=
  let (low, high) := if a ≤ b then (a, b) else (b, a)
  [convictionSeed, addresses.operator.val, (rt.hash low).val, (rt.hash high).val]

def conviction (rt : Runtime) (addresses : Addresses) (a b : List UInt8) : Pubkey :=
  (rt.findProgramAddress (addresses.convictionSeeds rt a b) addresses.program).1

end Addresses

end Blitz.Court

namespace Blitz.App
open Program

/-- The loop returns at the first index where the arrays differ; a number is negative,
zero or positive as the first array comes before, is, or comes after the second. -/
def compareBytes (a b : List UInt8) : ℤ :=
  let n := min a.length b.length
  match (List.range n).find? fun i => a.getD i 0 ≠ b.getD i 0 with
  | some i => if a.getD i 0 < b.getD i 0 then -1 else 1
  | none => (a.length : ℤ) - b.length

/-- A receipt, as far as the address of a conviction depends on it. -/
structure Receipt where
  message : List UInt8

structure Contradiction where
  a : Receipt
  b : Receipt

def ordered (pair : Contradiction) : Receipt × Receipt :=
  if compareBytes pair.a.message pair.b.message ≤ 0 then (pair.a, pair.b) else (pair.b, pair.a)

/-- `TextEncoder`: the UTF-8 bytes of a text. -/
def seed (s : String) : List UInt8 := s.toUTF8.data.toList

def convictionSeeds (rt : Runtime) (operator : Pubkey) (pair : Contradiction) : List (List UInt8) :=
  let (low, high) := ordered pair
  [seed "conviction", operator.val, (rt.hash low.message).val, (rt.hash high.message).val]

def convictionPda (rt : Runtime) (operator : Pubkey) (pair : Contradiction) : Pubkey :=
  (rt.findProgramAddress (convictionSeeds rt operator pair) rt.programId).1

lemma compareBytes_nil (b : List UInt8) : compareBytes [] b = -b.length := by
  simp [compareBytes]

lemma compareBytes_cons_nil (x : UInt8) (a : List UInt8) :
    compareBytes (x :: a) [] = a.length + 1 := by
  simp [compareBytes]

lemma compareBytes_cons (x y : UInt8) (a b : List UInt8) :
    compareBytes (x :: a) (y :: b) =
      if x ≠ y then if x < y then -1 else 1 else compareBytes a b := by
  unfold compareBytes
  simp only [List.length_cons, Nat.add_min_add_right, List.range_succ_eq_map, List.find?_cons]
  by_cases hxy : x = y
  · subst hxy
    simp only [List.getD_cons_zero, ne_eq, not_true_eq_false, decide_false, List.find?_map,
      if_false]
    have hshift : ((fun i => decide ¬(x :: a).getD i 0 = (x :: b).getD i 0) ∘ Nat.succ) =
        fun i => decide ¬a.getD i 0 = b.getD i 0 := by
      funext i
      simp
    rw [hshift]
    cases (List.range (min a.length b.length)).find? fun i => decide ¬a.getD i 0 = b.getD i 0 with
    | none =>
      push_cast
      simp
    | some i => simp
  · simp [hxy]

theorem compareBytes_le_zero {a b : List UInt8} : compareBytes a b ≤ 0 ↔ a ≤ b := by
  induction a generalizing b with
  | nil => simp [compareBytes_nil, List.nil_le]
  | cons x a ih =>
    cases b with
    | nil =>
      rw [compareBytes_cons_nil]
      constructor
      · intro h
        omega
      · intro h
        exact absurd h (List.not_le.mpr (List.nil_lt_cons x a))
    | cons y b =>
      rw [compareBytes_cons, List.cons_le_cons_iff]
      by_cases hxy : x = y
      · subst hxy
        simp [ih]
      · by_cases hlt : x < y
        · simp [hxy, hlt]
        · simp [hxy, hlt]

end Blitz.App

namespace Blitz.Program
open CheckedArith

section Address
variable {rt : Runtime} {o : Pubkey} {l l' : Ledger} {tx : Transaction} {a b : List UInt8}
  {e : Equivocation}

namespace Equivocation

lemma ordered_eq_pair (e : Equivocation) : e.ordered = CanonicalPair.pair (· ≤ ·) e.a e.b := rfl

lemma check_messages (h : check a b = .ok e) : e.a = a ∧ e.b = b := by
  obtain ⟨_, _, _, _, _, rfl⟩ := check_eq_ok.mp h
  exact ⟨rfl, rfl⟩

lemma check_swap (h : check a b = .ok e) : ∃ back, check b a = .ok back := by
  obtain ⟨ha, hb, hlog, hseq, hne, _⟩ := check_eq_ok.mp h
  exact ⟨_, check_eq_ok.mpr ⟨hb, ha, hlog.symm, hseq.symm, hne.symm, rfl⟩⟩

theorem ordered_eq_iff {e e' : Equivocation} :
    e.ordered = e'.ordered ↔ s(e.a, e.b) = s(e'.a, e'.b) := by
  rw [ordered_eq_pair, ordered_eq_pair]
  exact CanonicalPair.pair_eq_iff List.le_total List.le_antisymm

end Equivocation

lemma convictionSeeds_eq_iff {e e' : Equivocation}
    (hinj : Set.InjOn rt.hash {e.a, e.b, e'.a, e'.b}) :
    convictionSeeds rt o e = convictionSeeds rt o e' ↔ s(e.a, e.b) = s(e'.a, e'.b) := by
  rw [← Equivocation.ordered_eq_iff, Equivocation.ordered_eq_pair, Equivocation.ordered_eq_pair,
    ← CanonicalPair.map_pair_eq_iff hinj]
  simp only [convictionSeeds, Equivocation.ordered_eq_pair, List.cons.injEq, and_true, true_and]
  exact and_congr Subtype.ext_iff.symm Subtype.ext_iff.symm

lemma court_convictionSeeds (e : Equivocation) (program : Pubkey) :
    (Court.Addresses.mk program o).convictionSeeds rt e.a e.b = convictionSeeds rt o e := rfl

lemma app_convictionSeeds (e : Equivocation) :
    App.convictionSeeds rt o ⟨⟨e.a⟩, ⟨e.b⟩⟩ = convictionSeeds rt o e := by
  have hseed : App.seed "conviction" = convictionSeed := by decide
  unfold App.convictionSeeds convictionSeeds App.ordered Equivocation.ordered
  simp only [App.compareBytes_le_zero, hseed]
  split_ifs <;> rfl

theorem key_of_convict {accuser operatorInfo convictionInfo burnTo system : AccountInfo}
    {account : OperatorAccount}
    (h : convict rt tx l accuser operatorInfo convictionInfo burnTo system account e = .ok l') :
    convictionInfo.key =
      (rt.findProgramAddress (convictionSeeds rt operatorInfo.key e) rt.programId).1 := by
  simp only [convict, bind_eq_ok] at h
  obtain ⟨bump, hpda, _⟩ := h
  simp only [atPda, bind_eq_ok, require_eq_ok, exists_const] at hpda
  exact hpda.1

/-- Equal seeds, equal pairs: the address names the contradiction, whichever way round it
is presented and whoever derives it. -/
theorem one_contradiction_one_address {a' b' : List UInt8} {e' : Equivocation}
    (h : Equivocation.check a b = .ok e) (h' : Equivocation.check a' b' = .ok e')
    (hinj : Set.InjOn rt.hash {a, b, a', b'}) :
    (convictionSeeds rt o e = convictionSeeds rt o e' ↔ s(a, b) = s(a', b')) ∧
      (∃ back, Equivocation.check b a = .ok back ∧
        convictionSeeds rt o back = convictionSeeds rt o e ∧
        back.wrongedSignature = e.wrongedSignature ∧ back.wrongedTxHash = e.wrongedTxHash) ∧
      ∀ pair : Equivocation,
        (Court.Addresses.mk rt.programId o).convictionSeeds rt pair.a pair.b =
            convictionSeeds rt o pair ∧
          App.convictionSeeds rt o ⟨⟨pair.a⟩, ⟨pair.b⟩⟩ = convictionSeeds rt o pair := by
  obtain ⟨rfl, rfl⟩ := Equivocation.check_messages h
  obtain ⟨rfl, rfl⟩ := Equivocation.check_messages h'
  refine ⟨convictionSeeds_eq_iff hinj, ?_, ?_⟩
  · obtain ⟨back, hback⟩ := Equivocation.check_swap h
    obtain ⟨hb, ha⟩ := Equivocation.check_messages hback
    have hsame : back.ordered = e.ordered := by
      rw [Equivocation.ordered_eq_iff, ha, hb]
      exact Sym2.eq_swap
    refine ⟨back, hback, ?_, ?_, ?_⟩
    · rw [convictionSeeds, convictionSeeds, hsame]
    · rw [Equivocation.wrongedSignature, Equivocation.wrongedSignature, hsame]
    · rw [Equivocation.wrongedTxHash, Equivocation.wrongedTxHash, hsame]
  · intro pair
    exact ⟨court_convictionSeeds pair _, app_convictionSeeds pair⟩

end Address

namespace Vectors

/-- The recorded contradiction, the other way round. -/
def swapped : Equivocation := { contradiction with a := contradiction.b, b := contradiction.a }

lemma contradiction_evaluates :
    Equivocation.check contradiction.a contradiction.b = .ok contradiction ∧
      Equivocation.check swapped.a swapped.b = .ok swapped ∧
      runtime.hash contradiction.a ≠ runtime.hash contradiction.b := by decide +kernel

end Vectors

theorem one_contradiction_one_address_recorded :
    convictionSeeds Vectors.runtime Vectors.operator Vectors.contradiction =
      convictionSeeds Vectors.runtime Vectors.operator Vectors.swapped := by
  obtain ⟨h, h', hne⟩ := Vectors.contradiction_evaluates
  have hinj : Set.InjOn Vectors.runtime.hash {Vectors.contradiction.a, Vectors.contradiction.b,
      Vectors.swapped.a, Vectors.swapped.b} := by
    have hset : ({Vectors.contradiction.a, Vectors.contradiction.b, Vectors.swapped.a,
        Vectors.swapped.b} : Set (List UInt8)) = {Vectors.contradiction.a, Vectors.contradiction.b} := by
      ext m
      simp [Vectors.swapped, or_comm]
    rw [hset, Set.injOn_pair]
    intro hsame
    exact absurd hsame hne
  exact (one_contradiction_one_address h h' hinj).1.mpr Sym2.eq_swap

end Blitz.Program
