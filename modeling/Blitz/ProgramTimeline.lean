import Blitz.ProgramFates
import Blitz.ProgramFreeExit
import Blitz.Traces

/-! The program over time: instructions, what everybody else does and the passing
of slots, in any order. -/
namespace Blitz.Program
open CheckedArith Slashing Traces

structure Moment where
  slot : UInt64
  ledger : Ledger

inductive Event
  | instruction (tx : Transaction) (accounts : List AccountInfo) (i : Instruction)
  | external
  | tick

/-- An instruction runs in the slot it is; one that fails leaves nothing behind
and is not listed. -/
inductive Happens (rt : Runtime) : Event → Moment → Moment → Prop
  | instruction {m : Moment} {l' : Ledger} {tx : Transaction} {accounts : List AccountInfo}
      {i : Instruction} (data : List UInt8) (hslot : tx.slot = m.slot)
      (hread : Instruction.read data = .ok i)
      (h : process rt tx m.ledger accounts data = .ok l') :
      Happens rt (.instruction tx accounts i) m ⟨m.slot, l'⟩
  | external {m : Moment} {l' : Ledger} (h : External rt m.ledger l') :
      Happens rt .external m ⟨m.slot, l'⟩
  | tick {m : Moment} {slot : UInt64} (h : m.slot ≤ slot) : Happens rt .tick m ⟨slot, m.ledger⟩

/-- The chain has come to the moment `m`, from before the program was used. -/
def Run (rt : Runtime) (t : List (Entry Moment Event)) (m : Moment) : Prop :=
  ∃ start, Genesis rt start.ledger ∧ Trace (Happens rt) start t m

def Event.Registers (e : Event) (o : Pubkey) (bond : UInt64) : Prop :=
  match e with
  | .instruction _ accounts i => Program.Registers accounts i o bond
  | _ => False

/-- Every registration of `o` in the run has rent and bond in one `u64`. -/
def Backed (rt : Runtime) (t : List (Entry Moment Event)) (o : Pubkey) : Prop :=
  ∀ x ∈ t, ∀ bond, x.event.Registers o bond → (rt.rent operatorLen).toNat + bond.toNat < 2 ^ 64

section Timeline
variable {rt : Runtime} {backed : Pubkey → Prop} {m n : Moment} {e : Event} {tx : Transaction}
  {accounts : List AccountInfo} {i : Instruction} {o k : Pubkey} {a b : OperatorAccount}
  {t t₁ t₂ : List (Entry Moment Event)} {x : Entry Moment Event}

lemma Backed.mono (h : Backed rt t₂ o) (hsub : t₁ ⊆ t₂) : Backed rt t₁ o :=
  fun x hx => h x (hsub hx)

lemma Happens.effect (h : Happens rt (.instruction tx accounts i) m n) :
    tx.slot = m.slot ∧ n.slot = m.slot ∧ Effect rt m.ledger tx accounts i n.ledger := by
  cases h with
  | instruction data hslot hread h =>
    exact ⟨hslot, rfl, effect_of_dispatch (process_of_read hread h)⟩

lemma happens_process {l l' : Ledger} {slot : UInt64} (hslot : tx.slot = slot)
    (h : process rt tx l accounts i.write = .ok l') :
    Happens rt (.instruction tx accounts i) ⟨slot, l⟩ ⟨slot, l'⟩ :=
  .instruction _ hslot (Instruction.read_write i) h

lemma happens_tick {l : Ledger} {slot slot' : UInt64} (h : slot ≤ slot') :
    Happens rt .tick ⟨slot, l⟩ ⟨slot', l⟩ := .tick h

lemma InvOn.happens (h : InvOn rt backed m.ledger) (hstep : Happens rt e m n)
    (hfit : ∀ o bond, e.Registers o bond → backed o →
      (rt.rent operatorLen).toNat + bond.toNat < 2 ^ 64) : InvOn rt backed n.ledger := by
  cases hstep with
  | instruction data hslot hread hp =>
    exact h.effect (effect_of_dispatch (process_of_read hread hp)) hfit
  | external he => exact h.external he
  | tick _ => exact h

theorem Run.invOn (h : Run rt t m) :
    InvOn rt (Backed rt t) m.ledger ∧
      ∀ x ∈ t, InvOn rt (Backed rt t) x.before.ledger ∧ InvOn rt (Backed rt t) x.after.ledger := by
  obtain ⟨start, hg, h⟩ := h
  refine h.invariant_all (I := fun s => InvOn rt (Backed rt t) s.ledger) (hg.invOn _) ?_
  intro x hx hstep hinv
  exact hinv.happens hstep fun o bond hregisters hbacked => hbacked x hx bond hregisters

lemma Run.supply_lt {slot : UInt64} {l : Ledger} (h : Run rt t ⟨slot, l⟩) : l.supply < 2 ^ 64 :=
  h.invOn.1.supply

/-- An operator's record that is there before and after a step. -/
def Turns (rt : Runtime) (e : Event) (m n : Moment) (o : Pubkey) (a b : OperatorAccount) : Prop :=
  b = a ∨ ∃ tx accounts i, e = .instruction tx accounts i ∧ tx.slot = m.slot ∧
    OperatorTurn rt tx m.ledger accounts n.ledger o a i b

theorem Happens.operator (h : Happens rt e m n) (hinv : InvOn rt backed m.ledger) (hb : backed o)
    (ho : recordAt rt m.ledger o = some (.operator a)) :
    ∃ b, recordAt rt n.ledger o = some (.operator b) ∧ Turns rt e m n o a b := by
  cases h with
  | instruction data hslot hread hp =>
    obtain ⟨b, hb', hturn⟩ := (effect_of_dispatch (process_of_read hread hp)).operator ho
    exact ⟨b, hb', .inr ⟨_, _, _, rfl, hslot, hturn⟩⟩
  | external he =>
    exact ⟨a, (he.record_kept ho (hinv.funded (visible_operator hb ho))).1, .inl rfl⟩
  | tick _ => exact ⟨a, ho, .inl rfl⟩

theorem Happens.operator_before (h : Happens rt e m n)
    (ho : recordAt rt n.ledger o = some (.operator b)) :
    (∃ a, recordAt rt m.ledger o = some (.operator a) ∧ Turns rt e m n o a b) ∨
      (e.Registers o b.bond ∧ ∃ authority operatorInfo, operatorInfo.key = o ∧
        Registered rt m.ledger authority operatorInfo b n.ledger) := by
  cases h with
  | instruction data hslot hread hp =>
    have heffect := effect_of_dispatch (process_of_read hread hp)
    rcases heffect.operator_born ho with ⟨a, ha⟩ | hborn
    · obtain ⟨b', hb', hturn⟩ := heffect.operator ha
      obtain rfl := operator_inj hb' ho
      exact .inl ⟨a, ha, .inr ⟨_, _, _, rfl, hslot, hturn⟩⟩
    · exact .inr hborn
  | external he => exact .inl ⟨b, he.record ho, .inl rfl⟩
  | tick _ => exact .inl ⟨b, ho, .inl rfl⟩

lemma Event.Registers.operator {bond : UInt64} (h : e.Registers o bond) (hstep : Happens rt e m n) :
    ∃ a, recordAt rt n.ledger o = some (.operator a) ∧ a.bond = bond ∧ bond ≠ 0 ∧
      a.authority ≠ o := by
  cases hstep with
  | instruction data hslot hread hp =>
    obtain ⟨hnamed, signingKey, rfl⟩ := h
    cases effect_of_dispatch (process_of_read hread hp) with
    | @register authority operatorInfo rest a _ hlist h =>
      rw [hlist] at hnamed
      obtain rfl : operatorInfo.key = o := Option.some.inj hnamed
      refine ⟨a, by rw [h.records, Function.update_self], rfl, h.bonded, ?_⟩
      rw [h.owned]
      exact h.distinct
  | external => exact h.elim
  | tick => exact h.elim

theorem Happens.conviction {c : ConvictionAccount} (h : Happens rt e m n)
    (hinv : InvOn rt backed m.ledger) (hk : recordAt rt m.ledger k = some (.conviction c)) :
    (recordAt rt n.ledger k = some (.conviction c) ∧
      ∀ tx accounts i, e = .instruction tx accounts i → ¬ClaimsVictim accounts i k) ∨
      ∃ claimant convictionInfo, convictionInfo.key = k ∧
        VictimPaid rt m.ledger claimant convictionInfo c n.ledger := by
  cases h with
  | instruction data hslot hread hp =>
    rcases (effect_of_dispatch (process_of_read hread hp)).conviction hk with ⟨hsame, hother⟩ | hpaid
    · refine .inl ⟨hsame, ?_⟩
      intro tx accounts i he
      cases he
      exact hother
    · exact .inr hpaid
  | external he =>
    have hvisible : visible backed (recordAt rt m.ledger) k = some (.conviction c) :=
      visible_eq_some.mpr ⟨hk, trivial⟩
    exact .inl ⟨(he.record_kept hk (hinv.funded hvisible)).1, by simp⟩
  | tick _ => exact .inl ⟨hk, by simp⟩

end Timeline

namespace Vectors

def registerEntry : Entry Moment Event :=
  ⟨⟨6150410, genesis⟩, .instruction evidence registerAccounts
    (.register Receipts.Vectors.operatorPubkey 10000000000), ⟨6150410, registered⟩⟩

def stakeEntry : Entry Moment Event :=
  ⟨⟨6150410, registered⟩, .instruction evidence stakeAccounts (.stake 3000000000),
    ⟨6150410, staked⟩⟩

def convictEntry : Entry Moment Event :=
  ⟨⟨6150410, staked⟩, .instruction evidence convictAccounts .proveEquivocation,
    ⟨6150410, convicted⟩⟩

lemma trace_registered :
    Trace (Happens runtime) ⟨6150410, genesis⟩ [registerEntry] ⟨6150410, registered⟩ := by
  have hregister : Happens runtime registerEntry.event ⟨6150410, genesis⟩ ⟨6150410, registered⟩ :=
    happens_process rfl process_registered
  exact Trace.nil.snoc hregister

lemma trace_staked :
    Trace (Happens runtime) ⟨6150410, genesis⟩ [registerEntry, stakeEntry] ⟨6150410, staked⟩ := by
  have hstake : Happens runtime stakeEntry.event ⟨6150410, registered⟩ ⟨6150410, staked⟩ :=
    happens_process rfl process_staked
  exact trace_registered.snoc hstake

lemma trace_convicted :
    Trace (Happens runtime) ⟨6150410, genesis⟩ [registerEntry, stakeEntry, convictEntry]
      ⟨6150410, convicted⟩ := by
  have hconvict : Happens runtime convictEntry.event ⟨6150410, staked⟩ ⟨6150410, convicted⟩ :=
    happens_process rfl process_convicted
  exact trace_staked.snoc hconvict

lemma backed_convicted (o : Pubkey) :
    Backed runtime [registerEntry, stakeEntry, convictEntry] o := by
  intro x hx bond hregisters
  simp only [List.mem_cons, List.not_mem_nil, or_false] at hx
  rcases hx with rfl | rfl | rfl
  · obtain ⟨_, signingKey, he⟩ := hregisters
    cases he
    decide
  · obtain ⟨_, signingKey, he⟩ := hregisters
    cases he
  · obtain ⟨_, signingKey, he⟩ := hregisters
    cases he

end Vectors

end Blitz.Program
