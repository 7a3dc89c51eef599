import Blitz.ProgramTimeline

/-! Leaving takes longer than misbehaving: what stands between a bond and its
withdrawal, and for how long a withdrawal that has matured stays open. -/
namespace Blitz.Program
open CheckedArith Slashing Traces

/-- A `BeginUnbond` of the authority's that sets the clock of `o`; `a` is the
operator before it. -/
structure StartsClock (rt : Runtime) (x : Entry Moment Event) (o : Pubkey) (a : OperatorAccount) :
    Prop where
  event : ∃ tx accounts, x.event = .instruction tx accounts .beginUnbond ∧
    namedAt accounts 0 = some a.authority ∧ namedAt accounts 1 = some o
  unset : recordAt rt x.before.ledger o = some (.operator a) ∧ a.unbondAt = 0
  set : recordAt rt x.after.ledger o =
    some (.operator { a with unbondAt := x.before.slot + unbondSlots })

section Timelock
variable {rt : Runtime} {m n : Moment} {e : Event} {tx : Transaction}
  {accounts : List AccountInfo} {i : Instruction} {o : Pubkey} {a b : OperatorAccount}
  {t t₁ t₂ : List (Entry Moment Event)} {x w : Entry Moment Event} {l l' : Ledger}

lemma Turns.clock (h : Turns rt x.event x.before x.after o a b)
    (ha : recordAt rt x.before.ledger o = some (.operator a))
    (hb : recordAt rt x.after.ledger o = some (.operator b)) (hbond : b.bond ≠ 0) :
    b.bond = a.bond ∧ b.authority = a.authority ∧
      (b.unbondAt = a.unbondAt ∨ StartsClock rt x o a) := by
  rcases h with rfl | ⟨tx, accounts, i, he, hslot, hturn⟩
  · exact ⟨rfl, rfl, .inl rfl⟩
  · cases hturn with
    | same => exact ⟨rfl, rfl, .inl rfl⟩
    | pooled => exact ⟨rfl, rfl, .inl rfl⟩
    | slashed => exact absurd rfl hbond
    | bondWithdrawn => exact absurd rfl hbond
    | @unbondBegun authority operatorInfo rest hlist hkey h =>
      refine ⟨rfl, rfl, .inr ⟨⟨tx, accounts, he, ?_, ?_⟩, ⟨ha, h.unset⟩, ?_⟩⟩
      · rw [hlist, h.authorised]
        rfl
      · rw [hlist, ← hkey]
        rfl
      · rw [hb, hslot]

lemma registered_of_bond (hrun : Run rt t m) (ho : recordAt rt m.ledger o = some (.operator a))
    (hbond : a.bond ≠ 0) : ∃ x ∈ t, x.event.Registers o a.bond := by
  obtain ⟨start, hg, h⟩ := hrun
  have hsince := h.since
    (P := fun s => ∃ b, recordAt rt s.ledger o = some (.operator b) ∧ b.bond = a.bond)
    (E := fun x => x.event.Registers o a.bond) ?_ ⟨a, ho, rfl⟩
  · rcases hsince with ⟨⟨b, hb, _⟩, _⟩ | ⟨t₁, x, t₂, rfl, he, _⟩
    · rw [recordAt_of_owner_ne (hg.vacant o)] at hb
      cases hb
    · exact ⟨x, by simp, he⟩
  · intro x _ hstep hafter
    obtain ⟨b, hb, hsame⟩ := hafter
    rcases hstep.operator_before hb with ⟨c, hc, hturn⟩ | ⟨hregisters, _⟩
    · refine .inl ⟨c, hc, ?_⟩
      rw [← hsame, (hturn.clock hc hb (by rwa [hsame])).1]
    · exact .inr (by rwa [← hsame])

lemma clock_since (hrun : Run rt t m) (ho : recordAt rt m.ledger o = some (.operator a))
    (hbond : a.bond ≠ 0) (hset : a.unbondAt ≠ 0) :
    ∃ t₁ x t₂ b, t = t₁ ++ x :: t₂ ∧ StartsClock rt x o b ∧ b.bond = a.bond ∧
      b.authority = a.authority ∧ x.before.slot + unbondSlots = a.unbondAt ∧
      ∀ s, (s = x.after ∨ ∃ y ∈ t₂, s = y.after) → ∃ c,
        recordAt rt s.ledger o = some (.operator c) ∧ c.bond = a.bond ∧ c.unbondAt = a.unbondAt := by
  obtain ⟨start, hg, h⟩ := hrun
  have hsince := h.since
    (P := fun s => ∃ c, recordAt rt s.ledger o = some (.operator c) ∧ c.bond = a.bond ∧
      c.authority = a.authority ∧ c.unbondAt = a.unbondAt)
    (E := fun x => ∃ b, StartsClock rt x o b ∧ b.bond = a.bond ∧ b.authority = a.authority ∧
      x.before.slot + unbondSlots = a.unbondAt) ?_ ⟨a, ho, rfl, rfl, rfl⟩
  · rcases hsince with ⟨⟨b, hb, _⟩, _⟩ | ⟨t₁, x, t₂, rfl, ⟨b, hstarts, hbond', hauth, hslot⟩, hx, hall⟩
    · rw [recordAt_of_owner_ne (hg.vacant o)] at hb
      cases hb
    · refine ⟨t₁, x, t₂, b, rfl, hstarts, hbond', hauth, hslot, ?_⟩
      intro s hs
      rcases hs with rfl | ⟨y, hy, rfl⟩
      · obtain ⟨c, hc, hcb, _, hcu⟩ := hx
        exact ⟨c, hc, hcb, hcu⟩
      · obtain ⟨c, hc, hcb, _, hcu⟩ := (hall y hy).2
        exact ⟨c, hc, hcb, hcu⟩
  · intro x _ hstep hafter
    obtain ⟨c, hc, hcb, hca, hcu⟩ := hafter
    rcases hstep.operator_before hc with ⟨b, hb, hturn⟩ | ⟨_, authority, operatorInfo, _, hnew⟩
    · obtain ⟨hbond', hauth, hclock | hstarts⟩ := hturn.clock hb hc (by rwa [hcb])
      · exact .inl ⟨b, hb, hbond'.symm.trans hcb, hauth.symm.trans hca, hclock.symm.trans hcu⟩
      · refine .inr ⟨b, hstarts, hbond'.symm.trans hcb, hauth.symm.trans hca, ?_⟩
        obtain rfl := operator_inj hstarts.set hc
        exact hcu
    · -- A registration leaves the clock unset.
      exact absurd (hcu.symm.trans hnew.fresh.2.2) hset

variable (rt) in
/-- The whole of `bond` is there, and a conviction would take it. -/
def FullySlashable (m : Moment) (o : Pubkey) (bond : UInt64) : Prop :=
  ∃ a, recordAt rt m.ledger o = some (.operator a) ∧ a.bond = bond ∧
    ∀ tx accounts l', namedAt accounts 1 = some o →
      process rt tx m.ledger accounts Instruction.proveEquivocation.write = .ok l' →
      SlashedInFull rt accounts l' o bond

variable (rt) in
/-- The clock is set, and asking again would change nothing at all. -/
def ClockStands (m : Moment) (o : Pubkey) (bond unbondAt : UInt64) : Prop :=
  ∃ a, recordAt rt m.ledger o = some (.operator a) ∧ a.bond = bond ∧ a.unbondAt = unbondAt ∧
    ∀ tx accounts l', namedAt accounts 1 = some o →
      process rt tx m.ledger accounts Instruction.beginUnbond.write = .ok l' → l' = m.ledger

lemma fullySlashable (ho : recordAt rt m.ledger o = some (.operator a)) :
    FullySlashable rt m o a.bond := by
  refine ⟨a, ho, rfl, ?_⟩
  intro tx accounts l' hnamed h
  exact slashedInFull_of_process ho hnamed h

lemma clockStands (ho : recordAt rt m.ledger o = some (.operator a)) (hset : a.unbondAt ≠ 0) :
    ClockStands rt m o a.bond a.unbondAt := by
  refine ⟨a, ho, rfl, rfl, ?_⟩
  intro tx accounts l' hnamed h
  rw [process_write] at h
  cases effect_of_dispatch h with
  | beginUnbond hlist h =>
    rw [hlist] at hnamed
    cases hnamed
    obtain rfl := operator_inj h.operator ho
    exact absurd h.unset hset
  | beginUnbondAgain => rfl

/-- A bond that is withdrawn was asked for by its authority a whole delay earlier,
and all of it could have been slashed at every moment in between. -/
theorem withdrawal_waits_out_timelock (hrun : Run rt (t₁ ++ w :: t₂) m)
    (hslots : ∀ x ∈ t₁ ++ w :: t₂, x.before.slot.toNat + unbondSlots.toNat < 2 ^ 64)
    (hevent : w.event = .instruction tx accounts .withdrawBond) (hnamed : namedAt accounts 1 = some o)
    (ho : recordAt rt w.before.ledger o = some (.operator a)) (hbond : a.bond ≠ 0) :
    namedAt accounts 0 = some a.authority ∧
    ∃ u x v b, t₁ = u ++ x :: v ∧ (∃ r ∈ u, r.event.Registers o a.bond) ∧
      StartsClock rt x o b ∧ b.authority = a.authority ∧
      x.before.slot.toNat + unbondSlots.toNat ≤ w.before.slot.toNat ∧
      (∀ s, (s = x.before ∨ s = x.after ∨ ∃ y ∈ v, s = y.after) → FullySlashable rt s o a.bond) ∧
      ∀ s, (s = x.after ∨ ∃ y ∈ v, s = y.after) → ClockStands rt s o a.bond a.unbondAt := by
  obtain ⟨start, hg, htrace⟩ := hrun
  obtain ⟨hbefore, hw, _⟩ := htrace.cut
  rw [hevent] at hw
  obtain ⟨hslot, _, heffect⟩ := hw.effect
  cases heffect with
  | @withdrawBond authority operatorInfo rest b _ hlist hwithdrawn =>
    rw [hlist] at hnamed
    obtain rfl : operatorInfo.key = o := Option.some.inj hnamed
    obtain rfl := operator_inj hwithdrawn.operator ho
    obtain ⟨hset, hmatured⟩ := hwithdrawn.matured
    refine ⟨by rw [hlist, hwithdrawn.authorised]; rfl, ?_⟩
    obtain ⟨u, x, v, c, rfl, hstarts, hcbond, hcauth, hclock, hall⟩ :=
      clock_since ⟨start, hg, hbefore⟩ ho hbond hset
    have hregistered := registered_of_bond ⟨start, hg, hbefore.cut.1⟩ hstarts.unset.1
      (by rwa [hcbond])
    rw [hcbond] at hregistered
    have hdelay : x.before.slot.toNat + unbondSlots.toNat ≤ w.before.slot.toNat := by
      rw [← toNat_add_of_lt (hslots x (by simp)), hclock, ← hslot]
      exact UInt64.le_iff_toNat_le.mp hmatured
    refine ⟨u, x, v, c, rfl, hregistered, hstarts, hcauth, hdelay, ?_, ?_⟩
    · intro s hs
      rcases hs with rfl | hs
      · rw [← hcbond]
        exact fullySlashable hstarts.unset.1
      · obtain ⟨d, hd, hdbond, _⟩ := hall s hs
        rw [← hdbond]
        exact fullySlashable hd
    · intro s hs
      obtain ⟨d, hd, hdbond, hdclock⟩ := hall s hs
      rw [← hdbond, ← hdclock]
      exact clockStands hd (by rwa [hdclock])

variable (rt) in
/-- There is a bond, and its authority could withdraw it right now. -/
def Withdrawable (m : Moment) (o : Pubkey) : Prop :=
  ∃ a, recordAt rt m.ledger o = some (.operator a) ∧ a.bond ≠ 0 ∧
    ∃ tx accounts l', tx.slot = m.slot ∧ namedAt accounts 1 = some o ∧
      process rt tx m.ledger accounts Instruction.withdrawBond.write = .ok l'

variable (rt) in
/-- Of any two moments a whole delay apart at which the bond of `o` could be
withdrawn at once, the second needed a request of its own. -/
def RequestsAnew (t : List (Entry Moment Event)) (o : Pubkey) : Prop :=
  ∀ t₁ x t₂ y t₃, t = t₁ ++ x :: (t₂ ++ y :: t₃) → Withdrawable rt x.after o →
    Withdrawable rt y.after o →
    x.after.slot.toNat + unbondSlots.toNat ≤ y.after.slot.toNat →
    ∃ z ∈ t₂ ++ [y], ∃ a, StartsClock rt z o a

variable (rt) in
/-- No request of `o` has been left standing for a delay after it matured. -/
def Unexpired (m : Moment) (o : Pubkey) : Prop :=
  ∀ a, recordAt rt m.ledger o = some (.operator a) → a.bond ≠ 0 → a.unbondAt ≠ 0 →
    m.slot.toNat < a.unbondAt.toNat + unbondSlots.toNat

lemma unexpired_of_record {slot : UInt64} (ho : recordAt rt l o = some (.operator a))
    (h : a.unbondAt ≠ 0 → slot.toNat < a.unbondAt.toNat + unbondSlots.toNat) :
    Unexpired rt ⟨slot, l⟩ o := by
  intro b hb _ hset
  obtain rfl := operator_inj ho hb
  exact h hset

lemma withdrawable_of_process {slot : UInt64} (ho : recordAt rt l o = some (.operator a))
    (hbond : a.bond ≠ 0) (hslot : tx.slot = slot) (hnamed : namedAt accounts 1 = some o)
    (h : process rt tx l accounts Instruction.withdrawBond.write = .ok l') :
    Withdrawable rt ⟨slot, l⟩ o := ⟨a, ho, hbond, tx, accounts, l', hslot, hnamed, h⟩

lemma Withdrawable.matured (h : Withdrawable rt m o) :
    ∃ a, recordAt rt m.ledger o = some (.operator a) ∧ a.bond ≠ 0 ∧ a.unbondAt ≠ 0 ∧
      a.unbondAt.toNat ≤ m.slot.toNat := by
  obtain ⟨a, ho, hbond, tx, accounts, l', hslot, hnamed, h⟩ := h
  rw [process_write] at h
  cases effect_of_dispatch h with
  | @withdrawBond authority operatorInfo rest b _ hlist h =>
    rw [hlist] at hnamed
    obtain rfl : operatorInfo.key = o := Option.some.inj hnamed
    obtain rfl := operator_inj h.operator ho
    refine ⟨b, ho, hbond, h.matured.1, ?_⟩
    rw [← hslot]
    exact UInt64.le_iff_toNat_le.mp h.matured.2

lemma clock_before (h : Trace (Happens rt) m t n) (ho : recordAt rt n.ledger o = some (.operator a))
    (hbond : a.bond ≠ 0) (hset : a.unbondAt ≠ 0) (hnone : ∀ z ∈ t, ∀ b, ¬StartsClock rt z o b) :
    ∃ b, recordAt rt m.ledger o = some (.operator b) ∧ b.unbondAt = a.unbondAt := by
  have hsince := h.since
    (P := fun s => ∃ c, recordAt rt s.ledger o = some (.operator c) ∧ c.bond = a.bond ∧
      c.unbondAt = a.unbondAt) (E := fun _ => False) ?_ ⟨a, ho, rfl, rfl⟩
  · rcases hsince with ⟨⟨b, hb, _, hclock⟩, _⟩ | ⟨_, _, _, _, hfalse, _⟩
    · exact ⟨b, hb, hclock⟩
    · exact hfalse.elim
  · intro x hx hstep hafter
    obtain ⟨c, hc, hcb, hcu⟩ := hafter
    rcases hstep.operator_before hc with ⟨b, hb, hturn⟩ | ⟨_, authority, operatorInfo, _, hnew⟩
    · obtain ⟨hbond', _, hclock | hstarts⟩ := hturn.clock hb hc (by rwa [hcb])
      · exact .inl ⟨b, hb, hbond'.symm.trans hcb, hclock.symm.trans hcu⟩
      · exact absurd hstarts (hnone x hx b)
    · exact absurd (hcu.symm.trans hnew.fresh.2.2) hset

/-- Where no matured request is left standing for a whole delay, a withdrawal is
not kept one instruction away. -/
theorem requests_anew_of_unexpired (hrun : Run rt t m) (hfresh : ∀ x ∈ t, Unexpired rt x.after o) :
    RequestsAnew rt t o := by
  intro t₁ x t₂ y t₃ ht hfirst hsecond hapart
  subst ht
  obtain ⟨start, hg, htrace⟩ := hrun
  obtain ⟨_, _, hlater⟩ := htrace.cut
  obtain ⟨hbetween, hy, _⟩ := hlater.cut
  have hstretch : Trace (Happens rt) x.after (t₂ ++ [y]) y.after := hbetween.snoc hy
  by_contra hnone
  have hquiet : ∀ z ∈ t₂ ++ [y], ∀ b, ¬StartsClock rt z o b :=
    fun z hz b hstarts => hnone ⟨z, hz, b, hstarts⟩
  obtain ⟨a, ha, _, _, hearly⟩ := hfirst.matured
  obtain ⟨c, hc, hcbond, hcset, _⟩ := hsecond.matured
  obtain ⟨b, hb, hclock⟩ := clock_before hstretch hc hcbond hcset hquiet
  obtain rfl := operator_inj ha hb
  -- The same clock had run out a delay ago, and it may not stand that long.
  have hlate := hfresh y (by simp) c hc hcbond hcset
  rw [← hclock] at hlate
  omega

end Timelock

namespace Vectors

def unbondAccounts : List AccountInfo := [signer authority, passive operator]

/-- A transaction of a later slot. -/
def laterIn (slot : UInt64) : Transaction := { evidence with slot := slot }

def unbonding : Ledger := after registered unbondAccounts .beginUnbond

def withdrawn : Ledger :=
  (dispatch runtime (laterIn 6366410) unbonding unbondAccounts .withdrawBond).toOption.getD unbonding

/-- The operator account with its clock running. -/
def unbondingOperator : OperatorAccount :=
  ⟨authority, Receipts.Vectors.operatorPubkey, 10000000000, 0, 0, 6366410, 255⟩

lemma unbonding_evaluates :
    (dispatch runtime evidence registered unbondAccounts .beginUnbond).toBool = true ∧
    ((unbonding operator).owner = programId ∧
      OperatorAccount.read (unbonding operator).data = .ok unbondingOperator) ∧
    (dispatch runtime (laterIn 6366410) unbonding unbondAccounts .withdrawBond).toBool = true ∧
    (dispatch runtime (laterIn 6500000) unbonding unbondAccounts .withdrawBond).toBool = true ∧
    (dispatch runtime (laterIn 6582410) unbonding unbondAccounts .withdrawBond).toBool = true := by
  decide +kernel

lemma process_unbonding :
    process runtime evidence registered unbondAccounts Instruction.beginUnbond.write =
      .ok unbonding := process_after unbonding_evaluates.1

lemma process_withdrawn :
    process runtime (laterIn 6366410) unbonding unbondAccounts Instruction.withdrawBond.write =
      .ok withdrawn := by
  obtain ⟨l', hl⟩ := toBool_eq_true.mp unbonding_evaluates.2.2.1
  rw [process_write, withdrawn, hl]
  rfl

lemma recordAt_unbonding :
    recordAt runtime unbonding operator = some (.operator unbondingOperator) :=
  recordAt_operator.mpr unbonding_evaluates.2.1

def unbondEntry : Entry Moment Event :=
  ⟨⟨6150410, registered⟩, .instruction evidence unbondAccounts .beginUnbond, ⟨6150410, unbonding⟩⟩

/-- Nothing but time passes. -/
def idleEntry (slot slot' : UInt64) : Entry Moment Event :=
  ⟨⟨slot, unbonding⟩, .tick, ⟨slot', unbonding⟩⟩

def withdrawEntry : Entry Moment Event :=
  ⟨⟨6366410, unbonding⟩, .instruction (laterIn 6366410) unbondAccounts .withdrawBond,
    ⟨6366410, withdrawn⟩⟩

lemma trace_unbonding :
    Trace (Happens runtime) ⟨6150410, genesis⟩ [registerEntry, unbondEntry] ⟨6150410, unbonding⟩ := by
  have hunbond : Happens runtime unbondEntry.event ⟨6150410, registered⟩ ⟨6150410, unbonding⟩ :=
    happens_process rfl process_unbonding
  exact trace_registered.snoc hunbond

lemma withdrawable_unbonding {slot : UInt64}
    (h : (dispatch runtime (laterIn slot) unbonding unbondAccounts .withdrawBond).toBool = true) :
    Withdrawable runtime ⟨slot, unbonding⟩ operator := by
  obtain ⟨l', hl⟩ := toBool_eq_true.mp h
  have hp : process runtime (laterIn slot) unbonding unbondAccounts
      Instruction.withdrawBond.write = .ok l' := by rw [process_write, hl]
  exact withdrawable_of_process recordAt_unbonding (by decide) rfl rfl hp

lemma trace_waiting {slot : UInt64} (h : 6366410 ≤ slot) :
    Trace (Happens runtime) ⟨6150410, genesis⟩
      [registerEntry, unbondEntry, idleEntry 6150410 6366410, idleEntry 6366410 slot]
      ⟨slot, unbonding⟩ :=
  (trace_unbonding.snoc (happens_tick (by decide))).snoc (happens_tick h)

lemma unexpired_unbonding {slot : UInt64} (h : slot.toNat < 6582410) :
    Unexpired runtime ⟨slot, unbonding⟩ operator :=
  unexpired_of_record recordAt_unbonding fun _ => h

end Vectors

theorem withdrawal_waits_out_timelock_recorded :
    namedAt Vectors.unbondAccounts 0 = some Vectors.authority ∧
    ∃ u x v b, [Vectors.registerEntry, Vectors.unbondEntry, Vectors.idleEntry 6150410 6366410] =
        u ++ x :: v ∧
      StartsClock Vectors.runtime x Vectors.operator b ∧ b.authority = Vectors.authority ∧
      x.before.slot.toNat + 216000 ≤ 6366410 ∧
      FullySlashable Vectors.runtime x.before Vectors.operator 10000000000 := by
  have hwithdraw : Happens Vectors.runtime Vectors.withdrawEntry.event
      ⟨6366410, Vectors.unbonding⟩ ⟨6366410, Vectors.withdrawn⟩ :=
    happens_process rfl Vectors.process_withdrawn
  have htrace := (Vectors.trace_unbonding.snoc (happens_tick (show (6150410 : UInt64) ≤ 6366410 by
    decide))).snoc hwithdraw
  obtain ⟨hauthority, u, x, v, b, ht, _, hstarts, hb, hdelay, hslashable, _⟩ :=
    withdrawal_waits_out_timelock (w := Vectors.withdrawEntry) (o := Vectors.operator)
      (a := Vectors.unbondingOperator)
      ⟨_, Vectors.genesis_genesis, htrace⟩ (by decide +kernel) rfl rfl
      (by dsimp only [Vectors.withdrawEntry]; exact Vectors.recordAt_unbonding) (by decide)
  exact ⟨hauthority, u, x, v, b, ht, hstarts, hb, hdelay, hslashable _ (.inl rfl)⟩

theorem requests_anew_of_unexpired_recorded :
    Withdrawable Vectors.runtime ⟨6500000, Vectors.unbonding⟩ Vectors.operator ∧
    RequestsAnew Vectors.runtime [Vectors.registerEntry, Vectors.unbondEntry,
      Vectors.idleEntry 6150410 6366410, Vectors.idleEntry 6366410 6500000] Vectors.operator := by
  refine ⟨Vectors.withdrawable_unbonding Vectors.unbonding_evaluates.2.2.2.1, ?_⟩
  refine requests_anew_of_unexpired
    ⟨_, Vectors.genesis_genesis, Vectors.trace_waiting (by decide)⟩ ?_
  intro x hx
  simp only [List.mem_cons, List.not_mem_nil, or_false] at hx
  rcases hx with rfl | rfl | rfl | rfl
  · exact unexpired_of_record Vectors.recordAt_registered fun hset => absurd rfl hset
  · exact Vectors.unexpired_unbonding (by decide)
  · exact Vectors.unexpired_unbonding (by decide)
  · exact Vectors.unexpired_unbonding (by decide)

/-- Left alone for another 216000 slots, the request is as good as new: the bond
can be withdrawn at both ends, and nothing was asked for in between. -/
theorem matured_request_stands :
    Run Vectors.runtime [Vectors.registerEntry, Vectors.unbondEntry,
      Vectors.idleEntry 6150410 6366410, Vectors.idleEntry 6366410 6582410]
      ⟨6582410, Vectors.unbonding⟩ ∧
    Withdrawable Vectors.runtime ⟨6366410, Vectors.unbonding⟩ Vectors.operator ∧
    Withdrawable Vectors.runtime ⟨6582410, Vectors.unbonding⟩ Vectors.operator ∧
    ¬RequestsAnew Vectors.runtime [Vectors.registerEntry, Vectors.unbondEntry,
      Vectors.idleEntry 6150410 6366410, Vectors.idleEntry 6366410 6582410] Vectors.operator := by
  have hfirst : Withdrawable Vectors.runtime ⟨6366410, Vectors.unbonding⟩ Vectors.operator :=
    Vectors.withdrawable_unbonding Vectors.unbonding_evaluates.2.2.1
  have hsecond : Withdrawable Vectors.runtime ⟨6582410, Vectors.unbonding⟩ Vectors.operator :=
    Vectors.withdrawable_unbonding Vectors.unbonding_evaluates.2.2.2.2
  refine ⟨⟨_, Vectors.genesis_genesis, Vectors.trace_waiting (by decide)⟩, hfirst, hsecond, ?_⟩
  intro hlaw
  obtain ⟨z, hz, a, hstarts⟩ := hlaw [Vectors.registerEntry, Vectors.unbondEntry]
    (Vectors.idleEntry 6150410 6366410) [] (Vectors.idleEntry 6366410 6582410) [] rfl hfirst hsecond
    (by decide)
  obtain ⟨tx, accounts, he, _⟩ := hstarts.event
  obtain rfl := List.mem_singleton.mp hz
  cases he

end Blitz.Program
