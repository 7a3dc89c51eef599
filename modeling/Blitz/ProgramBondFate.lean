import Blitz.ProgramTimeline

/-! What becomes of a bond: it stands as it was registered until one event takes
it, and that event says where all of it went. -/
namespace Blitz.Program
open CheckedArith RewardIndex Slashing Traces

/-- A `WithdrawBond` that pays `bond` out of `o` to its authority. -/
structure Withdraws (x : Entry Moment Event) (o authority : Pubkey) (bond : UInt64) : Prop where
  event : ∃ tx accounts, x.event = .instruction tx accounts .withdrawBond ∧
    namedAt accounts 0 = some authority ∧ namedAt accounts 1 = some o
  distinct : o ≠ authority
  paid : Pays x.before.ledger o authority bond x.after.ledger

/-- A `ProveEquivocation` that takes `bond` from `o`: part is burned, part goes to
the new conviction at `k`, and the pool's part stays. -/
structure Slashes (rt : Runtime) (x : Entry Moment Event) (o k : Pubkey) (bond : UInt64)
    (split : Split) : Prop where
  event : ∃ tx accounts, x.event = .instruction tx accounts .proveEquivocation ∧
    namedAt accounts 1 = some o ∧ namedAt accounts 2 = some k
  opened : recordAt rt x.before.ledger k = none ∧ ∃ c,
    recordAt rt x.after.ledger k = some (.conviction c) ∧ c.operator = o ∧ c.slashed = bond ∧
      c.owedToVictim = split.victim
  whole : split.burn.toNat + split.victim.toNat + split.pool.toNat = bond.toNat
  burned : split.victim.toNat + split.pool.toNat ≤ split.burn.toNat ∧
    bond.toNat ≤ 2 * split.burn.toNat
  unstaked : ∀ a, recordAt rt x.before.ledger o = some (.operator a) → a.poolStaked = 0 →
    split.pool = 0
  /-- The accuser funds the conviction first; then the operator's account pays twice. -/
  paid : ∃ l₁ l₂, held l₁ k = (rt.rent convictionLen).toNat ∧ held l₁ o = held x.before.ledger o ∧
    Pays l₁ o rt.incinerator split.burn l₂ ∧ Pays l₂ o k split.victim x.after.ledger
  retained : o ≠ rt.incinerator →
    held x.after.ledger o + bond.toNat = held x.before.ledger o + split.pool.toNat

/-- What a `ClaimVictim` on the conviction at `k` takes out of it. -/
def victimPayment (k : Pubkey) (x : Entry Moment Event) : ℕ :=
  match x.event with
  | .instruction _ accounts (.claimVictim _) =>
    if namedAt accounts 1 = some k then held x.before.ledger k - held x.after.ledger k else 0
  | _ => 0

def victimPayments (k : Pubkey) (t : List (Entry Moment Event)) : ℕ :=
  (t.map (victimPayment k)).sum

section Fate
variable {rt : Runtime} {backed : Pubkey → Prop} {m n : Moment} {o k authority : Pubkey}
  {bond : UInt64} {a b : OperatorAccount} {c : ConvictionAccount} {split : Split} {index : BitVec 128}
  {t t₁ t₂ : List (Entry Moment Event)} {x y : Entry Moment Event}

variable (rt) in
/-- The bond stands as it was registered. -/
def Bonded (m : Moment) (o : Pubkey) (bond : UInt64) : Prop :=
  ∃ a, recordAt rt m.ledger o = some (.operator a) ∧ a.bond = bond

variable (rt) in
/-- The bond is gone, and the pool's index stays where it is. -/
def Spent (m : Moment) (o : Pubkey) (index : BitVec 128) : Prop :=
  ∃ a, recordAt rt m.ledger o = some (.operator a) ∧ a.bond = 0 ∧ a.rewardIndex = index

lemma Convicted.slashes {tx : Transaction} {accounts : List AccountInfo}
    {accuser operatorInfo convictionInfo burnTo : AccountInfo} {rest : List AccountInfo}
    (h : Convicted rt x.before.ledger accuser operatorInfo convictionInfo a c x.after.ledger)
    (he : x.event = .instruction tx accounts .proveEquivocation)
    (hlist : accounts = accuser :: operatorInfo :: convictionInfo :: burnTo :: rest) :
    Slashes rt x operatorInfo.key convictionInfo.key a.bond (appliedSplit a) := by
  obtain ⟨htotal, hburned, hunstaked⟩ := Pool.distribute_split a.pool a.bond
  obtain ⟨l₁, l₂, hrent, hframe, hburn, hvictim⟩ := h.paid
  have hfunded := hframe operatorInfo.key (h.ne_accuser h.operator) h.key_ne
  change (appliedSplit a).Of _ at htotal
  change _ ≤ (appliedSplit a).burn.toNat at hburned
  change (appliedSplit a).victim.toNat + (appliedSplit a).pool.toNat ≤ _ at hburned
  unfold Split.Of at htotal
  exact
    { event := ⟨tx, accounts, he, by rw [hlist]; rfl, by rw [hlist]; rfl⟩
      opened := by
        refine ⟨h.vacant, c, ?_, h.convicted⟩
        rw [h.records, Function.update_self]
      whole := htotal
      burned := ⟨hburned, by omega⟩
      unstaked := by
        intro b hb hnone
        obtain rfl := operator_inj h.operator hb
        exact hunstaked hnone
      paid := ⟨l₁, l₂, hrent, hfunded, hburn, hvictim⟩
      retained := by
        intro hne
        have h₁ := hburn.debit hne
        have h₂ := hvictim.debit h.key_ne
        omega }

lemma BondWithdrawn.withdraws {tx : Transaction} {accounts : List AccountInfo}
    {authorityInfo operatorInfo : AccountInfo} {rest : List AccountInfo}
    (h : BondWithdrawn rt x.before.ledger tx authorityInfo operatorInfo a x.after.ledger)
    (he : x.event = .instruction tx accounts .withdrawBond)
    (hlist : accounts = authorityInfo :: operatorInfo :: rest) (hne : a.authority ≠ operatorInfo.key) :
    Withdraws x operatorInfo.key a.authority a.bond := by
  rw [h.authorised] at hne ⊢
  exact ⟨⟨tx, accounts, he, by rw [hlist]; rfl, by rw [hlist]; rfl⟩, hne.symm, h.paid⟩

lemma Turns.takes (h : Turns rt x.event x.before x.after o a b)
    (hne : a.authority ≠ o) :
    b.authority = a.authority ∧
      ((b.bond = a.bond ∧ b.rewardIndex = a.rewardIndex) ∨
        (b.bond = 0 ∧ b.rewardIndex = a.rewardIndex ∧ Withdraws x o a.authority a.bond) ∨
        (b.bond = 0 ∧ a.bond ≠ 0 ∧ ∃ k, Slashes rt x o k a.bond (appliedSplit a))) := by
  rcases h with rfl | ⟨tx, accounts, i, he, hslot, hturn⟩
  · exact ⟨rfl, .inl ⟨rfl, rfl⟩⟩
  · cases hturn with
    | same => exact ⟨rfl, .inl ⟨rfl, rfl⟩⟩
    | pooled hindex => exact ⟨rfl, .inl ⟨rfl, hindex⟩⟩
    | unbondBegun => exact ⟨rfl, .inl ⟨rfl, rfl⟩⟩
    | @slashed accuser operatorInfo convictionInfo burnTo rest c hlist hkey h =>
      refine ⟨rfl, .inr (.inr ⟨rfl, h.bonded, convictionInfo.key, ?_⟩)⟩
      rw [← hkey]
      exact h.slashes he hlist
    | bondWithdrawn hlist hkey h =>
      refine ⟨rfl, .inr (.inl ⟨rfl, rfl, ?_⟩)⟩
      rw [← hkey] at hne ⊢
      exact h.withdraws he hlist hne

lemma taken_of_happens (hinv : InvOn rt backed x.before.ledger) (hb : backed o)
    (hstep : Happens rt x.event x.before x.after) (ho : recordAt rt x.before.ledger o = some (.operator a))
    (hne : a.authority ≠ o) :
    ∃ b, recordAt rt x.after.ledger o = some (.operator b) ∧ b.authority = a.authority ∧
      (b.bond = a.bond ∨ (b.bond = 0 ∧ (Withdraws x o a.authority a.bond ∨
        ∃ k split, Slashes rt x o k a.bond split))) := by
  obtain ⟨b, hb', hturn⟩ := hstep.operator hinv hb ho
  obtain ⟨hauthority, hcases⟩ := hturn.takes hne
  refine ⟨b, hb', hauthority, ?_⟩
  rcases hcases with ⟨hsame, _⟩ | ⟨hzero, _, hwithdraws⟩ | ⟨hzero, _, k, hslashes⟩
  · exact .inl hsame
  · exact .inr ⟨hzero, .inl hwithdraws⟩
  · exact .inr ⟨hzero, .inr ⟨k, _, hslashes⟩⟩

lemma Spent.happens (h : Spent rt x.before o index) (hinv : InvOn rt backed x.before.ledger)
    (hb : backed o) (hstep : Happens rt x.event x.before x.after) : Spent rt x.after o index := by
  obtain ⟨a, ha, hzero, hindex⟩ := h
  obtain ⟨b, hb', hturn⟩ := hstep.operator hinv hb ha
  rcases hturn with rfl | ⟨tx, accounts, i, he, hslot, hturn⟩
  · exact ⟨b, hb', hzero, hindex⟩
  · refine ⟨b, hb', ?_⟩
    cases hturn with
    | same => exact ⟨hzero, hindex⟩
    | pooled hpool => exact ⟨hzero, hpool.trans hindex⟩
    | slashed hlist hkey h => exact absurd hzero h.bonded
    | unbondBegun hlist hkey h => exact ⟨hzero, hindex⟩
    | bondWithdrawn hlist hkey h => exact ⟨rfl, hindex⟩

lemma Withdraws.of_happens (h : Withdraws x o authority bond)
    (hstep : Happens rt x.event x.before x.after) :
    Bonded rt x.before o bond ∧ Bonded rt x.after o 0 := by
  obtain ⟨tx, accounts, he, hauthority, hnamed⟩ := h.event
  rw [he] at hstep
  cases hstep.effect.2.2 with
  | @withdrawBond authorityInfo operatorInfo rest a _ hlist hw =>
    rw [hlist] at hauthority hnamed
    obtain rfl : authorityInfo.key = authority := Option.some.inj hauthority
    obtain rfl : operatorInfo.key = o := Option.some.inj hnamed
    have hpaid := hw.paid.debit h.distinct
    have hpaid' := h.paid.debit h.distinct
    have hsame : a.bond = bond := UInt64.toNat_inj.mp (by omega)
    refine ⟨⟨a, hw.operator, hsame⟩, { a with bond := 0, unbondAt := 0 }, ?_, rfl⟩
    rw [hw.records, Function.update_self]

lemma Slashes.of_happens (h : Slashes rt x o k bond split)
    (hstep : Happens rt x.event x.before x.after) :
    (∃ a, recordAt rt x.before.ledger o = some (.operator a) ∧ a.bond ≠ 0) ∧
      Bonded rt x.after o 0 := by
  obtain ⟨tx, accounts, he, hnamed, _⟩ := h.event
  rw [he] at hstep
  cases hstep.effect.2.2 with
  | @proveEquivocation accuser operatorInfo convictionInfo burnTo rest a c _ hlist hburn hc =>
    rw [hlist] at hnamed
    obtain rfl : operatorInfo.key = o := Option.some.inj hnamed
    refine ⟨⟨a, hc.operator, hc.bonded⟩, slashedOperator a, ?_, rfl⟩
    rw [hc.records, Function.update_of_ne (ne_of_vacant hc.operator hc.vacant), Function.update_self]

variable (rt) in
/-- The step takes the bond of `o`, one way or the other. -/
def Takes (x : Entry Moment Event) (o : Pubkey) (bond : UInt64) : Prop :=
  (∃ authority, Withdraws x o authority bond) ∨ ∃ k split, Slashes rt x o k bond split

lemma Takes.of_happens (h : Takes rt x o bond) (hbond : bond ≠ 0)
    (hstep : Happens rt x.event x.before x.after) :
    (∃ a, recordAt rt x.before.ledger o = some (.operator a) ∧ a.bond ≠ 0) ∧
      Bonded rt x.after o 0 := by
  rcases h with ⟨authority, h⟩ | ⟨k, split, h⟩
  · obtain ⟨⟨a, ha, hsame⟩, hafter⟩ := h.of_happens hstep
    exact ⟨⟨a, ha, by rwa [hsame]⟩, hafter⟩
  · exact h.of_happens hstep

lemma victimPayment_eq_zero (h : ∀ tx accounts i, x.event = .instruction tx accounts i →
    ¬ClaimsVictim accounts i k) : victimPayment k x = 0 := by
  unfold victimPayment
  split
  · next tx accounts wireBytes he =>
    rw [if_neg]
    intro hnamed
    exact h tx accounts _ he ⟨hnamed, wireBytes, rfl⟩
  · rfl

lemma victimPayment_le : victimPayment k x ≤ held x.before.ledger k - held x.after.ledger k := by
  unfold victimPayment
  split
  · split_ifs
    · exact le_rfl
    · exact Nat.zero_le _
  · exact Nat.zero_le _

lemma victimPayment_of_happens (hinv : InvOn rt backed x.before.ledger)
    (hstep : Happens rt x.event x.before x.after)
    (hk : recordAt rt x.before.ledger k = some (.conviction c)) :
    ∃ d, recordAt rt x.after.ledger k = some (.conviction d) ∧
      victimPayment k x + d.owedToVictim.toNat ≤ c.owedToVictim.toNat := by
  rcases hstep.conviction hinv hk with ⟨hsame, hother⟩ | ⟨claimant, convictionInfo, rfl, hpaid⟩
  · refine ⟨c, hsame, ?_⟩
    rw [victimPayment_eq_zero hother, Nat.zero_add]
  · refine ⟨{ c with owedToVictim := 0 }, by rw [hpaid.records, Function.update_self], ?_⟩
    have hle : victimPayment convictionInfo.key x ≤ _ := victimPayment_le
    have hsource := hpaid.paid.source_le
    dsimp only
    rw [UInt64.toNat_zero]
    omega

theorem victimPayments_le (h : Trace (Happens rt) m t n)
    (hinv : ∀ x ∈ t, InvOn rt backed x.before.ledger)
    (hk : recordAt rt m.ledger k = some (.conviction c)) :
    ∃ d, recordAt rt n.ledger k = some (.conviction d) ∧
      victimPayments k t + d.owedToVictim.toNat ≤ c.owedToVictim.toNat := by
  induction h with
  | nil => exact ⟨c, hk, by simp [victimPayments]⟩
  | @snoc t m n e _ hlast ih =>
    obtain ⟨d, hd, hle⟩ := ih fun x hx => hinv x (List.mem_append_left _ hx)
    obtain ⟨d', hd', hle'⟩ := victimPayment_of_happens (x := ⟨m, e, n⟩)
      (hinv ⟨m, e, n⟩ (by simp)) hlast hd
    refine ⟨d', hd', ?_⟩
    have hsum : victimPayments k (t ++ [⟨m, e, n⟩]) =
        victimPayments k t + victimPayment k ⟨m, e, n⟩ := by
      simp [victimPayments]
    omega

/-- The accounts of the instruction hold together what they held, and no other
account is touched. -/
def Conserves (x : Entry Moment Event) : Prop :=
  ∀ tx accounts i, x.event = .instruction tx accounts i →
    ∑ k ∈ involved accounts, held x.after.ledger k =
        ∑ k ∈ involved accounts, held x.before.ledger k ∧
      ∀ k, k ∉ involved accounts → held x.after.ledger k = held x.before.ledger k

lemma conserves (hstep : Happens rt x.event x.before x.after) : Conserves x := by
  intro tx accounts i he
  rw [he] at hstep
  have heffect := hstep.effect.2.2
  refine ⟨heffect.total_eq, ?_⟩
  intro k hk
  refine heffect.untouched fun info hinfo hsame => hk ?_
  rw [involved, List.mem_toFinset, hsame]
  exact List.mem_map_of_mem hinfo

lemma Bonded.unique {bond' : UInt64} (h : Bonded rt m o bond) (h' : Bonded rt m o bond') :
    bond = bond' := by
  obtain ⟨a, ha, rfl⟩ := h
  obtain ⟨b, hb, rfl⟩ := h'
  rw [operator_inj ha hb]

/-- From its registration on a bond stands in full, until one `WithdrawBond` pays
it out or one `ProveEquivocation` splits it up; after that there is none. -/
theorem fate_of_bond (hrun : Run rt (t₁ ++ x :: t₂) m) (hbacked : Backed rt (t₁ ++ x :: t₂) o)
    (hx : x.event.Registers o bond) :
    (∀ z ∈ t₁ ++ x :: t₂, Conserves z) ∧
    ∃ a, recordAt rt x.after.ledger o = some (.operator a) ∧ a.bond = bond ∧
      ((∀ z ∈ t₂, Bonded rt z.after o bond ∧ ¬Takes rt z o bond) ∨
        ∃ u y v index, t₂ = u ++ y :: v ∧
          (∀ z ∈ u, Bonded rt z.after o bond ∧ ¬Takes rt z o bond) ∧
          (Withdraws y o a.authority bond ∨
            ∃ k split, Slashes rt y o k bond split ∧ victimPayments k v ≤ split.victim.toNat) ∧
          Spent rt y.after o index ∧
          ∀ z ∈ v, Spent rt z.after o index ∧ ¬Takes rt z o bond) := by
  have hinv := hrun.invOn.2
  obtain ⟨start, hg, htrace⟩ := hrun
  refine ⟨fun z hz => conserves (htrace.entry hz), ?_⟩
  obtain ⟨_, hstep, hlater⟩ := htrace.cut
  obtain ⟨a, ha, hbond, hne, hself⟩ := hx.operator hstep
  refine ⟨a, ha, hbond, ?_⟩
  have hmem (z : Entry Moment Event) (hz : z ∈ t₂) : z ∈ t₁ ++ x :: t₂ := by simp [hz]
  -- A step after which the bond is there has not taken it.
  have hnotTaken (z : Entry Moment Event) (hz : z ∈ t₂) (hstands : Bonded rt z.after o bond) :
      ¬Takes rt z o bond := by
    intro htakes
    exact hne (hstands.unique (htakes.of_happens hne (hlater.entry hz)).2)
  have hexit := hlater.first_exit
    (P := fun s => ∃ b, recordAt rt s.ledger o = some (.operator b) ∧ b.bond = bond ∧
      b.authority = a.authority)
    (E := fun z => Bonded rt z.after o 0 ∧
      (Withdraws z o a.authority bond ∨ ∃ k split, Slashes rt z o k bond split))
    ⟨a, ha, hbond, rfl⟩ ?_
  · rcases hexit with ⟨_, hall⟩ | ⟨u, y, v, rfl, hall, _, ⟨b, hb, hzero⟩, htaken⟩
    · refine .inl fun z hz => ?_
      obtain ⟨b, hb, hsame, _⟩ := hall z hz
      exact ⟨⟨b, hb, hsame⟩, hnotTaken z hz ⟨b, hb, hsame⟩⟩
    · obtain ⟨_, _, hrest⟩ := hlater.cut
      have hspent := hrest.invariant_all (I := fun s => Spent rt s o b.rewardIndex)
        ⟨b, hb, hzero, rfl⟩ fun z hz hhappens hbefore =>
          hbefore.happens (hinv z (hmem z (by simp [hz]))).1 hbacked hhappens
      refine .inr ⟨u, y, v, b.rewardIndex, rfl, ?_, ?_, ⟨b, hb, hzero, rfl⟩, ?_⟩
      · intro z hz
        obtain ⟨b', hb', hsame, _⟩ := hall z hz
        exact ⟨⟨b', hb', hsame⟩, hnotTaken z (by simp [hz]) ⟨b', hb', hsame⟩⟩
      · rcases htaken with hwithdraws | ⟨k, split, hslashes⟩
        · exact .inl hwithdraws
        · refine .inr ⟨k, split, hslashes, ?_⟩
          obtain ⟨_, c, hc, _, _, howed⟩ := hslashes.opened
          obtain ⟨d, _, hle⟩ := victimPayments_le hrest
            (fun z hz => (hinv z (hmem z (by simp [hz]))).1) hc
          rw [howed] at hle
          omega
      · intro z hz
        refine ⟨(hspent.2 z hz).2, ?_⟩
        intro htakes
        obtain ⟨b', hb', hzero', _⟩ := (hspent.2 z hz).1
        obtain ⟨⟨c, hc, hnonzero⟩, _⟩ := htakes.of_happens hne (hrest.entry hz)
        exact hnonzero (operator_inj hb' hc ▸ hzero')
  · intro z hz hhappens hbefore
    obtain ⟨b, hb, hsame, hauthority⟩ := hbefore
    obtain ⟨b', hb', hauthority', hcases⟩ := taken_of_happens (hinv z (hmem z hz)).1 hbacked hhappens
      hb (by rwa [hauthority])
    rcases hcases with hstands | ⟨hzero, htaken⟩
    · exact .inl ⟨b', hb', hstands.trans hsame, hauthority'.trans hauthority⟩
    · refine .inr ⟨⟨b', hb', hzero⟩, ?_⟩
      rwa [hauthority, hsame] at htaken

end Fate

theorem fate_of_bond_recorded :
    ∃ u y v index, [Vectors.stakeEntry, Vectors.convictEntry] = u ++ y :: v ∧
      (∀ z ∈ u, Bonded Vectors.runtime z.after Vectors.operator 10000000000) ∧
      (Withdraws y Vectors.operator Vectors.authority 10000000000 ∨
        ∃ k split, Slashes Vectors.runtime y Vectors.operator k 10000000000 split ∧
          victimPayments k v ≤ split.victim.toNat) ∧
      Spent Vectors.runtime y.after Vectors.operator index := by
  have hrun : Run Vectors.runtime ([] ++ Vectors.registerEntry ::
      [Vectors.stakeEntry, Vectors.convictEntry]) ⟨6150410, Vectors.convicted⟩ :=
    ⟨_, Vectors.genesis_genesis, Vectors.trace_convicted⟩
  obtain ⟨_, a, ha, _, hfate⟩ :=
    fate_of_bond (o := Vectors.operator) hrun (Vectors.backed_convicted _) ⟨rfl, _, rfl⟩
  have hauthority : a.authority = Vectors.authority := by
    dsimp only [Vectors.registerEntry] at ha
    rw [← operator_inj Vectors.recordAt_registered ha]
    rfl
  rcases hfate with hstands | ⟨u, y, v, index, ht, hu, htaken, hspent, _⟩
  · obtain ⟨⟨b, hb, hbond⟩, _⟩ := hstands Vectors.convictEntry (by simp)
    dsimp only [Vectors.convictEntry] at hb
    rw [← operator_inj Vectors.recordAt_convicted hb] at hbond
    exact absurd hbond (by decide)
  · rw [hauthority] at htaken
    exact ⟨u, y, v, index, ht, fun z hz => (hu z hz).1, htaken, hspent⟩

end Blitz.Program
