import Blitz.ProgramProcessor

/-! The ledger as the program understands it: which record, if any, each account
holds, and what storing, creating and moving do to records and balances. -/
namespace Blitz.Program
open ByteLayout LittleEndian CheckedArith

inductive Record
  | operator (a : OperatorAccount)
  | position (p : PositionAccount)
  | conviction (c : ConvictionAccount)

def Record.write : Record → List UInt8 → Except SlashError (List UInt8)
  | .operator a => a.write
  | .position p => p.write
  | .conviction c => c.write

/-- The record in an account's bytes; the tags keep the three kinds apart. -/
def decode (data : List UInt8) : Option Record :=
  match OperatorAccount.read data with
  | .ok a => some (.operator a)
  | .error _ => match PositionAccount.read data with
    | .ok p => some (.position p)
    | .error _ => match ConvictionAccount.read data with
      | .ok c => some (.conviction c)
      | .error _ => none

section Decode
variable {data : List UInt8}

lemma decode_operator {a : OperatorAccount} :
    decode data = some (.operator a) ↔ OperatorAccount.read data = .ok a := by
  unfold decode
  cases OperatorAccount.read data with
  | ok a' => simp
  | error e =>
    cases PositionAccount.read data with
    | ok p => simp
    | error e => cases ConvictionAccount.read data <;> simp

lemma decode_position {p : PositionAccount} :
    decode data = some (.position p) ↔ PositionAccount.read data = .ok p := by
  unfold decode
  cases ho : OperatorAccount.read data with
  | ok a =>
    simp only [Option.some.injEq, reduceCtorEq, false_iff]
    intro hp
    have := (operator_tag ho).symm.trans (position_tag hp)
    simp [operatorTag, positionTag] at this
  | error e =>
    cases PositionAccount.read data with
    | ok p' => simp
    | error e => cases ConvictionAccount.read data <;> simp

lemma decode_conviction {c : ConvictionAccount} :
    decode data = some (.conviction c) ↔ ConvictionAccount.read data = .ok c := by
  unfold decode
  cases ho : OperatorAccount.read data with
  | ok a =>
    simp only [Option.some.injEq, reduceCtorEq, false_iff]
    intro hc
    have := (operator_tag ho).symm.trans (conviction_tag hc)
    simp [operatorTag, convictionTag] at this
  | error e =>
    cases hp : PositionAccount.read data with
    | ok p =>
      simp only [Option.some.injEq, reduceCtorEq, false_iff]
      intro hc
      have := (position_tag hp).symm.trans (conviction_tag hc)
      simp [positionTag, convictionTag] at this
    | error e => cases ConvictionAccount.read data <;> simp

lemma decode_blank (n : ℕ) : decode (List.replicate n 0) = none := by
  have hblank : (List.replicate n (0 : UInt8)).getD 0 0 = 0 := by
    cases n <;> simp [List.replicate_succ]
  cases hd : decode (List.replicate n 0) with
  | none => rfl
  | some r =>
    cases r with
    | operator a =>
      have := hblank.symm.trans (operator_tag (decode_operator.mp hd))
      simp [operatorTag] at this
    | position p =>
      have := hblank.symm.trans (position_tag (decode_position.mp hd))
      simp [positionTag] at this
    | conviction c =>
      have := hblank.symm.trans (conviction_tag (decode_conviction.mp hd))
      simp [convictionTag] at this

lemma decode_write {r : Record} {into out : List UInt8} (h : r.write into = .ok out) :
    decode out = some r := by
  cases r with
  | operator a => exact decode_operator.mpr (OperatorAccount.read_write h).1
  | position p => exact decode_position.mpr (PositionAccount.read_write h).1
  | conviction c => exact decode_conviction.mpr (ConvictionAccount.read_write h).1

end Decode

section Records
variable (rt : Runtime)

def recordAt (l : Ledger) (key : Pubkey) : Option Record :=
  if (l key).owner = rt.programId then decode (l key).data else none

variable {rt} {l l' : Ledger} {key : Pubkey}

lemma recordAt_congr (ho : (l' key).owner = (l key).owner) (hd : (l' key).data = (l key).data) :
    recordAt rt l' key = recordAt rt l key := by
  simp only [recordAt, ho, hd]

lemma recordAt_operator {a : OperatorAccount} :
    recordAt rt l key = some (.operator a) ↔
      (l key).owner = rt.programId ∧ OperatorAccount.read (l key).data = .ok a := by
  unfold recordAt
  split_ifs with h
  · simp [h, decode_operator]
  · simp [h]

lemma recordAt_position {p : PositionAccount} :
    recordAt rt l key = some (.position p) ↔
      (l key).owner = rt.programId ∧ PositionAccount.read (l key).data = .ok p := by
  unfold recordAt
  split_ifs with h
  · simp [h, decode_position]
  · simp [h]

lemma recordAt_conviction {c : ConvictionAccount} :
    recordAt rt l key = some (.conviction c) ↔
      (l key).owner = rt.programId ∧ ConvictionAccount.read (l key).data = .ok c := by
  unfold recordAt
  split_ifs with h
  · simp [h, decode_conviction]
  · simp [h]

lemma recordAt_of_owner_ne (h : (l key).owner ≠ rt.programId) : recordAt rt l key = none :=
  if_neg h

lemma owner_of_recordAt {r : Record} (h : recordAt rt l key = some r) :
    (l key).owner = rt.programId := by
  by_contra hne
  rw [recordAt_of_owner_ne hne] at h
  cases h

variable (rt) in
/-- No record changes, and no account that holds one loses lamports. -/
structure Quiet (l l' : Ledger) : Prop where
  records : recordAt rt l' = recordAt rt l
  lamports : ∀ k, recordAt rt l k ≠ none → (l k).lamports.toNat ≤ (l' k).lamports.toNat
  supply : l'.supply = l.supply

variable (rt) in
/-- One account's record is replaced; balances stay as they are. -/
structure Stored (l : Ledger) (key : Pubkey) (r : Record) (l' : Ledger) : Prop where
  records : recordAt rt l' = Function.update (recordAt rt l) key (some r)
  lamports : ∀ k, (l' k).lamports = (l k).lamports
  owner : ∀ k, (l' k).owner = (l k).owner
  supply : l'.supply = l.supply

theorem stored_of_store {r : Record} (h : store l key r.write = .ok l')
    (howner : (l key).owner = rt.programId) : Stored rt l key r l' := by
  simp only [store, bind_eq_ok, slash_eq_ok, Except.ok.injEq] at h
  obtain ⟨data, hw, rfl⟩ := h
  refine ⟨?_, by simp, by simp, by simp⟩
  funext k
  by_cases hk : k = key
  · subst hk
    simp [recordAt, howner, decode_write hw]
  · rw [Function.update_of_ne hk]
    exact recordAt_congr (by simp) (by rw [Ledger.setData_of_ne _ hk])

lemma not_system_of_record {r : Record} (h : recordAt rt l key = some r) :
    (l key).owner ≠ rt.systemProgram := by
  rw [owner_of_recordAt h]
  exact rt.deployed

theorem quiet_of_created {payer destination : Pubkey} {lamports : UInt64} {space : ℕ}
    (h : Created rt.systemProgram l payer destination lamports space rt.programId l') :
    Quiet rt l l' := by
  refine ⟨?_, ?_, h.supply_eq⟩
  · funext k
    by_cases hk : k = destination
    · subst hk
      rw [recordAt, h.destination_eq, if_pos rfl, decode_blank, recordAt_of_owner_ne]
      rw [h.unused.1]
      exact Ne.symm rt.deployed
    · exact recordAt_congr (h.of_ne hk).1 (h.of_ne hk).2.1
  · intro k hk
    obtain ⟨r, hr⟩ := Option.ne_none_iff_exists'.mp hk
    have hsys := not_system_of_record hr
    have hd : k ≠ destination := by
      rintro rfl
      exact hsys h.unused.1
    have hp : k ≠ payer := by
      rintro rfl
      exact hsys h.payer_system
    rw [(h.of_ne hd).2.2 hp]

lemma recordAt_of_moved {source destination : Pubkey} {amount : UInt64}
    (h : Ledger.Moved l source destination amount l') : recordAt rt l' = recordAt rt l :=
  funext fun k => recordAt_congr (h.owner k) (h.data k)

lemma lamports_le_of_moved {source destination : Pubkey} {amount : UInt64}
    (h : Ledger.Moved l source destination amount l') {k : Pubkey} (hk : k ≠ source) :
    (l k).lamports.toNat ≤ (l' k).lamports.toNat := by
  by_cases hs : source = destination
  · rw [h.self hs k]
  · by_cases hd : k = destination
    · subst hd
      have := h.credit hs
      omega
    · rw [h.frame k hk hd]

theorem quiet_of_transfer {payer destination : Pubkey} {amount : UInt64}
    (howner : (l payer).owner = rt.systemProgram) (h : l.move payer destination amount = some l') :
    Quiet rt l l' := by
  have hm := Ledger.moved_of_move h
  refine ⟨recordAt_of_moved hm, ?_, Ledger.supply_move h⟩
  intro k hk
  obtain ⟨r, hr⟩ := Option.ne_none_iff_exists'.mp hk
  refine lamports_le_of_moved hm ?_
  rintro rfl
  exact not_system_of_record hr howner

end Records

end Blitz.Program
