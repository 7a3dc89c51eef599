import Blitz.WatchtowerWithholding

/-! The ring of block hashes over any sequence of records: a queue of the hashes that
entered it last, and beside it the slot each of them was recorded with most recently. -/
namespace Blitz.Watchtower.BlockhashSlots
open LittleEndian Receipts LatestIndex

section Suffix
variable {α : Type*}

lemma rtake_rtake (l : List α) (m n : ℕ) : (l.rtake m).rtake n = l.rtake (min n m) := by
  simp [List.rtake_eq_reverse_take_reverse, List.take_take]

lemma rtake_window (l : List α) (a : α) (n : ℕ) :
    (l.rtake (n + 1) ++ [a]).rtake (n + 1) = (l ++ [a]).rtake (n + 1) := by
  rw [List.rtake_concat_succ, List.rtake_concat_succ, rtake_rtake, Nat.min_eq_left (Nat.le_succ n)]

lemma length_rtake_le (l : List α) (n : ℕ) : (l.rtake n).length ≤ n := by
  simp [List.rtake_eq_reverse_take_reverse]

lemma rtake_append_of_le {l l' : List α} {n : ℕ} (h : n ≤ l'.length) :
    (l ++ l').rtake n = l'.rtake n := by
  simp [List.rtake_eq_reverse_take_reverse, List.take_append_of_le_length, h]

lemma mem_rtake_of_lt {l l' : List α} {a : α} {n : ℕ} (h : l'.length < n) :
    a ∈ (l ++ a :: l').rtake n := by
  rw [List.rtake_eq_reverse_take_reverse, List.mem_reverse, List.reverse_append, List.reverse_cons,
    List.append_assoc, List.take_append, List.mem_append, List.length_reverse]
  right
  obtain ⟨k, hk⟩ : ∃ k, n - l'.length = k + 1 := ⟨n - l'.length - 1, by omega⟩
  simp [hk]

end Suffix

def recordAll (known : BlockhashSlots) (records : List (Bytes 32 × UInt64)) : BlockhashSlots :=
  records.foldl (fun known entry => known.record entry.1 entry.2) known

/-- The hashes that newly enter the ring while these are recorded, in order. -/
def newcomers : BlockhashSlots → List (Bytes 32 × UInt64) → List (Bytes 32)
  | _, [] => []
  | known, entry :: records =>
    let rest := newcomers (known.record entry.1 entry.2) records
    if (known.slotOf entry.1).isSome then rest else entry.1 :: rest

/-- The slot of the last record of a hash. -/
def lastRecorded (records : List (Bytes 32 × UInt64)) (blockhash : Bytes 32) : Option UInt64 :=
  (latest (fun _ => True) Prod.fst records blockhash).map Prod.snd

section Records
variable {known : BlockhashSlots} {records before after : List (Bytes 32 × UInt64)}
  {blockhash : Bytes 32} {slot : UInt64}

@[simp]
lemma recordAll_singleton (known : BlockhashSlots) (entry : Bytes 32 × UInt64) :
    known.recordAll [entry] = known.record entry.1 entry.2 := rfl

lemma recordAll_append (known : BlockhashSlots) (before after : List (Bytes 32 × UInt64)) :
    known.recordAll (before ++ after) = (known.recordAll before).recordAll after :=
  List.foldl_append

lemma newcomers_append (known : BlockhashSlots) (before after : List (Bytes 32 × UInt64)) :
    known.newcomers (before ++ after) =
      known.newcomers before ++ (known.recordAll before).newcomers after := by
  induction before generalizing known with
  | nil => rfl
  | cons entry before ih =>
    simp only [List.cons_append, newcomers, ih]
    split_ifs <;> rfl

lemma exists_moment {n : ℕ} (h : n ≤ (known.newcomers records).length) :
    ∃ before after, records = before ++ after ∧ (known.newcomers before).length = n := by
  induction records generalizing known n with
  | nil => exact ⟨[], [], rfl, (Nat.le_zero.mp h).symm⟩
  | cons entry records ih =>
    cases n with
    | zero => exact ⟨[], entry :: records, rfl, rfl⟩
    | succ n =>
      simp only [newcomers] at h
      split_ifs at h with hknown
      · obtain ⟨before, after, rfl, hlength⟩ := ih h
        exact ⟨entry :: before, after, rfl, by simpa [newcomers, hknown] using hlength⟩
      · obtain ⟨before, after, rfl, hlength⟩ := ih (Nat.le_of_succ_le_succ h)
        exact ⟨entry :: before, after, rfl, by simpa [newcomers, hknown] using hlength⟩

lemma exists_entry (h : blockhash ∈ known.newcomers records) :
    ∃ before slot after, records = before ++ (blockhash, slot) :: after ∧
      (known.recordAll before).slotOf blockhash = none := by
  induction records generalizing known with
  | nil => simp [newcomers] at h
  | cons entry records ih =>
    have hlater (h : blockhash ∈ (known.record entry.1 entry.2).newcomers records) :
        ∃ before slot after, entry :: records = before ++ (blockhash, slot) :: after ∧
          (known.recordAll before).slotOf blockhash = none := by
      obtain ⟨before, slot, after, rfl, hnew⟩ := ih h
      exact ⟨entry :: before, slot, after, rfl, hnew⟩
    simp only [newcomers] at h
    split_ifs at h with hknown
    · exact hlater h
    · rcases List.mem_cons.mp h with rfl | h
      · exact ⟨[], entry.2, records, rfl, Option.not_isSome_iff_eq_none.mp hknown⟩
      · exact hlater h

lemma evict_eq (capacity : ℕ) (order : List (Bytes 32)) (slots : Bytes 32 → Option UInt64) :
    evict capacity order slots =
      ⟨fun h => if h ∈ order.rdrop capacity then none else slots h, order.rtake capacity,
        capacity⟩ := by
  induction order generalizing slots with
  | nil => simp [evict]
  | cons oldest rest ih =>
    rw [evict]
    split_ifs with hlong
    · rw [List.length_cons] at hlong
      have hlength : (oldest :: rest).length - capacity = rest.length - capacity + 1 := by
        rw [List.length_cons]
        omega
      rw [ih, List.rtake, List.rtake, List.rdrop, List.rdrop, hlength, List.take_succ_cons,
        List.drop_succ_cons]
      congr 1
      funext h
      by_cases ho : h = oldest
      · simp [ho]
      · simp [ho, Function.update_of_ne]
    · have hfits : (oldest :: rest).length - capacity = 0 := by omega
      rw [List.rtake, List.rdrop, hfits]
      simp

/-- What the ring is after `records`, of which `entered` were newcomers. -/
structure Remembers (capacity : ℕ) (records : List (Bytes 32 × UInt64)) (entered : List (Bytes 32))
    (known : BlockhashSlots) : Prop where
  bound : known.capacity = max capacity 1
  queue : known.order = entered.rtake (max capacity 1)
  nodup : known.order.Nodup
  keys : ∀ h, h ∈ known.order ↔ (known.slotOf h).isSome
  slot : ∀ h s, known.slotOf h = some s → lastRecorded records h = some s

lemma lastRecorded_concat_self : lastRecorded (records ++ [(blockhash, slot)]) blockhash = some slot := by
  rw [lastRecorded, latest_concat_of_pos trivial rfl]
  rfl

lemma lastRecorded_concat_of_ne {h : Bytes 32} (hne : h ≠ blockhash) :
    lastRecorded (records ++ [(blockhash, slot)]) h = lastRecorded records h := by
  rw [lastRecorded, latest_concat_of_neg fun _ he => hne he.symm]
  rfl

variable {capacity : ℕ} {entered : List (Bytes 32)}

lemma remembers_new (capacity : ℕ) : Remembers capacity [] [] (new capacity) := by
  constructor <;> simp [new, slotOf]

lemma Remembers.slot_update (h : Remembers capacity records entered known) {other : Bytes 32}
    {s : UInt64} (hs : Function.update known.slots blockhash (some slot) other = some s) :
    lastRecorded (records ++ [(blockhash, slot)]) other = some s := by
  by_cases ho : other = blockhash
  · subst ho
    rw [Function.update_self] at hs
    rw [lastRecorded_concat_self, ← hs]
  · rw [Function.update_of_ne ho] at hs
    rw [lastRecorded_concat_of_ne ho, h.slot other s hs]

lemma Remembers.renew (h : Remembers capacity records entered known) (slot : UInt64)
    (hknown : (known.slotOf blockhash).isSome) :
    Remembers capacity (records ++ [(blockhash, slot)]) entered (known.record blockhash slot) := by
  have hrecord : known.record blockhash slot =
      { known with slots := Function.update known.slots blockhash (some slot) } := if_pos hknown
  rw [hrecord]
  refine ⟨h.bound, h.queue, h.nodup, ?_, fun _ _ hs => h.slot_update hs⟩
  intro other
  by_cases ho : other = blockhash
  · subst ho
    simpa [slotOf] using (h.keys other).mpr hknown
  · simpa [slotOf, Function.update_of_ne ho] using h.keys other

lemma Remembers.enter (h : Remembers capacity records entered known) (slot : UInt64)
    (hnew : known.slotOf blockhash = none) :
    Remembers capacity (records ++ [(blockhash, slot)]) (entered ++ [blockhash])
      (known.record blockhash slot) := by
  have hrecord : known.record blockhash slot = evict known.capacity (known.order ++ [blockhash])
      (Function.update known.slots blockhash (some slot)) := if_neg (by simpa [slotOf] using hnew)
  have hfresh : blockhash ∉ known.order := by
    rw [h.keys, hnew]
    simp
  have hnodup : (known.order ++ [blockhash]).Nodup :=
    h.nodup.append (List.nodup_singleton _) (by simpa using hfresh)
  have hqueue : (known.order ++ [blockhash]).rtake known.capacity =
      (entered ++ [blockhash]).rtake (max capacity 1) := by
    obtain ⟨n, hn⟩ : ∃ n, max capacity 1 = n + 1 := ⟨max capacity 1 - 1, by omega⟩
    rw [h.bound, h.queue, hn, rtake_window]
  -- Dropped and kept hashes are different, since none is in the queue twice.
  have hsplit : (known.order ++ [blockhash]).rdrop known.capacity ++
      (known.order ++ [blockhash]).rtake known.capacity = known.order ++ [blockhash] :=
    List.take_append_drop _ _
  have hdisjoint : List.Disjoint ((known.order ++ [blockhash]).rdrop known.capacity)
      ((known.order ++ [blockhash]).rtake known.capacity) := by
    rw [← hsplit] at hnodup
    exact List.disjoint_of_nodup_append hnodup
  have hmem (other : Bytes 32) : other ∈ known.order ++ [blockhash] ↔
      (Function.update known.slots blockhash (some slot) other).isSome := by
    by_cases ho : other = blockhash
    · simp [ho]
    · have hkeys := h.keys other
      simpa [ho, slotOf] using hkeys
  rw [hrecord, evict_eq]
  refine ⟨h.bound, hqueue, ?_, ?_, ?_⟩
  · exact hnodup.sublist (List.drop_sublist _ _)
  · intro other
    dsimp only [slotOf]
    split_ifs with hgone
    · simpa using hdisjoint hgone
    · rw [← hmem, ← List.mem_append.trans (or_iff_right hgone), hsplit]
  · intro other s hs
    dsimp only [slotOf] at hs
    split_ifs at hs
    exact h.slot_update hs

theorem remembers_recordAll (capacity : ℕ) (records : List (Bytes 32 × UInt64)) :
    Remembers capacity records ((new capacity).newcomers records)
      ((new capacity).recordAll records) := by
  induction records using List.reverseRecOn with
  | nil => exact remembers_new capacity
  | append_singleton records entry ih =>
    rw [newcomers_append, recordAll_append]
    cases hknown : ((new capacity).recordAll records).slotOf entry.1 with
    | none => simpa [newcomers, hknown] using ih.enter entry.2 hknown
    | some s =>
      have hsome : (((new capacity).recordAll records).slotOf entry.1).isSome := by simp [hknown]
      simpa [newcomers, hknown] using ih.renew entry.2 hsome

end Records

section Entry
variable {capacity : ℕ} {before after : List (Bytes 32 × UInt64)} {blockhash : Bytes 32}
  {slot : UInt64}

/-- The hashes that newly entered the ring since this one was recorded. -/
def enteredAfter (capacity : ℕ) (before : List (Bytes 32 × UInt64)) (blockhash : Bytes 32)
    (slot : UInt64) (after : List (Bytes 32 × UInt64)) : List (Bytes 32) :=
  ((new capacity).recordAll (before ++ [(blockhash, slot)])).newcomers after

lemma newcomers_of_entry (hentry : ((new capacity).recordAll before).slotOf blockhash = none) :
    (new capacity).newcomers (before ++ (blockhash, slot) :: after) =
      (new capacity).newcomers before ++
        blockhash :: enteredAfter capacity before blockhash slot after := by
  rw [newcomers_append, enteredAfter, recordAll_append]
  simp [newcomers, hentry]

lemma known_of_few (hentry : ((new capacity).recordAll before).slotOf blockhash = none)
    (hfew : (enteredAfter capacity before blockhash slot after).length < max capacity 1) :
    (((new capacity).recordAll (before ++ (blockhash, slot) :: after)).slotOf blockhash).isSome := by
  have hring := remembers_recordAll capacity (before ++ (blockhash, slot) :: after)
  rw [← hring.keys, hring.queue, newcomers_of_entry hentry]
  exact mem_rtake_of_lt hfew

lemma not_mem_of_full (hentry : ((new capacity).recordAll before).slotOf blockhash = none)
    (hfull : (enteredAfter capacity before blockhash slot after).length = max capacity 1) :
    blockhash ∉ enteredAfter capacity before blockhash slot after := by
  -- It is not among those who fill the ring after it: it would have been known.
  intro hagain
  obtain ⟨first, slot', rest, rfl, hnew⟩ := exists_entry hagain
  have hfew : (enteredAfter capacity before blockhash slot first).length < max capacity 1 := by
    rw [← hfull, enteredAfter, enteredAfter, newcomers_append]
    simp [newcomers, hnew]
  have hknown := known_of_few hentry hfew
  rw [List.append_cons, recordAll_append, hnew] at hknown
  cases hknown

lemma card_of_full (hentry : ((new capacity).recordAll before).slotOf blockhash = none)
    (hmany : max capacity 1 ≤ (enteredAfter capacity before blockhash slot after).length) :
    max capacity 1 ≤
      ((enteredAfter capacity before blockhash slot after).toFinset.erase blockhash).card := by
  obtain ⟨first, rest, rfl, hlength⟩ := exists_moment hmany
  have hfull : (enteredAfter capacity before blockhash slot first).length = max capacity 1 := hlength
  have hnodup : (enteredAfter capacity before blockhash slot first).Nodup := by
    have hring := remembers_recordAll capacity (before ++ (blockhash, slot) :: first)
    have hqueue : ((new capacity).recordAll (before ++ (blockhash, slot) :: first)).order =
        enteredAfter capacity before blockhash slot first := by
      rw [hring.queue, newcomers_of_entry hentry, List.append_cons _ blockhash,
        rtake_append_of_le hfull.ge, List.rtake, hfull, Nat.sub_self, List.drop_zero]
    rw [← hqueue]
    exact hring.nodup
  rw [← hfull, ← List.toFinset_card_of_nodup hnodup]
  apply Finset.card_le_card
  intro other hother
  have hmem : other ∈ enteredAfter capacity before blockhash slot first := List.mem_toFinset.mp hother
  have hne : other ≠ blockhash := by
    rintro rfl
    exact not_mem_of_full hentry hfull hmem
  have hlater : other ∈ enteredAfter capacity before blockhash slot (first ++ rest) := by
    rw [enteredAfter, newcomers_append]
    exact List.mem_append_left _ hmem
  exact Finset.mem_erase.mpr ⟨hne, List.mem_toFinset.mpr hlater⟩

lemma forgotten_of_full (hentry : ((new capacity).recordAll before).slotOf blockhash = none)
    (hmany : max capacity 1 ≤ (enteredAfter capacity before blockhash slot after).length)
    (hgone : blockhash ∉ enteredAfter capacity before blockhash slot after) :
    ((new capacity).recordAll (before ++ (blockhash, slot) :: after)).slotOf blockhash = none := by
  have hring := remembers_recordAll capacity (before ++ (blockhash, slot) :: after)
  rw [← Option.not_isSome_iff_eq_none, ← hring.keys, hring.queue, newcomers_of_entry hentry,
    List.append_cons, rtake_append_of_le hmany]
  exact fun hmem => hgone (List.mem_of_mem_drop hmem)

end Entry

/-- After any records the queue has no hash twice, holds the keys of the map and fits the
ring, and what the map says of a hash is what it was recorded with last; a hash is known
until as many others have newly entered after it as there are places, and then it is not,
short of entering again. -/
theorem ring_remembers_latest (capacity : ℕ) (records : List (Bytes 32 × UInt64)) :
    ((new capacity).recordAll records).order.Nodup ∧
      (∀ h, h ∈ ((new capacity).recordAll records).order ↔
        ((new capacity).recordAll records).slotOf h ≠ none) ∧
      ((new capacity).recordAll records).order.length ≤ max capacity 1 ∧
      (∀ h s, ((new capacity).recordAll records).slotOf h = some s →
        lastRecorded records h = some s) ∧
      ∀ before h s after, records = before ++ (h, s) :: after →
        ((new capacity).recordAll before).slotOf h = none →
        (((enteredAfter capacity before h s after).toFinset.erase h).card < max capacity 1 →
          ((new capacity).recordAll records).slotOf h ≠ none) ∧
        (max capacity 1 ≤ ((enteredAfter capacity before h s after).toFinset.erase h).card →
          h ∉ enteredAfter capacity before h s after →
          ((new capacity).recordAll records).slotOf h = none) := by
  have hring := remembers_recordAll capacity records
  refine ⟨hring.nodup, ?_, ?_, hring.slot, ?_⟩
  · intro h
    rw [hring.keys, Option.isSome_iff_ne_none]
  · rw [hring.queue]
    exact length_rtake_le _ _
  · rintro before h s after rfl hentry
    constructor
    · intro hfew
      rw [← Option.isSome_iff_ne_none]
      apply known_of_few hentry
      by_contra hmany
      exact absurd (card_of_full hentry (not_lt.mp hmany)) (not_le.mpr hfew)
    · intro hmany hgone
      refine forgotten_of_full hentry (hmany.trans ?_) hgone
      exact (Finset.card_erase_le).trans (List.toFinset_card_le _)

theorem ring_remembers_latest_two_hashes :
    ((new 2).recordAll [(Bytes.fill 32 1, 7), (Bytes.fill 32 2, 8)]).slotOf (Bytes.fill 32 1) ≠ none ∧
      ((new 1).recordAll [(Bytes.fill 32 1, 7), (Bytes.fill 32 2, 8)]).slotOf (Bytes.fill 32 1) =
        none ∧
      lastRecorded [(Bytes.fill 32 1, 7), (Bytes.fill 32 2, 8)] (Bytes.fill 32 2) = some 8 := by
  obtain ⟨_, _, _, hslot, hwide⟩ :=
    ring_remembers_latest 2 [(Bytes.fill 32 1, 7), (Bytes.fill 32 2, 8)]
  obtain ⟨_, _, _, _, hnarrow⟩ :=
    ring_remembers_latest 1 [(Bytes.fill 32 1, 7), (Bytes.fill 32 2, 8)]
  refine ⟨?_, ?_, hslot _ _ (by decide)⟩
  · exact (hwide [] _ _ _ rfl rfl).1 (by decide)
  · exact (hnarrow [] _ _ _ rfl rfl).2 (by decide) (by decide)

end Blitz.Watchtower.BlockhashSlots
