import Mathlib

/-! Cutting a sorted list into maximal runs of equal keys, over arbitrary
element types. The first elements of the runs have strictly rising keys. -/
namespace Blitz.SortedGroups

variable {α β : Type*}

section Runs
variable [DecidableEq β] (key : α → β)

/-- Maximal runs of neighbours that share a key. -/
def runs : List α → List (List α)
  | [] => []
  | a :: l =>
      (a :: l.takeWhile (fun x => key x = key a)) :: runs (l.dropWhile (fun x => key x = key a))
  termination_by l => l.length
  decreasing_by
    have := (List.dropWhile_sublist (fun x => decide (key x = key a)) (l := l)).length_le
    simp only [List.length_cons]
    omega

def heads (l : List α) : List α := (runs key l).filterMap List.head?

variable {key}

lemma runs_nil : runs key ([] : List α) = [] := by simp [runs]

lemma runs_cons (a : α) (l : List α) :
    runs key (a :: l) =
      (a :: l.takeWhile (fun x => key x = key a)) :: runs key (l.dropWhile (fun x => key x = key a)) := by
  rw [runs]

lemma heads_cons (a : α) (l : List α) :
    heads key (a :: l) = a :: heads key (l.dropWhile (fun x => key x = key a)) := by
  simp [heads, runs_cons]

lemma mem_runs {l g : List α} (hg : g ∈ runs key l) :
    ∃ a t, g = a :: t ∧ (∀ x ∈ t, key x = key a) ∧ ∀ x ∈ g, x ∈ l := by
  induction l using runs.induct key with
  | case1 => simp [runs_nil] at hg
  | case2 a l ih =>
    rw [runs_cons] at hg
    rcases List.mem_cons.mp hg with rfl | hg
    · refine ⟨a, _, rfl, ?_, ?_⟩
      · intro x hx
        simpa using List.mem_takeWhile_imp hx
      · intro x hx
        rcases List.mem_cons.mp hx with rfl | hx
        · simp
        · exact List.mem_cons_of_mem _ ((List.takeWhile_sublist _).subset hx)
    · obtain ⟨b, t, rfl, ht, hm⟩ := ih hg
      refine ⟨b, t, rfl, ht, ?_⟩
      intro x hx
      exact List.mem_cons_of_mem _ ((List.dropWhile_sublist _).subset (hm x hx))

lemma mem_of_mem_heads {l : List α} {a : α} (h : a ∈ heads key l) : a ∈ l := by
  obtain ⟨g, hg, ha⟩ := List.mem_filterMap.mp h
  obtain ⟨b, t, rfl, _, hm⟩ := mem_runs hg
  simp only [List.head?_cons, Option.some.injEq] at ha
  exact hm a (by simp [ha])

lemma exists_run_mem {l : List α} {x : α} (hx : x ∈ l) : ∃ g ∈ runs key l, x ∈ g := by
  induction l using runs.induct key with
  | case1 => simp at hx
  | case2 a l ih =>
    rw [runs_cons]
    rcases List.mem_cons.mp hx with rfl | hxl
    · exact ⟨_, List.mem_cons_self, List.mem_cons_self⟩
    · rw [← List.takeWhile_append_dropWhile (p := fun y => decide (key y = key a)) (l := l)] at hxl
      rcases List.mem_append.mp hxl with ht | hd
      · exact ⟨_, List.mem_cons_self, List.mem_cons_of_mem _ ht⟩
      · obtain ⟨g, hg, hxg⟩ := ih hd
        exact ⟨g, List.mem_cons_of_mem _ hg, hxg⟩

lemma exists_head_key {l : List α} {x : α} (hx : x ∈ l) : ∃ a ∈ heads key l, key a = key x := by
  induction l using runs.induct key with
  | case1 => simp at hx
  | case2 a l ih =>
    rw [heads_cons]
    by_cases hk : key x = key a
    · exact ⟨a, by simp, hk.symm⟩
    · have hxl : x ∈ l := by
        rcases List.mem_cons.mp hx with rfl | hxl
        · exact absurd rfl hk
        · exact hxl
      have hd : x ∈ l.dropWhile (fun y => key y = key a) := by
        rw [← List.takeWhile_append_dropWhile (p := fun y => decide (key y = key a)) (l := l)] at hxl
        rcases List.mem_append.mp hxl with ht | hd
        · exact absurd (by simpa using List.mem_takeWhile_imp ht) hk
        · exact hd
      obtain ⟨b, hb, hbk⟩ := ih hd
      exact ⟨b, List.mem_cons_of_mem _ hb, hbk⟩

end Runs

section Order
variable [LinearOrder β] {key : α → β}

lemma lt_of_mem_dropWhile {a : α} {l : List α} (hs : (a :: l).Pairwise fun x y => key x ≤ key y)
    {x : α} (hx : x ∈ l.dropWhile fun y => key y = key a) : key a < key x := by
  obtain ⟨ha, hl⟩ := List.pairwise_cons.mp hs
  have hsub := List.dropWhile_sublist (fun y => decide (key y = key a)) (l := l)
  have hd := hl.sublist hsub
  -- What is left starts at another key, and nothing after it falls back below.
  cases hdw : l.dropWhile (fun y => decide (key y = key a)) with
  | nil => simp [hdw] at hx
  | cons c cs =>
    have hc : key c ≠ key a := by
      have := List.head_dropWhile_not (fun y => decide (key y = key a)) (l := l) (by simp [hdw])
      simpa [hdw] using this
    have hac : key a < key c := lt_of_le_of_ne (ha c (hsub.subset (by simp [hdw]))) (Ne.symm hc)
    rw [hdw] at hx hd
    rcases List.mem_cons.mp hx with rfl | hx
    · exact hac
    · exact hac.trans_le ((List.pairwise_cons.mp hd).1 x hx)

theorem runs_strict {l : List α} (hs : l.Pairwise fun x y => key x ≤ key y) :
    (runs key l).Pairwise fun g h => ∀ x ∈ g, ∀ y ∈ h, key x < key y := by
  induction l using runs.induct key with
  | case1 => simp [runs_nil]
  | case2 a l ih =>
    have hd := (List.pairwise_cons.mp hs).2.sublist
      (List.dropWhile_sublist (fun x => decide (key x = key a)))
    rw [runs_cons]
    apply List.pairwise_cons.mpr
    refine ⟨?_, ih hd⟩
    intro h hh x hx y hy
    obtain ⟨_, _, _, _, hmem⟩ := mem_runs hh
    have hxa : key x = key a := by
      rcases List.mem_cons.mp hx with rfl | hx
      · rfl
      · simpa using List.mem_takeWhile_imp hx
    rw [hxa]
    exact lt_of_mem_dropWhile hs (hmem y hy)

theorem heads_strict {l : List α} (hs : l.Pairwise fun x y => key x ≤ key y) :
    (heads key l).Pairwise fun x y => key x < key y := by
  apply List.pairwise_filterMap.mpr
  apply (runs_strict hs).imp
  intro g h hgh a ha b hb
  exact hgh a (List.mem_of_mem_head? ha) b (List.mem_of_mem_head? hb)

theorem run_eq_filter {l t : List α} {a : α} (hs : l.Pairwise fun x y => key x ≤ key y)
    (hg : a :: t ∈ runs key l) : a :: t = l.filter fun x => key x = key a := by
  induction l using runs.induct key with
  | case1 => simp [runs_nil] at hg
  | case2 b l ih =>
    have hl := (List.pairwise_cons.mp hs).2
    have hcut (k : β) : l.filter (fun x => key x = k) =
        (l.takeWhile fun x => key x = key b).filter (fun x => key x = k) ++
          (l.dropWhile fun x => key x = key b).filter fun x => key x = k := by
      rw [← List.filter_append, List.takeWhile_append_dropWhile]
    rw [runs_cons] at hg
    rcases List.mem_cons.mp hg with he | hg
    · obtain ⟨rfl, rfl⟩ := List.cons.inj he
      have hrest : (l.dropWhile fun x => key x = key a).filter (fun x => key x = key a) = [] := by
        rw [List.filter_eq_nil_iff]
        intro x hx
        simpa using (lt_of_mem_dropWhile hs hx).ne'
      have hrun : (l.takeWhile fun x => key x = key a).filter (fun x => key x = key a) =
          l.takeWhile fun x => key x = key a := by
        rw [List.filter_eq_self]
        intro x hx
        simpa using List.mem_takeWhile_imp hx
      rw [List.filter_cons_of_pos (by simp), hcut, hrest, hrun, List.append_nil]
    · have ha := mem_of_mem_heads (List.mem_filterMap.mpr ⟨_, hg, rfl⟩)
      have hlt := lt_of_mem_dropWhile hs ha
      have hrun : (l.takeWhile fun x => key x = key b).filter (fun x => key x = key a) = [] := by
        rw [List.filter_eq_nil_iff]
        intro x hx
        have hxb := List.mem_takeWhile_imp hx
        simp only [decide_eq_true_eq] at hxb ⊢
        rw [hxb]
        exact hlt.ne
      rw [List.filter_cons_of_neg (by simpa using hlt.ne), hcut, hrun, List.nil_append]
      exact ih (hl.sublist (List.dropWhile_sublist _)) hg

lemma mem_heads_iff {l : List α} (hs : l.Pairwise fun x y => key x ≤ key y) {a : α} :
    a ∈ heads key l ↔ l.find? (fun x => key x = key a) = some a := by
  rw [← List.head?_filter]
  constructor
  · intro ha
    obtain ⟨g, hg, hga⟩ := List.mem_filterMap.mp ha
    obtain ⟨t, rfl⟩ := List.head?_eq_some_iff.mp hga
    rw [← run_eq_filter hs hg, List.head?_cons]
  · intro ha
    have hm := List.mem_filter.mp (List.mem_of_mem_head? ha)
    obtain ⟨g, hg, hag⟩ := (exists_run_mem hm.1 : ∃ g ∈ runs key l, a ∈ g)
    obtain ⟨b, t, rfl, hk, _⟩ := mem_runs hg
    have hba : key a = key b := by
      rcases List.mem_cons.mp hag with rfl | hat
      · rfl
      · exact hk a hat
    rw [hba, ← run_eq_filter hs hg, List.head?_cons] at ha
    exact List.mem_filterMap.mpr ⟨_, hg, ha⟩

end Order

section Stable
variable [LinearOrder β] {key : α → β}

lemma key_le_trans (a b c : α) (hab : decide (key a ≤ key b) = true)
    (hbc : decide (key b ≤ key c) = true) : decide (key a ≤ key c) = true := by
  simp only [decide_eq_true_eq] at hab hbc ⊢
  exact hab.trans hbc

lemma key_le_total (a b : α) : (decide (key a ≤ key b) || decide (key b ≤ key a)) = true := by
  simpa using le_total (key a) (key b)

lemma pairwise_mergeSort_key (l : List α) :
    (l.mergeSort fun a b => key a ≤ key b).Pairwise fun a b => key a ≤ key b := by
  have h := List.pairwise_mergeSort (@key_le_trans _ _ _ key) key_le_total l
  exact h.imp fun hab => by simpa using hab

theorem filter_key_mergeSort (l : List α) (k : β) :
    (l.mergeSort fun a b => key a ≤ key b).filter (fun a => key a = k) =
      l.filter fun a => key a = k := by
  have hs : (l.filter fun a => key a = k).Sublist (l.mergeSort fun a b => key a ≤ key b) := by
    apply List.sublist_mergeSort key_le_trans key_le_total
    · apply List.pairwise_of_forall_mem_list
      intro a ha b hb
      simp only [List.mem_filter, decide_eq_true_eq] at ha hb
      simp [ha.2, hb.2]
    · exact List.filter_sublist
  have hf := hs.filter fun a => key a = k
  simp only [List.filter_filter, Bool.and_self] at hf
  have hlen := ((List.mergeSort_perm l fun a b => decide (key a ≤ key b)).filter
    fun a => decide (key a = k)).length_eq
  exact (hf.eq_of_length hlen.symm).symm

theorem eq_of_filter_key {l l' : List α} (hs : l.Pairwise fun a b => key a ≤ key b)
    (hs' : l'.Pairwise fun a b => key a ≤ key b)
    (h : ∀ k, l.filter (fun a => key a = k) = l'.filter fun a => key a = k) : l = l' := by
  have hmem : ∀ a, a ∈ l ↔ a ∈ l' := by
    intro a
    have := congrArg (a ∈ ·) (h (key a))
    simpa using this
  induction l generalizing l' with
  | nil =>
    cases l' with
    | nil => rfl
    | cons b l' => simpa using hmem b
  | cons a l ih =>
    cases l' with
    | nil => simpa using hmem a
    | cons b l' =>
      obtain ⟨ha, hl⟩ := List.pairwise_cons.mp hs
      obtain ⟨hb, hl'⟩ := List.pairwise_cons.mp hs'
      have hab : key a = key b := by
        apply le_antisymm
        · rcases List.mem_cons.mp ((hmem b).mpr List.mem_cons_self) with rfl | hm
          · exact le_rfl
          · exact ha b hm
        · rcases List.mem_cons.mp ((hmem a).mp List.mem_cons_self) with rfl | hm
          · exact le_rfl
          · exact hb a hm
      have hk := h (key a)
      simp only [List.filter_cons, hab, decide_true, if_true, List.cons.injEq] at hk
      obtain rfl := hk.1
      congr 1
      have hrest : ∀ k, l.filter (fun x => key x = k) = l'.filter fun x => key x = k := by
        intro k
        have hk := h k
        by_cases hka : key a = k
        · simpa [List.filter_cons, hka] using hk
        · simpa [List.filter_cons, hka] using hk
      apply ih hl hl' hrest
      intro x
      have := congrArg (x ∈ ·) (hrest (key x))
      simpa using this

theorem filter_mergeSort (l : List α) (p : α → Bool) :
    (l.mergeSort fun a b => key a ≤ key b).filter p =
      (l.filter p).mergeSort fun a b => key a ≤ key b := by
  apply eq_of_filter_key ((pairwise_mergeSort_key l).filter p) (pairwise_mergeSort_key _)
  intro k
  rw [filter_key_mergeSort, List.filter_comm, filter_key_mergeSort, List.filter_comm]

end Stable

theorem eq_range_of_strict {l : List ℕ} {n : ℕ} (hs : l.Pairwise (· < ·))
    (hm : ∀ i, i ∈ l ↔ i < n) : l = List.range n := by
  have hr : (List.range n).Pairwise (· < ·) := List.pairwise_lt_range
  apply hs.eq_of_mem_iff hr
  intro i
  rw [hm, List.mem_range]

section Neighbours
variable [LinearOrder β] {key : α → β}

theorem mem_zip_tail_iff {l : List α} (hs : l.Pairwise fun x y => key x < key y) {a b : α} :
    (a, b) ∈ l.zip l.tail ↔
      a ∈ l ∧ b ∈ l ∧ key a < key b ∧ ∀ x ∈ l, ¬(key a < key x ∧ key x < key b) := by
  induction l with
  | nil => simp
  | cons x l ih =>
    obtain ⟨hx, hl⟩ := List.pairwise_cons.mp hs
    cases l with
    | nil =>
      simp only [List.tail_cons, List.zip_nil_right, List.not_mem_nil, List.mem_singleton, false_iff]
      rintro ⟨rfl, rfl, hlt, _⟩
      exact lt_irrefl _ hlt
    | cons y l =>
      have hxy := hx y List.mem_cons_self
      have hy := (List.pairwise_cons.mp hl).1
      rw [List.tail_cons, List.zip_cons_cons, List.mem_cons, Prod.mk.injEq]
      rw [List.tail_cons] at ih
      rw [ih hl]
      constructor
      · rintro (⟨rfl, rfl⟩ | ⟨ha, hb, hlt, hnone⟩)
        · refine ⟨List.mem_cons_self, List.mem_cons_of_mem _ List.mem_cons_self, hxy, ?_⟩
          intro z hz hbetween
          rcases List.mem_cons.mp hz with rfl | hz
          · exact lt_irrefl _ hbetween.1
          · rcases List.mem_cons.mp hz with rfl | hz
            · exact lt_irrefl _ hbetween.2
            · exact lt_asymm hbetween.2 (hy z hz)
        · refine ⟨List.mem_cons_of_mem _ ha, List.mem_cons_of_mem _ hb, hlt, ?_⟩
          intro z hz hbetween
          rcases List.mem_cons.mp hz with rfl | hz
          · exact lt_asymm hbetween.1 (hx a ha)
          · exact hnone z hz hbetween
      · rintro ⟨ha, hb, hlt, hnone⟩
        have hbl : b ∈ y :: l := by
          rcases List.mem_cons.mp hb with rfl | hb
          · rcases List.mem_cons.mp ha with rfl | ha
            · exact absurd hlt (lt_irrefl _)
            · exact absurd hlt (lt_asymm (hx a ha))
          · exact hb
        rcases List.mem_cons.mp ha with rfl | ha
        · -- The first entry's neighbour is the second, or the second lies between.
          left
          refine ⟨rfl, ?_⟩
          rcases List.mem_cons.mp hbl with rfl | hbl
          · rfl
          · exact absurd ⟨hxy, hy b hbl⟩ (hnone y (List.mem_cons_of_mem _ List.mem_cons_self))
        · right
          exact ⟨ha, hbl, hlt, fun z hz => hnone z (List.mem_cons_of_mem _ hz)⟩

lemma zip_tail_strict {l : List α} (hs : l.Pairwise fun x y => key x < key y) :
    (l.zip l.tail).Pairwise fun p q => key p.2 < key q.2 := by
  have hsnd : ((l.zip l.tail).map Prod.snd).Sublist l := by
    rw [List.map_snd_zip (by simp)]
    exact List.tail_sublist l
  have h := hs.sublist hsnd
  rwa [List.pairwise_map] at h

end Neighbours

lemma mem_zip_tail_of_succ {key : α → ℕ} {l : List α} (hs : l.Pairwise fun x y => key x < key y)
    {a b : α} (ha : a ∈ l) (hb : b ∈ l) (hk : key b = key a + 1) : (a, b) ∈ l.zip l.tail := by
  rw [mem_zip_tail_iff hs]
  refine ⟨ha, hb, by omega, ?_⟩
  intro x _ hbetween
  omega

lemma head?_of_key_eq_zero {key : α → ℕ} {l : List α}
    (hs : l.Pairwise fun x y => key x < key y) {a : α} (ha : a ∈ l) (hk : key a = 0) :
    l.head? = some a := by
  cases l with
  | nil => simp at ha
  | cons x l =>
    rcases List.mem_cons.mp ha with rfl | ha
    · rfl
    · have := (List.pairwise_cons.mp hs).1 a ha
      omega

lemma mem_zip_tail {l : List α} {a b : α} (h : (a, b) ∈ l.zip l.tail) :
    ∃ i, l[i]? = some a ∧ l[i + 1]? = some b := by
  obtain ⟨i, hi⟩ := List.mem_iff_getElem?.mp h
  obtain ⟨ha, hb⟩ := List.getElem?_zip_eq_some.mp hi
  exact ⟨i, ha, by rwa [List.getElem?_tail] at hb⟩

lemma mem_zip_tail_of_getElem? {l : List α} {a b : α} {i : ℕ} (ha : l[i]? = some a)
    (hb : l[i + 1]? = some b) : (a, b) ∈ l.zip l.tail := by
  apply List.mem_of_getElem? (i := i)
  rw [List.getElem?_zip_eq_some]
  exact ⟨ha, by rwa [List.getElem?_tail]⟩

end Blitz.SortedGroups
