import Mathlib

/-! A consumer that takes only what lies above whatever it took last, and channels that repeat
themselves. -/
namespace Blitz.HighWater

section Consumer
variable {α K : Type*} (r : K → K → Prop) [DecidableRel r] (key : α → K)

/-- What is taken of a list that is offered from its front. -/
def takes (mark : K) : List α → List α
  | [] => []
  | a :: rest => if r mark (key a) then a :: takes (key a) rest else takes mark rest

/-- The mark after taking a list. -/
def markAfter (mark : K) (taken : List α) : K := (taken.getLast?.map key).getD mark

@[simp] lemma markAfter_nil (mark : K) : markAfter key mark ([] : List α) = mark := rfl

@[simp] lemma markAfter_concat (mark : K) (taken : List α) (a : α) :
    markAfter key mark (taken ++ [a]) = key a := by simp [markAfter]

lemma markAfter_cons (mark : K) (a : α) (taken : List α) :
    markAfter key mark (a :: taken) = markAfter key (key a) taken := by
  cases taken using List.reverseRecOn with
  | nil => rfl
  | append_singleton taken b => rw [← List.cons_append, markAfter_concat, markAfter_concat]

lemma takes_append (mark : K) (xs ys : List α) :
    takes r key mark (xs ++ ys) =
      takes r key mark xs ++ takes r key (markAfter key mark (takes r key mark xs)) ys := by
  induction xs generalizing mark with
  | nil => rfl
  | cons a xs ih =>
    rw [List.cons_append, takes, takes]
    split_ifs with ha
    · rw [ih, List.cons_append, markAfter_cons]
    · rw [ih]

lemma takes_concat (mark : K) (xs : List α) (a : α) :
    takes r key mark (xs ++ [a]) = takes r key mark xs ++
      if r (markAfter key mark (takes r key mark xs)) (key a) then [a] else [] := by
  rw [takes_append]
  rfl

lemma takes_sublist (mark : K) (xs : List α) : (takes r key mark xs).Sublist xs := by
  induction xs generalizing mark with
  | nil => exact .slnil
  | cons a xs ih =>
    rw [takes]
    split_ifs
    · exact (ih _).cons_cons a
    · exact (ih _).cons a

variable {r key}

lemma takes_rising [IsTrans K r] (mark : K) (xs : List α) :
    (∀ a ∈ takes r key mark xs, r mark (key a)) ∧
      (takes r key mark xs).Pairwise fun a b => r (key a) (key b) := by
  induction xs generalizing mark with
  | nil => simp [takes]
  | cons a xs ih =>
    rw [takes]
    split_ifs with ha
    · obtain ⟨habove, hrising⟩ := ih (key a)
      refine ⟨?_, List.pairwise_cons.mpr ⟨habove, hrising⟩⟩
      intro b hb
      rcases List.mem_cons.mp hb with rfl | hb
      · exact ha
      · exact IsTrans.trans _ _ _ ha (habove b hb)
    · exact ih mark

end Consumer

section Walk
variable {α : Type*} {source channel given : List α} {i j k : ℕ} {a : α}

/-- A channel goes through its source from the front, each time with something it has already
carried or with what comes next. So far it has come to the given place. -/
inductive Walk (source : List α) : List α → ℕ → Prop
  | nil : Walk source [] 0
  | again {given : List α} {k : ℕ} {a : α} (h : Walk source given k) (ha : a ∈ source.take k) :
      Walk source (given ++ [a]) k
  | next {given : List α} {k : ℕ} {a : α} (h : Walk source given k) (ha : source[k]? = some a) :
      Walk source (given ++ [a]) (k + 1)

lemma take_succ_of_getElem? (ha : source[k]? = some a) : source.take (k + 1) = source.take k ++ [a] := by
  rw [List.take_add_one, ha, Option.toList_some]

namespace Walk

lemma le_length (h : Walk source given k) : k ≤ source.length := by
  induction h with
  | nil => exact Nat.zero_le _
  | again h ha ih => exact ih
  | next h ha ih => exact (List.getElem?_eq_some_iff.mp ha).1

lemma mem (h : Walk source given k) : ∀ a ∈ given, a ∈ source.take k := by
  induction h with
  | nil => simp
  | again h ha ih =>
    intro b hb
    rcases List.mem_append.mp hb with hb | hb
    · exact ih b hb
    · rwa [List.mem_singleton.mp hb]
  | next h ha ih =>
    intro b hb
    rw [take_succ_of_getElem? ha]
    rcases List.mem_append.mp hb with hb | hb
    · exact List.mem_append_left _ (ih b hb)
    · exact List.mem_append_right _ hb

lemma extend (h : Walk source given k) (more : List α) : Walk (source ++ more) given k := by
  induction h with
  | nil => exact .nil
  | again h ha ih =>
    refine ih.again ?_
    rwa [List.take_append_of_le_length h.le_length]
  | next h ha ih =>
    refine ih.next ?_
    rwa [List.getElem?_append_left (List.getElem?_eq_some_iff.mp ha).1]

lemma snoc_cases (h : Walk source (given ++ [a]) k) :
    (∃ i, Walk source given i ∧ a ∈ source.take i ∧ k = i) ∨
      ∃ i, Walk source given i ∧ source[i]? = some a ∧ k = i + 1 := by
  generalize hlist : given ++ [a] = list at h
  cases h with
  | nil => simp at hlist
  | again h ha =>
    obtain ⟨rfl, hlast⟩ := List.append_inj' hlist rfl
    obtain rfl := List.singleton_inj.mp hlast
    exact .inl ⟨_, h, ha, rfl⟩
  | next h ha =>
    obtain ⟨rfl, hlast⟩ := List.append_inj' hlist rfl
    obtain rfl := List.singleton_inj.mp hlast
    exact .inr ⟨_, h, ha, rfl⟩

lemma not_mem_take (hsource : source.Nodup) (ha : source[k]? = some a) : a ∉ source.take k := by
  have hnodup : (source.take k ++ [a]).Nodup := by
    rw [← take_succ_of_getElem? ha]
    exact hsource.sublist (List.take_sublist _ _)
  intro hmem
  exact (List.nodup_append.mp hnodup).2.2 a hmem a (List.mem_singleton_self a) rfl

lemma unique (hsource : source.Nodup) (h : Walk source given j) (h' : Walk source given k) :
    j = k := by
  induction h generalizing k with
  | nil =>
    generalize hlist : ([] : List α) = list at h'
    cases h' with
    | nil => rfl
    | again => simp at hlist
    | next => simp at hlist
  | again h ha ih =>
    rcases h'.snoc_cases with ⟨i, hi, -, rfl⟩ | ⟨i, hi, hnext, rfl⟩
    · exact ih hi
    · obtain rfl := ih hi
      exact absurd ha (not_mem_take hsource hnext)
  | next h ha ih =>
    rcases h'.snoc_cases with ⟨i, hi, hagain, rfl⟩ | ⟨i, hi, -, rfl⟩
    · obtain rfl := ih hi
      exact absurd hagain (not_mem_take hsource ha)
    · rw [ih hi]

lemma exists_take (h : Walk source channel k) (j : ℕ) : ∃ i, Walk source (channel.take j) i := by
  induction h with
  | nil => exact ⟨0, by simpa using Walk.nil⟩
  | @again channel k a h ha ih =>
    by_cases hj : j ≤ channel.length
    · rwa [List.take_append_of_le_length hj]
    · rw [List.take_of_length_le (by simp; omega)]
      exact ⟨k, h.again ha⟩
  | @next channel k a h ha ih =>
    by_cases hj : j ≤ channel.length
    · rwa [List.take_append_of_le_length hj]
    · rw [List.take_of_length_le (by simp; omega)]
      exact ⟨k + 1, h.next ha⟩

lemma comp (hsource : source.Nodup) (h : Walk source channel k) (g : Walk channel given j) :
    ∃ i, Walk source given i := by
  have hboth : ∃ i, Walk source given i ∧ Walk source (channel.take j) i := by
    induction g with
    | nil => exact ⟨0, .nil, by simpa using Walk.nil⟩
    | again g ha ih =>
      obtain ⟨i, hgiven, htaken⟩ := ih
      exact ⟨i, hgiven.again (htaken.mem _ ha), htaken⟩
    | @next given j a g ha ih =>
      obtain ⟨i, hgiven, htaken⟩ := ih
      obtain ⟨i', hmore⟩ := h.exists_take (j + 1)
      rw [take_succ_of_getElem? ha] at hmore ⊢
      rcases hmore.snoc_cases with ⟨l, hl, hagain, rfl⟩ | ⟨l, hl, hnext, rfl⟩
      · obtain rfl := htaken.unique hsource hl
        exact ⟨i, hgiven.again hagain, hmore⟩
      · obtain rfl := htaken.unique hsource hl
        exact ⟨i + 1, hgiven.next hnext, hmore⟩
  obtain ⟨i, hgiven, -⟩ := hboth
  exact ⟨i, hgiven⟩

end Walk

theorem takes_walk {K : Type*} {r : K → K → Prop} [DecidableRel r] [IsStrictOrder K r] {key : α → K}
    {mark : K} (hrising : source.Pairwise fun a b => r (key a) (key b))
    (habove : ∀ a ∈ source, r mark (key a)) (h : Walk source given k) :
    takes r key mark given = source.take k := by
  induction h with
  | nil => simp [takes]
  | @again given k a h ha ih =>
    rw [takes_concat, ih, if_neg ?_, List.append_nil]
    -- the last one taken is this one, or one above it
    cases htake : source.take k using List.reverseRecOn with
    | nil => simp [htake] at ha
    | append_singleton before last =>
      rw [markAfter_concat]
      rw [htake] at ha
      rcases List.mem_append.mp ha with ha | ha
      · have hsorted : (before ++ [last]).Pairwise fun a b => r (key a) (key b) :=
          htake ▸ hrising.sublist (List.take_sublist _ _)
        exact asymm ((List.pairwise_append.mp hsorted).2.2 a ha last (List.mem_singleton_self _))
      · rw [List.mem_singleton.mp ha]
        exact irrefl _
  | @next given k a h ha ih =>
    rw [takes_concat, ih, if_pos ?_, take_succ_of_getElem? ha]
    have hsorted : (source.take k ++ [a]).Pairwise fun a b => r (key a) (key b) := by
      rw [← take_succ_of_getElem? ha]
      exact hrising.sublist (List.take_sublist _ _)
    cases htake : source.take k using List.reverseRecOn with
    | nil => exact habove a (List.mem_of_getElem? ha)
    | append_singleton before last =>
      rw [markAfter_concat]
      rw [htake] at hsorted
      exact (List.pairwise_append.mp hsorted).2.2 last (by simp) a (List.mem_singleton_self _)

section Overtaken
variable {K : Type*} {r : K → K → Prop} [DecidableRel r] [IsStrictOrder K r] {key : α → K}
  {mark : K} {before after : List α} {b : α}

lemma takes_concat_past (c : α) (hlt : r (key a) (key b)) (hnot : a ∉ takes r key mark given)
    (hmark : ¬r (markAfter key mark (takes r key mark given)) (key b)) :
    a ∉ takes r key mark (given ++ [c]) ∧
      ¬r (markAfter key mark (takes r key mark (given ++ [c]))) (key b) := by
  -- Once the mark is not below `b` it stays so, and what lies below `b` is not taken.
  rw [takes_concat]
  split_ifs with htaken
  · have hbelow : ∀ d, r (key d) (key b) → d ≠ c := by
      rintro d hd rfl
      exact hmark (IsTrans.trans _ _ _ htaken hd)
    rw [markAfter_concat]
    exact ⟨by simpa [hnot] using hbelow a hlt, fun hc => hbelow c hc rfl⟩
  · rw [List.append_nil]
    exact ⟨hnot, hmark⟩

theorem not_mem_takes_of_overtaken (h : Walk (before ++ b :: after) given k) (hlate : a ∉ before)
    (hlt : r (key a) (key b)) : a ∉ takes r key mark given := by
  -- up to `b` it has not come; from then on the mark is not below `b`
  have hstate : (k ≤ before.length ∧ a ∉ given) ∨ (a ∉ takes r key mark given ∧
      ¬r (markAfter key mark (takes r key mark given)) (key b)) := by
    induction h with
    | nil => exact .inl ⟨Nat.zero_le _, List.not_mem_nil⟩
    | @again given k c h hc ih =>
      rcases ih with ⟨hle, hnot⟩ | ⟨hnot, hmark⟩
      · rw [List.take_append_of_le_length hle] at hc
        have hne : a ≠ c := fun heq => hlate (heq ▸ List.mem_of_mem_take hc)
        exact .inl ⟨hle, by simp [hnot, hne]⟩
      · exact .inr (takes_concat_past c hlt hnot hmark)
    | @next given k c h hc ih =>
      rcases ih with ⟨hle, hnot⟩ | ⟨hnot, hmark⟩
      · rcases hle.lt_or_eq with hlt' | rfl
        · rw [List.getElem?_append_left hlt'] at hc
          have hne : a ≠ c := fun heq => hlate (heq ▸ List.mem_of_getElem? hc)
          exact .inl ⟨hlt', by simp [hnot, hne]⟩
        · have hb : b = c := by simpa using hc
          have hne : a ≠ b := fun heq => irrefl _ (heq ▸ hlt)
          have hnone : a ∉ takes r key mark given :=
            fun hin => hnot ((takes_sublist r key mark given).subset hin)
          rw [← hb, takes_concat]
          refine .inr ?_
          split_ifs with htaken
          · rw [markAfter_concat]
            exact ⟨by simp [hnone, hne], irrefl _⟩
          · rw [List.append_nil]
            exact ⟨hnone, htaken⟩
      · exact .inr (takes_concat_past c hlt hnot hmark)
  rcases hstate with ⟨-, hnot⟩ | ⟨hnot, -⟩
  · exact fun hin => hnot ((takes_sublist r key mark given).subset hin)
  · exact hnot

end Overtaken

end Walk

end Blitz.HighWater
