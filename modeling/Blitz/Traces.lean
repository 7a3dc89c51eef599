import Mathlib

/-! Runs of a labelled transition relation, kept as data: every event together
with the state it happened in and the state it led to, oldest first. -/
namespace Blitz.Traces

/-- One step of a run. -/
structure Entry (σ ε : Type*) where
  before : σ
  event : ε
  after : σ

/-- The same step between the images of its states. -/
def Entry.map {σ ε : Type*} (f : σ → σ) (x : Entry σ ε) : Entry σ ε :=
  ⟨f x.before, x.event, f x.after⟩

/-- `t` leads from `start` to the state of the second index. -/
inductive Trace {σ ε : Type*} (step : ε → σ → σ → Prop) (start : σ) : List (Entry σ ε) → σ → Prop
  | nil : Trace step start [] start
  | snoc {t : List (Entry σ ε)} {m n : σ} {e : ε} :
      Trace step start t m → step e m n → Trace step start (t ++ [⟨m, e, n⟩]) n

namespace Trace
variable {σ ε : Type*} {step : ε → σ → σ → Prop} {start m n : σ} {t t₁ t₂ : List (Entry σ ε)}
  {x : Entry σ ε}

theorem invariant {I : σ → Prop} (h : Trace step start t n) (hstart : I start)
    (hstep : ∀ x ∈ t, step x.event x.before x.after → I x.before → I x.after) : I n := by
  induction h with
  | nil => exact hstart
  | @snoc t m n e _ hlast ih =>
    apply hstep ⟨m, e, n⟩ (by simp) hlast
    apply ih
    intro x hx
    exact hstep x (List.mem_append_left _ hx)

theorem cut (h : Trace step start (t₁ ++ x :: t₂) n) :
    Trace step start t₁ x.before ∧ step x.event x.before x.after ∧
      Trace step x.after t₂ n := by
  induction t₂ using List.reverseRecOn generalizing n with
  | nil =>
    generalize hu : t₁ ++ [x] = u at h
    cases h with
    | nil => simp at hu
    | snoc hrun hlast =>
      obtain ⟨rfl, hx⟩ := List.append_inj' hu rfl
      obtain rfl := List.singleton_inj.mp hx
      exact ⟨hrun, hlast, .nil⟩
  | append_singleton t₂ y ih =>
    rw [← List.cons_append, ← List.append_assoc] at h
    generalize hu : t₁ ++ x :: t₂ ++ [y] = u at h
    cases h with
    | nil => simp at hu
    | snoc hrun hlast =>
      obtain ⟨rfl, hy⟩ := List.append_inj' hu rfl
      obtain ⟨hbefore, hx, hafter⟩ := ih hrun
      rw [List.singleton_inj.mp hy]
      exact ⟨hbefore, hx, hafter.snoc hlast⟩

theorem entry (h : Trace step start t n) (hx : x ∈ t) : step x.event x.before x.after := by
  obtain ⟨t₁, t₂, rfl⟩ := List.append_of_mem hx
  exact h.cut.2.1

theorem invariant_before {I : σ → Prop} (h : Trace step start t n) (hstart : I start)
    (hstep : ∀ x ∈ t, step x.event x.before x.after → I x.before → I x.after) (hx : x ∈ t) :
    I x.before := by
  obtain ⟨t₁, t₂, rfl⟩ := List.append_of_mem hx
  apply h.cut.1.invariant hstart
  intro y hy
  exact hstep y (List.mem_append_left _ hy)

theorem since {P : σ → Prop} {E : Entry σ ε → Prop} (h : Trace step start t n)
    (hstep : ∀ x ∈ t, step x.event x.before x.after → P x.after → P x.before ∨ E x) (hn : P n) :
    (P start ∧ ∀ y ∈ t, P y.before ∧ P y.after) ∨
      ∃ t₁ x t₂, t = t₁ ++ x :: t₂ ∧ E x ∧ P x.after ∧ ∀ y ∈ t₂, P y.before ∧ P y.after := by
  induction h with
  | nil => exact .inl ⟨hn, by simp⟩
  | @snoc t m n e _ hlast ih =>
    have hsteps : ∀ x ∈ t, step x.event x.before x.after → P x.after → P x.before ∨ E x :=
      fun x hx => hstep x (List.mem_append_left _ hx)
    rcases hstep ⟨m, e, n⟩ (by simp) hlast hn with hm | he
    · rcases ih hsteps hm with ⟨hstart, hall⟩ | ⟨t₁, x, t₂, rfl, he, hx, hall⟩
      · refine .inl ⟨hstart, ?_⟩
        intro y hy
        rcases List.mem_append.mp hy with hy | hy
        · exact hall y hy
        · obtain rfl := List.mem_singleton.mp hy
          exact ⟨hm, hn⟩
      · refine .inr ⟨t₁, x, t₂ ++ [⟨m, e, n⟩], by simp, he, hx, ?_⟩
        intro y hy
        rcases List.mem_append.mp hy with hy | hy
        · exact hall y hy
        · obtain rfl := List.mem_singleton.mp hy
          exact ⟨hm, hn⟩
    · exact .inr ⟨t, ⟨m, e, n⟩, [], rfl, he, hn, by simp⟩

theorem first_exit {P : σ → Prop} {E : Entry σ ε → Prop} (h : Trace step start t n)
    (hstart : P start) (hstep : ∀ x ∈ t, step x.event x.before x.after → P x.before →
      P x.after ∨ E x) :
    (P n ∧ ∀ y ∈ t, P y.after) ∨
      ∃ t₁ x t₂, t = t₁ ++ x :: t₂ ∧ (∀ y ∈ t₁, P y.after) ∧ P x.before ∧ E x := by
  induction h with
  | nil => exact .inl ⟨hstart, by simp⟩
  | @snoc t m n e _ hlast ih =>
    have hsteps : ∀ x ∈ t, step x.event x.before x.after → P x.before → P x.after ∨ E x :=
      fun x hx => hstep x (List.mem_append_left _ hx)
    rcases ih hsteps with ⟨hm, hall⟩ | ⟨t₁, x, t₂, rfl, hall, hx, he⟩
    · rcases hstep ⟨m, e, n⟩ (by simp) hlast hm with hn | he
      · refine .inl ⟨hn, ?_⟩
        intro y hy
        rcases List.mem_append.mp hy with hy | hy
        · exact hall y hy
        · obtain rfl := List.mem_singleton.mp hy
          exact hn
      · exact .inr ⟨t, ⟨m, e, n⟩, [], rfl, hall, hm, he⟩
    · exact .inr ⟨t₁, x, t₂ ++ [⟨m, e, n⟩], by simp, hall, hx, he⟩

theorem invariant_all {I : σ → Prop} (h : Trace step start t n) (hstart : I start)
    (hstep : ∀ x ∈ t, step x.event x.before x.after → I x.before → I x.after) :
    I n ∧ ∀ x ∈ t, I x.before ∧ I x.after := by
  refine ⟨h.invariant hstart hstep, ?_⟩
  intro x hx
  have hbefore := h.invariant_before hstart hstep hx
  exact ⟨hbefore, hstep x hx (h.entry hx) hbefore⟩

end Trace

section Machine
variable {σ ε : Type*} {next : σ → ε → Option σ} {s s' : σ} {t : List (Entry σ ε)}

/-- The one run a machine has on a list of events. -/
def play (next : σ → ε → Option σ) (s : σ) (events : List ε) : Option σ := events.foldlM next s

lemma trace_of_play {events : List ε} (h : play next s events = some s') :
    ∃ t, Trace (fun e m n => next m e = some n) s t s' ∧ t.map Entry.event = events := by
  induction events using List.reverseRecOn generalizing s' with
  | nil =>
    obtain rfl := Option.some.inj h
    exact ⟨[], .nil, rfl⟩
  | append_singleton events event ih =>
    rw [play, List.foldlM_append] at h
    obtain ⟨m, hm, hlast⟩ := Option.bind_eq_some_iff.mp h
    obtain ⟨t, hrun, hevents⟩ := ih hm
    have hstep : next m event = some s' := by simpa using hlast
    exact ⟨t ++ [⟨m, event, s'⟩], hrun.snoc hstep, by simp [hevents]⟩

lemma Trace.play_eq (h : Trace (fun e m n => next m e = some n) s t s') :
    play next s (t.map Entry.event) = some s' := by
  induction h with
  | nil => rfl
  | @snoc t m n event _ hstep ih =>
    rw [play] at ih ⊢
    rw [List.map_append, List.foldlM_append, ih]
    simpa using hstep

lemma Trace.exists_of_map {f : σ → σ} (hf : ∀ s e, next (f s) e = (next s e).map f)
    (h : Trace (fun e m n => next m e = some n) (f s) t s') :
    ∃ t₀ s₀, Trace (fun e m n => next m e = some n) s t₀ s₀ ∧ t = t₀.map (Entry.map f) ∧
      s' = f s₀ := by
  induction h with
  | nil => exact ⟨[], s, .nil, rfl, rfl⟩
  | @snoc t m n event _ hstep ih =>
    obtain ⟨t₀, s₀, hrun, rfl, rfl⟩ := ih
    rw [hf] at hstep
    obtain ⟨s₁, hnext, rfl⟩ := Option.map_eq_some_iff.mp hstep
    exact ⟨t₀ ++ [⟨s₀, event, s₁⟩], s₁, hrun.snoc hnext, by simp [Entry.map], rfl⟩

lemma exists_trace {α : Type*} {f : σ → α} {v : α} {events : List ε}
    (h : (play next s events).map f = some v) :
    ∃ t s', Trace (fun e m n => next m e = some n) s t s' ∧ t.map Entry.event = events ∧
      f s' = v := by
  obtain ⟨s', hplay, hv⟩ := Option.map_eq_some_iff.mp h
  obtain ⟨t, hrun, hevents⟩ := trace_of_play hplay
  exact ⟨t, s', hrun, hevents, hv⟩

lemma forall_of_events {P : ε → Prop} {events : List ε} (hevents : t.map Entry.event = events)
    (h : ∀ event ∈ events, P event) : ∀ entry ∈ t, P entry.event := by
  intro entry hentry
  apply h
  rw [← hevents]
  exact List.mem_map_of_mem hentry

lemma forall_before_of_play {P : σ → Bool} {events : List ε}
    (h : Trace (fun e m n => next m e = some n) s t s') (hevents : t.map Entry.event = events)
    (hP : ∀ k ≤ events.length, (play next s (events.take k)).all P = true) :
    ∀ entry ∈ t, P entry.before = true := by
  intro entry hentry
  obtain ⟨t₁, t₂, rfl⟩ := List.append_of_mem hentry
  have htake : events.take t₁.length = t₁.map Entry.event := by
    rw [← hevents, List.map_append, List.take_left' (by simp)]
  have hbefore := hP t₁.length (by simp [← hevents])
  rwa [htake, h.cut.1.play_eq] at hbefore

end Machine

end Blitz.Traces
