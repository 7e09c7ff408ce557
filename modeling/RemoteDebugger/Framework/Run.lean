import Mathlib.Logic.Basic

/-!
# Runs of labelled transition systems

`Run step s tr s'` is a run from `s` to `s'`, where `tr` lists the steps taken,
each with the state it is taken in.

* `Run.invariant`: what every step that meets a condition preserves holds at
  the end of a run whose steps all meet it;
* `Run.append_iff`, `Run.of_mem`: runs are cut and joined at their states;
* `exec_run`, `exec_append`: an executable system is run by executing labels;
* `Run.followed`: a run is followed by a system that simulates its steps.
-/

namespace Framework

variable {σ α : Type} {step : σ → α → σ → Prop}

inductive Run (step : σ → α → σ → Prop) : σ → List (σ × α) → σ → Prop where
  | nil (s : σ) : Run step s [] s
  | cons {s s' s'' : σ} {a : α} {tr : List (σ × α)} (h : step s a s') (hr : Run step s' tr s'') :
      Run step s ((s, a) :: tr) s''

namespace Run

variable {s s' s'' : σ} {tr tr' : List (σ × α)}

theorem append (h : Run step s tr s') (h' : Run step s' tr' s'') : Run step s (tr ++ tr') s'' := by
  induction h with
  | nil => exact h'
  | cons hs _ ih => exact .cons hs (ih h')

/-- A run is cut at any point of its trace. -/
theorem append_iff : Run step s (tr ++ tr') s'' ↔ ∃ s', Run step s tr s' ∧ Run step s' tr' s'' := by
  constructor
  · intro h
    induction tr generalizing s with
    | nil => exact ⟨s, .nil s, h⟩
    | cons p tr ih =>
      cases h with
      | cons hs hr =>
        obtain ⟨s₁, h1, h2⟩ := ih hr
        exact ⟨s₁, .cons hs h1, h2⟩
  · rintro ⟨s', h, h'⟩
    exact h.append h'

/-- A step of a run: the runs before and after it. -/
theorem of_mem {p : σ × α} (h : Run step s tr s'') (hp : p ∈ tr) :
    ∃ pre s' post, tr = pre ++ p :: post ∧ Run step s pre p.1 ∧ step p.1 p.2 s' ∧ Run step s' post s'' := by
  obtain ⟨pre, post, rfl⟩ := List.append_of_mem hp
  obtain ⟨s₁, h1, h2⟩ := append_iff.mp h
  cases h2 with
  | cons hs hr => exact ⟨pre, _, post, rfl, h1, hs, hr⟩

/-- The invariant rule, for runs whose steps all meet the condition `C`. -/
theorem invariant {I : σ → Prop} {C : σ → α → Prop}
    (hstep : ∀ {s a s'}, step s a s' → C s a → I s → I s') (h : Run step s tr s')
    (hc : ∀ p ∈ tr, C p.1 p.2) (hs : I s) : I s' := by
  induction h with
  | nil => exact hs
  | cons ha _ ih =>
    obtain ⟨h1, h2⟩ := List.forall_mem_cons.mp hc
    exact ih h2 (hstep ha h1 hs)

end Run

/-- The state after some labels, if each can be taken. -/
def exec (f : σ → α → Option σ) (s : σ) : List α → Option σ
  | [] => some s
  | a :: as => (f s a).bind (exec f · as)

theorem exec_cons {f : σ → α → Option σ} {s t u : σ} {a : α} {as : List α} (h : f s a = some t)
    (h' : exec f t as = some u) : exec f s (a :: as) = some u := by
  rw [exec, h]
  exact h'

theorem exec_append {f : σ → α → Option σ} {s s₁ s₂ : σ} {as bs : List α} (h : exec f s as = some s₁)
    (h' : exec f s₁ bs = some s₂) : exec f s (as ++ bs) = some s₂ := by
  induction as generalizing s with
  | nil =>
    cases h
    exact h'
  | cons a as ih =>
    obtain ⟨s₀, h1, h2⟩ := Option.bind_eq_some_iff.mp h
    exact exec_cons h1 (ih h2)

/-- A run is followed label by label by what takes each of its steps. -/
theorem Run.followed {τ : Type} {step : σ → α → σ → Prop} {f : τ → α → Option τ} {s s' : σ} {t : τ} {tr : List (σ × α)}
    (h : Run step s tr s') (rel : σ → τ → Prop)
    (hstep : ∀ {s a s' t}, step s a s' → rel s t → ∃ t', f t a = some t' ∧ rel s' t') (ht : rel s t) :
    ∃ t', exec f t (tr.map Prod.snd) = some t' ∧ rel s' t' := by
  induction h generalizing t with
  | nil => exact ⟨t, rfl, ht⟩
  | cons hs _ ih =>
    obtain ⟨t₁, h1, hrel⟩ := hstep hs ht
    obtain ⟨t', hexec, hrel'⟩ := ih hrel
    exact ⟨t', exec_cons h1 hexec, hrel'⟩

/-- The labels with the states they are taken in. -/
def trace (f : σ → α → Option σ) (s : σ) : List α → List (σ × α)
  | [] => []
  | a :: as => (s, a) :: ((f s a).map (trace f · as)).getD []

theorem snd_mem_of_mem_trace {f : σ → α → Option σ} {s : σ} {as : List α} {p : σ × α} (h : p ∈ trace f s as) :
    p.2 ∈ as := by
  induction as generalizing s with
  | nil => cases h
  | cons a as ih =>
    rcases List.mem_cons.mp h with rfl | h
    · exact List.mem_cons_self
    · cases hs : f s a with
      | none => simp [hs] at h
      | some s' =>
        rw [hs] at h
        exact List.mem_cons_of_mem _ (ih h)

/-- The labels taken one after the other are a run. -/
theorem exec_run {f : σ → α → Option σ} {s s' : σ} {as : List α} (h : exec f s as = some s') :
    Run (fun s a s' => f s a = some s') s (trace f s as) s' := by
  induction as generalizing s with
  | nil =>
    cases h
    exact .nil _
  | cons a as ih =>
    obtain ⟨s₁, h1, h2⟩ := Option.bind_eq_some_iff.mp h
    rw [trace, h1]
    exact .cons h1 (ih h2)

end Framework
