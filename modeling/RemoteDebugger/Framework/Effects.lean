import RemoteDebugger.Framework.Prog

/-!
# What a program emits

Three judgements on a program, from every world:

* `Emits m P`: every event satisfies `P`;
* `AtMost n p m`: at most `n` events satisfy `p`;
* `Returns m Q`: what the program returns satisfies `Q`.

Each has a rule for the ways to build a program (`bind`, `call`, `loop`,
`tag`), so that a judgement on a program is derived along its text.
-/

namespace Framework

namespace Prog

variable {W E E' α β : Type} {m : Prog W E α} {f : α → Prog W E β} {P Q : E → Prop} {w : W}

/-- The events of a sequence are events of one of its parts. -/
theorem mem_events_bind {e : E} (h : e ∈ ((m >>= f).run w).events) :
    e ∈ (m.run w).events ∨ ∃ a w', e ∈ ((f a).run w').events := by
  rcases hm : m.run w with ⟨_ | a, es, w₁⟩
  · rw [bind_run_of_none hm] at h
    exact .inl h
  · rw [bind_run_of_some hm] at h
    rcases List.mem_append.mp h with h | h
    · exact .inl h
    · exact .inr ⟨a, w₁, h⟩

@[simp] theorem call_bind_run {g : Nat → α} {f : α → Prog Nat E β} (k : Nat) :
    (call g >>= f).run k = (f (g k)).run (k + 1) := rfl

/-! ## Every event -/

def Emits (m : Prog W E α) (P : E → Prop) : Prop := ∀ w, ∀ e ∈ (m.run w).events, P e

namespace Emits

theorem mono (h : Emits m P) (hPQ : ∀ e, P e → Q e) : Emits m Q := fun w e he => hPQ e (h w e he)

theorem pure (a : α) : Emits (pure a : Prog W E α) P := fun _ _ he => nomatch he

theorem stop : Emits (stop : Prog W E α) P := fun _ _ he => nomatch he

theorem call (g : Nat → α) : Emits (call g) P := fun _ _ he => nomatch he

theorem ask (f : W → α × W) : Emits (ask f : Prog W E α) P := fun _ _ he => nomatch he

theorem emit {e : E} (h : P e) : Emits (emit e : Prog W E Unit) P := fun _ _ he => List.mem_singleton.mp he ▸ h

theorem bind (h : Emits m P) (hf : ∀ a, Emits (f a) P) : Emits (m >>= f) P := fun w e he => by
  rcases mem_events_bind he with he | ⟨a, w', he⟩
  · exact h w e he
  · exact hf a w' e he

theorem call_bind {g : Nat → α} {f : α → Prog Nat E β} (h : ∀ k, Emits (f (g k)) P) :
    Emits (Prog.call g >>= f) P := fun k => by
  rw [call_bind_run]
  exact h k (k + 1)

theorem loop {f : β → α → Prog W E β} {as : List α} (h : ∀ b, ∀ a ∈ as, Emits (f b a) P) (b : β) :
    Emits (loop f b as) P := by
  induction as generalizing b with
  | nil => exact pure b
  | cons a as ih =>
    refine bind (h b a (List.mem_cons_self ..)) fun b' => ih (fun b a ha => ?_) b'
    exact h b a (List.mem_cons_of_mem _ ha)

theorem tag {t : E → E'} {P : E' → Prop} (h : Emits m fun e => P (t e)) : Emits (tag t m) P := by
  intro w e' he'
  obtain ⟨e, he, rfl⟩ := List.mem_map.mp he'
  exact h w e he

/-- Marks that change no event change nothing. -/
theorem tag_eq {t : E → E} (h : Emits m fun e => t e = e) : Prog.tag t m = m := Prog.ext fun w => by
  have hevents : (m.run w).events.map t = (m.run w).events := (List.map_congr_left (h w)).trans (List.map_id _)
  rw [tag_run, hevents]

end Emits

/-! ## Counting events -/

def AtMost (n : Nat) (p : E → Bool) (m : Prog W E α) : Prop := ∀ w, (m.run w).events.countP p ≤ n

namespace AtMost

variable {n k : Nat} {p : E → Bool}

theorem mono (h : AtMost n p m) (hn : n ≤ k) : AtMost k p m := fun w => Nat.le_trans (h w) hn

theorem of_emits (h : Emits m fun e => ¬ p e) : AtMost 0 p m := fun w =>
  Nat.le_of_eq (List.countP_eq_zero.mpr (h w))

theorem bind (h : AtMost n p m) (hf : ∀ a, AtMost k p (f a)) : AtMost (n + k) p (m >>= f) := fun w => by
  have hm := h w
  rcases hr : m.run w with ⟨_ | a, es, w₁⟩
  · rw [hr] at hm
    rw [bind_run_of_none hr]
    show es.countP p ≤ n + k
    exact Nat.le_trans hm (Nat.le_add_right n k)
  · rw [hr] at hm
    rw [bind_run_of_some hr]
    show (es ++ ((f a).run w₁).events).countP p ≤ n + k
    rw [List.countP_append]
    exact Nat.add_le_add hm (hf a w₁)

/-- A call emits nothing. -/
theorem call_bind {p : E → Bool} {g : Nat → α} {f : α → Prog Nat E β} (h : ∀ a, AtMost n p (f a)) :
    AtMost n p (Prog.call g >>= f) := fun k => by
  rw [call_bind_run]
  exact h (g k) (k + 1)

theorem of_imp {q : E → Bool} (h : AtMost n q m) (hpq : ∀ e, p e → q e) : AtMost n p m := fun w =>
  Nat.le_trans (List.countP_mono_left fun e _ => hpq e) (h w)

/-- A loop over elements with different keys, of which one key has the events. -/
theorem loop_once {κ : Type} {f : β → α → Prog W E β} {key : α → κ} {c : κ} {as : List α}
    (hnd : (as.map key).Nodup) (h : ∀ b a, key a = c → AtMost n p (f b a))
    (h0 : ∀ b a, key a ≠ c → AtMost 0 p (f b a)) (b : β) : AtMost n p (loop f b as) := by
  induction as generalizing b with
  | nil => exact .mono (.of_emits (.pure b)) (Nat.zero_le n)
  | cons a as ih =>
    obtain ⟨ha, hnd⟩ := List.nodup_cons.mp hnd
    by_cases hc : key a = c
    · refine bind (k := 0) (h b a hc) fun b' => ?_
      -- no other element has the key
      have hne : ∀ a' ∈ as, key a' ≠ c := fun a' ha' hc' => ha (hc.trans hc'.symm ▸ List.mem_map_of_mem ha')
      refine of_emits (Emits.loop (P := fun e => ¬ p e) (fun b a' ha' => ?_) b')
      exact fun w => List.countP_eq_zero.mp (Nat.le_zero.mp (h0 b a' (hne a' ha') w))
    · exact .mono (bind (n := 0) (h0 b a hc) fun b' => ih hnd b') (Nat.le_of_eq (Nat.zero_add n))

theorem tag {t : E → E'} {p : E' → Bool} (h : AtMost n (p ∘ t) m) : AtMost n p (tag t m) := fun w => by
  show ((m.run w).events.map t).countP p ≤ n
  rw [List.countP_map]
  exact h w

end AtMost

/-! ## What is returned -/

def Returns (m : Prog W E α) (Q : α → Prop) : Prop := ∀ w a, (m.run w).result = some a → Q a

namespace Returns

variable {Q : α → Prop}

theorem pure {a : α} (h : Q a) : Returns (pure a : Prog W E α) Q := fun _ _ ha => Option.some.inj ha ▸ h

theorem stop : Returns (stop : Prog W E α) Q := fun _ _ ha => nomatch ha

theorem bind {Q : β → Prop} (hf : ∀ a, Returns (f a) Q) : Returns (m >>= f) Q := fun w b hb => by
  rcases hm : m.run w with ⟨_ | a, es, w₁⟩
  · rw [bind_run_of_none hm] at hb
    cases hb
  · rw [bind_run_of_some hm] at hb
    exact hf a w₁ b hb

theorem call_bind {Q : β → Prop} {g : Nat → α} {f : α → Prog Nat E β} (h : ∀ k, Returns (f (g k)) Q) :
    Returns (Prog.call g >>= f) Q := fun k => by
  rw [call_bind_run]
  exact h k (k + 1)

end Returns

/-- What follows may rely on what the first part returns. -/
theorem Emits.bind_of_returns {Q : α → Prop} (h : Emits m P) (hr : Returns m Q) (hf : ∀ a, Q a → Emits (f a) P) :
    Emits (m >>= f) P := fun w e he => by
  rcases hm : m.run w with ⟨_ | a, es, w₁⟩
  · rw [bind_run_of_none hm] at he
    have hP := h w
    rw [hm] at hP
    exact hP e he
  · have hP := h w
    have hQ := hr w
    rw [hm] at hP hQ
    rw [bind_run_of_some hm] at he
    rcases List.mem_append.mp he with he | he
    · exact hP e he
    · exact hf a (hQ a rfl) w₁ e he

end Prog

end Framework
