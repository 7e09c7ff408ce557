import RemoteDebugger.Framework.Prog

/-!
# Which answers a run depends on

`Local ok m m'`: where the answers from the first call of a run of `m` to its
last satisfy `ok`, `m'` runs as `m` does. The rules follow the ways to build a
program; `call` asks for the same answer where `ok` holds.
-/

namespace Framework.Prog

variable {E E' α β : Type} {ok : Nat → Prop} {m m' : Prog Nat E α} {f f' : α → Prog Nat E β}

structure Local (ok : Nat → Prop) (m m' : Prog Nat E α) : Prop where
  forward (k : Nat) : k ≤ (m.run k).world
  run (k : Nat) : (∀ i, k ≤ i → i < (m.run k).world → ok i) → m'.run k = m.run k

namespace Local

theorem pure (a : α) : Local ok (pure a : Prog Nat E α) (Pure.pure a) := ⟨Nat.le_refl, fun _ _ => rfl⟩

theorem stop : Local ok (stop : Prog Nat E α) stop := ⟨Nat.le_refl, fun _ _ => rfl⟩

theorem emit (e : E) : Local ok (emit e) (emit e) := ⟨Nat.le_refl, fun _ _ => rfl⟩

theorem call {g g' : Nat → α} (h : ∀ i, ok i → g' i = g i) : Local ok (call g : Prog Nat E α) (call g') where
  forward := Nat.le_succ
  run k hok := by
    show (⟨some (g' k), [], k + 1⟩ : Outcome Nat E α) = ⟨some (g k), [], k + 1⟩
    rw [h k (hok k (Nat.le_refl k) (Nat.lt_succ_self k))]

theorem bind (h : Local ok m m') (hf : ∀ a, Local ok (f a) (f' a)) : Local ok (m >>= f) (m' >>= f') where
  forward k := by
    have hm := h.forward k
    rcases hrun : m.run k with ⟨_ | a, es, k₁⟩
    · rw [bind_run_of_none hrun]
      rwa [hrun] at hm
    · rw [bind_run_of_some hrun]
      rw [hrun] at hm
      exact Nat.le_trans hm ((hf a).forward k₁)
  run k hok := by
    rcases hrun : m.run k with ⟨_ | a, es, k₁⟩
    · rw [bind_run_of_none hrun] at hok ⊢
      refine bind_run_of_none ((h.run k fun i hi hlt => hok i hi ?_).trans hrun)
      rwa [hrun] at hlt
    · rw [bind_run_of_some hrun] at hok ⊢
      have hk : k ≤ k₁ := by
        have := h.forward k
        rwa [hrun] at this
      -- the calls of `m` come before those of `f a`
      have hm : m'.run k = ⟨some a, es, k₁⟩ := by
        refine (h.run k fun i hi hlt => hok i hi ?_).trans hrun
        rw [hrun] at hlt
        exact Nat.lt_of_lt_of_le hlt ((hf a).forward k₁)
      have hfa : (f' a).run k₁ = (f a).run k₁ := (hf a).run k₁ fun i hi hlt => hok i (Nat.le_trans hk hi) hlt
      rw [bind_run_of_some hm, hfa]

theorem loop {f f' : β → α → Prog Nat E β} {as : List α} (h : ∀ b a, Local ok (f b a) (f' b a)) (b : β) :
    Local ok (loop f b as) (loop f' b as) := by
  induction as generalizing b with
  | nil => exact pure b
  | cons a as ih => exact bind (h b a) fun b' => ih b'

end Local

end Framework.Prog
