import RemoteDebugger.Framework.Prog

/-!
# What a program is bound to emit

A plan is a list of events of one kind, and whether the program stops after
them. `Follows pick m p`: from every world, what `pick` takes from the events of
`m` is the list of `p`, and `m` stops where `p` does.
-/

namespace Framework

structure Plan (C : Type) where
  emitted : List C
  stops : Bool
  deriving DecidableEq

namespace Plan

variable {C D : Type}

/-- Nothing. -/
def done : Plan C := ⟨[], false⟩

def halt : Plan C := ⟨[], true⟩

def andThen (p q : Plan C) : Plan C := if p.stops then p else ⟨p.emitted ++ q.emitted, q.stops⟩

/-- One after the other, to the first that stops. -/
def sequence : List (Plan C) → Plan C := List.foldr andThen done

def map (f : C → D) (p : Plan C) : Plan D := ⟨p.emitted.map f, p.stops⟩

@[simp] theorem andThen_done (p : Plan C) : p.andThen done = p := by
  obtain ⟨cs, _ | _⟩ := p <;> simp [andThen, done]

theorem map_andThen (f : C → D) (p q : Plan C) : (p.andThen q).map f = (p.map f).andThen (q.map f) := by
  obtain ⟨cs, _ | _⟩ := p <;> simp [andThen, map]

theorem map_sequence (f : C → D) (ps : List (Plan C)) : (sequence ps).map f = sequence (ps.map (map f)) := by
  induction ps with
  | nil => rfl
  | cons p ps ih =>
    show (p.andThen (sequence ps)).map f = (p.map f).andThen (sequence (ps.map (map f)))
    rw [map_andThen, ih]

end Plan

namespace Prog

variable {W E C α β : Type} {pick : E → Option C} {m : Prog W E α} {f : α → Prog W E β} {p q : Plan C}

def Follows (pick : E → Option C) (m : Prog W E α) (p : Plan C) : Prop :=
  ∀ w, (m.run w).events.filterMap pick = p.emitted ∧ (m.run w).result.isNone = p.stops

namespace Follows

theorem pure (a : α) : Follows pick (pure a : Prog W E α) .done := fun _ => ⟨rfl, rfl⟩

theorem stop : Follows pick (stop : Prog W E α) .halt := fun _ => ⟨rfl, rfl⟩

theorem ask (g : W → α × W) : Follows pick (ask g) .done := fun _ => ⟨rfl, rfl⟩

theorem call (g : Nat → α) : Follows pick (call g) .done := ask _

theorem emit (e : E) : Follows pick (emit e : Prog W E Unit) ⟨(pick e).toList, false⟩ := fun w => by
  refine ⟨?_, rfl⟩
  show [e].filterMap pick = (pick e).toList
  cases h : pick e <;> simp [h]

theorem bind (h : Follows pick m p) (hf : ∀ a, Follows pick (f a) q) : Follows pick (m >>= f) (p.andThen q) := fun w => by
  obtain ⟨hcs, hstops⟩ := h w
  rcases hm : m.run w with ⟨_ | a, es, w₁⟩
  · rw [hm] at hcs hstops
    rw [bind_run_of_none hm, Plan.andThen, ← hstops]
    exact ⟨hcs, hstops⟩
  · rw [hm] at hcs hstops
    obtain ⟨hcs', hstops'⟩ := hf a w₁
    rw [bind_run_of_some hm, Plan.andThen, ← hstops]
    exact ⟨by rw [List.filterMap_append, hcs, hcs']; rfl, hstops'⟩

/-- A call whose answer is known. -/
theorem call_bind {g : Nat → α} {f : α → Prog Nat E β} (h : ∀ k, Follows pick (f (g k)) p) :
    Follows pick (Prog.call g >>= f) p := fun k => h k (k + 1)

theorem loop {f : β → α → Prog W E β} {as : List α} {plan : α → Plan C} (h : ∀ b a, Follows pick (f b a) (plan a))
    (b : β) : Follows pick (loop f b as) (.sequence (as.map plan)) := by
  induction as generalizing b with
  | nil => exact pure b
  | cons a as ih => exact bind (h b a) fun b' => ih b'

end Follows

end Prog

end Framework
