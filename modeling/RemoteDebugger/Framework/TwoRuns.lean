import Mathlib.Data.List.Forall2
import RemoteDebugger.Framework.Prog

/-!
# Two runs

`Alike R m w m' w'`: the runs of `m` from `w` and of `m'` from `w'` end alike,
with related events. The worlds they end in need not be related.

* `bind`: sequences run alike, whose parts do from any worlds;
* `bind_same`: so do sequences that begin with one part in one world.
-/

namespace Framework.Prog

variable {W E α β : Type} {R : E → E → Prop} {m m' : Prog W E α} {f f' : α → Prog W E β} {w w' : W}

structure Alike (R : E → E → Prop) (m : Prog W E α) (w : W) (m' : Prog W E α) (w' : W) : Prop where
  result : (m.run w).result = (m'.run w').result
  events : List.Forall₂ R (m.run w).events (m'.run w').events

namespace Alike

theorem pure (a : α) : Alike R (pure a : Prog W E α) w (Pure.pure a) w' := ⟨rfl, .nil⟩

theorem emit {e e' : E} (h : R e e') : Alike R (emit e) w (emit e') w' := ⟨rfl, .cons h .nil⟩

theorem ask {g g' : W → α × W} (h : (g w).1 = (g' w').1) : Alike R (ask g) w (ask g') w' := ⟨congrArg some h, .nil⟩

theorem bind (h : Alike R m w m' w') (hf : ∀ a v v', Alike R (f a) v (f' a) v') :
    Alike R (m >>= f) w (m' >>= f') w' := by
  obtain ⟨hresult, hevents⟩ := h
  rcases hm : m.run w with ⟨r, es, v⟩
  rcases hm' : m'.run w' with ⟨r', es', v'⟩
  rw [hm, hm'] at hresult hevents
  obtain rfl : r = r' := hresult
  cases r with
  | none => exact ⟨by rw [bind_run_of_none hm, bind_run_of_none hm'], by rwa [bind_run_of_none hm, bind_run_of_none hm']⟩
  | some a =>
    obtain ⟨hr, he⟩ := hf a v v'
    refine ⟨?_, ?_⟩
    · rw [bind_run_of_some hm, bind_run_of_some hm']
      exact hr
    · rw [bind_run_of_some hm, bind_run_of_some hm']
      exact List.rel_append hevents he

/-- The first part is one run, so what follows it starts in one world. -/
theorem bind_same (hR : ∀ e, R e e) (h : ∀ a es v, m.run w = ⟨some a, es, v⟩ → Alike R (f a) v (f' a) v) :
    Alike R (m >>= f) w (m >>= f') w := by
  rcases hm : m.run w with ⟨_ | a, es, v⟩
  · exact ⟨by rw [bind_run_of_none hm, bind_run_of_none hm],
      by rw [bind_run_of_none hm, bind_run_of_none hm]; exact List.forall₂_same.mpr fun e _ => hR e⟩
  · obtain ⟨hr, he⟩ := h a es v hm
    refine ⟨?_, ?_⟩
    · rw [bind_run_of_some hm, bind_run_of_some hm]
      exact hr
    · rw [bind_run_of_some hm, bind_run_of_some hm]
      exact List.rel_append (List.forall₂_same.mpr fun e _ => hR e) he

end Alike

end Framework.Prog
