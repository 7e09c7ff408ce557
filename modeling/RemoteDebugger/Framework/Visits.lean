import RemoteDebugger.Framework.Prog

/-!
# How far a loop comes

A loop that does a program at every element of a list ends where a program stops.
`announce` makes of a program one that says at which element it is begun, and
nothing else.

* `tag_loop`: the events of a loop are marked turn by turn;
* `announced_eq_iff`: a loop comes to all of its elements exactly when no program
  stops but at the last one.
-/

namespace Framework

namespace Prog

variable {W E E' α β : Type}

/-- A program without its events. -/
def mute (m : Prog W E α) : Prog W E' α := ⟨fun w => ⟨(m.run w).result, [], (m.run w).world⟩⟩

/-- The program at an element, with the element for its events. -/
def announce (f : α → Prog W E Unit) (a : α) : Prog W α Unit := emit a >>= fun _ => mute (f a)

theorem announce_run (f : α → Prog W E Unit) (a : α) (w : W) :
    (announce f a).run w = ⟨((f a).run w).result, [a], ((f a).run w).world⟩ := by
  rw [announce, bind_run_of_some (emit_run a w)]
  rfl

theorem tag_loop (t : E → E') (f : β → α → Prog W E β) (b : β) (as : List α) :
    tag t (loop f b as) = loop (fun b a => tag t (f b a)) b as := by
  induction as generalizing b with
  | nil => rfl
  | cons a as ih =>
    show tag t (f b a >>= fun b' => loop f b' as) = tag t (f b a) >>= fun b' => loop _ b' as
    rw [tag_bind]
    exact congrArg _ (funext ih)

/-- No program stops, but perhaps at the last element. -/
def OnlyLastStops (f : α → Prog W E Unit) : List α → W → Prop
  | [], _ | [_], _ => True
  | a :: as, w => ((f a).run w).result.isSome ∧ OnlyLastStops f as ((f a).run w).world

theorem announced_eq_iff (f : α → Prog W E Unit) (as : List α) (w : W) :
    ((loop (fun _ a => announce f a) () as).run w).events = as ↔ OnlyLastStops f as w := by
  induction as generalizing w with
  | nil => exact iff_of_true rfl trivial
  | cons a as ih =>
    have hrun := announce_run f a w
    show ((announce f a >>= fun b => loop (fun _ a => announce f a) b as).run w).events = a :: as ↔ _
    rcases hf : (f a).run w with ⟨_ | ⟨⟩, es, w'⟩
    · -- no other element is announced
      rw [hf] at hrun
      rw [bind_run_of_none hrun]
      cases as with
      | nil => exact iff_of_true rfl trivial
      | cons => exact iff_of_false (by simp) fun h => by simp [OnlyLastStops, hf] at h
    · rw [hf] at hrun
      rw [bind_run_of_some hrun, List.singleton_append, List.cons.injEq, and_iff_right rfl, ih]
      cases as with
      | nil => exact Iff.rfl
      | cons => simp [OnlyLastStops, hf]

end Prog

end Framework
