import Mathlib.Logic.Basic

/-!
# Programs that emit events

`Prog W E α` is a program over a world `W`, which answers its calls: from a
world it emits events, leaves a world and returns a result, or stops early
(`none`: an error return that every caller passes on, or undefined behaviour).

* `bind_run_of_some`, `bind_run_of_none`: a sequence runs its parts in turn;
* `bind_eq_some`: a sequence that returns is its parts, each of which returns;
* `Total.bind`: programs that always return compose.
-/

namespace Framework

/-- What a run ends with. -/
structure Outcome (W E α : Type) where
  result : Option α
  events : List E
  world : W

/-- A program over a world `W` emitting events `E`. -/
structure Prog (W E α : Type) where
  run : W → Outcome W E α

namespace Prog

variable {W E α β γ : Type}

protected def pure (a : α) : Prog W E α := ⟨fun w => ⟨some a, [], w⟩⟩

protected def bind (m : Prog W E α) (f : α → Prog W E β) : Prog W E β := ⟨fun w =>
  let o := m.run w
  match o.result with
  | none => ⟨none, o.events, o.world⟩
  | some a =>
    let o' := (f a).run o.world
    ⟨o'.result, o.events ++ o'.events, o'.world⟩⟩

instance : Monad (Prog W E) where
  pure := Prog.pure
  bind := Prog.bind

/-- Emit an event. -/
def emit (e : E) : Prog W E Unit := ⟨fun w => ⟨some (), [e], w⟩⟩

/-- Stop here. -/
def stop : Prog W E α := ⟨fun w => ⟨none, [], w⟩⟩

/-- A call that the world answers. -/
def ask (f : W → α × W) : Prog W E α := ⟨fun w => ⟨some (f w).1, [], (f w).2⟩⟩

/-- A call answered by its number, in a world that counts the calls. -/
def call (f : Nat → α) : Prog Nat E α := ask fun k => (f k, k + 1)

/-- Mark the events of a program. -/
def tag {E' : Type} (t : E → E') (m : Prog W E α) : Prog W E' α :=
  ⟨fun w => ⟨(m.run w).result, (m.run w).events.map t, (m.run w).world⟩⟩

/-- A loop over a list, with an accumulator. -/
def loop (f : β → α → Prog W E β) : β → List α → Prog W E β
  | b, [] => Prog.pure b
  | b, a :: as => Prog.bind (f b a) fun b' => loop f b' as

/-- Programs that run alike from every world are one program. -/
theorem ext {m m' : Prog W E α} (h : ∀ w, m.run w = m'.run w) : m = m' := by
  cases m
  cases m'
  exact congrArg Prog.mk (funext h)

@[simp] theorem pure_run (a : α) (w : W) : (pure a : Prog W E α).run w = ⟨some a, [], w⟩ := rfl
@[simp] theorem stop_run (w : W) : (stop : Prog W E α).run w = ⟨none, [], w⟩ := rfl

theorem emit_run (e : E) (w : W) : (emit e : Prog W E Unit).run w = ⟨some (), [e], w⟩ := rfl
theorem ask_run (f : W → α × W) (w : W) : (ask f : Prog W E α).run w = ⟨some (f w).1, [], (f w).2⟩ := rfl

theorem bind_run_of_some {m : Prog W E α} {f : α → Prog W E β} {w w₁ : W} {a : α} {es : List E}
    (h : m.run w = ⟨some a, es, w₁⟩) :
    (m >>= f).run w = ⟨((f a).run w₁).result, es ++ ((f a).run w₁).events, ((f a).run w₁).world⟩ := by
  show (Prog.bind m f).run w = _
  simp only [Prog.bind, h]

theorem bind_run_of_none {m : Prog W E α} {f : α → Prog W E β} {w w₁ : W} {es : List E}
    (h : m.run w = ⟨none, es, w₁⟩) : (m >>= f).run w = ⟨none, es, w₁⟩ := by
  show (Prog.bind m f).run w = _
  simp only [Prog.bind, h]

theorem events_bind_pure (g : α → β) (m : Prog W E α) (w : W) :
    ((m >>= fun a => pure (g a)).run w).events = (m.run w).events := by
  rcases hm : m.run w with ⟨_ | a, es, w₁⟩
  · rw [bind_run_of_none hm]
  · rw [bind_run_of_some hm]
    exact List.append_nil es

/-- A sequence that returns is its parts, each of which returns. -/
theorem bind_eq_some {m : Prog W E α} {f : α → Prog W E β} {w w' : W} {b : β} {es : List E} :
    (m >>= f).run w = ⟨some b, es, w'⟩ ↔
      ∃ a es₁ w₁ es₂, m.run w = ⟨some a, es₁, w₁⟩ ∧ (f a).run w₁ = ⟨some b, es₂, w'⟩ ∧ es = es₁ ++ es₂ := by
  constructor
  · intro h
    rcases hm : m.run w with ⟨_ | a, es₁, w₁⟩
    · rw [bind_run_of_none hm] at h
      cases h
    · rw [bind_run_of_some hm] at h
      rcases hf : (f a).run w₁ with ⟨r, es₂, w₂⟩
      rw [hf] at h
      cases h
      exact ⟨a, es₁, w₁, es₂, rfl, hf, rfl⟩
  · rintro ⟨a, es₁, w₁, es₂, h1, h2, rfl⟩
    rw [bind_run_of_some h1, h2]

instance : LawfulMonad (Prog W E) := LawfulMonad.mk' _
  (fun m => ext fun w => by
    show (m >>= Pure.pure).run w = m.run w
    rcases hm : m.run w with ⟨_ | a, es, w₁⟩
    · rw [bind_run_of_none hm]
    · rw [bind_run_of_some hm, pure_run, List.append_nil])
  (fun _ _ => rfl)
  (fun m f g => ext fun w => by
    rcases hm : m.run w with ⟨_ | a, es, w₁⟩
    · rw [bind_run_of_none (bind_run_of_none hm), bind_run_of_none hm]
    · rcases hf : (f a).run w₁ with ⟨_ | b, es', w₂⟩
      · have hmf : (m >>= f).run w = ⟨none, es ++ es', w₂⟩ := by rw [bind_run_of_some hm, hf]
        rw [bind_run_of_none hmf, bind_run_of_some hm, bind_run_of_none hf]
      · have hmf : (m >>= f).run w = ⟨some b, es ++ es', w₂⟩ := by rw [bind_run_of_some hm, hf]
        rw [bind_run_of_some hmf, bind_run_of_some hm, bind_run_of_some hf, List.append_assoc])

/-- A loop depends on its body at the elements of the list. -/
theorem loop_congr {f g : β → α → Prog W E β} {as : List α} (h : ∀ b, ∀ a ∈ as, f b a = g b a) (b : β) :
    loop f b as = loop g b as := by
  induction as generalizing b with
  | nil => rfl
  | cons a as ih =>
    rw [loop, loop, h b a List.mem_cons_self]
    exact congrArg _ (funext fun b' => ih (fun b a ha => h b a (List.mem_cons_of_mem _ ha)) b')

theorem loop_append (f : β → α → Prog W E β) (b : β) (as as' : List α) :
    loop f b (as ++ as') = loop f b as >>= fun b' => loop f b' as' := by
  induction as generalizing b with
  | nil => rfl
  | cons a as ih =>
    show (f b a >>= fun b' => loop f b' (as ++ as')) = (f b a >>= fun b' => loop f b' as) >>= fun b' => loop f b' as'
    rw [bind_assoc]
    exact congrArg _ (funext ih)

theorem loop_flatMap {γ : Type} (f : β → α → Prog W E β) (g : γ → List α) (b : β) (cs : List γ) :
    loop f b (cs.flatMap g) = loop (fun b c => loop f b (g c)) b cs := by
  induction cs generalizing b with
  | nil => rfl
  | cons c cs ih =>
    rw [List.flatMap_cons, loop_append]
    exact congrArg _ (funext ih)

theorem loop_map {γ : Type} (f : β → α → Prog W E β) (g : γ → α) (b : β) (cs : List γ) :
    loop f b (cs.map g) = loop (fun b c => f b (g c)) b cs := by
  induction cs generalizing b with
  | nil => rfl
  | cons c cs ih => exact congrArg _ (funext ih)

theorem loop_singleton (f : β → α → Prog W E β) (b : β) (a : α) : loop f b [a] = f b a := by
  refine ext fun w => ?_
  show (f b a >>= fun b' => loop f b' []).run w = (f b a).run w
  rcases hm : (f b a).run w with ⟨_ | b', es, w₁⟩
  · rw [bind_run_of_none hm]
  · rw [bind_run_of_some hm]
    show (⟨some b', es ++ [], w₁⟩ : Outcome W E β) = _
    rw [List.append_nil]

/-- A loop that comes to an element at which it stops does not return. -/
theorem loop_stops {f : β → α → Prog W E β} {as : List α} {a : α} (ha : a ∈ as) (h : ∀ b, f b a = stop) (b : β) (w : W) :
    ((loop f b as).run w).result = none := by
  induction as generalizing b w with
  | nil => cases ha
  | cons a' as ih =>
    show ((f b a' >>= fun b' => loop f b' as).run w).result = none
    rcases hm : (f b a').run w with ⟨_ | b', es, w₁⟩
    · rw [bind_run_of_none hm]
    · rw [bind_run_of_some hm]
      rcases List.mem_cons.mp ha with rfl | ha
      · rw [h] at hm
        cases hm
      · exact ih ha b' w₁

/-- The results of a program at each element of a list, in turn. -/
def results (f : α → Prog W E β) : List α → Prog W E (List β)
  | [] => Prog.pure []
  | a :: as => f a >>= fun b => results f as >>= fun bs => Prog.pure (b :: bs)

/-! ## Marked events -/

section Tag

variable {E' : Type} (t : E → E')

theorem tag_run (m : Prog W E α) (w : W) :
    (tag t m).run w = ⟨(m.run w).result, (m.run w).events.map t, (m.run w).world⟩ := rfl

@[simp] theorem tag_pure (a : α) : tag t (pure a : Prog W E α) = pure a := rfl
@[simp] theorem tag_stop : tag t (stop : Prog W E α) = stop := rfl
@[simp] theorem tag_emit (e : E) : tag t (emit e : Prog W E Unit) = emit (t e) := rfl
@[simp] theorem tag_call (f : Nat → α) : tag t (call f : Prog Nat E α) = call f := rfl

/-- A sequence is marked part by part. -/
@[simp] theorem tag_bind (m : Prog W E α) (f : α → Prog W E β) : tag t (m >>= f) = tag t m >>= fun a => tag t (f a) := by
  refine ext fun w => ?_
  rcases hm : m.run w with ⟨_ | a, es, w₁⟩
  · have htag : (tag t m).run w = ⟨none, es.map t, w₁⟩ := by rw [tag_run, hm]
    rw [bind_run_of_none htag, tag_run, bind_run_of_none hm]
  · have htag : (tag t m).run w = ⟨some a, es.map t, w₁⟩ := by rw [tag_run, hm]
    rw [bind_run_of_some htag, tag_run, bind_run_of_some hm, List.map_append]
    rfl

end Tag

/-- The program returns from every world. -/
def Total (m : Prog W E α) : Prop := ∀ w, (m.run w).result.isSome

theorem Total.exists_run {m : Prog W E α} (h : m.Total) (w : W) : ∃ a es w', m.run w = ⟨some a, es, w'⟩ := by
  obtain ⟨a, ha⟩ := Option.isSome_iff_exists.mp (h w)
  exact ⟨a, (m.run w).events, (m.run w).world, by rw [← ha]⟩

theorem Total.pure (a : α) : (pure a : Prog W E α).Total := fun _ => rfl

theorem Total.bind {m : Prog W E α} {f : α → Prog W E β} (h : m.Total) (hf : ∀ a, (f a).Total) :
    (m >>= f).Total := fun w => by
  obtain ⟨a, es, w', hm⟩ := h.exists_run w
  rw [bind_run_of_some hm]
  exact hf a w'

/-- What always returns does not stop a sequence. -/
theorem Total.bind_isNone {m : Prog W E α} {f : α → Prog W E β} (hf : ∀ a, (f a).Total) {w : W} :
    ((m >>= f).run w).result = none ↔ (m.run w).result = none := by
  rcases hm : m.run w with ⟨_ | a, es, w'⟩
  · rw [bind_run_of_none hm]
    exact iff_of_true rfl rfl
  · rw [bind_run_of_some hm]
    exact iff_of_false (Option.isSome_iff_ne_none.mp (hf a w')) nofun

end Prog

end Framework
