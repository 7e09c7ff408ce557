import Mathlib.Algebra.Order.Group.Multiset
import Mathlib.Tactic.Abel
import RemoteDebugger.Framework.Prog
import RemoteDebugger.Framework.Run

/-!
# Programs that allocate

`malloc`, `free` and `use` are events of a program, on blocks that no two
allocations share. `MemAct.step` is the ledger of the live blocks: it has no
step for a `free` or a `use` of a block that is not live.

`Refines Left own P Q out R`: from the blocks `own`, and whatever other blocks
are live, the ledger takes every step of `P`; `P` does what `Q` does, which is a
program without memory; it returns with the blocks `out`, and leaves no other
block of its own behind than those of the kinds `Left`.

* `Refines.bind`, `Refines.leave`, `Refines.imp`, `Refines.loop`: the structural rules;
* `Refines.malloc`, `Refines.free`, `Refines.use`, `Refines.lift`, `Refines.peek`: a rule for each operation.
-/

namespace Framework

variable {K W E E' α β γ δ : Type}

/-- An allocation: its number, and where in the program it is made. -/
structure Block (K : Type) where
  id : Nat
  site : K
  deriving DecidableEq, Repr

inductive MemAct (K : Type) where
  | alloc (b : Block K)
  | free (b : Block K)
  | use (b : Block K)
  deriving DecidableEq, Repr

/-- The block of a pointer, if it is not NULL. -/
def ofPtr (b : Option (Block K)) : Multiset (Block K) := b.toList

/-- The live blocks after an action, if it is one on live blocks. -/
def MemAct.step [DecidableEq K] (live : Multiset (Block K)) : MemAct K → Option (Multiset (Block K))
  | .alloc b => if b ∈ live then none else some (b ::ₘ live)
  | .free b => if b ∈ live then some (live.erase b) else none
  | .use b => if b ∈ live then some live else none

/-- The events of a program that allocates. -/
abbrev MemEvent (K E : Type) := MemAct K ⊕ E

def memActs (es : List (MemEvent K E)) : List (MemAct K) := es.filterMap Sum.getLeft?

def effects (es : List (MemEvent K E)) : List E := es.filterMap Sum.getRight?

@[simp] theorem memActs_append (es es' : List (MemEvent K E)) : memActs (es ++ es') = memActs es ++ memActs es' :=
  List.filterMap_append

@[simp] theorem effects_append (es es' : List (MemEvent K E)) : effects (es ++ es') = effects es ++ effects es' :=
  List.filterMap_append

@[simp] theorem memActs_inr (es : List E) : memActs (es.map (.inr : E → MemEvent K E)) = [] := by
  simp [memActs]

@[simp] theorem effects_inr (es : List E) : effects (es.map (.inr : E → MemEvent K E)) = es :=
  List.filterMap_map.trans List.filterMap_some

@[simp] theorem memActs_inl (as : List (MemAct K)) : memActs (as.map (.inl : MemAct K → MemEvent K E)) = as :=
  List.filterMap_map.trans List.filterMap_some

@[simp] theorem effects_inl (as : List (MemAct K)) : effects (as.map (.inl : MemAct K → MemEvent K E)) = [] := by
  simp [effects]

section Ledger

variable [DecidableEq K] {live live' : Multiset (Block K)} {bs : List (Block K)}

/-- Reads of live blocks, and only those, are steps of the ledger. -/
theorem exec_use : exec MemAct.step live (bs.map .use) = if ∀ b ∈ bs, b ∈ live then some live else none := by
  induction bs with
  | nil => simp [exec]
  | cons b bs ih =>
    rw [List.map_cons, exec, MemAct.step]
    by_cases hb : b ∈ live
    · rw [if_pos hb, Option.bind_some, ih]
      simp [hb]
    · rw [if_neg hb, Option.bind_none, if_neg (by simp [hb])]

/-- No block is live twice. -/
theorem exec_nodup {as : List (MemAct K)} (h : exec MemAct.step live as = some live') (hlive : live.Nodup) :
    live'.Nodup := by
  induction as generalizing live with
  | nil =>
    cases h
    exact hlive
  | cons a as ih =>
    obtain ⟨live₁, hstep, hexec⟩ := Option.bind_eq_some_iff.mp h
    refine ih hexec ?_
    cases a <;>
      simp only [MemAct.step, Option.ite_none_left_eq_some, Option.ite_none_right_eq_some, Option.some.injEq] at hstep
    case alloc b => exact hstep.2 ▸ Multiset.nodup_cons.mpr ⟨hstep.1, hlive⟩
    case free b => exact hstep.2 ▸ hlive.erase b
    case use b => exact hstep.2 ▸ hlive

end Ledger

namespace Prog

/-- Actions on the memory. -/
def acts (as : List (MemAct K)) : Prog (W × Nat) (MemEvent K E) Unit :=
  ⟨fun w => ⟨some (), as.map .inl, w⟩⟩

/-- A new block. The world counts the allocations. -/
def malloc (site : K) : Prog (W × Nat) (MemEvent K E) (Block K) :=
  ⟨fun w => ⟨some ⟨w.2, site⟩, [.inl (.alloc ⟨w.2, site⟩)], (w.1, w.2 + 1)⟩⟩

/-- `free`, which does nothing to NULL. -/
def free (b : Option (Block K)) : Prog (W × Nat) (MemEvent K E) Unit := acts (b.toList.map .free)

/-- Read or write blocks. -/
def use (bs : List (Block K)) : Prog (W × Nat) (MemEvent K E) Unit := acts (bs.map .use)

/-- A program without memory. -/
def lift (m : Prog W E α) : Prog (W × Nat) (MemEvent K E) α := ⟨fun w =>
  ⟨(m.run w.1).result, (m.run w.1).events.map .inr, ((m.run w.1).world, w.2)⟩⟩

/-- An answer of the world, which is not a call that it counts. -/
def peek (f : W → α) : Prog (W × Nat) (MemEvent K E) α := ⟨fun w => ⟨some (f w.1), [], w⟩⟩

/-! ## The judgement -/

/-- How `P` and `Q` end: both with results, and then the live blocks are those of
the result, blocks that may be left, and the frame; or neither with a result. -/
inductive Ends (Left : Block K → Prop) (out : α → Multiset (Block K)) (R : α → β → Prop)
    (frame live : Multiset (Block K)) : Option α → Option β → Prop where
  | returns {a : α} {b : β} (h : R a b) (left : Multiset (Block K)) (hleft : ∀ x ∈ left, Left x)
      (hlive : live = out a + left + frame) : Ends Left out R frame live (some a) (some b)
  | stops : Ends Left out R frame live none none

/-- Where no block may be left, those of the result are all. -/
theorem Ends.exact {out : α → Multiset (Block K)} {R : α → β → Prop} {frame live : Multiset (Block K)} {r : Option α}
    {r' : Option β} (h : Ends (fun _ => False) out R frame live r r') :
    r = none ∧ r' = none ∨ ∃ a b, r = some a ∧ r' = some b ∧ R a b ∧ live = out a + frame := by
  cases h with
  | @returns a b hR left hleft hlive =>
    rw [Multiset.eq_zero_of_forall_notMem hleft, add_zero] at hlive
    exact .inr ⟨a, b, rfl, rfl, hR, hlive⟩
  | stops => exact .inl ⟨rfl, rfl⟩

def IdsBelow (n : Nat) (live : Multiset (Block K)) : Prop := ∀ b ∈ live, b.id < n

variable [DecidableEq K]

def Refines (Left : Block K → Prop) (own : Multiset (Block K)) (P : Prog (W × Nat) (MemEvent K E) α)
    (Q : Prog W E β) (out : α → Multiset (Block K)) (R : α → β → Prop) : Prop :=
  ∀ frame w n, IdsBelow n (own + frame) →
    effects (P.run (w, n)).events = (Q.run w).events ∧
    (P.run (w, n)).world.1 = (Q.run w).world ∧
    n ≤ (P.run (w, n)).world.2 ∧
    ∃ live, exec MemAct.step (own + frame) (memActs (P.run (w, n)).events) = some live ∧
      IdsBelow (P.run (w, n)).world.2 live ∧ Ends Left out R frame live (P.run (w, n)).result (Q.run w).result

namespace Refines

variable {Left : Block K → Prop} {own F : Multiset (Block K)} {P : Prog (W × Nat) (MemEvent K E) α} {Q : Prog W E β}
  {out : α → Multiset (Block K)} {R : α → β → Prop} {f : α → Prog (W × Nat) (MemEvent K E) γ} {g : β → Prog W E δ}
  {out' : γ → Multiset (Block K)} {R' : γ → δ → Prop}

theorem pure {a : α} {b : β} (h : R a b) (hown : own = out a) :
    Refines Left own (pure a : Prog (W × Nat) (MemEvent K E) α) (pure b : Prog W E β) out R :=
  fun _ _ _ hn => ⟨rfl, rfl, le_rfl, _, rfl, hn, .returns h 0 (by simp) (by rw [add_zero, hown])⟩

theorem stop : Refines Left own (stop : Prog (W × Nat) (MemEvent K E) α) (stop : Prog W E β) out R :=
  fun _ _ _ hn => ⟨rfl, rfl, le_rfl, _, rfl, hn, .stops⟩

/-- A sequence runs its parts in turn. -/
theorem bind (h : Refines Left own P Q out R) (hf : ∀ a b, R a b → Refines Left (out a) (f a) (g b) out' R') :
    Refines Left own (P >>= f) (Q >>= g) out' R' := fun frame w n hn => by
  obtain ⟨heffects, hworld, hle, live, hexec, hbelow, hends⟩ := h frame w n hn
  rcases hP : P.run (w, n) with ⟨r, es, w₁, n₁⟩
  rcases hQ : Q.run w with ⟨r', es', w₁'⟩
  rw [hP] at heffects hworld hle hexec hbelow hends
  rw [hQ] at heffects hworld hends
  dsimp only at heffects hworld hle hexec hbelow hends
  subst heffects hworld
  cases hends with
  | stops =>
    rw [bind_run_of_none hP, bind_run_of_none hQ]
    exact ⟨rfl, rfl, hle, live, hexec, hbelow, .stops⟩
  | @returns a b hR left hleft hlive =>
    rw [bind_run_of_some hP, bind_run_of_some hQ]
    rw [hlive, add_assoc] at hbelow hexec
    obtain ⟨heffects', hworld', hle', live', hexec', hbelow', hends'⟩ := hf a b hR (left + frame) w₁ n₁ hbelow
    refine ⟨?_, hworld', hle.trans hle', live', ?_, hbelow', ?_⟩
    · rw [effects_append, heffects']
    · rw [memActs_append]
      exact exec_append hexec hexec'
    · -- what the first part leaves is left by the sequence
      generalize hr : ((f a).run (w₁, n₁)).result = r at hends' ⊢
      generalize hr' : ((g b).run w₁).result = r' at hends' ⊢
      cases hends' with
      | returns hR' left' hleft' hlive' =>
        refine .returns hR' (left' + left) (fun x hx => ?_) (by rw [hlive']; abel)
        exact (Multiset.mem_add.mp hx).elim (hleft' x) (hleft x)
      | stops => exact .stops

theorem of_bind_pure (h : Refines Left own P (Q >>= Pure.pure) out R) : Refines Left own P Q out R := by
  rwa [bind_pure] at h

theorem of_bind_pure₂ (h : Refines Left own (P >>= Pure.pure) (Q >>= Pure.pure) out R) :
    Refines Left own P Q out R := by
  rwa [bind_pure, bind_pure] at h

/-- What a value refines ends with that value. -/
theorem eq_of_pure {b : β} (h : Refines Left own P (Pure.pure b) out R) :
    Refines Left own P (Pure.pure b) out fun a b' => R a b' ∧ b' = b := fun frame w n hn => by
  obtain ⟨heffects, hworld, hle, live, hexec, hbelow, hends⟩ := h frame w n hn
  refine ⟨heffects, hworld, hle, live, hexec, hbelow, ?_⟩
  generalize (P.run (w, n)).result = r at hends ⊢
  cases hends with
  | returns hR left hleft hlive => exact .returns ⟨hR, rfl⟩ left hleft hlive

/-- Blocks that may be left are left. -/
theorem leave (left : Multiset (Block K)) (own' : Multiset (Block K)) (hown : own = left + own')
    (hleft : ∀ x ∈ left, Left x) (h : Refines Left own' P Q out R) : Refines Left own P Q out R := fun frame w n hn => by
  have hframe : own + frame = own' + (left + frame) := by rw [hown]; abel
  rw [hframe] at hn ⊢
  obtain ⟨heffects, hworld, hle, live, hexec, hbelow, hends⟩ := h (left + frame) w n hn
  refine ⟨heffects, hworld, hle, live, hexec, hbelow, ?_⟩
  generalize (P.run (w, n)).result = r at hends ⊢
  generalize (Q.run w).result = r' at hends ⊢
  cases hends with
  | returns hR left' hleft' hlive =>
    refine .returns hR (left' + left) (fun x hx => ?_) (by rw [hlive]; abel)
    exact (Multiset.mem_add.mp hx).elim (hleft' x) (hleft x)
  | stops => exact .stops

theorem imp {out₁ : α → Multiset (Block K)} {R₁ : α → β → Prop} (h : Refines Left own P Q out R)
    (hR : ∀ a b, R a b → R₁ a b ∧ out a = out₁ a) : Refines Left own P Q out₁ R₁ := fun frame w n hn => by
  obtain ⟨heffects, hworld, hle, live, hexec, hbelow, hends⟩ := h frame w n hn
  refine ⟨heffects, hworld, hle, live, hexec, hbelow, ?_⟩
  generalize (P.run (w, n)).result = r at hends ⊢
  generalize (Q.run w).result = r' at hends ⊢
  cases hends with
  | returns h left hleft hlive =>
    obtain ⟨hR₁, hout⟩ := hR _ _ h
    exact .returns hR₁ left hleft (hout ▸ hlive)
  | stops => exact .stops

/-! ### The operations -/

theorem malloc {site : K} {Q : Prog W E δ} {f : Block K → Prog (W × Nat) (MemEvent K E) γ}
    (h : ∀ b, b.site = site → Refines Left ({b} + own) (f b) Q out' R') :
    Refines Left own (Prog.malloc site >>= f) Q out' R' := fun frame w n hn => by
  have hfresh : (⟨n, site⟩ : Block K) ∉ own + frame := fun hmem => lt_irrefl _ (hn _ hmem)
  have hcons : ({⟨n, site⟩} + own + frame : Multiset (Block K)) = ⟨n, site⟩ ::ₘ (own + frame) := by
    rw [add_assoc, Multiset.singleton_add]
  obtain ⟨heffects, hworld, hle, live, hexec, hrest⟩ := h ⟨n, site⟩ rfl frame w (n + 1) fun b hb => by
    rw [hcons] at hb
    rcases Multiset.mem_cons.mp hb with rfl | hb
    · exact Nat.lt_succ_self n
    · exact Nat.lt_succ_of_lt (hn b hb)
  refine ⟨heffects, hworld, (Nat.le_succ n).trans hle, live, ?_, hrest⟩
  refine exec_cons (t := ⟨n, site⟩ ::ₘ (own + frame)) ?_ (hcons ▸ hexec)
  rw [MemAct.step, if_neg hfresh]

theorem acts {as : List (MemAct K)} {own' : Multiset (Block K)} {Q : Prog W E δ}
    {f : Unit → Prog (W × Nat) (MemEvent K E) γ}
    (hexec : ∀ frame, exec MemAct.step (own + frame) as = some (own' + frame)) (hle : own' ≤ own)
    (h : Refines Left own' (f ()) Q out' R') : Refines Left own (Prog.acts as >>= f) Q out' R' := fun frame w n hn => by
  obtain ⟨heffects, hworld, hle', live, hexec', hrest⟩ := h frame w n fun b hb =>
    hn b (Multiset.mem_of_le (add_le_add_left hle frame) hb)
  have hrun : (Prog.acts as >>= f).run (w, n) = ⟨((f ()).run (w, n)).result,
      as.map .inl ++ ((f ()).run (w, n)).events, ((f ()).run (w, n)).world⟩ := rfl
  rw [hrun]
  refine ⟨?_, hworld, hle', live, ?_, hrest⟩
  · rw [effects_append, effects_inl, List.nil_append, heffects]
  · rw [memActs_append, memActs_inl]
    exact exec_append (hexec frame) hexec'

theorem free {b : Option (Block K)} (own' : Multiset (Block K)) {Q : Prog W E δ}
    {f : Unit → Prog (W × Nat) (MemEvent K E) γ} (hown : own = ofPtr b + own')
    (h : Refines Left own' (f ()) Q out' R') : Refines Left own (Prog.free b >>= f) Q out' R' := by
  refine acts (fun frame => ?_) (hown ▸ Multiset.le_add_left own' _) h
  cases b with
  | none =>
    rw [hown, ofPtr]
    simp [exec]
  | some b =>
    have hcons : own + frame = b ::ₘ (own' + frame) := by
      rw [hown, ofPtr]
      simp
    rw [hcons]
    simp [exec, MemAct.step]

theorem use {bs : List (Block K)} {Q : Prog W E δ} {f : Unit → Prog (W × Nat) (MemEvent K E) γ}
    (hbs : ∀ b ∈ bs, b ∈ own) (h : Refines Left own (f ()) Q out' R') :
    Refines Left own (Prog.use bs >>= f) Q out' R' := by
  refine acts (fun frame => ?_) le_rfl h
  rw [exec_use, if_pos fun b hb => Multiset.mem_add.mpr (.inl (hbs b hb))]

theorem lift {own : Multiset (Block K)} (m : Prog W E α) :
    Refines Left own (Prog.lift m) m (fun _ => own) Eq := fun frame w n hn => by
  refine ⟨effects_inr _, rfl, le_rfl, own + frame, by rw [Prog.lift]; simp [exec], hn, ?_⟩
  show Ends Left _ Eq frame (own + frame) (m.run w).result (m.run w).result
  cases (m.run w).result with
  | none => exact .stops
  | some a => exact .returns rfl 0 (by simp) (by rw [add_zero])

theorem lift_bind {m : Prog W E α} {f : α → Prog (W × Nat) (MemEvent K E) γ} {g : α → Prog W E δ}
    (h : ∀ a, Refines Left own (f a) (g a) out' R') : Refines Left own (Prog.lift m >>= f) (m >>= g) out' R' :=
  (lift m).bind fun a _ hab => hab ▸ h a

theorem peek {h : W → α} {Q : Prog W E δ} {f : α → Prog (W × Nat) (MemEvent K E) γ}
    (hf : ∀ a, Refines Left own (f a) Q out' R') : Refines Left own (Prog.peek h >>= f) Q out' R' :=
  fun frame w n hn => hf (h w) frame w n hn

/-- A loop keeps what its body keeps. -/
theorem loop {ι : Type} {p : α → ι → Prog (W × Nat) (MemEvent K E) α} {q : β → ι → Prog W E β} {is : List ι}
    (h : ∀ a b, R a b → ∀ i ∈ is, Refines Left (out a) (p a i) (q b i) out R) {a : α} {b : β} (hab : R a b)
    (hown : own = out a) : Refines Left own (Prog.loop p a is) (Prog.loop q b is) out R := by
  induction is generalizing own a b with
  | nil => exact pure hab hown
  | cons i is ih =>
    rw [hown]
    refine bind (h a b hab i List.mem_cons_self) fun a' b' hab' => ih (fun a b hR j hj => ?_) hab' rfl
    exact h a b hR j (List.mem_cons_of_mem _ hj)

/-- A loop over places keeps what its body at each place hands to the next. -/
theorem loop_zipIdx {ι : Type} {p : α → ι × Nat → Prog (W × Nat) (MemEvent K E) α} {q : β → ι × Nat → Prog W E β}
    {is : List ι} (out : Nat → α → Multiset (Block K)) (R : Nat → α → β → Prop)
    (h : ∀ k a b, R k a b → ∀ i ∈ is, Refines Left (out k a) (p a (i, k)) (q b (i, k)) (out (k + 1)) (R (k + 1)))
    {k : Nat} {a : α} {b : β} (hab : R k a b) : Refines Left (out k a) (Prog.loop p a (is.zipIdx k))
      (Prog.loop q b (is.zipIdx k)) (out (k + is.length)) (R (k + is.length)) := by
  induction is generalizing k a b with
  | nil => exact pure hab rfl
  | cons i is ih =>
    have hlen : k + (i :: is).length = k + 1 + is.length := by rw [List.length_cons]; omega
    rw [hlen]
    refine bind (h k a b hab i List.mem_cons_self) fun a' b' hab' => ih (fun k a b hR j hj => ?_) hab'
    exact h k a b hR j (List.mem_cons_of_mem _ hj)

theorem tag (t : E → E') (h : Refines Left own P Q out R) :
    Refines Left own (Prog.tag (Sum.map id t : MemEvent K E → MemEvent K E') P) (Prog.tag t Q) out R := fun frame w n hn => by
  obtain ⟨heffects, hworld, hle, live, hexec, hrest⟩ := h frame w n hn
  have hacts : ∀ es : List (MemEvent K E), memActs (es.map (Sum.map id t)) = memActs es := fun es => by
    rw [memActs, List.filterMap_map, memActs]
    exact congrArg (List.filterMap · es) (funext fun e => by cases e <;> rfl)
  have heff : ∀ es : List (MemEvent K E), effects (es.map (Sum.map id t)) = (effects es).map t := fun es => by
    rw [effects, List.filterMap_map, effects, List.map_filterMap]
    exact congrArg (List.filterMap · es) (funext fun e => by cases e <;> rfl)
  refine ⟨?_, hworld, hle, live, ?_, hrest⟩
  · rw [tag_run, tag_run, heff, heffects]
  · rw [tag_run, hacts]
    exact hexec

end Refines

end Prog

end Framework
