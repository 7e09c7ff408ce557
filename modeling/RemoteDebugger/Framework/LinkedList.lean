import Mathlib.Data.List.Nodup

/-!
# Doubly linked lists in a heap

A heap maps addresses to nodes (`Heap`); reading or writing through an address
that holds no node is a fault (`none`).

`Seg m p h l q n` says that from the link `h` on the heap holds the list `l`:
its first node points back to `p`, its last node is `q` and points on to `n`.

* `Seg.append_iff`: segments are cut and joined;
* `Seg.frame`: a segment depends on its own nodes only;
* `Seg.unique`, `Seg.nodup`, `Seg.acyclic`: a list that ends has one reading and no cycle;
* `Seg.reaches_iff`, `Seg.walk_eq`: its nodes are those reached along `next`;
* `Seg.setNext`, `Seg.setPrev`, `Seg.unlink`: what the two writes of an unlinking do.
-/

namespace Framework

variable {κ α : Type}

structure Node (κ α : Type) where
  val : α
  next : Option κ
  prev : Option κ
  deriving DecidableEq, Repr

abbrev Heap (κ α : Type) := κ → Option (Node κ α)

/-! ## The heap -/

section Heap

variable [DecidableEq κ]

def Heap.set (m : Heap κ α) (a : κ) (nd : Option (Node κ α)) : Heap κ α :=
  fun b => if b = a then nd else m b

/-- Change the node at an address. -/
def Heap.store (m : Heap κ α) (f : Node κ α → Node κ α) (a : κ) : Option (Heap κ α) :=
  (m a).map fun nd => m.set a (some (f nd))

/-- Change the node behind a link, if there is one. -/
def Heap.storeIf (m : Heap κ α) (f : Node κ α → Node κ α) : Option κ → Option (Heap κ α)
  | none => some m
  | some a => m.store f a

def Heap.free (m : Heap κ α) (a : κ) : Option (Heap κ α) :=
  (m a).map fun _ => m.set a none

@[simp] theorem Heap.set_self (m : Heap κ α) (a : κ) (nd : Option (Node κ α)) : m.set a nd a = nd := if_pos rfl

theorem Heap.set_of_ne (m : Heap κ α) {a b : κ} (nd : Option (Node κ α)) (h : b ≠ a) : m.set a nd b = m b :=
  if_neg h

@[simp] theorem Heap.store_set (m : Heap κ α) (f : Node κ α → Node κ α) (a : κ) (nd : Node κ α) :
    (m.set a (some nd)).store f a = some (m.set a (some (f nd))) := by
  rw [Heap.store, Heap.set_self, Option.map_some, Option.some.injEq]
  funext b
  by_cases hb : b = a <;> simp [Heap.set, hb]

end Heap

/-- The address is that of a node met along `next`. -/
inductive Reaches (m : Heap κ α) : Option κ → κ → Prop where
  | here (a : κ) : Reaches m (some a) a
  | next {a b : κ} {nd : Node κ α} (h : m b = some nd) (hr : Reaches m nd.next a) : Reaches m (some b) a

/-- The nodes along `next`, if `fuel` steps reach the end. -/
def Heap.walk (m : Heap κ α) : Nat → Option κ → Option (List (κ × α))
  | 0, _ => none
  | _ + 1, none => some []
  | fuel + 1, some a =>
    (m a).bind fun nd => (m.walk fuel nd.next).map ((a, nd.val) :: ·)

/-! ## Segments -/

def Seg (m : Heap κ α) : Option κ → Option κ → List (κ × α) → Option κ → Option κ → Prop
  | p, h, [], q, n => h = n ∧ q = p
  | p, h, (a, v) :: l, q, n => h = some a ∧ ∃ k, m a = some ⟨v, k, p⟩ ∧ Seg m (some a) k l q n

namespace Seg

variable {m m' : Heap κ α} {p p' h k n n' q q' : Option κ} {l l' l₁ l₂ : List (κ × α)} {a : κ} {v : α}

theorem append_iff : Seg m p h (l₁ ++ l₂) q n ↔ ∃ r k, Seg m p h l₁ r k ∧ Seg m r k l₂ q n := by
  induction l₁ generalizing p h with
  | nil =>
    constructor
    · intro hs
      exact ⟨p, h, ⟨rfl, rfl⟩, hs⟩
    · rintro ⟨r, k, ⟨rfl, rfl⟩, hs⟩
      exact hs
  | cons e l₁ ih =>
    constructor
    · rintro ⟨rfl, k, hk, hs⟩
      obtain ⟨r, k', h1, h2⟩ := ih.mp hs
      exact ⟨r, k', ⟨rfl, k, hk, h1⟩, h2⟩
    · rintro ⟨r, k', ⟨rfl, k, hk, h1⟩, h2⟩
      exact ⟨rfl, k, hk, ih.mpr ⟨r, k', h1, h2⟩⟩

theorem frame (hs : Seg m p h l q n) (hm : ∀ a ∈ l.map Prod.fst, m' a = m a) : Seg m' p h l q n := by
  induction l generalizing p h with
  | nil => exact hs
  | cons e l ih =>
    obtain ⟨rfl, k, hk, hs⟩ := hs
    rw [List.map_cons, List.forall_mem_cons] at hm
    exact ⟨rfl, k, hm.1.trans hk, ih hs hm.2⟩

theorem unique (hs : Seg m p h l q none) (hs' : Seg m p' h l' q' none) : l = l' := by
  induction l generalizing p p' h l' with
  | nil =>
    obtain ⟨rfl, -⟩ := hs
    cases l' with
    | nil => rfl
    | cons e l' => exact absurd hs'.1 (by simp)
  | cons e l ih =>
    obtain ⟨rfl, k, hk, hs⟩ := hs
    cases l' with
    | nil => exact absurd hs'.1 (by simp)
    | cons e' l' =>
      obtain ⟨he, k', hk', hs'⟩ := hs'
      obtain ⟨a, v⟩ := e
      obtain ⟨a', v'⟩ := e'
      simp only [Option.some.injEq] at he
      subst he
      simp only [hk, Option.some.injEq, Node.mk.injEq] at hk'
      obtain ⟨rfl, rfl, -⟩ := hk'
      rw [ih hs hs']

/-- Two visits to one node would read two lists from it, one longer than the other. -/
theorem nodup (hs : Seg m p h l q none) : (l.map Prod.fst).Nodup := by
  induction l generalizing p h with
  | nil => exact List.nodup_nil
  | cons e l ih =>
    have hs₀ := hs
    obtain ⟨rfl, k, hk, hs⟩ := hs
    refine List.nodup_cons.mpr ⟨fun he => ?_, ih hs⟩
    obtain ⟨⟨a, w⟩, hw, rfl⟩ := List.mem_map.mp he
    obtain ⟨l₁, l₂, rfl⟩ := List.append_of_mem hw
    obtain ⟨r, k', -, h2⟩ := append_iff.mp hs
    have hl := congrArg List.length (hs₀.unique (h2.1 ▸ h2))
    simp only [List.length_cons, List.length_append] at hl
    omega

theorem reaches_iff (hs : Seg m p h l q none) : Reaches m h a ↔ a ∈ l.map Prod.fst := by
  induction l generalizing p h with
  | nil =>
    obtain ⟨rfl, -⟩ := hs
    simp only [List.map_nil, List.not_mem_nil, iff_false]
    intro hr
    cases hr
  | cons e l ih =>
    obtain ⟨rfl, k, hk, hs⟩ := hs
    rw [List.map_cons, List.mem_cons, ← ih hs]
    constructor
    · intro hr
      cases hr with
      | here => exact .inl rfl
      | next hb hr =>
        rw [hk, Option.some.injEq] at hb
        subst hb
        exact .inr hr
    · rintro (rfl | hr)
      · exact .here _
      · exact .next hk hr

theorem walk_eq (hs : Seg m p h l q none) {fuel : Nat} (hf : l.length < fuel) : m.walk fuel h = some l := by
  induction l generalizing p h fuel with
  | nil =>
    obtain ⟨rfl, -⟩ := hs
    obtain ⟨f, rfl⟩ := Nat.exists_eq_succ_of_ne_zero (Nat.ne_of_gt hf)
    rfl
  | cons e l ih =>
    obtain ⟨rfl, k, hk, hs⟩ := hs
    obtain ⟨f, rfl⟩ := Nat.exists_eq_succ_of_ne_zero (Nat.ne_of_gt (Nat.zero_lt_of_lt hf))
    have hf' : l.length < f := Nat.lt_of_succ_lt_succ hf
    have := ih hs hf'
    simp [Heap.walk, hk, this]

/-- A node of the list, cut out. -/
theorem split (hs : Seg m p h l q n) (ha : a ∈ l.map Prod.fst) :
    ∃ l₁ v l₂ r k, l = l₁ ++ (a, v) :: l₂ ∧ Seg m p h l₁ r (some a) ∧ m a = some ⟨v, k, r⟩ ∧
      Seg m (some a) k l₂ q n := by
  obtain ⟨⟨a, v⟩, hv, rfl⟩ := List.mem_map.mp ha
  obtain ⟨l₁, l₂, rfl⟩ := List.append_of_mem hv
  obtain ⟨r, k, h1, rfl, k', hk', h2⟩ := append_iff.mp hs
  exact ⟨l₁, v, l₂, r, k', rfl, h1, hk', h2⟩

theorem acyclic (hs : Seg m p h l q none) (ha : Reaches m h a) {nd : Node κ α} (hnd : m a = some nd) :
    ¬ Reaches m nd.next a := by
  obtain ⟨l₁, v, l₂, r, k, rfl, -, hk, h2⟩ := hs.split (hs.reaches_iff.mp ha)
  have hd := hs.nodup
  rw [hk, Option.some.injEq] at hnd
  subst hnd
  rw [h2.reaches_iff]
  rw [List.map_append, List.map_cons, List.nodup_append] at hd
  exact (List.nodup_cons.mp hd.2.1).1

theorem head_prev (hs : Seg m p h l q none) (ha : h = some a) {nd : Node κ α} (hnd : m a = some nd) : nd.prev = p := by
  subst ha
  cases l with
  | nil => exact absurd hs.1 (by simp)
  | cons e l =>
    obtain ⟨he, k, hk, -⟩ := hs
    obtain rfl := Option.some.inj he
    rw [hk, Option.some.injEq] at hnd
    exact hnd ▸ rfl

/-- A node's successor points back to it. -/
theorem prev_next (hs : Seg m p h l q none) (ha : Reaches m h a) {nd : Node κ α} (hnd : m a = some nd) {b : κ}
    (hb : nd.next = some b) : ∃ nd', m b = some nd' ∧ nd'.prev = some a := by
  obtain ⟨l₁, v, l₂, r, k, rfl, -, hk, h2⟩ := hs.split (hs.reaches_iff.mp ha)
  rw [hk, Option.some.injEq] at hnd
  subst hnd
  cases l₂ with
  | nil => exact absurd (hb.symm.trans h2.1) (by simp)
  | cons e l₂ =>
    obtain ⟨he, k', hk', -⟩ := h2
    have : b = e.1 := Option.some.inj (hb.symm.trans he)
    exact ⟨_, this ▸ hk', rfl⟩

/-! ## Writes -/

variable [DecidableEq κ]

/-- The last node is pointed to another successor; without one, the successor is the new head. -/
theorem setNext (hs : Seg m none h l q n) (hd : (l.map Prod.fst).Nodup) (n' : Option κ) :
    ∃ m', m.storeIf (fun nd => { nd with next := n' }) q = some m' ∧
      Seg m' none (if l = [] then n' else h) l q n' ∧ ∀ b ∉ l.map Prod.fst, m' b = m b := by
  rcases List.eq_nil_or_concat l with rfl | ⟨l₁, ⟨a, v⟩, rfl⟩
  · obtain ⟨rfl, rfl⟩ := hs
    exact ⟨m, rfl, ⟨if_pos rfl, rfl⟩, fun _ _ => rfl⟩
  rw [List.concat_eq_append] at hs hd ⊢
  obtain ⟨r, k, h1, rfl, k', hk, rfl, rfl⟩ := append_iff.mp hs
  have ha : a ∉ l₁.map Prod.fst := by
    simp only [List.map_append, List.map_cons, List.map_nil, List.nodup_append] at hd
    exact fun hm => hd.2.2 a hm a (List.mem_singleton_self a) rfl
  refine ⟨m.set a (some ⟨v, n', r⟩), by simp [Heap.storeIf, Heap.store, hk], ?_, fun b hb => ?_⟩
  · rw [if_neg (by simp)]
    refine append_iff.mpr ⟨r, some a, h1.frame fun b hb => ?_, rfl, n', m.set_self a _, rfl, rfl⟩
    exact m.set_of_ne _ fun he => ha (he ▸ hb)
  · refine m.set_of_ne _ fun he => hb ?_
    simp [he]

/-- The first node is pointed back to another predecessor. -/
theorem setPrev (hs : Seg m p h l q none) (hd : (l.map Prod.fst).Nodup) (p' : Option κ) :
    ∃ m', m.storeIf (fun nd => { nd with prev := p' }) h = some m' ∧
      (∃ q', Seg m' p' h l q' none) ∧ ∀ b ∉ l.map Prod.fst, m' b = m b := by
  cases l with
  | nil =>
    obtain ⟨rfl, rfl⟩ := hs
    exact ⟨m, rfl, ⟨p', rfl, rfl⟩, fun _ _ => rfl⟩
  | cons e l =>
    obtain ⟨a, v⟩ := e
    obtain ⟨rfl, k, hk, hs⟩ := hs
    have ha : a ∉ l.map Prod.fst := (List.nodup_cons.mp hd).1
    refine ⟨m.set a (some ⟨v, k, p'⟩), by simp [Heap.storeIf, Heap.store, hk], ⟨q, rfl, k, m.set_self a _, ?_⟩,
      fun b hb => m.set_of_ne _ fun he => hb (by simp [he])⟩
    exact hs.frame fun b hb => m.set_of_ne _ fun he => ha (he ▸ hb)

/-- The two writes around a node take it out of the list. -/
theorem unlink (hs : Seg m none h (l₁ ++ (a, v) :: l₂) q none) :
    ∃ r k m₁ m₂, m a = some ⟨v, k, r⟩ ∧ m.storeIf (fun nd => { nd with prev := r }) k = some m₁ ∧
      m₁.storeIf (fun nd => { nd with next := k }) r = some m₂ ∧ (l₁ = [] → r = none) ∧
      (h = some a ↔ l₁ = []) ∧ (∃ q', Seg m₂ none (if l₁ = [] then k else h) (l₁ ++ l₂) q' none) ∧
      m₂ a = m a ∧ ∀ b ∉ (l₁ ++ l₂).map Prod.fst, m₂ b = m b := by
  have hd := hs.nodup
  obtain ⟨r, k', h1, rfl, k, hk, h2⟩ := append_iff.mp hs
  simp only [List.map_append, List.map_cons, List.nodup_append, List.nodup_cons, List.mem_cons] at hd
  obtain ⟨hd₁, ⟨ha₂, hd₂⟩, hne⟩ := hd
  have ha₁ : a ∉ l₁.map Prod.fst := fun hm => hne a hm a (.inl rfl) rfl
  obtain ⟨m₁, hm₁, ⟨q', hs₁⟩, hf₁⟩ := h2.setPrev hd₂ r
  have h1' : Seg m₁ none h l₁ r (some a) := h1.frame fun b hb => hf₁ b fun hb' => hne b hb b (.inr hb') rfl
  obtain ⟨m₂, hm₂, hs₂, hf₂⟩ := h1'.setNext hd₁ k
  refine ⟨r, k, m₁, m₂, hk, hm₁, hm₂, ?_, ?_, ⟨q', append_iff.mpr ⟨r, k, hs₂, ?_⟩⟩, ?_, fun b hb => ?_⟩
  · rintro rfl
    exact h1.2
  · cases l₁ with
    | nil => simpa using h1.1
    | cons e l₁ =>
      simp only [h1.1, Option.some.injEq, reduceCtorEq, iff_false]
      exact fun he => ha₁ (by simp [he])
  · exact hs₁.frame fun b hb => hf₂ b fun hb' => hne b hb' b (.inr hb) rfl
  · exact (hf₂ a ha₁).trans (hf₁ a ha₂)
  · rw [List.map_append, List.mem_append, not_or] at hb
    exact (hf₂ b hb.1).trans (hf₁ b hb.2)

end Seg

end Framework
