import Mathlib.Data.List.Basic

/-!
# Sequences of assignments

A list of pairs of a key and a value is a sequence of assignments, the first
one made first. `lastSet k l` is the value last given to `k` (`lastSet_append`,
`lastSet_eq_none`, `lastSet_filter`), and what a record holds after the sequence: `get_foldl_put`.
Among keys that differ, the first element with a key is the one with it: `find?_iff_of_nodup`.
-/

namespace Framework

variable {κ α σ : Type} [DecidableEq κ] {k : κ} {l l' : List (κ × α)}

def lastSet (k : κ) : List (κ × α) → Option α
  | [] => none
  | (k', v) :: l => (lastSet k l).or (if k' = k then some v else none)

@[simp] theorem lastSet_nil : lastSet k ([] : List (κ × α)) = none := rfl

theorem lastSet_append : lastSet k (l ++ l') = (lastSet k l').or (lastSet k l) := by
  induction l with
  | nil => simp
  | cons a l ih => simp [lastSet, ih, Option.or_assoc]

theorem lastSet_eq_none : lastSet k l = none ↔ k ∉ l.map Prod.fst := by
  induction l with
  | nil => simp
  | cons a l ih =>
    have ha : (if a.1 = k then some a.2 else none) = none ↔ ¬ k = a.1 := by simp [eq_comm]
    rw [lastSet, Option.or_eq_none_iff, ih, ha, List.map_cons, List.mem_cons, not_or, and_comm]

theorem lastSet_mem {v : α} (h : lastSet k l = some v) : (k, v) ∈ l := by
  induction l with
  | nil => simp at h
  | cons a l ih =>
    rw [lastSet, Option.or_eq_some_iff] at h
    rcases h with h | ⟨-, h⟩
    · exact List.mem_cons_of_mem _ (ih h)
    · split at h
      · rename_i ha
        simp [← ha, ← Option.some.inj h]
      · exact absurd h (by simp)

theorem lastSet_filter_none {p : κ × α → Bool} (h : lastSet k l = none) : lastSet k (l.filter p) = none := by
  rw [lastSet_eq_none] at h ⊢
  exact fun hk => h ((List.filter_sublist.map _).subset hk)

/-- The last value stays the last of those that are kept. -/
theorem lastSet_filter {p : α → Bool} {v : α} (h : lastSet k l = some v) (hp : p v) :
    lastSet k (l.filter fun a => p a.2) = some v := by
  induction l with
  | nil => simp at h
  | cons a l ih =>
    rw [lastSet, Option.or_eq_some_iff] at h
    rcases h with h | ⟨hnone, h⟩
    · rw [List.filter_cons]
      split
      · rw [lastSet, ih h, Option.some_or]
      · exact ih h
    · obtain ⟨hk, hv⟩ := Option.ite_none_right_eq_some.mp h
      cases hv
      have hkept : (a :: l).filter (fun a => p a.2) = a :: l.filter fun a => p a.2 := List.filter_cons_of_pos hp
      rw [hkept, lastSet, lastSet_filter_none hnone, Option.none_or, if_pos hk]

/-- A record whose fields are set one at a time, each value changed by `cut`
on the way, holds the last value given to each field. -/
theorem get_foldl_put {get : σ → κ → α} {put : σ → κ → α → σ} {cut : κ → α → α}
    (hself : ∀ s k v, get (put s k v) k = cut k v) (hne : ∀ s {k k'} v, k' ≠ k → get (put s k' v) k = get s k)
    (s : σ) : get (l.foldl (fun s a => put s a.1 a.2) s) k = ((lastSet k l).map (cut k)).getD (get s k) := by
  induction l generalizing s with
  | nil => rfl
  | cons a l ih =>
    rw [List.foldl_cons, ih, lastSet]
    cases lastSet k l with
    | some v => rfl
    | none =>
      by_cases ha : a.1 = k
      · simp [ha, ← hself s k a.2]
      · simp [ha, hne s a.2 ha]

/-- Where the values of `f` differ, a search for one of them finds what has it. -/
theorem find?_iff_of_nodup {f : α → Option κ} {l : List α} (h : (l.filterMap f).Nodup) {a : α} :
    l.find? (fun a => f a = some k) = some a ↔ a ∈ l ∧ f a = some k := by
  constructor
  · intro hfind
    exact ⟨List.mem_of_find?_eq_some hfind, by simpa using List.find?_some hfind⟩
  · rintro ⟨ha, hk⟩
    induction l with
    | nil => cases ha
    | cons b l ih =>
      by_cases hb : f b = some k
      · rw [List.find?_cons_of_pos (by simpa using hb)]
        rw [List.filterMap_cons, hb] at h
        rcases List.mem_cons.mp ha with rfl | ha
        · rfl
        · exact absurd (List.mem_filterMap.mpr ⟨a, ha, hk⟩) (List.nodup_cons.mp h).1
      · rw [List.find?_cons_of_neg (by simpa using hb)]
        have hal : a ∈ l := (List.mem_cons.mp ha).resolve_left fun e => hb (e ▸ hk)
        refine ih ?_ hal
        exact h.sublist ((List.sublist_cons_self b l).filterMap f)

end Framework
