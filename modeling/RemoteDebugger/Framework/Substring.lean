import Mathlib.Data.List.Infix
import Mathlib.Data.List.Basic

/-!
# Occurrences of a word

`strstr` is the place of the first occurrence of a word. Searching on behind each
occurrence cuts a list into the pieces between them: `Cut`.

* `strstr_eq_some_iff`, `strstr_eq_none_iff`: what the search finds;
* `strstr_first`, `strstr_before`: it is the first;
* `Cut.exists_cut`, `Cut.unique`: every list has one cut;
* `Cut.length_replace`: the length after the word was replaced.
-/

namespace Framework

variable {α : Type} {w s t p : List α} {pieces : List (List α)} {i j : Nat}

/-! ## Search -/

/-- The place of the first occurrence of a word. -/
def strstr [DecidableEq α] (w : List α) : List α → Option Nat
  | [] => if w = [] then some 0 else none
  | b :: s => if w.isPrefixOf (b :: s) then some 0 else (strstr w s).map (· + 1)

theorem infix_iff_drop : w <:+: s ↔ ∃ j, w <+: s.drop j := by
  constructor
  · rintro ⟨a, b, rfl⟩
    refine ⟨a.length, b, ?_⟩
    rw [List.append_assoc, List.drop_left]
  · rintro ⟨j, h⟩
    exact h.isInfix.trans (List.drop_suffix j s).isInfix

theorem infix_take_iff (hw : w ≠ []) : w <:+: s.take i ↔ ∃ j, w <+: s.drop j ∧ j + w.length ≤ i := by
  have hpos := List.length_pos_iff.mpr hw
  rw [infix_iff_drop]
  refine exists_congr fun j => ?_
  rw [List.drop_take, List.prefix_take_iff]
  exact and_congr_right fun _ => by omega

section Search

variable [DecidableEq α]

theorem strstr_nil : strstr w [] = if w = [] then some 0 else none := rfl

theorem strstr_eq_some_iff : strstr w s = some i ↔ w <+: s.drop i ∧ i ≤ s.length ∧ ∀ j < i, ¬ w <+: s.drop j := by
  induction s generalizing i with
  | nil =>
    rw [strstr_nil]
    by_cases hw : w = []
    · subst hw
      cases i <;> simp
    · simp [hw]
  | cons b s ih =>
    rw [strstr]
    by_cases hb : w <+: b :: s
    · rw [if_pos (List.isPrefixOf_iff_prefix.mpr hb), Option.some.injEq]
      constructor
      · rintro rfl
        exact ⟨hb, Nat.zero_le _, fun j hj => absurd hj j.not_lt_zero⟩
      · rintro ⟨-, -, hfirst⟩
        by_contra hi
        exact hfirst 0 (Nat.pos_of_ne_zero (Ne.symm hi)) hb
    · rw [if_neg (mt List.isPrefixOf_iff_prefix.mp hb), Option.map_eq_some_iff]
      cases i with
      | zero => simp [hb]
      | succ i =>
        have hfirst : (∀ j < i + 1, ¬ w <+: (b :: s).drop j) ↔ ∀ j < i, ¬ w <+: s.drop j := by
          rw [Nat.forall_lt_succ_left']
          simp [hb]
        rw [hfirst]
        simp [ih]

theorem strstr_eq_none_iff : strstr w s = none ↔ ¬ w <:+: s := by
  induction s with
  | nil => simp [strstr_nil]
  | cons b s ih =>
    rw [strstr, List.infix_cons_iff, not_or, ← ih]
    by_cases hb : w <+: b :: s
    · simp [hb]
    · simp [hb]

end Search

/-! ## Cuts -/

/-- The pieces of a list between the occurrences of a word, each of which is the
first behind the one before. -/
inductive Cut (w : List α) : List α → List (List α) → Prop where
  | last {s : List α} (h : ¬ w <:+: s) : Cut w s [s]
  | next {p s : List α} {pieces : List (List α)} (hfirst : ¬ w <:+: (p ++ w).dropLast) (hrest : Cut w s pieces) :
      Cut w (p ++ w ++ s) (p :: pieces)

/-- A word is first found at the end of a list that holds it no sooner. -/
theorem strstr_first [DecidableEq α] (hw : w ≠ []) (hfirst : ¬ w <:+: (p ++ w).dropLast) (s : List α) :
    strstr w (p ++ w ++ s) = some p.length := by
  refine strstr_eq_some_iff.mpr ⟨?_, by simp, fun j hj hstart => hfirst ?_⟩
  · rw [List.append_assoc, List.drop_left]
    exact List.prefix_append w s
  · have hpos := List.length_pos_iff.mpr hw
    have htake : (p ++ w).dropLast = (p ++ w ++ s).take (p.length + w.length - 1) := by
      have hle : p.length + w.length - 1 ≤ (p ++ w).length := by rw [List.length_append]; omega
      rw [List.dropLast_eq_take, List.length_append]
      exact (List.take_append_of_le_length hle).symm
    rw [htake, infix_take_iff hw]
    exact ⟨j, hstart, by omega⟩

/-- What is found is there. -/
theorem strstr_split [DecidableEq α] {i : Nat} (h : strstr w s = some i) : s.take i ++ w ++ s.drop (i + w.length) = s := by
  obtain ⟨⟨t, ht⟩, -, -⟩ := strstr_eq_some_iff.mp h
  rw [← List.drop_drop, ← ht, List.drop_left, List.append_assoc, ht, List.take_append_drop]

/-- And no sooner. -/
theorem strstr_before [DecidableEq α] {i : Nat} (hw : w ≠ []) (h : strstr w s = some i) :
    ¬ w <:+: (s.take i ++ w).dropLast := by
  obtain ⟨⟨t, ht⟩, hi, hfirst⟩ := strstr_eq_some_iff.mp h
  have hpos := List.length_pos_iff.mpr hw
  have hlen := congrArg List.length ht
  rw [List.length_append, List.length_drop] at hlen
  have htake : (s.take i ++ w).dropLast = s.take (i + w.length - 1) := by
    have hstart : s.take i ++ w = s.take (i + w.length) := by rw [List.take_add, ← ht, List.take_left]
    rw [hstart, List.dropLast_eq_take, List.length_take, List.take_take]
    congr 1
    omega
  rw [htake, infix_take_iff hw]
  rintro ⟨j, hstart, hj⟩
  exact hfirst j (by omega) hstart

namespace Cut

theorem ne_nil (h : Cut w s pieces) : pieces ≠ [] := by cases h <;> simp

theorem exists_cut [DecidableEq α] (hw : w ≠ []) (s : List α) : ∃ pieces, Cut w s pieces := by
  induction hn : s.length using Nat.strong_induction_on generalizing s with
  | _ n ih =>
    cases hfind : strstr w s with
    | none => exact ⟨[s], .last (strstr_eq_none_iff.mp hfind)⟩
    | some i =>
      have hs := strstr_split hfind
      have hshorter : (s.drop (i + w.length)).length < n := by
        have hpos := List.length_pos_iff.mpr hw
        have hlen := congrArg List.length hs
        rw [List.length_append, List.length_append] at hlen
        omega
      obtain ⟨pieces, hpieces⟩ := ih _ hshorter _ rfl
      have hcut := Cut.next (strstr_before hw hfind) hpieces
      rw [hs] at hcut
      exact ⟨_, hcut⟩

/-- The first piece of a cut is what is before the first occurrence. -/
theorem of_strstr [DecidableEq α] {i : Nat} (hw : w ≠ []) (h : Cut w s pieces) (hfind : strstr w s = some i) :
    ∃ rest, pieces = s.take i :: rest ∧ Cut w (s.drop (i + w.length)) rest := by
  cases h with
  | last hnone =>
    rw [strstr_eq_none_iff.mpr hnone] at hfind
    cases hfind
  | @next p s pieces hfirst hrest =>
    obtain rfl := Option.some.inj ((strstr_first hw hfirst s).symm.trans hfind)
    refine ⟨pieces, ?_, ?_⟩
    · rw [List.append_assoc, List.take_left]
    · rwa [← List.length_append, List.drop_left]

theorem unique [DecidableEq α] (hw : w ≠ []) {pieces' : List (List α)} (h : Cut w s pieces) (h' : Cut w s pieces') :
    pieces = pieces' := by
  induction h generalizing pieces' with
  | last hnone =>
    cases h' with
    | last => rfl
    | next hfirst hrest => exact absurd ⟨_, _, rfl⟩ hnone
  | @next p s pieces hfirst hrest ih =>
    obtain ⟨rest, rfl, hrest'⟩ := h'.of_strstr hw (strstr_first hw hfirst s)
    rw [← List.length_append, List.drop_left] at hrest'
    rw [List.append_assoc, List.take_left, ih hrest']

/-- A replaced word changes the length by as much for each occurrence. -/
theorem length_replace (h : Cut w s pieces) (d : List α) :
    (d.intercalate pieces).length + (pieces.length - 1) * w.length = s.length + (pieces.length - 1) * d.length := by
  induction h with
  | last => simp
  | @next p s pieces hfirst hrest ih =>
    obtain ⟨n, hn⟩ := Nat.exists_eq_succ_of_ne_zero (mt List.length_eq_zero_iff.mp hrest.ne_nil)
    rw [List.intercalate_cons_of_ne_nil hrest.ne_nil]
    simp only [List.length_append, List.length_cons, hn, Nat.succ_sub_one, Nat.add_one, Nat.succ_mul] at ih ⊢
    omega

end Cut

end Framework
