import RemoteDebugger.Proof.Dispatch.Token

/-!
# The array of `getIssueInfo`

The array has a slot for each dot of the token and one more, and is filled by
`strtok`, which skips empty pieces.

* `length_strtok_le`: the loop stays within the array;
* `getIssueInfo_isSome_iff`: a token has a node where the slots read are filled;
* `slotsDefined_iff`: when they are.
-/

namespace RRD

open Framework

variable {delim : Byte} {tok s : Str}

/-! ## Tokens of `strtok` -/

theorem length_strtokFrom_le (delim : Byte) (tok s : Str) : (strtokFrom delim tok s).length ≤ s.count delim + 1 := by
  induction s generalizing tok with
  | nil =>
    rw [strtokFrom]
    split <;> simp
  | cons b s ih =>
    rw [strtokFrom, List.count_cons]
    split
    · rename_i hb
      subst hb
      split
      · have := ih []
        simp only [beq_self_eq_true, if_true]
        omega
      · have := ih []
        simp only [beq_self_eq_true, if_true, List.length_cons]
        omega
    · have := ih (tok ++ [b])
      omega

theorem length_strtok_le (delim : Byte) (s : Str) : (strtok delim s).length ≤ s.count delim + 1 :=
  length_strtokFrom_le delim [] s

/-- There is a token if one is begun, or begins later. -/
theorem strtokFrom_ne_nil_iff : strtokFrom delim tok s ≠ [] ↔ tok ≠ [] ∨ ∃ b ∈ s, b ≠ delim := by
  induction s generalizing tok with
  | nil =>
    rw [strtokFrom]
    split <;> simp [*]
  | cons b s ih =>
    rw [strtokFrom]
    by_cases hb : b = delim
    · rw [if_pos hb]
      split
      · rename_i htok
        rw [ih]
        simp [htok, hb]
      · rename_i htok
        simp [htok]
    · rw [if_neg hb, ih]
      simp [hb]

/-- The string has a delimiter between two pieces of tokens; the first is `tok`
where that is not empty. -/
def SplitBy (delim : Byte) (tok s : Str) : Prop :=
  ∃ u v, s = u ++ delim :: v ∧ (tok ≠ [] ∨ ∃ b ∈ u, b ≠ delim) ∧ ∃ b ∈ v, b ≠ delim

theorem splitBy_cons_of_ne {b : Byte} (hb : b ≠ delim) : SplitBy delim tok (b :: s) ↔ SplitBy delim (tok ++ [b]) s := by
  constructor
  · rintro ⟨_ | ⟨a, u⟩, v, h, -, hv⟩
    · exact absurd (List.cons.inj h).1 hb
    · exact ⟨u, v, (List.cons.inj h).2, .inl (by simp), hv⟩
  · rintro ⟨u, v, rfl, -, hv⟩
    exact ⟨b :: u, v, rfl, .inr ⟨b, List.mem_cons_self, hb⟩, hv⟩

theorem splitBy_cons_self : SplitBy delim tok (delim :: s) ↔
    if tok = [] then SplitBy delim [] s else ∃ b ∈ s, b ≠ delim := by
  split
  · rename_i htok
    subst htok
    constructor
    · rintro ⟨_ | ⟨a, u⟩, v, h, hu, hv⟩
      · simp at hu
      · obtain ⟨rfl, rfl⟩ := List.cons.inj h
        exact ⟨u, v, rfl, .inr (by simpa using hu), hv⟩
    · rintro ⟨u, v, rfl, hu, hv⟩
      exact ⟨delim :: u, v, rfl, .inr (by simpa using hu), hv⟩
  · rename_i htok
    constructor
    · rintro ⟨_ | ⟨a, u⟩, v, h, -, b, hb, hne⟩
      · exact ⟨b, (List.cons.inj h).2 ▸ hb, hne⟩
      · refine ⟨b, ?_, hne⟩
        rw [(List.cons.inj h).2]
        exact List.mem_append_right _ (List.mem_cons_of_mem _ hb)
    · exact fun h => ⟨[], s, rfl, .inl htok, h⟩

theorem one_lt_length_strtokFrom_iff : 1 < (strtokFrom delim tok s).length ↔ SplitBy delim tok s := by
  induction s generalizing tok with
  | nil =>
    refine iff_of_false ?_ fun ⟨u, v, h, _⟩ => by simp at h
    rw [strtokFrom]
    split <;> simp
  | cons b s ih =>
    rw [strtokFrom]
    by_cases hb : b = delim
    · subst hb
      rw [if_pos rfl, splitBy_cons_self]
      split
      · exact ih
      · rw [List.length_cons, Nat.lt_add_left_iff_pos, List.length_pos_iff, strtokFrom_ne_nil_iff]
        simp
    · rw [if_neg hb, splitBy_cons_of_ne hb, ih]

/-! ## Slots -/

theorem getIssueInfo_isSome_iff (s : Str) : (getIssueInfo s).isSome ↔ ∀ i ∈ slotsRead s, i < slotsAssigned s := by
  rw [slotsRead, slotsAssigned, getParamcount]
  simp only [getIssueInfo]
  rcases strtok (ch '.') s with _ | ⟨node, rest⟩
  · refine iff_of_false (by simp) fun h => absurd (h 0 ?_) (Nat.lt_irrefl 0)
    split <;> simp
  · by_cases hdot : s.count (ch '.') = 0
    · simp [hdot]
    · cases rest <;> simp [hdot]

/-- Every slot that is read was filled, and every slot that was filled is in the array. -/
def SlotsDefined (issuestr : Str) : Prop :=
  (∀ i ∈ slotsRead issuestr, i < slotsAssigned issuestr) ∧ slotsAssigned issuestr ≤ slotsCreated issuestr

/-- The token has a byte other than the dot, and if it has a dot, one with such
bytes on both sides. -/
theorem slotsDefined_iff (s : Str) : SlotsDefined s ↔ (∃ b ∈ s, b ≠ ch '.') ∧
    (ch '.' ∈ s → ∃ u v, s = u ++ ch '.' :: v ∧ (∃ b ∈ u, b ≠ ch '.') ∧ ∃ b ∈ v, b ≠ ch '.') := by
  have hfirst : 0 < slotsAssigned s ↔ ∃ b ∈ s, b ≠ ch '.' := by
    rw [slotsAssigned, List.length_pos_iff, strtok, strtokFrom_ne_nil_iff]
    simp
  have hsecond : 1 < slotsAssigned s ↔ SplitBy (ch '.') [] s := one_lt_length_strtokFrom_iff
  rw [SlotsDefined, and_iff_left (show slotsAssigned s ≤ slotsCreated s from length_strtok_le _ s), slotsRead, getParamcount]
  by_cases hdot : ch '.' ∈ s
  · have hcount : s.count (ch '.') ≠ 0 := fun h => List.count_eq_zero.mp h hdot
    simp [hcount, hdot, hfirst, hsecond, SplitBy]
  · have hcount : s.count (ch '.') = 0 := List.count_eq_zero.mpr hdot
    simp [hcount, hdot, hfirst]

/-- A token that ends with its only dot is accepted, and its second slot is read unfilled. -/
theorem trailing_dot_unassigned : acceptedTokens (str "Network.") = [(str "Network.", [])] ∧
    ¬ SlotsDefined (str "Network.") := by
  refine ⟨by decide +kernel, fun h => ?_⟩
  have hread : 1 < slotsAssigned (str "Network.") := h.1 1 (by decide)
  exact absurd hread (by decide)

end RRD
