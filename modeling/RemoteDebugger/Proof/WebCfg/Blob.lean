import RemoteDebugger.Impl.Message

/-!
# What arrives of a value

The handler of the issue type allocates a byte for the terminator, and that of
the WebCfg parameter does not.

* `dataMsg_received`: an issue type arrives, without its append marker;
* `inString_not_received`: of a WebCfg value there is no string to measure.
-/

namespace RRD

open Framework

variable {size : Nat} {s mem value : Str}

/-- The memory holds a string with its terminator. -/
structure Holds (mem s : Str) : Prop where
  terminated : 0 ∈ mem
  string : cstr mem = s

theorem Holds.strlen (h : Holds mem s) : strlen mem = some s.length := by
  rw [Framework.strlen, if_pos h.terminated, h.string]

theorem Holds.take (h : Holds mem s) : mem.take s.length = s := by
  rw [← h.string]
  exact (List.prefix_iff_eq_take.mp (List.takeWhile_prefix _)).symm

theorem Holds.eq_append (h : Holds mem s) : ∃ t, mem = s ++ 0 :: t := by
  have hs : 0 ∉ s := fun h0 => by
    rw [← h.string] at h0
    simpa using List.mem_takeWhile_imp h0
  rcases (takeWhile_ne_eq_iff hs).mp h.string with heq | ⟨t, ht⟩
  · exact absurd (heq ▸ h.terminated) hs
  · exact ⟨t, by rw [← ht, List.append_assoc, List.singleton_append]⟩

theorem holds_append (hs : 0 ∉ s) (t : Str) : Holds (s ++ 0 :: t) s := ⟨by simp, cstr_append_zero hs⟩

theorem holds_zeroed (hs : 0 ∉ s) (h : s.length < size) : Holds (zeroed size s) s :=
  ⟨List.mem_append_right _ (List.mem_replicate.mpr ⟨by omega, rfl⟩), cstr_zeroed hs⟩

/-- The append marker is cut off in memory. -/
theorem checkAppendRequestMem_holds (hs : 0 ∉ s) (h : Holds mem s) :
    ∃ mdata, checkAppendRequestMem mem = some ((checkAppendRequest s).1, mdata) ∧ Holds mdata (checkAppendRequest s).2 := by
  obtain ⟨t, rfl⟩ := h.eq_append
  have hend : cstr ((s ++ 0 :: t).drop (s.length - appendSuffix.length)) = s.drop (s.length - appendSuffix.length) := by
    rw [List.drop_append_of_le_length (Nat.sub_le ..)]
    exact cstr_append_zero fun h0 => hs (List.mem_of_mem_drop h0)
  simp only [checkAppendRequestMem, Option.bind_eq_bind, h.strlen, Option.bind_some, hend, checkAppendRequest]
  by_cases hmarker : appendSuffix.length ≤ s.length ∧ s.drop (s.length - appendSuffix.length) = appendSuffix
  · have hlt : s.length - appendSuffix.length < (s ++ 0 :: t).length := by
      rw [List.length_append, List.length_cons]
      omega
    have htake : 0 ∉ s.take (s.length - appendSuffix.length) := fun h0 => hs (List.mem_of_mem_take h0)
    rw [if_pos hmarker, if_pos hmarker, storeByte, if_pos hlt, List.set_eq_take_append_cons_drop, if_pos hlt,
      List.take_append_of_le_length (Nat.sub_le ..)]
    exact ⟨_, rfl, holds_append htake _⟩
  · rw [if_neg hmarker, if_neg hmarker]
    exact ⟨_, rfl, h⟩

theorem receivedString_holds (hs : 0 ∉ s) (h : Holds mem s) : receivedString mem = some (checkAppendRequest s).2 := by
  obtain ⟨mdata, hcheck, hmdata⟩ := checkAppendRequestMem_holds hs h
  simp only [receivedString, Option.bind_eq_bind, hcheck, Option.bind_some, hmdata.strlen, hmdata.take]
  rfl

/-- An issue type arrives, without its append marker. -/
theorem dataMsg_received (h : 0 ∉ value) :
    (dataMsgMem value).bind receivedString = some (checkAppendRequest value).2 := by
  have hmem : dataMsgMem value = some (zeroed (value.length + 1) value) := by
    have hcopy := strncpy_zeroed value (Nat.le_succ value.length)
    rw [List.take_length] at hcopy
    simp only [dataMsgMem, Option.bind_eq_bind, Nat.add_sub_cancel, calloc, hcopy, Option.bind_some]
    exact storeByte_zeroed le_rfl (Nat.lt_succ_self _)
  rw [hmem, Option.bind_some, receivedString_holds h (holds_zeroed h (Nat.lt_succ_self _))]

/-- A WebCfg value arrives: each time it is measured it ends within its
allocation, and the decoder is given it as it was published. -/
def ArrivesIntact (value : Str) : Prop := (inStringMem value).bind receivedString = some value

/-- No WebCfg value arrives: none ends within its allocation. -/
theorem inString_not_received (h : 0 ∉ value) : ¬ ArrivesIntact value := by
  have hmem : inStringMem value = some value := by
    rw [inStringMem, calloc, strncpy_zeroed value le_rfl, List.take_length, zeroed, Nat.sub_self, List.replicate_zero,
      List.append_nil]
  have hstrlen : strlen value = none := if_neg h
  simp [ArrivesIntact, hmem, receivedString, checkAppendRequestMem, hstrlen]

theorem inString_not_received_sample : 0 ∉ str "gA==" ∧ ¬ ArrivesIntact (str "gA==") :=
  ⟨by decide, inString_not_received (by decide)⟩

theorem webCfg_value_unterminated : str "gA==" ≠ [] ∧ ¬ ArrivesIntact (str "gA==") := by
  refine ⟨by decide, ?_⟩
  have hnone : (inStringMem (str "gA==")).bind receivedString = none := by decide +kernel
  rw [ArrivesIntact, hnone]
  exact Option.some_ne_none _ ∘ Eq.symm

end RRD
