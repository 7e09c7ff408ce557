import Mathlib.Data.List.TakeWhile
import RemoteDebugger.Impl.Cache
import RemoteDebugger.Impl.Token

/-!
# Accepted tokens

The base of an accepted token is `Clean`: not empty, at most 127 bytes, letters,
digits and dots. A clean string that comes back as a message is taken for what
it was:

* `acceptedTokens_clean`: the bases of accepted tokens are clean;
* `Clean.acceptedTokens`: a clean string is one token, its own base;
* `Clean.checkAppendRequest`, `checkAppendRequest_append`: it does not ask for
  append mode, and it does with the suffix;
* `getIssueInfo_node`: a node is not empty and has no dot;
* `Clean.node`: that of a clean string is letters and digits.
-/

namespace RRD

open Framework

structure Clean (b : Str) : Prop where
  ne_nil : b ≠ []
  length_le : b.length ≤ 127
  chars : ∀ x ∈ b, isalnum x ∨ x = ch '.'

namespace Clean

variable {b : Str}

theorem notMem_comma (h : Clean b) : ch ',' ∉ b := fun hx => by
  rcases h.chars _ hx with hx | hx <;> exact absurd hx (by decide)

theorem notMem_underscore (h : Clean b) : ch '_' ∉ b := fun hx => by
  rcases h.chars _ hx with hx | hx <;> exact absurd hx (by decide)

end Clean

/-! ## From a list to its bases -/

theorem takeTokens_notMem {delimeter : Byte} {cnt : Nat} {s t : Str} (h : t ∈ takeTokens delimeter cnt s) :
    delimeter ∉ t := by
  induction cnt generalizing s with
  | zero => cases h
  | succ cnt ih =>
    rcases List.mem_cons.mp h with rfl | h
    · intro hd
      simpa using List.mem_takeWhile_imp hd
    · exact ih h

theorem splitIssueType_base (token : Str) :
    (splitIssueType token).1 = (token.takeWhile (· ≠ ch '_')).take 127 := by
  rw [splitIssueType]
  split <;> rfl

theorem acceptedTokens_clean {mdata : Str} {t : Str × Str} (h : t ∈ acceptedTokens mdata) : Clean t.1 := by
  obtain ⟨token, htoken, h⟩ := List.mem_filterMap.mp h
  have hcomma : ch ',' ∉ token := takeTokens_notMem htoken
  simp only [Option.ite_none_left_eq_some, Option.some.injEq] at h
  obtain ⟨hne, rfl⟩ := h
  have hbase := splitIssueType_base token
  refine ⟨hne, ?_, fun x hx => ?_⟩
  · refine (List.length_filter_le ..).trans ?_
    rw [hbase]
    exact List.length_take_le ..
  · obtain ⟨hx, hok⟩ := List.mem_filter.mp hx
    rw [hbase] at hx
    have hxt : x ∈ token := (List.takeWhile_prefix _).subset (List.mem_of_mem_take hx)
    simp only [Bool.or_eq_true, decide_eq_true_eq] at hok
    rcases hok with (hok | rfl) | hok
    · exact .inl hok
    · exact absurd hxt hcomma
    · exact .inr hok

/-! ## A clean string comes back -/

theorem countSplits_of_notMem {delimeter : Byte} {s : Str} (h : delimeter ∉ s) : countSplits delimeter s = 0 := by
  induction s with
  | nil => rfl
  | cons a s ih =>
    obtain ⟨ha, hs⟩ := not_or.mp (mt List.mem_cons.mpr h)
    cases s with
    | nil => rfl
    | cons b s => rw [countSplits, ih hs, if_neg fun hab => ha hab.1.symm]

theorem issueTypeSplitter_of_notMem {delimeter : Byte} {s : Str} (h : delimeter ∉ s) :
    issueTypeSplitter s delimeter = [s] := by
  have hdrop : s.dropWhile (· = delimeter) = s := by
    cases s with
    | nil => rfl
    | cons a s =>
      have : a ≠ delimeter := fun e => h (e ▸ List.mem_cons_self)
      simp [this]
  rw [issueTypeSplitter, hdrop, countSplits_of_notMem fun hd => h (List.mem_of_mem_drop hd), takeTokens,
    takeWhile_ne_of_notMem h, takeTokens]

theorem Clean.splitIssueType {b : Str} (h : Clean b) : splitIssueType b = (b, []) := by
  rw [RRD.splitIssueType, takeWhile_ne_of_notMem h.notMem_underscore, dropWhile_ne_of_notMem h.notMem_underscore,
    List.take_of_length_le h.length_le, if_neg fun hu => hu.1 rfl]

theorem Clean.acceptedTokens {b : Str} (h : Clean b) : acceptedTokens b = [(b, [])] := by
  have hself : removeSpecialCharacterfromIssueTypeList b = b :=
    List.filter_eq_self.mpr fun x hx => by
      rcases h.chars x hx with hx | hx <;> simp [hx]
  rw [RRD.acceptedTokens, issueTypeSplitter_of_notMem h.notMem_comma]
  simp [h.splitIssueType, hself, h.ne_nil]

theorem Clean.checkAppendRequest {b : Str} (h : Clean b) : checkAppendRequest b = (false, b) := by
  rw [RRD.checkAppendRequest, if_neg]
  rintro ⟨-, hdrop⟩
  refine h.notMem_underscore (List.mem_of_mem_drop (i := b.length - appendSuffix.length) ?_)
  rw [hdrop]
  decide

theorem checkAppendRequest_append (b : Str) : checkAppendRequest (b ++ appendSuffix) = (true, b) := by
  have hn : (b ++ appendSuffix).length - appendSuffix.length = b.length := by simp
  rw [RRD.checkAppendRequest, hn, List.drop_left, List.take_left, if_pos ⟨by simp, rfl⟩]

/-! ## Nodes -/

theorem strtokFrom_spec {delim : Byte} {tok s t : Str} (htok : delim ∉ tok) (h : t ∈ strtokFrom delim tok s) :
    t ≠ [] ∧ delim ∉ t := by
  induction s generalizing tok with
  | nil =>
    rw [strtokFrom] at h
    split at h
    · cases h
    · rename_i hne
      rw [List.mem_singleton.mp h]
      exact ⟨hne, htok⟩
  | cons b s ih =>
    have hnil : delim ∉ ([] : Str) := List.not_mem_nil
    rw [strtokFrom] at h
    split at h
    · split at h
      · exact ih hnil h
      · rename_i hne
        rcases List.mem_cons.mp h with rfl | h
        · exact ⟨hne, htok⟩
        · exact ih hnil h
    · rename_i hb
      refine ih (fun hd => ?_) h
      rcases List.mem_append.mp hd with hd | hd
      · exact htok hd
      · exact hb (List.mem_singleton.mp hd).symm

theorem strtokFrom_of_notMem {delim : Byte} {tok s : Str} (h : delim ∉ s) :
    strtokFrom delim tok s = if tok ++ s = [] then [] else [tok ++ s] := by
  induction s generalizing tok with
  | nil => rw [strtokFrom, List.append_nil]
  | cons b s ih =>
    have hb : b ≠ delim := fun e => h (e ▸ List.mem_cons_self)
    rw [strtokFrom, if_neg hb, ih (fun hs => h (List.mem_cons_of_mem _ hs)), List.append_assoc]
    rfl

/-- The first token ends at the first delimiter after it. -/
theorem strtokFrom_append {delim : Byte} {tok t s : Str} (h : delim ∉ t) (hne : tok ++ t ≠ []) :
    strtokFrom delim tok (t ++ delim :: s) = (tok ++ t) :: strtok delim s := by
  induction t generalizing tok with
  | nil =>
    rw [List.append_nil] at hne ⊢
    rw [List.nil_append, strtokFrom, if_pos rfl, if_neg hne]
    rfl
  | cons b t ih =>
    have hb : b ≠ delim := fun e => h (e ▸ List.mem_cons_self)
    rw [List.cons_append, strtokFrom, if_neg hb, ih (fun ht => h (List.mem_cons_of_mem _ ht)) (by simp),
      List.append_assoc]
    rfl

theorem strtok_append {delim : Byte} {t s : Str} (h : delim ∉ t) (hne : t ≠ []) :
    strtok delim (t ++ delim :: s) = t :: strtok delim s := strtokFrom_append h hne

@[simp] theorem strtok_cons_self (delim : Byte) (s : Str) : strtok delim (delim :: s) = strtok delim s := by
  rw [strtok, strtokFrom, if_pos rfl, if_pos rfl]
  rfl

theorem strtok_of_notMem {delim : Byte} {s : Str} (h : delim ∉ s) (hne : s ≠ []) : strtok delim s = [s] := by
  rw [strtok, strtokFrom_of_notMem h, List.nil_append, if_neg hne]

theorem getIssueInfo_node {s : Str} {info : IssueNodeData} (h : getIssueInfo s = some info) :
    ∃ node, info.node = some node ∧ node ≠ [] ∧ ch '.' ∉ node := by
  have hspec : ∀ t ∈ strtok (ch '.') s, t ≠ [] ∧ ch '.' ∉ t := fun t => strtokFrom_spec List.not_mem_nil
  rw [getIssueInfo] at h
  split at h
  · cases h
  · rename_i node rest heq
    have hnode := hspec node (heq ▸ List.mem_cons_self ..)
    split at h
    · split at h
      · cases h
      · cases h
        exact ⟨node, rfl, hnode⟩
    · cases h
      exact ⟨node, rfl, hnode⟩

/-- Without a sub-node the node is the whole string. -/
theorem getIssueInfo_whole {s : Str} {info : IssueNodeData} (h : getIssueInfo s = some info) (hsub : info.subNode = none) :
    info.node = some s := by
  have hdot : ch '.' ∉ s := fun hmem => by
    have hcount : s.count (ch '.') ≠ 0 := fun h => List.count_eq_zero.mp h hmem
    rw [getIssueInfo] at h
    rcases htokens : strtok (ch '.') s with _ | ⟨node, _ | ⟨subNode, rest⟩⟩ <;>
      simp only [htokens, hcount, ne_eq, not_false_eq_true, if_true] at h
    · cases h
    · cases h
    · rw [← Option.some.inj h] at hsub
      cases hsub
  have hne : s ≠ [] := fun e => by
    subst e
    cases h
  rw [getIssueInfo, strtok_of_notMem hdot hne] at h
  have hcount : s.count (ch '.') = 0 := List.count_eq_zero.mpr hdot
  simp only [hcount, ne_eq, not_true_eq_false, if_false, Option.some.injEq] at h
  exact h ▸ rfl

/-- A token is a piece of the string. -/
theorem strtokFrom_isInfix {delim : Byte} {tok s t : Str} (h : t ∈ strtokFrom delim tok s) : t <:+: tok ++ s := by
  induction s generalizing tok with
  | nil =>
    rw [strtokFrom] at h
    split at h
    · cases h
    · rw [List.mem_singleton.mp h, List.append_nil]
  | cons b s ih =>
    have hlater (h : t ∈ strtokFrom delim [] s) : t <:+: tok ++ b :: s :=
      (ih h).trans (List.suffix_append_of_suffix (List.suffix_cons b s)).isInfix
    rw [strtokFrom] at h
    split at h
    · split at h
      · exact hlater h
      · rcases List.mem_cons.mp h with rfl | h
        · exact (List.prefix_append _ _).isInfix
        · exact hlater h
    · rw [List.append_cons]
      exact ih h

/-- The node of a clean string is letters and digits. -/
theorem Clean.node {b : Str} (h : Clean b) {info : IssueNodeData} (hinfo : getIssueInfo b = some info) :
    ∃ node, info.node = some node ∧ node ≠ [] ∧ (∀ x ∈ node, isalnum x) ∧ node.length ≤ 127 := by
  obtain ⟨node, hnode, hne, hdot⟩ := getIssueInfo_node hinfo
  have hpiece : node <:+: b := by
    have hmem : node ∈ strtok (ch '.') b := by
      rw [getIssueInfo] at hinfo
      split at hinfo
      · cases hinfo
      · rename_i node' rest heq
        have hhead : info.node = some node' := by
          split at hinfo
          · split at hinfo <;> cases hinfo
            rfl
          · cases hinfo
            rfl
        rw [heq, Option.some.inj (hnode.symm.trans hhead)]
        exact List.mem_cons_self
    exact strtokFrom_isInfix hmem
  refine ⟨node, hnode, hne, fun x hx => ?_, hpiece.length_le.trans h.length_le⟩
  exact (h.chars x (hpiece.subset hx)).resolve_right fun e => hdot (e ▸ hx)

end RRD
