import RemoteDebugger.Impl.Daemon
import RemoteDebugger.Proof.Dispatch.Token

/-!
# A list of issue types and its tokens one by one

The buffers that an event hands to `processIssueType` are its `workItems`.

* `issueTypeSplitter_eq`: the splitter takes the parts between delimiters, without the empty ones;
* `checkAppendRequest_intercalate`: the append marker of a list is that of its last token;
* `splitIssueType_append`: before the last token the marker is read as part of the suffix;
* `eachToken_workItems`: the loop of an event is that over its work items;
* `workItems_intercalate_iff`: when a list gives the work items of its tokens one by one.
-/

namespace RRD

open Framework Framework.Prog

/-! ## The splitter -/

/-- The tokens of a list, without the empty ones. -/
def tokensOf (delimeter : Byte) (s : Str) : List Str := (s.splitOn delimeter).filter (· ≠ [])

section Splitter

variable {d : Byte} {s tok : Str}

@[simp] theorem tokensOf_cons_self (d : Byte) (s : Str) : tokensOf d (d :: s) = tokensOf d s := by
  simp [tokensOf, List.splitOn_cons_eq_if_modifyHead]

theorem tokensOf_dropWhile (d : Byte) (s : Str) : tokensOf d (s.dropWhile (· = d)) = tokensOf d s := by
  induction s with
  | nil => rfl
  | cons b s ih =>
    by_cases hb : b = d
    · subst hb
      simpa using ih
    · rw [List.dropWhile_cons_of_neg (by simpa using hb)]

theorem tokensOf_of_notMem (h : d ∉ tok) (hne : tok ≠ []) : tokensOf d tok = [tok] := by
  simp [tokensOf, List.splitOn_eq_singleton h, hne]

theorem tokensOf_append (h : d ∉ tok) (hne : tok ≠ []) (s : Str) : tokensOf d (tok ++ d :: s) = tok :: tokensOf d s := by
  simp [tokensOf, List.splitOn_append_cons_self_of_not_mem h, hne]

/-- The tokens that `issueTypeSplitter` counts in a string without a delimiter at its start. -/
def countTokens (d : Byte) (s : Str) : Nat := if s = [] then 0 else 1 + countSplits d s

theorem countSplits_cons_of_ne {b : Byte} (hb : b ≠ d) (s : Str) : countSplits d (b :: s) = countSplits d s := by
  cases s with
  | nil => rfl
  | cons c s => rw [countSplits, if_neg fun h => hb h.1, Nat.zero_add]

theorem countSplits_dropWhile_ne (d : Byte) (s : Str) : countSplits d (s.dropWhile (· ≠ d)) = countSplits d s := by
  induction s with
  | nil => rfl
  | cons b s ih =>
    by_cases hb : b = d
    · rw [List.dropWhile_cons_of_neg (by simpa using hb)]
    · rw [List.dropWhile_cons_of_pos (by simpa using hb), ih, countSplits_cons_of_ne hb]

theorem countSplits_cons_self (d : Byte) (s : Str) : countSplits d (d :: s) = countTokens d (s.dropWhile (· = d)) := by
  induction s with
  | nil => rfl
  | cons b s ih =>
    by_cases hb : b = d
    · subst hb
      rw [countSplits, if_neg fun h => h.2 rfl, ih, Nat.zero_add, List.dropWhile_cons_of_pos (by simp)]
    · rw [countSplits, if_pos ⟨rfl, hb⟩, List.dropWhile_cons_of_neg (by simpa using hb), countTokens,
        if_neg (List.cons_ne_nil b s)]

/-- Cutting off as many tokens as are counted gives them all. -/
theorem takeTokens_countTokens {s : Str} (hs : ∀ b ∈ s.head?, b ≠ d) : takeTokens d (countTokens d s) s = tokensOf d s := by
  induction hn : s.length using Nat.strong_induction_on generalizing s with
  | _ n ih =>
    cases s with
    | nil => rfl
    | cons a s =>
      have ha : a ≠ d := hs a rfl
      have htok : d ∉ (a :: s).takeWhile (· ≠ d) := fun h => by simpa using List.mem_takeWhile_imp h
      have hne : (a :: s).takeWhile (· ≠ d) ≠ [] := by simp [ha]
      have hsplit : (a :: s).takeWhile (· ≠ d) ++ (a :: s).dropWhile (· ≠ d) = a :: s := List.takeWhile_append_dropWhile
      rw [countTokens, if_neg (List.cons_ne_nil a s), Nat.add_comm, takeTokens, ← countSplits_dropWhile_ne]
      rcases hr : (a :: s).dropWhile (· ≠ d) with _ | ⟨b, r⟩
      · rw [hr, List.append_nil] at hsplit
        rw [hsplit] at htok hne ⊢
        rw [tokensOf_of_notMem htok hne]
        rfl
      · -- the rest starts with the delimiter
        have hb : b = d := by
          have := List.head?_dropWhile_not (· ≠ d) (a :: s)
          rw [hr] at this
          simpa using this
        subst hb
        have hlen : (r.dropWhile (· = b)).length < n := by
          have h1 := congrArg List.length hsplit
          have h2 := List.length_pos_iff.mpr hne
          have h3 := (List.dropWhile_suffix (l := r) (· = b)).length_le
          rw [hr, List.length_append, hn, List.length_cons] at h1
          omega
        have hhead : ∀ c ∈ (r.dropWhile (· = b)).head?, c ≠ b := fun c hc => by
          have := List.head?_dropWhile_not (· = b) r
          rw [Option.mem_def.mp hc] at this
          simpa using this
        rw [countSplits_cons_self, List.dropWhile_cons_of_pos (by simp), ih _ hlen hhead rfl, tokensOf_dropWhile]
        conv_rhs => rw [← hsplit, hr, tokensOf_append htok hne]

/-- The splitter takes every token, and one empty token of a string without any. -/
theorem issueTypeSplitter_eq (d : Byte) (s : Str) :
    issueTypeSplitter s d = if s.dropWhile (· = d) = [] then [[]] else tokensOf d s := by
  rw [issueTypeSplitter, ← tokensOf_dropWhile]
  rcases hs : s.dropWhile (· = d) with _ | ⟨b, t⟩
  · rfl
  · have hb : b ≠ d := by
      have := List.head?_dropWhile_not (· = d) s
      simpa [hs] using this
    rw [if_neg (List.cons_ne_nil b t), ← takeTokens_countTokens (by simpa using hb), countTokens,
      if_neg (List.cons_ne_nil b t), List.drop_one, List.tail_cons, countSplits_cons_of_ne hb]

end Splitter

/-! ## Tokens -/

/-- The base and the suffix of a token, if its base is not empty. -/
def acceptToken (token : Str) : Option (Str × Str) :=
  let (base, suffix) := splitIssueType token
  let base := removeSpecialCharacterfromIssueTypeList base
  if base = [] then none else some (base, suffix)

theorem acceptedTokens_eq (mdata : Str) : acceptedTokens mdata = (mdata.splitOn (ch ',')).filterMap acceptToken := by
  have hnil : acceptToken [] = none := rfl
  have hfilter : (tokensOf (ch ',') mdata).filterMap acceptToken = (mdata.splitOn (ch ',')).filterMap acceptToken := by
    rw [tokensOf, List.filterMap_filter]
    refine List.filterMap_congr fun t _ => ?_
    by_cases ht : t = [] <;> simp [ht, hnil]
  show (issueTypeSplitter mdata (ch ',')).filterMap acceptToken = _
  rw [issueTypeSplitter_eq, ← hfilter]
  split
  · rename_i h
    rw [← tokensOf_dropWhile, h]
    rfl
  · rfl

theorem acceptedTokens_intercalate {ts : List Str} (h : ∀ t ∈ ts, ch ',' ∉ t) :
    acceptedTokens ([ch ','].intercalate ts) = ts.filterMap acceptToken := by
  rcases eq_or_ne ts [] with rfl | hne
  · decide
  · rw [acceptedTokens_eq, List.splitOn_intercalate _ h hne]

theorem acceptedTokens_of_notMem {t : Str} (h : ch ',' ∉ t) : acceptedTokens t = (acceptToken t).toList := by
  rw [acceptedTokens_eq, List.splitOn_eq_singleton h, List.filterMap_cons]
  cases acceptToken t <;> rfl

/-! ## The append marker -/

theorem checkAppendRequest_of_not_suffix {s : Str} (h : ¬ appendSuffix <:+ s) : checkAppendRequest s = (false, s) := by
  rw [checkAppendRequest, if_neg]
  rintro ⟨-, hdrop⟩
  exact h (hdrop ▸ List.drop_suffix _ s)

/-- A string that ends with the marker, or does not. -/
theorem checkAppendRequest_cases (s : Str) :
    (∃ u, s = u ++ appendSuffix ∧ checkAppendRequest s = (true, u)) ∨
      ¬ appendSuffix <:+ s ∧ checkAppendRequest s = (false, s) := by
  by_cases h : appendSuffix <:+ s
  · obtain ⟨u, rfl⟩ := h
    exact .inl ⟨u, rfl, checkAppendRequest_append u⟩
  · exact .inr ⟨h, checkAppendRequest_of_not_suffix h⟩

theorem checkAppendRequest_isPrefix (s : Str) : (checkAppendRequest s).2 <+: s := by
  rcases checkAppendRequest_cases s with ⟨u, rfl, h⟩ | ⟨-, h⟩
  · exact h ▸ List.prefix_append u _
  · exact h ▸ List.prefix_rfl

theorem suffix_append_cons_iff {w q s : Str} {b : Byte} (hb : b ∉ w) : w <:+ q ++ b :: s ↔ w <:+ s := by
  constructor
  · intro h
    rcases List.suffix_or_suffix_of_suffix h (List.suffix_append q (b :: s)) with hw | hw
    · rcases List.suffix_cons_iff.mp hw with rfl | hw
      · exact absurd (List.mem_cons_self ..) hb
      · exact hw
    · exact absurd (hw.subset (List.mem_cons_self ..)) hb
  · intro h
    exact h.trans ((List.suffix_cons b s).trans (List.suffix_append q _))

theorem intercalate_concat {ts : List Str} (hne : ts ≠ []) (sep : Byte) (t : Str) :
    [sep].intercalate (ts ++ [t]) = [sep].intercalate ts ++ sep :: t := by
  induction ts with
  | nil => exact absurd rfl hne
  | cons a ts ih =>
    cases ts with
    | nil => simp [List.intercalate]
    | cons b ts =>
      have := ih (List.cons_ne_nil b ts)
      rw [List.cons_append, List.cons_append, List.intercalate_cons_cons, ← List.cons_append, this,
        List.intercalate_cons_cons]
      simp

/-- The marker of a list is that of its last token. -/
theorem checkAppendRequest_intercalate (ts : List Str) (t : Str) :
    checkAppendRequest ([ch ','].intercalate (ts ++ [t])) =
      ((checkAppendRequest t).1, [ch ','].intercalate (ts ++ [(checkAppendRequest t).2])) := by
  rcases eq_or_ne ts [] with rfl | hne
  · simp [List.intercalate]
  rw [intercalate_concat hne, intercalate_concat hne]
  rcases checkAppendRequest_cases t with ⟨u, rfl, h⟩ | ⟨hs, h⟩
  · rw [h, ← List.cons_append, ← List.append_assoc, checkAppendRequest_append]
  · rw [h, checkAppendRequest_of_not_suffix]
    rwa [suffix_append_cons_iff (by decide)]

/-- What a token holds from its first underscore on. -/
def underscorePart (token : Str) : Str := token.dropWhile (· ≠ ch '_')

theorem underscorePart_head (token : Str) : ∀ b ∈ (underscorePart token).head?, b = ch '_' := fun b hb => by
  have hhead := List.head?_dropWhile_not (· ≠ ch '_') token
  rw [show (token.dropWhile (· ≠ ch '_')).head? = some b from hb] at hhead
  simpa using hhead

theorem takeWhile_append_marker (u : Str) : (u ++ appendSuffix).takeWhile (· ≠ ch '_') = u.takeWhile (· ≠ ch '_') := by
  induction u with
  | nil => decide
  | cons b u ih =>
    by_cases hb : b = ch '_'
    · simp [hb]
    · simp only [List.cons_append, List.takeWhile_cons, hb, ne_eq, not_false_eq_true, decide_true, if_true] at ih ⊢
      rw [ih]

theorem underscorePart_append (u : Str) : underscorePart (u ++ appendSuffix) = underscorePart u ++ appendSuffix := by
  induction u with
  | nil => decide
  | cons b u ih =>
    by_cases hb : b = ch '_'
    · simp [underscorePart, hb]
    · simp only [underscorePart, List.cons_append, List.dropWhile_cons, hb, ne_eq, not_false_eq_true, decide_true,
        if_true] at ih ⊢
      rw [ih]

/-- The suffix of a token, from its part after the base. -/
def suffixOf (underscore : Str) : Str :=
  if underscore ≠ [] ∧ underscore.length ≤ rrdMaxSuffixLen then
    underscore.filter fun b => isalnum b || b = ch '_' || b = ch '-'
  else []

theorem splitIssueType_eq (token : Str) :
    splitIssueType token = ((token.takeWhile (· ≠ ch '_')).take 127, suffixOf (underscorePart token)) := by
  rw [splitIssueType, suffixOf, underscorePart]
  split <;> rfl

/-- The marker after `w` is read as suffix unless `w` is too long to be one. -/
theorem suffixOf_append_iff {w : Str} (hw : ∀ b ∈ w.head?, b = ch '_') :
    suffixOf (w ++ appendSuffix) = suffixOf w ↔ rrdMaxSuffixLen < w.length := by
  have hlen : (w ++ appendSuffix).length = w.length + 5 := by simp [appendSuffix, str]
  have hfilter : appendSuffix.filter (fun b => isalnum b || b = ch '_' || b = ch '-') = appendSuffix := by decide
  have hne : w ++ appendSuffix ≠ [] := by simp [appendSuffix, str]
  rw [suffixOf, suffixOf, hlen]
  by_cases hlong : rrdMaxSuffixLen < w.length
  · rw [if_neg fun h => by omega, if_neg fun h => by omega]
    simp [hlong]
  simp only [hlong, iff_false]
  by_cases hshort : w.length + 5 ≤ rrdMaxSuffixLen
  · rw [if_pos ⟨hne, hshort⟩, List.filter_append, hfilter]
    intro h
    have := congrArg List.length h
    rw [List.length_append] at this
    have h5 : appendSuffix.length = 5 := rfl
    split at this
    · omega
    · simp only [List.length_nil] at this
      omega
  · rw [if_neg fun h => hshort h.2]
    cases w with
    | nil => exact absurd (by decide) hshort
    | cons b w =>
      have hb : b = ch '_' := hw b rfl
      rw [if_pos ⟨List.cons_ne_nil b w, Nat.le_of_not_lt hlong⟩, List.filter_cons_of_pos (by simp [hb])]
      exact (List.cons_ne_nil _ _).symm

theorem acceptToken_isSome (t : Str) : (acceptToken t).isSome ↔
    removeSpecialCharacterfromIssueTypeList ((t.takeWhile (· ≠ ch '_')).take 127) ≠ [] := by
  rw [acceptToken, splitIssueType_eq]
  simp

/-- With the marker and without it a token has the same base, or none. -/
theorem acceptToken_append_isSome (u : Str) :
    (acceptToken (u ++ appendSuffix)).isSome = (acceptToken u).isSome := by
  rw [Bool.eq_iff_iff, acceptToken_isSome, acceptToken_isSome, takeWhile_append_marker]

theorem acceptToken_append_iff {u : Str} (h : (acceptToken u).isSome) :
    acceptToken (u ++ appendSuffix) = acceptToken u ↔ rrdMaxSuffixLen < (underscorePart u).length := by
  have hne := (acceptToken_isSome u).mp h
  rw [← suffixOf_append_iff (underscorePart_head u), acceptToken, acceptToken, splitIssueType_eq, splitIssueType_eq,
    takeWhile_append_marker, underscorePart_append]
  simp only [hne, if_false, Option.some.injEq, Prod.mk.injEq, true_and]

/-! ## Work items -/

/-- The buffers that an event with this list hands to `processIssueType`. -/
def workItems (issueTypeList : Str) : List DataBuf :=
  let rbuf := pushIssueTypesToMsgQueue issueTypeList .eventMsg
  (acceptedTokens rbuf.mdata).map (cmdBuff rbuf)

/-- What the loop of an event does with the buffers of its tokens, it does with its work items in turn. -/
theorem eachToken_workItems {E : Type} (process : DataBuf → Prog Nat E Unit) (l : Str) :
    eachToken process (pushIssueTypesToMsgQueue l .eventMsg) =
      loop (fun _ item => tag (((item.1.mdata, item.1.suffix), item.2), ·) (process item.1)) ()
        (workItems l).zipIdx := by
  rw [eachToken, workItems, List.zipIdx_map, loop_map]
  rfl

theorem processIssueTypeEvent_workItems (cfg : Config) (env : Env) (l : Str) :
    processIssueTypeEvent cfg env (pushIssueTypesToMsgQueue l .eventMsg) =
      loop (fun _ item => tag (((item.1.mdata, item.1.suffix), item.2), ·) (processIssueType cfg env item.1)) ()
        (workItems l).zipIdx :=
  eachToken_workItems _ l

/-- The buffer of a token in an event of this mode. -/
def workItem (append : Bool) (token : Str × Str) : DataBuf :=
  ⟨.eventMsg, token.1, none, false, append, .deepsleepInvalidDefault, token.2⟩

theorem workItem_inj {a a' : Bool} {p p' : Str × Str} : workItem a p = workItem a' p' ↔ a = a' ∧ p = p' := by
  simp [workItem, Prod.ext_iff, and_left_comm]

theorem workItems_eq (l : Str) : workItems l =
    (acceptedTokens (checkAppendRequest l).2).map (workItem (checkAppendRequest l).1) := rfl

theorem workItems_of_notMem {t : Str} (h : ch ',' ∉ t) : workItems t =
    ((acceptToken (checkAppendRequest t).2).map (workItem (checkAppendRequest t).1)).toList := by
  have hc : ch ',' ∉ (checkAppendRequest t).2 := fun hm => h ((checkAppendRequest_isPrefix t).subset hm)
  rw [workItems_eq, acceptedTokens_of_notMem hc]
  cases acceptToken (checkAppendRequest t).2 <;> rfl

/-- The items of a list: those of its tokens, in the mode of the last one. -/
theorem workItems_intercalate {ts : List Str} {t : Str} (h : ∀ t' ∈ ts ++ [t], ch ',' ∉ t') :
    workItems ([ch ','].intercalate (ts ++ [t])) =
      ts.flatMap (fun t' => ((acceptToken t').map (workItem (checkAppendRequest t).1)).toList) ++ workItems t := by
  have hc : ∀ t' ∈ ts ++ [(checkAppendRequest t).2], ch ',' ∉ t' := fun t' ht' hm => by
    rcases List.mem_append.mp ht' with ht' | ht'
    · exact h t' (List.mem_append_left _ ht') hm
    · rw [List.mem_singleton.mp ht'] at hm
      exact h t (List.mem_append_right _ (List.mem_singleton_self t)) ((checkAppendRequest_isPrefix t).subset hm)
  have hmap (a : Bool) (l : List Str) : (l.filterMap acceptToken).map (workItem a) =
      l.flatMap fun t' => ((acceptToken t').map (workItem a)).toList := by
    induction l with
    | nil => rfl
    | cons t' l ih =>
      rw [List.filterMap_cons, List.flatMap_cons, ← ih]
      cases acceptToken t' <;> rfl
  rw [workItems_eq, checkAppendRequest_intercalate, acceptedTokens_intercalate hc, hmap, List.flatMap_append,
    List.flatMap_singleton, ← workItems_of_notMem (h t (by simp))]

/-- A token that gives an item gives the same one inside a list as alone exactly
when it asks for the mode of the list, and its marker, if it has one, is not
read as suffix. -/
theorem workItem_eq_iff (a : Bool) (t : Str) :
    (acceptToken t).map (workItem a) = (acceptToken (checkAppendRequest t).2).map (workItem (checkAppendRequest t).1) ↔
      ((acceptToken t).isSome → (checkAppendRequest t).1 = a ∧
        ((checkAppendRequest t).1 → rrdMaxSuffixLen < (underscorePart (checkAppendRequest t).2).length)) := by
  have hmap (a' : Bool) (p : Option (Str × Str)) (hp : (acceptToken t).isSome = p.isSome) :
      (acceptToken t).map (workItem a) = p.map (workItem a') ↔ ((acceptToken t).isSome → a' = a ∧ acceptToken t = p) := by
    revert hp
    rcases acceptToken t with _ | q <;> rcases p with _ | q' <;> intro hp
    · simp
    · exact absurd hp (by simp)
    · exact absurd hp (by simp)
    · simp [workItem_inj, eq_comm]
  rcases checkAppendRequest_cases t with ⟨u, rfl, h⟩ | ⟨-, h⟩
  · rw [h, hmap true _ (acceptToken_append_isSome u)]
    refine forall_congr' fun hs => and_congr_right fun _ => ?_
    rw [acceptToken_append_iff (acceptToken_append_isSome u ▸ hs)]
    simp
  · rw [h, hmap false _ rfl]
    simp

theorem flatMap_eq_iff {α β : Type} {f g : α → List β} {l : List α} (hl : ∀ a, (f a).length = (g a).length) :
    l.flatMap f = l.flatMap g ↔ ∀ a ∈ l, f a = g a := by
  induction l with
  | nil => simp
  | cons a l ih =>
    rw [List.flatMap_cons, List.flatMap_cons, List.forall_mem_cons, ← ih]
    constructor
    · intro h
      exact List.append_inj h (hl a)
    · rintro ⟨ha, h⟩
      rw [ha, h]

/-- A list gives the work items of its tokens one by one exactly when every
token before the last one that gives an item carries the append marker if and
only if the last one does, and has, before that marker, more after its first
underscore than a suffix holds. -/
theorem workItems_intercalate_iff {ts : List Str} (h : ∀ t ∈ ts, ch ',' ∉ t) :
    workItems ([ch ','].intercalate ts) = ts.flatMap workItems ↔
      ∀ t ∈ ts.dropLast, (acceptToken t).isSome →
        (checkAppendRequest t).1 = (checkAppendRequest (ts.getLast?.getD [])).1 ∧
          ((checkAppendRequest t).1 → rrdMaxSuffixLen < (underscorePart (checkAppendRequest t).2).length) := by
  rcases List.eq_nil_or_concat ts with rfl | ⟨init, t, rfl⟩
  · simpa using (by decide : workItems ([ch ','].intercalate []) = [])
  rw [List.concat_eq_append] at h ⊢
  have hitems : init.flatMap workItems =
      init.flatMap fun t => ((acceptToken (checkAppendRequest t).2).map (workItem (checkAppendRequest t).1)).toList :=
    List.flatMap_congr fun t' ht' => workItems_of_notMem (h t' (List.mem_append_left _ ht'))
  have hlength (a : Bool) (t' : Str) : ((acceptToken t').map (workItem a)).toList.length =
      ((acceptToken (checkAppendRequest t').2).map (workItem (checkAppendRequest t').1)).toList.length := by
    have hs : (acceptToken t').isSome = (acceptToken (checkAppendRequest t').2).isSome := by
      rcases checkAppendRequest_cases t' with ⟨u, rfl, hu⟩ | ⟨-, hu⟩
      · rw [hu, acceptToken_append_isSome]
      · rw [hu]
    have hlen (b : Bool) (p : Option (Str × Str)) : (p.map (workItem b)).toList.length = p.isSome.toNat := by
      cases p <;> rfl
    rw [hlen, hlen, hs]
  have htoList {α : Type} (x y : Option α) : x.toList = y.toList ↔ x = y := by
    rcases x with _ | x <;> rcases y with _ | y <;> simp
  rw [workItems_intercalate h, List.flatMap_append, List.flatMap_singleton, List.append_left_inj, hitems,
    flatMap_eq_iff (hlength _), List.dropLast_concat, List.getLast?_concat, Option.getD_some]
  refine forall_congr' fun t' => forall_congr' fun _ => ?_
  rw [htoList, workItem_eq_iff]

theorem workItems_intercalate_iff_sample : workItems (str "A,B") = [str "A", str "B"].flatMap workItems := by
  have h : ∀ t ∈ [str "A", str "B"], ch ',' ∉ t := by decide
  exact (workItems_intercalate_iff h).mpr (by decide)

/-- The marker of the last token puts the first one in append mode, too. -/
theorem append_marker_spreads : (∀ t ∈ [str "A", str "B_apnd"], ch ',' ∉ t) ∧
    workItems ([ch ','].intercalate [str "A", str "B_apnd"]) ≠ [str "A", str "B_apnd"].flatMap workItems := by
  decide

end RRD
