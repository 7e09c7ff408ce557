import RemoteDebugger.Proof.Dispatch.Confined
import RemoteDebugger.Proof.Dispatch.List

/-!
# What a suffix changes in a message

* `checkIssueNodeInfo_withSuffix`, `processIssueType_withSuffix`: a suffix is
  appended to the name of the upload, and changes nothing else;
* `token_effects`: the effects of a message of one token.
-/

namespace RRD

open Framework Framework.Prog

/-- A suffix at the end of the name of an upload. -/
def Effect.withSuffix (suffix : Str) : Effect → Effect
  | .uploadDebugoutput outdir issuename => .uploadDebugoutput outdir (issuename ++ suffix)
  | e => e

def DataBuf.withSuffix (rbuf : DataBuf) (suffix : Str) : DataBuf := { rbuf with suffix := suffix }

variable {cfg : Config} {env : Env} {issue : IssueNodeData} {rbuf : DataBuf} {suffix : Str}

theorem Effect.IsCommand.withSuffix {P : IssueData → Prop} {e : Effect} (h : e.IsCommand P) :
    e.withSuffix suffix = e := by
  cases e with
  | uploadDebugoutput => exact h.elim
  | _ => rfl

theorem Effect.IsDownload.withSuffix {pkg : Str} {e : Effect} (h : e.IsDownload pkg rbuf) :
    e.withSuffix suffix = e := by
  cases e with
  | uploadDebugoutput => exact h.elim
  | _ => rfl

section

variable (hbuf : rbuf.suffix = []) (hlen : (rbuf.mdata ++ suffix).length < 512)

include hbuf hlen

theorem uploadReport_withSuffix (outdir : Str) :
    uploadReport outdir (rbuf.withSuffix suffix) = tag (Effect.withSuffix suffix) (uploadReport outdir rbuf) := by
  have hshort : ¬ 512 ≤ (rbuf.mdata ++ rbuf.suffix).length := by
    rw [hbuf, List.append_nil]
    rw [List.length_append] at hlen
    omega
  have hlong : ¬ 512 ≤ ((rbuf.withSuffix suffix).mdata ++ (rbuf.withSuffix suffix).suffix).length := Nat.not_le.mpr hlen
  rw [uploadReport, uploadReport, if_neg hshort, if_neg hlong, tag_emit, Effect.withSuffix, hbuf, List.append_nil]
  rfl

theorem checkIssueNodeInfo_withSuffix (jsoncfg : Option CJson) (deep : Bool) (data : Option IssueData) :
    checkIssueNodeInfo cfg env issue jsoncfg (rbuf.withSuffix suffix) deep data =
      tag (Effect.withSuffix suffix) (checkIssueNodeInfo cfg env issue jsoncfg rbuf deep data) := by
  have hcommands (deep : Bool) : tag (Effect.withSuffix suffix) (runIssueCommands cfg env issue jsoncfg rbuf deep data) =
      runIssueCommands cfg env issue jsoncfg rbuf deep data :=
    Emits.tag_eq ((runIssueCommands_emits (fun _ _ => trivial) fun _ _ => trivial).mono fun _ =>
      Effect.IsCommand.withSuffix (P := fun _ => True))
  have hsame (deep : Bool) : runIssueCommands cfg env issue jsoncfg (rbuf.withSuffix suffix) deep data =
      runIssueCommands cfg env issue jsoncfg rbuf deep data := rfl
  rw [checkIssueNodeInfo, checkIssueNodeInfo]
  cases issue.node with
  | none => rfl
  | some node =>
    have hmkdir (outdir : Str) : tag (Effect.withSuffix suffix) (makeOutdir env outdir) = makeOutdir env outdir :=
      Emits.tag_eq (makeOutdir_emits rfl)
    simp only [tag_bind, tag_call, hmkdir, apply_ite (tag (Effect.withSuffix suffix)), tag_pure, hsame, hcommands,
      uploadReport_withSuffix hbuf hlen]

omit hbuf hlen in
theorem rrdRdmManagerDownloadRequest_withSuffix {node : Str} (hnode : issue.node = some node) :
    rrdRdmManagerDownloadRequest cfg env issue (rbuf.withSuffix suffix) false =
      tag (Effect.withSuffix suffix) (rrdRdmManagerDownloadRequest cfg env issue rbuf false) :=
  (Emits.tag_eq ((rrdRdmManagerDownloadRequest_emits hnode).mono fun _ => Effect.IsDownload.withSuffix)).symm

theorem processIssueTypeInInstalledPackage_withSuffix {node : Str} (hnode : issue.node = some node) :
    processIssueTypeInInstalledPackage cfg env (rbuf.withSuffix suffix) issue =
      tag (Effect.withSuffix suffix) (processIssueTypeInInstalledPackage cfg env rbuf issue) := by
  simp only [processIssueTypeInInstalledPackage, hnode, tag_bind, tag_call]
  refine bind_congr fun json => ?_
  cases json with
  | none => exact rrdRdmManagerDownloadRequest_withSuffix hnode
  | some json =>
    simp only [apply_ite (tag (Effect.withSuffix suffix)), checkIssueNodeInfo_withSuffix hbuf hlen,
      rrdRdmManagerDownloadRequest_withSuffix hnode]

theorem processIssueTypeInStaticProfile_withSuffix {node : Str} (hnode : issue.node = some node) :
    processIssueTypeInStaticProfile cfg env (rbuf.withSuffix suffix) issue =
      tag (Effect.withSuffix suffix) (processIssueTypeInStaticProfile cfg env rbuf issue) := by
  simp only [processIssueTypeInStaticProfile, tag_bind, tag_call]
  refine bind_congr fun json => ?_
  cases json with
  | none => exact processIssueTypeInInstalledPackage_withSuffix hbuf hlen hnode
  | some json =>
    simp only [apply_ite (tag (Effect.withSuffix suffix)), checkIssueNodeInfo_withSuffix hbuf hlen,
      processIssueTypeInInstalledPackage_withSuffix hbuf hlen hnode]

theorem processIssueTypeInDynamicProfile_withSuffix :
    processIssueTypeInDynamicProfile cfg env (rbuf.withSuffix suffix) issue =
      tag (Effect.withSuffix suffix) (processIssueTypeInDynamicProfile cfg env rbuf issue) := by
  have hpath : (rbuf.withSuffix suffix).jsonPath = rbuf.jsonPath := rfl
  rw [processIssueTypeInDynamicProfile, processIssueTypeInDynamicProfile, hpath]
  cases rbuf.jsonPath with
  | none => rfl
  | some path =>
    simp only [tag_bind, tag_call]
    refine bind_congr fun json => ?_
    cases json with
    | none => rfl
    | some json => simp only [apply_ite (tag (Effect.withSuffix suffix)), checkIssueNodeInfo_withSuffix hbuf hlen, tag_pure]

omit hbuf hlen in
theorem processIssueTypeInDynamicProfileappend_withSuffix {node : Str} (hnode : issue.node = some node) :
    processIssueTypeInDynamicProfileappend cfg env (rbuf.withSuffix suffix) issue =
      tag (Effect.withSuffix suffix) (processIssueTypeInDynamicProfileappend cfg env rbuf issue) := by
  simp only [processIssueTypeInDynamicProfileappend, hnode, tag_bind, tag_call]
  refine bind_congr fun json => ?_
  cases json with
  | none => simp only [tag_bind, tag_pure, rrdRdmManagerDownloadRequest_withSuffix hnode]
  | some json => exact (Emits.tag_eq (profileData_emits json)).symm

omit hbuf hlen in
theorem processIssueTypeInStaticProfileappend_withSuffix :
    processIssueTypeInStaticProfileappend cfg env (rbuf.withSuffix suffix) issue =
      tag (Effect.withSuffix suffix) (processIssueTypeInStaticProfileappend cfg env rbuf issue) :=
  (Emits.tag_eq processIssueTypeInStaticProfileappend_emits).symm

theorem processIssueType_withSuffix : processIssueType cfg env (rbuf.withSuffix suffix) =
    tag (Effect.withSuffix suffix) (processIssueType cfg env rbuf) := by
  have hmdata : (rbuf.withSuffix suffix).mdata = rbuf.mdata := rfl
  cases hissue : getIssueInfo rbuf.mdata with
  | none => simp only [processIssueType, hmdata, hissue, tag_stop]
  | some issue =>
    obtain ⟨node, hnode, -⟩ := getIssueInfo_node hissue
    simp only [processIssueType, hmdata, hissue, apply_ite (tag (Effect.withSuffix suffix))]
    refine ite_congr rfl (fun _ => ?_) fun _ => ite_congr rfl (fun _ => ?_) fun _ => ?_
    · simp only [tag_bind, processIssueTypeInDynamicProfileappend_withSuffix hnode]
      refine bind_congr fun dynamic => ?_
      cases dynamic with
      | none => rfl
      | some dynamic =>
        simp only [tag_bind, processIssueTypeInStaticProfileappend_withSuffix]
        refine bind_congr fun static => ?_
        cases static with
        | none => rfl
        | some static => exact checkIssueNodeInfo_withSuffix hbuf hlen _ _ _
    · exact processIssueTypeInDynamicProfile_withSuffix hbuf hlen
    · exact processIssueTypeInStaticProfile_withSuffix hbuf hlen hnode

end

/-! ## A message of one token -/

/-- A token: a base without underscore, and a suffix that starts with one, if it
is not empty. It is the only one of its message, and no marker of append mode. -/
structure TokenParts (base suffix : Str) : Prop where
  base_underscore : ch '_' ∉ base
  suffix_head : ∀ b ∈ suffix.head?, b = ch '_'
  comma : ch ',' ∉ base ++ suffix
  marker : ¬ appendSuffix <:+ base ++ suffix

/-- The base of a token, as it is looked up. -/
def cleanBase (base : Str) : Str := removeSpecialCharacterfromIssueTypeList (base.take 127)

/-- The buffer of a token with that base and no suffix. -/
def baseBuff (base : Str) : DataBuf :=
  cmdBuff (rrdDataBuffInit .eventMsg .deepsleepInvalidDefault []) (cleanBase base, [])

/-- What a message does for a token, but for its suffix. -/
def baseRun (cfg : Config) (env : Env) (base : Str) : Outcome Nat Effect Unit :=
  if cleanBase base = [] then ⟨some (), [], 0⟩ else (processIssueType cfg env (baseBuff base)).run 0

theorem length_cleanBase (base : Str) : (cleanBase base).length ≤ 127 :=
  (List.length_filter_le ..).trans (List.length_take_le ..)

theorem length_suffixOf (suffix : Str) : (suffixOf suffix).length ≤ rrdMaxSuffixLen := by
  rw [suffixOf]
  split
  · rename_i h
    exact (List.length_filter_le ..).trans h.2
  · exact Nat.zero_le _

variable {base : Str}

theorem acceptToken_parts (hbase : ch '_' ∉ base) (hsuffix : ∀ b ∈ suffix.head?, b = ch '_') :
    acceptToken (base ++ suffix) = if cleanBase base = [] then none else some (cleanBase base, suffixOf suffix) := by
  have htake : suffix.takeWhile (· ≠ ch '_') = [] := by
    cases suffix with
    | nil => rfl
    | cons b s => simp [hsuffix b rfl]
  have hdrop : suffix.dropWhile (· ≠ ch '_') = suffix := by
    cases suffix with
    | nil => rfl
    | cons b s => simp [hsuffix b rfl]
  rw [RRD.acceptToken, splitIssueType_eq, underscorePart, takeWhile_ne_append hbase, htake, List.append_nil,
    List.dropWhile_append_of_pos (decide_ne_of_notMem hbase), hdrop]
  rfl

/-- A suffix that is read again is read the same. -/
theorem suffixOf_suffixOf (underscore : Str) : suffixOf (suffixOf underscore) = suffixOf underscore := by
  rw [suffixOf]
  split
  · rename_i h
    rw [suffixOf] at h ⊢
    split
    · rw [List.filter_filter]
      simp only [Bool.and_self]
    · rfl
  · rename_i h
    by_contra hne
    exact h ⟨Ne.symm hne, length_suffixOf underscore⟩

theorem suffixOf_head {underscore : Str} (h : ∀ b ∈ underscore.head?, b = ch '_') :
    ∀ b ∈ (suffixOf underscore).head?, b = ch '_' := by
  rw [suffixOf]
  split
  · cases underscore with
    | nil => simp
    | cons b s =>
      have hb : b = ch '_' := h b rfl
      rw [List.filter_cons_of_pos (by simp [hb])]
      simpa using hb
  · simp

/-- An accepted token is the only one of the message of its base and its suffix. -/
theorem acceptedTokens_alone {mdata : Str} {token : Str × Str} (h : token ∈ acceptedTokens mdata) :
    acceptedTokens (token.1 ++ token.2) = [token] := by
  have hclean := acceptedTokens_clean h
  obtain ⟨part, -, hpart⟩ := List.mem_filterMap.mp (acceptedTokens_eq mdata ▸ h)
  obtain ⟨base, suffix⟩ := token
  rw [RRD.acceptToken, splitIssueType_eq, Option.ite_none_left_eq_some, Option.some.injEq, Prod.mk.injEq] at hpart
  obtain ⟨-, -, rfl⟩ := hpart
  have hbase : cleanBase base = base := by
    rw [cleanBase, List.take_of_length_le hclean.length_le]
    exact List.filter_eq_self.mpr fun x hx => by
      rcases hclean.chars x hx with hx | hx <;> simp [hx]
  have hcomma : ch ',' ∉ base ++ suffixOf (underscorePart part) := by
    intro hc
    rcases List.mem_append.mp hc with hc | hc
    · exact hclean.notMem_comma hc
    · rw [suffixOf] at hc
      split at hc
      · exact absurd (List.mem_filter.mp hc).2 (by decide)
      · cases hc
  rw [acceptedTokens_of_notMem hcomma, acceptToken_parts hclean.notMem_underscore (suffixOf_head (underscorePart_head part)),
    hbase, if_neg hclean.ne_nil, suffixOf_suffixOf]
  rfl

/-- The message of a token does what it does without the suffix, but for the name of the upload. -/
theorem TokenParts.run (h : TokenParts base suffix) (cfg : Config) (env : Env) :
    ((rrdEventThreadFunc cfg env (pushIssueTypesToMsgQueue (base ++ suffix) .eventMsg)).run 0).result =
        (baseRun cfg env base).result ∧
      ((rrdEventThreadFunc cfg env (pushIssueTypesToMsgQueue (base ++ suffix) .eventMsg)).run 0).events.map Prod.snd =
        (baseRun cfg env base).events.map (Effect.withSuffix (suffixOf suffix)) := by
  have hpush : pushIssueTypesToMsgQueue (base ++ suffix) .eventMsg =
      rrdDataBuffInit .eventMsg .deepsleepInvalidDefault (base ++ suffix) := by
    rw [pushIssueTypesToMsgQueue, checkAppendRequest_of_not_suffix h.marker]
    rfl
  have htokens : acceptedTokens (base ++ suffix) =
      (if cleanBase base = [] then none else some (cleanBase base, suffixOf suffix)).toList := by
    rw [acceptedTokens_of_notMem h.comma, acceptToken_parts h.base_underscore h.suffix_head]
  have hevent : rrdEventThreadFunc cfg env (rrdDataBuffInit .eventMsg .deepsleepInvalidDefault (base ++ suffix)) =
      processIssueTypeEvent cfg env (rrdDataBuffInit .eventMsg .deepsleepInvalidDefault (base ++ suffix)) := rfl
  rw [hpush, hevent, processIssueTypeEvent, eachToken,
    show (rrdDataBuffInit .eventMsg .deepsleepInvalidDefault (base ++ suffix)).mdata = base ++ suffix from rfl, htokens,
    baseRun]
  by_cases hempty : cleanBase base = []
  · rw [if_pos hempty, if_pos hempty]
    exact ⟨rfl, rfl⟩
  · rw [if_neg hempty, if_neg hempty]
    have hbuff : cmdBuff (rrdDataBuffInit .eventMsg .deepsleepInvalidDefault (base ++ suffix))
        (cleanBase base, suffixOf suffix) = (baseBuff base).withSuffix (suffixOf suffix) := rfl
    have hlen : ((baseBuff base).mdata ++ suffixOf suffix).length < 512 := by
      have hbase : (baseBuff base).mdata.length ≤ 127 := length_cleanBase base
      have hsuffix : (suffixOf suffix).length ≤ 9 := length_suffixOf suffix
      rw [List.length_append]
      omega
    show ((loop _ () [((cleanBase base, suffixOf suffix), 0)]).run 0).result = _ ∧
      ((loop _ () [((cleanBase base, suffixOf suffix), 0)]).run 0).events.map Prod.snd = _
    rw [loop_singleton, hbuff, processIssueType_withSuffix rfl hlen, tag_run, tag_run]
    exact ⟨rfl, by rw [List.map_map]; exact List.map_id _⟩

end RRD
