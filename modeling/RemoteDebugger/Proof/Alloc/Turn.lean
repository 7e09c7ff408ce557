import RemoteDebugger.Proof.Alloc.Dispatch
import RemoteDebugger.Proof.Alloc.WebCfg

/-!
# The memory of a turn

* `processTokens_refines`: each token frees its buffer;
* `rrdProcessDeepSleepAwakeEvents_refines`: the node on the stack, and the deep sleep profile;
* `processWebCfgTypeEvent_refines`: a payload leaves the request that is handed over;
* `turn_memory`: a turn with its allocations does what the turn does, with no step
  on a block that is not live, and leaves what `Remaining` says of its message.
-/

namespace RRD.Alloc

open Framework Framework.Prog

variable {cfg : Config} {env : Env} {own : Multiset (Block Site)} {rbuf : DataBufPtr} {mdata : CharPtr} {γ δ : Type}
  {out : γ → Multiset (Block Site)} {R : γ → δ → Prop}

/-- The blocks of a buffer. -/
def ofBuff (rbuf : DataBufPtr) : Multiset (Block Site) := rbuf.blocks

theorem ofBuff_eq (rbuf : DataBufPtr) : ofBuff rbuf = {rbuf.block} + ofStrings rbuf := by
  rw [ofBuff, DataBufPtr.blocks, ofStrings, ← Multiset.coe_add, ← Multiset.coe_add, ← Multiset.cons_coe, add_assoc,
    add_assoc, ← Multiset.singleton_add]
  rfl

/-! ## Tokens -/

theorem rrdDataBuffDeAlloc_bind {Q : Prog Nat Effect δ} {f : Unit → AllocProg γ} (h : Refines MayRemain own (f ()) Q out R) :
    Refines MayRemain (ofBuff rbuf + own) (rrdDataBuffDeAlloc rbuf >>= f) Q out R := by
  rw [rrdDataBuffDeAlloc, ofBuff_eq]
  simp only [bind_assoc]
  refine .use (by simp) (.free ({rbuf.block} + ofStr rbuf.jsonPath + ofStr rbuf.suffix + own) ?_
    (.free ({rbuf.block} + ofStr rbuf.suffix + own) ?_ (.free ({rbuf.block} + own) ?_ (.free own ?_ h))))
  · have hstr : ofPtr (blockOf rbuf.mdata) = ofStr rbuf.mdata := rfl
    rw [hstr, ofStrings]
    abel
  · have hstr : ofPtr (blockOf rbuf.jsonPath) = ofStr rbuf.jsonPath := rfl
    rw [hstr]
    abel
  · have hstr : ofPtr (blockOf rbuf.suffix) = ofStr rbuf.suffix := rfl
    rw [hstr]
    abel
  · rfl

/-- The program of a token, if it is accepted. -/
def tokenProg (cfg : Config) (env : Env) (rbuf : DataBuf) : Option (Str × Str) → Prog Nat Effect Unit
  | none => pure ()
  | some token => RRD.processIssueType cfg env (cmdBuff rbuf token)

theorem processToken_refines {arg : CharPtr} (hrbuf : ∀ b ∈ ofBuff rbuf, b ∈ own) :
    Refines MayRemain ({arg.block} + own) (processToken cfg env rbuf arg)
      (tokenProg cfg env rbuf.value (acceptedToken arg.text)) (fun _ => own) (fun _ _ => True) := by
  rw [processToken]
  refine .malloc fun cmdBuff _ => .use (by simp) ?_
  cases acceptedToken arg.text with
  | none => exact .free ({arg.block} + own) rfl (.of_bind_pure₂ (.free own rfl (.pure trivial rfl)))
  | some token =>
    obtain ⟨base, localSuffix⟩ := token
    dsimp only
    refine .use ?_ ?_
    · rw [ofBuff_eq, ofStrings] at hrbuf
      intro b hb
      simp only [List.mem_cons, mem_textOf, Multiset.mem_add, Multiset.mem_singleton] at hb hrbuf ⊢
      grind
    refine strdupIf_bind fun jsonPath hpath _ => strdup_bind fun mdata hmdata _ => strdupIf_bind fun suffix hsuffix _ => ?_
    let buff : DataBufPtr := ⟨cmdBuff, .eventMsg, some mdata, jsonPath, rbuf.inDynamic, rbuf.appendMode,
      .deepsleepInvalidDefault, suffix⟩
    have hvalue : RRD.cmdBuff rbuf.value (base, localSuffix) = buff.value := by
      have hempty : localSuffix = (if localSuffix = [] then none else some localSuffix).getD [] := by
        split
        · assumption
        · rfl
      simp only [buff, RRD.cmdBuff, rrdDataBuffInit, DataBufPtr.value, Option.map_some, Option.getD_some, hmdata, hpath,
        hsuffix]
      exact congrArg _ hempty
    have hown : ofStr suffix + ({mdata.block} + (ofStr jsonPath + ({cmdBuff} + ({arg.block} + own)))) =
        ofStrings buff + ({cmdBuff} + ({arg.block} + own)) := by
      rw [ofStrings, ofStr_some]
      abel
    rw [tokenProg, hvalue, hown]
    refine .of_bind_pure ((processIssueType_refines (by simp [buff]) rfl).bind fun buff' _ hblock => ?_)
    have hown' : ofStrings buff' + ({cmdBuff} + ({arg.block} + own)) = ofBuff buff' + ({arg.block} + own) := by
      rw [ofBuff_eq, hblock]
      abel
    rw [hown']
    exact rrdDataBuffDeAlloc_bind (.of_bind_pure₂ (.free own rfl (.pure trivial rfl)))

/-- The blocks of strings. -/
def ofArgs (args : List CharPtr) : Multiset (Block Site) := args.map CharPtr.block

theorem processTokens_refines {args : List CharPtr} (hrbuf : ∀ b ∈ ofBuff rbuf, b ∈ own) (k : Nat) :
    Refines MayRemain (ofArgs args + own) (processTokens cfg env rbuf k args)
      (loop (fun _ token => tag (token, ·) (RRD.processIssueType cfg env (cmdBuff rbuf.value token.1))) ()
        ((args.filterMap fun arg => acceptedToken arg.text).zipIdx k)) (fun _ => own) (fun _ _ => True) := by
  induction args generalizing k with
  | nil => exact .pure trivial (zero_add own)
  | cons arg args ih =>
    rw [processTokens, List.filterMap_cons]
    have hown : ofArgs (arg :: args) + own = {arg.block} + (ofArgs args + own) := by
      rw [ofArgs, ofArgs, List.map_cons, ← Multiset.cons_coe, ← Multiset.singleton_add, add_assoc]
    have hstay : ∀ b ∈ ofBuff rbuf, b ∈ ofArgs args + own := fun b hb => Multiset.mem_add.mpr (.inr (hrbuf b hb))
    have htoken : Refines MayRemain ({arg.block} + (ofArgs args + own)) (processToken cfg env rbuf arg)
        (tokenProg cfg env rbuf.value (acceptedToken arg.text)) (fun _ => ofArgs args + own) (fun _ _ => True) :=
      processToken_refines hstay
    rw [hown]
    generalize acceptedToken arg.text = token at htoken ⊢
    cases token with
    | none =>
      -- nothing is marked
      have hmark := htoken.tag (((([] : Str), ([] : Str)), k), ·)
      exact hmark.bind fun _ _ _ => ih k
    | some token => exact (htoken.tag ((token, k), ·)).bind fun _ _ _ => ih (k + 1)

/-! ## A list of issue types -/

theorem strdups_bind {W E : Type} {site : Site} {texts : List Str} {Q : Prog W E δ}
    {f : List CharPtr → Prog (W × Nat) (MemEvent Site E) γ}
    (h : ∀ args : List CharPtr, args.map CharPtr.text = texts → Refines MayRemain (ofArgs args + own) (f args) Q out R) :
    Refines MayRemain own (results (strdup site) texts >>= f) Q out R := by
  induction texts generalizing own f with
  | nil =>
    have hnil := h [] rfl
    rwa [ofArgs, List.map_nil, Multiset.coe_nil, zero_add] at hnil
  | cons text texts ih =>
    show Refines MayRemain own ((strdup site text >>= fun arg => results (strdup site) texts >>= fun args =>
      pure (arg :: args)) >>= f) Q out R
    simp only [bind_assoc]
    refine strdup_bind fun arg htext _ => ih fun args htexts => ?_
    have hown : ofArgs args + ({arg.block} + own) = ofArgs (arg :: args) + own := by
      rw [ofArgs, ofArgs, List.map_cons, ← Multiset.cons_coe, ← Multiset.singleton_add]
      abel
    rw [hown]
    exact h (arg :: args) (by rw [List.map_cons, htext, htexts])

/-- The message is not freed, whatever its tokens do. -/
theorem processIssueTypeEvent_refines (hmdata : rbuf.mdata = some mdata) :
    Refines MayRemain (ofBuff rbuf + own) (processIssueTypeEvent cfg env rbuf)
      (RRD.processIssueTypeEvent cfg env rbuf.value) (fun r => (r : Multiset (Block Site)) + own)
      (fun r _ => r = rbuf.blocks) := by
  have hmem : ∀ b ∈ ofBuff rbuf, b ∈ ofBuff rbuf + own := fun b hb => Multiset.mem_add.mpr (.inl hb)
  have hblock : rbuf.block ∈ ofBuff rbuf := by simp [ofBuff_eq]
  have hstr : mdata.block ∈ ofBuff rbuf := by simp [ofBuff_eq, mem_ofStrings hmdata]
  rw [processIssueTypeEvent, hmdata, RRD.processIssueTypeEvent, RRD.eachToken, value_mdata hmdata]
  refine .use (by simpa using .inl hblock) ?_
  simp only [issueTypeSplitter, bind_assoc, pure_bind]
  refine .use (by simpa using .inl hstr) (.malloc fun args _ => strdups_bind fun tokens htokens => ?_)
  have haccepted : acceptedTokens mdata.text = tokens.filterMap fun arg => acceptedToken arg.text := by
    show (RRD.issueTypeSplitter mdata.text (ch ',')).filterMap acceptedToken = _
    rw [← htokens, List.filterMap_map]
    rfl
  rw [haccepted]
  refine .of_bind_pure ((processTokens_refines (fun b hb => ?_) 0).bind fun _ _ _ => ?_)
  · simp [hmem b hb]
  · exact .free (ofBuff rbuf + own) rfl (.pure rfl rfl)

/-- The `mdata` is freed, and the request stays. -/
theorem processWebCfgTypeEvent_refines (hmdata : rbuf.mdata = some mdata) {lib : WebCfgLib} {answer : Int × Option ExecData}
    (hread : RRD.decodeWebCfgData lib mdata.text = .ok answer) :
    Refines MayRemain (ofBuff rbuf + own) (processWebCfgTypeEvent lib rbuf) (RRD.processWebCfgTypeEvent rbuf.value)
      (fun r => (r.1 : Multiset (Block Site)) + ofRequest r.2 + own)
      (fun r _ => r.1 = { rbuf with mdata := none }.blocks ∧ r.2.map ExecDataPtr.value = answer.2) := by
  have hblock : rbuf.block ∈ ofBuff rbuf := by simp [ofBuff_eq]
  have hstr : mdata.block ∈ ofBuff rbuf := by simp [ofBuff_eq, mem_ofStrings hmdata]
  rw [processWebCfgTypeEvent, hmdata, RRD.processWebCfgTypeEvent, value_mdata hmdata]
  refine .use (by simpa using .inl hblock) (.use (by simpa using .inl hstr) (.of_bind_pure (.lift_bind fun _ => ?_)))
  have hdecode : Refines MayRemain (ofBuff rbuf + own) (decodeWebCfgData lib mdata.text)
      (orStop (.ok answer) : Prog Nat Effect _) (fun r => ofRequest r.2 + (ofBuff rbuf + own))
      (fun r r' => r.1 = r'.1 ∧ r.2.map ExecDataPtr.value = r'.2) := hread ▸ decodeWebCfgData_refines lib mdata.text
  refine hdecode.eq_of_pure.bind (g := fun _ => pure ()) ?_
  rintro r _ ⟨⟨-, hrequest⟩, rfl⟩
  refine .free (ofBuff { rbuf with mdata := none } + ofRequest r.2 + own) ?_ (.pure ⟨rfl, hrequest⟩ rfl)
  simp only [ofBuff_eq, ofStrings, hmdata, ofStr_some, ofStr_none, ofPtr, Option.toList_some, Multiset.coe_singleton]
  abel

/-! ## Deep sleep -/

/-- What `RRDCheckIssueInDynamicProfile` answers: the text of a profile with the
issue, or the message without the strings that are freed. -/
structure Checked (rbuf : DataBufPtr) (r : Option CharPtr × DataBufPtr) (value : Option Str) : Prop where
  value : r.1.map CharPtr.text = value
  site : ∀ b ∈ ofStr r.1, b.site = .deepSleepText
  found : r.1.isSome → r.2 = rbuf ∧ rbuf.inDynamic
  elsewhere : rbuf.inDynamic = false → r.2 = rbuf
  block : r.2.block = rbuf.block
  sub : ofStrings r.2 ≤ ofStrings rbuf
  missing : r.1 = none → rbuf.inDynamic → ofStrings r.2 ≤ ofStrings { rbuf with mdata := none }

theorem ofStrings_noPath_le (buff : DataBufPtr) :
    ofStrings { buff with mdata := none, jsonPath := none } ≤ ofStrings { buff with mdata := none } := by
  simp only [ofStrings, ofStr_none]
  rw [zero_add, zero_add, zero_add]
  exact Multiset.le_add_left _ _

theorem ofStrings_noMdata_le (buff : DataBufPtr) : ofStrings { buff with mdata := none } ≤ ofStrings buff := by
  simp only [ofStrings, ofStr_none]
  rw [zero_add, add_assoc]
  exact Multiset.le_add_left _ _

theorem rrdCheckIssueInDynamicProfile_refines {issue : IssueNodePtr} (hissue : ∀ b ∈ issue.blocks, b ∈ own)
    (hrbuf : rbuf.block ∈ own) :
    Refines MayRemain (ofStrings rbuf + own) (rrdCheckIssueInDynamicProfile cfg env rbuf issue)
      (RRD.rrdCheckIssueInDynamicProfile cfg env rbuf.value issue.value) (fun r => ofStr r.1 + (ofStrings r.2 + own))
      (Checked rbuf) := by
  have hpathLe := ofStrings_noPath_le rbuf
  have hmdataLe := ofStrings_noMdata_le rbuf
  rw [rrdCheckIssueInDynamicProfile]
  refine .use (by simp [hrbuf]) ?_
  unfold RRD.rrdCheckIssueInDynamicProfile
  obtain ⟨block, mtype, mdata, path, inDynamic, appendMode, dsEvent, suffix⟩ := rbuf
  cases inDynamic with
  | false =>
    exact .pure ⟨rfl, by simp, by simp, fun _ => rfl, rfl, le_rfl, fun _ h => by cases h⟩ (by rw [ofStr_none, zero_add])
  | true =>
    cases path with
    | none =>
      refine .free (ofStrings ⟨block, mtype, none, none, true, appendMode, dsEvent, suffix⟩ + own) ?_
        (.pure ⟨rfl, by simp, by simp, by simp, rfl, hmdataLe, fun _ _ => le_rfl⟩ (by rw [ofStr_none, zero_add]))
      have hstr : ofPtr (blockOf mdata) = ofStr mdata := rfl
      rw [hstr]
      simp only [ofStrings, ofStr_none]
      abel
    | some path =>
      simp only [DataBufPtr.value, Option.map_some, if_true]
      -- the strings that are freed where the issue is not found
      have hmissing : Checked ⟨block, mtype, mdata, some path, true, appendMode, dsEvent, suffix⟩
          (none, ⟨block, mtype, none, none, true, appendMode, dsEvent, suffix⟩) none :=
        ⟨rfl, by simp, by simp, by simp, rfl, hpathLe.trans hmdataLe, fun _ _ => hpathLe⟩
      have hrest : ofStr suffix = ofStrings ⟨block, mtype, none, none, true, appendMode, dsEvent, suffix⟩ := by
        simp [ofStrings]
      refine .use (by simp [ofStrings]) (readAndParseJSON_bind fun doc hsite => ?_)
      cases doc with
      | none =>
        rw [ofDoc_none, zero_add]
        refine freeMessage_bind (.pure hmissing ?_)
        rw [ofStr_none, zero_add, hrest]
      | some parsed =>
        refine .use (by simp) (strdup_bind fun jsonParsed htext hjson => ?_)
        refine parseText_bind (by simp) fun issues hissues hsite' => ?_
        have hdocs : ∀ b ∈ ofDoc issues + ofDoc (some parsed), MayRemain b := by
          intro b hb
          rcases Multiset.mem_add.mp hb with hb | hb
          · simp [MayRemain, hsite' b hb]
          · simp [MayRemain, hsite b hb]
        have hvalue : RRD.findIssueInParsedJSON cfg issue.value (docJson issues) =
            RRD.findIssueInParsedJSON cfg issue.value (cfg.cJsonParse (cfg.cJsonPrint parsed.json)) := by
          rw [hissues, htext]
        refine findIssueInParsedJSON_bind ?_ ?_ ?_
        · intro b hb
          simp [hissue b hb]
        · exact fun b hb => Multiset.mem_add.mpr (.inl hb)
        rw [hvalue]
        simp only [docJson, Option.map_some]
        cases RRD.findIssueInParsedJSON cfg issue.value (cfg.cJsonParse (cfg.cJsonPrint parsed.json)) with
        | true =>
          refine .leave (ofDoc issues + ofDoc (some parsed)) _ ?_ hdocs
            (.pure ⟨congrArg some htext, by simp [hjson], fun _ => ⟨rfl, rfl⟩, by simp, rfl, le_rfl, by simp⟩ rfl)
          rw [ofStr_some]
          abel
        | false =>
          refine .use (by simp [ofStrings]) ?_
          refine .leave (ofDoc issues + ofDoc (some parsed))
            (ofStrings ⟨block, mtype, mdata, some path, true, appendMode, dsEvent, suffix⟩ + ({jsonParsed.block} + own))
            (by abel) hdocs ?_
          refine freeMessage_bind (.free (ofStr suffix + own) ?_ (.pure hmissing ?_))
          · simp only [ofPtr, Option.toList_some, Multiset.coe_singleton]
            abel
          · rw [ofStr_none, zero_add, hrest]

/-- The deep sleep messages that are answered: `mdata` is freed. -/
def Answered (rbuf : DataBufPtr) : Prop :=
  rbuf.dsEvent = .deepsleepRdmDownloadPkgInitiate ∨ rbuf.dsEvent = .deepsleepRdmPkgInstallComplete ∧ rbuf.inDynamic

/-- What is left of a deep sleep message. -/
structure DeepSleepRemaining (rbuf : DataBufPtr) (r : List (Block Site)) : Prop where
  sub : (r : Multiset (Block Site)) ≤ ofBuff rbuf
  struct : rbuf.block ∈ r
  answered : Answered rbuf → (r : Multiset (Block Site)) ≤ ofBuff { rbuf with mdata := none }
  unanswered : ¬Answered rbuf → r = rbuf.blocks

theorem DeepSleepRemaining.of_strings {buff : DataBufPtr} (hblock : buff.block = rbuf.block)
    (hsub : ofStrings buff ≤ ofStrings rbuf)
    (hanswered : Answered rbuf → ofStrings buff ≤ ofStrings { rbuf with mdata := none })
    (hunanswered : ¬Answered rbuf → buff = rbuf) : DeepSleepRemaining rbuf buff.blocks := by
  have hle : ∀ buff', buff'.block = rbuf.block → ofStrings buff ≤ ofStrings buff' → ofBuff buff ≤ ofBuff buff' := by
    intro buff' hblock' h
    rw [ofBuff_eq, ofBuff_eq, hblock, hblock']
    exact add_le_add_right h _
  refine ⟨hle rbuf rfl hsub, ?_, fun h => hle { rbuf with mdata := none } rfl (hanswered h), fun h => ?_⟩
  · rw [← hblock]
    exact List.mem_cons_self
  · rw [hunanswered h]

/-- The commands of a deep sleep profile. Its text, what it is parsed to and the
node are left behind. -/
theorem runDeepSleep_refines (issue : IssueNodePtr) {jsonParsed : CharPtr} (hsite : jsonParsed.block.site = .deepSleepText)
    (hblock : issue.block = none) (hnodes : ∀ b ∈ ofStr issue.node + ofStr issue.subNode, MayRemain b)
    (hmdata : rbuf.mdata = some mdata) (hanswered : Answered rbuf) :
    Refines MayRemain
      (ofStr (some jsonParsed) + (ofStrings rbuf + (ofStr issue.node + ofStr issue.subNode + ({rbuf.block} + own))))
      (parseText cfg .deepSleepIssues jsonParsed >>= fun jsoncfg =>
        checkIssueNodeInfo cfg env issue jsoncfg rbuf true none >>= fun result => pure result.2.blocks)
      (RRD.checkIssueNodeInfo cfg env issue.value (cfg.cJsonParse jsonParsed.text) rbuf.value true none)
      (fun r => (r : Multiset (Block Site)) + own) (fun r _ => DeepSleepRemaining rbuf r) := by
  refine parseText_bind (by simp) fun jsoncfg hjson hsite' => ?_
  rw [← hjson]
  have hown : ofDoc jsoncfg + (ofStr (some jsonParsed) +
      (ofStrings rbuf + (ofStr issue.node + ofStr issue.subNode + ({rbuf.block} + own)))) =
      ofData none + (ofStr issue.node + ofStr issue.subNode) + ofStrings rbuf +
        (ofDoc jsoncfg + (ofStr (some jsonParsed) + ({rbuf.block} + own))) := by
    simp only [ofData, Option.map_none, Option.getD_none]
    abel
  refine .of_bind_pure (checkIssueNodeInfo_bind hown (by simp [hblock]) ?_ (by simp) ?_ (by simp [ofData]) _ ?_)
  · exact fun b hb => Multiset.mem_add.mpr (.inl hb)
  · rw [hmdata]
    rfl
  intro issue' hissue'
  -- what is handed back of the node is what was made of it
  have hback : ∀ b ∈ ofStr issue'.node + ofStr issue'.subNode, MayRemain b := by
    intro b hb
    refine hnodes b (Multiset.mem_add.mpr ((Multiset.mem_add.mp hb).imp (fun hb => ?_) fun hb => ?_))
    · rcases hissue'.node with h | h
      · simp [h] at hb
      · rwa [h] at hb
    · rcases hissue'.subNode with h | h
      · simp [h] at hb
      · rwa [h] at hb
  refine .leave (ofStr issue'.node + ofStr issue'.subNode + ofDoc jsoncfg + ofStr (some jsonParsed))
    (ofBuff rbuf.emptied + own) ?_ ?_ (.pure (.of_strings rfl ?_ (fun _ => ?_) fun h => absurd hanswered h) rfl)
  · simp only [ofBuff_eq, ofStrings, DataBufPtr.emptied, ofStr_none]
    abel
  · intro b hb
    rcases Multiset.mem_add.mp hb with hb | hb
    · rcases Multiset.mem_add.mp hb with hb | hb
      · exact hback b hb
      · simp [MayRemain, hsite' b hb]
    · simp only [ofStr_some, Multiset.mem_singleton] at hb
      simp [MayRemain, hb, hsite]
  · exact Multiset.zero_le _
  · exact Multiset.zero_le _

theorem rrdProcessDeepSleepAwakeEvents_refines (hmdata : rbuf.mdata = some mdata) :
    Refines MayRemain (ofBuff rbuf + own) (rrdProcessDeepSleepAwakeEvents cfg env rbuf)
      (RRD.rrdProcessDeepSleepAwakeEvents cfg env rbuf.value) (fun r => (r : Multiset (Block Site)) + own)
      (fun r _ => DeepSleepRemaining rbuf r) := by
  have hblock : rbuf.block ∈ ofBuff rbuf := by simp [ofBuff_eq]
  have hstr : mdata.block ∈ ofBuff rbuf := by simp [ofBuff_eq, mem_ofStrings hmdata]
  have hevent : rbuf.value.dsEvent = rbuf.dsEvent := rfl
  rw [rrdProcessDeepSleepAwakeEvents, hmdata]
  refine .use (by simpa using .inl hblock) ?_
  unfold RRD.rrdProcessDeepSleepAwakeEvents
  rw [value_mdata hmdata, hevent]
  refine getIssueInfo_bind (by simp [hstr]) (by simp) fun node subNode hnode hsubNode => ?_
  -- the node on the stack is left behind
  have hnodes : ∀ b ∈ ofStr node + ofStr subNode, MayRemain b := by
    intro b hb
    rcases Multiset.mem_add.mp hb with hb | hb
    · simp [MayRemain, hnode b hb]
    · simp [MayRemain, hsubNode b hb]
  have hsame : ofStr node + ofStr subNode + (ofBuff rbuf + own) = ofStr node + ofStr subNode + (↑rbuf.blocks + own) := rfl
  dsimp only
  cases hds : rbuf.dsEvent with
  | deepsleepInvalidDefault =>
    refine .leave (ofStr node + ofStr subNode) _ hsame hnodes (.pure (.of_strings rfl le_rfl (fun h => ?_) fun _ => rfl) rfl)
    rcases h with h | h
    · rw [hds] at h
      cases h
    · rw [hds] at h
      cases h.1
  | deepsleepRdmDownloadPkgInitiate =>
    refine .use ?_ (strdup_bind fun dynJSONPath _ _ => ?_)
    · intro b hb
      simp only [IssueNodePtr.mem_blocks, Multiset.mem_add] at hb ⊢
      grind
    have hown : {dynJSONPath.block} + (ofStr node + ofStr subNode + (ofBuff rbuf + own)) =
        ofStr node + ofStr subNode + ({dynJSONPath.block} + (ofBuff rbuf + own)) := by abel
    refine .of_bind_pure (rrdRdmManagerDownloadRequest_bind hown (by simp) (by simp) ?_ hmdata ?_ ?_)
    · simp [hblock]
    · simp [hstr]
    · refine .free (ofBuff rbuf + own) rfl (.free (ofBuff { rbuf with mdata := none } + own) ?_ (.pure ?_ rfl))
      · simp only [ofBuff_eq, ofStrings, hmdata, ofStr_some, ofStr_none, ofPtr, Option.toList_some, Multiset.coe_singleton]
        abel
      · exact .of_strings rfl (ofStrings_noMdata_le rbuf) (fun _ => le_rfl) fun h => absurd (.inl hds) h
  | deepsleepRdmPkgInstallComplete =>
    have hown : ofStr node + ofStr subNode + (ofBuff rbuf + own) =
        ofStrings rbuf + (ofStr node + ofStr subNode + ({rbuf.block} + own)) := by
      rw [ofBuff_eq]
      abel
    rw [hown]
    refine (rrdCheckIssueInDynamicProfile_refines ?_ (by simp)).bind ?_
    · intro b hb
      simp only [IssueNodePtr.mem_blocks, Multiset.mem_add] at hb ⊢
      grind
    rintro ⟨text, buff⟩ value ⟨hvalue, hsite, hfound, helsewhere, hsameBlock, hsub, hmissing⟩
    obtain rfl := hvalue
    cases text with
    | none =>
      refine .leave (ofStr node + ofStr subNode) (ofBuff buff + own) ?_ hnodes
        (.pure (.of_strings hsameBlock hsub (fun h => ?_) fun h => ?_) rfl)
      · rw [ofStr_none, ofBuff_eq, hsameBlock]
        abel
      · rcases h with h | h
        · rw [hds] at h
          cases h
        · exact hmissing rfl h.2
      · exact helsewhere (Bool.eq_false_iff.mpr fun hin => h (.inr ⟨hds, hin⟩))
    | some jsonParsed =>
      obtain ⟨hbuff, hin⟩ := hfound rfl
      obtain rfl : buff = rbuf := hbuff
      exact runDeepSleep_refines ⟨none, node, subNode⟩ (hsite _ (by simp)) rfl hnodes hmdata (.inr ⟨hds, hin⟩)

/-! ## Every message -/

/-- The messages whose `mdata` a turn frees. -/
def Consumed (cfg : Config) (rbuf : DataBufPtr) : Prop :=
  match rbuf.mtype with
  | .eventMsg => False
  | .eventWebcfgMsg => True
  | .deepsleepEventMsg => cfg.iarm ∧ Answered rbuf
  | .default => True

/-- What a turn leaves of its message: the structure, if its type is valid; not the
`mdata` of a message that is consumed; all of any other. -/
structure Remaining (cfg : Config) (rbuf : DataBufPtr) (r : List (Block Site)) : Prop where
  sub : (r : Multiset (Block Site)) ≤ ofBuff rbuf
  struct : rbuf.mtype ≠ .default → rbuf.block ∈ r
  consumed : Consumed cfg rbuf → (r : Multiset (Block Site)) ≤ ofBuff { rbuf with mdata := none }
  kept : ¬Consumed cfg rbuf → r = rbuf.blocks

/-- The payload of a web configuration has its fields, with their types. -/
def Readable (lib : WebCfgLib) (rbuf : DataBufPtr) : Prop :=
  rbuf.mtype = .eventWebcfgMsg → ∃ answer, RRD.decodeWebCfgData lib rbuf.value.mdata = .ok answer

/-- The request for the payload of a web configuration, if it is accepted. -/
def requestOf (lib : WebCfgLib) (rbuf : DataBufPtr) : Option ExecData :=
  if rbuf.mtype = .eventWebcfgMsg then (RRD.decodeWebCfgData lib rbuf.value.mdata).toOption.bind Prod.snd else none

/-- What a turn ends with: what it leaves of its message, and the request that it hands over. -/
structure TurnEnds (cfg : Config) (lib : WebCfgLib) (rbuf : DataBufPtr) (r : List (Block Site) × Option ExecDataPtr) :
    Prop where
  remaining : Remaining cfg rbuf r.1
  request : r.2.map ExecDataPtr.value = requestOf lib rbuf

/-- The blocks that a turn ends with. -/
def ofTurn (r : List (Block Site) × Option ExecDataPtr) : Multiset (Block Site) := r.1 + ofRequest r.2

theorem rrdEventThreadFunc_refines {lib : WebCfgLib} (hmdata : rbuf.mdata = some mdata) (hread : Readable lib rbuf) :
    Refines MayRemain (ofBuff rbuf + own) (rrdEventThreadFunc cfg env lib rbuf)
      (RRD.rrdEventThreadFunc cfg env rbuf.value) (fun r => ofTurn r + own) (fun r _ => TurnEnds cfg lib rbuf r) := by
  have hblock : rbuf.block ∈ ofBuff rbuf := by simp [ofBuff_eq]
  have hstr : mdata.block ∈ ofBuff rbuf := by simp [ofBuff_eq, mem_ofStrings hmdata]
  have htype : rbuf.value.mtype = rbuf.mtype := rfl
  have hself : rbuf.block ∈ rbuf.blocks := List.mem_cons_self
  have hle : ofBuff { rbuf with mdata := none } ≤ ofBuff rbuf := by
    rw [ofBuff_eq, ofBuff_eq]
    exact add_le_add_right (ofStrings_noMdata_le rbuf) _
  have hturn (r : List (Block Site)) : (r : Multiset (Block Site)) + own = ofTurn (r, none) + own := by
    rw [ofTurn, ofRequest_none, add_zero]
  rw [rrdEventThreadFunc, hmdata]
  refine .use ?_ ?_
  · simpa [textOf, blockOf] using ⟨.inl hblock, .inl hstr⟩
  unfold RRD.rrdEventThreadFunc
  rw [htype]
  cases hmtype : rbuf.mtype with
  | eventMsg =>
    have hkept : ¬Consumed cfg rbuf := by simp [Consumed, hmtype]
    have hnone : none = requestOf lib rbuf := by simp [requestOf, hmtype]
    refine .of_bind_pure ((processIssueTypeEvent_refines hmdata).bind ?_)
    rintro r - rfl
    exact .pure ⟨⟨le_rfl, fun _ => hself, fun h => (hkept h).elim, fun _ => rfl⟩, hnone⟩ (hturn _)
  | eventWebcfgMsg =>
    have hconsumed : Consumed cfg rbuf := by simp [Consumed, hmtype]
    obtain ⟨answer, hanswer⟩ := hread hmtype
    have hrequest : answer.2 = requestOf lib rbuf := by
      rw [requestOf, if_pos hmtype, hanswer]
      rfl
    rw [value_mdata hmdata] at hanswer
    refine ((processWebCfgTypeEvent_refines hmdata hanswer).tag (wholeMessage rbuf.value, ·)).imp ?_
    rintro ⟨r, request⟩ - ⟨rfl, hvalue⟩
    refine ⟨⟨⟨hle, fun _ => List.mem_cons_self, fun _ => le_rfl, fun h => absurd hconsumed h⟩, ?_⟩, rfl⟩
    exact hvalue.trans hrequest
  | deepsleepEventMsg =>
    have hconsumed : Consumed cfg rbuf ↔ cfg.iarm ∧ Answered rbuf := by simp [Consumed, hmtype]
    have hnone : none = requestOf lib rbuf := by simp [requestOf, hmtype]
    dsimp only
    split
    · rename_i hiarm
      refine .of_bind_pure (((rrdProcessDeepSleepAwakeEvents_refines hmdata).tag (wholeMessage rbuf.value, ·)).bind ?_)
      rintro r - ⟨hsub, hstruct, hanswered, hunanswered⟩
      refine .pure ⟨⟨hsub, fun _ => hstruct, fun h => hanswered ?_, fun h => hunanswered fun ha => h ?_⟩, hnone⟩ (hturn r)
      · exact (hconsumed.mp h).2
      · exact hconsumed.mpr ⟨hiarm, ha⟩
    · rename_i hiarm
      refine .pure ⟨⟨le_rfl, fun _ => hself, fun h => ?_, fun _ => rfl⟩, hnone⟩ (hturn _)
      exact absurd (hconsumed.mp h).1 hiarm
  | default =>
    have hconsumed : Consumed cfg rbuf := by simp [Consumed, hmtype]
    have hnone : none = requestOf lib rbuf := by simp [requestOf, hmtype]
    have hrest : ((textOf rbuf.jsonPath ++ textOf rbuf.suffix : List (Block Site)) : Multiset (Block Site)) =
        ofStr rbuf.jsonPath + ofStr rbuf.suffix := (Multiset.coe_add _ _).symm
    have hnoMdata : ofStr rbuf.jsonPath + ofStr rbuf.suffix ≤ ofBuff { rbuf with mdata := none } := by
      simp only [ofBuff_eq, ofStrings, ofStr_none, zero_add]
      exact Multiset.le_add_left _ _
    have hremaining : Remaining cfg rbuf (textOf rbuf.jsonPath ++ textOf rbuf.suffix) := by
      refine ⟨?_, fun h => absurd hmtype h, fun _ => ?_, fun h => absurd hconsumed h⟩
      · rw [hrest]
        exact hnoMdata.trans hle
      · rw [hrest]
        exact hnoMdata
    refine .free ({rbuf.block} + ofStr rbuf.jsonPath + ofStr rbuf.suffix + own) ?_
      (.free (ofStr rbuf.jsonPath + ofStr rbuf.suffix + own) ?_ (.pure ⟨hremaining, hnone⟩ ?_))
    · simp only [ofBuff_eq, ofStrings, hmdata, ofStr_some, blockOf, Option.map_some, ofPtr, Option.toList_some,
        Multiset.coe_singleton]
      abel
    · simp only [ofPtr, Option.toList_some, Multiset.coe_singleton]
      abel
    · rw [← hrest]
      exact hturn _

/-- A message with a web configuration. -/
def webCfgMessage : DataBufPtr :=
  ⟨⟨0, .sbuf⟩, .eventWebcfgMsg, some ⟨⟨1, .mdata⟩, requestBlob⟩, none, false, false, .deepsleepInvalidDefault, none⟩

end RRD.Alloc
