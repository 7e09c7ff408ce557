import RemoteDebugger.Impl.AllocDispatch
import RemoteDebugger.Proof.Alloc.Node

/-!
# The allocations of an issue type

* `rrdRdmManagerDownloadRequest_bind`: a request frees the node and keeps the message;
* `processIssueTypeInStaticProfile_refines`, `processIssueTypeInDynamicProfile_refines`,
  `processAppended_refines`: each way to resolve an issue hands its node and its buffer back;
* `processIssueType_refines`: an issue type leaves the strings that its buffer still has.
-/

namespace RRD.Alloc

open Framework Framework.Prog

variable {cfg : Config} {env : Env} {own : Multiset (Block Site)} {issue : IssueNodePtr} {rbuf : DataBufPtr}
  {mdata : CharPtr} {γ δ : Type} {out : γ → Multiset (Block Site)} {R : γ → δ → Prop}

theorem value_mdata (hmdata : rbuf.mdata = some mdata) : rbuf.value.mdata = mdata.text := by
  rw [DataBufPtr.value, hmdata]
  rfl

/-! ## Downloads -/

theorem appendItem_bind {msgDataString text : Str} {f : Unit → AllocProg γ} {g : Unit → Prog Nat Effect δ}
    (h : Refines MayRemain own (f ()) (g ()) out R) :
    Refines MayRemain own (appendItem msgDataString text >>= f) (emit (.appendItem msgDataString text) >>= g) out R := by
  rw [appendItem]
  simp only [bind_assoc]
  refine strdup_bind fun pkgData _ hpkg => strdup_bind fun issueTypeData _ hissue => .malloc fun cache hcache => .use ?_ ?_
  · simp
  -- the entry belongs to the cache
  refine .leave ({cache} + ({issueTypeData.block} + {pkgData.block})) own ?_ ?_ (.lift_bind fun _ => h)
  · abel
  · simp only [Multiset.mem_add, Multiset.mem_singleton]
    rintro b (rfl | rfl | rfl) <;> simp [MayRemain, hpkg, hissue, hcache]

theorem cacheRequest_bind {msgDataString : CharPtr} {f : Option CharPtr → AllocProg γ} {g : Unit → Prog Nat Effect δ}
    (hmsg : msgDataString.block ∈ own) (hrbuf : rbuf.block ∈ own) (hmdata : rbuf.mdata = some mdata)
    (hown : mdata.block ∈ own) (h : ∀ appendData, Refines MayRemain (ofStr appendData + own) (f appendData) (g ()) out R) :
    Refines MayRemain own (cacheRequest msgDataString rbuf >>= f)
      (emit (.appendItem msgDataString.text (requestedIssue rbuf.value)) >>= g) out R := by
  have hmode : rbuf.value.appendMode = rbuf.appendMode := rfl
  rw [cacheRequest, hmdata]
  simp only [bind_assoc]
  refine .use (by simp [hmsg, hrbuf]) (.use (by simp [hown]) ?_)
  rw [requestedIssue, hmode, value_mdata hmdata]
  split
  · simp only [bind_assoc]
    refine strdup_bind fun appendData htext _ => .use (by simp) ?_
    rw [htext]
    exact appendItem_bind (h (some appendData))
  · simp only [bind_assoc]
    have hnone := h none
    rw [ofStr_none, zero_add] at hnone
    exact appendItem_bind hnone

theorem requestPackage_bind {node : CharPtr} {mSGLength : Nat} {isDeepSleepAwakeEvent : Bool} {f : Unit → AllocProg γ}
    {g : Unit → Prog Nat Effect δ} (hnode : node.block ∈ own) (hrbuf : rbuf.block ∈ own)
    (hmdata : rbuf.mdata = some mdata) (hown : mdata.block ∈ own) (h : Refines MayRemain own (f ()) (g ()) out R) :
    Refines MayRemain own (requestPackage cfg env node mSGLength rbuf isDeepSleepAwakeEvent >>= f)
      (emit (.rbusSet ((requestedPkg cfg node.text isDeepSleepAwakeEvent ++ rdmPkgSuffix).take (mSGLength - 1))) >>= fun _ =>
        call (env.rbusSet · ((requestedPkg cfg node.text isDeepSleepAwakeEvent ++ rdmPkgSuffix).take (mSGLength - 1))) >>=
        fun set => (if set then
          emit (.appendItem (requestedPkg cfg node.text isDeepSleepAwakeEvent) (requestedIssue rbuf.value)) else pure ()) >>= g)
      out R := by
  rw [requestPackage]
  simp only [bind_assoc]
  refine .use (by simp [hnode]) (strdup_bind fun paramString hparam _ => .use (by simp) ?_)
  refine strdup_bind fun msgDataString hmsg _ => .use (by simp) ?_
  rw [← hparam, ← hmsg]
  refine .lift_bind fun _ => .lift_bind fun set => ?_
  have hfrees : ∀ appendData : Option CharPtr,
      Refines MayRemain (ofStr appendData + ({msgDataString.block} + ({paramString.block} + own)))
        (free (some msgDataString.block) >>= fun _ => free (blockOf appendData) >>= fun _ =>
          free (some paramString.block) >>= f) (g ()) out R := fun appendData => by
    refine .free (ofStr appendData + ({paramString.block} + own)) ?_ (.free ({paramString.block} + own) rfl (.free own rfl h))
    simp only [ofPtr, Option.toList_some, Multiset.coe_singleton]
    abel
  split
  · simp only [bind_assoc]
    refine cacheRequest_bind ?_ ?_ hmdata ?_ hfrees
    · simp
    · simp [hrbuf]
    · simp [hown]
  · have hnone := hfrees none
    rw [ofStr_none, zero_add] at hnone
    exact hnone

theorem freeNodes_bind (issue : IssueNodePtr) {Q : Prog Nat Effect δ} {f : IssueNodePtr → AllocProg γ}
    (h : Refines MayRemain own (f ⟨issue.block, none, none⟩) Q out R) :
    Refines MayRemain (ofStr issue.node + ofStr issue.subNode + own) (freeNodes issue >>= f) Q out R := by
  rw [freeNodes]
  simp only [bind_assoc]
  refine .free (ofStr issue.subNode + own) ?_ (.free own rfl h)
  rw [add_assoc]
  rfl

theorem rrdRdmManagerDownloadRequest_bind {dynJSONPath : CharPtr} {isDeepSleepAwakeEvent : Bool}
    {own' : Multiset (Block Site)} {f : IssueNodePtr → AllocProg γ} {g : Unit → Prog Nat Effect δ}
    (hown' : own' = ofStr issue.node + ofStr issue.subNode + own) (hpath : dynJSONPath.block ∈ own)
    (hblock : ∀ b ∈ issue.block, b ∈ own) (hrbuf : rbuf.block ∈ own) (hmdata : rbuf.mdata = some mdata)
    (hown : mdata.block ∈ own) (h : Refines MayRemain own (f ⟨issue.block, none, none⟩) (g ()) out R) :
    Refines MayRemain own' (rrdRdmManagerDownloadRequest cfg env issue dynJSONPath rbuf isDeepSleepAwakeEvent >>= f)
      (RRD.rrdRdmManagerDownloadRequest cfg env issue.value rbuf.value isDeepSleepAwakeEvent >>= g) out R := by
  rw [hown', rrdRdmManagerDownloadRequest]
  simp only [bind_assoc]
  refine .use ?_ ?_
  · intro b hb
    simp only [List.mem_cons, IssueNodePtr.mem_blocks, Multiset.mem_add] at hb ⊢
    grind
  unfold RRD.rrdRdmManagerDownloadRequest
  obtain ⟨block, node, subNode⟩ := issue
  cases node with
  | none => exact freeNodes_bind ⟨block, none, subNode⟩ h
  | some node =>
    simp only [IssueNodePtr.value, Option.map_some]
    cases rrdGetProfileStringLength cfg ⟨some node.text, subNode.map CharPtr.text⟩ (cfg.iarm && isDeepSleepAwakeEvent) with
    | none => exact freeNodes_bind ⟨block, some node, subNode⟩ h
    | some mSGLength =>
      simp only [bind_assoc]
      refine requestPackage_bind ?_ ?_ hmdata ?_ (freeNodes_bind ⟨block, some node, subNode⟩ h)
      · simp
      · simp [hrbuf]
      · simp [hown]

/-! ## Profiles -/

/-- What the node and the buffer that are handed back have. -/
def ofResult (r : IssueNodePtr × DataBufPtr) : Multiset (Block Site) := ofStr r.1.node + ofStr r.1.subNode + ofStrings r.2

/-- The node and the buffer that are handed back are those of the caller. -/
def SameBlocks (issue : IssueNodePtr) (rbuf : DataBufPtr) (r : IssueNodePtr × DataBufPtr) (_ : Unit) : Prop :=
  r.1.block = issue.block ∧ r.2.block = rbuf.block

theorem mem_ofStrings (hmdata : rbuf.mdata = some mdata) : mdata.block ∈ ofStrings rbuf := by
  simp [ofStrings, hmdata]

theorem blocks_subset (hblock : ∀ b ∈ issue.block, b ∈ own) (rbuf : DataBufPtr) :
    ∀ b ∈ issue.blocks, b ∈ ofResult (issue, rbuf) + own := by
  intro b hb
  simp only [IssueNodePtr.mem_blocks, ofResult, Multiset.mem_add] at hb ⊢
  grind

/-- The two ways on from a document: it has the issue, or not. -/
theorem findIssue_ite {doc : Document} {p q : AllocProg γ} {p' q' : Prog Nat Effect δ}
    (hissue : ∀ b ∈ issue.blocks, b ∈ own) (hdoc : doc.block ∈ own) (hp : Refines MayRemain own p p' out R)
    (hq : Refines MayRemain own q q' out R) :
    Refines MayRemain own (findIssueInParsedJSON cfg issue (some doc) >>= fun found => if found then p else q)
      (if RRD.findIssueInParsedJSON cfg issue.value (some doc.json) then p' else q') out R := by
  refine findIssueInParsedJSON_bind hissue (by simpa [docBlocks] using hdoc) ?_
  rw [docJson, Option.map_some]
  cases RRD.findIssueInParsedJSON cfg issue.value (some doc.json) with
  | true => exact hp
  | false => exact hq

/-- An issue that a document has, and then the document freed. -/
theorem checkAndFree_refines (doc : Document) (hblock : ∀ b ∈ issue.block, b ∈ own) (hrbuf : rbuf.block ∈ own)
    (hmdata : rbuf.mdata = some mdata) :
    Refines MayRemain ({doc.block} + (ofResult (issue, rbuf) + own))
      (checkIssueNodeInfo cfg env issue (some doc) rbuf false none >>= fun result =>
        free (some doc.block) >>= fun _ => pure result)
      (RRD.checkIssueNodeInfo cfg env issue.value (some doc.json) rbuf.value false none)
      (fun r => ofResult r + own) (SameBlocks issue rbuf) := by
  have hown : {doc.block} + (ofResult (issue, rbuf) + own) =
      ofData none + (ofStr issue.node + ofStr issue.subNode) + ofStrings rbuf + ({doc.block} + own) := by
    simp only [ofData, Option.map_none, Option.getD_none, ofResult]
    abel
  refine .of_bind_pure (checkIssueNodeInfo_bind hown ?_ ?_ ?_ ?_ ?_ _ ?_)
  · exact fun b hb => Multiset.mem_add.mpr (.inr (hblock b hb))
  · simp [docBlocks]
  · exact Multiset.mem_add.mpr (.inr hrbuf)
  · rw [hmdata]
    rfl
  · simp [ofData]
  · intro issue' hissue'
    refine .free (ofStr issue'.node + ofStr issue'.subNode + own) ?_ (.pure ⟨hissue'.block, rfl⟩ ?_)
    · simp only [ofPtr, Option.toList_some, Multiset.coe_singleton]
      abel
    · simp [ofResult, ofStrings, DataBufPtr.emptied]

theorem freeMessage_bind {Q : Prog Nat Effect δ} {f : DataBufPtr → AllocProg γ}
    (h : Refines MayRemain (ofStr rbuf.suffix + own) (f { rbuf with mdata := none, jsonPath := none }) Q out R) :
    Refines MayRemain (ofStrings rbuf + own) (freeMessage rbuf >>= f) Q out R := by
  rw [freeMessage]
  simp only [bind_assoc]
  refine .free (ofStr rbuf.jsonPath + (ofStr rbuf.suffix + own)) ?_ (.free _ rfl h)
  rw [ofStrings, ofStr]
  abel

theorem processIssueTypeInDynamicProfile_refines (hblock : ∀ b ∈ issue.block, b ∈ own) (hrbuf : rbuf.block ∈ own)
    (hmdata : rbuf.mdata = some mdata) :
    Refines MayRemain (ofResult (issue, rbuf) + own) (processIssueTypeInDynamicProfile cfg env rbuf issue)
      (RRD.processIssueTypeInDynamicProfile cfg env rbuf.value issue.value) (fun r => ofResult r + own)
      (SameBlocks issue rbuf) := by
  -- the message without its `mdata` and its path
  have hfreed : Refines MayRemain (ofResult (issue, rbuf) + own)
      (freeMessage rbuf >>= fun rbuf => pure (issue, rbuf)) (pure () : Prog Nat Effect Unit) (fun r => ofResult r + own)
      (SameBlocks issue rbuf) := by
    have hown : ofResult (issue, rbuf) + own = ofStrings rbuf + (ofStr issue.node + ofStr issue.subNode + own) := by
      rw [ofResult]
      abel
    rw [hown]
    refine freeMessage_bind (.pure ⟨rfl, rfl⟩ ?_)
    simp only [ofResult, ofStrings, ofStr_none]
    abel
  rw [processIssueTypeInDynamicProfile]
  refine .use (by simp [hrbuf]) ?_
  unfold RRD.processIssueTypeInDynamicProfile
  cases hpath : rbuf.jsonPath with
  | none =>
    simp only [DataBufPtr.value, hpath, Option.map_none]
    refine .free (ofResult (issue, { rbuf with mdata := none }) + own) ?_ (.pure ⟨rfl, rfl⟩ (by rw [hpath]))
    have hstr : ofPtr (blockOf rbuf.mdata) = ofStr rbuf.mdata := rfl
    rw [hstr]
    simp only [ofResult, ofStrings, ofStr_none]
    abel
  | some jsonPath =>
    have hvalue : rbuf.value.jsonPath = some jsonPath.text := by
      rw [DataBufPtr.value, hpath]
      rfl
    have hmem : jsonPath.block ∈ ofResult (issue, rbuf) + own := by simp [ofResult, ofStrings, hpath]
    rw [hvalue]
    refine .use (by simpa using hmem) (readAndParseJSON_bind fun doc hsite => ?_)
    cases doc with
    | none =>
      rw [ofDoc_none, zero_add]
      exact hfreed
    | some jsonParsed =>
      refine findIssue_ite ?_ (by simp) (checkAndFree_refines jsonParsed hblock hrbuf hmdata) ?_
      · exact fun b hb => Multiset.mem_add.mpr (.inr (blocks_subset hblock rbuf b hb))
      · refine .use (by simp [ofResult, ofStrings, hpath]) ?_
        have hown : ofDoc (some jsonParsed) + (ofResult (issue, rbuf) + own) =
            ofStrings rbuf + (ofPtr (some jsonParsed.block) + (ofStr issue.node + ofStr issue.subNode + own)) := by
          simp only [ofResult, ofDoc_some, ofPtr, Option.toList_some, Multiset.coe_singleton]
          abel
        rw [hown]
        refine freeMessage_bind (.free (ofStr rbuf.suffix + (ofStr issue.node + ofStr issue.subNode + own)) (by abel) ?_)
        refine .pure ⟨rfl, rfl⟩ ?_
        simp only [ofResult, ofStrings, ofStr_none]
        abel

theorem processIssueTypeInInstalledPackage_refines (hblock : ∀ b ∈ issue.block, b ∈ own) (hrbuf : rbuf.block ∈ own)
    (hmdata : rbuf.mdata = some mdata) :
    Refines MayRemain (ofResult (issue, rbuf) + own) (processIssueTypeInInstalledPackage cfg env rbuf issue)
      (RRD.processIssueTypeInInstalledPackage cfg env rbuf.value issue.value) (fun r => ofResult r + own)
      (SameBlocks issue rbuf) := by
  rw [processIssueTypeInInstalledPackage]
  refine .use (blocks_subset hblock rbuf) ?_
  unfold RRD.processIssueTypeInInstalledPackage
  obtain ⟨block, node, subNode⟩ := issue
  cases node with
  | none => exact .stop
  | some node =>
    simp only [IssueNodePtr.value, Option.map_some]
    refine strdup_bind fun dynJSONPath htext hsite => .use (by simp) ?_
    rw [← htext]
    -- a request, after which the path stays behind
    have hrequest : ∀ (F : Multiset (Block Site)) (k : IssueNodePtr → AllocProg (IssueNodePtr × DataBufPtr)),
        Refines MayRemain (F + (ofStrings rbuf + own)) (k ⟨block, none, none⟩) (pure ()) (fun r => ofResult r + own)
          (SameBlocks ⟨block, some node, subNode⟩ rbuf) →
        Refines MayRemain (F + ({dynJSONPath.block} + (ofResult (⟨block, some node, subNode⟩, rbuf) + own)))
          (rrdRdmManagerDownloadRequest cfg env ⟨block, some node, subNode⟩ dynJSONPath rbuf false >>= k)
          (RRD.rrdRdmManagerDownloadRequest cfg env ⟨some node.text, subNode.map CharPtr.text⟩ rbuf.value false)
          (fun r => ofResult r + own) (SameBlocks ⟨block, some node, subNode⟩ rbuf) := fun F k hk => by
      have hown : F + ({dynJSONPath.block} + (ofResult (⟨block, some node, subNode⟩, rbuf) + own)) =
          ofStr (some node) + ofStr subNode + ({dynJSONPath.block} + (F + (ofStrings rbuf + own))) := by
        rw [ofResult]
        abel
      refine .of_bind_pure (rrdRdmManagerDownloadRequest_bind hown ?_ ?_ ?_ hmdata ?_ ?_)
      · simp
      · intro b hb
        simp [hblock b hb]
      · simp [hrbuf]
      · simp [mem_ofStrings hmdata]
      · exact .leave {dynJSONPath.block} _ rfl (by simp [MayRemain, hsite]) hk
    have hown : ofStrings rbuf + own = ofResult (⟨block, none, none⟩, rbuf) + own := by simp [ofResult]
    refine readAndParseJSON_bind fun doc _ => ?_
    cases doc with
    | none => exact hrequest 0 _ (.pure ⟨rfl, rfl⟩ (by rw [zero_add, hown]))
    | some jsonParsed =>
      refine findIssue_ite ?_ (by simp) ?_ ?_
      · intro b hb
        have hmem := blocks_subset hblock rbuf b hb
        simp only [Multiset.mem_add] at hmem ⊢
        grind
      · refine .free ({jsonParsed.block} + (ofResult (⟨block, some node, subNode⟩, rbuf) + own)) ?_
          (checkAndFree_refines jsonParsed hblock hrbuf hmdata)
        simp only [ofDoc_some, ofPtr, Option.toList_some, Multiset.coe_singleton]
        abel
      · exact hrequest {jsonParsed.block} _ (.free (ofStrings rbuf + own) rfl (.pure ⟨rfl, rfl⟩ hown))

theorem processIssueTypeInStaticProfile_refines (hblock : ∀ b ∈ issue.block, b ∈ own) (hrbuf : rbuf.block ∈ own)
    (hmdata : rbuf.mdata = some mdata) :
    Refines MayRemain (ofResult (issue, rbuf) + own) (processIssueTypeInStaticProfile cfg env rbuf issue)
      (RRD.processIssueTypeInStaticProfile cfg env rbuf.value issue.value) (fun r => ofResult r + own)
      (SameBlocks issue rbuf) := by
  rw [processIssueTypeInStaticProfile, RRD.processIssueTypeInStaticProfile]
  refine readAndParseJSON_bind fun doc _ => ?_
  cases doc with
  | none =>
    rw [ofDoc_none, zero_add]
    exact processIssueTypeInInstalledPackage_refines hblock hrbuf hmdata
  | some jsonParsed =>
    refine findIssue_ite ?_ (by simp) (checkAndFree_refines jsonParsed hblock hrbuf hmdata) ?_
    · exact fun b hb => Multiset.mem_add.mpr (.inr (blocks_subset hblock rbuf b hb))
    · have hown : ofDoc (some jsonParsed) + (ofResult (issue, rbuf) + own) =
          ofResult (issue, rbuf) + ({jsonParsed.block} + own) := by
        rw [ofDoc_some]
        abel
      rw [hown]
      refine .of_bind_pure ((processIssueTypeInInstalledPackage_refines ?_ ?_ hmdata).bind fun r _ hr => ?_)
      · exact fun b hb => Multiset.mem_add.mpr (.inr (hblock b hb))
      · exact Multiset.mem_add.mpr (.inr hrbuf)
      · refine .free (ofResult r + own) ?_ (.pure hr rfl)
        simp only [ofPtr, Option.toList_some, Multiset.coe_singleton]
        abel

/-! ## Append mode -/

/-- The command data that is read from a profile. It stays behind where it is not executed. -/
structure SameData (data : Option IssueDataPtr) (value : Option IssueData) : Prop where
  value : data.map IssueDataPtr.value = value
  remain : ∀ b ∈ ofData data, MayRemain b
  command : ∀ d ∈ data, d.command.isSome

theorem profileData_bind {doc : Document} {f : Option IssueDataPtr → AllocProg γ} {g : Option IssueData → Prog Nat Effect δ}
    (hissue : ∀ b ∈ issue.blocks, b ∈ own) (hrbuf : rbuf.block ∈ own) (hmdata : rbuf.mdata = some mdata)
    (hown : mdata.block ∈ own)
    (h : ∀ data : IssueDataPtr, SameData (some data) (some data.value) →
      Refines MayRemain (data.owned + own) (f (some data)) (g (some data.value)) out R) :
    Refines MayRemain ({doc.block} + own) (profileData cfg rbuf issue doc >>= f)
      ((match RRD.getIssueCommandInfo cfg issue.value (some doc.json) rbuf.value.mdata with
        | none => stop
        | some data => pure (some data)) >>= g) out R := by
  rw [profileData, hmdata, value_mdata hmdata]
  simp only [bind_assoc]
  refine .use (by simp [hrbuf]) (getIssueCommandInfo_bind ?_ ?_ ?_ fun data hdata hremain hcommand => ?_)
  · exact fun b hb => Multiset.mem_add.mpr (.inr (hissue b hb))
  · simp [docBlocks]
  · exact Multiset.mem_add.mpr (.inr hown)
  have hvalue : RRD.getIssueCommandInfo cfg issue.value (some doc.json) mdata.text = data.map IssueDataPtr.value :=
    hdata.symm
  rw [hvalue]
  cases data with
  | none => exact .stop
  | some data =>
    simp only [bind_assoc]
    refine .use ?_ (.free (data.owned + own) ?_ (h data ⟨rfl, hremain, hcommand⟩))
    · intro b hb
      exact Multiset.mem_add.mpr (.inl hb)
    · simp only [ofData, Option.map_some, Option.getD_some, ofPtr, Option.toList_some, Multiset.coe_singleton]
      abel

/-- The dynamic data, with the node as it was where there is some. -/
structure SameDynamic (issue : IssueNodePtr) (r : Option IssueDataPtr × IssueNodePtr) (value : Option IssueData) : Prop where
  data : SameData r.1 value
  block : r.2.block = issue.block
  node : r.1.isSome → r.2 = issue

theorem SameData.none : SameData Option.none Option.none := ⟨rfl, by simp [ofData], by simp⟩

/-- The data, and what the node still has. -/
def ofDynamic (r : Option IssueDataPtr × IssueNodePtr) : Multiset (Block Site) :=
  ofData r.1 + (ofStr r.2.node + ofStr r.2.subNode)

theorem processIssueTypeInDynamicProfileappend_refines (hblock : ∀ b ∈ issue.block, b ∈ own) (hrbuf : rbuf.block ∈ own)
    (hmdata : rbuf.mdata = some mdata) (hown : mdata.block ∈ own) :
    Refines MayRemain (ofStr issue.node + ofStr issue.subNode + own)
      (processIssueTypeInDynamicProfileappend cfg env rbuf issue)
      (RRD.processIssueTypeInDynamicProfileappend cfg env rbuf.value issue.value) (fun r => ofDynamic r + own)
      (SameDynamic issue) := by
  have hblocks : ∀ b ∈ issue.blocks, b ∈ ofStr issue.node + ofStr issue.subNode + own := by
    intro b hb
    simp only [IssueNodePtr.mem_blocks, Multiset.mem_add] at hb ⊢
    grind
  rw [processIssueTypeInDynamicProfileappend]
  refine .use hblocks ?_
  unfold RRD.processIssueTypeInDynamicProfileappend
  obtain ⟨block, node, subNode⟩ := issue
  cases node with
  | none => exact .stop
  | some node =>
    simp only [IssueNodePtr.value, Option.map_some]
    refine strdup_bind fun dynJSONPath htext hsite => .use (by simp) ?_
    rw [← htext]
    refine readAndParseJSON_bind fun doc _ => ?_
    cases doc with
    | none =>
      rw [ofDoc_none, zero_add]
      have hnode : {dynJSONPath.block} + (ofStr (some node) + ofStr subNode + own) =
          ofStr (some node) + ofStr subNode + ({dynJSONPath.block} + own) := by abel
      refine rrdRdmManagerDownloadRequest_bind hnode (by simp) ?_ ?_ hmdata ?_ ?_
      · intro b hb
        simp [hblock b hb]
      · simp [hrbuf]
      · simp [hown]
      · refine .leave {dynJSONPath.block} own rfl (by simp [MayRemain, hsite]) (.pure ⟨.none, rfl, by simp⟩ ?_)
        simp [ofDynamic, ofData]
    | some jsonParsed =>
      simp only [docJson, Option.map_some, RRD.profileData]
      refine findIssue_ite ?_ (by simp) ?_ ?_
      · intro b hb
        have hmem := hblocks b hb
        simp only [Multiset.mem_add] at hmem ⊢
        grind
      · refine .use ?_ (.free ({jsonParsed.block} + (ofStr (some node) + ofStr subNode + own)) ?_ ?_)
        · intro b hb
          rcases List.mem_cons.mp hb with rfl | hb
          · simp
          · have hmem := hblocks b hb
            simp only [Multiset.mem_add] at hmem ⊢
            grind
        · simp only [ofDoc_some, ofPtr, Option.toList_some, Multiset.coe_singleton]
          abel
        · refine .of_bind_pure (profileData_bind hblocks ?_ hmdata ?_ fun data hdata => .pure ⟨hdata, rfl, fun _ => rfl⟩ ?_)
          · simp [hrbuf]
          · simp [hown]
          · simp only [ofDynamic, ofData, Option.map_some, Option.getD_some]
            abel
      · refine .free ({dynJSONPath.block} + (ofStr (some node) + ofStr subNode + own)) rfl ?_
        refine .leave {dynJSONPath.block} _ rfl (by simp [MayRemain, hsite]) (.pure ⟨.none, rfl, by simp⟩ ?_)
        simp [ofDynamic, ofData]

theorem processIssueTypeInStaticProfileappend_refines (hissue : ∀ b ∈ issue.blocks, b ∈ own) (hrbuf : rbuf.block ∈ own)
    (hmdata : rbuf.mdata = some mdata) (hown : mdata.block ∈ own) :
    Refines MayRemain own (processIssueTypeInStaticProfileappend cfg env rbuf issue)
      (RRD.processIssueTypeInStaticProfileappend cfg env rbuf.value issue.value) (fun data => ofData data + own) SameData := by
  rw [processIssueTypeInStaticProfileappend, RRD.processIssueTypeInStaticProfileappend]
  refine readAndParseJSON_bind fun doc _ => ?_
  cases doc with
  | none => exact .pure .none (by simp [ofData])
  | some jsonParsed =>
    simp only [docJson, Option.map_some, RRD.profileData]
    refine findIssue_ite ?_ (by simp) ?_ (.free own rfl (.pure .none (by simp [ofData])))
    · exact fun b hb => Multiset.mem_add.mpr (.inr (hissue b hb))
    · exact .of_bind_pure₂ (profileData_bind hissue hrbuf hmdata hown fun data hdata => .pure hdata rfl)

/-! ## Tokens -/

theorem freeData_bind {Q : Prog Nat Effect δ} {f : Unit → AllocProg γ} {data : IssueDataPtr}
    (h : Refines MayRemain own (f ()) Q out R) : Refines MayRemain (data.owned + own) (freeData data >>= f) Q out R := by
  rw [freeData, IssueDataPtr.owned_eq]
  simp only [bind_assoc]
  refine .use (by simp) (.free ({data.block} + ofStr data.command + own) ?_ (.free ({data.block} + own) ?_ (.free own ?_ h)))
  · rw [ofStr, ofStr]
    abel
  · rw [ofStr]
    abel
  · rfl

theorem runAppended_refines {staticprofiledata dynamicprofiledata : IssueDataPtr} {s d : IssueData}
    (hstatic : SameData (some staticprofiledata) (some s)) (hdynamic : SameData (some dynamicprofiledata) (some d))
    (hblock : ∀ b ∈ issue.block, b ∈ own) (hrbuf : rbuf.block ∈ own) (hmdata : rbuf.mdata = some mdata) :
    Refines MayRemain (staticprofiledata.owned + (dynamicprofiledata.owned + (ofResult (issue, rbuf) + own)))
      (runAppended cfg env rbuf issue staticprofiledata dynamicprofiledata)
      (RRD.checkIssueNodeInfo cfg env issue.value none rbuf.value false (some (appendCommands s d)))
      (fun r => ofResult r + own) (SameBlocks issue rbuf) := by
  obtain rfl := Option.some.inj hstatic.value
  obtain rfl := Option.some.inj hdynamic.value
  rw [runAppended]
  refine .use ?_ ?_
  · intro b hb
    simp only [IssueDataPtr.owned, List.mem_append, Multiset.mem_add, Multiset.mem_coe] at hb ⊢
    grind
  obtain ⟨sblock, srfc, scommand, stimeout, sparts⟩ := staticprofiledata
  obtain ⟨dblock, drfc, dcommand, dtimeout, dparts⟩ := dynamicprofiledata
  obtain ⟨staticCommand, rfl⟩ := Option.isSome_iff_exists.mp (hstatic.command _ rfl)
  obtain ⟨dynamicCommand, rfl⟩ := Option.isSome_iff_exists.mp (hdynamic.command _ rfl)
  refine strdup_bind fun appendcommandstr htext hsite => .use ?_ ?_
  · simp [IssueDataPtr.owned_eq]
  -- the static data with the commands of both
  let data : IssueDataPtr := ⟨sblock, srfc, some appendcommandstr, stimeout,
    sparts.map (CommandPart.edit dropClosingQuote) ++ dparts.map (CommandPart.edit delimOpeningQuote)⟩
  let dynamicprofiledata : IssueDataPtr := ⟨dblock, drfc, some dynamicCommand, dtimeout, dparts⟩
  have hvalue : data.value = appendCommands (IssueDataPtr.mk sblock srfc (some staticCommand) stimeout sparts).value
      dynamicprofiledata.value := by
    simp only [data, IssueDataPtr.value, Option.map_some, htext]
    rfl
  have hremain : ∀ b ∈ ofData (some data), MayRemain b := by
    intro b hb
    have hstatic := hstatic.remain b
    simp only [data, ofData, Option.map_some, Option.getD_some, IssueDataPtr.owned_eq, ofStr_some, Multiset.mem_add,
      Multiset.mem_singleton] at hstatic hb
    rcases hb with (hb | hb) | rfl
    · exact hstatic (.inl (.inl hb))
    · exact hstatic (.inl (.inr hb))
    · simp [MayRemain, hsite]
  refine .free (ofData (some data) + (ofStr issue.node + ofStr issue.subNode) + ofStrings rbuf +
    (dynamicprofiledata.owned + own)) ?_ ?_
  · simp only [data, dynamicprofiledata, ofData, Option.map_some, Option.getD_some, IssueDataPtr.owned_eq, ofStr_some,
      ofResult, ofPtr, Option.toList_some, Multiset.coe_singleton]
    abel
  rw [← hvalue]
  refine .of_bind_pure (checkIssueNodeInfo_bind rfl ?_ (by simp [docBlocks]) ?_ ?_ hremain _ fun issue' hissue' => ?_)
  · exact fun b hb => Multiset.mem_add.mpr (.inr (hblock b hb))
  · exact Multiset.mem_add.mpr (.inr hrbuf)
  · rw [hmdata]
    rfl
  · have hown : ofStr issue'.node + ofStr issue'.subNode + (dynamicprofiledata.owned + own) =
        dynamicprofiledata.owned + (ofResult (issue', rbuf.emptied) + own) := by
      simp only [ofResult, ofStrings, DataBufPtr.emptied, ofStr_none]
      abel
    rw [hown]
    exact freeData_bind (.pure ⟨hissue'.block, rfl⟩ rfl)

theorem processAppended_refines (hblock : ∀ b ∈ issue.block, b ∈ own) (hrbuf : rbuf.block ∈ own)
    (hmdata : rbuf.mdata = some mdata) :
    Refines MayRemain (ofResult (issue, rbuf) + own) (processAppended cfg env rbuf issue)
      (RRD.processIssueTypeInDynamicProfileappend cfg env rbuf.value issue.value >>= fun dynamicprofiledata =>
        match dynamicprofiledata with
        | none => pure ()
        | some dynamicprofiledata =>
          RRD.processIssueTypeInStaticProfileappend cfg env rbuf.value issue.value >>= fun staticprofiledata =>
            match staticprofiledata with
            | none => pure ()
            | some staticprofiledata => RRD.checkIssueNodeInfo cfg env issue.value none rbuf.value false
                (some (appendCommands staticprofiledata dynamicprofiledata)))
      (fun r => ofResult r + own) (SameBlocks issue rbuf) := by
  have hown : ofResult (issue, rbuf) + own = ofStr issue.node + ofStr issue.subNode + (ofStrings rbuf + own) := by
    rw [ofResult, add_assoc]
  rw [processAppended, hown]
  refine (processIssueTypeInDynamicProfileappend_refines ?_ ?_ hmdata ?_).bind ?_
  · exact fun b hb => Multiset.mem_add.mpr (.inr (hblock b hb))
  · exact Multiset.mem_add.mpr (.inr hrbuf)
  · exact Multiset.mem_add.mpr (.inl (mem_ofStrings hmdata))
  rintro ⟨data, issue'⟩ value ⟨hdata, hblock', hnode⟩
  obtain rfl := hdata.value
  cases data with
  | none => exact .pure ⟨hblock', rfl⟩ (by simp [ofDynamic, ofResult, ofData, add_assoc])
  | some dynamicprofiledata =>
    obtain rfl : issue' = issue := hnode rfl
    have hown' : ofDynamic (some dynamicprofiledata, issue') + (ofStrings rbuf + own) =
        dynamicprofiledata.owned + (ofResult (issue', rbuf) + own) := by
      simp only [ofDynamic, ofResult, ofData, Option.map_some, Option.getD_some]
      abel
    rw [hown']
    refine .use (fun b hb => Multiset.mem_add.mpr (.inl hb)) ?_
    refine (processIssueTypeInStaticProfileappend_refines ?_ ?_ hmdata ?_).bind fun data value hstatic => ?_
    · exact fun b hb => Multiset.mem_add.mpr (.inr (blocks_subset hblock rbuf b hb))
    · simp [hrbuf]
    · simp [ofResult, mem_ofStrings hmdata]
    obtain rfl := hstatic.value
    cases data with
    | none =>
      have hnone : ofData none + (dynamicprofiledata.owned + (ofResult (issue', rbuf) + own)) =
          dynamicprofiledata.owned + (ofResult (issue', rbuf) + own) := zero_add _
      rw [hnone]
      exact freeData_bind (.pure ⟨rfl, rfl⟩ rfl)
    | some staticprofiledata => exact runAppended_refines hstatic hdata hblock hrbuf hmdata

theorem processIssueType_refines (hrbuf : rbuf.block ∈ own) (hmdata : rbuf.mdata = some mdata) :
    Refines MayRemain (ofStrings rbuf + own) (processIssueType cfg env rbuf)
      (RRD.processIssueType cfg env rbuf.value) (fun buff => ofStrings buff + own) (fun buff _ => buff.block = rbuf.block) := by
  rw [processIssueType, hmdata]
  refine .use (by simp [hrbuf]) (.malloc fun pIssueNode _ => ?_)
  unfold RRD.processIssueType
  rw [value_mdata hmdata]
  refine getIssueInfo_bind (by simp [mem_ofStrings hmdata]) (by simp) fun node subNode _ _ => ?_
  have hown : ofStr node + ofStr subNode + ({pIssueNode} + (ofStrings rbuf + own)) =
      ofResult (⟨some pIssueNode, node, subNode⟩, rbuf) + ({pIssueNode} + own) := by
    rw [ofResult]
    abel
  rw [hown]
  refine .use (blocks_subset (by simp) rbuf) ?_
  have hblock : ∀ b ∈ (IssueNodePtr.mk (some pIssueNode) node subNode).block, b ∈ ({pIssueNode} + own : Multiset _) := by simp
  have hbuff : rbuf.block ∈ ({pIssueNode} + own : Multiset _) := by simp [hrbuf]
  -- however it is resolved, the node is freed
  have hfree : ∀ r : IssueNodePtr × DataBufPtr, SameBlocks ⟨some pIssueNode, node, subNode⟩ rbuf r () →
      Refines MayRemain (ofResult r + ({pIssueNode} + own))
        (use [pIssueNode] >>= fun _ => freeNodes r.1 >>= fun _ => free (some pIssueNode) >>= fun _ => pure r.2)
        (pure () : Prog Nat Effect Unit) (fun buff => ofStrings buff + own) (fun buff _ => buff.block = rbuf.block) := fun r hr => by
    refine .use (by simp) ?_
    have hown : ofResult r + ({pIssueNode} + own) =
        ofStr r.1.node + ofStr r.1.subNode + ({pIssueNode} + (ofStrings r.2 + own)) := by
      rw [ofResult]
      abel
    rw [hown]
    exact freeNodes_bind r.1 (.free (ofStrings r.2 + own) rfl (.pure hr.2 rfl))
  have hmode : rbuf.value.appendMode = rbuf.appendMode := rfl
  have hdynamic : rbuf.value.inDynamic = rbuf.inDynamic := rfl
  rw [hmode, hdynamic]
  split
  · exact .of_bind_pure ((processAppended_refines hblock hbuff hmdata).bind fun r _ hr => hfree r hr)
  split
  · exact .of_bind_pure ((processIssueTypeInDynamicProfile_refines hblock hbuff hmdata).bind fun r _ hr => hfree r hr)
  · exact .of_bind_pure ((processIssueTypeInStaticProfile_refines hblock hbuff hmdata).bind fun r _ hr => hfree r hr)

end RRD.Alloc
