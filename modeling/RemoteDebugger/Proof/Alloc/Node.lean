import RemoteDebugger.Proof.Alloc.Profile

/-!
# The allocations of `checkIssueNodeInfo`

* `processAllDebugCommand_refines`, `processAllDeepSleepAwkMetricsCommands_refines`:
  the loops free each node before they make the next;
* `checkIssueNodeInfo_bind`: the strings of the buffer are freed on every path,
  and the node is handed back.
-/

namespace RRD.Alloc

open Framework Framework.Prog

variable {cfg : Config} {env : Env} {own : Multiset (Block Site)} {issue : IssueNodePtr} {jsoncfg : Option Document}
  {rfcbuf : CharPtr} {γ δ : Type} {out : γ → Multiset (Block Site)} {R : γ → δ → Prop}

/-- What is left of the node after commands. -/
def ofNodes (acc : Bool × IssueNodePtr) : Multiset (Block Site) := ofStr acc.2.node + ofStr acc.2.subNode

/-- A node that is handed back: each string is as it was, or freed and NULL. -/
structure HandedBack (issue issue' : IssueNodePtr) : Prop where
  block : issue'.block = issue.block
  node : issue'.node = none ∨ issue'.node = issue.node
  subNode : issue'.subNode = none ∨ issue'.subNode = issue.subNode

theorem HandedBack.refl (issue : IssueNodePtr) : HandedBack issue issue := ⟨rfl, .inr rfl, .inr rfl⟩

theorem HandedBack.freed (issue : IssueNodePtr) : HandedBack issue ⟨issue.block, none, none⟩ := ⟨rfl, .inl rfl, .inl rfl⟩

/-- The status of commands, with the node handed back. -/
def SameStatus (issue : IssueNodePtr) (acc : Bool × IssueNodePtr) (execstatus : Bool) : Prop :=
  acc.1 = execstatus ∧ HandedBack issue acc.2

theorem blocks_mem (hblock : ∀ b ∈ issue.block, b ∈ own) (hdoc : ∀ b ∈ docBlocks jsoncfg, b ∈ own)
    (hsub : issue.subNode = none) : ∀ b ∈ issue.blocks ++ docBlocks jsoncfg, b ∈ ofStr issue.node + own := by
  intro b hb
  simp only [List.mem_append, IssueNodePtr.mem_blocks, hsub, ofStr_none, Multiset.notMem_zero, or_false] at hb
  simp only [Multiset.mem_add]
  grind

/-! ## Every issue of a node -/

/-- Between two turns: the node is the caller's before the first, and NULL before every other. -/
def BetweenTurns (issue : IssueNodePtr) (k : Nat) (acc : Bool × IssueNodePtr) (execstatus : Bool) : Prop :=
  SameStatus issue acc execstatus ∧ acc.2.node = (if k = 0 then issue.node else none) ∧ acc.2.subNode = none

theorem debugCommandTurn_refines (hblock : ∀ b ∈ issue.block, b ∈ own) (hdoc : ∀ b ∈ docBlocks jsoncfg, b ∈ own)
    (hbuf : rfcbuf.block ∈ own) {k : Nat} {acc : Bool × IssueNodePtr} {execstatus : Bool}
    (hacc : BetweenTurns issue k acc execstatus) (item : Option Str × CJson) :
    Refines MayRemain (ofNodes acc + own) (debugCommandTurn cfg env jsoncfg rfcbuf acc (item, k))
      (match item.1 with
        | none => stop
        | some string =>
          RRD.invokeSanityandCommandExec cfg env ⟨if k ≠ 0 then some rfcbuf.text else issue.value.node, some string⟩
            (docJson jsoncfg) (rfcbuf.text ++ rfcDelim ++ string) false)
      (fun acc => ofNodes acc + own) (BetweenTurns issue (k + 1)) := by
  obtain ⟨⟨rfl, hsame⟩, hnode, hsub⟩ := hacc
  rw [debugCommandTurn]
  cases item.1 with
  | none => exact .stop
  | some string =>
    dsimp only
    refine strdup_bind fun issuetypearray htext _ => .use ?_ ?_
    · simpa using ⟨.inr (.inr hbuf), fun b hb => .inr (.inr (hdoc b hb))⟩
    -- the turn with the node it has
    have hturn : ∀ node : Option CharPtr,
        Refines MayRemain (ofStr node + ({issuetypearray.block} + own))
          (strdup .subNode string >>= fun subNode =>
            invokeSanityandCommandExec cfg env { acc.2 with node := node, subNode := some subNode } jsoncfg
              issuetypearray false >>= fun acc => free (some issuetypearray.block) >>= fun _ => pure acc)
          (RRD.invokeSanityandCommandExec cfg env ⟨node.map CharPtr.text, some string⟩ (docJson jsoncfg)
            (rfcbuf.text ++ rfcDelim ++ string) false)
          (fun acc => ofNodes acc + own) (BetweenTurns issue (k + 1)) := fun node => by
      refine strdup_bind fun subNode hsubNode _ => ?_
      have hvalue : (⟨node.map CharPtr.text, some string⟩ : IssueNodeData) =
          ({ acc.2 with node := node, subNode := some subNode } : IssueNodePtr).value :=
        congrArg (IssueNodeData.mk _ <| some ·) hsubNode.symm
      have hown : {subNode.block} + (ofStr node + ({issuetypearray.block} + own)) =
          ofStr node + ofStr (some subNode) + ({issuetypearray.block} + own) := by
        rw [ofStr_some]
        abel
      rw [hvalue, ← htext]
      refine .of_bind_pure (invokeSanityandCommandExec_bind hown ?_ ?_ (by simp) fun ok => ?_)
      · intro b hb
        rw [hsame.block] at hb
        simp [hblock b hb]
      · intro b hb
        simp [hdoc b hb]
      · refine .free own (by simp [ofPtr]) (.pure ⟨⟨rfl, hsame.block, .inl rfl, .inl rfl⟩, rfl, rfl⟩ ?_)
        simp [ofNodes]
    split
    · rename_i hk
      rw [if_neg (by simpa using hk)] at hnode
      refine strdupIf_bind fun node htext _ => ?_
      have hown : ofStr node + ({issuetypearray.block} + (ofNodes acc + own)) = ofStr node + ({issuetypearray.block} + own) := by
        rw [ofNodes, hnode, hsub, ofStr_none, add_zero, zero_add]
      rw [hown, ← htext]
      exact hturn node
    · rename_i hk
      have hk : k = 0 := not_not.mp hk
      have hown : {issuetypearray.block} + (ofNodes acc + own) = ofStr acc.2.node + ({issuetypearray.block} + own) := by
        rw [ofNodes, hsub, ofStr_none, add_zero]
        abel
      have hvalue : issue.value.node = acc.2.node.map CharPtr.text := by
        rw [hnode, if_pos hk]
        rfl
      rw [hown, hvalue, pure_bind]
      exact hturn acc.2.node

theorem processAllDebugCommand_refines (hblock : ∀ b ∈ issue.block, b ∈ own) (hdoc : ∀ b ∈ docBlocks jsoncfg, b ∈ own)
    (hbuf : rfcbuf.block ∈ own) (hsub : issue.subNode = none) :
    Refines MayRemain (ofStr issue.node + own) (processAllDebugCommand cfg env jsoncfg issue rfcbuf)
      (RRD.processAllDebugCommand cfg env (docJson jsoncfg) issue.value rfcbuf.text)
      (fun acc => ofNodes acc + own) (SameStatus issue) := by
  have hstay : ofStr issue.node + own = ofNodes (false, issue) + own := by
    rw [ofNodes, hsub, ofStr_none, add_zero]
  have hreturn : Refines MayRemain (ofStr issue.node + own) (pure (false, issue) : AllocProg (Bool × IssueNodePtr))
      (pure false) (fun acc => ofNodes acc + own) (SameStatus issue) := .pure ⟨rfl, .refl issue⟩ hstay
  rw [processAllDebugCommand]
  refine .use (blocks_mem hblock hdoc hsub) ?_
  rw [RRD.processAllDebugCommand]
  cases cJsonGetObjectItem (docJson jsoncfg) issue.value.node with
  | none => exact hreturn
  | some mainnode =>
    dsimp only
    refine strdup_bind fun mainnodename _ hsite => ?_
    split
    · rename_i hitems
      rw [hitems]
      refine .leave {mainnodename.block} _ rfl (by simp [MayRemain, hsite]) hreturn
    · refine .use (by simp) (.free (ofStr issue.node + own) (by simp [ofPtr]) ?_)
      rw [hstay]
      refine (Refines.loop_zipIdx (fun _ acc => ofNodes acc + own) (BetweenTurns issue) ?_ ?_).imp ?_
      · exact fun k acc execstatus hacc item _ => debugCommandTurn_refines hblock hdoc hbuf hacc item
      · exact ⟨⟨rfl, .refl issue⟩, rfl, hsub⟩
      · exact fun acc execstatus hacc => ⟨hacc.1, rfl⟩

theorem metricsCommandTurn_refines (hblock : ∀ b ∈ issue.block, b ∈ own) (hdoc : ∀ b ∈ docBlocks jsoncfg, b ∈ own)
    {acc : Bool × IssueNodePtr} {execstatus : Bool} (hacc : BetweenTurns issue 1 acc execstatus) (category : Option Str)
    (issueTypeNode : Option Str × CJson) :
    Refines MayRemain own (metricsCommandTurn cfg env jsoncfg category acc issueTypeNode)
      (match category, issueTypeNode.1 with
        | some category, some type =>
          let issuedCommand := category.take type.length ++ rfcDelim ++ type.take category.length
          RRD.invokeSanityandCommandExec cfg env ⟨some category, some type⟩ (docJson jsoncfg) issuedCommand true
        | _, _ => stop)
      (fun _ => own) (BetweenTurns issue 1) := by
  obtain ⟨⟨rfl, hsame⟩, -, -⟩ := hacc
  unfold metricsCommandTurn
  cases category with
  | none => exact .stop
  | some category =>
    cases issueTypeNode.1 with
    | none => exact .stop
    | some type =>
      dsimp only
      refine strdup_bind fun issuedCommand htext _ => .use ?_ ?_
      · simpa using fun b hb => .inr (hdoc b hb)
      refine strdup_bind fun node hnode _ => strdup_bind fun subNode hsub _ => ?_
      have hvalue : (⟨some category, some type⟩ : IssueNodeData) =
          ({ acc.2 with node := some node, subNode := some subNode } : IssueNodePtr).value := by
        rw [← hnode, ← hsub]
        rfl
      have hown : {subNode.block} + ({node.block} + ({issuedCommand.block} + own)) =
          ofStr (some node) + ofStr (some subNode) + ({issuedCommand.block} + own) := by
        rw [ofStr_some, ofStr_some]
        abel
      rw [hvalue, ← htext]
      refine .of_bind_pure (invokeSanityandCommandExec_bind hown ?_ ?_ (by simp) fun ok => ?_)
      · intro b hb
        rw [hsame.block] at hb
        simp [hblock b hb]
      · intro b hb
        simp [hdoc b hb]
      · exact .free own (by simp [ofPtr]) (.pure ⟨⟨rfl, hsame.block, .inl rfl, .inl rfl⟩, rfl, rfl⟩ rfl)

theorem processAllDeepSleepAwkMetricsCommands_refines (hblock : ∀ b ∈ issue.block, b ∈ own)
    (hdoc : ∀ b ∈ docBlocks jsoncfg, b ∈ own) (hsub : issue.subNode = none) :
    Refines MayRemain (ofStr issue.node + own) (processAllDeepSleepAwkMetricsCommands cfg env jsoncfg issue)
      (RRD.processAllDeepSleepAwkMetricsCommands cfg env (docJson jsoncfg) issue.value)
      (fun acc => ofNodes acc + own) (SameStatus issue) := by
  rw [processAllDeepSleepAwkMetricsCommands]
  refine .use (blocks_mem hblock hdoc hsub) (strdupIf_bind fun rootNodeName _ hsite => .use ?_ ?_)
  · exact fun b hb => Multiset.mem_add.mpr (.inl hb)
  refine .leave (ofStr rootNodeName) (ofStr issue.node + own) rfl (fun b hb => by simp [MayRemain, hsite b hb]) ?_
  refine .free own rfl ?_
  have hstart : BetweenTurns issue 1 (false, { issue with node := none }) false :=
    ⟨⟨rfl, rfl, .inl rfl, .inr rfl⟩, rfl, hsub⟩
  have hloop : Refines MayRemain own
      (loop (fun acc issueCategoryNode =>
          loop (metricsCommandTurn cfg env jsoncfg issueCategoryNode.1) acc (cJsonItems (some issueCategoryNode.2)))
        (false, { issue with node := none }) (cJsonItems (cJsonGetObjectItem (docJson jsoncfg) issue.value.node)))
      (RRD.processAllDeepSleepAwkMetricsCommands cfg env (docJson jsoncfg) issue.value)
      (fun _ => own) (BetweenTurns issue 1) := by
    unfold RRD.processAllDeepSleepAwkMetricsCommands
    refine .loop (fun acc execstatus hacc issueCategoryNode _ => ?_) hstart rfl
    refine .loop (fun acc execstatus hacc issueTypeNode _ => ?_) hacc rfl
    exact metricsCommandTurn_refines hblock hdoc hacc issueCategoryNode.1 issueTypeNode
  refine hloop.imp fun acc execstatus hacc => ⟨hacc.1, ?_⟩
  rw [ofNodes, hacc.2.1, hacc.2.2]
  simp

/-! ## In the output directory -/

variable {buff : DataBufPtr} {append : Option IssueDataPtr}

theorem runIssueCommands_refines (hblock : ∀ b ∈ issue.block, b ∈ own) (hdoc : ∀ b ∈ docBlocks jsoncfg, b ∈ own)
    (hrfcbuf : rfcbuf.block ∈ own) (hbuff : buff.block ∈ own) (hrfc : rfcbuf.text = buff.value.mdata)
    (happend : ∀ b ∈ ofData append, MayRemain b) (isDeepSleepAwakeEventValid : Bool) :
    Refines MayRemain (ofData append + (ofStr issue.node + ofStr issue.subNode + own))
      (runIssueCommands cfg env issue jsoncfg buff rfcbuf isDeepSleepAwakeEventValid append)
      (RRD.runIssueCommands cfg env issue.value (docJson jsoncfg) buff.value isDeepSleepAwakeEventValid
        (append.map IssueDataPtr.value))
      (fun acc => ofNodes acc + own) (SameStatus issue) := by
  unfold runIssueCommands
  refine .use ?_ ?_
  · intro b hb
    simp only [List.mem_cons, IssueNodePtr.mem_blocks, Multiset.mem_add] at hb ⊢
    grind
  unfold RRD.runIssueCommands
  obtain ⟨block, node, subNode⟩ := issue
  cases subNode with
  | some subNode =>
    have hsome : (IssueNodePtr.mk block node (some subNode)).value.subNode ≠ none := by simp [IssueNodePtr.value]
    have hmode : buff.value.appendMode = buff.appendMode := rfl
    rw [if_pos (by simp), if_pos hsome, hmode]
    split
    · cases append with
      | none => exact .stop
      | some cmdinfo =>
        dsimp only [Option.map_some]
        refine .of_bind_pure (executeCommands_bind fun execstatus => ?_)
        refine .free (ofStr (some subNode) + own) (by rw [ofStr, add_assoc]) (.free own rfl ?_)
        exact .pure ⟨rfl, .freed _⟩ (by simp [ofNodes])
    · refine .leave (ofData append) _ rfl happend ?_
      rw [← hrfc]
      refine .of_bind_pure₂ (invokeSanityandCommandExec_bind rfl hblock hdoc hrfcbuf fun ok => ?_)
      exact .pure ⟨rfl, .freed _⟩ (by simp [ofNodes])
  | none =>
    have hnone : ¬(IssueNodePtr.mk block node none).value.subNode ≠ none := by simp [IssueNodePtr.value]
    rw [if_neg (by simp), if_neg hnone]
    refine .leave (ofData append) (ofStr node + own) (by simp) happend ?_
    split
    · exact processAllDeepSleepAwkMetricsCommands_refines hblock hdoc rfl
    · rw [← hrfc]
      exact processAllDebugCommand_refines hblock hdoc hrfcbuf rfl

/-- The strings of a buffer. -/
def ofStrings (buff : DataBufPtr) : Multiset (Block Site) := ofStr buff.mdata + ofStr buff.jsonPath + ofStr buff.suffix

/-- A buffer whose strings are freed. -/
def DataBufPtr.emptied (buff : DataBufPtr) : DataBufPtr := { buff with mdata := none, jsonPath := none, suffix := none }

theorem freeStrings_bind {Q : Prog Nat Effect δ} {f : DataBufPtr → AllocProg γ}
    (h : Refines MayRemain own (f buff.emptied) Q out R) :
    Refines MayRemain (ofStrings buff + own) (freeStrings buff >>= f) Q out R := by
  rw [freeStrings]
  simp only [bind_assoc]
  refine .free (ofStr buff.jsonPath + ofStr buff.suffix + own) ?_ (.free (ofStr buff.suffix + own) ?_ (.free own rfl h))
  · rw [ofStrings, ofStr]
    abel
  · rw [add_assoc]
    rfl

theorem uploadReport_bind {f : Unit → AllocProg γ} {g : Unit → Prog Nat Effect δ} {outdir : Str} {mdata : CharPtr}
    (hmdata : buff.mdata = some mdata) (hbuff : buff.block ∈ own) (hstrings : ∀ b ∈ ofStrings buff, b ∈ own)
    (h : Refines MayRemain own (f ()) (g ()) out R) :
    Refines MayRemain own (uploadReport outdir buff mdata >>= f) (RRD.uploadReport outdir buff.value >>= g) out R := by
  have hvalue : buff.value.mdata = mdata.text := by rw [DataBufPtr.value, hmdata]; rfl
  have hsuffix : buff.value.suffix = (buff.suffix.map CharPtr.text).getD [] := rfl
  rw [uploadReport]
  simp only [bind_assoc]
  refine .use ?_ ?_
  · intro b hb
    simp only [ofStrings, hmdata, ofStr_some, Multiset.mem_add, Multiset.mem_singleton] at hstrings
    simp only [List.mem_cons, mem_textOf] at hb
    grind
  · rw [RRD.uploadReport, hvalue, hsuffix]
    split
    · exact h
    · exact .lift_bind fun _ => h

/-- The part of `RRD.checkIssueNodeInfo` that `runInDirectory` is. -/
def valueRunInDirectory (cfg : Config) (env : Env) (outdir : Str) (issue : IssueNodeData) (jsoncfg : Option CJson)
    (buff : DataBuf) (isDeepSleepAwakeEventValid : Bool) (append : Option IssueData) : Prog Nat Effect Unit := do
  if ← makeOutdir env outdir then
    if ← call (env.chdir · outdir) then
      if ← RRD.runIssueCommands cfg env issue jsoncfg buff isDeepSleepAwakeEventValid append then
        RRD.uploadReport outdir buff

theorem runInDirectory_refines (outdir : Str) {mdata : CharPtr} (hmdata : buff.mdata = some mdata)
    (hblock : ∀ b ∈ issue.block, b ∈ own) (hdoc : ∀ b ∈ docBlocks jsoncfg, b ∈ own)
    (hrfcbuf : rfcbuf.block ∈ own) (hbuff : buff.block ∈ own) (hstrings : ∀ b ∈ ofStrings buff, b ∈ own)
    (hrfc : rfcbuf.text = buff.value.mdata) (happend : ∀ b ∈ ofData append, MayRemain b) (isDeepSleepAwakeEventValid : Bool) :
    Refines MayRemain (ofData append + (ofStr issue.node + ofStr issue.subNode + own))
      (runInDirectory cfg env outdir issue jsoncfg buff mdata rfcbuf isDeepSleepAwakeEventValid append)
      (valueRunInDirectory cfg env outdir issue.value (docJson jsoncfg) buff.value isDeepSleepAwakeEventValid
        (append.map IssueDataPtr.value))
      (fun issue' => ofStr issue'.node + ofStr issue'.subNode + own) (fun issue' _ => HandedBack issue issue') := by
  have hunrun : Refines MayRemain (ofData append + (ofStr issue.node + ofStr issue.subNode + own))
      (pure issue : AllocProg IssueNodePtr) (pure () : Prog Nat Effect Unit)
      (fun issue' => ofStr issue'.node + ofStr issue'.subNode + own) (fun issue' _ => HandedBack issue issue') :=
    .leave (ofData append) _ rfl happend (.pure (.refl issue) rfl)
  rw [runInDirectory, valueRunInDirectory]
  refine .lift_bind fun made => ?_
  split
  · refine .lift_bind fun changed => ?_
    split
    · refine (runIssueCommands_refines hblock hdoc hrfcbuf hbuff hrfc happend _).bind fun acc execstatus hacc => ?_
      obtain ⟨rfl, hsame⟩ := hacc
      dsimp only
      split
      · refine .of_bind_pure (uploadReport_bind hmdata ?_ ?_ (.pure hsame rfl))
        · exact Multiset.mem_add.mpr (.inr hbuff)
        · exact fun b hb => Multiset.mem_add.mpr (.inr (hstrings b hb))
      · exact .pure hsame rfl
    · exact hunrun
  · exact hunrun

theorem checkIssueNodeInfo_bind {f : IssueNodePtr × DataBufPtr → AllocProg γ} {g : Unit → Prog Nat Effect δ}
    {own' : Multiset (Block Site)}
    (hown : own' = ofData append + (ofStr issue.node + ofStr issue.subNode) + ofStrings buff + own)
    (hblock : ∀ b ∈ issue.block, b ∈ own) (hdoc : ∀ b ∈ docBlocks jsoncfg, b ∈ own) (hbuff : buff.block ∈ own)
    (hmdata : buff.mdata.isSome) (happend : ∀ b ∈ ofData append, MayRemain b) (isDeepSleepAwakeEventValid : Bool)
    (h : ∀ issue', HandedBack issue issue' → Refines MayRemain (ofStr issue'.node + ofStr issue'.subNode + own)
      (f (issue', buff.emptied)) (g ()) out R) :
    Refines MayRemain own' (checkIssueNodeInfo cfg env issue jsoncfg buff isDeepSleepAwakeEventValid append >>= f)
      (RRD.checkIssueNodeInfo cfg env issue.value (docJson jsoncfg) buff.value isDeepSleepAwakeEventValid
        (append.map IssueDataPtr.value) >>= g) out R := by
  obtain ⟨mdata, hmdata⟩ := Option.isSome_iff_exists.mp hmdata
  rw [hown, checkIssueNodeInfo]
  simp only [bind_assoc]
  refine .use ?_ ?_
  · intro b hb
    simp only [ofStrings, List.mem_cons, mem_textOf, Multiset.mem_add] at hb ⊢
    grind
  obtain ⟨block, node, subNode⟩ := issue
  rw [hmdata]
  cases node with
  | none => exact .stop
  | some node =>
    simp only [bind_assoc]
    refine strdup_bind fun rfcbuf hrfc _ => ?_
    have hrfc : rfcbuf.text = buff.value.mdata := by rw [hrfc, DataBufPtr.value, hmdata]; rfl
    have hvalue : RRD.checkIssueNodeInfo cfg env (IssueNodePtr.mk block (some node) subNode).value (docJson jsoncfg)
        buff.value isDeepSleepAwakeEventValid (append.map IssueDataPtr.value) = (call env.localtime >>= fun ltime =>
          valueRunInDirectory cfg env (rrdOutputDir ++ node.text ++ str "-DebugReport-" ++ ltime)
            (IssueNodePtr.mk block (some node) subNode).value (docJson jsoncfg) buff.value
            (isDeepSleepAwakeEventValid || node.text = deepSleepStr || node.text = str "deepsleep")
            (append.map IssueDataPtr.value)) := rfl
    rw [hvalue, bind_assoc]
    refine .lift_bind fun ltime => .use ?_ ?_
    · intro b hb
      simp only [IssueNodePtr.mem_blocks, Multiset.mem_add] at hb ⊢
      grind
    -- what stays while the commands run
    have hstay : ∀ b ∈ own, b ∈ ofStrings buff + ({rfcbuf.block} + own) := fun b hb => by simp [hb]
    have hown₁ : {rfcbuf.block} + (ofData append + (ofStr (some node) + ofStr subNode) + ofStrings buff + own) =
        ofData append + (ofStr (some node) + ofStr subNode + (ofStrings buff + ({rfcbuf.block} + own))) := by abel
    rw [hown₁]
    refine (runInDirectory_refines _ hmdata (fun b hb => hstay b (hblock b hb)) (fun b hb => hstay b (hdoc b hb))
      (Multiset.mem_add.mpr (.inr (by simp))) (hstay _ hbuff) (fun b hb => Multiset.mem_add.mpr (.inl hb)) hrfc happend
      _).bind ?_
    intro issue' _ hissue'
    refine .free (ofStrings buff + (ofStr issue'.node + ofStr issue'.subNode + own)) ?_ (freeStrings_bind (h issue' hissue'))
    simp only [ofPtr, Option.toList_some, Multiset.coe_singleton]
    abel

end RRD.Alloc
