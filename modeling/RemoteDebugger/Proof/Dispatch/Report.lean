import RemoteDebugger.Proof.Dispatch.Effects
import RemoteDebugger.Spec.Report

/-!
# A device that reports on an issue

Whatever the issue of a token, there is a device that reports on it: one with
`anyProfile` for every file.

* `runIssueCommands_anyProfile`: its commands run;
* `checkIssueNodeInfo_anyProfile`: its report is uploaded.
-/

namespace RRD

open Framework Framework.Prog

/-- A command as an item of an issue type, and again as that of a type below it. -/
def anyType : CJson :=
  .object [(str "y", .string (str "true")), (str "x", .object [(str "x", .string (str "true"))])]

/-- A profile of one issue. -/
def anyProfile (node : Str) (subNode : Option Str) : CJson :=
  .object [(node, .object [(subNode.getD (str "x"), anyType)])]

/-- A device on which every file is that profile. -/
def anyEnv (node : Str) (subNode : Option Str) : Env := .ofFiles fun _ => some (anyProfile node subNode)

variable {cfg : Config} {issue : IssueNodeData} {rbuf : DataBuf} {node : Str} {subNode : Option Str}

theorem getObjectItem_single (name key : Str) (item : CJson) :
    cJsonGetObjectItem (some (.object [(name, item)])) (some key) =
      if name.map tolower = key.map tolower then some item else none := by
  simp only [cJsonGetObjectItem, CJson.children, List.map_cons, List.map_nil, List.find?_cons, List.find?_nil,
    Option.map_some, Option.some.injEq]
  by_cases h : name.map tolower = key.map tolower <;> simp [h]

/-- The profile has no list of harmful commands, even where its node and type
are the names of one. -/
theorem checkCommands_anyProfile (node : Str) (subNode : Option Str) :
    checkCommands (sanityCheck (some (anyProfile node subNode))) = none := by
  have hnone (key : Str) : cJsonGetObjectItem none (some key) = none := rfl
  have htype : cJsonGetObjectItem (some anyType) (some (str "Commands")) = none := by decide
  rw [sanityCheck, checkCommands, anyProfile, getObjectItem_single]
  split
  · rw [getObjectItem_single]
    split
    · exact htype
    · rfl
  · rfl

theorem isCommandsValid_none (cfg : Config) (raw : Str) : ∃ command, isCommandsValid cfg raw none = some command := by
  simp only [isCommandsValid, patterns, cJsonItems, List.map_nil, List.not_mem_nil, false_and, exists_false, if_false]
  split <;> exact ⟨_, rfl⟩

theorem invokeSanityandCommandExec_anyProfile (issue : IssueNodeData) {raw : Str} {timeout : Int} {deep : Bool} (buf : Str)
    (k : Nat)
    (hread : readCommand cfg (issueTypeItem (commandRoot (some (anyProfile node subNode)) deep) issue) = (some raw, timeout)) :
    ∃ es k', (invokeSanityandCommandExec cfg (anyEnv node subNode) issue (some (anyProfile node subNode)) buf deep).run k =
      ⟨some true, es, k'⟩ := by
  have hcheck : ∃ check k', (readSanityCheck (anyEnv node subNode) (some (anyProfile node subNode))).run k =
      ⟨some check, [], k'⟩ ∧ checkCommands check = none := by
    have hnone := checkCommands_anyProfile node subNode
    rw [readSanityCheck]
    cases hsanity : sanityCheck (some (anyProfile node subNode)) with
    | some check => exact ⟨_, _, rfl, hsanity ▸ hnone⟩
    | none => exact ⟨_, _, rfl, hnone⟩
  obtain ⟨check, k', hrun, hnone⟩ := hcheck
  obtain ⟨command, hvalid⟩ := isCommandsValid_none cfg raw
  rw [invokeSanityandCommandExec, hread]
  dsimp only
  rw [bind_run_of_some hrun, executeIfValid, hnone, hvalid]
  exact ⟨_, _, rfl⟩

theorem readCommand_anyType (cfg : Config) :
    readCommand cfg (some anyType) = (some (cfg.cJsonPrint (.string (str "true"))), 0) := rfl

/-- The type of the issue, or the only item where it names none. -/
theorem issueTypeItem_anyProfile {type : Str} (htype : subNode.getD (str "x") = type) :
    issueTypeItem (some (anyProfile node subNode)) ⟨some node, some type⟩ = some anyType := by
  rw [issueTypeItem, anyProfile, getObjectItem_single, if_pos rfl, getObjectItem_single, if_pos (by rw [htype])]

/-! ## The commands -/

section

variable (hnode : issue.node = some node)

include hnode

theorem processAllDebugCommand_anyProfile (buf : Str) (k : Nat) : ∃ es k',
    (processAllDebugCommand cfg (anyEnv node none) (some (anyProfile node none)) issue buf).run k = ⟨some true, es, k'⟩ := by
  have hitems : (cJsonItems (cJsonGetObjectItem (some (anyProfile node none)) issue.node)).zipIdx =
      [((some (str "x"), anyType), 0)] := by
    rw [hnode, anyProfile, getObjectItem_single, if_pos rfl]
    rfl
  rw [processAllDebugCommand, hitems, loop_singleton]
  refine invokeSanityandCommandExec_anyProfile _ _ k ((congrArg (readCommand cfg) ?_).trans (readCommand_anyType cfg))
  rw [commandRoot, if_neg Bool.false_ne_true, if_neg (by simp), hnode]
  exact issueTypeItem_anyProfile rfl

/-- The loop over the types of a category passes one that is none, and ends with the command. -/
theorem processAllDeepSleepAwkMetricsCommands_anyProfile (hdeep : node.map tolower = deepSleepStr.map tolower) (k : Nat) :
    ∃ es k', (processAllDeepSleepAwkMetricsCommands cfg (anyEnv node none) (some (anyProfile node none)) issue).run k =
      ⟨some true, es, k'⟩ := by
  have hitems : cJsonItems (cJsonGetObjectItem (some (anyProfile node none)) issue.node) = [(some (str "x"), anyType)] := by
    rw [hnode, anyProfile, getObjectItem_single, if_pos rfl]
    rfl
  have htypes : cJsonItems (some anyType) = [(some (str "y"), .string (str "true")),
      (some (str "x"), .object [(str "x", .string (str "true"))])] := rfl
  have hroot : commandRoot (some (anyProfile node none)) true = some (.object [(str "x", anyType)]) := by
    rw [commandRoot, if_pos rfl, anyProfile, getObjectItem_single, if_pos hdeep]
    rfl
  have hfirst : readCommand cfg (issueTypeItem (some (.object [(str "x", anyType)])) ⟨some (str "x"), some (str "y")⟩) =
      (none, 0) := rfl
  have hsecond : readCommand cfg (issueTypeItem (some (.object [(str "x", anyType)])) ⟨some (str "x"), some (str "x")⟩) =
      (some (cfg.cJsonPrint (.string (str "true"))), 0) := rfl
  rw [processAllDeepSleepAwkMetricsCommands, hitems, loop_singleton]
  dsimp only
  rw [htypes]
  show ∃ es k', (invokeSanityandCommandExec cfg (anyEnv node none) ⟨some (str "x"), some (str "y")⟩ _ _ true >>=
    fun status => loop _ status [_]).run k = _
  have hpass (buf : Str) : (invokeSanityandCommandExec cfg (anyEnv node none) ⟨some (str "x"), some (str "y")⟩
      (some (anyProfile node none)) buf true).run k = ⟨some false, [], k⟩ := by
    rw [invokeSanityandCommandExec, hroot, hfirst]
    rfl
  rw [bind_run_of_some (hpass _), loop_singleton]
  dsimp only
  obtain ⟨es, k', hrun⟩ := invokeSanityandCommandExec_anyProfile ⟨some (str "x"), some (str "x")⟩
    ((str "x").take (str "x").length ++ rfcDelim ++ (str "x").take (str "x").length) k
    ((congrArg (fun root => readCommand cfg (issueTypeItem root _)) hroot).trans hsecond)
  rw [hrun]
  exact ⟨_, _, rfl⟩

theorem runIssueCommands_anyProfile (cfg : Config) (hsub : issue.subNode = subNode) (happ : rbuf.appendMode = false) {deep : Bool}
    (hdeep : deep → node.map tolower = deepSleepStr.map tolower) (k : Nat) : ∃ es k',
      (runIssueCommands cfg (anyEnv node subNode) issue (some (anyProfile node subNode)) rbuf deep none).run k =
        ⟨some true, es, k'⟩ := by
  subst hsub
  rw [runIssueCommands]
  cases hsub : issue.subNode with
  | some type =>
    rw [if_pos nofun, happ, if_neg Bool.false_ne_true]
    refine invokeSanityandCommandExec_anyProfile _ _ k ((congrArg (readCommand cfg) ?_).trans (readCommand_anyType cfg))
    rw [commandRoot, if_neg Bool.false_ne_true]
    obtain ⟨n, t⟩ := issue
    obtain rfl : n = some node := hnode
    obtain rfl : t = some type := hsub
    exact issueTypeItem_anyProfile rfl
  | none =>
    rw [if_neg (by simp)]
    split
    · rename_i h
      exact processAllDeepSleepAwkMetricsCommands_anyProfile hnode (hdeep h) k
    · exact processAllDebugCommand_anyProfile hnode _ k

/-- The profile has the issue. -/
theorem findIssueInParsedJSON_anyProfile (hsub : issue.subNode = subNode) :
    findIssueInParsedJSON cfg issue (some (anyProfile node subNode)) = true := by
  subst hsub
  have hcategory : cJsonGetObjectItem (some (anyProfile node issue.subNode)) (some node) =
      some (.object [(issue.subNode.getD (str "x"), anyType)]) := by
    rw [anyProfile, getObjectItem_single, if_pos rfl]
  simp only [findIssueInParsedJSON, hnode, hcategory]
  split
  · rfl
  · cases hsub : issue.subNode with
    | none => rfl
    | some type => simp [getObjectItem_single]

end

/-! ## The report -/

/-- Every token with a clean base that has a node is reported on by some device. -/
theorem processIssueType_anyEnv (cfg : Config) (rbuf : DataBuf) (h : Clean rbuf.mdata)
    (hissue : getIssueInfo rbuf.mdata = some issue)
    (hnode : issue.node = some node) (happ : rbuf.appendMode = false) (hdyn : rbuf.inDynamic = false)
    (hlen : (rbuf.mdata ++ rbuf.suffix).length < 512) : ∃ dir : ReportDir,
      .uploadDebugoutput dir.path (rbuf.mdata ++ rbuf.suffix) ∈
        ((processIssueType cfg (anyEnv node issue.subNode) rbuf).run 0).events := by
  obtain ⟨node', hnode', hne, halnum, hnlen⟩ := h.node hissue
  obtain rfl : node' = node := Option.some.inj (hnode'.symm.trans hnode)
  let dir : ReportDir := ⟨node', str "2025-01-01-00-00-00", hne, halnum, hnlen, by decide +kernel, by decide⟩
  refine ⟨dir, ?_⟩
  have hread (k : Nat) : (anyEnv node' issue.subNode).readAndParseJSON k rrdJsonFile =
      some (anyProfile node' issue.subNode) := rfl
  have hdeep : (false || node' = deepSleepStr || node' = str "deepsleep") →
      node'.map tolower = deepSleepStr.map tolower := by
    intro hd
    simp only [Bool.false_or, Bool.or_eq_true, decide_eq_true_eq] at hd
    rcases hd with rfl | rfl
    · rfl
    · decide
  obtain ⟨es, k', hcommands⟩ := runIssueCommands_anyProfile hnode cfg rfl happ hdeep 4
  have hmkdir (k : Nat) (path : Str) : (anyEnv node' issue.subNode).mkdir k path = true := rfl
  have hchdir (k : Nat) (path : Str) : (anyEnv node' issue.subNode).chdir k path = true := rfl
  have hupload : (uploadReport dir.path rbuf).run k' =
      ⟨some (), [.uploadDebugoutput dir.path (rbuf.mdata ++ rbuf.suffix)], k'⟩ := by
    rw [uploadReport, if_neg (Nat.not_le.mpr hlen)]
    rfl
  simp only [processIssueType, hissue, happ, hdyn, Bool.false_eq_true, if_false, processIssueTypeInStaticProfile,
    call_bind_run, makeOutdir_bind_run, hread, findIssueInParsedJSON_anyProfile hnode rfl, if_true, checkIssueNodeInfo,
    hnode, hmkdir, hchdir]
  rw [bind_run_of_some hcommands]
  simp only [if_true]
  refine List.mem_cons_of_mem _ (List.mem_append_right es ?_)
  show _ ∈ ((uploadReport dir.path rbuf).run k').events
  rw [hupload]
  exact List.mem_singleton_self _

end RRD
