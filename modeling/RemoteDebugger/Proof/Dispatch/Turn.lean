import RemoteDebugger.Framework.Local
import RemoteDebugger.Proof.Dispatch.Effects
import RemoteDebugger.Spec.Event

/-!
# What a turn does

* `processIssueType_local`: a turn depends on the answers to its own calls;
* `processIssueType_follows`: at a site it executes the commands that its token
  resolves to, if the directory is not there yet.
-/

namespace RRD

open Framework Framework.Prog

/-! ## The answers of a turn -/

section Local

variable {cfg : Config} {env env' : Env} {issue : IssueNodeData} {jsoncfg : Option CJson} {rbuf : DataBuf}

theorem executeCommands_local (cmdinfo : IssueData) :
    Local (env.AgreesAt env') (executeCommands env cmdinfo) (executeCommands env' cmdinfo) :=
  .bind (.emit _) fun _ => .call fun _ h => congrFun h.executeCommands cmdinfo

theorem readAndParseJSON_local (path : Str) : Local (E := Effect) (env.AgreesAt env')
    (call (env.readAndParseJSON · path)) (call (env'.readAndParseJSON · path)) :=
  .call fun _ h => congrFun h.readAndParseJSON path

theorem readSanityCheck_local : Local (env.AgreesAt env') (readSanityCheck env jsoncfg) (readSanityCheck env' jsoncfg) := by
  rw [readSanityCheck, readSanityCheck]
  cases sanityCheck jsoncfg with
  | some check => exact .pure _
  | none => exact .bind (readAndParseJSON_local _) fun _ => .pure _

theorem invokeSanityandCommandExec_local (issue : IssueNodeData) (buf : Str) (deep : Bool) : Local (env.AgreesAt env')
    (invokeSanityandCommandExec cfg env issue jsoncfg buf deep)
    (invokeSanityandCommandExec cfg env' issue jsoncfg buf deep) := by
  rw [invokeSanityandCommandExec, invokeSanityandCommandExec]
  rcases readCommand cfg (issueTypeItem (commandRoot jsoncfg deep) issue) with ⟨_ | raw, timeout⟩
  · exact .pure _
  · refine .bind readSanityCheck_local fun check => ?_
    rw [executeIfValid, executeIfValid]
    cases isCommandsValid cfg raw (checkCommands check) with
    | none => exact .pure _
    | some command => exact executeCommands_local _

theorem runIssueCommands_local (deep : Bool) (data : Option IssueData) : Local (env.AgreesAt env')
    (runIssueCommands cfg env issue jsoncfg rbuf deep data) (runIssueCommands cfg env' issue jsoncfg rbuf deep data) := by
  unfold runIssueCommands
  split
  · split
    · cases data with
      | none => exact .stop
      | some cmdinfo => exact executeCommands_local cmdinfo
    · exact invokeSanityandCommandExec_local _ _ _
  · split
    · refine .loop (fun status category => .loop (fun _ type => ?_) status) false
      obtain ⟨category, items⟩ := category
      obtain ⟨type, item⟩ := type
      cases category with
      | none => exact .stop
      | some category =>
        cases type with
        | none => exact .stop
        | some type => exact invokeSanityandCommandExec_local _ _ _
    · refine .loop (fun _ item => ?_) false
      obtain ⟨⟨_ | string, _⟩, i⟩ := item
      · exact .stop
      · exact invokeSanityandCommandExec_local _ _ _

theorem checkIssueNodeInfo_local (deep : Bool) (data : Option IssueData) : Local (env.AgreesAt env')
    (checkIssueNodeInfo cfg env issue jsoncfg rbuf deep data) (checkIssueNodeInfo cfg env' issue jsoncfg rbuf deep data) := by
  rw [checkIssueNodeInfo, checkIssueNodeInfo]
  cases issue.node with
  | none => exact .stop
  | some node =>
    refine .bind (.call fun _ h => h.localtime) fun ltime =>
      .bind (.bind (.emit _) fun _ => .call fun _ h => congrFun h.mkdir _) fun made => ?_
    cases made with
    | false => exact .pure _
    | true =>
      refine .bind (.call fun _ h => congrFun h.chdir _) fun changed => ?_
      cases changed with
      | false => exact .pure _
      | true =>
        refine .bind (runIssueCommands_local _ data) fun execstatus => ?_
        cases execstatus with
        | false => exact .pure _
        | true =>
          simp only [uploadReport, if_true]
          split
          · exact .pure _
          · exact .emit _

theorem rrdRdmManagerDownloadRequest_local (deep : Bool) : Local (env.AgreesAt env')
    (rrdRdmManagerDownloadRequest cfg env issue rbuf deep) (rrdRdmManagerDownloadRequest cfg env' issue rbuf deep) := by
  rw [rrdRdmManagerDownloadRequest, rrdRdmManagerDownloadRequest]
  cases issue.node with
  | none => exact .pure _
  | some node =>
    cases rrdGetProfileStringLength cfg issue (cfg.iarm && deep) with
    | none => exact .pure _
    | some size =>
      refine .bind (.emit _) fun _ => .bind (.call fun _ h => congrFun h.rbusSet _) fun set => ?_
      cases set with
      | false => exact .pure _
      | true => exact .emit _

theorem processIssueTypeInDynamicProfile_local : Local (env.AgreesAt env')
    (processIssueTypeInDynamicProfile cfg env rbuf issue) (processIssueTypeInDynamicProfile cfg env' rbuf issue) := by
  rw [processIssueTypeInDynamicProfile, processIssueTypeInDynamicProfile]
  cases rbuf.jsonPath with
  | none => exact .pure _
  | some path =>
    refine .bind (readAndParseJSON_local path) fun json => ?_
    cases json with
    | none => exact .pure _
    | some json =>
      dsimp only
      split
      · exact checkIssueNodeInfo_local _ _
      · exact .pure _

theorem processIssueTypeInStaticProfile_local : Local (env.AgreesAt env')
    (processIssueTypeInStaticProfile cfg env rbuf issue) (processIssueTypeInStaticProfile cfg env' rbuf issue) := by
  have hinstalled : Local (env.AgreesAt env') (processIssueTypeInInstalledPackage cfg env rbuf issue)
      (processIssueTypeInInstalledPackage cfg env' rbuf issue) := by
    rw [processIssueTypeInInstalledPackage, processIssueTypeInInstalledPackage]
    cases issue.node with
    | none => exact .stop
    | some node =>
      refine .bind (readAndParseJSON_local _) fun json => ?_
      cases json with
      | none => exact rrdRdmManagerDownloadRequest_local false
      | some json =>
        dsimp only
        split
        · exact checkIssueNodeInfo_local _ _
        · exact rrdRdmManagerDownloadRequest_local false
  refine .bind (readAndParseJSON_local _) fun json => ?_
  cases json with
  | none => exact hinstalled
  | some json =>
    dsimp only
    split
    · exact checkIssueNodeInfo_local _ _
    · exact hinstalled

theorem profileData_local (json : CJson) :
    Local (env.AgreesAt env') (profileData cfg rbuf issue json) (profileData cfg rbuf issue json) := by
  rw [profileData]
  split
  · split
    · exact .stop
    · exact .pure _
  · exact .pure _

/-- The run of a turn is one of its own answers. -/
theorem processIssueType_local : Local (env.AgreesAt env') (processIssueType cfg env rbuf)
    (processIssueType cfg env' rbuf) := by
  rw [processIssueType, processIssueType]
  cases getIssueInfo rbuf.mdata with
  | none => exact .stop
  | some issue =>
    dsimp only
    split
    · refine .bind ?_ fun dynamic => ?_
      · rw [processIssueTypeInDynamicProfileappend, processIssueTypeInDynamicProfileappend]
        cases issue.node with
        | none => exact .stop
        | some node =>
          refine .bind (readAndParseJSON_local _) fun json => ?_
          cases json with
          | none => exact .bind (rrdRdmManagerDownloadRequest_local false) fun _ => .pure _
          | some json => exact profileData_local json
      · cases dynamic with
        | none => exact .pure _
        | some dynamic =>
          refine .bind (.bind (readAndParseJSON_local _) fun json => ?_) fun static => ?_
          · cases json with
            | none => exact .pure _
            | some json => exact profileData_local json
          · cases static with
            | none => exact .pure _
            | some static => exact checkIssueNodeInfo_local _ _
    · split
      · exact processIssueTypeInDynamicProfile_local
      · exact processIssueTypeInStaticProfile_local

end Local

/-! ## The commands of a turn -/

section Follows

variable {ev : Event} {site : Site} {env : Env} {issue : IssueNodeData} {jsoncfg : Option CJson} {rbuf : DataBuf}

theorem executeCommands_follows (cmdinfo : IssueData) :
    Follows Effect.command? (executeCommands env cmdinfo) ⟨[cmdinfo], false⟩ :=
  .bind (.emit _) fun _ => .call _

/-- The check is one of the files. -/
theorem readSanityCheck_follows {f : Option CJson → Prog Nat Effect Bool} {p : Plan IssueData}
    (h : Follows Effect.command? (f ((sanityCheck jsoncfg).or (sanityCheck (ev.files rrdJsonFile)))) p) :
    Follows Effect.command? (readSanityCheck (site.device ev env) jsoncfg >>= f) p := by
  rw [readSanityCheck]
  cases hcheck : sanityCheck jsoncfg with
  | some check =>
    rw [hcheck] at h
    exact h
  | none =>
    rw [hcheck] at h
    exact fun k => h (k + 1)

theorem invokeSanityandCommandExec_follows (issue : IssueNodeData) (buf : Str) (deep : Bool) : Follows Effect.command?
    (invokeSanityandCommandExec ev.cfg (site.device ev env) issue jsoncfg buf deep)
    (plannedCommand ev.cfg ev.files issue jsoncfg buf deep) := by
  rw [invokeSanityandCommandExec, plannedCommand]
  rcases readCommand ev.cfg (issueTypeItem (commandRoot jsoncfg deep) issue) with ⟨_ | raw, timeout⟩
  · exact .pure _
  · refine readSanityCheck_follows ?_
    rw [executeIfValid]
    dsimp only
    cases isCommandsValid ev.cfg raw (checkCommands ((sanityCheck jsoncfg).or (sanityCheck (ev.files rrdJsonFile)))) with
    | none => exact .pure _
    | some command => exact executeCommands_follows _

theorem runIssueCommands_follows (deep : Bool) (data : Option IssueData) : Follows Effect.command?
    (runIssueCommands ev.cfg (site.device ev env) issue jsoncfg rbuf deep data)
    (plannedCommands ev.cfg ev.files issue jsoncfg rbuf deep data) := by
  unfold runIssueCommands plannedCommands
  split
  · split
    · cases data with
      | none => exact .stop
      | some cmdinfo => exact executeCommands_follows cmdinfo
    · exact invokeSanityandCommandExec_follows _ _ _
  · split
    · rw [processAllDeepSleepAwkMetricsCommands, plannedOfDeepSleep]
      refine .loop (fun status category => ?_) false
      refine .loop (fun _ type => ?_) status
      obtain ⟨category, items⟩ := category
      obtain ⟨type, item⟩ := type
      cases category with
      | none => exact .stop
      | some category =>
        cases type with
        | none => exact .stop
        | some type => exact invokeSanityandCommandExec_follows _ _ _
    · rw [processAllDebugCommand, plannedOfNode]
      refine .loop (fun _ item => ?_) false
      obtain ⟨⟨_ | string, _⟩, i⟩ := item
      · exact .stop
      · exact invokeSanityandCommandExec_follows _ _ _

theorem uploadReport_follows (outdir : Str) : Follows Effect.command? (uploadReport outdir rbuf) .done := by
  rw [uploadReport]
  split
  · exact .pure _
  · exact .emit _

theorem makeOutdir_bind_follows {f : Bool → Prog Nat Effect Unit} {outdir : Str} {p : Plan IssueData} (made : Bool)
    (hmade : ∀ k, env.mkdir k outdir = made) (h : Follows Effect.command? (f made) p) :
    Follows Effect.command? (makeOutdir env outdir >>= f) p := fun k => by
  rw [makeOutdir_bind_run, hmade]
  exact h (k + 1)

/-- A report executes its commands, unless its directory is there already. -/
theorem checkIssueNodeInfo_follows (data : Option IssueData) : Follows Effect.command?
    (checkIssueNodeInfo ev.cfg (site.device ev env) issue jsoncfg rbuf false data)
    (site.plan ev (resolveReport ev.cfg ev.files issue jsoncfg rbuf data)) := by
  rw [checkIssueNodeInfo, resolveReport]
  cases issue.node with
  | none => exact .stop
  | some node =>
    refine .call_bind fun _ => makeOutdir_bind_follows (!site.has (ev.dir node site.now)) (fun _ => rfl) ?_
    show Follows Effect.command? (if !site.has (ev.dir node site.now) then _ else _)
      (if site.has (ev.dir node site.now) then _ else _)
    cases site.has (ev.dir node site.now) with
    | true => exact .pure _
    | false =>
      refine .call_bind fun _ => ?_
      rw [← Plan.andThen_done (plannedCommands ..)]
      refine .bind (runIssueCommands_follows _ data) fun execstatus => ?_
      cases execstatus with
      | false => exact .pure _
      | true => exact uploadReport_follows _

theorem rrdRdmManagerDownloadRequest_follows :
    Follows Effect.command? (rrdRdmManagerDownloadRequest ev.cfg env issue rbuf false) .done := by
  have hset (paramString : Str) : Follows (W := Nat) Effect.command? (emit (.rbusSet paramString)) .done := .emit _
  rw [rrdRdmManagerDownloadRequest]
  split
  · refine .bind (q := .done) (hset _) fun _ => .bind (q := .done) (.call _) fun set => ?_
    cases set with
    | false => exact .pure _
    | true => exact .emit _
  · exact .pure _

/-- What a turn comes to with the profile it is resolved to. -/
def planOn (ev : Event) (site : Site) (issue : IssueNodeData) (rbuf : DataBuf) (profile : Option CJson) : Plan IssueData :=
  site.plan ev (profile.elim .nothing fun json => resolveReport ev.cfg ev.files issue (some json) rbuf none)

/-- The report on a profile that has the issue, or else `rest`. -/
theorem findIssue_follows {json : CJson} {path : Str} {rest : Prog Nat Effect Unit} {other : Option CJson}
    (hjson : ev.files path = some json) (h : Follows Effect.command? rest (planOn ev site issue rbuf other)) :
    Follows Effect.command? (if findIssueInParsedJSON ev.cfg issue (some json) then
        checkIssueNodeInfo ev.cfg (site.device ev env) issue (some json) rbuf false none else rest)
      (planOn ev site issue rbuf ((profileWith ev.cfg ev.files issue path).or other)) := by
  rw [profileWith, hjson]
  by_cases hfind : findIssueInParsedJSON ev.cfg issue (some json)
  · rw [if_pos hfind, Option.filter_some, if_pos hfind]
    exact checkIssueNodeInfo_follows none
  · rw [if_neg hfind, Option.filter_some, if_neg hfind]
    exact h

theorem read_follows {α : Type} {path : Str} {f : Option CJson → Prog Nat Effect α} {p : Plan IssueData}
    (h : Follows Effect.command? (f (ev.files path)) p) :
    Follows Effect.command? (call ((site.device ev env).readAndParseJSON · path) >>= f) p :=
  .call_bind fun _ => h

theorem processIssueTypeInDynamicProfile_follows : Follows Effect.command?
    (processIssueTypeInDynamicProfile ev.cfg (site.device ev env) rbuf issue)
    (planOn ev site issue rbuf (rbuf.jsonPath.bind (profileWith ev.cfg ev.files issue))) := by
  rw [processIssueTypeInDynamicProfile]
  cases rbuf.jsonPath with
  | none => exact .pure _
  | some path =>
    refine read_follows ?_
    show Follows _ _ (planOn ev site issue rbuf (profileWith ..))
    cases hjson : ev.files path with
    | none =>
      rw [profileWith, hjson]
      exact .pure _
    | some json =>
      rw [← Option.or_none (o := profileWith ..)]
      exact findIssue_follows hjson (.pure _)

theorem processIssueTypeInInstalledPackage_follows {node : Str} (hnode : issue.node = some node) : Follows Effect.command?
    (processIssueTypeInInstalledPackage ev.cfg (site.device ev env) rbuf issue)
    (planOn ev site issue rbuf (profileWith ev.cfg ev.files issue (dynJsonPath ev.cfg node))) := by
  simp only [processIssueTypeInInstalledPackage, hnode]
  refine read_follows ?_
  cases hjson : ev.files (dynJsonPath ev.cfg node) with
  | none =>
    rw [profileWith, hjson]
    exact rrdRdmManagerDownloadRequest_follows
  | some json =>
    rw [← Option.or_none (o := profileWith ..)]
    exact findIssue_follows hjson rrdRdmManagerDownloadRequest_follows

theorem processIssueTypeInStaticProfile_follows {node : Str} (hnode : issue.node = some node) : Follows Effect.command?
    (processIssueTypeInStaticProfile ev.cfg (site.device ev env) rbuf issue)
    (planOn ev site issue rbuf ((profileWith ev.cfg ev.files issue rrdJsonFile).or
      (profileWith ev.cfg ev.files issue (dynJsonPath ev.cfg node)))) := by
  refine read_follows ?_
  cases hjson : ev.files rrdJsonFile with
  | none =>
    rw [profileWith, hjson]
    exact processIssueTypeInInstalledPackage_follows hnode
  | some json => exact findIssue_follows hjson (processIssueTypeInInstalledPackage_follows hnode)

/-- The command of a profile, or no command, or the end of the thread. -/
theorem profileData_follows {json : CJson} {f : Option IssueData → Prog Nat Effect Unit} {r : Option IssueData → Resolved}
    (h : ∀ data, Follows Effect.command? (f data) (site.plan ev (r data))) :
    Follows Effect.command? (profileData ev.cfg rbuf issue json >>= f)
      (site.plan ev ((appendedData ev.cfg rbuf issue json).elim .crash r)) := by
  rw [profileData, appendedData]
  split
  · cases getIssueCommandInfo ev.cfg issue (some json) rbuf.mdata with
    | none => exact fun _ => ⟨rfl, rfl⟩
    | some data => exact h (some data)
  · exact h none

/-- A turn executes the commands that its token resolves to, if their directory is not there yet. -/
theorem processIssueType_follows : Follows Effect.command? (processIssueType ev.cfg (site.device ev env) rbuf)
    (site.plan ev (resolve ev.cfg ev.files rbuf)) := by
  rw [processIssueType, resolve]
  cases hissue : getIssueInfo rbuf.mdata with
  | none => exact .stop
  | some issue =>
    obtain ⟨node, hnode, -⟩ := getIssueInfo_node hissue
    dsimp only
    split
    · simp only [processIssueTypeInDynamicProfileappend, hnode, Option.bind_some, bind_assoc]
      refine read_follows ?_
      cases hdynamic : ev.files (dynJsonPath ev.cfg node) with
      | none =>
        simp only [bind_assoc, pure_bind]
        exact .bind (q := .done) rrdRdmManagerDownloadRequest_follows fun _ => .pure _
      | some dynamic =>
        refine profileData_follows fun data => ?_
        cases data with
        | none => exact .pure _
        | some dynamicprofiledata =>
          simp only [processIssueTypeInStaticProfileappend, bind_assoc]
          refine read_follows ?_
          cases hstatic : ev.files rrdJsonFile with
          | none => exact .pure _
          | some static =>
            refine profileData_follows fun data => ?_
            cases data with
            | none => exact .pure _
            | some staticprofiledata => exact checkIssueNodeInfo_follows _
    · rw [resolveProfile, hnode]
      split
      · exact processIssueTypeInDynamicProfile_follows
      · exact processIssueTypeInStaticProfile_follows hnode

end Follows

end RRD
