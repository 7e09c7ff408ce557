import RemoteDebugger.Framework.Effects
import RemoteDebugger.Impl.Dispatch
import RemoteDebugger.Proof.Dispatch.Token

/-!
# The effects of a message

Judgements on the dispatch, along its text:

* `checkIssueNodeInfo_emits`: a report is a directory, commands and an upload
  under the name of the message (`IsReport`);
* `IssueData.RunBy`: its commands are those that a check accepts, or, in append
  mode, two of them joined;
* `rrdRdmManagerDownloadRequest_emits`: a download is a bus call and an entry for
  the message (`IsDownload`);
* `processIssueType_emits`, `rrdProcessDeepSleepAwakeEvents_emits`: a message is
  one or the other, and which one;
* `processIssueType_atMost`, `rrdProcessDeepSleepAwakeEvents_atMost`: it makes at
  most one bus call.
-/

namespace RRD

open Framework Framework.Prog

/-- An InstallPackage request. -/
def Effect.isRbusSet : Effect → Bool
  | .rbusSet _ => true
  | _ => false

/-- A command that satisfies `P`. -/
def Effect.IsCommand (P : IssueData → Prop) : Effect → Prop
  | .executeCommands d => P d
  | _ => False

/-- An effect of the report for a message, whose commands satisfy `P`. -/
def Effect.IsReport (P : IssueData → Prop) (rbuf : DataBuf) : Effect → Prop
  | .mkdir _ => True
  | .executeCommands d => P d
  | .uploadDebugoutput _ issuename => issuename = rbuf.mdata ++ rbuf.suffix
  | _ => False

/-- An effect of a download for a message. -/
def Effect.IsDownload (pkg : Str) (rbuf : DataBuf) : Effect → Prop
  | .rbusSet _ => True
  | .appendItem pkgData issueTypeData => pkgData = pkg ∧ issueTypeData = requestedIssue rbuf
  | _ => False

variable {cfg : Config} {env : Env} {issue : IssueNodeData} {jsoncfg : Option CJson} {rbuf : DataBuf}
  {deep : Bool} {data : Option IssueData} {P : IssueData → Prop}

theorem Effect.IsReport.not_isRbusSet {e : Effect} (h : e.IsReport P rbuf) : ¬ e.isRbusSet := by
  cases e <;> simp_all [IsReport, isRbusSet]

theorem Effect.IsCommand.mono {Q : IssueData → Prop} (hPQ : ∀ d, P d → Q d) {e : Effect} (h : e.IsCommand P) :
    e.IsCommand Q := by
  cases e with
  | executeCommands d => exact hPQ d h
  | _ => exact h.elim

theorem Effect.IsCommand.isReport {e : Effect} (h : e.IsCommand P) : e.IsReport P rbuf := by
  cases e with
  | executeCommands d => exact h
  | _ => exact h.elim

/-! ## Commands -/

/-- A command that is read from the profile `jsoncfg`, and that the check found
for it accepts. -/
inductive IssueData.Accepted (cfg : Config) (env : Env) (jsoncfg : Option CJson) : IssueData → Prop where
  | mk {issue : IssueNodeData} {deep : Bool} {buf raw command : Str} {timeout : Int} {k : Nat}
      (hread : readCommand cfg (issueTypeItem (commandRoot jsoncfg deep) issue) = (some raw, timeout))
      (hvalid : isCommandsValid cfg raw
        (checkCommands ((sanityCheck jsoncfg).or (sanityCheck (env.readAndParseJSON k rrdJsonFile)))) = some command) :
      Accepted cfg env jsoncfg (acceptedData jsoncfg buf raw command timeout)

/-- The command of a package, appended to that of the static profile. -/
inductive IssueData.Appended (cfg : Config) : IssueData → Prop where
  | mk {issue : IssueNodeData} {static dynamic : Option CJson} {buf : Str} {s d : IssueData}
      (hs : getIssueCommandInfo cfg issue static buf = some s) (hd : getIssueCommandInfo cfg issue dynamic buf = some d) :
      Appended cfg (appendCommands s d)

/-- A command of a message, for append mode or not. -/
def IssueData.RunBy (cfg : Config) (env : Env) (append : Bool) (d : IssueData) : Prop :=
  if append then d.Appended cfg else ∃ jsoncfg, d.Accepted cfg env jsoncfg

/-- Nothing is read without a profile. -/
theorem IssueData.Accepted.not_none {d : IssueData} : ¬ d.Accepted cfg env none := by
  rintro ⟨hread, -⟩
  rename_i deep _ _ _ _ _
  cases deep <;> cases hread

theorem executeCommands_emits {d : IssueData} (h : P d) : Emits (executeCommands env d) (Effect.IsCommand P) :=
  .bind (.emit h) fun _ => .call _

theorem readSanityCheck_emits {P : Effect → Prop} : Emits (readSanityCheck env jsoncfg) P := by
  rw [readSanityCheck]
  split
  · exact .pure _
  · exact .bind (.call _) fun _ => .pure _

/-- The check of a profile, or that of the static profile. -/
theorem readSanityCheck_returns : Returns (readSanityCheck env jsoncfg) fun check =>
    ∃ k, check = (sanityCheck jsoncfg).or (sanityCheck (env.readAndParseJSON k rrdJsonFile)) := by
  rw [readSanityCheck]
  split
  · rename_i check hcheck
    exact .pure ⟨0, by rw [hcheck, Option.some_or]⟩
  · rename_i hnone
    exact .call_bind fun k => .pure ⟨k, by rw [hnone, Option.none_or]⟩

theorem invokeSanityandCommandExec_emits (buf : Str) :
    Emits (invokeSanityandCommandExec cfg env issue jsoncfg buf deep)
      (Effect.IsCommand (IssueData.Accepted cfg env jsoncfg)) := by
  rw [invokeSanityandCommandExec]
  split
  · exact .pure _
  · rename_i raw timeout hread
    refine readSanityCheck_emits.bind_of_returns readSanityCheck_returns fun check hcheck => ?_
    obtain ⟨k, rfl⟩ := hcheck
    rw [executeIfValid]
    split
    · exact .pure _
    · rename_i command hvalid
      exact executeCommands_emits (.mk hread hvalid)

theorem processAllDebugCommand_emits (buf : Str) :
    Emits (processAllDebugCommand cfg env jsoncfg issue buf)
      (Effect.IsCommand (IssueData.Accepted cfg env jsoncfg)) := by
  refine .loop (fun _ item _ => ?_) _
  obtain ⟨⟨_ | string, _⟩, i⟩ := item
  · exact .stop
  · exact invokeSanityandCommandExec_emits _

theorem processAllDeepSleepAwkMetricsCommands_emits :
    Emits (processAllDeepSleepAwkMetricsCommands cfg env jsoncfg issue)
      (Effect.IsCommand (IssueData.Accepted cfg env jsoncfg)) := by
  refine .loop (fun status category _ => .loop (fun _ type _ => ?_) status) _
  split
  · exact invokeSanityandCommandExec_emits _
  · exact .stop

/-! ## Reports -/

section Report

/-- Commands of the profile, and the data that append mode hands over. -/
theorem runIssueCommands_emits (hacc : ∀ d, d.Accepted cfg env jsoncfg → P d) (hdata : ∀ d ∈ data, P d) :
    Emits (runIssueCommands cfg env issue jsoncfg rbuf deep data) (Effect.IsCommand P) := by
  have hmono (e : Effect) (he : e.IsCommand (IssueData.Accepted cfg env jsoncfg)) : e.IsCommand P := he.mono hacc
  unfold runIssueCommands
  split
  · split
    · split
      · exact .stop
      · exact executeCommands_emits (hdata _ rfl)
    · exact (invokeSanityandCommandExec_emits _).mono hmono
  · split
    · exact processAllDeepSleepAwkMetricsCommands_emits.mono hmono
    · exact (processAllDebugCommand_emits _).mono hmono

theorem uploadReport_emits (outdir : Str) : Emits (uploadReport outdir rbuf) (Effect.IsReport P rbuf) := by
  rw [uploadReport]
  split
  · exact .pure _
  · exact .emit rfl

theorem makeOutdir_emits {Q : Effect → Prop} {outdir : Str} (h : Q (.mkdir outdir)) : Emits (makeOutdir env outdir) Q :=
  .bind (.emit h) fun _ => .call _

theorem makeOutdir_bind_run {α : Type} {f : Bool → Prog Nat Effect α} (outdir : Str) (k : Nat) :
    (makeOutdir env outdir >>= f).run k =
      ⟨((f (env.mkdir k outdir)).run (k + 1)).result, .mkdir outdir :: ((f (env.mkdir k outdir)).run (k + 1)).events,
        ((f (env.mkdir k outdir)).run (k + 1)).world⟩ := by
  have hmkdir : (makeOutdir env outdir).run k = ⟨some (env.mkdir k outdir), [.mkdir outdir], k + 1⟩ := rfl
  rw [bind_run_of_some hmkdir]
  rfl

/-- A report is a directory, the commands of its issue and the upload. -/
theorem checkIssueNodeInfo_emits (hacc : ∀ d, d.Accepted cfg env jsoncfg → P d) (hdata : ∀ d ∈ data, P d) :
    Emits (checkIssueNodeInfo cfg env issue jsoncfg rbuf deep data) (Effect.IsReport P rbuf) := by
  rw [checkIssueNodeInfo]
  split
  · exact .stop
  · refine .bind (.call _) fun ltime => .bind (makeOutdir_emits trivial) fun made => ?_
    split
    · refine .bind (.call _) fun changed => ?_
      split
      · refine .bind ((runIssueCommands_emits hacc hdata).mono fun _ => Effect.IsCommand.isReport) fun execstatus => ?_
        split
        · exact uploadReport_emits _
        · exact .pure _
      · exact .pure _
    · exact .pure _

/-- The report on an issue of one profile. -/
theorem checkIssueNodeInfo_profile :
    Emits (checkIssueNodeInfo cfg env issue jsoncfg rbuf deep none)
      (Effect.IsReport (IssueData.RunBy cfg env false) rbuf) := by
  refine checkIssueNodeInfo_emits (fun d hd => ⟨jsoncfg, hd⟩) fun d hd => ?_
  cases hd

end Report

/-! ## Downloads -/

theorem rrdRdmManagerDownloadRequest_emits {node : Str} (hnode : issue.node = some node) :
    Emits (rrdRdmManagerDownloadRequest cfg env issue rbuf deep)
      (Effect.IsDownload (requestedPkg cfg node deep) rbuf) := by
  rw [rrdRdmManagerDownloadRequest]
  split
  · rename_i node' size h _
    obtain rfl : node' = node := Option.some.inj (h.symm.trans hnode)
    refine .bind (.emit trivial) fun _ => .bind (.call _) fun ok => ?_
    split
    · exact .emit ⟨rfl, rfl⟩
    · exact .pure _
  · exact .pure _

theorem rrdRdmManagerDownloadRequest_total (cfg : Config) (env : Env) (issue : IssueNodeData) (rbuf : DataBuf)
    (deep : Bool) : (rrdRdmManagerDownloadRequest cfg env issue rbuf deep).Total := by
  rw [rrdRdmManagerDownloadRequest]
  split
  · refine .bind (fun _ => rfl) fun _ => .bind (fun _ => rfl) fun set => ?_
    cases set with
    | false => exact .pure _
    | true => exact fun _ => rfl
  · exact .pure _

theorem rrdRdmManagerDownloadRequest_atMost :
    AtMost 1 Effect.isRbusSet (rrdRdmManagerDownloadRequest cfg env issue rbuf deep) := by
  rw [rrdRdmManagerDownloadRequest]
  split
  · refine .bind (n := 1) (k := 0) (fun _ => Nat.le_refl 1) fun _ => .of_emits (.bind (.call _) fun ok => ?_)
    split
    · exact .emit (by simp [Effect.isRbusSet])
    · exact .pure _
  · exact .mono (.of_emits (.pure _)) (Nat.zero_le 1)

theorem requestedPkg_of_not_deep (node : Str) : requestedPkg cfg node false = rdmPkgPrefix ++ node := by
  simp [requestedPkg]

/-! ## Messages -/

/-- What a message asks for: a report, or the package of its node, which a message
that names a profile never does. -/
def Effect.OfToken (P : IssueData → Prop) (rbuf : DataBuf) (issue : IssueNodeData) (e : Effect) : Prop :=
  e.IsReport P rbuf ∨
    (rbuf.appendMode ∨ rbuf.inDynamic = false) ∧ ∃ node, issue.node = some node ∧ e.IsDownload (rdmPkgPrefix ++ node) rbuf

theorem rrdRdmManagerDownloadRequest_ofToken (hflags : rbuf.appendMode ∨ rbuf.inDynamic = false) :
    Emits (rrdRdmManagerDownloadRequest cfg env issue rbuf false) (Effect.OfToken P rbuf issue) := by
  rcases hnode : issue.node with _ | node
  · simp only [rrdRdmManagerDownloadRequest, hnode]
    exact .pure _
  · refine (rrdRdmManagerDownloadRequest_emits hnode).mono fun e he => .inr ⟨hflags, node, hnode, ?_⟩
    rwa [requestedPkg_of_not_deep] at he

theorem profileData_emits {P : Effect → Prop} (json : CJson) : Emits (profileData cfg rbuf issue json) P := by
  rw [profileData]
  split
  · split
    · exact .stop
    · exact .pure _
  · exact .pure _

theorem profileData_returns (json : CJson) : Returns (profileData cfg rbuf issue json) fun data =>
    ∀ d ∈ data, ∃ profile, getIssueCommandInfo cfg issue profile rbuf.mdata = some d := by
  rw [profileData]
  split
  · split
    · exact .stop
    · rename_i data hdata
      exact .pure fun d hd => ⟨some json, Option.some.inj hd ▸ hdata⟩
  · exact .pure fun d hd => absurd hd (Option.not_mem_none d)

theorem processIssueTypeInDynamicProfile_emits :
    Emits (processIssueTypeInDynamicProfile cfg env rbuf issue)
      (Effect.IsReport (IssueData.RunBy cfg env false) rbuf) := by
  rw [processIssueTypeInDynamicProfile]
  split
  · exact .pure _
  · refine .bind (.call _) fun json => ?_
    split
    · exact .pure _
    · split
      · exact checkIssueNodeInfo_profile
      · exact .pure _

theorem processIssueTypeInInstalledPackage_emits (hflags : rbuf.inDynamic = false) :
    Emits (processIssueTypeInInstalledPackage cfg env rbuf issue)
      (Effect.OfToken (IssueData.RunBy cfg env false) rbuf issue) := by
  rw [processIssueTypeInInstalledPackage]
  split
  · exact .stop
  · refine .bind (.call _) fun json => ?_
    split
    · exact rrdRdmManagerDownloadRequest_ofToken (.inr hflags)
    · split
      · exact checkIssueNodeInfo_profile.mono fun _ => .inl
      · exact rrdRdmManagerDownloadRequest_ofToken (.inr hflags)

theorem processIssueTypeInStaticProfile_emits (hflags : rbuf.inDynamic = false) :
    Emits (processIssueTypeInStaticProfile cfg env rbuf issue)
      (Effect.OfToken (IssueData.RunBy cfg env false) rbuf issue) := by
  refine .bind (.call _) fun json => ?_
  split
  · exact processIssueTypeInInstalledPackage_emits hflags
  · split
    · exact checkIssueNodeInfo_profile.mono fun _ => .inl
    · exact processIssueTypeInInstalledPackage_emits hflags

theorem processIssueTypeInDynamicProfileappend_emits (happ : rbuf.appendMode) :
    Emits (processIssueTypeInDynamicProfileappend cfg env rbuf issue) (Effect.OfToken P rbuf issue) := by
  rw [processIssueTypeInDynamicProfileappend]
  split
  · exact .stop
  · refine .bind (.call _) fun json => ?_
    split
    · exact .bind (rrdRdmManagerDownloadRequest_ofToken (.inl happ)) fun _ => .pure _
    · exact profileData_emits _

theorem processIssueTypeInDynamicProfileappend_returns :
    Returns (processIssueTypeInDynamicProfileappend cfg env rbuf issue) fun data =>
      ∀ d ∈ data, ∃ profile, getIssueCommandInfo cfg issue profile rbuf.mdata = some d := by
  rw [processIssueTypeInDynamicProfileappend]
  split
  · exact .stop
  · refine .bind fun json => ?_
    split
    · exact .bind fun _ => .pure fun d hd => absurd hd (Option.not_mem_none d)
    · exact profileData_returns _

theorem processIssueTypeInStaticProfileappend_emits {P : Effect → Prop} :
    Emits (processIssueTypeInStaticProfileappend cfg env rbuf issue) P := by
  refine .bind (.call _) fun json => ?_
  split
  · exact .pure _
  · exact profileData_emits _

theorem processIssueTypeInStaticProfileappend_returns :
    Returns (processIssueTypeInStaticProfileappend cfg env rbuf issue) fun data =>
      ∀ d ∈ data, ∃ profile, getIssueCommandInfo cfg issue profile rbuf.mdata = some d := by
  refine .bind fun json => ?_
  split
  · exact .pure fun d hd => absurd hd (Option.not_mem_none d)
  · exact profileData_returns _

/-- The part of `processIssueType` after the dynamic profile is read in append mode. -/
def appendStatic (cfg : Config) (env : Env) (rbuf : DataBuf) (issue : IssueNodeData) :
    Option IssueData → Prog Nat Effect Unit
  | none => pure ()
  | some d => do
    match ← processIssueTypeInStaticProfileappend cfg env rbuf issue with
    | none => pure ()
    | some s => checkIssueNodeInfo cfg env issue none rbuf false (some (appendCommands s d))

theorem processIssueType_append (h : getIssueInfo rbuf.mdata = some issue) (happ : rbuf.appendMode = true) :
    processIssueType cfg env rbuf =
      processIssueTypeInDynamicProfileappend cfg env rbuf issue >>= appendStatic cfg env rbuf issue := by
  simp only [processIssueType, h, happ, if_true]
  rfl

theorem appendStatic_emits {dynamic : Option IssueData}
    (hP : ∀ d ∈ dynamic, ∀ s profile, getIssueCommandInfo cfg issue profile rbuf.mdata = some s →
      P (appendCommands s d)) :
    Emits (appendStatic cfg env rbuf issue dynamic) (Effect.IsReport P rbuf) := by
  cases dynamic with
  | none => exact .pure _
  | some d =>
    refine processIssueTypeInStaticProfileappend_emits.bind_of_returns
      processIssueTypeInStaticProfileappend_returns fun static hstatic => ?_
    cases static with
    | none => exact .pure _
    | some s =>
      obtain ⟨profile, hs⟩ := hstatic s rfl
      refine checkIssueNodeInfo_emits (fun _ h => absurd h IssueData.Accepted.not_none) fun data h => ?_
      rw [← Option.some.inj h]
      exact hP d rfl s profile hs

theorem processIssueType_emits (h : getIssueInfo rbuf.mdata = some issue) :
    Emits (processIssueType cfg env rbuf) (Effect.OfToken (IssueData.RunBy cfg env rbuf.appendMode) rbuf issue) := by
  cases happ : rbuf.appendMode with
  | true =>
    rw [processIssueType_append h happ]
    refine (processIssueTypeInDynamicProfileappend_emits happ).bind_of_returns
      processIssueTypeInDynamicProfileappend_returns fun dynamic hdynamic => ?_
    refine (appendStatic_emits fun d hd s profile hs => ?_).mono fun _ => .inl
    obtain ⟨profile', hd⟩ := hdynamic d hd
    exact .mk hs hd
  | false =>
    simp only [processIssueType, h, happ, Bool.false_eq_true, if_false]
    by_cases hdyn : rbuf.inDynamic
    · rw [if_pos hdyn]
      exact processIssueTypeInDynamicProfile_emits.mono fun _ => .inl
    · rw [if_neg hdyn]
      exact processIssueTypeInStaticProfile_emits (Bool.eq_false_iff.mpr hdyn)

/-- In append mode, a token whose package profile can be read is a report. -/
theorem processIssueType_report {node : Str} {k : Nat} (h : getIssueInfo rbuf.mdata = some issue)
    (hnode : issue.node = some node) (happ : rbuf.appendMode)
    (hread : (env.readAndParseJSON k (dynJsonPath cfg node)).isSome) :
    ∀ e ∈ ((processIssueType cfg env rbuf).run k).events, e.IsReport (fun _ => True) rbuf := by
  obtain ⟨json, hjson⟩ := Option.isSome_iff_exists.mp hread
  intro e he
  rw [processIssueType_append h happ] at he
  rcases mem_events_bind he with he | ⟨d, w', he⟩
  · simp only [processIssueTypeInDynamicProfileappend, hnode, call_bind_run, hjson] at he
    exact profileData_emits json _ e he
  · exact appendStatic_emits (fun _ _ _ _ _ => trivial) w' e he

theorem rrdCheckIssueInDynamicProfile_emits {P : Effect → Prop} (issue : IssueNodeData) :
    Emits (rrdCheckIssueInDynamicProfile cfg env rbuf issue) P := by
  rw [rrdCheckIssueInDynamicProfile]
  split
  · refine .bind (.call _) fun json => ?_
    split <;> exact .pure _
  · exact .pure _

theorem rrdProcessDeepSleepAwakeEvents_emits :
    Emits (rrdProcessDeepSleepAwakeEvents cfg env rbuf) fun e => e.IsReport (IssueData.RunBy cfg env false) rbuf ∨
      rbuf.dsEvent = .deepsleepRdmDownloadPkgInitiate ∧ ∃ pkg, e.IsDownload pkg rbuf := by
  rw [rrdProcessDeepSleepAwakeEvents]
  split
  · exact .stop
  · rename_i issue h
    obtain ⟨node, hnode, -⟩ := getIssueInfo_node h
    split
    · rename_i hev
      exact (rrdRdmManagerDownloadRequest_emits hnode).mono fun e he => .inr ⟨hev, _, he⟩
    · refine .bind (rrdCheckIssueInDynamicProfile_emits _) fun json => ?_
      split
      · exact .pure _
      · exact checkIssueNodeInfo_profile.mono fun _ => .inl
    · exact .pure _

/-! ## One bus call at most -/

theorem checkIssueNodeInfo_atMost :
    AtMost 0 Effect.isRbusSet (checkIssueNodeInfo cfg env issue jsoncfg rbuf deep none) :=
  .of_emits (checkIssueNodeInfo_profile.mono fun _ => Effect.IsReport.not_isRbusSet)

theorem processIssueTypeInInstalledPackage_atMost :
    AtMost 1 Effect.isRbusSet (processIssueTypeInInstalledPackage cfg env rbuf issue) := by
  rw [processIssueTypeInInstalledPackage]
  split
  · exact .mono (.of_emits .stop) (Nat.zero_le 1)
  · refine .call_bind fun json => ?_
    split
    · exact rrdRdmManagerDownloadRequest_atMost
    · split
      · exact checkIssueNodeInfo_atMost.mono (Nat.zero_le 1)
      · exact rrdRdmManagerDownloadRequest_atMost

theorem processIssueTypeInStaticProfile_atMost :
    AtMost 1 Effect.isRbusSet (processIssueTypeInStaticProfile cfg env rbuf issue) := by
  refine .call_bind fun json => ?_
  split
  · exact processIssueTypeInInstalledPackage_atMost
  · split
    · exact checkIssueNodeInfo_atMost.mono (Nat.zero_le 1)
    · exact processIssueTypeInInstalledPackage_atMost

theorem processIssueTypeInDynamicProfileappend_atMost :
    AtMost 1 Effect.isRbusSet (processIssueTypeInDynamicProfileappend cfg env rbuf issue) := by
  rw [processIssueTypeInDynamicProfileappend]
  split
  · exact .mono (.of_emits .stop) (Nat.zero_le 1)
  · refine .call_bind fun json => ?_
    split
    · exact .bind (k := 0) rrdRdmManagerDownloadRequest_atMost fun _ => .of_emits (.pure _)
    · exact .mono (.of_emits (profileData_emits _)) (Nat.zero_le 1)

theorem processIssueType_atMost : AtMost 1 Effect.isRbusSet (processIssueType cfg env rbuf) := by
  rw [processIssueType]
  split
  · exact .mono (.of_emits .stop) (Nat.zero_le 1)
  · split
    · exact .bind (k := 0) processIssueTypeInDynamicProfileappend_atMost fun d =>
        .of_emits ((appendStatic_emits fun _ _ _ _ _ => trivial).mono fun _ =>
          Effect.IsReport.not_isRbusSet (P := fun _ => True))
    · split
      · exact .mono (.of_emits (processIssueTypeInDynamicProfile_emits.mono fun _ => Effect.IsReport.not_isRbusSet))
          (Nat.zero_le 1)
      · exact processIssueTypeInStaticProfile_atMost

theorem rrdProcessDeepSleepAwakeEvents_atMost :
    AtMost 1 Effect.isRbusSet (rrdProcessDeepSleepAwakeEvents cfg env rbuf) := by
  by_cases hev : rbuf.dsEvent = .deepsleepRdmDownloadPkgInitiate
  · rw [rrdProcessDeepSleepAwakeEvents]
    split
    · exact .mono (.of_emits .stop) (Nat.zero_le 1)
    · simp only [hev]
      exact rrdRdmManagerDownloadRequest_atMost
  · refine .mono (.of_emits (rrdProcessDeepSleepAwakeEvents_emits.mono fun e he => ?_)) (Nat.zero_le 1)
    rcases he with he | ⟨h, -⟩
    · exact he.not_isRbusSet
    · exact absurd h hev

end RRD
