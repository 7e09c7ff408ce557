import RemoteDebugger.Proof.Dispatch.Effects
import RemoteDebugger.Spec.Report

/-!
# Where a message may write

The device formats a time as a date (`Env.Stamps`). A message whose issue is
clean then makes no other directories than those of reports:

* `checkIssueNodeInfo_confined`: a report is uploaded from such a directory;
* `checkIssueNodeInfo_withDirs`: what the device answers on any other directory
  does not matter;
* `rrdEventThreadFunc_confined`, `rrdEventThreadFunc_withDirs`: the same for a
  message on the queue.
-/

namespace RRD

open Framework Framework.Prog

/-- A time is formatted as a date that fits the array. -/
def Env.Stamps (env : Env) : Prop :=
  ∀ k, (∀ b ∈ env.localtime k, isStamp b) ∧ (env.localtime k).length ≤ 106

/-- The device with other answers on directories. -/
def Env.withDirs (env : Env) (mkdir chdir : Nat → Str → Bool) : Env := { env with mkdir := mkdir, chdir := chdir }

/-- The answers are those of the device on every directory of a report. -/
def Env.AgreesOnReports (env : Env) (mkdir chdir : Nat → Str → Bool) : Prop :=
  ∀ k (dir : ReportDir), mkdir k dir.path = env.mkdir k dir.path ∧ chdir k dir.path = env.chdir k dir.path

/-- The directory that is made is that of a report; an upload is from such a
directory, under a name without any byte that means something to a shell. -/
def Effect.Confined : Effect → Prop
  | .mkdir path => ∃ dir : ReportDir, path = dir.path
  | .uploadDebugoutput outdir issuename => (∃ dir : ReportDir, outdir = dir.path) ∧ ∀ b ∈ issuename, isPlain b
  | _ => True

/-- A buffer with a clean issue and a suffix over the same bytes. -/
structure DataBuf.Confined (rbuf : DataBuf) : Prop where
  mdata : Clean rbuf.mdata
  suffix : ∀ b ∈ rbuf.suffix, isPlain b

variable {cfg : Config} {env : Env} {issue : IssueNodeData} {rbuf : DataBuf} {mkdir chdir : Nat → Str → Bool}

theorem Effect.IsCommand.confined {P : IssueData → Prop} {e : Effect} (h : e.IsCommand P) : e.Confined := by
  cases e with
  | mkdir | uploadDebugoutput => exact h.elim
  | _ => trivial

theorem Effect.IsDownload.confined {pkg : Str} {e : Effect} (h : e.IsDownload pkg rbuf) : e.Confined := by
  cases e with
  | mkdir | uploadDebugoutput => exact h.elim
  | _ => trivial

theorem DataBuf.Confined.issuename (h : rbuf.Confined) : ∀ b ∈ rbuf.mdata ++ rbuf.suffix, isPlain b := by
  intro b hb
  rcases List.mem_append.mp hb with hb | hb
  · rcases h.mdata.chars b hb with hb | rfl
    · simp [isPlain, isStamp_of_isalnum hb]
    · decide
  · exact h.suffix b hb

/-! ## Reports -/

/-- The directory of the report on an issue, when the device tells the time. -/
theorem exists_reportDir (hs : env.Stamps) (h : Clean rbuf.mdata) (hissue : getIssueInfo rbuf.mdata = some issue) :
    ∃ node, issue.node = some node ∧
      ∀ k, ∃ dir : ReportDir, rrdOutputDir ++ node ++ str "-DebugReport-" ++ env.localtime k = dir.path := by
  obtain ⟨node, hnode, hne, halnum, hlen⟩ := h.node hissue
  exact ⟨node, hnode, fun k => ⟨⟨node, env.localtime k, hne, halnum, hlen, (hs k).1, (hs k).2⟩, rfl⟩⟩

theorem checkIssueNodeInfo_confined (hs : env.Stamps) (h : rbuf.Confined)
    (hissue : getIssueInfo rbuf.mdata = some issue) (jsoncfg : Option CJson) (deep : Bool) (data : Option IssueData) :
    Emits (checkIssueNodeInfo cfg env issue jsoncfg rbuf deep data) Effect.Confined := by
  obtain ⟨node, hnode, hdir⟩ := exists_reportDir hs h.mdata hissue
  simp only [checkIssueNodeInfo, hnode]
  refine .call_bind fun k => .bind (makeOutdir_emits (hdir k)) fun made => ?_
  split
  · refine .bind (.call _) fun changed => ?_
    split
    · have hcommands : Emits (runIssueCommands cfg env issue jsoncfg rbuf
          (deep || node = deepSleepStr || node = str "deepsleep") data) Effect.Confined :=
        (runIssueCommands_emits (fun _ _ => trivial) fun _ _ => trivial).mono fun _ =>
          Effect.IsCommand.confined (P := fun _ => True)
      refine .bind hcommands fun execstatus => ?_
      split
      · rw [uploadReport]
        split
        · exact .pure _
        · exact .emit ⟨hdir k, h.issuename⟩
      · exact .pure _
    · exact .pure _
  · exact .pure _

/-- A report asks about one directory, that of the report. -/
theorem checkIssueNodeInfo_withDirs (hs : env.Stamps) (hdirs : env.AgreesOnReports mkdir chdir) (h : Clean rbuf.mdata)
    (hissue : getIssueInfo rbuf.mdata = some issue) (jsoncfg : Option CJson) (deep : Bool) (data : Option IssueData) :
    checkIssueNodeInfo cfg (env.withDirs mkdir chdir) issue jsoncfg rbuf deep data =
      checkIssueNodeInfo cfg env issue jsoncfg rbuf deep data := by
  obtain ⟨node, hnode, hdir⟩ := exists_reportDir hs h hissue
  have hrun (k : Nat) : (checkIssueNodeInfo cfg (env.withDirs mkdir chdir) issue jsoncfg rbuf deep data).run k =
      (checkIssueNodeInfo cfg env issue jsoncfg rbuf deep data).run k := by
    obtain ⟨dir, hpath⟩ := hdir k
    have htime : (env.withDirs mkdir chdir).localtime k = env.localtime k := rfl
    have hmkdir : makeOutdir (env.withDirs mkdir chdir) dir.path = makeOutdir env dir.path :=
      congrArg (fun answer => emit (Effect.mkdir dir.path) >>= fun _ => call answer) (funext fun k => (hdirs k dir).1)
    have hchdir : (call ((env.withDirs mkdir chdir).chdir · dir.path) : Prog Nat Effect Bool) =
        call (env.chdir · dir.path) := congrArg call (funext fun k => (hdirs k dir).2)
    simp only [checkIssueNodeInfo, hnode, call_bind_run, htime, hpath, hmkdir, hchdir]
    rfl
  exact Prog.ext hrun

/-! ## Messages -/

/-- A token is a report on its issue, or a download for it. -/
theorem processIssueType_emits_of {Q : Effect → Prop} (hissue : getIssueInfo rbuf.mdata = some issue)
    (hreport : ∀ jsoncfg data, Emits (checkIssueNodeInfo cfg env issue jsoncfg rbuf false data) Q)
    (hdownload : Emits (rrdRdmManagerDownloadRequest cfg env issue rbuf false) Q) :
    Emits (processIssueType cfg env rbuf) Q := by
  have hinstalled : Emits (processIssueTypeInInstalledPackage cfg env rbuf issue) Q := by
    rw [processIssueTypeInInstalledPackage]
    split
    · exact .stop
    · refine .bind (.call _) fun json => ?_
      split
      · exact hdownload
      · split
        · exact hreport _ _
        · exact hdownload
  simp only [processIssueType, hissue]
  split
  · refine .bind ?_ fun dynamic => ?_
    · rw [processIssueTypeInDynamicProfileappend]
      split
      · exact .stop
      · refine .bind (.call _) fun json => ?_
        split
        · exact .bind hdownload fun _ => .pure _
        · exact profileData_emits _
    · split
      · exact .pure _
      · refine .bind processIssueTypeInStaticProfileappend_emits fun static => ?_
        split
        · exact .pure _
        · exact hreport _ _
  · split
    · rw [processIssueTypeInDynamicProfile]
      split
      · exact .pure _
      · refine .bind (.call _) fun json => ?_
        split
        · exact .pure _
        · split
          · exact hreport _ _
          · exact .pure _
    · refine .bind (.call _) fun json => ?_
      split
      · exact hinstalled
      · split
        · exact hreport _ _
        · exact hinstalled

theorem rrdRdmManagerDownloadRequest_confined {node : Str} {deep : Bool} (hnode : issue.node = some node) :
    Emits (rrdRdmManagerDownloadRequest cfg env issue rbuf deep) Effect.Confined :=
  (rrdRdmManagerDownloadRequest_emits hnode).mono fun _ => Effect.IsDownload.confined

theorem processIssueType_confined (hs : env.Stamps) (h : rbuf.Confined) :
    Emits (processIssueType cfg env rbuf) Effect.Confined := by
  cases hissue : getIssueInfo rbuf.mdata with
  | none =>
    simp only [processIssueType, hissue]
    exact .stop
  | some issue =>
    obtain ⟨node, hnode, -⟩ := getIssueInfo_node hissue
    exact processIssueType_emits_of hissue (fun _ _ => checkIssueNodeInfo_confined hs h hissue _ _ _)
      (rrdRdmManagerDownloadRequest_confined hnode)

theorem processIssueType_withDirs (hs : env.Stamps) (hdirs : env.AgreesOnReports mkdir chdir) (h : Clean rbuf.mdata) :
    processIssueType cfg (env.withDirs mkdir chdir) rbuf = processIssueType cfg env rbuf := by
  cases hissue : getIssueInfo rbuf.mdata with
  | none => simp only [processIssueType, hissue]
  | some issue =>
    have hcheck (jsoncfg : Option CJson) (data : Option IssueData) :
        checkIssueNodeInfo cfg (env.withDirs mkdir chdir) issue jsoncfg rbuf false data =
          checkIssueNodeInfo cfg env issue jsoncfg rbuf false data :=
      checkIssueNodeInfo_withDirs hs hdirs h hissue jsoncfg false data
    simp only [processIssueType, hissue, processIssueTypeInDynamicProfile, processIssueTypeInStaticProfile,
      processIssueTypeInInstalledPackage, hcheck]
    rfl

theorem rrdProcessDeepSleepAwakeEvents_confined (hs : env.Stamps) (h : rbuf.Confined) :
    Emits (rrdProcessDeepSleepAwakeEvents cfg env rbuf) Effect.Confined := by
  rw [rrdProcessDeepSleepAwakeEvents]
  split
  · exact .stop
  · rename_i issue hissue
    obtain ⟨node, hnode, -⟩ := getIssueInfo_node hissue
    split
    · exact rrdRdmManagerDownloadRequest_confined hnode
    · refine .bind (rrdCheckIssueInDynamicProfile_emits _) fun json => ?_
      split
      · exact .pure _
      · exact checkIssueNodeInfo_confined hs h hissue _ _ _
    · exact .pure _

theorem rrdProcessDeepSleepAwakeEvents_withDirs (hs : env.Stamps) (hdirs : env.AgreesOnReports mkdir chdir)
    (h : Clean rbuf.mdata) : rrdProcessDeepSleepAwakeEvents cfg (env.withDirs mkdir chdir) rbuf =
      rrdProcessDeepSleepAwakeEvents cfg env rbuf := by
  cases hissue : getIssueInfo rbuf.mdata with
  | none => simp only [rrdProcessDeepSleepAwakeEvents, hissue]
  | some issue =>
    have hcheck (jsoncfg : Option CJson) :
        checkIssueNodeInfo cfg (env.withDirs mkdir chdir) issue jsoncfg rbuf true none =
          checkIssueNodeInfo cfg env issue jsoncfg rbuf true none :=
      checkIssueNodeInfo_withDirs hs hdirs h hissue jsoncfg true none
    simp only [rrdProcessDeepSleepAwakeEvents, hissue, hcheck]
    rfl

/-! ## The queue -/

theorem splitIssueType_suffix (token : Str) : ∀ b ∈ (splitIssueType token).2, isPlain b := by
  intro b hb
  rw [splitIssueType] at hb
  split at hb
  · have hkept := (List.mem_filter.mp hb).2
    simp only [Bool.or_eq_true, decide_eq_true_eq] at hkept
    rcases hkept with (h | rfl) | rfl
    · simp [isPlain, isStamp_of_isalnum h]
    · decide
    · decide
  · cases hb

theorem acceptedTokens_suffix {mdata : Str} {t : Str × Str} (h : t ∈ acceptedTokens mdata) :
    ∀ b ∈ t.2, isPlain b := by
  obtain ⟨token, -, h⟩ := List.mem_filterMap.mp h
  simp only [Option.ite_none_left_eq_some, Option.some.injEq] at h
  rw [← h.2]
  exact splitIssueType_suffix token

theorem cmdBuff_confined {token : TokenAt} (h : token ∈ (acceptedTokens rbuf.mdata).zipIdx) :
    (cmdBuff rbuf token.1).Confined :=
  have hmem := List.fst_mem_of_mem_zipIdx h
  ⟨acceptedTokens_clean hmem, acceptedTokens_suffix hmem⟩

theorem rrdEventThreadFunc_confined (hs : env.Stamps) (hdeep : rbuf.mtype = .deepsleepEventMsg → rbuf.Confined) :
    Emits (rrdEventThreadFunc cfg env rbuf) fun x => x.2.Confined := by
  rw [rrdEventThreadFunc]
  split
  · refine .loop (fun _ token htoken => .tag ?_) ()
    exact processIssueType_confined hs (cmdBuff_confined htoken)
  · exact .tag (.emit trivial)
  · rename_i hmtype
    split
    · exact .tag (rrdProcessDeepSleepAwakeEvents_confined hs (hdeep hmtype))
    · exact .pure _
  · exact .pure _

theorem rrdEventThreadFunc_withDirs (hs : env.Stamps) (hdirs : env.AgreesOnReports mkdir chdir)
    (hdeep : rbuf.mtype = .deepsleepEventMsg → rbuf.Confined) :
    rrdEventThreadFunc cfg (env.withDirs mkdir chdir) rbuf = rrdEventThreadFunc cfg env rbuf := by
  rw [rrdEventThreadFunc, rrdEventThreadFunc]
  split
  · refine loop_congr (fun _ token htoken => ?_) ()
    rw [processIssueType_withDirs hs hdirs (cmdBuff_confined htoken).mdata]
  · rfl
  · rename_i hmtype
    rw [rrdProcessDeepSleepAwakeEvents_withDirs hs hdirs (hdeep hmtype).mdata]
  · rfl

end RRD
