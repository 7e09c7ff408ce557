import RemoteDebugger.Proof.Dispatch.Walkers
import RemoteDebugger.Spec.Event

/-!
# Tokens that end the thread

`processIssueType` does not return where it uses a NULL pointer. In plain mode
that is for a token without a node, and for a category with an item that has no
name (`EndsThread`).

* `attempts_isNone`, `checkIssueNodeInfo_isNone`: where a walker, and a report, stops;
* `processIssueType_isNone`: where a token does.
-/

namespace RRD

open Framework Framework.Prog

variable {cfg : Config} {env : Env} {issue : IssueNodeData} {jsoncfg : Option CJson} {rbuf : DataBuf} {node : Str} {k : Nat}

/-! ## What ends it -/

/-- The profile that a token for the node is reported on, if there is one, and the call after it is read. -/
def reportProfile (cfg : Config) (env : Env) (issue : IssueNodeData) (node : Str) (k : Nat) : Option (Nat × CJson) :=
  ((profileWith cfg (env.readAndParseJSON k) issue rrdJsonFile).map (k + 1, ·)).or
    ((profileWith cfg (env.readAndParseJSON (k + 1)) issue (dynJsonPath cfg node)).map (k + 2, ·))

/-- The directory of a report is made and entered, if its time is asked for in call `k`. -/
def entersOutdir (env : Env) (node : Str) (k : Nat) : Bool :=
  let outdir := rrdOutputDir ++ node ++ str "-DebugReport-" ++ env.localtime k
  env.mkdir (k + 1) outdir && env.chdir (k + 2) outdir

/-- The types that are attempted for a whole category. -/
def categoryAttempts (jsoncfg : Option CJson) (issue : IssueNodeData) (node mdata : Str) :
    List (Option (IssueNodeData × Str)) :=
  if node = deepSleepStr || node = str "deepsleep" then deepSleepAttempts jsoncfg issue
  else subNodeAttempts jsoncfg issue mdata

/-- The token has no node, or is for a category that is reported on, with an item without a name. -/
inductive EndsThread (cfg : Config) (env : Env) (item : DataBuf) (k : Nat) : Prop where
  | node (hissue : getIssueInfo item.mdata = none)
  | unnamed {node : Str} {json : CJson} {j : Nat} (hissue : getIssueInfo item.mdata = some ⟨some node, none⟩)
      (hprofile : reportProfile cfg env ⟨some node, none⟩ node k = some (j, json)) (hdir : entersOutdir env node j)
      (hitem : none ∈ categoryAttempts (some json) ⟨some node, none⟩ node item.mdata)

/-! ## Reports -/

/-- Attempts stop at a type without a name. -/
theorem attempts_isNone {deep b : Bool} {attempts : List (Option (IssueNodeData × Str))} :
    ((loop (fun _ a => attempt cfg env jsoncfg deep a) b attempts).run k).result = none ↔ none ∈ attempts := by
  by_cases h : none ∈ attempts
  · exact iff_of_true (loop_stops h (fun _ => rfl) b k) h
  · have hnamed : ∀ a ∈ attempts, a.isSome := fun a ha => Option.isSome_iff_ne_none.mpr fun e => h (e ▸ ha)
    rw [attempts_run _ _ _ _ hnamed]
    exact iff_of_false nofun h

theorem runIssueCommands_isNone {deep : Bool} (happ : rbuf.appendMode = false)
    (hdeep : deep = (node = deepSleepStr || node = str "deepsleep")) (data : Option IssueData) :
    ((runIssueCommands cfg env issue jsoncfg rbuf deep data).run k).result = none ↔
      issue.subNode = none ∧ none ∈ categoryAttempts jsoncfg issue node rbuf.mdata := by
  unfold runIssueCommands
  by_cases hsub : issue.subNode = none
  · rw [if_neg (not_not_intro hsub), categoryAttempts, ← hdeep, and_iff_right hsub]
    split
    · rw [processAllDeepSleepAwkMetricsCommands_eq, attempts_isNone]
    · rw [processAllDebugCommand_eq, attempts_isNone]
  · rw [if_pos hsub, happ, if_neg Bool.false_ne_true, invokeSanityandCommandExec_run]
    exact iff_of_false nofun fun h => hsub h.1

theorem uploadReport_total (outdir : Str) : (uploadReport outdir rbuf).Total := by
  rw [uploadReport]
  split
  · exact .pure _
  · exact fun _ => rfl

/-- A report stops only in its directory. -/
theorem checkIssueNodeInfo_isNone (hnode : issue.node = some node) (happ : rbuf.appendMode = false) :
    ((checkIssueNodeInfo cfg env issue jsoncfg rbuf false none).run k).result = none ↔
      entersOutdir env node k ∧ issue.subNode = none ∧ none ∈ categoryAttempts jsoncfg issue node rbuf.mdata := by
  simp only [checkIssueNodeInfo, hnode, call_bind_run, makeOutdir_bind_run, entersOutdir]
  cases env.mkdir (k + 1) (rrdOutputDir ++ node ++ str "-DebugReport-" ++ env.localtime k) with
  | false => exact iff_of_false (Option.some_ne_none _) fun h => Bool.false_ne_true h.1
  | true =>
    cases hchdir : env.chdir (k + 2) (rrdOutputDir ++ node ++ str "-DebugReport-" ++ env.localtime k) with
    | false =>
      simp only [if_true, call_bind_run, hchdir]
      exact iff_of_false (Option.some_ne_none _) fun h => Bool.false_ne_true h.1
    | true =>
      simp only [if_true, call_bind_run, hchdir]
      rw [Total.bind_isNone, runIssueCommands_isNone happ (by rw [Bool.false_or])]
      · simp
      · intro execstatus
        split
        · exact uploadReport_total _
        · exact .pure _

/-! ## Tokens -/

/-- A file has a profile with the issue, or none. -/
theorem profileWith_cases (cfg : Config) (files : Str → Option CJson) (issue : IssueNodeData) (path : Str) :
    (∃ json, files path = some json ∧ findIssueInParsedJSON cfg issue (some json) ∧
      profileWith cfg files issue path = some json) ∨
    profileWith cfg files issue path = none ∧
      ∀ json, files path = some json → ¬findIssueInParsedJSON cfg issue (some json) := by
  cases hprofile : profileWith cfg files issue path with
  | some json =>
    obtain ⟨hread, hfind⟩ := Option.filter_eq_some_iff.mp hprofile
    exact .inl ⟨json, hread, hfind, rfl⟩
  | none => exact .inr ⟨rfl, Option.filter_eq_none_iff.mp hprofile⟩

section Profiles

variable (hnode : issue.node = some node) (happ : rbuf.appendMode = false)

include hnode happ

/-- The report is on the profile that was read in the call before. -/
theorem exists_profile_iff {profile : Option CJson} {json : CJson} (hprofile : profile = some json) :
    ((checkIssueNodeInfo cfg env issue (some json) rbuf false none).run k).result = none ↔
      ∃ j json, profile.map (k, ·) = some (j, json) ∧ entersOutdir env node j ∧ issue.subNode = none ∧
        none ∈ categoryAttempts (some json) issue node rbuf.mdata := by
  rw [checkIssueNodeInfo_isNone hnode happ, hprofile]
  constructor
  · exact fun h => ⟨k, json, rfl, h⟩
  · rintro ⟨_, _, he, h⟩
    cases he
    exact h

theorem processIssueTypeInInstalledPackage_isNone :
    ((processIssueTypeInInstalledPackage cfg env rbuf issue).run k).result = none ↔
      ∃ j json, (profileWith cfg (env.readAndParseJSON k) issue (dynJsonPath cfg node)).map (k + 1, ·) = some (j, json) ∧
        entersOutdir env node j ∧ issue.subNode = none ∧ none ∈ categoryAttempts (some json) issue node rbuf.mdata := by
  simp only [processIssueTypeInInstalledPackage, hnode, call_bind_run]
  rcases profileWith_cases cfg (env.readAndParseJSON k) issue (dynJsonPath cfg node) with
    ⟨json, hread, hfind, hprofile⟩ | ⟨hprofile, hmissing⟩
  · simp only [hread, hfind, if_true]
    exact exists_profile_iff hnode happ hprofile
  · have hrequest := rrdRdmManagerDownloadRequest_total cfg env issue rbuf false
    refine iff_of_false ?_ ?_
    · cases hread : env.readAndParseJSON k (dynJsonPath cfg node) with
      | none => exact Option.isSome_iff_ne_none.mp (hrequest (k + 1))
      | some json =>
        simp only [hmissing json hread]
        exact Option.isSome_iff_ne_none.mp (hrequest (k + 1))
    · rintro ⟨j, json, h, -⟩
      simp [hprofile] at h

theorem processIssueTypeInStaticProfile_isNone :
    ((processIssueTypeInStaticProfile cfg env rbuf issue).run k).result = none ↔
      ∃ j json, reportProfile cfg env issue node k = some (j, json) ∧ entersOutdir env node j ∧ issue.subNode = none ∧
        none ∈ categoryAttempts (some json) issue node rbuf.mdata := by
  simp only [processIssueTypeInStaticProfile, call_bind_run, reportProfile]
  rcases profileWith_cases cfg (env.readAndParseJSON k) issue rrdJsonFile with
    ⟨json, hread, hfind, hprofile⟩ | ⟨hprofile, hmissing⟩
  · rw [Option.or_of_isSome (by rw [hprofile]; rfl)]
    simp only [hread, hfind, if_true]
    exact exists_profile_iff hnode happ hprofile
  · rw [hprofile, Option.map_none, Option.none_or, ← processIssueTypeInInstalledPackage_isNone hnode happ]
    cases hread : env.readAndParseJSON k rrdJsonFile with
    | none => rfl
    | some json =>
      simp only [hmissing json hread]
      rfl

end Profiles

/-- A token in plain mode stops only where it ends the thread. -/
theorem processIssueType_isNone (happ : rbuf.appendMode = false) (hdyn : rbuf.inDynamic = false) :
    ((processIssueType cfg env rbuf).run k).result = none ↔ EndsThread cfg env rbuf k := by
  cases hissue : getIssueInfo rbuf.mdata with
  | none =>
    simp only [processIssueType, hissue]
    exact iff_of_true rfl (.node hissue)
  | some issue =>
    obtain ⟨node, hnode, -⟩ := getIssueInfo_node hissue
    simp only [processIssueType, hissue, happ, hdyn, Bool.false_eq_true, if_false]
    rw [processIssueTypeInStaticProfile_isNone hnode happ]
    constructor
    · rintro ⟨j, json, hprofile, hdir, hsub, hitem⟩
      obtain ⟨_, _⟩ := issue
      cases hnode
      cases hsub
      exact .unnamed hissue hprofile hdir hitem
    · rintro (hnone | ⟨hsome, hprofile, hdir, hitem⟩)
      · rw [hissue] at hnone
        cases hnone
      · obtain rfl := Option.some.inj (hissue.symm.trans hsome)
        cases hnode
        exact ⟨_, _, hprofile, hdir, rfl, hitem⟩

end RRD
