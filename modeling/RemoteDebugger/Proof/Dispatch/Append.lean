import RemoteDebugger.Proof.Dispatch.Resolve
import RemoteDebugger.Proof.Sanity.Gate

/-!
# Append mode

A token in append mode reads the profile of its package first, then the static one
(`processIssueType_read`, `appendStatic_read`).

* `requests_append_iff`, `requests_plain_iff`: when the package of a token is
  requested in append mode, and in plain mode for an issue that the static profile
  does not have;
* `requestsAlike_iff`: the packages for which the two modes agree;
* `skipsRejected_iff`: when a token whose command is rejected stops the thread.
-/

namespace RRD

open Framework Framework.Prog

variable {cfg : Config} {env : Env} {files : Str → Option CJson} {rbuf : DataBuf} {issue : IssueNodeData} {node : Str}

/-! ## Runs -/

section Runs

variable {json : CJson} {k : Nat} (hissue : getIssueInfo rbuf.mdata = some issue) (hnode : issue.node = some node)
  (happ : rbuf.appendMode = true)

include hissue hnode happ

theorem processIssueType_unread (hread : env.readAndParseJSON k (dynJsonPath cfg node) = none) :
    (processIssueType cfg env rbuf).run k =
      (rrdRdmManagerDownloadRequest cfg env issue rbuf false >>= fun _ => pure ()).run (k + 1) := by
  rw [processIssueType_append hissue happ]
  simp only [processIssueTypeInDynamicProfileappend, hnode, bind_assoc, call_bind_run, hread, pure_bind]
  rfl

theorem processIssueType_read (hread : env.readAndParseJSON k (dynJsonPath cfg node) = some json) :
    (processIssueType cfg env rbuf).run k =
      (profileData cfg rbuf issue json >>= appendStatic cfg env rbuf issue).run (k + 1) := by
  rw [processIssueType_append hissue happ]
  simp only [processIssueTypeInDynamicProfileappend, hnode, bind_assoc, call_bind_run, hread]

end Runs

theorem appendStatic_read {json : CJson} {k : Nat} (hread : env.readAndParseJSON k rrdJsonFile = some json) (d : IssueData) :
    (appendStatic cfg env rbuf issue (some d)).run k =
      (profileData cfg rbuf issue json >>= fun static => static.elim (pure ()) fun s =>
        checkIssueNodeInfo cfg env issue none rbuf false (some (appendCommands s d))).run (k + 1) := by
  simp only [appendStatic, processIssueTypeInStaticProfileappend, bind_assoc, call_bind_run, hread]
  refine congrArg (Prog.run · (k + 1)) (bind_congr fun static => ?_)
  cases static <;> rfl

/-! ## Requests -/

/-- The package of a node is requested for a token. -/
def Requests (cfg : Config) (env : Env) (rbuf : DataBuf) (node : Str) (k : Nat) : Prop :=
  .rbusSet (installPackage node) ∈ ((processIssueType cfg env rbuf).run k).events

theorem rrdRdmManagerDownloadRequest_requests (hnode : issue.node = some node) (k : Nat) :
    .rbusSet (installPackage node) ∈ ((rrdRdmManagerDownloadRequest cfg env issue rbuf false).run k).events ↔
      node.length ≤ rrdDynamicProfileMaxLength := by
  rw [rrdRdmManagerDownloadRequest_events hnode]
  split
  · rename_i hlen
    exact iff_of_true (List.mem_cons_self ..) hlen
  · rename_i hlen
    exact iff_of_false (List.not_mem_nil) hlen

theorem checkIssueNodeInfo_requests (jsoncfg : Option CJson) (deep : Bool) (pkg : Str) (k : Nat) :
    .rbusSet pkg ∉ ((checkIssueNodeInfo cfg env issue jsoncfg rbuf deep none).run k).events :=
  fun hmem => (checkIssueNodeInfo_profile k _ hmem).elim

/-- In append mode the package is requested if its profile cannot be read. -/
theorem requests_append_iff (hfiles : env.Stable files) (hissue : getIssueInfo rbuf.mdata = some issue)
    (hnode : issue.node = some node) (happ : rbuf.appendMode = true) (k : Nat) : Requests cfg env rbuf node k ↔
      files (dynJsonPath cfg node) = none ∧ node.length ≤ rrdDynamicProfileMaxLength := by
  cases hread : files (dynJsonPath cfg node) with
  | some json =>
    refine iff_of_false (fun hmem => ?_) (fun h => nomatch h.1)
    have hsome : (env.readAndParseJSON k (dynJsonPath cfg node)).isSome := by rw [hfiles, hread, Option.isSome_some]
    exact (processIssueType_report hissue hnode happ hsome _ hmem).elim
  | none =>
    have hrun : ((processIssueType cfg env rbuf).run k).events =
        ((rrdRdmManagerDownloadRequest cfg env issue rbuf false).run (k + 1)).events := by
      rw [processIssueType_unread hissue hnode happ ((hfiles k _).trans hread)]
      exact events_bind_pure _ _ _
    rw [Requests, hrun, rrdRdmManagerDownloadRequest_requests hnode]
    exact (and_iff_right rfl).symm

/-- In plain mode it is requested also if the profile does not have the issue. -/
theorem requests_plain_iff (hfiles : env.Stable files) (hprint : ∀ path, PrintsJson cfg issue (files path))
    (hissue : getIssueInfo rbuf.mdata = some issue) (hnode : issue.node = some node) (happ : rbuf.appendMode = false)
    (hdyn : rbuf.inDynamic = false) (hstatic : ¬ Contains issue (files rrdJsonFile)) (k : Nat) :
    Requests cfg env rbuf node k ↔
      ¬ Contains issue (files (dynJsonPath cfg node)) ∧ node.length ≤ rrdDynamicProfileMaxLength := by
  have hprint (k : Nat) (path : Str) : PrintsJson cfg issue (env.readAndParseJSON k path) := hfiles k path ▸ hprint path
  rw [Requests, processIssueType_plain hissue happ, if_neg (by simp [hdyn]),
    (processIssueTypeInStaticProfile_run hnode (hprint k _)).2 (hfiles k _ ▸ hstatic)]
  by_cases hcontains : Contains issue (files (dynJsonPath cfg node))
  · rw [(processIssueTypeInInstalledPackage_run hnode (hprint (k + 1) _)).1 (hfiles (k + 1) _ ▸ hcontains)]
    exact iff_of_false (checkIssueNodeInfo_requests _ _ _ _) fun h => h.1 hcontains
  · rw [(processIssueTypeInInstalledPackage_run hnode (hprint (k + 1) _)).2 (hfiles (k + 1) _ ▸ hcontains),
      rrdRdmManagerDownloadRequest_requests hnode, and_iff_right hcontains]

/-- The two modes agree on when the package of an issue that the static profile
does not have is requested: when the package has no profile, or one without the issue. -/
def RequestsAlike (cfg : Config) (env : Env) (rbuf : DataBuf) (issue : IssueNodeData) (node : Str)
    (profile : Option CJson) (k : Nat) : Prop :=
  let append := { rbuf with appendMode := true }
  let plain := { rbuf with appendMode := false, inDynamic := false }
  (Requests cfg env append node k ↔ Requests cfg env plain node k) ∧
    (Requests cfg env plain node k ↔ profile = none ∨ ¬ Contains issue profile)

/-- They do for a profile that has the issue, and for one that cannot be read,
if the name of the node is short enough for a request. -/
theorem requestsAlike_iff (hfiles : env.Stable files) (hprint : ∀ path, PrintsJson cfg issue (files path))
    (hissue : getIssueInfo rbuf.mdata = some issue) (hnode : issue.node = some node)
    (hstatic : ¬ Contains issue (files rrdJsonFile)) (k : Nat) :
    RequestsAlike cfg env rbuf issue node (files (dynJsonPath cfg node)) k ↔
      Contains issue (files (dynJsonPath cfg node)) ∨
        files (dynJsonPath cfg node) = none ∧ node.length ≤ rrdDynamicProfileMaxLength := by
  let append := { rbuf with appendMode := true }
  let plain := { rbuf with appendMode := false, inDynamic := false }
  have happend : Requests cfg env append node k ↔
      files (dynJsonPath cfg node) = none ∧ node.length ≤ rrdDynamicProfileMaxLength :=
    requests_append_iff hfiles (show getIssueInfo append.mdata = some issue from hissue) hnode rfl k
  have hplain : Requests cfg env plain node k ↔
      ¬ Contains issue (files (dynJsonPath cfg node)) ∧ node.length ≤ rrdDynamicProfileMaxLength :=
    requests_plain_iff hfiles hprint (show getIssueInfo plain.mdata = some issue from hissue) hnode rfl rfl hstatic k
  show (Requests cfg env append node k ↔ Requests cfg env plain node k) ∧ (Requests cfg env plain node k ↔ _) ↔ _
  rw [happend, hplain]
  by_cases hcontains : Contains issue (files (dynJsonPath cfg node))
  · have hsome : files (dynJsonPath cfg node) ≠ none := fun h => contains_none (h ▸ hcontains)
    simp [hcontains, hsome]
  · cases hread : files (dynJsonPath cfg node) with
    | none => simp [contains_none]
    | some json =>
      rw [hread] at hcontains
      simp [hcontains]

/-- A request for `Network.Ping`. -/
def pingRequest : DataBuf := rrdDataBuffInit .eventMsg .deepsleepInvalidDefault (str "Network.Ping")

def pingIssue : IssueNodeData := ⟨some (str "Network"), some (str "Ping")⟩

theorem getIssueInfo_ping : getIssueInfo (str "Network.Ping") = some pingIssue := by decide

/-- A package without a profile is requested in both modes. -/
theorem requestsAlike_iff_sample : RequestsAlike (plainConfig true) (.ofFiles fun _ => none) pingRequest pingIssue
    (str "Network") none 0 :=
  have hprint (path : Str) : PrintsJson (plainConfig true) pingIssue ((fun _ => none) path) :=
    fun _ hc => absurd hc (by simp [cJsonGetObjectItem])
  (requestsAlike_iff (fun _ _ => rfl) hprint getIssueInfo_ping rfl contains_none 0).mpr (.inr ⟨rfl, by decide⟩)

/-- A device whose package has a profile without the issue. -/
def otherPackage (path : Str) : Option CJson := if path = rrdJsonFile then none else some (.object pingSanity)

/-- Append mode does not request a package whose profile lacks the issue. -/
theorem otherPackage_not_requestsAlike : ¬ RequestsAlike (plainConfig true) (.ofFiles otherPackage) pingRequest
    pingIssue (str "Network") (otherPackage (dynJsonPath (plainConfig true) (str "Network"))) 0 := by
  have hread : otherPackage (dynJsonPath (plainConfig true) (str "Network")) = some (.object pingSanity) :=
    if_neg (dynJsonPath_ne _ _)
  have hlacks : ¬ Contains pingIssue (some (.object pingSanity)) := by
    rintro ⟨category, hcategory, -⟩
    have hnone : cJsonGetObjectItem (some (.object pingSanity)) pingIssue.node = none := rfl
    rw [hnone] at hcategory
    cases hcategory
  have happend : ¬ Requests (plainConfig true) (.ofFiles otherPackage) { pingRequest with appendMode := true }
      (str "Network") 0 := fun h => by
    have hnone := ((requests_append_iff (fun _ _ => rfl) getIssueInfo_ping rfl rfl 0).mp h).1
    rw [hread] at hnone
    cases hnone
  rw [hread]
  exact fun ⟨hmodes, hplain⟩ => happend (hmodes.mpr (hplain.mpr (.inr hlacks)))

/-! ## Rejected commands -/

/-- A profile has the issue without a command that is accepted. -/
def Rejected (cfg : Config) (rbuf : DataBuf) (issue : IssueNodeData) (profile : Option CJson) : Prop :=
  findIssueInParsedJSON cfg issue profile ∧ getIssueCommandInfo cfg issue profile rbuf.mdata = none

/-- Where one of the two profiles rejects the command, nothing is executed and
the next token is processed. -/
def SkipsRejected (cfg : Config) (env : Env) (rbuf : DataBuf) (issue : IssueNodeData) (dynamic static : Option CJson)
    (k : Nat) : Prop :=
  Rejected cfg rbuf issue dynamic ∨ Rejected cfg rbuf issue static →
    (∀ cmdinfo, .executeCommands cmdinfo ∉ ((processIssueType cfg env rbuf).run k).events) ∧
      ((processIssueType cfg env rbuf).run k).result = some ()

theorem profileData_of_rejected {json : CJson} (h : Rejected cfg rbuf issue (some json)) :
    profileData cfg rbuf issue json = stop := by
  rw [profileData, if_pos h.1, h.2]

theorem profileData_of_lacking {json : CJson} (h : ¬ findIssueInParsedJSON cfg issue (some json)) :
    profileData cfg rbuf issue json = pure none := if_neg h

theorem profileData_of_some {json : CJson} {data : IssueData} (h : findIssueInParsedJSON cfg issue (some json))
    (hdata : getIssueCommandInfo cfg issue (some json) rbuf.mdata = some data) :
    profileData cfg rbuf issue json = pure (some data) := by
  rw [profileData, if_pos h, hdata]

theorem profileData_of_accepted {json : CJson} (h : findIssueInParsedJSON cfg issue (some json))
    (hrejected : ¬ Rejected cfg rbuf issue (some json)) : ∃ data, profileData cfg rbuf issue json = pure (some data) := by
  cases hdata : getIssueCommandInfo cfg issue (some json) rbuf.mdata with
  | none => exact absurd ⟨h, hdata⟩ hrejected
  | some data => exact ⟨data, profileData_of_some h hdata⟩

theorem findIssueInParsedJSON_none : findIssueInParsedJSON cfg issue none = false := by
  rw [findIssueInParsedJSON]
  cases hnode : issue.node with
  | none => rfl
  | some node => rfl

theorem exists_json {profile : Option CJson} (h : findIssueInParsedJSON cfg issue profile) :
    ∃ json, profile = some json := by
  cases profile with
  | none => exact absurd h (by simp [findIssueInParsedJSON_none])
  | some json => exact ⟨json, rfl⟩

section Append

variable (hfiles : env.Stable files) (hissue : getIssueInfo rbuf.mdata = some issue) (hnode : issue.node = some node)
  (happ : rbuf.appendMode = true)

include hfiles hissue hnode happ

/-- A package whose profile rejects the command stops the thread. -/
theorem processIssueType_dynamic_rejected (h : Rejected cfg rbuf issue (files (dynJsonPath cfg node))) (k : Nat) :
    ((processIssueType cfg env rbuf).run k).result = none := by
  obtain ⟨json, hread⟩ := exists_json h.1
  rw [processIssueType_read hissue hnode happ ((hfiles k _).trans hread), profileData_of_rejected (hread ▸ h)]
  rfl

/-- So does a static profile, where the package has a command. -/
theorem processIssueType_static_rejected (hdynamic : ¬ Rejected cfg rbuf issue (files (dynJsonPath cfg node)))
    (hfind : findIssueInParsedJSON cfg issue (files (dynJsonPath cfg node)))
    (h : Rejected cfg rbuf issue (files rrdJsonFile)) (k : Nat) :
    ((processIssueType cfg env rbuf).run k).result = none := by
  obtain ⟨dynamic, hread⟩ := exists_json hfind
  obtain ⟨static, hstatic⟩ := exists_json h.1
  rw [hread] at hdynamic hfind
  rw [hstatic] at h
  obtain ⟨data, hdata⟩ := profileData_of_accepted hfind hdynamic
  rw [processIssueType_read hissue hnode happ ((hfiles k _).trans hread), hdata, pure_bind,
    appendStatic_read ((hfiles (k + 1) _).trans hstatic), profileData_of_rejected h]
  rfl

/-- Without a command of the package, the static profile is not read. -/
theorem processIssueType_dynamic_lacking (h : ¬ findIssueInParsedJSON cfg issue (files (dynJsonPath cfg node))) (k : Nat) :
    (∀ cmdinfo, .executeCommands cmdinfo ∉ ((processIssueType cfg env rbuf).run k).events) ∧
      ((processIssueType cfg env rbuf).run k).result = some () := by
  cases hread : files (dynJsonPath cfg node) with
  | none =>
    obtain ⟨_, es, k', hdown⟩ := (rrdRdmManagerDownloadRequest_total cfg env issue rbuf false).exists_run (k + 1)
    have hemits : ∀ e ∈ es, Effect.IsDownload (requestedPkg cfg node false) rbuf e := fun e he =>
      rrdRdmManagerDownloadRequest_emits hnode (k + 1) e (by rw [hdown]; exact he)
    rw [processIssueType_unread hissue hnode happ ((hfiles k _).trans hread), bind_run_of_some hdown, pure_run,
      List.append_nil]
    exact ⟨fun cmdinfo hmem => hemits _ hmem, rfl⟩
  | some json =>
    rw [processIssueType_read hissue hnode happ ((hfiles k _).trans hread), profileData_of_lacking (hread ▸ h), pure_bind]
    exact ⟨fun _ => List.not_mem_nil, rfl⟩

/-- The rejection by one of the profiles is skipped only where it is the static
one, and the package has no profile with the issue. -/
theorem skipsRejected_iff (k : Nat) :
    SkipsRejected cfg env rbuf issue (files (dynJsonPath cfg node)) (files rrdJsonFile) k ↔
      ¬ Rejected cfg rbuf issue (files (dynJsonPath cfg node)) ∧
        (Rejected cfg rbuf issue (files rrdJsonFile) → ¬ findIssueInParsedJSON cfg issue (files (dynJsonPath cfg node))) := by
  constructor
  · intro h
    have hdynamic : ¬ Rejected cfg rbuf issue (files (dynJsonPath cfg node)) := fun hrejected => by
      have hstops := processIssueType_dynamic_rejected hfiles hissue hnode happ hrejected k
      rw [(h (.inl hrejected)).2] at hstops
      cases hstops
    refine ⟨hdynamic, fun hrejected hfind => ?_⟩
    have hstops := processIssueType_static_rejected hfiles hissue hnode happ hdynamic hfind hrejected k
    rw [(h (.inr hrejected)).2] at hstops
    cases hstops
  · rintro ⟨hdynamic, hstatic⟩ (hrejected | hrejected)
    · exact absurd hrejected hdynamic
    · exact processIssueType_dynamic_lacking hfiles hissue hnode happ (hstatic hrejected) k

end Append

/-- A profile with a harmful command. -/
def harmfulProfile : CJson := pingProfile (str "rm -rf /tmp/x") pingSanity

/-- It is the static one, and the package has none. -/
def harmfulStatic (path : Str) : Option CJson := if path = rrdJsonFile then some harmfulProfile else none

theorem rejected_harmful (rbuf : DataBuf) : Rejected (plainConfig true) rbuf pingIssue (some harmfulProfile) :=
  ⟨by decide +kernel, rfl⟩

/-- Its rejection is skipped. -/
theorem skipsRejected_iff_sample : Rejected (plainConfig true) { pingRequest with appendMode := true } pingIssue
      (harmfulStatic rrdJsonFile) ∧
    SkipsRejected (plainConfig true) (.ofFiles harmfulStatic) { pingRequest with appendMode := true } pingIssue
      (harmfulStatic (dynJsonPath (plainConfig true) (str "Network"))) (harmfulStatic rrdJsonFile) 0 := by
  have hread : harmfulStatic (dynJsonPath (plainConfig true) (str "Network")) = none := if_neg (dynJsonPath_ne _ _)
  refine ⟨rejected_harmful _, (skipsRejected_iff (fun _ _ => rfl) getIssueInfo_ping rfl rfl 0).mpr ⟨?_, fun _ => ?_⟩⟩
  · rw [hread]
    exact fun h => absurd h.1 (by simp [findIssueInParsedJSON_none])
  · rw [hread, findIssueInParsedJSON_none]
    exact Bool.false_ne_true

/-- The rejection of a package stops the thread. -/
theorem harmful_package_stops : ¬ SkipsRejected (plainConfig true)
    (.ofFiles fun _ => some harmfulProfile) { pingRequest with appendMode := true } pingIssue
    (some harmfulProfile) (some harmfulProfile) 0 := by
  intro h
  have hreturns := (h (.inl (rejected_harmful _))).2
  rw [processIssueType_dynamic_rejected (fun _ _ => rfl) getIssueInfo_ping rfl rfl (rejected_harmful _)] at hreturns
  cases hreturns

end RRD
