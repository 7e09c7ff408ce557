import RemoteDebugger.Proof.Dispatch.Effects

/-!
# Which profile a token is resolved to

`Contains`: a profile parses and has the category of an issue, and its type if
the token names one.

* `processIssueType_static`, `processIssueType_installed`, `processIssueType_dynamic`:
  the run of a token that is resolved to a profile;
* `rrdRdmManagerDownloadRequest_events`: what a download emits;
* `checkIssueNodeInfo_withFile`: a report reads no file but the static profile;
* `processIssueType_route`: each token has one of these outcomes.
-/

namespace RRD

open Framework Framework.Prog

/-- The profile parses, and has the category and the type that the token names. -/
def Contains (issue : IssueNodeData) (profile : Option CJson) : Prop :=
  ∃ category, cJsonGetObjectItem profile issue.node = some category ∧
    (issue.subNode = none ∨ (cJsonGetObjectItem (some category) issue.subNode).isSome)

/-- The category of the issue is not printed as the bare word that stands for
deep sleep, which is no JSON text. -/
def PrintsJson (cfg : Config) (issue : IssueNodeData) (profile : Option CJson) : Prop :=
  ∀ category, cJsonGetObjectItem profile issue.node = some category → cfg.cJsonPrint category ≠ deepSleepStr

/-- The device with another answer to every read of one file. -/
def Env.withFile (env : Env) (path : Str) (answer : Nat → Option CJson) : Env :=
  { env with readAndParseJSON := fun k p => if p = path then answer k else env.readAndParseJSON k p }

variable {cfg : Config} {env : Env} {issue : IssueNodeData} {rbuf : DataBuf} {node path : Str}
  {answer : Nat → Option CJson} {k : Nat}

theorem contains_none : ¬ Contains issue none := by
  rintro ⟨category, h, -⟩
  exact absurd h (by simp [cJsonGetObjectItem])

theorem findIssueInParsedJSON_of_contains {profile : Option CJson} (hnode : issue.node = some node)
    (h : Contains issue profile) : findIssueInParsedJSON cfg issue profile := by
  obtain ⟨category, hcategory, hsub⟩ := h
  rw [hnode] at hcategory
  rw [findIssueInParsedJSON, hnode]
  dsimp only
  rw [hcategory]
  dsimp only
  split
  · rfl
  · split
    · rfl
    · rename_i hne
      exact hsub.resolve_left hne

theorem findIssueInParsedJSON_iff {profile : Option CJson} (hprint : PrintsJson cfg issue profile)
    (hnode : issue.node = some node) : findIssueInParsedJSON cfg issue profile ↔ Contains issue profile := by
  rw [PrintsJson, hnode] at hprint
  rw [findIssueInParsedJSON, Contains, hnode]
  dsimp only
  cases hc : cJsonGetObjectItem profile (some node) with
  | none => simp
  | some category =>
    simp only [hprint category hc, if_false, Option.some.injEq, exists_eq_left']
    by_cases hs : issue.subNode = none <;> simp [hs]

/-! ## Files that are not read -/

theorem withFile_read (h : path ≠ rrdJsonFile) :
    ((env.withFile path answer).readAndParseJSON · rrdJsonFile) = (env.readAndParseJSON · rrdJsonFile) := by
  funext k
  exact if_neg h.symm

theorem readSanityCheck_withFile (h : path ≠ rrdJsonFile) (jsoncfg : Option CJson) :
    readSanityCheck (env.withFile path answer) jsoncfg = readSanityCheck env jsoncfg := by
  rw [readSanityCheck, readSanityCheck, withFile_read h]

theorem invokeSanityandCommandExec_withFile (h : path ≠ rrdJsonFile) (issue : IssueNodeData) (jsoncfg : Option CJson)
    (buf : Str) (deep : Bool) : invokeSanityandCommandExec cfg (env.withFile path answer) issue jsoncfg buf deep =
      invokeSanityandCommandExec cfg env issue jsoncfg buf deep := by
  rw [invokeSanityandCommandExec, invokeSanityandCommandExec, readSanityCheck_withFile h]
  rfl

/-- A report reads the static profile at most. -/
theorem checkIssueNodeInfo_withFile (h : path ≠ rrdJsonFile) (jsoncfg : Option CJson) (deep : Bool)
    (data : Option IssueData) : checkIssueNodeInfo cfg (env.withFile path answer) issue jsoncfg rbuf deep data =
      checkIssueNodeInfo cfg env issue jsoncfg rbuf deep data := by
  have hrun (deep : Bool) : runIssueCommands cfg (env.withFile path answer) issue jsoncfg rbuf deep data =
      runIssueCommands cfg env issue jsoncfg rbuf deep data := by
    simp only [runIssueCommands, processAllDeepSleepAwkMetricsCommands, processAllDebugCommand,
      invokeSanityandCommandExec_withFile h]
    rfl
  simp only [checkIssueNodeInfo, hrun]
  rfl

theorem dynJsonPath_ne (cfg : Config) (node : Str) : dynJsonPath cfg node ≠ rrdJsonFile := by
  intro h
  have h2 := congrArg (List.take 2) h
  rw [dynJsonPath] at h2
  cases hi : cfg.iarm <;> rw [hi] at h2 <;> exact absurd h2 (by simp [rrdMediaApps, rrdTmpDir, rrdJsonFile, str, ch])

/-! ## Routes -/

section Routes

variable (hnode : issue.node = some node)

include hnode

theorem processIssueTypeInInstalledPackage_run
    (hprint : PrintsJson cfg issue (env.readAndParseJSON k (dynJsonPath cfg node))) :
    (Contains issue (env.readAndParseJSON k (dynJsonPath cfg node)) →
      (processIssueTypeInInstalledPackage cfg env rbuf issue).run k =
        (checkIssueNodeInfo cfg env issue (env.readAndParseJSON k (dynJsonPath cfg node)) rbuf false none).run (k + 1)) ∧
    (¬ Contains issue (env.readAndParseJSON k (dynJsonPath cfg node)) →
      (processIssueTypeInInstalledPackage cfg env rbuf issue).run k =
        (rrdRdmManagerDownloadRequest cfg env issue rbuf false).run (k + 1)) := by
  have hfind := findIssueInParsedJSON_iff hprint hnode
  simp only [processIssueTypeInInstalledPackage, hnode, call_bind_run]
  revert hfind
  cases env.readAndParseJSON k (dynJsonPath cfg node) with
  | none => exact fun _ => ⟨fun h => absurd h contains_none, fun _ => rfl⟩
  | some json =>
    refine fun hfind => ⟨fun h => ?_, fun h => ?_⟩
    · simp only [hfind.mpr h, if_true]
    · simp only [mt hfind.mp h]
      rfl

theorem processIssueTypeInStaticProfile_run (hprint : PrintsJson cfg issue (env.readAndParseJSON k rrdJsonFile)) :
    (Contains issue (env.readAndParseJSON k rrdJsonFile) →
      (processIssueTypeInStaticProfile cfg env rbuf issue).run k =
        (checkIssueNodeInfo cfg env issue (env.readAndParseJSON k rrdJsonFile) rbuf false none).run (k + 1)) ∧
    (¬ Contains issue (env.readAndParseJSON k rrdJsonFile) →
      (processIssueTypeInStaticProfile cfg env rbuf issue).run k =
        (processIssueTypeInInstalledPackage cfg env rbuf issue).run (k + 1)) := by
  have hfind := findIssueInParsedJSON_iff hprint hnode
  simp only [processIssueTypeInStaticProfile, call_bind_run]
  revert hfind
  cases env.readAndParseJSON k rrdJsonFile with
  | none => exact fun _ => ⟨fun h => absurd h contains_none, fun _ => rfl⟩
  | some json =>
    refine fun hfind => ⟨fun h => ?_, fun h => ?_⟩
    · simp only [hfind.mpr h, if_true]
    · simp only [mt hfind.mp h]
      rfl

theorem processIssueTypeInDynamicProfile_run (hpath : rbuf.jsonPath = some path)
    (hprint : PrintsJson cfg issue (env.readAndParseJSON k path)) :
    (Contains issue (env.readAndParseJSON k path) →
      (processIssueTypeInDynamicProfile cfg env rbuf issue).run k =
        (checkIssueNodeInfo cfg env issue (env.readAndParseJSON k path) rbuf false none).run (k + 1)) ∧
    (¬ Contains issue (env.readAndParseJSON k path) →
      ((processIssueTypeInDynamicProfile cfg env rbuf issue).run k).events = []) := by
  have hfind := findIssueInParsedJSON_iff hprint hnode
  simp only [processIssueTypeInDynamicProfile, hpath, call_bind_run]
  revert hfind
  cases env.readAndParseJSON k path with
  | none => exact fun _ => ⟨fun h => absurd h contains_none, fun _ => rfl⟩
  | some json =>
    refine fun hfind => ⟨fun h => ?_, fun h => ?_⟩
    · simp only [hfind.mpr h, if_true]
    · simp only [mt hfind.mp h]
      rfl

end Routes

/-! ## Downloads -/

/-- The value of the InstallPackage parameter for a node. -/
def installPackage (node : Str) : Str := rdmPkgPrefix ++ node ++ rdmPkgSuffix

/-- A download is one request for the whole name of the package, and an entry
where the bus takes it. A longer node gives neither. -/
theorem rrdRdmManagerDownloadRequest_events (hnode : issue.node = some node) :
    ((rrdRdmManagerDownloadRequest cfg env issue rbuf false).run k).events =
      if node.length ≤ rrdDynamicProfileMaxLength then
        .rbusSet (installPackage node) ::
          if env.rbusSet k (installPackage node) then [.appendItem (rdmPkgPrefix ++ node) (requestedIssue rbuf)] else []
      else [] := by
  rw [rrdRdmManagerDownloadRequest, Bool.and_false, hnode, rrdGetProfileStringLength, hnode]
  by_cases hlen : node.length ≤ rrdDynamicProfileMaxLength
  · have hcut : (rdmPkgPrefix ++ node ++ rdmPkgSuffix).take
        (rdmPkgPrefix.length + node.length + rdmPkgSuffix.length + 1 - 1) = installPackage node :=
      List.take_of_length_le (by simp only [List.length_append]; omega)
    simp only [Nat.not_lt.mpr hlen, if_false, if_true, Bool.false_eq_true, requestedPkg_of_not_deep, hcut, hlen]
    rw [bind_run_of_some (emit_run _ k), call_bind_run]
    cases env.rbusSet k (installPackage node) <;> rfl
  · simp only [Nat.lt_of_not_le hlen, if_true, hlen, if_false]
    rfl

/-! ## One outcome -/

/-- The outcome of the report on a profile, whose commands are those of the profile. -/
def ReportsOn (cfg : Config) (env : Env) (rbuf : DataBuf) (issue : IssueNodeData) (profile : Option CJson) (k : Nat)
    (o : Outcome Nat Effect Unit) : Prop :=
  o = (checkIssueNodeInfo cfg env issue profile rbuf false none).run k ∧
    ∀ e ∈ o.events, e.IsReport (IssueData.Accepted cfg env profile) rbuf

theorem reportsOn_run (profile : Option CJson) (k : Nat) :
    ReportsOn cfg env rbuf issue profile k ((checkIssueNodeInfo cfg env issue profile rbuf false none).run k) :=
  ⟨rfl, checkIssueNodeInfo_emits (fun _ h => h) (fun _ h => absurd h (Option.not_mem_none _)) k⟩

theorem processIssueType_plain (hissue : getIssueInfo rbuf.mdata = some issue) (happ : rbuf.appendMode = false) :
    processIssueType cfg env rbuf =
      if rbuf.inDynamic then processIssueTypeInDynamicProfile cfg env rbuf issue
      else processIssueTypeInStaticProfile cfg env rbuf issue := by
  simp only [processIssueType, hissue, happ, Bool.false_eq_true, if_false]

/-- A token in plain mode is resolved to the static profile if that has the
issue, and then the installed package has no influence; else to the installed
package, if that has it; else to one download request for a node of at most 34
bytes. One that was redelivered is resolved to the profile at its path, or dropped. -/
theorem processIssueType_route (hprint : ∀ k path, PrintsJson cfg issue (env.readAndParseJSON k path))
    (hissue : getIssueInfo rbuf.mdata = some issue) (hnode : issue.node = some node) (happ : rbuf.appendMode = false)
    (k : Nat) :
    (rbuf.inDynamic = false →
      (Contains issue (env.readAndParseJSON k rrdJsonFile) →
        ReportsOn cfg env rbuf issue (env.readAndParseJSON k rrdJsonFile) (k + 1)
            ((processIssueType cfg env rbuf).run k) ∧
          ∀ answer, (processIssueType cfg (env.withFile (dynJsonPath cfg node) answer) rbuf).run k =
            (processIssueType cfg env rbuf).run k) ∧
      (¬ Contains issue (env.readAndParseJSON k rrdJsonFile) →
        (Contains issue (env.readAndParseJSON (k + 1) (dynJsonPath cfg node)) →
          ReportsOn cfg env rbuf issue (env.readAndParseJSON (k + 1) (dynJsonPath cfg node)) (k + 2)
            ((processIssueType cfg env rbuf).run k)) ∧
        (¬ Contains issue (env.readAndParseJSON (k + 1) (dynJsonPath cfg node)) →
          ((processIssueType cfg env rbuf).run k).events =
            if node.length ≤ rrdDynamicProfileMaxLength then
              .rbusSet (installPackage node) ::
                if env.rbusSet (k + 2) (installPackage node) then [.appendItem (rdmPkgPrefix ++ node) rbuf.mdata] else []
            else []))) ∧
    (rbuf.inDynamic = true →
      (∀ path, rbuf.jsonPath = some path → Contains issue (env.readAndParseJSON k path) →
        ReportsOn cfg env rbuf issue (env.readAndParseJSON k path) (k + 1) ((processIssueType cfg env rbuf).run k)) ∧
      ((∀ path, rbuf.jsonPath = some path → ¬ Contains issue (env.readAndParseJSON k path)) →
        ((processIssueType cfg env rbuf).run k).events = [])) := by
  refine ⟨fun hdyn => ⟨fun hs => ⟨?_, fun answer => ?_⟩, fun hs => ⟨fun hi => ?_, fun hi => ?_⟩⟩,
    fun hdyn => ⟨fun path hpath hc => ?_, fun hc => ?_⟩⟩
  · rw [processIssueType_plain hissue happ, if_neg (by simp [hdyn]),
      (processIssueTypeInStaticProfile_run hnode (hprint k _)).1 hs]
    exact reportsOn_run _ _
  · have hread : (env.withFile (dynJsonPath cfg node) answer).readAndParseJSON k rrdJsonFile =
        env.readAndParseJSON k rrdJsonFile := congrFun (withFile_read (dynJsonPath_ne cfg node)) k
    rw [processIssueType_plain hissue happ, processIssueType_plain hissue happ, if_neg (by simp [hdyn]),
      if_neg (by simp [hdyn]), (processIssueTypeInStaticProfile_run hnode (hprint k _)).1 hs,
      (processIssueTypeInStaticProfile_run hnode (hread ▸ hprint k _)).1 (hread ▸ hs), hread,
      checkIssueNodeInfo_withFile (dynJsonPath_ne cfg node)]
  · rw [processIssueType_plain hissue happ, if_neg (by simp [hdyn]),
      (processIssueTypeInStaticProfile_run hnode (hprint k _)).2 hs,
      (processIssueTypeInInstalledPackage_run hnode (hprint (k + 1) _)).1 hi]
    exact reportsOn_run _ _
  · have hmdata : requestedIssue rbuf = rbuf.mdata := by simp [requestedIssue, happ]
    rw [processIssueType_plain hissue happ, if_neg (by simp [hdyn]),
      (processIssueTypeInStaticProfile_run hnode (hprint k _)).2 hs,
      (processIssueTypeInInstalledPackage_run hnode (hprint (k + 1) _)).2 hi,
      rrdRdmManagerDownloadRequest_events hnode, hmdata]
  · rw [processIssueType_plain hissue happ, if_pos hdyn,
      (processIssueTypeInDynamicProfile_run hnode hpath (hprint k path)).1 hc]
    exact reportsOn_run _ _
  · rw [processIssueType_plain hissue happ, if_pos hdyn]
    cases hpath : rbuf.jsonPath with
    | none => simp [processIssueTypeInDynamicProfile, hpath]
    | some path => exact (processIssueTypeInDynamicProfile_run hnode hpath (hprint k path)).2 (hc path hpath)

/-- A static profile with `Network.Ping`, and an installed package of every node, with `Network.Dump`. -/
def routeFiles : Str → Option CJson := fun jsonFile =>
  if jsonFile = rrdJsonFile then some (pingProfile (str "ping -c 4 localhost") pingSanity)
  else some (.object [(str "Network", .object [(str "Dump", .object [(str "Commands", .string (str "dmesg"))])])])

def routeRequest (mdata : String) : DataBuf := rrdDataBuffInit .eventMsg .deepsleepInvalidDefault (str mdata)

/-- A token that the static profile has, one that the package has, and one that neither has. -/
theorem processIssueType_route_sample :
    (ReportsOn (plainConfig true) (.ofFiles routeFiles) (routeRequest "Network.Ping")
        ⟨some (str "Network"), some (str "Ping")⟩ (routeFiles rrdJsonFile) 1
        ((processIssueType (plainConfig true) (.ofFiles routeFiles) (routeRequest "Network.Ping")).run 0) ∧
      ∀ answer, (processIssueType (plainConfig true)
          ((Env.ofFiles routeFiles).withFile (dynJsonPath (plainConfig true) (str "Network")) answer)
          (routeRequest "Network.Ping")).run 0 =
        (processIssueType (plainConfig true) (.ofFiles routeFiles) (routeRequest "Network.Ping")).run 0) ∧
    ReportsOn (plainConfig true) (.ofFiles routeFiles) (routeRequest "Network.Dump")
      ⟨some (str "Network"), some (str "Dump")⟩ (routeFiles (dynJsonPath (plainConfig true) (str "Network"))) 2
      ((processIssueType (plainConfig true) (.ofFiles routeFiles) (routeRequest "Network.Dump")).run 0) ∧
    ((processIssueType (plainConfig true) (.ofFiles routeFiles) (routeRequest "Network.Trace")).run 0).events =
      [.rbusSet (str "RDK-RRD-Network:1.0"), .appendItem (str "RDK-RRD-Network") (str "Network.Trace")] := by
  -- a category is printed as an object
  have hprint (type : Str) (k : Nat) (path : Str) : PrintsJson (plainConfig true) ⟨some (str "Network"), some type⟩
      ((Env.ofFiles routeFiles).readAndParseJSON k path) := by
    intro category hcategory
    obtain ⟨items, rfl⟩ : ∃ items, category = .object items := by
      by_cases hpath : path = rrdJsonFile
      · subst hpath
        exact ⟨_, (Option.some.inj hcategory).symm⟩
      · have hread : (Env.ofFiles routeFiles).readAndParseJSON k path = some _ := if_neg hpath
        rw [hread] at hcategory
        exact ⟨_, (Option.some.inj hcategory).symm⟩
    exact fun h => absurd (congrArg List.head? h) (by simp [plainConfig, printItem, deepSleepStr, str, ch])
  have hping := processIssueType_route (hprint (str "Ping")) (by decide) rfl
    (show (routeRequest "Network.Ping").appendMode = false from rfl) 0
  have hdump := processIssueType_route (hprint (str "Dump")) (by decide) rfl
    (show (routeRequest "Network.Dump").appendMode = false from rfl) 0
  have htrace := processIssueType_route (hprint (str "Trace")) (by decide) rfl
    (show (routeRequest "Network.Trace").appendMode = false from rfl) 0
  have hmissing {type : String} {profile : Option CJson}
      (h : (cJsonGetObjectItem (cJsonGetObjectItem profile (some (str "Network"))) (some (str type))).isSome = false) :
      ¬Contains ⟨some (str "Network"), some (str type)⟩ profile := by
    rintro ⟨category, hcategory, hsub⟩
    rw [hcategory] at h
    rcases hsub with hsub | hsub
    · cases hsub
    · rw [h] at hsub
      cases hsub
  refine ⟨(hping.1 rfl).1 ⟨_, rfl, .inr rfl⟩, ((hdump.1 rfl).2 (hmissing rfl)).1 ⟨_, rfl, .inr rfl⟩, ?_⟩
  exact ((htrace.1 rfl).2 (hmissing rfl)).2 (hmissing rfl)

end RRD
