import RemoteDebugger.Proof.Dispatch.Labels
import RemoteDebugger.Proof.Dispatch.Resolve
import RemoteDebugger.Proof.Dispatch.Turn

/-!
# Issue types in another case

Lookups ignore case, and two spellings of an issue type are found alike. Their
walker is chosen by comparisons that do not.

* `getIssueInfo_lower`: the names of a spelling in lower case are its own;
* `plannedCommands_congr`: two spellings have the same commands under one walker;
* `runsAlike_iff`: the spellings that run the same commands.
-/

namespace RRD

open Framework Framework.Prog

variable {cfg : Config} {files : Str → Option CJson} {jsoncfg : Option CJson} {issue issue' : IssueNodeData}
  {rbuf rbuf' : DataBuf} {name name' : Option Str} {s s' : Str}

/-! ## Names -/

def lower (s : Str) : Str := s.map tolower

theorem cJsonGetObjectItem_congr (h : name.map lower = name'.map lower) (item : Option CJson) :
    cJsonGetObjectItem item name = cJsonGetObjectItem item name' := by
  cases name with
  | none =>
    cases name' with
    | none => rfl
    | some name' => cases h
  | some name =>
    cases name' with
    | none => cases h
    | some name' =>
      have hlower : name.map tolower = name'.map tolower := Option.some.inj h
      cases item with
      | none => rfl
      | some item => rw [cJsonGetObjectItem, cJsonGetObjectItem, hlower]

/-- Both names in lower case. -/
def IssueNodeData.lower (issue : IssueNodeData) : IssueNodeData :=
  ⟨issue.node.map RRD.lower, issue.subNode.map RRD.lower⟩

theorem lower_node (h : issue.lower = issue'.lower) : issue.node.map lower = issue'.node.map lower :=
  congrArg IssueNodeData.node h

theorem lower_subNode (h : issue.lower = issue'.lower) : issue.subNode.map lower = issue'.subNode.map lower :=
  congrArg IssueNodeData.subNode h

theorem issueTypeItem_congr (h : issue.lower = issue'.lower) (root : Option CJson) :
    issueTypeItem root issue = issueTypeItem root issue' := by
  rw [issueTypeItem, issueTypeItem, cJsonGetObjectItem_congr (lower_node h), cJsonGetObjectItem_congr (lower_subNode h)]

theorem tolower_eq_dot (b : Byte) : tolower b = ch '.' ↔ b = ch '.' := by
  revert b
  refine forall_byte ?_
  decide +kernel

/-- A change of bytes that keeps the delimiters keeps the tokens. -/
theorem strtokFrom_map {f : Byte → Byte} {delim : Byte} (hf : ∀ b, f b = delim ↔ b = delim) (tok s : Str) :
    strtokFrom delim (tok.map f) (s.map f) = (strtokFrom delim tok s).map (List.map f) := by
  induction s generalizing tok with
  | nil =>
    by_cases htok : tok = []
    · rw [htok]
      rfl
    · rw [List.map_nil, strtokFrom, strtokFrom, if_neg htok, if_neg (mt List.map_eq_nil_iff.mp htok)]
      rfl
  | cons b s ih =>
    rw [List.map_cons, strtokFrom, strtokFrom]
    by_cases hb : b = delim
    · rw [if_pos ((hf b).mpr hb), if_pos hb]
      by_cases htok : tok = []
      · rw [htok]
        exact ih []
      · rw [if_neg htok, if_neg (mt List.map_eq_nil_iff.mp htok)]
        exact congrArg _ (ih [])
    · rw [if_neg (mt (hf b).mp hb), if_neg hb, ← ih, List.map_append]
      rfl

theorem strtok_lower (s : Str) : strtok (ch '.') (lower s) = (strtok (ch '.') s).map lower :=
  strtokFrom_map tolower_eq_dot [] s

theorem count_lower (s : Str) : (lower s).count (ch '.') = s.count (ch '.') := by
  rw [lower, List.count_eq_countP, List.count_eq_countP, List.countP_map]
  refine List.countP_congr fun b _ => ?_
  simpa using tolower_eq_dot b

theorem getIssueInfo_lower (s : Str) : getIssueInfo (lower s) = (getIssueInfo s).map IssueNodeData.lower := by
  rw [getIssueInfo, getIssueInfo, strtok_lower, count_lower]
  rcases strtok (ch '.') s with _ | ⟨node, _ | ⟨subNode, rest⟩⟩
  · rfl
  · by_cases hcount : s.count (ch '.') ≠ 0
    · simp [hcount]
    · simp [hcount, IssueNodeData.lower]
  · by_cases hcount : s.count (ch '.') ≠ 0
    · simp [hcount, IssueNodeData.lower]
    · simp [hcount, IssueNodeData.lower]

/-! ## Commands -/

/-- What of a command is executed: its text, and for how long. -/
def IssueData.ran (d : IssueData) : Str × Int := (d.command, d.timeout)

theorem plannedCommand_congr (h : issue.lower = issue'.lower) (buf buf' : Str) (deep : Bool) :
    (plannedCommand cfg files issue jsoncfg buf deep).map IssueData.ran =
      (plannedCommand cfg files issue' jsoncfg buf' deep).map IssueData.ran := by
  rw [plannedCommand, plannedCommand, issueTypeItem_congr h]
  rcases readCommand cfg (issueTypeItem (commandRoot jsoncfg deep) issue') with ⟨_ | raw, timeout⟩
  · rfl
  · dsimp only
    cases isCommandsValid cfg raw (checkCommands ((sanityCheck jsoncfg).or (sanityCheck (files rrdJsonFile)))) <;> rfl

theorem plannedOfNode_congr (h : issue.lower = issue'.lower) (hbuf : lower s = lower s') :
    (plannedOfNode cfg files jsoncfg issue s).map IssueData.ran =
      (plannedOfNode cfg files jsoncfg issue' s').map IssueData.ran := by
  rw [plannedOfNode, plannedOfNode, cJsonGetObjectItem_congr (lower_node h), Plan.map_sequence, Plan.map_sequence,
    List.map_map, List.map_map]
  refine congrArg _ (List.map_congr_left fun item _ => ?_)
  obtain ⟨⟨_ | string, _⟩, i⟩ := item
  · rfl
  · refine plannedCommand_congr ?_ _ _ false
    by_cases hi : i = 0
    · simp [IssueNodeData.lower, hi, lower_node h]
    · simp [IssueNodeData.lower, hi, hbuf]

/-- The commands of a spelling are those of any other that the same walker takes. -/
theorem plannedCommands_congr (h : issue.lower = issue'.lower) (hbuf : lower rbuf.mdata = lower rbuf'.mdata)
    (happ : rbuf.appendMode = false) (happ' : rbuf'.appendMode = false) (deep : Bool) (data : Option IssueData) :
    (plannedCommands cfg files issue jsoncfg rbuf deep data).map IssueData.ran =
      (plannedCommands cfg files issue' jsoncfg rbuf' deep data).map IssueData.ran := by
  have hsub : issue.subNode = none ↔ issue'.subNode = none := by
    rw [← Option.map_eq_none_iff, lower_subNode h, Option.map_eq_none_iff]
  simp only [plannedCommands, happ, happ', Bool.false_eq_true, if_false]
  by_cases hnone : issue'.subNode = none
  · rw [if_neg (not_not.mpr (hsub.mpr hnone)), if_neg (not_not.mpr hnone)]
    cases deep with
    | true =>
      rw [if_pos rfl, if_pos rfl, plannedOfDeepSleep, plannedOfDeepSleep, cJsonGetObjectItem_congr (lower_node h)]
    | false => exact plannedOfNode_congr h hbuf
  · rw [if_pos (mt hsub.mp hnone), if_pos hnone]
    exact plannedCommand_congr h _ _ false

/-! ## Turns -/

/-- The spellings that `checkIssueNodeInfo` compares a node with. -/
def IsDeepSleep (s : Str) : Prop := s = deepSleepStr ∨ s = str "deepsleep"

instance (s : Str) : Decidable (IsDeepSleep s) := inferInstanceAs (Decidable (_ ∨ _))

namespace Event

variable (ev : Event)

/-- The static profile contains an issue type, and its directory is not there yet. -/
def Reports (site : Site) (s : Str) : Prop :=
  ∃ issue node, getIssueInfo s = some issue ∧ issue.node = some node ∧
    Contains issue (ev.files rrdJsonFile) ∧ ev.dir node site.now ∉ site.dirs

/-- What the turn of a token executes at a site, from call `k` on. -/
def ran (site : Site) (env : Env) (k : Nat) (token : Str × Str) : List (Str × Int) :=
  (((processIssueType ev.cfg (site.device ev env) (cmdBuff ev.rbuf token)).run k).events.filterMap
    Effect.command?).map IssueData.ran

/-- The commands that the static profile has for an issue, under one of the walkers. -/
def staticCommands (issue : IssueNodeData) (token : Str × Str) (deep : Bool) : List (Str × Int) :=
  ((plannedCommands ev.cfg ev.files issue (ev.files rrdJsonFile) (cmdBuff ev.rbuf token) deep none).map
    IssueData.ran).emitted

end Event

/-- Where a static profile contains both issue types, their turns execute the same
commands, with the same timeouts. -/
def RunsAlike (s s' : Str) : Prop :=
  ∀ ev : Event, ev.rbuf.appendMode = false → ev.rbuf.inDynamic = false →
    ∀ site site', ev.Reports site s → ev.Reports site' s' → ∀ env env' k k' suffix suffix',
      (ev.ran site env k (s, suffix)).Perm (ev.ran site' env' k' (s', suffix'))

/-- A node that is compared is the whole issue type, or the comparison does not matter. -/
theorem plannedCommands_isDeepSleep {node : Str} (hissue : getIssueInfo s = some issue) (hnode : issue.node = some node)
    (data : Option IssueData) : plannedCommands cfg files issue jsoncfg rbuf (IsDeepSleep node) data =
      plannedCommands cfg files issue jsoncfg rbuf (IsDeepSleep s) data := by
  by_cases hsub : issue.subNode = none
  · rw [Option.some.inj (hnode.symm.trans (getIssueInfo_whole hissue hsub))]
  · simp only [plannedCommands, hsub, ne_eq, not_false_eq_true, if_true]

/-- A token in plain mode comes to a report on the static profile, if that contains its issue. -/
theorem resolve_static {json : CJson} {node : Str} (hjson : files rrdJsonFile = some json)
    (hissue : getIssueInfo rbuf.mdata = some issue) (hnode : issue.node = some node) (hcontains : Contains issue (some json))
    (happ : rbuf.appendMode = false) (hstatic : rbuf.inDynamic = false) : resolve cfg files rbuf =
      .report node (plannedCommands cfg files issue (some json) rbuf (IsDeepSleep rbuf.mdata) none) := by
  have hfind : findIssueInParsedJSON cfg issue (some json) := findIssueInParsedJSON_of_contains hnode hcontains
  have hprofile : resolveProfile cfg files rbuf issue = some json := by
    simp only [resolveProfile, hstatic, Bool.false_eq_true, if_false, profileWith, hjson, Option.filter_some, hfind,
      if_true, Option.some_or]
  have hdeep : decide (IsDeepSleep node) = (node = deepSleepStr || node = str "deepsleep") := Bool.decide_or _ _
  rw [← plannedCommands_isDeepSleep hissue hnode]
  simp only [resolve, hissue, happ, Bool.false_eq_true, if_false, hprofile, Option.elim_some, resolveReport, hnode, hdeep]

/-- The turn of an issue type in the static profile executes its commands there. -/
theorem Event.Reports.ran_eq {ev : Event} {site : Site} (h : ev.Reports site s) (happ : ev.rbuf.appendMode = false)
    (hstatic : ev.rbuf.inDynamic = false) (env : Env) (k : Nat) (suffix : Str) : ∃ issue, getIssueInfo s = some issue ∧
      ev.ran site env k (s, suffix) = ev.staticCommands issue (s, suffix) (IsDeepSleep s) := by
  obtain ⟨issue, node, hissue, hnode, hcontains, hdir⟩ := h
  obtain ⟨json, hjson⟩ : ∃ json, ev.files rrdJsonFile = some json := by
    cases hfile : ev.files rrdJsonFile with
    | none => exact absurd (hfile ▸ hcontains) contains_none
    | some json => exact ⟨json, rfl⟩
  have hresolve : resolve ev.cfg ev.files (cmdBuff ev.rbuf (s, suffix)) = .report node (plannedCommands ev.cfg ev.files
      issue (some json) (cmdBuff ev.rbuf (s, suffix)) (IsDeepSleep s) none) :=
    resolve_static hjson hissue hnode (hjson ▸ hcontains) happ hstatic
  refine ⟨issue, hissue, ?_⟩
  rw [Event.ran, Event.staticCommands, (processIssueType_follows k).1, hresolve, Site.plan_of_notMem hdir, hjson]
  rfl

theorem IsDeepSleep.lower (h : IsDeepSleep s) : lower s = str "deepsleep" := by
  rcases h with rfl | rfl <;> decide

theorem lower_eq_of_getIssueInfo (hcase : lower s = lower s') (hissue : getIssueInfo s = some issue)
    (hissue' : getIssueInfo s' = some issue') : issue.lower = issue'.lower := by
  refine Option.some.inj ?_
  rw [← Option.map_some, ← hissue, ← getIssueInfo_lower, hcase, getIssueInfo_lower, hissue', Option.map_some]

theorem Event.staticCommands_congr {ev : Event} (happ : ev.rbuf.appendMode = false) (hcase : lower s = lower s')
    (hissue : getIssueInfo s = some issue) (hissue' : getIssueInfo s' = some issue') (suffix suffix' : Str) (deep : Bool) :
    ev.staticCommands issue (s, suffix) deep = ev.staticCommands issue' (s', suffix') deep := by
  have hbuf : lower (cmdBuff ev.rbuf (s, suffix)).mdata = lower (cmdBuff ev.rbuf (s', suffix')).mdata := hcase
  have hmode (token : Str × Str) : (cmdBuff ev.rbuf token).appendMode = false := happ
  rw [staticCommands, staticCommands, plannedCommands_congr (lower_eq_of_getIssueInfo hcase hissue hissue') hbuf
    (hmode _) (hmode _)]

theorem RunsAlike.of_iff (hcase : lower s = lower s') (hdeep : IsDeepSleep s ↔ IsDeepSleep s') : RunsAlike s s' := by
  intro ev happ hstatic site site' h h' env env' k k' suffix suffix'
  obtain ⟨issue, hissue, hran⟩ := h.ran_eq happ hstatic env k suffix
  obtain ⟨issue', hissue', hran'⟩ := h'.ran_eq happ hstatic env' k' suffix'
  rw [hran, hran', decide_eq_decide.mpr hdeep, Event.staticCommands_congr happ hcase hissue hissue' suffix suffix']

/-! ## Deep sleep -/

/-- A device with one deep sleep type in its static profile. -/
def deepSleepEvent : Event where
  cfg := plainConfig true
  files _ := some (deepSleepProfile (str "Audio") (str "AudioStatus"))
  strftime now := List.replicate now (ch '0')
  strftime_injective s t h := by simpa using congrArg List.length h
  rbuf := rrdDataBuffInit .eventMsg .deepsleepInvalidDefault []

/-- A spelling of deep sleep is a category without a sub-node. -/
theorem getIssueInfo_deepSleep (h : lower s = str "deepsleep") : getIssueInfo s = some ⟨some s, none⟩ := by
  have hlower : (getIssueInfo s).map IssueNodeData.lower = some ⟨some (str "deepsleep"), none⟩ := by
    rw [← getIssueInfo_lower, h]
    decide
  obtain ⟨issue, hissue, hnames⟩ := Option.map_eq_some_iff.mp hlower
  have hsub : issue.subNode = none := Option.map_eq_none_iff.mp (congrArg IssueNodeData.subNode hnames)
  have hnode := getIssueInfo_whole hissue hsub
  rw [hissue]
  obtain ⟨node, subNode⟩ := issue
  cases hsub
  cases hnode
  rfl

theorem deepSleepEvent_reports (h : lower s = str "deepsleep") : deepSleepEvent.Reports ⟨0, []⟩ s := by
  have hname : (some s).map lower = (some (str "deepsleep")).map lower := by
    rw [Option.map_some, h]
    decide
  exact ⟨⟨some s, none⟩, s, getIssueInfo_deepSleep h, rfl, ⟨_, (cJsonGetObjectItem_congr hname _).trans rfl, .inl rfl⟩,
    List.not_mem_nil⟩

/-- The category walker finds no commands at the depth of the categories. -/
theorem deepSleepEvent_ran (h : lower s = str "deepsleep") : deepSleepEvent.ran ⟨0, []⟩ (.ofFiles fun _ => none) 0 (s, []) =
    if IsDeepSleep s then [(str "\"hal_dump\"", 10)] else [] := by
  obtain ⟨issue, hissue, hran⟩ := (deepSleepEvent_reports h).ran_eq rfl rfl (.ofFiles fun _ => none) 0 []
  have hcase : lower s = lower (str "deepsleep") := h.trans (by decide)
  have hdeepsleep : getIssueInfo (str "deepsleep") = some ⟨some (str "deepsleep"), none⟩ := by decide
  rw [hran, Event.staticCommands_congr rfl hcase hissue hdeepsleep [] []]
  by_cases hdeep : IsDeepSleep s
  · rw [if_pos hdeep, decide_eq_true hdeep]
    decide +kernel
  · rw [if_neg hdeep, decide_eq_false hdeep]
    decide +kernel

/-- Two spellings of an issue type run the same commands exactly when both or neither
are one of the two that the code knows for deep sleep. -/
theorem runsAlike_iff (hcase : lower s = lower s') : RunsAlike s s' ↔ (IsDeepSleep s ↔ IsDeepSleep s') := by
  refine ⟨fun h => ?_, .of_iff hcase⟩
  by_cases hlower : lower s = str "deepsleep"
  · have hperm := h deepSleepEvent rfl rfl ⟨0, []⟩ ⟨0, []⟩ (deepSleepEvent_reports hlower)
      (deepSleepEvent_reports (hcase ▸ hlower)) (.ofFiles fun _ => none) (.ofFiles fun _ => none) 0 0 [] []
    rw [deepSleepEvent_ran hlower, deepSleepEvent_ran (hcase ▸ hlower)] at hperm
    by_cases hs : IsDeepSleep s <;> by_cases hs' : IsDeepSleep s' <;> simp [hs, hs'] at hperm ⊢
  · exact iff_of_false (fun hs => hlower hs.lower) fun hs' => hlower (hcase.trans hs'.lower)

theorem runsAlike_iff_sample : RunsAlike (str "Network.Ping") (str "NETWORK.ping") :=
  (runsAlike_iff (by decide)).mpr (iff_of_false (by decide) (by decide))

/-- The shipped spelling of deep sleep runs nothing, unlike the one of the code. -/
theorem deepSleep_spelling : lower (str "DEEPSLEEP") = lower (str "DeepSleep") ∧
    deepSleepEvent.Reports ⟨0, []⟩ (str "DEEPSLEEP") ∧ deepSleepEvent.Reports ⟨0, []⟩ (str "DeepSleep") ∧
    deepSleepEvent.ran ⟨0, []⟩ (.ofFiles fun _ => none) 0 (str "DEEPSLEEP", []) = [(str "\"hal_dump\"", 10)] ∧
    deepSleepEvent.ran ⟨0, []⟩ (.ofFiles fun _ => none) 0 (str "DeepSleep", []) = [] ∧
    ¬ RunsAlike (str "DEEPSLEEP") (str "DeepSleep") := by
  have hupper : lower (str "DEEPSLEEP") = str "deepsleep" := by decide
  have hmixed : lower (str "DeepSleep") = str "deepsleep" := by decide
  refine ⟨hupper.trans hmixed.symm, deepSleepEvent_reports hupper, deepSleepEvent_reports hmixed,
    (deepSleepEvent_ran hupper).trans (if_pos (by decide)), (deepSleepEvent_ran hmixed).trans (if_neg (by decide)),
    fun h => ?_⟩
  have hperm := h deepSleepEvent rfl rfl ⟨0, []⟩ ⟨0, []⟩ (deepSleepEvent_reports hupper) (deepSleepEvent_reports hmixed)
    (.ofFiles fun _ => none) (.ofFiles fun _ => none) 0 0 [] []
  rw [deepSleepEvent_ran hupper, deepSleepEvent_ran hmixed, if_pos (by decide), if_neg (by decide)] at hperm
  exact absurd hperm.length_eq (by decide)

end RRD
