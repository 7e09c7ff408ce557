import RemoteDebugger.Proof.Dispatch.Append
import RemoteDebugger.Proof.Execute.Location
import RemoteDebugger.Proof.Sanity.Gate

/-!
# Commands in the background

The shell rejects `&;`. The command check rewrites it in each command, but the
two commands of append mode are joined by a `;` after that.

* `broken_shellCommand`: what is done to a command for the shell neither makes
  a `&;` nor removes one;
* `broken_appendCommands`: when the merge of two commands makes one;
* `shellCommand_not_broken_iff`: the buffers that give the shell none.
-/

namespace RRD

open Framework Framework.Prog

variable {a b : Byte} {s t : Str}

/-! ## The two characters -/

/-- The text has `&;`. -/
def Broken (s : Str) : Prop := [ch '&', ch ';'] <:+: s

theorem broken_cons : Broken (a :: s) ↔ a = ch '&' ∧ s.head? = some (ch ';') ∨ Broken s := by
  rw [Broken, Broken, List.infix_cons_iff, List.cons_prefix_cons, eq_comm]
  refine or_congr_left (and_congr_right fun _ => ?_)
  cases s with
  | nil => simp
  | cons b s => simp [List.cons_prefix_cons, eq_comm]

theorem not_broken_nil : ¬ Broken [] := by simp [Broken]

theorem broken_cons_of_ne (h : a ≠ ch '&') : Broken (a :: s) ↔ Broken s := by
  rw [broken_cons, or_iff_right fun hs => h hs.1]

/-- Text that has no `&` does not matter in front. -/
theorem broken_append_of_notMem (h : ch '&' ∉ t) : Broken (t ++ s) ↔ Broken s := by
  induction t with
  | nil => rfl
  | cons a t ih =>
    obtain ⟨ha, ht⟩ := not_or.mp (mt List.mem_cons.mpr h)
    rw [List.cons_append, broken_cons_of_ne (Ne.symm ha), ih ht]

theorem broken_append_cons : Broken (t ++ a :: s) ↔
    Broken t ∨ t.getLast? = some (ch '&') ∧ a = ch ';' ∨ Broken (a :: s) := by
  induction t with
  | nil => simp [not_broken_nil]
  | cons b t ih =>
    rw [List.cons_append, broken_cons, broken_cons, ih]
    cases t with
    | nil => simp [not_broken_nil]
    | cons c t => simp [List.getLast?_cons_cons, or_assoc]

/-- A byte at the end that is not a semicolon does not matter. -/
theorem broken_concat (h : a ≠ ch ';') : Broken (t ++ [a]) ↔ Broken t := by
  rw [broken_append_cons, broken_cons]
  simp [not_broken_nil, h]

/-! ## The rewritings -/

theorem updateBackgroundCmd_head (c : Str) : (updateBackgroundCmd c).head? = c.head? := by
  induction c using updateBackgroundCmd.induct with
  | case1 a b c hab ih =>
    rw [updateBackgroundCmd, if_pos hab]
    rfl
  | case2 a b c hab ih =>
    rw [updateBackgroundCmd, if_neg hab]
    rfl
  | case3 c hc => rw [updateBackgroundCmd_short hc]

/-- The command check leaves no `&;`. -/
theorem not_broken_updateBackgroundCmd (c : Str) : ¬ Broken (updateBackgroundCmd c) := by
  induction c using updateBackgroundCmd.induct with
  | case1 a b c hab ih =>
    rw [updateBackgroundCmd, if_pos hab, broken_cons, broken_cons_of_ne (by decide)]
    exact not_or.mpr ⟨fun h => absurd (Option.some.inj h.2) (by decide), ih⟩
  | case2 a b c hab ih =>
    rw [updateBackgroundCmd_skip hab, broken_cons, updateBackgroundCmd_head]
    exact not_or.mpr ⟨fun h => hab ⟨h.1, Option.some.inj h.2⟩, ih⟩
  | case3 c hc =>
    rw [updateBackgroundCmd_short hc]
    rcases c with _ | ⟨a, _ | ⟨b, c⟩⟩
    · exact not_broken_nil
    · rw [broken_cons]
      exact not_or.mpr ⟨fun h => absurd h.2 (by simp), not_broken_nil⟩
    · exact absurd rfl (hc a b c)

theorem unescapeQuotes_head (s : Str) : (unescapeQuotes s).head? = some (ch ';') ↔ s.head? = some (ch ';') := by
  match s with
  | [] => rfl
  | [a] => rfl
  | a :: b :: s =>
    rw [unescapeQuotes]
    split
    · rename_i h
      rw [h.1, h.2]
      have hquote : (quote :: unescapeQuotes s).head? ≠ some (ch ';') := fun e => absurd (Option.some.inj e) (by decide)
      have hslash : (backslash :: quote :: s).head? ≠ some (ch ';') := fun e => absurd (Option.some.inj e) (by decide)
      exact iff_of_false hquote hslash
    · rfl

/-- The escapes of quotes are no part of it. -/
theorem broken_unescapeQuotes (s : Str) : Broken (unescapeQuotes s) ↔ Broken s := by
  induction s using unescapeQuotes.induct with
  | case1 a b s hab ih =>
    rw [unescapeQuotes, if_pos hab, hab.1, hab.2, broken_cons_of_ne (by decide), broken_cons_of_ne (by decide),
      broken_cons_of_ne (by decide), ih]
  | case2 a b s hab ih =>
    rw [unescapeQuotes, if_neg hab, broken_cons, broken_cons (s := b :: s), unescapeQuotes_head, ih]
  | case3 s hs =>
    rw [unescapeQuotes]
    exact hs

theorem broken_removeQuotes (s : Str) : Broken (removeQuotes s) ↔ Broken s := by
  rw [removeQuotes, broken_unescapeQuotes]
  split
  · rename_i h
    obtain ⟨hlen, hhead, hlast⟩ := h
    cases s with
    | nil => cases hhead
    | cons a s =>
      obtain rfl : a = quote := Option.some.inj hhead
      rw [List.tail_cons, broken_cons_of_ne (by decide)]
      have hne : s ≠ [] := fun e => by simp [e] at hlen
      have hend : s.getLast hne = quote := by
        rw [List.getLast?_cons, List.getLast?_eq_some_getLast hne] at hlast
        exact Option.some.inj hlast
      conv_rhs => rw [← List.dropLast_append_getLast hne, hend]
      exact (broken_concat (by decide)).symm
  · rfl

/-! ## The directory -/

section Replace

variable {dir : Str}

variable (hne : dir ≠ []) (hamp : ch '&' ∉ dir) (hsemi : ch ';' ∉ dir)

include hne hsemi in
theorem replaceRRDLocation_head (s : Str) :
    (replaceRRDLocation s dir).head? = some (ch ';') ↔ s.head? = some (ch ';') := by
  by_cases h : defaultDir <+: s
  · obtain ⟨t, rfl⟩ := h
    rw [replaceRRDLocation_append]
    refine iff_of_false (fun e => ?_) (fun e => absurd (Option.some.inj e) (by decide))
    obtain ⟨a, d, rfl⟩ := List.exists_cons_of_ne_nil hne
    exact hsemi (Option.some.inj e ▸ List.mem_cons_self)
  · cases s with
    | nil => rfl
    | cons b s =>
      rw [replaceRRDLocation_cons h]
      rfl

include hne hamp hsemi

/-- Neither the macro nor the directory is a part of `&;`. -/
theorem broken_replaceRRDLocation (s : Str) : Broken (replaceRRDLocation s dir) ↔ Broken s := by
  induction hn : s.length using Nat.strong_induction_on generalizing s with
  | h n ih =>
    by_cases h : defaultDir <+: s
    · obtain ⟨t, rfl⟩ := h
      have hlt : t.length < n := by
        rw [← hn, List.length_append]
        exact Nat.lt_add_of_pos_left (by decide)
      rw [replaceRRDLocation_append, broken_append_of_notMem hamp, broken_append_of_notMem (by decide), ih _ hlt t rfl]
    · cases s with
      | nil => rfl
      | cons b s =>
        have hlt : s.length < n := by rw [← hn]; exact Nat.lt_succ_self _
        rw [replaceRRDLocation_cons h, broken_cons, broken_cons (s := s), replaceRRDLocation_head hne hsemi,
          ih _ hlt s rfl]

end Replace

/-- What the shell gets has `&;` exactly where the command has, in a directory without the two characters. -/
theorem broken_shellCommand {command pathname dirname : Str} (hpath : ∀ b ∈ pathname, b ≠ ch '&' ∧ b ≠ ch ';')
    (hdir : ∀ b ∈ dirname, b ≠ ch '&' ∧ b ≠ ch ';') : Broken (shellCommand command pathname dirname) ↔ Broken command := by
  have hall : ∀ b ∈ pathname ++ str "/" ++ dirname, b ≠ ch '&' ∧ b ≠ ch ';' := fun b hb => by
    rcases List.mem_append.mp hb with hb | hb
    · rcases List.mem_append.mp hb with hb | hb
      · exact hpath b hb
      · rw [show b = ch '/' from List.mem_singleton.mp hb]
        decide
    · exact hdir b hb
  rw [shellCommand, broken_removeQuotes, broken_replaceRRDLocation]
  · simp [str]
  · exact fun h => (hall _ h).1 rfl
  · exact fun h => (hall _ h).2 rfl

/-! ## One command -/

section Command

variable {cfg : Config} {env : Env} {files : Str → Option CJson} {rbuf : DataBuf} {issue : IssueNodeData} {node path : Str}

theorem not_broken_of_valid {raw command : Str} {cmdlist : Option CJson}
    (h : isCommandsValid cfg raw cmdlist = some command) : ¬ Broken command :=
  (isCommandsValid_spec h).1 ▸ not_broken_updateBackgroundCmd raw

theorem IssueData.Accepted.not_broken {jsoncfg : Option CJson} {d : IssueData} (h : d.Accepted cfg env jsoncfg) :
    ¬ Broken d.command := by
  obtain ⟨-, hvalid⟩ := h
  exact not_broken_of_valid hvalid

theorem getLast?_cons_of_ne (h : a ≠ b) : (a :: s).getLast? = some b ↔ s.getLast? = some b := by
  rw [List.getLast?_cons]
  cases s.getLast? <;> simp [h]

/-- The last byte of a rewritten command is a `&` if it was one. -/
theorem updateBackgroundCmd_getLast (c : Str) :
    (updateBackgroundCmd c).getLast? = some (ch '&') ↔ c.getLast? = some (ch '&') := by
  induction c using updateBackgroundCmd.induct with
  | case1 a b c hab ih =>
    rw [updateBackgroundCmd, if_pos hab, List.getLast?_cons_cons, List.getLast?_cons_cons, hab.2,
      getLast?_cons_of_ne (by decide), getLast?_cons_of_ne (by decide), ih]
  | case2 a b c hab ih =>
    rw [updateBackgroundCmd_skip hab]
    cases hu : updateBackgroundCmd (b :: c) with
    | nil =>
      have hhead := updateBackgroundCmd_head (b :: c)
      rw [hu] at hhead
      cases hhead
    | cons x u => rw [List.getLast?_cons_cons, List.getLast?_cons_cons, ← hu, ih]
  | case3 c hc => rw [updateBackgroundCmd_short hc]

/-- The data that a file gives for an issue in append mode. -/
def HasCommand (cfg : Config) (files : Str → Option CJson) (rbuf : DataBuf) (issue : IssueNodeData) (path : Str)
    (d : IssueData) : Prop :=
  ∃ json, files path = some json ∧ findIssueInParsedJSON cfg issue (some json) ∧
    getIssueCommandInfo cfg issue (some json) rbuf.mdata = some d

/-- The printed command of an issue in a file ends with a `&`, before its quote. -/
def EndsInAmp (cfg : Config) (files : Str → Option CJson) (issue : IssueNodeData) (path : Str) : Prop :=
  ∃ raw, (readCommand cfg (issueTypeItem (files path) issue)).1 = some raw ∧ [ch '&', quote] <:+ raw

theorem getIssueCommandInfo_eq_some {json : Option CJson} {d : IssueData} {buf : Str}
    (h : getIssueCommandInfo cfg issue json buf = some d) : ∃ t,
      (readCommand cfg (issueTypeItem json issue)).1 = some (quote :: t ++ [quote]) ∧
        d.command = updateBackgroundCmd (quote :: t ++ [quote]) := by
  rw [getIssueCommandInfo] at h
  rcases hread : readCommand cfg (issueTypeItem json issue) with ⟨_ | raw, timeout⟩
  · rw [hread] at h
    cases h
  · rw [hread] at h
    obtain ⟨command, hvalid, rfl⟩ := Option.map_eq_some_iff.mp h
    obtain ⟨s, rfl⟩ := readCommand_string (congrArg Prod.fst hread)
    obtain ⟨t, ht⟩ := cfg.print_string s
    exact ⟨t, congrArg some ht, ht ▸ (isCommandsValid_spec hvalid).1⟩

/-- The merge has `&;` exactly where the static command ends in `&`. -/
theorem broken_appendCommands {s d : IssueData} (hs : HasCommand cfg files rbuf issue rrdJsonFile s)
    (hd : HasCommand cfg files rbuf issue path d) :
    Broken (appendCommands s d).command ↔ EndsInAmp cfg files issue rrdJsonFile := by
  obtain ⟨static, hread, -, hs⟩ := hs
  obtain ⟨dynamic, -, -, hd⟩ := hd
  obtain ⟨t, hraw, hstatic⟩ := getIssueCommandInfo_eq_some hs
  obtain ⟨u, -, hdynamic⟩ := getIssueCommandInfo_eq_some hd
  have hfirst : dropClosingQuote s.command = updateBackgroundCmd (quote :: t) := by
    rw [hstatic, updateBackgroundCmd_concat (by decide), dropClosingQuote, List.getLast?_concat,
      if_pos (show some quote = some (ch '"') from rfl), List.dropLast_concat]
  have hsecond : delimOpeningQuote d.command = ch ';' :: updateBackgroundCmd (u ++ [quote]) := by
    rw [hdynamic, List.cons_append, updateBackgroundCmd_cons (by decide)]
    rfl
  have hends : EndsInAmp cfg files issue rrdJsonFile ↔ (quote :: t).getLast? = some (ch '&') := by
    rw [EndsInAmp, hread, hraw]
    simp only [Option.some.injEq, exists_eq_left']
    rw [← List.singleton_suffix_iff_getLast?_eq_some, List.suffix_concat_iff]
    constructor
    · rintro (h | ⟨r, hr, hsuffix⟩)
      · cases h
      · have hr : [ch '&'] ++ [quote] = r ++ [quote] := hr
        rwa [List.append_cancel_right hr]
    · exact fun h => .inr ⟨[ch '&'], rfl, h⟩
  rw [appendCommands, hfirst, hsecond, broken_append_cons, broken_cons_of_ne (by decide), updateBackgroundCmd_getLast, hends]
  simp [not_broken_updateBackgroundCmd]

end Command

/-! ## A token -/

section Token

variable {cfg : Config} {env : Env} {files : Str → Option CJson} {rbuf : DataBuf} {issue : IssueNodeData} {node path : Str}

theorem profileData_hasCommand {json : CJson} (hjson : files path = some json) :
    Returns (profileData cfg rbuf issue json) fun data => ∀ d ∈ data, HasCommand cfg files rbuf issue path d := by
  rw [profileData]
  split
  · rename_i hfind
    split
    · exact .stop
    · rename_i data hdata
      exact .pure fun d hd => ⟨json, hjson, hfind, Option.some.inj hd ▸ hdata⟩
  · exact .pure fun d hd => absurd hd (Option.not_mem_none d)

theorem processIssueTypeInDynamicProfileappend_hasCommand (hs : env.Stable files) (hnode : issue.node = some node) :
    Returns (processIssueTypeInDynamicProfileappend cfg env rbuf issue) fun data =>
      ∀ d ∈ data, HasCommand cfg files rbuf issue (dynJsonPath cfg node) d := by
  simp only [processIssueTypeInDynamicProfileappend, hnode]
  refine .call_bind fun k => ?_
  rw [hs]
  cases hjson : files (dynJsonPath cfg node) with
  | none => exact .bind fun _ => .pure fun d hd => absurd hd (Option.not_mem_none d)
  | some json => exact profileData_hasCommand hjson

theorem processIssueTypeInStaticProfileappend_hasCommand (hs : env.Stable files) :
    Returns (processIssueTypeInStaticProfileappend cfg env rbuf issue) fun data =>
      ∀ d ∈ data, HasCommand cfg files rbuf issue rrdJsonFile d := by
  refine .call_bind fun k => ?_
  rw [hs]
  cases hjson : files rrdJsonFile with
  | none => exact .pure fun d hd => absurd hd (Option.not_mem_none d)
  | some json => exact profileData_hasCommand hjson

/-- In append mode the commands of the two files are executed as one. -/
theorem processIssueType_hasCommand (hs : env.Stable files) (hissue : getIssueInfo rbuf.mdata = some issue)
    (hnode : issue.node = some node) (happ : rbuf.appendMode = true) :
    Emits (processIssueType cfg env rbuf) (Effect.OfToken (fun d => ∃ s d',
      HasCommand cfg files rbuf issue rrdJsonFile s ∧ HasCommand cfg files rbuf issue (dynJsonPath cfg node) d' ∧
        d = appendCommands s d') rbuf issue) := by
  rw [processIssueType_append hissue happ]
  refine (processIssueTypeInDynamicProfileappend_emits happ).bind_of_returns
    (processIssueTypeInDynamicProfileappend_hasCommand hs hnode) fun dynamic hdynamic => ?_
  cases dynamic with
  | none => exact .pure _
  | some d =>
    refine processIssueTypeInStaticProfileappend_emits.bind_of_returns
      (processIssueTypeInStaticProfileappend_hasCommand hs) fun static hstatic => ?_
    cases static with
    | none => exact .pure _
    | some s =>
      refine (checkIssueNodeInfo_emits (fun _ h => absurd h IssueData.Accepted.not_none) fun data h => ?_).mono
        fun _ => .inl
      exact ⟨s, d, hstatic s rfl, hdynamic d rfl, (Option.some.inj h).symm⟩

/-- Where both files have a command, a device executes them. -/
theorem appendCommands_executed {s d : IssueData} (hissue : getIssueInfo rbuf.mdata = some issue)
    (hnode : issue.node = some node) (happ : rbuf.appendMode = true) (hstatic : HasCommand cfg files rbuf issue rrdJsonFile s)
    (hdynamic : HasCommand cfg files rbuf issue (dynJsonPath cfg node) d) :
    .executeCommands (appendCommands s d) ∈ ((processIssueType cfg (.ofFiles files) rbuf).run 0).events := by
  obtain ⟨static, hreads, hfinds, hs⟩ := hstatic
  obtain ⟨dynamic, hreadd, hfindd, hd⟩ := hdynamic
  have hsub : issue.subNode ≠ none := fun e => by
    obtain ⟨t, ht, -⟩ := getIssueCommandInfo_eq_some hs
    rw [issueTypeItem, e] at ht
    cases hcategory : cJsonGetObjectItem (some static) issue.node <;> rw [hcategory] at ht <;> cases ht
  have hrun : (processIssueType cfg (.ofFiles files) rbuf).run 0 =
      (checkIssueNodeInfo cfg (.ofFiles files) issue none rbuf false (some (appendCommands s d))).run 2 := by
    rw [processIssueType_read hissue hnode happ hreadd, profileData_of_some hfindd hd, pure_bind,
      appendStatic_read hreads, profileData_of_some hfinds hs, pure_bind]
    rfl
  rw [hrun, checkIssueNodeInfo, hnode]
  simp only [call_bind_run, makeOutdir_bind_run, Env.ofFiles, if_true, runIssueCommands, hsub, ne_eq, not_false_eq_true,
    happ]
  exact List.mem_cons_of_mem _ List.mem_cons_self

/-- A token in append mode with a command in both files, of which the static one ends in `&`. -/
def AppendsToAmp (cfg : Config) (files : Str → Option CJson) (rbuf : DataBuf) : Prop :=
  rbuf.appendMode = true ∧ ∃ issue node s d, getIssueInfo rbuf.mdata = some issue ∧ issue.node = some node ∧
    HasCommand cfg files rbuf issue rrdJsonFile s ∧ HasCommand cfg files rbuf issue (dynJsonPath cfg node) d ∧
      EndsInAmp cfg files issue rrdJsonFile

/-- The command of a buffer is executed: of a token, or of a deep sleep message. -/
def Executes (cfg : Config) (env : Env) (rbuf : DataBuf) (k : Nat) (d : IssueData) : Prop :=
  .executeCommands d ∈ ((processIssueType cfg env rbuf).run k).events ∨
    .executeCommands d ∈ ((rrdProcessDeepSleepAwakeEvents cfg env rbuf).run k).events

theorem IssueData.RunBy.not_broken {d : IssueData} (h : d.RunBy cfg env false) : ¬ Broken d.command := by
  obtain ⟨jsoncfg, h⟩ := h
  exact h.not_broken

theorem processIssueType_not_broken (hs : env.Stable files) (h : ¬ AppendsToAmp cfg files rbuf) {k : Nat} {d : IssueData}
    (hd : .executeCommands d ∈ ((processIssueType cfg env rbuf).run k).events) : ¬ Broken d.command := by
  cases hissue : getIssueInfo rbuf.mdata with
  | none =>
    rw [processIssueType, hissue] at hd
    cases hd
  | some issue =>
    obtain ⟨node, hnode, -⟩ := getIssueInfo_node hissue
    cases happ : rbuf.appendMode with
    | false =>
      rcases processIssueType_emits hissue k _ hd with hrun | ⟨-, _, -, hdown⟩
      · rw [happ] at hrun
        exact IssueData.RunBy.not_broken hrun
      · exact hdown.elim
    | true =>
      rcases processIssueType_hasCommand hs hissue hnode happ k _ hd with ⟨s, d', hstatic, hdynamic, rfl⟩ | ⟨-, _, -, hdown⟩
      · rw [broken_appendCommands hstatic hdynamic]
        exact fun hends => h ⟨happ, issue, node, s, d', hissue, hnode, hstatic, hdynamic, hends⟩
      · exact hdown.elim

/-- Every other buffer gives the shell no `&;`, on any device with these files. -/
theorem shellCommand_not_broken_iff (cfg : Config) (files : Str → Option CJson) (rbuf : DataBuf) :
    (∀ env : Env, env.Stable files → ∀ k d, Executes cfg env rbuf k d →
      ∀ pathname dirname, (∀ b ∈ pathname, b ≠ ch '&' ∧ b ≠ ch ';') → (∀ b ∈ dirname, b ≠ ch '&' ∧ b ≠ ch ';') →
        ¬ Broken (shellCommand d.command pathname dirname)) ↔ ¬ AppendsToAmp cfg files rbuf := by
  constructor
  · rintro h ⟨happ, issue, node, s, d, hissue, hnode, hs, hd, hends⟩
    have hfree : ∀ b ∈ ([] : Str), b ≠ ch '&' ∧ b ≠ ch ';' := by simp
    have hexecuted := appendCommands_executed hissue hnode happ hs hd
    refine h _ (Env.ofFiles_stable files) 0 _ (.inl hexecuted) [] [] hfree hfree ?_
    rw [broken_shellCommand hfree hfree, broken_appendCommands hs hd]
    exact hends
  · intro h env hs k d hd pathname dirname hpath hdir
    rw [broken_shellCommand hpath hdir]
    rcases hd with hd | hd
    · exact processIssueType_not_broken hs h hd
    · rcases rrdProcessDeepSleepAwakeEvents_emits k _ hd with hrun | ⟨-, pkg, hdown⟩
      · exact IssueData.RunBy.not_broken hrun
      · exact hdown.elim

/-- Two profiles of which the static one has a command that ends in `&`. -/
def dumpFiles (path : Str) : Option CJson :=
  some (pingProfile (if path = rrdJsonFile then str "tcpdump -w RRD_LOCATION/capture.pcap &" else str "uptime") pingSanity)

def dumpRequest : DataBuf := { pingRequest with appendMode := true }

/-- The command of a package is appended to it with a semicolon. -/
theorem dump_appended_broken : ∃ d,
    .executeCommands d ∈ ((processIssueType (plainConfig true) (.ofFiles dumpFiles) dumpRequest).run 0).events ∧
      shellCommand d.command (str "/tmp") (str "dump") = str "tcpdump -w /tmp/dump/capture.pcap &;uptime" ∧
      Broken (shellCommand d.command (str "/tmp") (str "dump")) := by
  have hs : HasCommand (plainConfig true) dumpFiles dumpRequest pingIssue rrdJsonFile _ :=
    ⟨_, rfl, by decide +kernel, rfl⟩
  have hd : HasCommand (plainConfig true) dumpFiles dumpRequest pingIssue (dynJsonPath (plainConfig true) (str "Network"))
      _ := ⟨_, rfl, by decide +kernel, rfl⟩
  have hbroken : Broken (str "tcpdump -w /tmp/dump/capture.pcap &;uptime") :=
    ⟨str "tcpdump -w /tmp/dump/capture.pcap ", str "uptime", by decide⟩
  obtain ⟨d, hd, hsent⟩ : ∃ d,
      .executeCommands d ∈ ((processIssueType (plainConfig true) (.ofFiles dumpFiles) dumpRequest).run 0).events ∧
        shellCommand d.command (str "/tmp") (str "dump") = str "tcpdump -w /tmp/dump/capture.pcap &;uptime" :=
    ⟨_, appendCommands_executed (by decide) rfl rfl hs hd, by decide +kernel⟩
  exact ⟨d, hd, hsent, hsent ▸ hbroken⟩

end Token

end RRD
