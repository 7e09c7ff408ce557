import RemoteDebugger.Impl.Daemon
import RemoteDebugger.Proof.Dispatch.Effects
import RemoteDebugger.Proof.Sanity.Gate

/-!
# The command check on every route

* `rrdEventThreadFunc_checked`: every command of every message is checked;
* `executed_gated_iff`: it has none of the patterns in effect exactly when its
  parts are resolved and unspliced;
* `append_without_sanity_runs`: in append mode, a package without a list of its
  own is not checked.
-/

namespace RRD

open Framework Framework.Prog

/-- A command that is run is checked. -/
def Effect.Checked (cfg : Config) (files : Str → Option CJson) (append : Bool) : Effect → Prop
  | .executeCommands d => d.Checked cfg files append
  | _ => True

variable {cfg : Config} {env : Env} {files : Str → Option CJson} {append : Bool} {rbuf : DataBuf} {d : IssueData}

theorem IssueData.RunBy.checked (hs : env.Stable files) (h : d.RunBy cfg env append) : d.Checked cfg files append := by
  cases append with
  | true =>
    obtain ⟨hstatic, hdynamic⟩ : d.Appended cfg := h
    exact appendCommands_checked (getIssueCommandInfo_ofProfile hstatic) (getIssueCommandInfo_ofProfile hdynamic)
  | false =>
    obtain ⟨jsoncfg, -, hvalid⟩ : ∃ jsoncfg, d.Accepted cfg env jsoncfg := h
    rw [hs] at hvalid
    exact acceptedData_checked hvalid

theorem Effect.Checked.of_isReport {e : Effect} (hs : env.Stable files)
    (h : e.IsReport (IssueData.RunBy cfg env append) rbuf) : e.Checked cfg files append := by
  cases e with
  | executeCommands d => exact IssueData.RunBy.checked hs h
  | _ => trivial

theorem Effect.Checked.of_isDownload {e : Effect} {pkg : Str} (h : e.IsDownload pkg rbuf) :
    e.Checked cfg files append := by
  cases e with
  | executeCommands d => exact h.elim
  | _ => trivial

theorem processIssueType_checked (hs : env.Stable files) :
    Emits (processIssueType cfg env rbuf) (Effect.Checked cfg files rbuf.appendMode) := by
  cases hinfo : getIssueInfo rbuf.mdata with
  | none =>
    simp only [processIssueType, hinfo]
    exact .stop
  | some issue =>
    refine (processIssueType_emits hinfo).mono fun e he => ?_
    rcases he with he | ⟨-, node, -, he⟩
    · exact .of_isReport hs he
    · exact .of_isDownload he

theorem rrdProcessDeepSleepAwakeEvents_checked (hs : env.Stable files) :
    Emits (rrdProcessDeepSleepAwakeEvents cfg env rbuf) (Effect.Checked cfg files false) := by
  refine rrdProcessDeepSleepAwakeEvents_emits.mono fun e he => ?_
  rcases he with he | ⟨-, pkg, he⟩
  · exact .of_isReport hs he
  · exact .of_isDownload he

/-- Whether a message is a list of issue types for append mode. -/
def DataBuf.appendRoute (buf : DataBuf) : Bool := decide (buf.mtype = .eventMsg) && buf.appendMode

theorem rrdEventThreadFunc_checked (hs : env.Stable files) :
    Emits (rrdEventThreadFunc cfg env rbuf) fun x => x.2.Checked cfg files rbuf.appendRoute := by
  rw [rrdEventThreadFunc, DataBuf.appendRoute]
  cases rbuf.mtype with
  | eventMsg =>
    show Emits (processIssueTypeEvent cfg env rbuf) fun x => x.2.Checked cfg files rbuf.appendMode
    refine .loop (fun _ token _ => .tag ?_) ()
    -- the buffer of a token has the mode of the message
    exact processIssueType_checked hs
  | eventWebcfgMsg => exact .tag (.emit trivial)
  | deepsleepEventMsg =>
    show Emits (if cfg.iarm then _ else _) _
    split
    · exact .tag (rrdProcessDeepSleepAwakeEvents_checked hs)
    · exact .pure _
  | default => exact .pure _

/-- The commands that a message hands to `executeCommands`. -/
def executed (cfg : Config) (env : Env) (buf : DataBuf) (k : Nat) : List IssueData :=
  ((rrdEventThreadFunc cfg env buf).run k).events.filterMap fun x => match x.2 with
    | .executeCommands d => some d
    | _ => none

theorem executed_checked (hs : env.Stable files) {k : Nat} {d : IssueData} (hd : d ∈ executed cfg env rbuf k) :
    d.Checked cfg files rbuf.appendRoute := by
  obtain ⟨⟨token, e⟩, hx, he⟩ := List.mem_filterMap.mp hd
  have hchecked : e.Checked cfg files rbuf.appendRoute := rrdEventThreadFunc_checked hs k _ hx
  cases e <;> cases he
  exact hchecked

/-- In every command of every message. -/
theorem executed_gated_iff (hs : env.Stable files) {k : Nat} {d : IssueData} (hd : d ∈ executed cfg env rbuf k) :
    (∀ p, Plain p → (p <:+: d.command ↔ ∃ part ∈ d.parts, p <:+: part.text)) ∧
      ((∀ part ∈ d.parts, part.Gated cfg files) ↔
        ∀ part ∈ d.parts, part.Resolved cfg files rbuf.appendRoute ∧ part.Unspliced cfg files) := by
  have hchecked := executed_checked hs hd
  refine ⟨hchecked.infix_iff, ?_⟩
  exact forall₂_congr fun part hpart => (hchecked.parts part hpart).gated_iff

/-- A static profile with a list, and a package for append mode without one. -/
def appendFiles : Str → Option CJson := fun jsonFile =>
  if jsonFile = rrdJsonFile then some (pingProfile (str "ping -c 4 localhost") pingSanity)
  else if jsonFile = dynJsonPath (plainConfig true) (str "Network") then some (pingProfile (str "rm -rf /") [])
  else none

theorem executed_gated_iff_static : ∃ d ∈ executed (plainConfig true) (.ofFiles appendFiles)
      (pushIssueTypesToMsgQueue (str "Network.Ping") .eventMsg) 0,
    d.command = str "\"ping -c 4 localhost\"" ∧
      (∀ p, Plain p → (p <:+: d.command ↔ ∃ part ∈ d.parts, p <:+: part.text)) ∧
      ((∀ part ∈ d.parts, part.Gated (plainConfig true) appendFiles) ↔
        ∀ part ∈ d.parts, part.Resolved (plainConfig true) appendFiles false ∧
          part.Unspliced (plainConfig true) appendFiles) := by
  have hrun : (executed (plainConfig true) (.ofFiles appendFiles)
      (pushIssueTypesToMsgQueue (str "Network.Ping") .eventMsg) 0).map IssueData.command =
        [str "\"ping -c 4 localhost\""] := by decide +kernel
  obtain ⟨d, hd, hcommand⟩ := List.map_eq_singleton_iff.mp hrun
  have hmem : d ∈ executed (plainConfig true) (.ofFiles appendFiles)
      (pushIssueTypesToMsgQueue (str "Network.Ping") .eventMsg) 0 := hd ▸ List.mem_cons_self ..
  exact ⟨d, hmem, hcommand, executed_gated_iff (Env.ofFiles_stable _) hmem⟩

/-- In append mode, the command of the package runs unchecked. -/
theorem append_without_sanity_runs : (Env.ofFiles appendFiles).Stable appendFiles ∧
    ∃ d ∈ executed (plainConfig true) (.ofFiles appendFiles)
        (pushIssueTypesToMsgQueue (str "Network.Ping_apnd") .eventMsg) 0,
      d.command = str "\"ping -c 4 localhost;rm -rf /\"" ∧
        ∃ part ∈ d.parts, ¬ part.Gated (plainConfig true) appendFiles := by
  have hrun : ∃ d ∈ executed (plainConfig true) (.ofFiles appendFiles)
        (pushIssueTypesToMsgQueue (str "Network.Ping_apnd") .eventMsg) 0,
      d.command = str "\"ping -c 4 localhost;rm -rf /\"" ∧ ∃ part ∈ d.parts,
        str "rm -rf" ∈ patterns (plainConfig true) (commandsInEffect appendFiles part.profile) ∧
          str "rm -rf" <:+: part.text := by decide +kernel
  obtain ⟨d, hd, hcommand, part, hpart, hpattern, htext⟩ := hrun
  refine ⟨Env.ofFiles_stable _, d, hd, hcommand, part, hpart, fun hgated => ?_⟩
  exact hgated _ hpattern ⟨by decide, by decide⟩ htext

end RRD
