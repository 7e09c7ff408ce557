import RemoteDebugger.Framework.Run
import RemoteDebugger.Impl.RunReport
import RemoteDebugger.Proof.Execute.Names

/-!
# The calls of a command

`RunState` follows the calls of `executeCommands`: the report that is open, the
pipe, the units that may run, and the reports that are finished. Its `step` refuses a
call out of place: a directory or a report while something is open, a write without
a report, a second pipe, a wait with the report open.

* `executeCommandsRun_exec`: a command leaves nothing open, its report is finished
  where it returns true, and its unit runs on only where it could not be stopped;
* `runCommands_exec`: the commands of the daemon do not overlap, wherever they end.
-/

namespace RRD

open Framework Framework.Prog

/-! ## What is open and what runs -/

structure RunState where
  /-- The path of the report that is open, and what is in it. -/
  report : Option (Str × Str)
  pipe : Bool
  units : List Str
  finished : List (Str × Str)

namespace RunState

/-- Nothing is open. -/
def idle (units : List Str) (finished : List (Str × Str)) : RunState := ⟨none, false, units, finished⟩

/-- A unit may run from where `systemd-run` is started to where `systemctl stop` works. -/
def step (s : RunState) : RunEffect → Option RunState
  | .mkdir _ _ => if s.report = none ∧ s.pipe = false then some s else none
  | .fopen path ok =>
    if s.report = none ∧ s.pipe = false then some { s with report := if ok then some (path, []) else none } else none
  | .write bytes => s.report.map fun r => { s with report := some (r.1, r.2 ++ bytes) }
  | .popen (.systemdRun unit _) ok =>
    if s.pipe = false then some { s with pipe := ok, units := if ok then unit :: s.units else s.units } else none
  | .popen (.journalctl _) ok => if s.pipe = false then some { s with pipe := ok } else none
  | .popen (.systemctlStop _) _ => none
  | .pclose => if s.pipe then some { s with pipe := false } else none
  | .fclose =>
    if s.pipe then none else s.report.map fun r => { s with report := none, finished := s.finished ++ [r] }
  | .sleep _ => if s.report = none ∧ s.pipe = false then some s else none
  | .system (.systemctlStop unit) ok =>
    if s.report = none ∧ s.pipe = false then
      some { s with units := if ok then s.units.filter (· ≠ unit) else s.units }
    else none
  | .system _ _ => none

end RunState

/-! ## The output -/

/-- What a command prints, as far as it is read. -/
def RunEnv.output (env : RunEnv) (command : ShellCommand) : Str :=
  match env.popen command with
  | none => []
  | some source => (source.takeWhile (· ≠ [])).flatten

variable {env : RunEnv} {w : Nat}

theorem copyDebugLogDestFile_run (source : List Str) (w : Nat) :
    (copyDebugLogDestFile source).run w = ⟨some (), (source.takeWhile (· ≠ [])).map .write, w⟩ := by
  induction source with
  | nil => rfl
  | cons buffer source ih =>
    rw [copyDebugLogDestFile]
    by_cases hb : buffer = []
    · rw [if_pos hb, List.takeWhile_cons_of_neg (by simp [hb])]
      rfl
    · rw [if_neg hb, List.takeWhile_cons_of_pos (by simp [hb])]
      rw [bind_run_of_some (emit_run _ w), ih]
      rfl

/-- Writes to the open report add their bytes to it. -/
theorem exec_writes (path content : Str) (s : RunState) (hs : s.report = some (path, content)) (source : List Str) :
    exec RunState.step s (source.map .write) = some { s with report := some (path, content ++ source.flatten) } := by
  induction source generalizing s content with
  | nil =>
    rw [List.flatten_nil, List.append_nil, ← hs]
    rfl
  | cons buffer source ih =>
    refine exec_cons (t := { s with report := some (path, content ++ buffer) }) ?_ ?_
    · rw [RunState.step, hs]
      rfl
    · rw [ih (content ++ buffer) _ rfl, List.flatten_cons, List.append_assoc]

/-- The events of a command that prints to the report. -/
def outputEvents (env : RunEnv) (command : ShellCommand) : List RunEffect :=
  match env.popen command with
  | none => [.popen command false]
  | some source => .popen command true :: (source.takeWhile (· ≠ [])).map .write ++ [.pclose]

theorem copyOutput_run (command : ShellCommand) (w : Nat) :
    (copyOutput env command).run w = ⟨some (), outputEvents env command, w⟩ := by
  rw [copyOutput, outputEvents]
  cases env.popen command with
  | none => rfl
  | some source =>
    simp only
    rw [bind_run_of_some (emit_run _ w), bind_run_of_some (copyDebugLogDestFile_run source w)]
    rfl

/-- A pipe is opened, copied and closed again. -/
theorem exec_outputEvents (env : RunEnv) {s : RunState} {path content : Str} (command : ShellCommand)
    (started : Bool → RunState) (hstart : ∀ ok, s.step (.popen command ok) = some (started ok))
    (hreport : ∀ ok, (started ok).report = some (path, content)) (hpipe : ∀ ok, (started ok).pipe = ok) :
    exec RunState.step s (outputEvents env command) = some
      { started (env.popen command).isSome with report := some (path, content ++ env.output command), pipe := false } := by
  rw [outputEvents, RunEnv.output]
  cases env.popen command with
  | none =>
    refine exec_cons (hstart false) ?_
    show some (started false) = _
    rw [List.append_nil]
    exact congrArg some (congrArg₂ (fun report pipe => { started false with report := report, pipe := pipe })
      (hreport false) (hpipe false))
  | some source =>
    refine exec_cons (hstart true) (exec_append (exec_writes path content _ (hreport true) _) (exec_cons ?_ rfl))
    simp [RunState.step, hpipe]

/-! ## A command -/

/-- The report of a command. -/
def reportText (env : RunEnv) (command unit : Str) : Str :=
  reportHeader command ++ env.output (.systemdRun unit (removeQuotes command)) ++ env.output (.journalctl unit)

def reportEvents (env : RunEnv) (command unit : Str) (timeout : Int) : List RunEffect :=
  .write (reportHeader command) :: outputEvents env (.systemdRun unit (removeQuotes command)) ++
    outputEvents env (.journalctl unit) ++
    [.fclose, .sleep (sleepArgument timeout), .system (.systemctlStop unit) (env.system (.systemctlStop unit))]

theorem writeReport_run (command unit : Str) (timeout : Int) (w : Nat) :
    (writeReport env command unit timeout).run w = ⟨some (), reportEvents env command unit timeout, w⟩ := by
  rw [writeReport, bind_run_of_some (emit_run _ w), bind_run_of_some (copyOutput_run _ w),
    bind_run_of_some (copyOutput_run _ w), reportEvents, List.append_assoc]
  rfl

/-- The units that may run after the report of a command. -/
def unitsAfterReport (env : RunEnv) (command unit : Str) (units : List Str) : List Str :=
  let started := if (env.popen (.systemdRun unit (removeQuotes command))).isSome then unit :: units else units
  if env.system (.systemctlStop unit) then started.filter (· ≠ unit) else started

theorem exec_reportEvents (path command unit : Str) (timeout : Int) (units : List Str) (finished : List (Str × Str)) :
    exec RunState.step ⟨some (path, []), false, units, finished⟩ (reportEvents env command unit timeout) =
      some (.idle (unitsAfterReport env command unit units) (finished ++ [(path, reportText env command unit)])) := by
  let command' := removeQuotes command
  let header := reportHeader command
  let started (ok : Bool) : RunState := ⟨some (path, header), ok, if ok then unit :: units else units, finished⟩
  let ran := started (env.popen (.systemdRun unit command')).isSome
  let logged (ok : Bool) : RunState :=
    ⟨some (path, header ++ env.output (.systemdRun unit command')), ok, ran.units, finished⟩
  have hrun := exec_outputEvents env (s := started false) (.systemdRun unit command') started
    (fun ok => by simp [RunState.step, started]) (fun ok => rfl) fun ok => rfl
  have hlog := exec_outputEvents env (s := logged false) (.journalctl unit) logged
    (fun ok => by simp [RunState.step, logged]) (fun ok => rfl) fun ok => rfl
  refine exec_cons (t := started false) ?_ (exec_append (exec_append hrun hlog) ?_)
  · simp [RunState.step, started, header]
  · simp [exec, RunState.step, logged, RunState.idle, reportText, unitsAfterReport, ran, started, command', header]

/-- The directory of a command, and its report in it. -/
def commandDir (env : RunEnv) (rfcvalue : Str) : Str := dirText rfcvalue env.rrdCmdThreadID ++ timeText env.locTime

def commandUnit (env : RunEnv) (rfcvalue : Str) : Str := remoteDebuggerPrefix ++ rfcvalue ++ longText env.epochTime

/-- The label, the thread and the time are short enough for the arrays. -/
def LabelFits (env : RunEnv) (rfcvalue : Str) : Prop :=
  0 ∉ rfcvalue ∧ rfcvalue.length + (decimal 0 env.rrdCmdThreadID.toNat).length + (timeText env.locTime).length ≤ 235

/-- The command that a unit runs. -/
def runCommand (env : RunEnv) (cmdData : IssueData) : Str :=
  locatedCommand env cmdData.command (commandDir env cmdData.rfcvalue)

/-- The report that a command leaves: its path and its text. -/
def commandReport (env : RunEnv) (cmdData : IssueData) : Str × Str :=
  (commandDir env cmdData.rfcvalue ++ str "/" ++ rrdOutputFile,
    reportText env (runCommand env cmdData) (commandUnit env cmdData.rfcvalue))

theorem stringIn_zeroed {size : Nat} {s : Str} (hs : 0 ∉ s) (h : s.length < size) :
    stringIn (zeroed size s) = some s := by
  rw [stringIn, if_pos (zero_mem_zeroed h), cstr_zeroed hs]

/-- Where the label fits, the names are those that the code means. -/
theorem LabelFits.names {rfcvalue : Str} (h : LabelFits env rfcvalue) :
    ∃ mem, dirnameMem env.junk rfcvalue env.rrdCmdThreadID env.locTime = some mem ∧
      stringIn mem = some (commandDir env rfcvalue) ∧
      (finalOutFileMem mem).bind stringIn = some (commandDir env rfcvalue ++ str "/" ++ rrdOutputFile) ∧
      (remoteDebuggerServiceMem rfcvalue env.epochTime).bind stringIn = some (commandUnit env rfcvalue) := by
  obtain ⟨hzero, hlen⟩ := h
  obtain ⟨-, hpath, unit, hunit, hterm, htext⟩ : NamesFit rfcvalue env.rrdCmdThreadID env.locTime env.epochTime :=
    .of_length_le hzero hlen
  obtain ⟨path, hfinal, hend, hstr⟩ := hpath env.junk
  have hdir : (commandDir env rfcvalue).length < 256 := by
    rw [commandDir, List.length_append, length_dirText]
    omega
  have hname : 0 ∉ commandDir env rfcvalue := fun h =>
    (List.mem_append.mp h).elim (zero_notMem_dirText hzero _) (zero_notMem_timeText _)
  have hmem : dirnameMem env.junk rfcvalue env.rrdCmdThreadID env.locTime = some (zeroed 256 (commandDir env rfcvalue)) :=
    dirnameMem_eq env.junk hdir
  refine ⟨_, hmem, stringIn_zeroed hname hdir, ?_, ?_⟩
  · rw [hmem, Option.bind_some] at hfinal
    rw [hfinal, Option.bind_some, stringIn, if_pos hend, hstr]
    rfl
  · rw [hunit, Option.bind_some, stringIn, if_pos hterm, htext]
    rfl

/-- The calls of a command that opens its report where it can. -/
def commandCalls (env : RunEnv) (dirname path command unit : Str) (timeout : Int) : List RunEffect :=
  .mkdir dirname env.mkdir :: if env.mkdir then .fopen path env.fopen ::
    if env.fopen then reportEvents env command unit timeout else [] else []

section Names

variable {cmdData : IssueData} {mem dirname path unit : Str}

/-- `executeCommands` under its names. -/
theorem executeCommandsRun_eq (hmem : dirnameMem env.junk cmdData.rfcvalue env.rrdCmdThreadID env.locTime = some mem)
    (hdir : stringIn mem = some dirname) (hpath : (finalOutFileMem mem).bind stringIn = some path)
    (hunit : (remoteDebuggerServiceMem cmdData.rfcvalue env.epochTime).bind stringIn = some unit) :
    executeCommandsRun env cmdData = (do
      emit (.mkdir dirname env.mkdir)
      if !env.mkdir then pure false
      else do
        emit (.fopen path env.fopen)
        if !env.fopen then pure false
        else do
          writeReport env (locatedCommand env cmdData.command dirname) unit cmdData.timeout
          pure true) := by
  unfold executeCommandsRun
  simp only [hmem, hdir, hpath, hunit]

theorem executeCommandsRun_run (hmem : dirnameMem env.junk cmdData.rfcvalue env.rrdCmdThreadID env.locTime = some mem)
    (hdir : stringIn mem = some dirname) (hpath : (finalOutFileMem mem).bind stringIn = some path)
    (hunit : (remoteDebuggerServiceMem cmdData.rfcvalue env.epochTime).bind stringIn = some unit) (w : Nat) :
    (executeCommandsRun env cmdData).run w =
      ⟨some (env.mkdir && env.fopen),
        commandCalls env dirname path (locatedCommand env cmdData.command dirname) unit cmdData.timeout, w⟩ := by
  rw [executeCommandsRun_eq hmem hdir hpath hunit, bind_run_of_some (emit_run _ w), commandCalls]
  cases env.mkdir with
  | false => rfl
  | true =>
    simp only [Bool.not_true, Bool.false_eq_true, if_false, if_true, Bool.true_and]
    rw [bind_run_of_some (emit_run _ w)]
    cases env.fopen with
    | false => rfl
    | true =>
      simp only [Bool.not_true, Bool.false_eq_true, if_false, if_true]
      rw [bind_run_of_some (writeReport_run _ _ _ w), pure_run, List.append_nil]
      rfl

end Names

/-- The reports that a command finishes. -/
def finishedReports (env : RunEnv) (cmdData : IssueData) : List (Str × Str) :=
  if env.mkdir && env.fopen then [commandReport env cmdData] else []

/-- The units that may run after a command. -/
def unitsAfter (env : RunEnv) (cmdData : IssueData) (units : List Str) : List Str :=
  if env.mkdir && env.fopen then unitsAfterReport env (runCommand env cmdData) (commandUnit env cmdData.rfcvalue) units
  else units

section Events

variable {command path unit dirname : Str} {timeout : Int} {units : List Str}

/-- The calls of a command, whatever its names are, leave nothing open. -/
theorem exec_commandCalls (units : List Str) (finished : List (Str × Str)) :
    exec RunState.step (.idle units finished) (commandCalls env dirname path command unit timeout) =
      some (.idle (if env.mkdir && env.fopen then unitsAfterReport env command unit units else units)
        (finished ++ if env.mkdir && env.fopen then [(path, reportText env command unit)] else [])) := by
  refine exec_cons (t := .idle units finished) rfl ?_
  cases env.mkdir with
  | false =>
    simp only [Bool.false_and, Bool.false_eq_true, if_false, List.append_nil]
    rfl
  | true =>
    rw [Bool.true_and, if_pos rfl]
    cases env.fopen with
    | false =>
      simp only [Bool.false_eq_true, if_false, List.append_nil]
      rfl
    | true => exact exec_cons (t := ⟨_, false, units, finished⟩) rfl (exec_reportEvents ..)

/-- A unit that may run after a report was there before, or is that of the command and was not stopped. -/
theorem mem_unitsAfterReport {u : Str} (h : u ∈ unitsAfterReport env command unit units) :
    u ∈ units ∨ u = unit ∧ (env.popen (.systemdRun unit (removeQuotes command))).isSome ∧
      env.system (.systemctlStop unit) = false := by
  have hstarted : u ∈ (if (env.popen (.systemdRun unit (removeQuotes command))).isSome then unit :: units else units) →
      u ∈ units ∨ u = unit ∧ (env.popen (.systemdRun unit (removeQuotes command))).isSome := by
    split
    · rename_i hpopen
      exact fun h => (List.mem_cons.mp h).symm.imp_right (⟨·, hpopen⟩)
    · exact .inl
  rw [unitsAfterReport] at h
  cases hstop : env.system (.systemctlStop unit) with
  | false =>
    rw [hstop, if_neg Bool.false_ne_true] at h
    exact (hstarted h).imp_right fun ⟨hu, hpopen⟩ => ⟨hu, hpopen, rfl⟩
  | true =>
    rw [hstop, if_pos rfl] at h
    obtain ⟨h, hne⟩ := List.mem_filter.mp h
    exact .inl ((hstarted h).resolve_right fun ⟨hu, _⟩ => of_decide_eq_true hne hu)

/-- It is that of a `systemctl stop` that failed. -/
theorem mem_commandCalls_of_unit {u : Str}
    (h : u ∈ if env.mkdir && env.fopen then unitsAfterReport env command unit units else units) :
    u ∈ units ∨ .system (.systemctlStop u) false ∈ commandCalls env dirname path command unit timeout := by
  split at h
  · rename_i hopens
    obtain ⟨hmkdir, hfopen⟩ := Bool.and_eq_true_iff.mp hopens
    refine (mem_unitsAfterReport h).imp_right fun ⟨hu, _, hstop⟩ => ?_
    rw [commandCalls, if_pos hmkdir, if_pos hfopen, hu, reportEvents, hstop]
    simp
  · exact .inl h

end Events

/-- A command whose label fits returns, and leaves nothing open. It returns true exactly
where its directory is made and its report opened. What it then writes there is the command
line, what the pipe of the unit gives and what the pipe of its journal gives, in this
order, and nothing for a pipe that is not opened. The only unit that it leaves is its
own, where it is started and not stopped. -/
theorem executeCommandsRun_exec {cmdData : IssueData} (h : LabelFits env cmdData.rfcvalue) (w : Nat)
    (units : List Str) (finished : List (Str × Str)) :
    ((executeCommandsRun env cmdData).run w).result = some (env.mkdir && env.fopen) ∧
      exec RunState.step (.idle units finished) ((executeCommandsRun env cmdData).run w).events =
        some (.idle (unitsAfter env cmdData units) (finished ++ finishedReports env cmdData)) ∧
      ∀ u ∈ unitsAfter env cmdData units, u ∈ units ∨ u = commandUnit env cmdData.rfcvalue ∧
        (env.popen (.systemdRun u (removeQuotes (runCommand env cmdData)))).isSome ∧
        env.system (.systemctlStop u) = false := by
  obtain ⟨mem, hmem, hdir, hpath, hunit⟩ := h.names
  rw [executeCommandsRun_run hmem hdir hpath hunit]
  refine ⟨rfl, exec_commandCalls units finished, fun u hu => ?_⟩
  rw [unitsAfter] at hu
  split at hu
  · refine (mem_unitsAfterReport hu).imp_right ?_
    rintro ⟨rfl, hrest⟩
    exact ⟨rfl, hrest⟩
  · exact .inl hu

/-- A device on which a command prints a line, and its journal two. -/
def pingRunEnv : RunEnv where
  rrdCmdThreadID := 1
  locTime := sampleTm
  epochTime := 1735720200
  junk _ := 0
  mkdir := true
  getcwd := str "/tmp/rrd"
  fopen := true
  popen
    | .journalctl _ => some [str "ping started\n", str "ping done\n", []]
    | _ => some [str "Running as unit\n"]
  system _ := true

def pingCommand : IssueData := ⟨str "Network.Ping", str "\"ping -c 4 localhost\"", 10, []⟩

theorem executeCommandsRun_ping :
    ((executeCommandsRun pingRunEnv pingCommand).run 0).result = some true ∧
      exec RunState.step (.idle [] []) ((executeCommandsRun pingRunEnv pingCommand).run 0).events =
        some (.idle (unitsAfter pingRunEnv pingCommand []) [commandReport pingRunEnv pingCommand]) ∧
      unitsAfter pingRunEnv pingCommand [] = [] := by
  have hfits : LabelFits pingRunEnv pingCommand.rfcvalue := ⟨by decide, by decide +kernel⟩
  obtain ⟨hresult, hexec, -⟩ := executeCommandsRun_exec hfits 0 [] []
  exact ⟨hresult, hexec, by decide +kernel⟩

/-! ## Commands in turn -/

/-- A command returns with its calls in order, or stops before it writes anything. -/
theorem executeCommandsRun_calls (env : RunEnv) (cmdData : IssueData) (w : Nat) :
    (∃ dirname path, ∃ calls ∈ [[], [.mkdir dirname true], [.mkdir dirname true, .fopen path true]],
      (executeCommandsRun env cmdData).run w = ⟨none, calls, w⟩) ∨
    ∃ dirname path unit, (executeCommandsRun env cmdData).run w = ⟨some (env.mkdir && env.fopen),
      commandCalls env dirname path (locatedCommand env cmdData.command dirname) unit cmdData.timeout, w⟩ := by
  unfold executeCommandsRun
  cases hmem : dirnameMem env.junk cmdData.rfcvalue env.rrdCmdThreadID env.locTime with
  | none => exact .inl ⟨[], [], [], by simp, rfl⟩
  | some mem =>
    cases hdir : stringIn mem with
    | none => exact .inl ⟨[], [], [], by simp, by simp only [hdir]; rfl⟩
    | some dirname =>
      simp only [hdir]
      rw [bind_run_of_some (emit_run _ w)]
      cases hmkdir : env.mkdir with
      | false => exact .inr ⟨dirname, [], [], by simp [commandCalls, hmkdir]⟩
      | true =>
        simp only [Bool.not_true, Bool.false_eq_true, if_false]
        cases hpath : (finalOutFileMem mem).bind stringIn with
        | none => exact .inl ⟨dirname, [], [.mkdir dirname true], by simp, rfl⟩
        | some path =>
          simp only []
          rw [bind_run_of_some (emit_run _ w)]
          cases hfopen : env.fopen with
          | false => exact .inr ⟨dirname, path, [], by simp [commandCalls, hmkdir, hfopen]⟩
          | true =>
            simp only [Bool.not_true, Bool.false_eq_true, if_false]
            cases hunit : (remoteDebuggerServiceMem cmdData.rfcvalue env.epochTime).bind stringIn with
            | none => exact .inl ⟨dirname, path, [.mkdir dirname true, .fopen path true], by simp, rfl⟩
            | some unit =>
              refine .inr ⟨dirname, path, unit, ?_⟩
              simp only []
              rw [bind_run_of_some (writeReport_run _ _ _ w), commandCalls, hmkdir, hfopen]
              simp

/-- The calls of a command are in order wherever it ends. -/
theorem exec_executeCommandsRun (env : RunEnv) (cmdData : IssueData) (w : Nat) (units : List Str)
    (finished : List (Str × Str)) :
    ∃ s, exec RunState.step (.idle units finished) ((executeCommandsRun env cmdData).run w).events = some s ∧
      ∀ ok, ((executeCommandsRun env cmdData).run w).result = some ok → ∃ units' reports,
        s = .idle units' (finished ++ reports) ∧ reports.length = [ok].count true ∧
        ∀ u ∈ units', u ∈ units ∨ .system (.systemctlStop u) false ∈ ((executeCommandsRun env cmdData).run w).events := by
  rcases executeCommandsRun_calls env cmdData w with ⟨dirname, path, calls, hcalls, hrun⟩ | ⟨dirname, path, unit, hrun⟩
  · rw [hrun]
    simp only [List.mem_cons, List.not_mem_nil, or_false] at hcalls
    rcases hcalls with rfl | rfl | rfl
    · exact ⟨_, rfl, nofun⟩
    · exact ⟨_, rfl, nofun⟩
    · exact ⟨_, rfl, nofun⟩
  · rw [hrun]
    refine ⟨_, exec_commandCalls units finished, fun ok hok => ?_⟩
    obtain rfl := Option.some.inj hok
    exact ⟨_, _, rfl, by cases env.mkdir <;> cases env.fopen <;> rfl, fun u hu => mem_commandCalls_of_unit hu⟩

/-- The commands that the daemon runs do not overlap, wherever they end: their calls are in
order. Where they return, nothing is open, each that returns true finished one report, and a
unit that may still run was there before or is one that could not be stopped. -/
theorem runCommands_exec (envs : Nat → RunEnv) (k : Nat) (es : List Effect) (w : Nat) (units : List Str)
    (finished : List (Str × Str)) :
    ∃ s, exec RunState.step (.idle units finished) ((runCommands envs k es).run w).events = some s ∧
      ∀ oks, ((runCommands envs k es).run w).result = some oks → ∃ units' reports,
        s = .idle units' (finished ++ reports) ∧ reports.length = oks.count true ∧
        ∀ u ∈ units', u ∈ units ∨ .system (.systemctlStop u) false ∈ ((runCommands envs k es).run w).events := by
  induction es generalizing k w units finished with
  | nil =>
    refine ⟨_, rfl, fun oks hoks => ⟨units, [], ?_, ?_, fun u hu => .inl hu⟩⟩
    · rw [List.append_nil]
    · obtain rfl := Option.some.inj hoks
      rfl
  | cons e es ih =>
    cases e with
    | executeCommands cmdinfo =>
      obtain ⟨s, hexec, hleft⟩ := exec_executeCommandsRun (envs k) cmdinfo w units finished
      rw [runCommands]
      rcases hrun : (executeCommandsRun (envs k) cmdinfo).run w with ⟨_ | ok, calls, w₁⟩
      · rw [hrun] at hexec
        rw [bind_run_of_none hrun]
        exact ⟨s, hexec, nofun⟩
      · rw [hrun] at hexec hleft
        obtain ⟨units₁, reports, rfl, hcount, hunits⟩ := hleft ok rfl
        obtain ⟨s', hexec', hleft'⟩ := ih (k + 1) w₁ units₁ (finished ++ reports)
        rw [bind_run_of_some hrun]
        rcases hrest : (runCommands envs (k + 1) es).run w₁ with ⟨_ | oks, calls', w₂⟩
        · rw [hrest] at hexec'
          rw [bind_run_of_none hrest]
          exact ⟨s', exec_append hexec hexec', nofun⟩
        · rw [hrest] at hexec' hleft'
          rw [bind_run_of_some hrest]
          obtain ⟨units', reports', rfl, hcount', hunits'⟩ := hleft' oks rfl
          simp only [pure_run, List.append_nil]
          refine ⟨_, exec_append hexec hexec', fun oks' hoks => ⟨units', reports ++ reports', ?_, ?_, fun u hu => ?_⟩⟩
          · rw [List.append_assoc]
          · obtain rfl := Option.some.inj hoks
            rw [List.length_append, hcount, hcount', ← List.count_append]
            rfl
          · rcases hunits' u hu with hu | hstop
            · exact (hunits u hu).imp_right (List.mem_append_left _)
            · exact .inr (List.mem_append_right _ hstop)
    | _ =>
      simp only [runCommands]
      exact ih k.succ w units finished

end RRD
