import RemoteDebugger.Proof.Execute.RunReport
import RemoteDebugger.Proof.Upload.Sent
import RemoteDebugger.Spec.Delivery

/-!
# What a command writes is uploaded

* `Writing.run`: while a report is open, it grows by what is written to it;
* `command_delivers`, `commands_deliver`: after the commands their reports are on
  the disk, whatever other programs do there;
* `reports_uploaded`: and in the archive that is uploaded.
-/

namespace RRD

open Framework Framework.Prog

variable {cwd : List Str} {s s' : DiskState} {tr : List (DiskState × RunEffect)} {env : RunEnv}
  {reports : List (Str × Str)} {name text : Str}

/-! ## Names -/

theorem slash_notMem_decimal (w n : Nat) : ch '/' ∉ decimal w n := fun h => absurd (decimal_stamp w n _ h) (by decide)

/-- The name of the directory of a command. -/
theorem dated_commandDir {rfcvalue : Str} (h : ch '/' ∉ rfcvalue) : Dated (commandDir env rfcvalue) := by
  have hline : ch '/' ∉ str "_" := by decide
  have hdash : ch '/' ∉ str "-" := by decide
  constructor
  · simp [commandDir, dirText, timeText, slash_notMem_decimal, h, hline, hdash]
  · have hmem : ch '-' ∈ str "-" := by decide
    simp [commandDir, timeText, hmem]

theorem components_dated (h : Dated name) : components name = [name] := strtok_of_notMem h.no_slash h.ne_nil

theorem components_report (h : Dated name) : components (name ++ str "/" ++ rrdOutputFile) = [name, rrdOutputFile] := by
  have hcons : name ++ str "/" ++ rrdOutputFile = name ++ ch '/' :: rrdOutputFile := by
    rw [List.append_assoc]
    rfl
  rw [components, hcons, strtok_append h.no_slash h.ne_nil, strtok_of_notMem (by decide) (by decide)]

theorem dir_ne_report (cwd : List Str) (a b c : Str) : cwd ++ [a] ≠ cwd ++ [b, c] := by simp

/-- A report is written. -/
theorem write_report (disk : FileSystem) (cwd : List Str) (name text : Str) :
    disk.write (cwd ++ [name, rrdOutputFile]) text (cwd ++ [name, rrdOutputFile]) = some (.file text) :=
  Function.update_self ..

theorem write_directory (disk : FileSystem) (cwd : List Str) (name name' text : Str) :
    disk.write (cwd ++ [name, rrdOutputFile]) text (cwd ++ [name']) = disk (cwd ++ [name']) :=
  Function.update_of_ne (dir_ne_report _ _ _ _) _ _

/-! ## Files -/

theorem OnDisk.write {disk : FileSystem} {report : Str × Str} (h : OnDisk cwd disk report)
    (hne : report.1 ≠ name ++ str "/" ++ rrdOutputFile) :
    OnDisk cwd (disk.write (cwd ++ [name, rrdOutputFile]) text) report := by
  obtain ⟨name', hname, hpath, hdir, hfile⟩ := h
  have hother : name' ≠ name := fun heq => hne (heq ▸ hpath)
  refine ⟨name', hname, hpath, ?_, ?_⟩
  · exact (write_directory ..).trans hdir
  · rw [Disk.write, Function.update_of_ne (by simp [hother])]
    exact hfile

theorem OnDisk.mkdir {disk : FileSystem} {report : Str × Str} (h : OnDisk cwd disk report)
    (hnone : disk (cwd ++ [name]) = none) :
    OnDisk cwd (Function.update disk (cwd ++ [name]) (some .directory)) report ∧
      report.1 ≠ name ++ str "/" ++ rrdOutputFile := by
  obtain ⟨name', hname, hpath, hdir, hfile⟩ := h
  have hother : name' ≠ name := by
    rintro rfl
    rw [hdir] at hnone
    cases hnone
  refine ⟨⟨name', hname, hpath, ?_, ?_⟩, ?_⟩
  · rw [Function.update_of_ne (by simp [hother])]
    exact hdir
  · rw [Function.update_of_ne (dir_ne_report _ _ _ _).symm]
    exact hfile
  · rw [hpath]
    simpa using hother

/-! ## An open report -/

/-- The report in the directory `name` is open with this text, and not one of those
that are delivered. -/
structure Writing (cwd : List Str) (name text : Str) (reports : List (Str × Str)) (s : DiskState) : Prop where
  opened : s.opened = some (cwd ++ [name, rrdOutputFile])
  directory : s.disk (cwd ++ [name]) = some .directory
  file : s.disk (cwd ++ [name, rrdOutputFile]) = some (.file text)
  fresh : ∀ report ∈ reports, report.1 ≠ name ++ str "/" ++ rrdOutputFile
  delivered : Delivered cwd s.disk reports

/-- The bytes of the writes among some calls. -/
def bytesOf (events : List RunEffect) : Str := events.flatMap fun
  | .write bytes => bytes
  | _ => []

/-- A call that neither makes a file nor closes one. -/
def RunEffect.Within : RunEffect → Prop
  | .mkdir _ _ | .fopen _ _ | .fclose => False
  | .write _ | .popen _ _ | .pclose | .sleep _ | .system _ _ => True

theorem Writing.others {disk : FileSystem} (h : Writing cwd name text reports s) (ho : Others cwd s.disk disk) :
    Writing cwd name text reports ⟨disk, s.opened⟩ :=
  ⟨h.opened, ho.directory _ h.directory, ho.report _ _ h.file, h.fresh, h.delivered.others ho⟩

theorem Writing.step {e : RunEffect} (h : Writing cwd name text reports s) (he : e.Within) (hs : DiskStep cwd s e s') :
    Writing cwd name (text ++ bytesOf [e]) reports s' := by
  obtain ⟨s₁, hcall, hothers, hopened⟩ := hs
  have hwriting : Writing cwd name (text ++ bytesOf [e]) reports s₁ := by
    cases e with
    | write bytes =>
      simp only [diskCall, h.opened, h.file, Option.some.injEq] at hcall
      subst hcall
      refine ⟨rfl, ?_, ?_, h.fresh, fun report hreport => (h.delivered report hreport).write (h.fresh report hreport)⟩
      · exact (write_directory ..).trans h.directory
      · exact (write_report ..).trans (by rw [bytesOf, List.flatMap_singleton])
    | mkdir | fopen | fclose => exact he.elim
    | popen | pclose | sleep | system =>
      cases hcall
      rwa [bytesOf, List.flatMap_singleton, List.append_nil]
  have hother := hwriting.others hothers
  rwa [← hopened] at hother

theorem bytesOf_cons (e : RunEffect) (events : List RunEffect) : bytesOf (e :: events) = bytesOf [e] ++ bytesOf events := by
  rw [bytesOf, List.flatMap_cons, bytesOf, List.flatMap_singleton, bytesOf]

/-- While a report is open, it grows by what is written to it. -/
theorem Writing.run (h : Writing cwd name text reports s) (hr : Run (DiskStep cwd) s tr s')
    (htr : ∀ p ∈ tr, p.2.Within) : Writing cwd name (text ++ bytesOf (tr.map Prod.snd)) reports s' := by
  induction hr generalizing text with
  | nil =>
    rw [List.map_nil, bytesOf, List.flatMap_nil, List.append_nil]
    exact h
  | cons hs _ ih =>
    obtain ⟨he, htr⟩ := List.forall_mem_cons.mp htr
    rw [List.map_cons, bytesOf_cons, ← List.append_assoc]
    exact ih (h.step he hs) htr

/-- A report that is closed is delivered. -/
theorem Writing.onDisk (h : Writing cwd name text reports s) (hname : Dated name) :
    Delivered cwd s.disk (reports ++ [(name ++ str "/" ++ rrdOutputFile, text)]) := by
  refine List.forall_mem_append.mpr ⟨h.delivered, fun report hreport => ?_⟩
  rw [List.mem_singleton.mp hreport]
  exact ⟨name, hname, rfl, h.directory, h.file⟩

/-! ## The calls of a command -/

theorem outputEvents_within (env : RunEnv) (command : ShellCommand) : ∀ e ∈ outputEvents env command, e.Within := by
  rw [outputEvents]
  cases env.popen command with
  | none => exact fun e he => List.mem_singleton.mp he ▸ trivial
  | some source =>
    refine List.forall_mem_append.mpr ⟨List.forall_mem_cons.mpr ⟨trivial, fun e he => ?_⟩, fun e he => ?_⟩
    · obtain ⟨bytes, -, rfl⟩ := List.mem_map.mp he
      trivial
    · rw [List.mem_singleton.mp he]
      trivial

theorem bytesOf_append (events events' : List RunEffect) : bytesOf (events ++ events') = bytesOf events ++ bytesOf events' :=
  List.flatMap_append

theorem bytesOf_outputEvents (env : RunEnv) (command : ShellCommand) :
    bytesOf (outputEvents env command) = env.output command := by
  rw [outputEvents, RunEnv.output]
  cases env.popen command with
  | none => rfl
  | some source =>
    have hwrites (bss : List Str) : bytesOf (bss.map .write) = bss.flatten := by
      rw [bytesOf, List.flatMap_map]
      exact List.flatMap_id'
    have hend : bytesOf [.pclose] = [] := rfl
    have hstart : bytesOf [.popen command true] = [] := rfl
    rw [bytesOf_append, bytesOf_cons, hwrites, hstart, hend, List.nil_append, List.append_nil]

/-- The calls between the opening and the closing of a report write its text. -/
def textEvents (env : RunEnv) (command unit : Str) : List RunEffect :=
  .write (reportHeader command) :: outputEvents env (.systemdRun unit (removeQuotes command)) ++
    outputEvents env (.journalctl unit)

theorem textEvents_within (command unit : Str) : ∀ e ∈ textEvents env command unit, e.Within := by
  refine List.forall_mem_append.mpr ⟨List.forall_mem_cons.mpr ⟨trivial, ?_⟩, ?_⟩
  · exact outputEvents_within _ _
  · exact outputEvents_within _ _

theorem bytesOf_textEvents (command unit : Str) : bytesOf (textEvents env command unit) = reportText env command unit := by
  rw [textEvents, bytesOf_append, bytesOf_cons, bytesOf_outputEvents, bytesOf_outputEvents, reportText, bytesOf,
    List.flatMap_singleton]

/-- A run cut where its calls are cut. -/
theorem run_calls_append {events events' : List RunEffect} (hr : Run (DiskStep cwd) s tr s')
    (htr : tr.map Prod.snd = events ++ events') : ∃ s₁ tr₁ tr₂, Run (DiskStep cwd) s tr₁ s₁ ∧
      tr₁.map Prod.snd = events ∧ Run (DiskStep cwd) s₁ tr₂ s' ∧ tr₂.map Prod.snd = events' := by
  obtain ⟨tr₁, tr₂, rfl, h1, h2⟩ := List.map_eq_append_iff.mp htr
  obtain ⟨s₁, hr1, hr2⟩ := Run.append_iff.mp hr
  exact ⟨s₁, tr₁, tr₂, hr1, h1, hr2, h2⟩

theorem run_calls_cons {e : RunEffect} {events : List RunEffect} (hr : Run (DiskStep cwd) s tr s')
    (htr : tr.map Prod.snd = e :: events) : ∃ s₁ tr', DiskStep cwd s e s₁ ∧ Run (DiskStep cwd) s₁ tr' s' ∧
      tr'.map Prod.snd = events := by
  cases hr with
  | nil => cases htr
  | cons hs hr =>
    obtain ⟨he, hrest⟩ := List.cons.inj htr
    subst he
    exact ⟨_, _, hs, hr, hrest⟩

/-- A call that changes no file. -/
def RunEffect.Still : RunEffect → Prop
  | .fclose | .popen _ _ | .pclose | .sleep _ | .system _ _ => True
  | .mkdir _ ok | .fopen _ ok => ok = false
  | .write _ => False

theorem Delivered.still {e : RunEffect} (h : Delivered cwd s.disk reports) (he : e.Still) (hs : DiskStep cwd s e s') :
    Delivered cwd s'.disk reports := by
  obtain ⟨s₁, hcall, hothers, -⟩ := hs
  have hdisk : s₁.disk = s.disk := by
    cases e with
    | mkdir dirname ok | fopen path ok =>
      obtain rfl : ok = false := he
      cases hcall
      rfl
    | write => exact he.elim
    | popen | pclose | fclose | sleep | system =>
      cases hcall
      rfl
  exact (hdisk ▸ h).others hothers

theorem Delivered.stills (h : Delivered cwd s.disk reports) (hr : Run (DiskStep cwd) s tr s')
    (htr : ∀ e ∈ tr.map Prod.snd, e.Still) : Delivered cwd s'.disk reports := by
  induction hr with
  | nil => exact h
  | cons hs _ ih =>
    obtain ⟨he, htr⟩ := List.forall_mem_cons.mp htr
    exact ih (h.still he hs) htr

/-- The calls of a report that is opened. -/
theorem reportEvents_delivers {command unit : Str} {timeout : Int} (h : Writing cwd name [] reports s) (hname : Dated name)
    (hr : Run (DiskStep cwd) s tr s') (htr : tr.map Prod.snd = reportEvents env command unit timeout) :
    Delivered cwd s'.disk (reports ++ [(name ++ str "/" ++ rrdOutputFile, reportText env command unit)]) := by
  have hcut : tr.map Prod.snd = textEvents env command unit ++
      [.fclose, .sleep (sleepArgument timeout), .system (.systemctlStop unit) (env.system (.systemctlStop unit))] := htr
  obtain ⟨s₁, tr₁, tr₂, hr1, h1, hr2, h2⟩ := run_calls_append hr hcut
  have hwithin : ∀ p ∈ tr₁, p.2.Within := fun p hp =>
    textEvents_within command unit _ (h1 ▸ List.mem_map_of_mem hp)
  have hwriting := h.run hr1 hwithin
  rw [h1, bytesOf_textEvents, List.nil_append] at hwriting
  refine (hwriting.onDisk hname).stills hr2 fun e he => ?_
  rw [h2] at he
  simp only [List.mem_cons, List.not_mem_nil, or_false] at he
  rcases he with rfl | rfl | rfl <;> trivial

/-- The label fits the arrays, and names one directory. -/
structure CommandFits (env : RunEnv) (cmdinfo : IssueData) : Prop where
  label : LabelFits env cmdinfo.rfcvalue
  no_slash : ch '/' ∉ cmdinfo.rfcvalue

/-- After a command, its report is on the disk with those before it. -/
theorem command_delivers {cmdinfo : IssueData} {w : Nat} (hfit : CommandFits env cmdinfo)
    (h : Delivered cwd s.disk reports) (hr : Run (DiskStep cwd) s tr s')
    (htr : tr.map Prod.snd = ((executeCommandsRun env cmdinfo).run w).events) :
    Delivered cwd s'.disk (reports ++ finishedReports env cmdinfo) := by
  obtain ⟨mem, hmem, hdir, hpath, hunit⟩ := hfit.label.names
  have hname : Dated (commandDir env cmdinfo.rfcvalue) := dated_commandDir hfit.no_slash
  rw [executeCommandsRun_run hmem hdir hpath hunit] at htr
  obtain ⟨s₁, tr₁, hmkdir, hr, htr⟩ := run_calls_cons hr htr
  rw [finishedReports]
  cases hok : env.mkdir with
  | false =>
    rw [hok] at hmkdir htr
    obtain rfl := List.map_eq_nil_iff.mp htr
    cases hr
    rw [Bool.false_and, if_neg Bool.false_ne_true, List.append_nil]
    exact h.still (e := .mkdir _ false) rfl hmkdir
  | true =>
    rw [hok, if_pos rfl] at htr
    rw [hok] at hmkdir
    obtain ⟨s₂, tr₂, hopen, hr, htr⟩ := run_calls_cons hr htr
    obtain ⟨s', hcall, hothers, -⟩ := hmkdir
    simp only [diskCall, if_true, components_dated hname, Option.ite_none_right_eq_some, Option.some.injEq] at hcall
    obtain ⟨hnone, rfl⟩ := hcall
    -- the directory is new, so the report is none of those before
    have hbefore := fun report hreport => (h report hreport).mkdir hnone
    have hnew : Delivered cwd s₁.disk reports := Delivered.others (fun r hr => (hbefore r hr).1) hothers
    have hdirectory : s₁.disk (cwd ++ [commandDir env cmdinfo.rfcvalue]) = some .directory :=
      hothers.directory _ (Function.update_self ..)
    cases hok' : env.fopen with
    | false =>
      rw [hok'] at hopen htr
      obtain rfl := List.map_eq_nil_iff.mp htr
      cases hr
      rw [Bool.and_false, if_neg Bool.false_ne_true, List.append_nil]
      exact hnew.still (e := .fopen _ false) rfl hopen
    | true =>
      rw [hok'] at hopen
      rw [hok', if_pos rfl] at htr
      obtain ⟨s', hcall, hothers', hopened⟩ := hopen
      simp only [diskCall, if_true, components_report hname, Option.some.injEq] at hcall
      subst hcall
      have hfresh := fun report hreport => (hbefore report hreport).2
      have hwriting : Writing cwd (commandDir env cmdinfo.rfcvalue) [] reports
          ⟨s₁.disk.write (cwd ++ [commandDir env cmdinfo.rfcvalue, rrdOutputFile]) [],
            some (cwd ++ [commandDir env cmdinfo.rfcvalue, rrdOutputFile])⟩ := by
        exact ⟨rfl, (write_directory ..).trans hdirectory, write_report .., hfresh,
          fun r hr => (hnew r hr).write (hfresh r hr)⟩
      have hother := hwriting.others hothers'
      rw [← hopened] at hother
      exact reportEvents_delivers hother hname hr htr

/-- The reports of the commands among some effects. -/
def finishedBy (envs : Nat → RunEnv) : Nat → List Effect → List (Str × Str)
  | _, [] => []
  | k, .executeCommands cmdinfo :: es => finishedReports (envs k) cmdinfo ++ finishedBy envs (k + 1) es
  | k, _ :: es => finishedBy envs (k + 1) es

/-- After the commands, their reports are on the disk, whatever other programs do. -/
theorem commands_deliver {envs : Nat → RunEnv} {k w : Nat} {es : List Effect}
    (hfit : ∀ cmdinfo, .executeCommands cmdinfo ∈ es → ∀ k, CommandFits (envs k) cmdinfo)
    (h : Delivered cwd s.disk reports) (hr : Run (DiskStep cwd) s tr s')
    (htr : tr.map Prod.snd = ((runCommands envs k es).run w).events) :
    Delivered cwd s'.disk (reports ++ finishedBy envs k es) := by
  induction es generalizing k w s tr reports with
  | nil =>
    obtain rfl := List.map_eq_nil_iff.mp htr
    cases hr
    rw [finishedBy, List.append_nil]
    exact h
  | cons e es ih =>
    have hrest : ∀ cmdinfo, .executeCommands cmdinfo ∈ es → ∀ k, CommandFits (envs k) cmdinfo :=
      fun cmdinfo hmem => hfit cmdinfo (List.mem_cons_of_mem _ hmem)
    cases e with
    | executeCommands cmdinfo =>
      have hfits := hfit cmdinfo List.mem_cons_self k
      obtain ⟨mem, hmem, hdir, hpath, hunit⟩ := hfits.label.names
      have hcommand := executeCommandsRun_run hmem hdir hpath hunit w
      have hevents : ((runCommands envs k (.executeCommands cmdinfo :: es)).run w).events =
          ((executeCommandsRun (envs k) cmdinfo).run w).events ++ ((runCommands envs (k + 1) es).run w).events := by
        rw [runCommands, bind_run_of_some hcommand, hcommand, events_bind_pure]
      rw [hevents] at htr
      obtain ⟨s₁, tr₁, tr₂, hr1, h1, hr2, h2⟩ := run_calls_append hr htr
      rw [finishedBy, ← List.append_assoc]
      exact ih hrest (command_delivers hfits h hr1 h1) hr2 h2
    | _ =>
      simp only [runCommands] at htr
      exact ih hrest h hr htr

/-! ## The upload -/

/-- Where the live logs are moved, no report is. -/
theorem replay_moved (dir : ReportDir) {pre : List UploadEffect} (hpre : ∀ e ∈ pre, e.MovesLiveLogs dir.path)
    (hname : Dated name) (disk : FileSystem) :
    replay disk pre (components dir.path ++ [name, rrdOutputFile]) = disk (components dir.path ++ [name, rrdOutputFile]) := by
  have hpath : dir.path ++ str "/RRD_LIVE_LOGS.tar.gz" = dir.path ++ ch '/' :: str "RRD_LIVE_LOGS.tar.gz" := rfl
  have hlive : components liveLogsFile = [str "tmp", str "rrd", str "RRD_LIVE_LOGS.tar.gz"] := by decide
  induction pre generalizing disk with
  | nil => rfl
  | cons e pre ih =>
    obtain ⟨he, hpre⟩ := List.forall_mem_cons.mp hpre
    refine (ih hpre (e.apply disk)).trans ?_
    rw [he, UploadEffect.apply, dir.liveLogs_path, hpath, dir.components_child (by decide) (by decide), hlive,
      dir.components_path, Disk.rename_of_not_isPrefix]
    · intro h
      -- the name of a command's directory has a dash
      have hname' : str "RRD_LIVE_LOGS.tar.gz" = name := by simpa using h
      exact absurd (hname' ▸ hname.dash) (by decide)
    · intro h
      have hdir : str "RRD_LIVE_LOGS.tar.gz" = dir.name := by simpa using h
      exact dir.notMem_name (c := ch '.') (by decide) (hdir ▸ by decide)

/-- A report is an entry of an archive of its directory. -/
theorem report_entry {disk : FileSystem} {d : Directory} {t : Tree} (hname : Dated name)
    (hfile : disk (cwd ++ [name, rrdOutputFile]) = some (.file text)) (ht : t.Holds d disk cwd) :
    ∃ e ∈ t.entries [], e.name = name ++ str "/" ++ rrdOutputFile ∧ e.data = text := by
  obtain ⟨f, hat, hcontents⟩ := ht _ _ hfile
  obtain ⟨e, he, hentry, hdata⟩ := mem_entries_of_at (by simp) hat []
  have hjoin : [name, rrdOutputFile].foldl join [] = name ++ str "/" ++ rrdOutputFile := by
    simp only [List.foldl_cons, List.foldl_nil, join, if_true, if_neg hname.ne_nil, List.append_assoc]
    rfl
  exact ⟨e, he, hentry.trans hjoin, hdata.trans hcontents⟩

/-- What the commands of an issue write into their reports is in the archive that is
uploaded for it, whole and under its path, whatever other programs do meanwhile:
if an upload goes out while the directory, with every file in it, is at rest. -/
theorem reports_uploaded (dir : ReportDir) {envs : Nat → RunEnv} {es : List Effect} {k w : Nat}
    (hfit : ∀ cmdinfo, .executeCommands cmdinfo ∈ es → ∀ k, CommandFits (envs k) cmdinfo)
    (hr : Run (DiskStep (components dir.path)) s tr s')
    (htr : tr.map Prod.snd = ((runCommands envs k es).run w).events)
    {env : UploadEnv} {cfg : Config} {issuename outpath : Str} {pre after : List UploadEffect} {out : List Chunk}
    {params : UploadSTBLogsParams} (hiarm : cfg.iarm)
    (hup : ((uploadDebugoutput env cfg dir.path issuename).run s'.disk).events =
      pre ++ .archive outpath out :: .uploadstblogsRun params :: after)
    {d : Directory} {t : Tree} (hs : (env.source (replay s'.disk pre)).Shows d t)
    (ht : t.Holds d (replay s'.disk pre) (components dir.path)) (hf : Fits (t.entries [])) :
    ∃ contents entries, replay s'.disk (pre ++ [.archive outpath out]) (components params.rrdFile) = some (.file contents) ∧
      Ustar.read contents = some entries ∧
      ∀ report ∈ finishedBy envs k es, ∃ e ∈ entries, e.name = report.1 ∧ e.data = report.2 := by
  have hdelivered : Delivered (components dir.path) s'.disk ([] ++ finishedBy envs k es) :=
    commands_deliver hfit (by simp [Delivered]) hr htr
  rw [uploadDebugoutput, if_pos hiarm] at hup
  have hcut : pre ++ .archive outpath out :: .uploadstblogsRun params :: after =
      (pre ++ [.archive outpath out]) ++ .uploadstblogsRun params :: after := by
    rw [List.append_assoc]
    rfl
  obtain ⟨pre', name, out', ⟨hmoved, hcreated, hsent, -⟩, hbefore, -⟩ :=
    (orchestrate_sendsOrFails env dir.path (normalizeIssueName issuename) s'.disk).of_upload (hup.trans hcut)
  obtain ⟨rfl, harchive⟩ := List.append_inj' hbefore rfl
  cases harchive
  refine ⟨_, _, hsent, archive_reads_back hs hf hcreated, fun report hreport => ?_⟩
  obtain ⟨name', hname, hpath, -, hfile⟩ := hdelivered report hreport
  rw [hpath]
  exact report_entry hname ((replay_moved dir hmoved hname s'.disk).trans hfile) ht

/-! ## A report that is delivered -/

/-- A device on which no pipe can be opened. -/
def quietRunEnv : RunEnv := { pingRunEnv with popen := fun _ => none }

def pingName : Str := commandDir quietRunEnv pingCommand.rfcvalue

def pingText : Str := reportHeader pingCommand.command

def pingFile : RegularFile := ⟨⟨0o100644, 0, 0, 50, 0⟩, pingText, by decide, by decide +kernel⟩

/-- The directory with the report of the command. -/
def pingTree : Tree :=
  .dir ⟨pingName, by decide, by decide +kernel, by decide +kernel, by decide +kernel⟩
    ⟨⟨0o040755, 0, 0, 60, 0⟩, by decide⟩
    (.file ⟨rrdOutputFile, by decide, by decide, by decide, by decide⟩ pingFile .nil) .nil

def pingReport : List Str := components pingDir.path ++ [pingName, rrdOutputFile]

/-- The disk after the command. -/
def reportedDisk : FileSystem :=
  Disk.write (Disk.write (Function.update pingDisk (components pingDir.path ++ [pingName]) (some .directory)) pingReport [])
    pingReport pingText

def pingEffects : List Effect := [.executeCommands pingCommand, .uploadDebugoutput pingDir.path (str "Network.Ping")]

theorem reportedDisk_run : ∃ tr, Run (DiskStep (components pingDir.path)) ⟨pingDisk, none⟩ tr ⟨reportedDisk, none⟩ ∧
    tr.map Prod.snd = ((runCommands (fun _ => quietRunEnv) 0 pingEffects).run 0).events := by
  let unit : Str := commandUnit quietRunEnv pingCommand.rfcvalue
  have hevents : ((runCommands (fun _ => quietRunEnv) 0 pingEffects).run 0).events =
      [.mkdir pingName true, .fopen (pingName ++ str "/" ++ rrdOutputFile) true, .write pingText,
        .popen (.systemdRun unit (removeQuotes pingCommand.command)) false, .popen (.journalctl unit) false, .fclose,
        .sleep 10, .system (.systemctlStop unit) true] := by decide +kernel
  have hname : Dated pingName := dated_commandDir (by decide)
  have hcall {cwd : List Str} {s s' : DiskState} {e : RunEffect} (h : diskCall cwd s e = some s') : DiskStep cwd s e s' :=
    ⟨s', h, .refl _ _, rfl⟩
  have hnone : pingDisk (components pingDir.path ++ [pingName]) = none := by decide +kernel
  let made : DiskState := ⟨Function.update pingDisk (components pingDir.path ++ [pingName]) (some .directory), none⟩
  let empty : DiskState := ⟨Disk.write made.disk pingReport [], some pingReport⟩
  let filled : DiskState := ⟨reportedDisk, some pingReport⟩
  let closed : DiskState := ⟨reportedDisk, none⟩
  have hmkdir : diskCall (components pingDir.path) ⟨pingDisk, none⟩ (.mkdir pingName true) = some made := by
    simp only [diskCall, if_true, components_dated hname, hnone]
    rfl
  have hopen : diskCall (components pingDir.path) made (.fopen (pingName ++ str "/" ++ rrdOutputFile) true) = some empty := by
    simp only [diskCall, if_true, components_report hname]
    rfl
  have hwrite : diskCall (components pingDir.path) empty (.write pingText) = some filled := by
    simp only [diskCall, empty]
    rfl
  have hclose : diskCall (components pingDir.path) filled .fclose = some closed := rfl
  rw [hevents]
  exact ⟨_, .cons (hcall hmkdir) (.cons (hcall hopen) (.cons (hcall hwrite) (.cons (hcall rfl) (.cons (hcall rfl)
    (.cons (hcall hclose) (.cons (hcall rfl) (.cons (hcall rfl) (.nil closed)))))))), rfl⟩

theorem pingTree_holds {d : Directory} : pingTree.Holds d reportedDisk (components pingDir.path) := by
  intro q contents h
  by_cases hreport : q = [pingName, rrdOutputFile]
  · subst hreport
    have hfile : reportedDisk (components pingDir.path ++ [pingName, rrdOutputFile]) = some (.file pingText) :=
      write_report ..
    cases hfile.symm.trans h
    exact ⟨pingFile, by simp [TreeItem.at, pingTree, Tree.item], rfl⟩
  · exfalso
    have hne : components pingDir.path ++ q ≠ pingReport := fun heq => hreport (List.append_cancel_left heq)
    rw [reportedDisk, Disk.write, Function.update_of_ne hne, Disk.write, Function.update_of_ne hne, Function.update_apply,
      pingDisk] at h
    split at h
    · cases h
    · split at h <;> cases h

/-- A device on which everything works, with that directory. -/
def deliveredEnv : UploadEnv :=
  { pingUploadEnv fun _ n => n with
    source := fun _ => ⟨true, some ⟨0o040755, 0, 0, 4096, 0⟩, none, pingTree.listing, ⟨true, true, [], false⟩,
      fun out => some (out.flatMap Chunk.bytes).length⟩ }

theorem reports_uploaded_ping : ∃ before params contents entries,
    replay reportedDisk before (components (UploadSTBLogsParams.rrdFile params)) = some (.file contents) ∧
      Ustar.read contents = some entries ∧
      ∃ e ∈ entries, e.name = pingName ++ str "/" ++ rrdOutputFile ∧ e.data = pingText := by
  obtain ⟨tr, hr, htr⟩ := reportedDisk_run
  let o := (uploadDebugoutput deliveredEnv (plainConfig true) pingDir.path (str "Network.Ping")).run reportedDisk
  have hzero : o.result = some 0 := by decide +kernel
  have hlen : o.events.length = 4 := by decide +kernel
  obtain ⟨rc, hrc, ⟨hfail, -⟩ | ⟨pre, name, out, params, -, hcalls, -⟩⟩ :=
    orchestrate_sendsOrFails deliveredEnv pingDir.path (normalizeIssueName (str "Network.Ping")) reportedDisk
  · exact absurd (Option.some.inj (hrc.symm.trans hzero)) hfail
  have hup : o.events = sentCalls pingDir.path pre name out params := hcalls
  obtain rfl : pre = [] := by
    rw [hup, sentCalls, List.length_append] at hlen
    exact List.eq_nil_of_length_eq_zero (Nat.add_right_cancel hlen)
  have hfit : ∀ cmdinfo, .executeCommands cmdinfo ∈ pingEffects → ∀ _ : Nat, CommandFits quietRunEnv cmdinfo := by
    intro cmdinfo hmem _
    simp only [pingEffects, List.mem_cons, Effect.executeCommands.injEq, List.not_mem_nil, or_false, reduceCtorEq] at hmem
    subst hmem
    exact ⟨⟨by decide, by decide +kernel⟩, by decide⟩
  have hs : (deliveredEnv.source (replay reportedDisk [])).Shows ⟨⟨0o040755, 0, 0, 4096, 0⟩, by decide⟩ pingTree :=
    ⟨rfl, rfl, rfl, observes_listing _, fun _ => rfl⟩
  obtain ⟨contents, entries, hsent, hread, hreports⟩ :=
    reports_uploaded pingDir hfit hr htr rfl hup hs pingTree_holds (by decide +kernel)
  exact ⟨_, params, contents, entries, hsent, hread,
    hreports (pingName ++ str "/" ++ rrdOutputFile, pingText) (by decide +kernel)⟩

end RRD
