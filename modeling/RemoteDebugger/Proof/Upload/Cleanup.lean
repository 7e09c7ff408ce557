import RemoteDebugger.Framework.Effects
import RemoteDebugger.Spec.Report

/-!
# What an upload leaves on disk

* `archiveFilename_isSome`: an issue type that is converted gives an archive name;
* `cleanupReport_run`: the cleanup removes the archive and the directory;
* `rrdUploadExecute_total`: an upload ends, in one way or another;
* `uploadArchive_removes`, `uploadArchive_keeps`: the report is removed where
  its archive is created, and stays where it is not;
* `rrdUploadOrchestrate_cleans_iff`: a report whose directory is there is
  removed exactly when the directory is still listed, the issue type is
  converted and the archive is created.
-/

namespace RRD

open Framework Framework.Prog

variable {env : UploadEnv} {disk : FileSystem} {dir : ReportDir} {issue : Str}

@[simp] theorem perform_run (e : UploadEffect) (disk : FileSystem) :
    (perform e).run disk = ⟨some (), [e], e.apply disk⟩ := rfl

/-! ## Names -/

theorem length_macAddress {size : Nat} {mac : Str} (h : rrdSysinfoGetMacAddress env size = some mac) :
    mac.length ≤ size - 1 := by
  rw [rrdSysinfoGetMacAddress] at h
  split at h
  · cases h
  · obtain ⟨_, -, rfl⟩ := Option.map_eq_some_iff.mp h
    exact List.length_take_le _ _

theorem length_timestamp {size : Nat} {ts : Str} (h : rrdSysinfoGetTimestamp env size = some ts) :
    ts.length ≤ size - 1 := by
  rw [rrdSysinfoGetTimestamp] at h
  split at h
  · cases h
  · obtain ⟨_, -, rfl⟩ := Option.map_eq_some_iff.mp h
    exact List.length_take_le _ _

theorem convertIssueType_eq_some_iff {size : Nat} {s : Str} : rrdLogprocConvertIssueType issue size = some s ↔
    issue.length < size ∧ s = (issue.filterMap convertByte).take (size - 1) := by
  rw [rrdLogprocConvertIssueType]
  split
  · simp only [reduceCtorEq, false_iff, not_and]
    omega
  · simp only [Option.some.injEq, eq_comm (a := s), Nat.lt_of_not_le ‹_›, true_and]

/-- The name of the archive for an issue type. -/
def archiveFilename (env : UploadEnv) (issueType : Str) : Option Str := do
  let macAddr ← rrdSysinfoGetMacAddress env 32
  let timestamp ← rrdSysinfoGetTimestamp env 32
  let issueTypeSanitized ← rrdLogprocConvertIssueType issueType 64
  rrdArchiveGenerateFilename macAddr issueTypeSanitized timestamp 256

/-- The parts of a name fit its buffer. -/
theorem generateFilename_eq {mac s ts : Str} (hmac : mac.length ≤ 31) (hs : s.length ≤ 63) (hts : ts.length ≤ 31) :
    rrdArchiveGenerateFilename mac s ts 256 = some (mac ++ str "_" ++ s ++ str "_" ++ ts ++ str "_RRD_DEBUG_LOGS.tgz") := by
  rw [rrdArchiveGenerateFilename, if_neg (by decide), if_neg]
  simp only [List.length_append, show (str "_").length = 1 from rfl, show (str "_RRD_DEBUG_LOGS.tgz").length = 19 from rfl]
  omega

theorem length_generateFilename {mac s ts name : Str} {size : Nat}
    (h : rrdArchiveGenerateFilename mac s ts size = some name) : name.length < size := by
  simp only [rrdArchiveGenerateFilename, Option.ite_none_left_eq_some, Option.some.injEq] at h
  obtain ⟨-, h, rfl⟩ := h
  exact Nat.lt_of_not_le h

/-- What was written and what is removed have one path. -/
theorem components_outpath {name : Str} (h : name.length < 256) :
    components (snprintf 8192 (rrdLogDir ++ ch '/' :: name)) = components (rrdLogDir ++ name) ∧
      snprintf 512 (rrdLogDir ++ name) = rrdLogDir ++ name := by
  have hlen : rrdLogDir.length = 9 := rfl
  have hcut (n : Nat) (s : Str) (hs : s.length < n) : snprintf n s = s := List.take_of_length_le (by omega)
  rw [hcut 8192 _ (by simp only [List.length_append, List.length_cons]; omega),
    hcut 512 _ (by simp only [List.length_append]; omega)]
  exact ⟨components_slash name, rfl⟩

/-! ## The parts of an upload -/

theorem cleanupReport_run (dir : ReportDir) (disk : FileSystem) {name : Str} (h : name.length < 256) :
    ((cleanupReport dir.path name).run disk).result = some () ∧
      ((cleanupReport dir.path name).run disk).world =
        (disk.unlink (components (rrdLogDir ++ name))).removeTree (components dir.path) := by
  obtain ⟨hcmd, hwords⟩ := dir.rm_words
  have hrm : (UploadEffect.system (snprintf 1024 (str "rm -rf " ++ dir.path))).apply =
      fun disk => disk.removeTree (components dir.path) := by
    funext disk
    rw [UploadEffect.apply, hcmd, hwords]
    rfl
  simp only [cleanupReport, rrdArchiveCleanup, rrdUploadCleanupSourceDir, (components_outpath h).2]
  rw [bind_run_of_some (perform_run _ _), perform_run, hrm]
  exact ⟨rfl, rfl⟩

theorem rrdUploadExecute_total (env : UploadEnv) (config : RrdConfig) (workingDir name : Str) :
    (rrdUploadExecute env config workingDir name).Total := by
  rw [rrdUploadExecute]
  split
  · exact .pure _
  · split
    · exact .pure _
    · split
      · exact .pure _
      · exact .bind (fun _ => rfl) fun _ => .pure _

/-- The archive is written at its path, where there is none if `gzopen` fails. -/
theorem createArchive_run (env : UploadEnv) (disk : FileSystem) (sourceDir name : Str) :
    ∃ es, (createArchive env sourceDir rrdLogDir name).run disk =
    ⟨some (rrdArchiveCreate env.host sourceDir (env.source disk)).1, es,
      if (env.source disk).gzopen then
        disk.write (components (snprintf 8192 (rrdLogDir ++ ch '/' :: name)))
          ((rrdArchiveCreate env.host sourceDir (env.source disk)).2.flatMap Chunk.bytes)
      else disk⟩ := by
  have hdir : rrdLogDir ≠ [] := by decide
  simp only [createArchive, hdir, ne_eq, not_false_iff, if_true]
  rw [bind_run_of_some (ask_run _ disk)]
  cases hgz : (env.source disk).gzopen with
  | false => exact ⟨_, rfl⟩
  | true =>
    rw [if_pos rfl, if_pos rfl, bind_run_of_some (perform_run _ _)]
    exact ⟨_, rfl⟩

/-- The directory and an archive of this name are gone. -/
def Removed (dirPath name : Str) (disk : FileSystem) : Prop :=
  disk (components dirPath) = none ∧ disk (components (rrdLogDir ++ name)) = none

/-- Whatever comes of the upload, the report is removed after it. -/
theorem uploadArchive_removes (config : RrdConfig) {name : Str} (hname : name.length < 256)
    (hrc : (rrdArchiveCreate env.host dir.path (env.source disk)).1 = 0) :
    Removed dir.path name ((uploadArchive env config dir.path name).run disk).world := by
  obtain ⟨es, hcreate⟩ := createArchive_run env disk dir.path name
  rw [hrc] at hcreate
  rw [uploadArchive, bind_run_of_some hcreate]
  simp only [ne_eq, not_true_eq_false, if_false]
  obtain ⟨result, es', disk', hexecute⟩ := (rrdUploadExecute_total env config rrdLogDir name).exists_run _
  rw [bind_run_of_some hexecute]
  obtain ⟨hr, hw⟩ := cleanupReport_run dir disk' hname
  have hclean : (cleanupReport dir.path name).run disk' = ⟨some (), ((cleanupReport dir.path name).run disk').events,
      (disk'.unlink (components (rrdLogDir ++ name))).removeTree (components dir.path)⟩ := by
    rw [← hr, ← hw]
  have hremoved : Removed dir.path name
      ((disk'.unlink (components (rrdLogDir ++ name))).removeTree (components dir.path)) :=
    ⟨Disk.removeTree_self, Disk.removeTree_none Disk.unlink_self⟩
  split
  · rwa [bind_run_of_some hclean]
  · rwa [bind_run_of_some hclean]

/-- When the creation of the archive fails, the directory stays, and so does
what was written of the archive. -/
theorem uploadArchive_keeps (config : RrdConfig) {name : Str} (hname : name.length < 256)
    (hdir : disk (components dir.path) ≠ none) (hrc : (rrdArchiveCreate env.host dir.path (env.source disk)).1 ≠ 0) :
    ((uploadArchive env config dir.path name).run disk).world (components dir.path) ≠ none ∧
      ((env.source disk).gzopen →
        ((uploadArchive env config dir.path name).run disk).world (components (rrdLogDir ++ name)) ≠ none) := by
  obtain ⟨es, hcreate⟩ := createArchive_run env disk dir.path name
  rw [uploadArchive, bind_run_of_some hcreate]
  simp only [hrc, ne_eq, not_false_iff, if_true]
  rw [(components_outpath hname).1]
  cases hgz : (env.source disk).gzopen with
  | false => exact ⟨hdir, fun h => absurd h Bool.false_ne_true⟩
  | true => exact ⟨Disk.write_ne_none hdir, fun _ => Disk.write_self_ne_none⟩

/-- The live logs go to a path below the directory, which stays. -/
theorem rename_liveLogs (hdir : disk (components dir.path) ≠ none) :
    (UploadEffect.rename liveLogsFile (snprintf 1024 (dir.path ++ str "/RRD_LIVE_LOGS.tar.gz"))).apply disk
      (components dir.path) ≠ none := by
  have hpath : dir.path ++ str "/RRD_LIVE_LOGS.tar.gz" = dir.path ++ ch '/' :: str "RRD_LIVE_LOGS.tar.gz" := rfl
  have hlive : components liveLogsFile = [str "tmp", str "rrd", str "RRD_LIVE_LOGS.tar.gz"] := by decide
  rw [UploadEffect.apply, dir.liveLogs_path, hpath, dir.components_child (by decide) (by decide), hlive, dir.components_path,
    Disk.rename_of_not_isPrefix, ← dir.components_path]
  · exact hdir
  · exact fun h => absurd h.length_le (by simp)
  · intro h
    -- the name of the live logs has dots
    have hname : str "RRD_LIVE_LOGS.tar.gz" = dir.name := by simpa using h
    exact dir.notMem_name (c := ch '.') (by decide) (hname ▸ by decide)

theorem checkLiveLogs_run (env : UploadEnv) (s : Str) (hdir : disk (components dir.path) ≠ none) :
    ∃ es disk', (checkLiveLogs env dir.path s).run disk = ⟨some (), es, disk'⟩ ∧ disk' (components dir.path) ≠ none := by
  rw [checkLiveLogs]
  split
  · have hask : (ask fun disk : FileSystem => ((disk (components liveLogsFile)).isSome, disk) :
        Prog FileSystem UploadEffect Bool).run disk = ⟨some (disk (components liveLogsFile)).isSome, [], disk⟩ := rfl
    obtain ⟨rc, es, disk', hrun, hkeep⟩ : ∃ rc es disk', (rrdLogprocHandleLiveLogs env dir.path).run disk =
        ⟨some rc, es, disk'⟩ ∧ disk' (components dir.path) ≠ none := by
      rw [rrdLogprocHandleLiveLogs, bind_run_of_some hask]
      split
      · exact ⟨_, _, _, rfl, hdir⟩
      · split
        · exact ⟨_, _, _, rfl, hdir⟩
        · rw [bind_run_of_some (perform_run _ _)]
          exact ⟨_, _, _, rfl, rename_liveLogs hdir⟩
    rw [bind_run_of_some hrun]
    exact ⟨_, _, rfl, hkeep⟩
  · exact ⟨[], disk, rfl, hdir⟩

/-! ## The orchestration -/

/-- The upload comes past the check of the directory. -/
structure Validated (env : UploadEnv) (dirPath : Str) (disk : FileSystem) : Prop where
  config : (rrdConfigLoad env.config).1 = 0
  mac : env.getEstbMac.isSome
  time : env.localtime.isSome
  source : ((rrdLogprocValidateSource env 0 dirPath).run disk).result = some 0

/-- Nothing of the report is left. -/
def Cleaned (env : UploadEnv) (dirPath issueType : Str) (disk : FileSystem) : Prop :=
  disk (components dirPath) = none ∧
    ∀ name, archiveFilename env issueType = some name → disk (components (rrdLogDir ++ name)) = none

/-- The archive of the directory is created, on the file system with the live logs moved. -/
def ArchiveCreated (env : UploadEnv) (dirPath issueType : Str) (disk : FileSystem) : Prop :=
  ∀ s, rrdLogprocConvertIssueType issueType 64 = some s →
    (rrdArchiveCreate env.host dirPath (env.source ((checkLiveLogs env dirPath s).run disk).world)).1 = 0

/-- A check of the directory changes nothing. -/
theorem validateSource_run (env : UploadEnv) (disk : FileSystem) (k : Nat) (dirPath : Str) :
    ∃ rc, (rrdLogprocValidateSource env k dirPath).run disk =
    ⟨some rc, [], disk⟩ ∧ (rc = 0 → disk (components dirPath) = some .directory) := by
  refine ⟨_, rfl, fun h => ?_⟩
  by_contra hno
  simp only [hno, if_false] at h
  exact absurd h (by decide)

/-- The directory of a validated report is there. -/
theorem Validated.directory (h : Validated env dir.path disk) : disk (components dir.path) ≠ none := by
  obtain ⟨rc, hrun, hrc⟩ := validateSource_run env disk 0 dir.path
  have hsource := h.source
  rw [hrun] at hsource
  rw [hrc (Option.some.inj hsource)]
  exact Option.some_ne_none _

/-- After the check the directory is checked once more, and the issue is uploaded. -/
theorem rrdUploadOrchestrate_run (h : Validated env dir.path disk) (issue : Str) :
    ∃ config mac ts, rrdSysinfoGetMacAddress env 32 = some mac ∧ rrdSysinfoGetTimestamp env 32 = some ts ∧
      (rrdUploadOrchestrate env (some dir.path) (some issue)).run disk =
        if ((rrdLogprocPrepareLogs env 1 dir.path).run disk).result = some 0 then
          (uploadIssue env config mac ts dir.path issue).run disk
        else ⟨some 7, [], disk⟩ := by
  obtain ⟨mac, hmac⟩ : ∃ mac, rrdSysinfoGetMacAddress env 32 = some mac := by
    obtain ⟨mac, hmac⟩ := Option.isSome_iff_exists.mp h.mac
    exact ⟨_, by rw [rrdSysinfoGetMacAddress, if_neg (by decide), hmac]; rfl⟩
  obtain ⟨ts, hts⟩ : ∃ ts, rrdSysinfoGetTimestamp env 32 = some ts := by
    obtain ⟨tm, htm⟩ := Option.isSome_iff_exists.mp h.time
    exact ⟨_, by rw [rrdSysinfoGetTimestamp, if_neg (by decide), htm]; rfl⟩
  refine ⟨(rrdConfigLoad env.config).2, mac, ts, hmac, hts, ?_⟩
  obtain ⟨rc, hrun, -⟩ := validateSource_run env disk 0 dir.path
  obtain ⟨rc', hrun', -⟩ := validateSource_run env disk 1 dir.path
  have hsource := h.source
  rw [hrun] at hsource
  cases hsource
  simp only [rrdUploadOrchestrate, h.config, hmac, hts, ne_eq, not_true_eq_false, if_false]
  rw [bind_run_of_some hrun]
  simp only [not_true_eq_false, if_false]
  rw [rrdLogprocPrepareLogs, bind_run_of_some hrun', hrun']
  by_cases hrc : rc' = 0
  · simp only [hrc, not_true_eq_false, if_false, if_true]
    rfl
  · simp only [hrc, not_false_iff, if_true, Option.some.injEq, if_false]
    rfl

/-- A report that is validated is removed exactly when its directory is still
listed, its issue type is shorter than 64 bytes, and its archive is created. -/
theorem rrdUploadOrchestrate_cleans_iff (dir : ReportDir) (issue : Str) (h : Validated env dir.path disk) :
    Cleaned env dir.path issue ((rrdUploadOrchestrate env (some dir.path) (some issue)).run disk).world ↔
      ((rrdLogprocPrepareLogs env 1 dir.path).run disk).result = some 0 ∧ issue.length < 64 ∧
        ArchiveCreated env dir.path issue disk := by
  obtain ⟨config, mac, ts, hmac, hts, hrun⟩ := rrdUploadOrchestrate_run h issue
  have hdir := h.directory
  rw [hrun]
  by_cases hprep : ((rrdLogprocPrepareLogs env 1 dir.path).run disk).result = some 0
  case neg =>
    rw [if_neg hprep]
    exact ⟨fun hc => absurd hc.1 hdir, fun hc => absurd hc.1 hprep⟩
  rw [if_pos hprep, uploadIssue]
  cases hs : rrdLogprocConvertIssueType issue 64 with
  | none =>
    have hlen : ¬ issue.length < 64 := fun hlt => by
      rw [convertIssueType_eq_some_iff.mpr ⟨hlt, rfl⟩] at hs
      cases hs
    exact ⟨fun hc => absurd hc.1 hdir, fun hc => absurd hc.2.1 hlen⟩
  | some s =>
    obtain ⟨hlen, hs'⟩ := convertIssueType_eq_some_iff.mp hs
    have hslen : s.length ≤ 63 := hs' ▸ List.length_take_le _ _
    obtain ⟨name, hname⟩ : ∃ name, rrdArchiveGenerateFilename mac s ts 256 = some name :=
      ⟨_, generateFilename_eq (length_macAddress hmac) hslen (length_timestamp hts)⟩
    have hlength := length_generateFilename hname
    have harchive : archiveFilename env issue = some name := by
      rw [archiveFilename, hmac, hts, hs]
      exact hname
    obtain ⟨es, disk', hlive, hkeep⟩ := checkLiveLogs_run env s hdir
    have hcreated : ArchiveCreated env dir.path issue disk ↔
        (rrdArchiveCreate env.host dir.path (env.source disk')).1 = 0 := by
      simp only [ArchiveCreated, hs, Option.some.injEq, forall_eq', hlive]
    rw [hcreated]
    simp only [hname]
    rw [bind_run_of_some hlive]
    constructor
    · intro hc
      refine ⟨hprep, hlen, ?_⟩
      by_contra hrc
      exact (uploadArchive_keeps config hlength hkeep hrc).1 hc.1
    · rintro ⟨-, -, hrc⟩
      obtain ⟨hgone, hgone'⟩ := uploadArchive_removes config hlength hrc
      refine ⟨hgone, fun name hn => ?_⟩
      rw [harchive] at hn
      cases hn
      exact hgone'

/-! ## Samples -/

/-- The directory of a report on `Network`. -/
def pingDir : ReportDir where
  node := str "Network"
  ltime := str "2025-01-01-00-00-00"
  node_ne_nil := by decide
  node_alnum := by decide +kernel
  node_length := by decide
  ltime_stamp := by decide +kernel
  ltime_length := by decide

/-- A file system with that directory. -/
def pingDisk : FileSystem := fun p => if p = components pingDir.path then some .directory else none

/-- A device on which everything works but for `gzwrite`, with one file in the directory. -/
def pingUploadEnv (gzwrite : Nat → Nat → Nat) : UploadEnv where
  config := ⟨some (str "LOG_SERVER=logs\nHTTP_UPLOAD_LINK=link\n"), none, none, none, none, none, none, none⟩
  getEstbMac := some (str "D4:52:EE:58:F6:AE")
  localtime := some ⟨125, 0, 1, 9, 30, 0⟩
  readdir _ := some [str "out"]
  rename := true
  host := ⟨fun _ => none, fun _ => none, gzwrite⟩
  source _ :=
    { gzopen := true
      lstat := some ⟨0o040755, 0, 0, 0, 0⟩
      noDir := none
      listing := .entry ⟨str "out", true, some ⟨0o100644, 0, 0, 2, 0⟩, ⟨true, true, [str "ok"], false⟩, none⟩ .done .done
      file := ⟨false, false, [], false⟩
      stat := fun out => some (out.flatMap Chunk.bytes).length }
  lock _ := .acquired
  uploadstblogsRun _ disk := (0, disk)
  vSecureSystem _ disk := (0, disk)

theorem validated_ping (gzwrite : Nat → Nat → Nat) : Validated (pingUploadEnv gzwrite) pingDir.path pingDisk where
  config := (by decide +kernel : (rrdConfigLoad (pingUploadEnv fun _ n => n).config).1 = 0)
  mac := rfl
  time := rfl
  source := (by decide +kernel :
    ((rrdLogprocValidateSource (pingUploadEnv fun _ n => n) 0 pingDir.path).run pingDisk).result = some 0)

theorem rrdUploadOrchestrate_cleans_iff_sample : Cleaned (pingUploadEnv fun _ n => n) pingDir.path (str "Network_Ping")
    ((rrdUploadOrchestrate (pingUploadEnv fun _ n => n) (some pingDir.path) (some (str "Network_Ping"))).run
      pingDisk).world := by
  refine (rrdUploadOrchestrate_cleans_iff pingDir _ (validated_ping _)).mpr ⟨by decide +kernel, by decide, fun s hs => ?_⟩
  have hconvert : rrdLogprocConvertIssueType (str "Network_Ping") 64 = some (str "NETWORK_PING") := by decide
  rw [hconvert] at hs
  cases hs
  decide +kernel

/-- The directory is left behind for an issue type of 64 bytes, and when the disk is full. -/
theorem report_left_behind :
    (Validated (pingUploadEnv fun _ n => n) pingDir.path pingDisk ∧
      ¬ Cleaned (pingUploadEnv fun _ n => n) pingDir.path (List.replicate 64 (ch 'A'))
        ((rrdUploadOrchestrate (pingUploadEnv fun _ n => n) (some pingDir.path)
          (some (List.replicate 64 (ch 'A')))).run pingDisk).world) ∧
    (Validated (pingUploadEnv fun _ n => n / 2) pingDir.path pingDisk ∧
      ¬ Cleaned (pingUploadEnv fun _ n => n / 2) pingDir.path (str "Network_Ping")
        ((rrdUploadOrchestrate (pingUploadEnv fun _ n => n / 2) (some pingDir.path)
          (some (str "Network_Ping"))).run pingDisk).world) := by
  refine ⟨⟨validated_ping _, fun h => absurd h.1 ?_⟩, validated_ping _, fun h => absurd h.1 ?_⟩
  · decide +kernel
  · decide +kernel

end RRD
