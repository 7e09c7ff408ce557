import RemoteDebugger.Proof.Archive.Untar
import RemoteDebugger.Proof.Upload.Cleanup

/-!
# What is uploaded, and when

* `waitForLockFrom_eq_zero_iff`: the wait ends well exactly when a check of the
  lock finds it free;
* `Sends`: an upload goes out once, right after its archive is complete, with the
  lock free, and only the cleanup follows;
* `rrdUploadOrchestrate_sends`: every run that calls the upload does so, and the
  others return a failure;
* `rrdUploadOrchestrate_sends_tree`: what is sent is read back as the report.
-/

namespace RRD

open Framework Framework.Prog

variable {env : UploadEnv} {disk : FileSystem} {dirPath name : Str} {config : RrdConfig}

/-- The file system after some calls, up to an upload. -/
def replay (disk : FileSystem) (es : List UploadEffect) : FileSystem := es.foldl (fun disk e => e.apply disk) disk

def UploadEffect.isUpload : UploadEffect → Bool
  | uploadstblogsRun _ => true
  | _ => false

/-! ## The lock -/

theorem checkLock_eq_some_false {answer : LockAnswer} : rrdUploadCheckLock answer = some false ↔ answer = .acquired := by
  cases answer <;> decide

theorem waitForLockFrom_eq_zero_iff (k attempts : Nat) :
    waitForLockFrom env k attempts = 0 ↔ ∃ i < attempts, env.lock (k + i) = .acquired := by
  induction attempts generalizing k with
  | zero =>
    rw [waitForLockFrom]
    exact ⟨fun h => absurd h (by decide), fun ⟨_, h, _⟩ => absurd h (Nat.not_lt_zero _)⟩
  | succ attempts ih =>
    rw [waitForLockFrom]
    by_cases hfree : rrdUploadCheckLock (env.lock k) = some false
    · rw [if_pos hfree]
      exact ⟨fun _ => ⟨0, Nat.succ_pos _, checkLock_eq_some_false.mp hfree⟩, fun _ => rfl⟩
    · rw [if_neg hfree, ih]
      constructor
      · rintro ⟨i, hi, hlock⟩
        exact ⟨i + 1, Nat.succ_lt_succ hi, by rwa [show k + (i + 1) = k + 1 + i by omega]⟩
      · rintro ⟨_ | i, hi, hlock⟩
        · exact absurd (checkLock_eq_some_false.mpr hlock) hfree
        · exact ⟨i, Nat.lt_of_succ_lt_succ hi, by rwa [show k + 1 + i = k + (i + 1) by omega]⟩

/-! ## The parts of an upload -/

/-- The parameters of the upload of an archive. -/
def uploadParams (config : RrdConfig) (name : Str) : UploadSTBLogsParams :=
  ⟨config.uploadProtocol, config.httpUploadLink, snprintf 512 (rrdLogDir ++ name)⟩

/-- The upload is called with the lock free, or not at all. -/
theorem rrdUploadExecute_run (env : UploadEnv) (config : RrdConfig) (name : Str) (disk : FileSystem) :
    (∃ rc, rc ≠ 0 ∧ (rrdUploadExecute env config rrdLogDir name).run disk = ⟨some rc, [], disk⟩) ∨
    ((∃ k ≤ 10, env.lock k = .acquired) ∧ (rrdUploadExecute env config rrdLogDir name).run disk =
      ⟨some (if (env.uploadstblogsRun (uploadParams config name) disk).1 ≠ 0 then -3 else 0),
        [.uploadstblogsRun (uploadParams config name)], (env.uploadstblogsRun (uploadParams config name) disk).2⟩) := by
  rw [rrdUploadExecute]
  split
  · exact .inl ⟨-1, by decide, rfl⟩
  · cases hcheck : rrdUploadCheckLock (env.lock 0) with
    | none => exact .inl ⟨-1, by decide, rfl⟩
    | some locked =>
      simp only
      split
      · exact .inl ⟨-2, by decide, rfl⟩
      · rename_i hwait
        refine .inr ⟨?_, rfl⟩
        cases locked with
        | false => exact ⟨0, Nat.zero_le _, checkLock_eq_some_false.mp hcheck⟩
        | true =>
          simp only [true_and, ne_eq, not_not] at hwait
          obtain ⟨i, hi, hlock⟩ := (waitForLockFrom_eq_zero_iff 1 10).mp hwait
          exact ⟨1 + i, by omega, hlock⟩

theorem rrdArchiveCreate_gzopen {host : Host} {src : Source} {out : List Chunk}
    (h : rrdArchiveCreate host dirPath src = (0, out)) : src.gzopen = true := by
  rw [rrdArchiveCreate] at h
  cases hgz : src.gzopen with
  | true => rfl
  | false => simp [hgz] at h

/-- The file of a complete archive. -/
def archivePath (name : Str) : Str := snprintf 8192 (rrdLogDir ++ ch '/' :: name)

theorem createArchive_calls (env : UploadEnv) (disk : FileSystem) (dirPath name : Str) :
    (createArchive env dirPath rrdLogDir name).run disk =
      ⟨some (rrdArchiveCreate env.host dirPath (env.source disk)).1,
        if (env.source disk).gzopen then [.archive (archivePath name) (rrdArchiveCreate env.host dirPath (env.source disk)).2]
        else [],
        if (env.source disk).gzopen then
          disk.write (components (archivePath name)) (stream (rrdArchiveCreate env.host dirPath (env.source disk)).2)
        else disk⟩ := by
  have hdir : rrdLogDir ≠ [] := by decide
  simp only [createArchive, hdir, ne_eq, not_false_iff, if_true]
  rw [bind_run_of_some (ask_run _ disk)]
  cases (env.source disk).gzopen with
  | false => rfl
  | true =>
    rw [if_pos rfl, if_pos rfl, if_pos rfl, bind_run_of_some (perform_run _ _)]
    rfl

def cleanupCalls (dirPath name : Str) : List UploadEffect :=
  [.remove (snprintf 512 (rrdLogDir ++ name)), .system (snprintf 1024 (str "rm -rf " ++ dirPath))]

theorem cleanupReport_calls (dirPath name : Str) (disk : FileSystem) :
    (cleanupReport dirPath name).run disk = ⟨some (), cleanupCalls dirPath name, replay disk (cleanupCalls dirPath name)⟩ :=
  rfl

/-! ## The upload -/

/-- A call that moves the live logs into the directory. -/
def UploadEffect.MovesLiveLogs (dirPath : Str) (e : UploadEffect) : Prop :=
  e = .rename liveLogsFile (snprintf 1024 (dirPath ++ str "/RRD_LIVE_LOGS.tar.gz"))

theorem UploadEffect.MovesLiveLogs.not_isUpload {e : UploadEffect} (h : e.MovesLiveLogs dirPath) : ¬ e.isUpload := by
  rw [h]
  exact Bool.false_ne_true

/-- An upload that goes out after the calls `pre`, which move the live logs: of the
archive `name`, which is a complete one of the directory, while the lock is free. -/
structure Sends (env : UploadEnv) (dirPath : Str) (disk : FileSystem) (pre : List UploadEffect) (name : Str)
    (out : List Chunk) (params : UploadSTBLogsParams) : Prop where
  moved : ∀ e ∈ pre, e.MovesLiveLogs dirPath
  created : rrdArchiveCreate env.host dirPath (env.source (replay disk pre)) = (0, out)
  sent : replay disk (pre ++ [.archive (archivePath name) out]) (components params.rrdFile) = some (.file (stream out))
  free : ∃ k ≤ 10, env.lock k = .acquired

/-- The calls of that upload, to the cleanup. -/
def sentCalls (dirPath : Str) (pre : List UploadEffect) (name : Str) (out : List Chunk)
    (params : UploadSTBLogsParams) : List UploadEffect :=
  pre ++ .archive (archivePath name) out :: .uploadstblogsRun params :: cleanupCalls dirPath name

/-- A run returns a code and, if it uploads anything, a complete archive. The code
is 0 exactly when the upload works. -/
def SendsOrFails (env : UploadEnv) (dirPath : Str) (disk : FileSystem) (o : Outcome FileSystem UploadEffect Int) : Prop :=
  ∃ rc, o.result = some rc ∧
    ((rc ≠ 0 ∧ ∀ e ∈ o.events, ¬ e.isUpload) ∨
      ∃ pre name out params, Sends env dirPath disk pre name out params ∧
        o.events = sentCalls dirPath pre name out params ∧
        rc = if (env.uploadstblogsRun params (replay disk (pre ++ [.archive (archivePath name) out]))).1 = 0 then 0 else 11)

theorem cleanupCalls_noUpload : ∀ e ∈ cleanupCalls dirPath name, ¬ e.isUpload := by
  intro e he
  rcases List.mem_cons.mp he with rfl | he
  · exact Bool.false_ne_true
  · rw [List.mem_singleton.mp he]
    exact Bool.false_ne_true

theorem archive_sent {out : List Chunk} (hname : name.length < 256) (config : RrdConfig) (disk : FileSystem) :
    (disk.write (components (archivePath name)) (stream out)) (components (uploadParams config name).rrdFile) =
      some (.file (stream out)) := by
  obtain ⟨hcomponents, hcut⟩ := components_outpath hname
  rw [archivePath, hcomponents, uploadParams, hcut, Disk.write, Function.update_self]

theorem uploadArchive_sends (config : RrdConfig) (hname : name.length < 256) (disk : FileSystem) :
    SendsOrFails env dirPath disk ((uploadArchive env config dirPath name).run disk) := by
  have hcreate := createArchive_calls env disk dirPath name
  cases harchive : rrdArchiveCreate env.host dirPath (env.source disk) with
  | mk rc out =>
  rw [harchive] at hcreate
  rw [uploadArchive, bind_run_of_some hcreate]
  by_cases hrc : rc = 0
  case neg =>
    rw [if_pos hrc]
    refine ⟨10, rfl, .inl ⟨by decide, fun e he => ?_⟩⟩
    rw [pure_run, List.append_nil] at he
    split at he
    · rw [List.mem_singleton.mp he]
      exact Bool.false_ne_true
    · cases he
  subst hrc
  rw [if_neg (not_not_intro rfl), rrdArchiveCreate_gzopen harchive]
  simp only [if_true]
  rcases rrdUploadExecute_run env config name (disk.write (components (archivePath name)) (stream out)) with
    ⟨rc, hrc, hrun⟩ | ⟨hfree, hrun⟩
  · rw [bind_run_of_some hrun, if_pos hrc, bind_run_of_some (cleanupReport_calls dirPath name _)]
    refine ⟨11, rfl, .inl ⟨by decide, fun e he => ?_⟩⟩
    rcases List.mem_cons.mp he with rfl | he
    · exact Bool.false_ne_true
    · rw [List.nil_append, pure_run, List.append_nil] at he
      exact cleanupCalls_noUpload e he
  · have hsends : Sends env dirPath disk [] name out (uploadParams config name) :=
      ⟨by simp, harchive, archive_sent hname config disk, hfree⟩
    rw [bind_run_of_some hrun]
    by_cases hres : (env.uploadstblogsRun (uploadParams config name)
        (disk.write (components (archivePath name)) (stream out))).1 = 0
    · rw [if_neg (not_not_intro hres), if_neg (not_not_intro rfl), bind_run_of_some (cleanupReport_calls dirPath name _)]
      exact ⟨0, rfl, .inr ⟨[], name, out, _, hsends, rfl, (if_pos hres).symm⟩⟩
    · rw [if_pos hres, if_pos (by decide), bind_run_of_some (cleanupReport_calls dirPath name _)]
      exact ⟨11, rfl, .inr ⟨[], name, out, _, hsends, rfl, (if_neg hres).symm⟩⟩

/-- Other calls before an upload. -/
theorem SendsOrFails.after {o : Outcome FileSystem UploadEffect Int} {es : List UploadEffect}
    (h : SendsOrFails env dirPath (replay disk es) o) (hes : ∀ e ∈ es, e.MovesLiveLogs dirPath) :
    SendsOrFails env dirPath disk ⟨o.result, es ++ o.events, o.world⟩ := by
  have hreplay (pre : List UploadEffect) : replay (replay disk es) pre = replay disk (es ++ pre) :=
    List.foldl_append.symm
  obtain ⟨rc, hrc, ⟨hfail, hno⟩ | ⟨pre, name, out, params, ⟨hmoved, hcreated, hsent, hfree⟩, hcalls, hcode⟩⟩ := h
  · exact ⟨rc, hrc, .inl ⟨hfail, List.forall_mem_append.mpr ⟨fun e he => (hes e he).not_isUpload, hno⟩⟩⟩
  · rw [hreplay] at hcreated hsent hcode
    rw [← List.append_assoc] at hsent hcode
    refine ⟨rc, hrc, .inr ⟨es ++ pre, name, out, params, ⟨List.forall_mem_append.mpr ⟨hes, hmoved⟩, hcreated, hsent, hfree⟩,
      ?_, hcode⟩⟩
    rw [hcalls, sentCalls, sentCalls, List.append_assoc]

theorem SendsOrFails.fails {rc : Int} (hrc : rc ≠ 0) : SendsOrFails env dirPath disk ⟨some rc, [], disk⟩ :=
  ⟨rc, rfl, .inl ⟨hrc, by simp⟩⟩

theorem checkLiveLogs_calls (env : UploadEnv) (dirPath s : Str) (disk : FileSystem) :
    ∃ es, (checkLiveLogs env dirPath s).run disk = ⟨some (), es, replay disk es⟩ ∧ ∀ e ∈ es, e.MovesLiveLogs dirPath := by
  rw [checkLiveLogs]
  split
  · have hask : (ask fun disk : FileSystem => ((disk (components liveLogsFile)).isSome, disk) :
        Prog FileSystem UploadEffect Bool).run disk = ⟨some (disk (components liveLogsFile)).isSome, [], disk⟩ := rfl
    obtain ⟨rc, es, hrun, hno⟩ : ∃ rc es, (rrdLogprocHandleLiveLogs env dirPath).run disk =
        ⟨some rc, es, replay disk es⟩ ∧ ∀ e ∈ es, e.MovesLiveLogs dirPath := by
      rw [rrdLogprocHandleLiveLogs, bind_run_of_some hask]
      split
      · exact ⟨0, [], rfl, by simp⟩
      · split
        · exact ⟨-2, [], rfl, by simp⟩
        · rw [bind_run_of_some (perform_run _ _)]
          exact ⟨0, [_], rfl, fun e he => List.mem_singleton.mp he⟩
    rw [bind_run_of_some hrun]
    exact ⟨es, by rw [pure_run, List.append_nil], hno⟩
  · exact ⟨[], rfl, by simp⟩

theorem uploadIssue_sends (config : RrdConfig) (mac ts issue : Str) (disk : FileSystem) :
    SendsOrFails env dirPath disk ((uploadIssue env config mac ts dirPath issue).run disk) := by
  rw [uploadIssue]
  cases rrdLogprocConvertIssueType issue 64 with
  | none => exact .fails (by decide)
  | some s =>
    obtain ⟨es, hlive, hno⟩ := checkLiveLogs_calls env dirPath s disk
    simp only
    rw [bind_run_of_some hlive]
    cases hname : rrdArchiveGenerateFilename mac s ts 256 with
    | none => exact SendsOrFails.after (.fails (show (9 : Int) ≠ 0 by decide)) hno
    | some name => exact SendsOrFails.after (uploadArchive_sends config (length_generateFilename hname) _) hno

theorem orchestrate_sendsOrFails (env : UploadEnv) (dirPath issue : Str) (disk : FileSystem) :
    SendsOrFails env dirPath disk ((rrdUploadOrchestrate env (some dirPath) (some issue)).run disk) := by
  rw [rrdUploadOrchestrate]
  simp only
  split
  · exact .fails (by decide)
  cases rrdSysinfoGetMacAddress env 32 with
  | none => exact .fails (by decide)
  | some mac =>
    cases rrdSysinfoGetTimestamp env 32 with
    | none => exact .fails (by decide)
    | some ts =>
      obtain ⟨rc, hrun, -⟩ := validateSource_run env disk 0 dirPath
      obtain ⟨rc', hrun', -⟩ := validateSource_run env disk 1 dirPath
      simp only
      rw [bind_run_of_some hrun]
      split
      · exact .fails (by decide)
      · rw [rrdLogprocPrepareLogs, bind_run_of_some hrun']
        split
        · exact .fails (by decide)
        · exact uploadIssue_sends ..

/-- Two lists are cut alike at the only element of a kind. -/
theorem cut_unique {α : Type} {p : α → Bool} {a b c d : List α} {x y : α} (h : a ++ x :: b = c ++ y :: d)
    (ha : ∀ e ∈ a, ¬ p e) (hb : ∀ e ∈ b, ¬ p e) (hy : p y) : a = c ∧ x = y ∧ b = d := by
  induction a generalizing c with
  | nil =>
    cases c with
    | nil =>
      cases h
      exact ⟨rfl, rfl, rfl⟩
    | cons e c =>
      obtain ⟨-, rfl⟩ := List.cons.inj h
      exact absurd hy (hb y (List.mem_append_right c List.mem_cons_self))
  | cons e a ih =>
    obtain ⟨he, ha⟩ := List.forall_mem_cons.mp ha
    cases c with
    | nil =>
      obtain ⟨rfl, -⟩ := List.cons.inj h
      exact absurd hy he
    | cons e' c =>
      obtain ⟨rfl, h'⟩ := List.cons.inj h
      obtain ⟨rfl, hxy, hbd⟩ := ih h' ha
      exact ⟨rfl, hxy, hbd⟩

/-- What the upload among the calls of a run says of it. -/
theorem SendsOrFails.of_upload {o : Outcome FileSystem UploadEffect Int} (h : SendsOrFails env dirPath disk o)
    {before after : List UploadEffect} {params : UploadSTBLogsParams}
    (hup : o.events = before ++ .uploadstblogsRun params :: after) :
    ∃ pre name out, Sends env dirPath disk pre name out params ∧ before = pre ++ [.archive (archivePath name) out] ∧
      after = cleanupCalls dirPath name ∧
      o.result = some (if (env.uploadstblogsRun params (replay disk before)).1 = 0 then 0 else 11) := by
  obtain ⟨rc, hrc, ⟨-, hno⟩ | ⟨pre, name, out, params', hsends, hcalls, hcode⟩⟩ := h
  · exact absurd rfl (hno (.uploadstblogsRun params) (by rw [hup]; simp))
  · have hcut : (pre ++ [.archive (archivePath name) out]) ++ .uploadstblogsRun params' :: cleanupCalls dirPath name =
        before ++ .uploadstblogsRun params :: after := by
      rw [← hup, hcalls, sentCalls, List.append_assoc]
      rfl
    have hpre : ∀ e ∈ pre ++ [.archive (archivePath name) out], ¬ e.isUpload := by
      refine List.forall_mem_append.mpr ⟨fun e he => (hsends.moved e he).not_isUpload, fun e he => ?_⟩
      rw [List.mem_singleton.mp he]
      exact Bool.false_ne_true
    obtain ⟨rfl, hparams, hafter⟩ := cut_unique hcut hpre cleanupCalls_noUpload rfl
    cases hparams
    exact ⟨pre, name, out, hsends, rfl, hafter.symm, hrc.trans (congrArg some hcode)⟩

/-- A device on which everything works, with a small tree in the directory. -/
def treeUploadEnv : UploadEnv :=
  { pingUploadEnv fun _ n => n with
    source := fun _ => ⟨true, some ⟨0o040755, 0, 0, 4096, 0⟩, none, Tree.sample.listing, ⟨true, true, [], false⟩,
      fun out => some (out.flatMap Chunk.bytes).length⟩ }

/-- The upload on that device. -/
theorem treeUpload_events : ∃ before params after,
    ((rrdUploadOrchestrate treeUploadEnv (some pingDir.path) (some (str "Network_Ping"))).run pingDisk).events =
      before ++ .uploadstblogsRun params :: after := by
  have hzero : ((rrdUploadOrchestrate treeUploadEnv (some pingDir.path) (some (str "Network_Ping"))).run
      pingDisk).result = some 0 := by decide +kernel
  obtain ⟨rc, hrc, ⟨hfail, -⟩ | ⟨pre, name, out, params, -, hcalls, -⟩⟩ :=
    orchestrate_sendsOrFails treeUploadEnv pingDir.path (str "Network_Ping") pingDisk
  · exact absurd (Option.some.inj (hrc.symm.trans hzero)) hfail
  · exact ⟨pre ++ [.archive (archivePath name) out], params, _, by rw [hcalls, sentCalls, List.append_assoc]; rfl⟩

/-- In every run an upload goes out at most once, while the lock is free. It is
of a file that holds a complete archive of the directory, which the call before
created, and only the cleanup follows. -/
theorem rrdUploadOrchestrate_sends (env : UploadEnv) (dirPath issue : Str) (disk : FileSystem)
    {before after : List UploadEffect} {params : UploadSTBLogsParams}
    (hup : ((rrdUploadOrchestrate env (some dirPath) (some issue)).run disk).events =
      before ++ .uploadstblogsRun params :: after) :
    (∃ k ≤ 10, env.lock k = .acquired) ∧
    (∃ pre name out, before = pre ++ [.archive (archivePath name) out] ∧ (∀ e ∈ pre, ¬ e.isUpload) ∧
      rrdArchiveCreate env.host dirPath (env.source (replay disk pre)) = (0, out) ∧
      replay disk before (components params.rrdFile) = some (.file (stream out)) ∧ after = cleanupCalls dirPath name) := by
  obtain ⟨pre, name, out, ⟨hmoved, hcreated, hsent, hfree⟩, rfl, hafter, -⟩ :=
    (orchestrate_sendsOrFails env dirPath issue disk).of_upload hup
  exact ⟨hfree, pre, name, out, rfl, fun e he => (hmoved e he).not_isUpload, hcreated, hsent, hafter⟩

theorem rrdUploadOrchestrate_sends_sample : ∃ before params, (∃ k ≤ 10, treeUploadEnv.lock k = .acquired) ∧
    ∃ contents, replay pingDisk before (components (UploadSTBLogsParams.rrdFile params)) = some (.file contents) := by
  obtain ⟨before, params, after, hup⟩ := treeUpload_events
  obtain ⟨hfree, pre, name, out, -, -, -, hsent, -⟩ := rrdUploadOrchestrate_sends _ _ _ _ hup
  exact ⟨before, params, hfree, stream out, hsent⟩

/-- The code is 0 exactly when an upload goes out and works. -/
theorem rrdUploadOrchestrate_eq_zero_iff (env : UploadEnv) (dirPath issue : Str) (disk : FileSystem) :
    ((rrdUploadOrchestrate env (some dirPath) (some issue)).run disk).result = some 0 ↔
      ∃ before params after, ((rrdUploadOrchestrate env (some dirPath) (some issue)).run disk).events =
        before ++ .uploadstblogsRun params :: after ∧ (env.uploadstblogsRun params (replay disk before)).1 = 0 := by
  have hsends := orchestrate_sendsOrFails env dirPath issue disk
  constructor
  · intro hzero
    obtain ⟨rc, hrc, ⟨hfail, -⟩ | ⟨pre, name, out, params, -, hcalls, hcode⟩⟩ := hsends
    · exact absurd (Option.some.inj (hrc.symm.trans hzero)) hfail
    · obtain rfl := Option.some.inj (hrc.symm.trans hzero)
      refine ⟨pre ++ [.archive (archivePath name) out], params, cleanupCalls dirPath name, ?_, ?_⟩
      · rw [hcalls, sentCalls, List.append_assoc]
        rfl
      · by_contra hres
        rw [if_neg hres] at hcode
        exact absurd hcode (by decide)
  · rintro ⟨before, params, after, hup, hres⟩
    obtain ⟨-, -, -, -, -, -, hresult⟩ := hsends.of_upload hup
    rw [hresult, if_pos hres]

/-! ## A report at rest -/

/-- A complete archive of a tree at rest is read back as the tree. -/
theorem archive_reads_back {host : Host} {src : Source} {d : Directory} {t : Tree} {out : List Chunk}
    (hs : src.Shows d t) (hf : Fits (t.entries [])) (h : rrdArchiveCreate host dirPath src = (0, out)) :
    Ustar.read (stream out) = some (t.entries []) := by
  obtain ⟨es, hwrites, bs, rfl, htrailer⟩ := rrdArchiveCreate_writes h
  obtain ⟨hentries, hgood⟩ := hs.listing.archived_eq List.not_mem_nil hf
  have harchived : src.archived dirPath = src.listing.archived [] := by
    simp only [Source.archived, hs.lstat, d.isDir, hs.opendir, dirArchived, if_true]
  rw [harchived] at hwrites
  exact (hwrites.read_eq hgood htrailer).trans (congrArg some hentries)

/-- While the directory is at rest, whatever is uploaded is read back as its tree:
no partial archive leaves the device. -/
theorem rrdUploadOrchestrate_sends_tree {d : Directory} {t : Tree} (hs : ∀ disk, (env.source disk).Shows d t)
    (hf : Fits (t.entries [])) (dirPath issue : Str) (disk : FileSystem) {before after : List UploadEffect}
    {params : UploadSTBLogsParams}
    (hup : ((rrdUploadOrchestrate env (some dirPath) (some issue)).run disk).events =
      before ++ .uploadstblogsRun params :: after) :
    ∃ contents, replay disk before (components params.rrdFile) = some (.file contents) ∧
      Ustar.read contents = some (t.entries []) := by
  obtain ⟨pre, name, out, ⟨-, hcreated, hsent, -⟩, rfl, -, -⟩ :=
    (orchestrate_sendsOrFails env dirPath issue disk).of_upload hup
  exact ⟨stream out, hsent, archive_reads_back (hs _) hf hcreated⟩

theorem rrdUploadOrchestrate_sends_tree_sample : ∃ before params contents,
    replay pingDisk before (components (UploadSTBLogsParams.rrdFile params)) = some (.file contents) ∧
      Ustar.read contents =
        some [⟨str "outputs.txt", ch '0', 0o644, [ch 'x']⟩, ⟨str "logs/", ch '5', 0o755, []⟩] := by
  obtain ⟨before, params, after, hup⟩ := treeUpload_events
  have hs : ∀ disk, (treeUploadEnv.source disk).Shows ⟨⟨0o040755, 0, 0, 4096, 0⟩, by decide⟩ Tree.sample := fun _ =>
    ⟨rfl, rfl, rfl, observes_listing _, fun _ => rfl⟩
  obtain ⟨contents, hsent, hread⟩ := rrdUploadOrchestrate_sends_tree hs (by decide) _ _ _ hup
  exact ⟨before, params, contents, hsent, hread⟩

end RRD
