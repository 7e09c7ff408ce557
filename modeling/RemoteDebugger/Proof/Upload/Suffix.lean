import RemoteDebugger.Framework.TwoRuns
import RemoteDebugger.Proof.Dispatch.Report
import RemoteDebugger.Proof.Dispatch.Suffix
import RemoteDebugger.Proof.Upload.Cleanup

/-!
# What a suffix changes in an upload

Two tokens of one base run alike, if the suffix has no say in what the upload
does (`NamesAgree`):

* `rrdUploadOrchestrate_alike`: two uploads under such names do the same, but
  for the names of their archives;
* `suffix_blind_iff`: two tokens of one base are handled alike on every device
  exactly when their base has no node or the names of their uploads agree;
* `logupload_suffix_moves_logs`: a suffix that turns a report into one on the
  live logs.
-/

namespace RRD

open Framework Framework.Prog

/-- Two names of archives that differ in the issue, if at all. -/
def NamesAlike (n₁ n₂ : Str) : Prop :=
  ∃ mac ts s₁ s₂, rrdArchiveGenerateFilename mac s₁ ts 256 = some n₁ ∧ rrdArchiveGenerateFilename mac s₂ ts 256 = some n₂

/-- Two effects of an upload that differ in the name of the archive, if at all. -/
inductive UploadEffect.Alike : UploadEffect → UploadEffect → Prop where
  | same (e : UploadEffect) : Alike e e
  | archive {n₁ n₂ : Str} (h : NamesAlike n₁ n₂) (out : List Chunk) :
      Alike (.archive (rrdLogDir ++ ch '/' :: n₁) out) (.archive (rrdLogDir ++ ch '/' :: n₂) out)
  | upload {n₁ n₂ : Str} (h : NamesAlike n₁ n₂) (protocol link : Str) :
      Alike (.uploadstblogsRun ⟨protocol, link, rrdLogDir ++ n₁⟩) (.uploadstblogsRun ⟨protocol, link, rrdLogDir ++ n₂⟩)
  | remove {n₁ n₂ : Str} (h : NamesAlike n₁ n₂) : Alike (.remove (rrdLogDir ++ n₁)) (.remove (rrdLogDir ++ n₂))

/-- The upload service answers two uploads to one place alike. -/
def UploadEnv.SameAnswer (env : UploadEnv) : Prop :=
  ∀ (p p' : UploadSTBLogsParams) (disk disk' : FileSystem), p.uploadProtocol = p'.uploadProtocol →
    p.uploadHttpLink = p'.uploadHttpLink → (env.uploadstblogsRun p disk).1 = (env.uploadstblogsRun p' disk').1

/-- The names are both converted or both too long, and both or neither to the
issue type of the live logs. -/
def NamesAgree (n₁ n₂ : Str) : Prop :=
  (n₁.length < 64 ↔ n₂.length < 64) ∧
    (rrdLogprocConvertIssueType n₁ 64 = some loguploadEnable ↔ rrdLogprocConvertIssueType n₂ 64 = some loguploadEnable)

variable {env : UploadEnv} {disk disk' : FileSystem} {n₁ n₂ : Str}

/-! ## Two uploads -/

theorem perform_alike {e e' : UploadEffect} (h : e.Alike e') :
    Alike UploadEffect.Alike (perform e) disk (perform e') disk' :=
  .bind (.emit h) fun _ _ _ => .ask rfl

/-- The paths of an archive are not cut. -/
theorem archivePaths (h : NamesAlike n₁ n₂) :
    snprintf 8192 (rrdLogDir ++ ch '/' :: n₁) = rrdLogDir ++ ch '/' :: n₁ ∧ snprintf 512 (rrdLogDir ++ n₁) = rrdLogDir ++ n₁ ∧
    snprintf 8192 (rrdLogDir ++ ch '/' :: n₂) = rrdLogDir ++ ch '/' :: n₂ ∧ snprintf 512 (rrdLogDir ++ n₂) = rrdLogDir ++ n₂ := by
  obtain ⟨mac, ts, s₁, s₂, h₁, h₂⟩ := h
  have hlen₁ := length_generateFilename h₁
  have hlen₂ := length_generateFilename h₂
  have hdir : rrdLogDir.length = 9 := rfl
  refine ⟨?_, ?_, ?_, ?_⟩ <;> refine List.take_of_length_le ?_ <;>
    simp only [List.length_append, List.length_cons] <;> omega

theorem createArchive_alike (h : NamesAlike n₁ n₂) (dirPath : Str) :
    Alike UploadEffect.Alike (createArchive env dirPath rrdLogDir n₁) disk (createArchive env dirPath rrdLogDir n₂) disk := by
  obtain ⟨hcut₁, -, hcut₂, -⟩ := archivePaths h
  have hdir : rrdLogDir ≠ [] := by decide
  simp only [createArchive, hdir, ne_eq, not_false_iff, if_true, hcut₁, hcut₂]
  refine .bind_same .same fun src _ _ _ => ?_
  split
  · exact .bind (perform_alike (.archive h _)) fun _ _ _ => .pure _
  · exact .pure _

theorem rrdUploadExecute_alike (hsame : env.SameAnswer) (h : NamesAlike n₁ n₂) (config : RrdConfig) :
    Alike UploadEffect.Alike (rrdUploadExecute env config rrdLogDir n₁) disk
      (rrdUploadExecute env config rrdLogDir n₂) disk' := by
  obtain ⟨-, hcut₁, -, hcut₂⟩ := archivePaths h
  rw [rrdUploadExecute, rrdUploadExecute, hcut₁, hcut₂]
  split
  · exact .pure _
  · split
    · exact .pure _
    · split
      · exact .pure _
      · refine .bind (.bind (.emit (.upload h _ _)) fun _ _ _ => .ask ?_) fun _ _ _ => .pure _
        exact hsame _ _ _ _ rfl rfl

theorem cleanupReport_alike (h : NamesAlike n₁ n₂) (dirPath : Str) :
    Alike UploadEffect.Alike (cleanupReport dirPath n₁) disk (cleanupReport dirPath n₂) disk' := by
  obtain ⟨-, hcut₁, -, hcut₂⟩ := archivePaths h
  rw [cleanupReport, cleanupReport, rrdArchiveCleanup, rrdArchiveCleanup, hcut₁, hcut₂]
  exact .bind (perform_alike (.remove h)) fun _ _ _ => perform_alike (.same _)

theorem uploadArchive_alike (hsame : env.SameAnswer) (h : NamesAlike n₁ n₂) (config : RrdConfig) (dirPath : Str) :
    Alike UploadEffect.Alike (uploadArchive env config dirPath n₁) disk (uploadArchive env config dirPath n₂) disk := by
  refine .bind (createArchive_alike h dirPath) fun rc _ _ => ?_
  split
  · exact .pure _
  · refine .bind (rrdUploadExecute_alike hsame h config) fun result _ _ => ?_
    split
    · exact .bind (cleanupReport_alike h dirPath) fun _ _ _ => .pure _
    · exact .bind (cleanupReport_alike h dirPath) fun _ _ _ => .pure _

theorem convertIssueType_eq_none_iff {issue : Str} {size : Nat} :
    rrdLogprocConvertIssueType issue size = none ↔ ¬ issue.length < size := by
  rw [rrdLogprocConvertIssueType]
  split <;> simp_all

/-- The live logs are moved for both names or for neither. -/
theorem uploadIssue_alike (hsame : env.SameAnswer) (h : NamesAgree n₁ n₂) {mac ts : Str} (config : RrdConfig)
    (hmac : rrdSysinfoGetMacAddress env 32 = some mac) (hts : rrdSysinfoGetTimestamp env 32 = some ts) (dirPath : Str) :
    Alike UploadEffect.Alike (uploadIssue env config mac ts dirPath n₁) disk
      (uploadIssue env config mac ts dirPath n₂) disk := by
  rw [uploadIssue, uploadIssue]
  cases h₁ : rrdLogprocConvertIssueType n₁ 64 with
  | none =>
    rw [convertIssueType_eq_none_iff.mpr (mt h.1.mpr (convertIssueType_eq_none_iff.mp h₁))]
    exact .pure _
  | some s₁ =>
    obtain ⟨hlen₁, hs₁⟩ := convertIssueType_eq_some_iff.mp h₁
    obtain ⟨s₂, h₂⟩ : ∃ s₂, rrdLogprocConvertIssueType n₂ 64 = some s₂ :=
      ⟨_, convertIssueType_eq_some_iff.mpr ⟨h.1.mp hlen₁, rfl⟩⟩
    obtain ⟨-, hs₂⟩ := convertIssueType_eq_some_iff.mp h₂
    have hmagic : s₁ = loguploadEnable ↔ s₂ = loguploadEnable := by simpa [h₁, h₂] using h.2
    have hlive : checkLiveLogs env dirPath s₁ = checkLiveLogs env dirPath s₂ := by
      simp only [checkLiveLogs, hmagic]
    have hname₁ := generateFilename_eq (length_macAddress hmac) (hs₁ ▸ List.length_take_le _ _) (length_timestamp hts)
    have hname₂ := generateFilename_eq (length_macAddress hmac) (hs₂ ▸ List.length_take_le _ _) (length_timestamp hts)
    simp only [h₂, hlive]
    refine .bind_same .same fun _ _ _ _ => ?_
    simp only [hname₁, hname₂]
    exact uploadArchive_alike hsame ⟨mac, ts, s₁, s₂, hname₁, hname₂⟩ config dirPath

theorem rrdUploadOrchestrate_alike (hsame : env.SameAnswer) (h : NamesAgree n₁ n₂) (dirPath : Str) (disk : FileSystem) :
    Alike UploadEffect.Alike (rrdUploadOrchestrate env (some dirPath) (some n₁)) disk
      (rrdUploadOrchestrate env (some dirPath) (some n₂)) disk := by
  simp only [rrdUploadOrchestrate]
  split
  · exact .pure _
  · split
    · exact .pure _
    · rename_i mac hmac
      split
      · exact .pure _
      · rename_i ts hts
        refine .bind_same .same fun _ _ _ _ => ?_
        split
        · exact .pure _
        · refine .bind_same .same fun _ _ _ _ => ?_
          split
          · exact .pure _
          · exact uploadIssue_alike hsame h _ hmac hts dirPath

/-! ## Two tokens -/

/-- Two effects that differ in the name of an archive, if at all. -/
inductive Effect.Alike (cfg : Config) (env : UploadEnv) (disk : FileSystem) : Effect → Effect → Prop where
  | same (e : Effect) : Alike cfg env disk e e
  | upload {outdir n₁ n₂ : Str} (h : Prog.Alike UploadEffect.Alike (RRD.uploadDebugoutput env cfg outdir n₁) disk
      (RRD.uploadDebugoutput env cfg outdir n₂) disk) :
      Alike cfg env disk (.uploadDebugoutput outdir n₁) (.uploadDebugoutput outdir n₂)

/-- Messages of two tokens run the same commands and end alike, and their
uploads do, from every state of the device. -/
def SuffixBlind (cfg : Config) (t₁ t₂ : Str) : Prop :=
  ∀ (env : Env) (uploadEnv : UploadEnv) (disk : FileSystem), uploadEnv.SameAnswer →
    let o₁ := (rrdEventThreadFunc cfg env (pushIssueTypesToMsgQueue t₁ .eventMsg)).run 0
    let o₂ := (rrdEventThreadFunc cfg env (pushIssueTypesToMsgQueue t₂ .eventMsg)).run 0
    o₁.result = o₂.result ∧
      List.Forall₂ (Effect.Alike cfg uploadEnv disk) (o₁.events.map Prod.snd) (o₂.events.map Prod.snd)

/-- The name of the upload for a token. -/
def uploadName (base suffix : Str) : Str := normalizeIssueName (cleanBase base ++ suffixOf suffix)

/-- Two uploads are of one name, or run alike. -/
theorem Effect.Alike.upload_cases {cfg : Config} {outdir : Str}
    (h : Effect.Alike cfg env disk (.uploadDebugoutput outdir n₁) (.uploadDebugoutput outdir n₂)) :
    n₁ = n₂ ∨ Prog.Alike UploadEffect.Alike (RRD.uploadDebugoutput env cfg outdir n₁) disk
      (RRD.uploadDebugoutput env cfg outdir n₂) disk := by
  cases h with
  | same => exact .inl rfl
  | upload h => exact .inr h

/-- Two tokens are compared on what their base does. -/
theorem suffixBlind_iff_baseRun {cfg : Config} {base s₁ s₂ : Str} (h₁ : TokenParts base s₁) (h₂ : TokenParts base s₂) :
    SuffixBlind cfg (base ++ s₁) (base ++ s₂) ↔ ∀ (env : Env) (uploadEnv : UploadEnv) (disk : FileSystem),
      uploadEnv.SameAnswer → ∀ e ∈ (baseRun cfg env base).events,
        Effect.Alike cfg uploadEnv disk (e.withSuffix (suffixOf s₁)) (e.withSuffix (suffixOf s₂)) := by
  refine forall_congr' fun env => forall_congr' fun uploadEnv => forall_congr' fun disk => imp_congr_right fun _ => ?_
  obtain ⟨hresult₁, hevents₁⟩ := h₁.run cfg env
  obtain ⟨hresult₂, hevents₂⟩ := h₂.run cfg env
  simp only [hresult₁, hresult₂, hevents₁, hevents₂, true_and, List.forall₂_map_left_iff, List.forall₂_map_right_iff,
    List.forall₂_same]

/-- The upload of a base is named after it. -/
theorem baseRun_upload {cfg : Config} {env : Env} {base outdir issuename : Str}
    (h : .uploadDebugoutput outdir issuename ∈ (baseRun cfg env base).events) : issuename = cleanBase base := by
  rw [baseRun] at h
  split at h
  · cases h
  · cases hissue : getIssueInfo (baseBuff base).mdata with
    | none =>
      simp only [processIssueType, hissue] at h
      cases h
    | some issue =>
      rcases processIssueType_emits hissue 0 _ h with h | ⟨-, _, -, h⟩
      · exact h.trans (List.append_nil _)
      · exact h.elim

/-- Where the names agree, so do the uploads. -/
theorem NamesAgree.suffixBlind {cfg : Config} (hcfg : cfg.iarm = true) {base s₁ s₂ : Str} (h₁ : TokenParts base s₁)
    (h₂ : TokenParts base s₂) (h : NamesAgree (uploadName base s₁) (uploadName base s₂)) :
    SuffixBlind cfg (base ++ s₁) (base ++ s₂) := by
  refine (suffixBlind_iff_baseRun h₁ h₂).mpr fun env uploadEnv disk hsame e he => ?_
  cases e with
  | uploadDebugoutput outdir issuename =>
    obtain rfl := baseRun_upload he
    refine .upload ?_
    rw [RRD.uploadDebugoutput, RRD.uploadDebugoutput, if_pos hcfg, if_pos hcfg]
    exact rrdUploadOrchestrate_alike hsame h outdir disk
  | _ => exact .same _

/-- Without a node nothing is done. -/
theorem suffixBlind_of_no_node {cfg : Config} {base s₁ s₂ : Str} (h₁ : TokenParts base s₁) (h₂ : TokenParts base s₂)
    (h : getIssueInfo (cleanBase base) = none) : SuffixBlind cfg (base ++ s₁) (base ++ s₂) := by
  refine (suffixBlind_iff_baseRun h₁ h₂).mpr fun env uploadEnv disk hsame e he => ?_
  have hissue : getIssueInfo (baseBuff base).mdata = none := h
  rw [baseRun] at he
  split at he
  · cases he
  · simp only [processIssueType, hissue] at he
    cases he

/-! ## A device that tells names apart -/

/-- A device that creates no archive. -/
def noArchiveEnv : UploadEnv :=
  { pingUploadEnv (fun _ n => n) with source := fun _ => ⟨false, none, none, .done, ⟨false, false, [], false⟩, fun _ => none⟩ }

/-- A file system with the directory of a report and live logs. -/
def liveDisk (dir : ReportDir) : FileSystem := fun p =>
  if p = components dir.path then some .directory
  else if p = components liveLogsFile then some (.file [])
  else none

variable (dir : ReportDir)

theorem liveDisk_directory : liveDisk dir (components dir.path) = some .directory := if_pos rfl

theorem liveDisk_liveLogs : (liveDisk dir (components liveLogsFile)).isSome := by
  rw [liveDisk]
  split
  · rfl
  · rw [if_pos rfl]
    rfl

theorem validateSource_noArchive (k : Nat) : ((rrdLogprocValidateSource noArchiveEnv k dir.path).run (liveDisk dir)).result =
    some 0 := by
  show some (if liveDisk dir (components dir.path) = some .directory then _ else _) = some 0
  rw [if_pos (liveDisk_directory dir)]
  rfl

theorem validated_noArchive : Validated noArchiveEnv dir.path (liveDisk dir) where
  config := (validated_ping fun _ n => n).config
  mac := rfl
  time := rfl
  source := validateSource_noArchive dir 0

theorem uploadArchive_noArchive (config : RrdConfig) (name : Str) (disk : FileSystem) :
    (uploadArchive noArchiveEnv config dir.path name).run disk = ⟨some 10, [], disk⟩ := rfl

theorem checkLiveLogs_noArchive (s : Str) : ∃ disk', (checkLiveLogs noArchiveEnv dir.path s).run (liveDisk dir) =
    ⟨some (), if s = loguploadEnable then [.rename liveLogsFile (snprintf 1024 (dir.path ++ str "/RRD_LIVE_LOGS.tar.gz"))]
      else [], disk'⟩ := by
  rw [checkLiveLogs]
  split
  · have hask : (ask fun disk : FileSystem => ((disk (components liveLogsFile)).isSome, disk) :
        Prog FileSystem UploadEffect Bool).run (liveDisk dir) = ⟨some true, [], liveDisk dir⟩ :=
      congrArg (fun b => (⟨some b, [], liveDisk dir⟩ : Outcome FileSystem UploadEffect Bool)) (liveDisk_liveLogs dir)
    have hmove : (rrdLogprocHandleLiveLogs noArchiveEnv dir.path).run (liveDisk dir) =
        ⟨some 0, [.rename liveLogsFile (snprintf 1024 (dir.path ++ str "/RRD_LIVE_LOGS.tar.gz"))],
          (UploadEffect.rename liveLogsFile (snprintf 1024 (dir.path ++ str "/RRD_LIVE_LOGS.tar.gz"))).apply (liveDisk dir)⟩ := by
      rw [rrdLogprocHandleLiveLogs, bind_run_of_some hask]
      rfl
    rw [bind_run_of_some hmove]
    exact ⟨_, rfl⟩
  · exact ⟨_, rfl⟩

/-- The device tells apart whether a name is converted, and whether the live logs are moved for it. -/
theorem rrdUploadOrchestrate_noArchive (n : Str) :
    ((rrdUploadOrchestrate noArchiveEnv (some dir.path) (some n)).run (liveDisk dir)).result =
        some (if n.length < 64 then 10 else 8) ∧
      (((rrdUploadOrchestrate noArchiveEnv (some dir.path) (some n)).run (liveDisk dir)).events ≠ [] ↔
        rrdLogprocConvertIssueType n 64 = some loguploadEnable) := by
  obtain ⟨config, mac, ts, hmac, hts, hrun⟩ := rrdUploadOrchestrate_run (validated_noArchive dir) n
  have hprepare : ((rrdLogprocPrepareLogs noArchiveEnv 1 dir.path).run (liveDisk dir)).result = some 0 :=
    validateSource_noArchive dir 1
  rw [hrun, if_pos hprepare, uploadIssue]
  cases hs : rrdLogprocConvertIssueType n 64 with
  | none =>
    rw [if_neg (convertIssueType_eq_none_iff.mp hs)]
    exact ⟨rfl, by simp⟩
  | some s =>
    obtain ⟨hlen, hs'⟩ := convertIssueType_eq_some_iff.mp hs
    obtain ⟨disk', hlive⟩ := checkLiveLogs_noArchive dir s
    have hname := generateFilename_eq (length_macAddress hmac) (hs' ▸ List.length_take_le _ _) (length_timestamp hts)
    simp only [hname]
    rw [bind_run_of_some hlive, uploadArchive_noArchive, if_pos hlen]
    refine ⟨rfl, ?_⟩
    simp only [List.append_nil, Option.some.injEq]
    split <;> simp_all

/-- The base of a token that has a node is clean. -/
theorem clean_cleanBase {base suffix : Str} {issue : IssueNodeData} (h : TokenParts base suffix)
    (hissue : getIssueInfo (cleanBase base) = some issue) : Clean (cleanBase base) := by
  refine ⟨fun hempty => ?_, length_cleanBase base, fun x hx => ?_⟩
  · rw [hempty] at hissue
    cases hissue
  · obtain ⟨hmem, hkept⟩ := List.mem_filter.mp hx
    simp only [Bool.or_eq_true, decide_eq_true_eq] at hkept
    rcases hkept with (hkept | rfl) | hkept
    · exact .inl hkept
    · exact absurd (List.mem_append_left _ (List.mem_of_mem_take hmem)) h.comma
    · exact .inr hkept

theorem SuffixBlind.namesAgree {cfg : Config} (hcfg : cfg.iarm = true) {base s₁ s₂ : Str} {issue : IssueNodeData}
    (h₁ : TokenParts base s₁) (h₂ : TokenParts base s₂) (hissue : getIssueInfo (cleanBase base) = some issue)
    (h : SuffixBlind cfg (base ++ s₁) (base ++ s₂)) : NamesAgree (uploadName base s₁) (uploadName base s₂) := by
  have hclean := clean_cleanBase h₁ hissue
  obtain ⟨node, hnode, -⟩ := getIssueInfo_node hissue
  have hshort : ((baseBuff base).mdata ++ (baseBuff base).suffix).length < 512 := by
    have hlen : ((baseBuff base).mdata ++ (baseBuff base).suffix).length ≤ 127 := by
      rw [show (baseBuff base).suffix = [] from rfl, List.append_nil]
      exact length_cleanBase base
    omega
  obtain ⟨dir, hup⟩ := processIssueType_anyEnv cfg (baseBuff base) hclean hissue hnode rfl rfl hshort
  have hbase : .uploadDebugoutput dir.path (cleanBase base) ∈
      (baseRun cfg (anyEnv node issue.subNode) base).events := by
    rw [baseRun, if_neg hclean.ne_nil]
    rwa [show (baseBuff base).suffix = [] from rfl, List.append_nil] at hup
  have hblind := (suffixBlind_iff_baseRun h₁ h₂).mp h (anyEnv node issue.subNode) noArchiveEnv (liveDisk dir)
    (fun _ _ _ _ _ _ => rfl) _ hbase
  rw [Effect.withSuffix, Effect.withSuffix] at hblind
  rcases hblind.upload_cases with hname | hruns
  · rw [uploadName, uploadName, hname]
    exact ⟨Iff.rfl, Iff.rfl⟩
  · rw [RRD.uploadDebugoutput, RRD.uploadDebugoutput, if_pos hcfg, if_pos hcfg] at hruns
    obtain ⟨hresult, hevents⟩ := hruns
    obtain ⟨hresult₁, hevents₁⟩ := rrdUploadOrchestrate_noArchive dir (uploadName base s₁)
    obtain ⟨hresult₂, hevents₂⟩ := rrdUploadOrchestrate_noArchive dir (uploadName base s₂)
    constructor
    · have hcodes : (if (uploadName base s₁).length < 64 then (10 : Int) else 8) =
          if (uploadName base s₂).length < 64 then 10 else 8 :=
        Option.some.inj (hresult₁.symm.trans (hresult.trans hresult₂))
      constructor <;> intro hlt <;> by_contra hge <;> simp only [hlt, hge, if_true, if_false] at hcodes <;>
        exact absurd hcodes (by decide)
    · have hempty := hevents.length_eq
      rw [← hevents₁, ← hevents₂, ← List.length_pos_iff, ← List.length_pos_iff]
      exact iff_of_eq (congrArg (0 < ·) hempty)

/-- On every device two tokens of one base are handled alike, but for the name
of the archive, exactly when the base has no node, or the suffixes have no say
in the length and the issue type that the upload looks at. -/
theorem suffix_blind_iff {cfg : Config} (hcfg : cfg.iarm = true) {base s₁ s₂ : Str} (h₁ : TokenParts base s₁)
    (h₂ : TokenParts base s₂) : SuffixBlind cfg (base ++ s₁) (base ++ s₂) ↔
      getIssueInfo (cleanBase base) = none ∨ NamesAgree (uploadName base s₁) (uploadName base s₂) := by
  constructor
  · intro h
    cases hissue : getIssueInfo (cleanBase base) with
    | none => exact .inl rfl
    | some issue => exact .inr (h.namesAgree hcfg h₁ h₂ hissue)
  · rintro (hissue | h)
    · exact suffixBlind_of_no_node h₁ h₂ hissue
    · exact h.suffixBlind hcfg h₁ h₂

theorem suffix_blind_ping :
    SuffixBlind (plainConfig true) (str "Network.Ping" ++ str "_ab12") (str "Network.Ping" ++ []) := by
  have h₁ : TokenParts (str "Network.Ping") (str "_ab12") :=
    ⟨by decide +kernel, by decide +kernel, by decide +kernel, by decide +kernel⟩
  have h₂ : TokenParts (str "Network.Ping") [] :=
    ⟨by decide +kernel, by decide +kernel, by decide +kernel, by decide +kernel⟩
  exact (suffix_blind_iff rfl h₁ h₂).mpr (.inr ⟨by decide, by decide⟩)

/-- The suffix `_ENABLE` makes an upload for `LOGUPLOAD` move the live logs, and
any suffix makes one for a base of 60 bytes fail. -/
theorem logupload_suffix_moves_logs :
    (TokenParts (str "LOGUPLOAD") [] ∧ TokenParts (str "LOGUPLOAD") (str "_ENABLE") ∧
      ¬ SuffixBlind (plainConfig true) (str "LOGUPLOAD" ++ []) (str "LOGUPLOAD" ++ str "_ENABLE")) ∧
    TokenParts (List.replicate 60 (ch 'A')) [] ∧ TokenParts (List.replicate 60 (ch 'A')) (str "_ab12345") ∧
      ¬ SuffixBlind (plainConfig true) (List.replicate 60 (ch 'A') ++ []) (List.replicate 60 (ch 'A') ++ str "_ab12345") := by
  have hlog : TokenParts (str "LOGUPLOAD") [] :=
    ⟨by decide +kernel, by decide +kernel, by decide +kernel, by decide +kernel⟩
  have henable : TokenParts (str "LOGUPLOAD") (str "_ENABLE") :=
    ⟨by decide +kernel, by decide +kernel, by decide +kernel, by decide +kernel⟩
  have hlong : TokenParts (List.replicate 60 (ch 'A')) [] :=
    ⟨by decide +kernel, by decide +kernel, by decide +kernel, by decide +kernel⟩
  have hlong' : TokenParts (List.replicate 60 (ch 'A')) (str "_ab12345") :=
    ⟨by decide +kernel, by decide +kernel, by decide +kernel, by decide +kernel⟩
  refine ⟨⟨hlog, henable, fun h => ?_⟩, hlong, hlong', fun h => ?_⟩
  · have hissue : getIssueInfo (cleanBase (str "LOGUPLOAD")) = some ⟨some (str "LOGUPLOAD"), none⟩ := by decide
    exact absurd ((h.namesAgree rfl hlog henable hissue).2.mpr (by decide)) (by decide)
  · have hissue : getIssueInfo (cleanBase (List.replicate 60 (ch 'A'))) =
        some ⟨some (List.replicate 60 (ch 'A')), none⟩ := by decide +kernel
    exact absurd ((h.namesAgree rfl hlong hlong' hissue).1.mp (by decide +kernel)) (by decide +kernel)

end RRD
