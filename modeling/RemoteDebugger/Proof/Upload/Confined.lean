import RemoteDebugger.Proof.Upload.Cleanup

/-!
# Where an upload writes

* `macAddress_hex`, `timestamp_stamp`, `convertIssueType_bytes`: the parts of an
  archive's name;
* `rrdUploadOrchestrate_confined`, `uploadDebugoutput_confined`: an upload writes
  an archive of such a name, moves the live logs into the directory of the
  report, and removes both.
-/

namespace RRD

open Framework Framework.Prog

/-- The MAC address is hexadecimal digits and colons. -/
def UploadEnv.HexMac (env : UploadEnv) : Prop := ∀ mac ∈ env.getEstbMac, ∀ b ∈ mac, isHexDigit b ∨ b = ch ':'

/-- What an upload does for the report in a directory. -/
def UploadEffect.Confined (dir : ReportDir) : UploadEffect → Prop
  | rename oldpath newpath => oldpath = liveLogsFile ∧ newpath = dir.path ++ str "/RRD_LIVE_LOGS.tar.gz"
  | archive outpath _ => ∃ name : ArchiveName, outpath = rrdLogDir ++ ch '/' :: name.text ∧
      components outpath = [str "tmp", str "rrd", name.text]
  | uploadstblogsRun params => ∃ name : ArchiveName, params.rrdFile = rrdLogDir ++ name.text
  | remove path => ∃ name : ArchiveName, path = rrdLogDir ++ name.text
  | system cmd => cmd = str "rm -rf " ++ dir.path
  | vSecureSystem cmd => ∃ issuename, (∀ b ∈ issuename, isPlain b) ∧
      cmd = rrdScript ++ str " " ++ dir.path ++ str " " ++ issuename

variable {env : UploadEnv} {dir : ReportDir} {issue : Str}

theorem perform_emits {P : UploadEffect → Prop} {e : UploadEffect} (h : P e) : Emits (perform e) P :=
  .bind (.emit h) fun _ => .ask _

/-! ## The parts of a name -/

theorem macAddress_hex (h : env.HexMac) {size : Nat} {mac : Str} (hmac : rrdSysinfoGetMacAddress env size = some mac) :
    ∀ b ∈ mac, isHexDigit b := by
  simp only [rrdSysinfoGetMacAddress, Option.ite_none_left_eq_some, Option.map_eq_some_iff] at hmac
  obtain ⟨-, macWithColons, hget, rfl⟩ := hmac
  intro b hb
  obtain ⟨hmem, hcolon⟩ := List.mem_filter.mp (List.mem_of_mem_take hb)
  exact (h _ hget b (List.mem_of_mem_take hmem)).resolve_right (of_decide_eq_true hcolon)

theorem isStamp_of_isDigit {c : Char} (h : c.isDigit) : isStamp (ch c) := by
  simp only [Char.isDigit, ge_iff_le, Bool.and_eq_true, decide_eq_true_eq, UInt32.le_iff_toNat_le] at h
  have hbounds : 48 ≤ c.val.toNat ∧ c.val.toNat ≤ 57 := h
  have hnat : (ch c).toNat = c.val.toNat % 256 := UInt8.toNat_ofNat' ..
  have hlow : ch '0' ≤ ch c := by
    rw [UInt8.le_iff_toNat_le, hnat]
    exact (by omega : 48 ≤ c.val.toNat % 256)
  have hhigh : ch c ≤ ch '9' := by
    rw [UInt8.le_iff_toNat_le, hnat]
    exact (by omega : c.val.toNat % 256 ≤ 57)
  exact isStamp_of_isalnum (by simp [isalnum, hlow, hhigh])

theorem decimal_stamp (w n : Nat) : ∀ b ∈ decimal w n, isStamp b := by
  intro b hb
  obtain ⟨c, hc, rfl⟩ := List.mem_map.mp hb
  rcases List.mem_append.mp hc with hc | hc
  · rw [List.eq_of_mem_replicate hc]
    decide
  · exact isStamp_of_isDigit (Nat.isDigit_of_mem_toDigits (by decide) (by decide) hc)

theorem ampm_stamp (hour : Nat) : ∀ b ∈ (hourAmpm hour).2, isStamp b := by
  have ham : ∀ b ∈ str "AM", isStamp b := by decide +kernel
  rw [hourAmpm]
  split
  · exact (by decide +kernel : ∀ b ∈ str "PM", isStamp b)
  · split
    · exact ham
    · exact ham

theorem timestamp_stamp {size : Nat} {ts : Str} (h : rrdSysinfoGetTimestamp env size = some ts) :
    ∀ b ∈ ts, isStamp b := by
  simp only [rrdSysinfoGetTimestamp, Option.ite_none_left_eq_some, Option.map_eq_some_iff] at h
  obtain ⟨-, tm, -, rfl⟩ := h
  intro b hb
  have hdash : ∀ b ∈ str "-", isStamp b := by decide +kernel
  have hmem := List.mem_of_mem_take (List.mem_of_mem_take hb)
  simp only [List.mem_append] at hmem
  rcases hmem with ((((((((((h | h) | h) | h) | h) | h) | h) | h) | h) | h) | h) | h
  all_goals first
    | exact decimal_stamp _ _ b h
    | exact hdash b h
    | exact ampm_stamp _ b h

/-- A letter or a digit, in upper case. -/
theorem toupper_archiveByte {c : Byte} (h : isalnum c) : isArchiveByte (toupper c) := by
  simp only [isalnum, Bool.or_eq_true, Bool.and_eq_true, decide_eq_true_eq] at h
  by_cases hlower : ch 'a' ≤ c ∧ c ≤ ch 'z'
  · have hsub : (c - 32).toNat = c.toNat - 32 :=
      UInt8.toNat_sub_of_le c 32 (UInt8.le_trans (by decide) hlower.1)
    have hlow : ch 'A' ≤ c - 32 := by
      rw [UInt8.le_iff_toNat_le, hsub]
      exact Nat.le_sub_of_add_le (UInt8.le_iff_toNat_le.mp hlower.1)
    have hhigh : c - 32 ≤ ch 'Z' := by
      rw [UInt8.le_iff_toNat_le, hsub]
      exact Nat.sub_le_of_le_add (UInt8.le_iff_toNat_le.mp hlower.2)
    simp [toupper, isArchiveByte, hlower, hlow, hhigh]
  · have hkeep : toupper c = c := by
      rw [toupper, if_neg]
      simpa using hlower
    rw [hkeep]
    rcases h.resolve_right hlower with h | h
    · simp [isArchiveByte, h]
    · simp [isArchiveByte, h]

theorem convertIssueType_bytes {size : Nat} {s : Str} (h : rrdLogprocConvertIssueType issue size = some s) :
    ∀ b ∈ s, isArchiveByte b := by
  obtain ⟨-, rfl⟩ := convertIssueType_eq_some_iff.mp h
  intro b hb
  obtain ⟨c, -, hc⟩ := List.mem_filterMap.mp (List.mem_of_mem_take hb)
  rw [convertByte] at hc
  split at hc
  · rename_i halnum
    rw [← Option.some.inj hc]
    exact toupper_archiveByte halnum
  · split at hc
    · rw [← Option.some.inj hc]
      decide
    · split at hc
      · rw [← Option.some.inj hc]
        decide
      · cases hc

/-- An archive is named after the parts. -/
theorem exists_archiveName (h : env.HexMac) {mac s ts name : Str} (hmac : rrdSysinfoGetMacAddress env 32 = some mac)
    (hts : rrdSysinfoGetTimestamp env 32 = some ts) (hs : rrdLogprocConvertIssueType issue 64 = some s)
    (hname : rrdArchiveGenerateFilename mac s ts 256 = some name) :
    name.length < 256 ∧ ∃ archive : ArchiveName, name = archive.text := by
  refine ⟨length_generateFilename hname, ?_⟩
  simp only [rrdArchiveGenerateFilename, Option.ite_none_left_eq_some, Option.some.injEq] at hname
  obtain ⟨-, -, rfl⟩ := hname
  exact ⟨⟨mac, s, ts, macAddress_hex h hmac, convertIssueType_bytes hs, timestamp_stamp hts⟩, rfl⟩

/-! ## The parts of an upload -/

theorem createArchive_confined {name : ArchiveName} (hlen : name.text.length < 256) (sourceDir : Str) :
    Emits (createArchive env sourceDir rrdLogDir name.text) (UploadEffect.Confined dir) := by
  have hdir : rrdLogDir ≠ [] := by decide
  have hcut : snprintf 8192 (rrdLogDir ++ ch '/' :: name.text) = rrdLogDir ++ ch '/' :: name.text := by
    refine List.take_of_length_le ?_
    simp only [List.length_append, List.length_cons, show rrdLogDir.length = 9 from rfl]
    omega
  simp only [createArchive, hdir, ne_eq, not_false_iff, if_true, hcut]
  refine .bind (.ask _) fun src => ?_
  split
  · refine .bind (perform_emits ⟨name, rfl, ?_⟩) fun _ => .pure _
    rw [components_slash, name.components_text]
  · exact .pure _

theorem rrdUploadExecute_confined {name : ArchiveName} (hlen : name.text.length < 256) (config : RrdConfig) :
    Emits (rrdUploadExecute env config rrdLogDir name.text) (UploadEffect.Confined dir) := by
  rw [rrdUploadExecute]
  split
  · exact .pure _
  · split
    · exact .pure _
    · split
      · exact .pure _
      · exact .bind (.bind (.emit ⟨name, (components_outpath hlen).2⟩) fun _ => .ask _) fun _ => .pure _

theorem cleanupReport_confined {name : ArchiveName} (hlen : name.text.length < 256) :
    Emits (cleanupReport dir.path name.text) (UploadEffect.Confined dir) := by
  refine .bind (perform_emits ⟨name, (components_outpath hlen).2⟩) fun _ => ?_
  exact perform_emits dir.rm_words.1

theorem checkLiveLogs_confined (s : Str) : Emits (checkLiveLogs env dir.path s) (UploadEffect.Confined dir) := by
  rw [checkLiveLogs]
  split
  · refine .bind (.bind (.ask _) fun found => ?_) fun _ => .pure _
    split
    · exact .pure _
    · split
      · exact .pure _
      · exact .bind (perform_emits ⟨rfl, dir.liveLogs_path⟩) fun _ => .pure _
  · exact .pure _

theorem uploadArchive_confined {name : ArchiveName} (hlen : name.text.length < 256) (config : RrdConfig) :
    Emits (uploadArchive env config dir.path name.text) (UploadEffect.Confined dir) := by
  refine .bind (createArchive_confined hlen _) fun rc => ?_
  split
  · exact .pure _
  · refine .bind (rrdUploadExecute_confined hlen config) fun result => ?_
    split
    · exact .bind (cleanupReport_confined hlen) fun _ => .pure _
    · exact .bind (cleanupReport_confined hlen) fun _ => .pure _

theorem uploadIssue_confined (h : env.HexMac) {mac ts : Str} (hmac : rrdSysinfoGetMacAddress env 32 = some mac)
    (hts : rrdSysinfoGetTimestamp env 32 = some ts) (config : RrdConfig) :
    Emits (uploadIssue env config mac ts dir.path issue) (UploadEffect.Confined dir) := by
  rw [uploadIssue]
  split
  · exact .pure _
  · rename_i s hs
    refine .bind (checkLiveLogs_confined s) fun _ => ?_
    split
    · exact .pure _
    · rename_i name hname
      obtain ⟨hlen, archive, rfl⟩ := exists_archiveName h hmac hts hs hname
      exact uploadArchive_confined hlen config

/-! ## The upload -/

theorem rrdUploadOrchestrate_confined (h : env.HexMac) (dir : ReportDir) (issue : Str) :
    Emits (rrdUploadOrchestrate env (some dir.path) (some issue)) (UploadEffect.Confined dir) := by
  have hvalidate (k : Nat) : Emits (rrdLogprocValidateSource env k dir.path) (UploadEffect.Confined dir) := .ask _
  simp only [rrdUploadOrchestrate]
  split
  · exact .pure _
  · split
    · exact .pure _
    · rename_i mac hmac
      split
      · exact .pure _
      · rename_i ts hts
        refine .bind (hvalidate 0) fun rc => ?_
        split
        · exact .pure _
        · refine .bind (hvalidate 1) fun rc => ?_
          split
          · exact .pure _
          · exact uploadIssue_confined h hmac hts _

theorem uploadDebugoutput_confined (h : env.HexMac) (cfg : Config) (dir : ReportDir) {issuename : Str}
    (hissue : ∀ b ∈ issuename, isPlain b) :
    Emits (uploadDebugoutput env cfg dir.path issuename) (UploadEffect.Confined dir) := by
  rw [uploadDebugoutput]
  split
  · exact rrdUploadOrchestrate_confined h dir _
  · refine .bind (.bind (.emit ⟨_, fun b hb => ?_, rfl⟩) fun _ => .ask _) fun _ => .pure _
    obtain ⟨c, hc, rfl⟩ := List.mem_map.mp hb
    split
    · decide
    · exact hissue c hc

end RRD
