import RemoteDebugger.Proof.Dispatch.Report
import RemoteDebugger.Proof.Upload.Names

/-!
# The buffers for a name

The name of a report goes from the parser through five buffers. All but that of
the issue type in `rrd_upload_orchestrate` hold every name.

* `Item.length_lt`: the name fits the first four;
* `uploadIssue_named`, `uploadIssue_unnamed`: what the upload does with a name;
* `naming_passes_iff`: when every upload for a token gets its archive's name.
-/

namespace RRD

open Framework Framework.Prog

variable {cfg : Config} {env : UploadEnv} {mac timestamp issuename : Str} {item : Str × Str}

/-- The array `tarName` holds the name of every item. -/
theorem Item.length_lt (h : Item item) : (item.1 ++ item.2).length < 512 := by
  have hbase := h.base.length_le
  have hsuffix := h.length_suffix
  rw [rrdMaxSuffixLen] at hsuffix
  rw [List.length_append]
  omega

/-! ## The upload -/

/-- With a name, the archive is made and uploaded. -/
theorem uploadIssue_named {name : Str} (h : reportName mac timestamp issuename = some name) (config : RrdConfig)
    (dirPath : Str) : ∃ issueTypeSanitized,
      uploadIssue env config mac timestamp dirPath (normalizeIssueName issuename) =
        checkLiveLogs env dirPath issueTypeSanitized >>= fun _ => uploadArchive env config dirPath name := by
  obtain ⟨s, hs, hname⟩ := Option.bind_eq_some_iff.mp h
  refine ⟨s, ?_⟩
  simp only [uploadIssue, hs, hname]

/-- Without one, the report is left where it is. -/
theorem uploadIssue_unnamed (hmac : mac.length ≤ 31) (hts : timestamp.length ≤ 31)
    (h : reportName mac timestamp issuename = none) (config : RrdConfig) (dirPath : Str) :
    uploadIssue env config mac timestamp dirPath (normalizeIssueName issuename) = pure 8 := by
  cases hs : rrdLogprocConvertIssueType (normalizeIssueName issuename) 64 with
  | none => rw [uploadIssue, hs]
  | some s =>
    obtain ⟨-, hs'⟩ := convertIssueType_eq_some_iff.mp hs
    rw [reportName, hs] at h
    have hname := generateFilename_eq hmac (hs' ▸ List.length_take_le _ _) hts
    exact absurd (hname.symm.trans h) (Option.some_ne_none _)

/-! ## Tokens -/

/-- Every upload that is made for an item, on any device, gets the name of its archive. -/
def NamingPasses (cfg : Config) (item : Str × Str) : Prop :=
  ∀ (env : Env) (rbuf : DataBuf) (k : Nat) (outdir issuename : Str),
    .uploadDebugoutput outdir issuename ∈ ((processIssueType cfg env (cmdBuff rbuf item)).run k).events →
      ∀ mac timestamp : Str, mac.length ≤ 17 → timestamp.length ≤ 31 → (reportName mac timestamp issuename).isSome

/-- The uploads for an item have its name. -/
theorem upload_item {env : Env} {rbuf : DataBuf} {k : Nat} {outdir : Str}
    (h : .uploadDebugoutput outdir issuename ∈ ((processIssueType cfg env (cmdBuff rbuf item)).run k).events) :
    (getIssueInfo item.1).isSome ∧ issuename = item.1 ++ item.2 := by
  cases hissue : getIssueInfo (cmdBuff rbuf item).mdata with
  | none =>
    simp only [processIssueType, hissue] at h
    cases h
  | some issue =>
    refine ⟨by rw [show item.1 = (cmdBuff rbuf item).mdata from rfl, hissue]; rfl, ?_⟩
    rcases processIssueType_emits hissue k _ h with h | ⟨-, _, -, h⟩
    · exact h
    · exact h.elim

/-- Some device uploads a report on the item. -/
theorem exists_upload (cfg : Config) (h : Item item) (hissue : (getIssueInfo item.1).isSome) : ∃ env rbuf outdir,
    .uploadDebugoutput outdir (item.1 ++ item.2) ∈ ((processIssueType cfg env (cmdBuff rbuf item)).run 0).events := by
  obtain ⟨issue, hissue⟩ := Option.isSome_iff_exists.mp hissue
  obtain ⟨node, hnode, -⟩ := getIssueInfo_node hissue
  let rbuf : DataBuf := rrdDataBuffInit .eventMsg .deepsleepInvalidDefault []
  obtain ⟨dir, hup⟩ := processIssueType_anyEnv cfg (cmdBuff rbuf item) h.base hissue hnode rfl rfl h.length_lt
  exact ⟨_, rbuf, dir.path, hup⟩

theorem NamingPasses.fits (h : Item item) (hpass : NamingPasses cfg item) (hissue : (getIssueInfo item.1).isSome) :
    (item.1 ++ item.2).length < 64 := by
  obtain ⟨env, rbuf, outdir, hup⟩ := exists_upload cfg h hissue
  have hname := hpass env rbuf 0 _ _ hup [] [] (Nat.zero_le _) (Nat.zero_le _)
  by_contra hlong
  rw [reportName_item (Nat.zero_le _) (Nat.zero_le _) h, if_neg hlong] at hname
  exact Bool.false_ne_true hname

/-- The upload for an item of a message gets a name exactly when the item has no
node, and no upload, or fits the buffer of the issue type. -/
theorem naming_passes_iff {mdata : Str} (h : item ∈ acceptedTokens mdata) :
    NamingPasses cfg item ↔ ((getIssueInfo item.1).isSome → (item.1 ++ item.2).length < 64) := by
  have hitem := acceptedTokens_item h
  refine ⟨fun hpass => hpass.fits hitem, fun hfits env rbuf k outdir issuename hup mac timestamp hmac hts => ?_⟩
  obtain ⟨hissue, rfl⟩ := upload_item hup
  rw [reportName_item (hmac.trans (by decide)) hts hitem, if_pos (hfits hissue)]
  rfl

theorem naming_passes_ping : NamingPasses (plainConfig true) (str "Network.Ping", str "_ab12") := by
  have hmem : (str "Network.Ping", str "_ab12") ∈ acceptedTokens (str "Network.Ping_ab12") := by decide +kernel
  exact (naming_passes_iff hmem).mpr fun _ => by decide

/-- A base of 60 bytes, with a suffix of five. -/
theorem naming_fails : (List.replicate 60 (ch 'A'), str "_ab12") ∈ acceptedTokens (List.replicate 60 (ch 'A') ++ str "_ab12") ∧
    ¬NamingPasses (plainConfig true) (List.replicate 60 (ch 'A'), str "_ab12") := by
  have hmem : (List.replicate 60 (ch 'A'), str "_ab12") ∈ acceptedTokens (List.replicate 60 (ch 'A') ++ str "_ab12") := by
    decide +kernel
  exact ⟨hmem, fun hpass => absurd (hpass.fits (acceptedTokens_item hmem) (by decide +kernel)) (by decide +kernel)⟩

end RRD
