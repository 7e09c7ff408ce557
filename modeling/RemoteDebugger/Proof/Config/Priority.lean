import RemoteDebugger.Proof.Config.Merge

/-!
# The override file and the priority of RFC

`rrd_config_load` tests the build type twice, and merges RFC before two other
sources:

* `override_ignored_iff`: on a production build `/opt/dcm.properties` has no
  effect exactly when the DCM settings keep the build type, or leave nothing to
  the fallback;
* `rfc_server_kept_iff`: the log server of RFC is the result exactly when no
  later source sets another one.
-/

namespace RRD

open Framework

variable {src : ConfigSources}

theorem rrdConfigLoad_config (src : ConfigSources) : (rrdConfigLoad src).2 =
    loadFallback src (if overridden src (loadProperties src) then loadProperties src
      else loadRemote src (loadProperties src)) := by
  simp only [rrdConfigLoad, apply_ite Prod.snd, ite_self]

theorem rrdConfigLoad_eq {a b : ConfigSources} (h : (rrdConfigLoad a).2 = (rrdConfigLoad b).2) :
    rrdConfigLoad a = rrdConfigLoad b := by
  rw [rrdConfigLoad_config, rrdConfigLoad_config] at h
  simp only [rrdConfigLoad, h]

/-! ## The override file -/

theorem get_remote_eq_nil_iff (k : ConfigKey) (hk : RrdConfig.initial.get k = []) :
    (loadRemote src (loadProperties src)).get k = [] ↔ k ∉ (remoteAssignments src).map Prod.fst := by
  rw [get_loadRemote]
  exact RrdConfig.get_eq_nil_iff hk (remoteAssignments_ne src)

theorem rfcAssignments_buildType (src : ConfigSources) : lastSet .buildType (rfcAssignments src) = none := by
  rw [lastSet_eq_none, rfcAssignments]
  split
  · split <;> simp
  · simp

theorem take_eq_prod {v : Str} : v.take (ConfigKey.buildType.size - 1) = str "prod" ↔ v = str "prod" := by
  constructor
  · intro h
    have hl : (v.take (ConfigKey.buildType.size - 1)).length = 4 := by rw [h]; rfl
    rw [List.length_take] at hl
    rw [← h, List.take_of_length_le]
    simp only [ConfigKey.size] at hl ⊢
    omega
  · rintro rfl
    rfl

/-- The DCM settings decide whether a production build stays one. -/
theorem buildType_loadRemote (h : (loadProperties src).buildType = str "prod") :
    (loadRemote src (loadProperties src)).buildType = str "prod" ↔
      ∀ v, lastSet .buildType (dcmLines src.dcmSettings) = some v → v = str "prod" := by
  have hg := get_loadRemote src .buildType
  rw [remoteAssignments, RrdConfig.assign_append, RrdConfig.assign_append, ← loadProperties_eq, RrdConfig.get_assign,
    RrdConfig.get_assign, rfcAssignments_buildType] at hg
  have hp : (loadProperties src).get .buildType = str "prod" := h
  rw [show (loadRemote src (loadProperties src)).buildType = _ from hg, Option.map_none, Option.getD_none, hp]
  cases lastSet .buildType (dcmLines src.dcmSettings) with
  | none => simp
  | some v => simpa using take_eq_prod

/-- A production build ignores the contents of `/opt/dcm.properties` exactly
when no line of the DCM settings leaves another build type, or the sources
before the fallback set both a log server and an upload link. -/
theorem override_ignored_iff (h : (loadProperties src).buildType = str "prod") :
    (∀ a b, rrdConfigLoad { src with optDcmProperties := a } = rrdConfigLoad { src with optDcmProperties := b }) ↔
      (∀ v, lastSet .buildType (dcmLines src.dcmSettings) = some v → v = str "prod") ∨
        (ConfigKey.logServer ∈ (remoteAssignments src).map Prod.fst ∧
          ConfigKey.httpUploadLink ∈ (remoteAssignments src).map Prod.fst) := by
  -- until the fallback nothing depends on the override file
  have hload (a : Option Str) : (rrdConfigLoad { src with optDcmProperties := a }).2 =
      loadFallback { src with optDcmProperties := a } (loadRemote src (loadProperties src)) := by
    have hn : overridden { src with optDcmProperties := a } (loadProperties src) = false := by
      simp [overridden, h]
    rw [rrdConfigLoad_config]
    show loadFallback _ (if overridden _ (loadProperties src) = true then _ else _) = _
    rw [hn]
    rfl
  have hserver : (loadRemote src (loadProperties src)).logServer = [] ↔
      ConfigKey.logServer ∉ (remoteAssignments src).map Prod.fst := get_remote_eq_nil_iff .logServer rfl
  have hlink : (loadRemote src (loadProperties src)).httpUploadLink = [] ↔
      ConfigKey.httpUploadLink ∉ (remoteAssignments src).map Prod.fst := get_remote_eq_nil_iff .httpUploadLink rfl
  rw [← buildType_loadRemote h]
  constructor
  · intro heq
    by_contra hno
    rw [not_or, not_and_or] at hno
    have hempty : (loadRemote src (loadProperties src)).logServer = [] ∨
        (loadRemote src (loadProperties src)).httpUploadLink = [] := hno.2.imp hserver.mpr hlink.mpr
    have hread (content : Str) (hc : content ≠ []) :
        (rrdConfigLoad { src with optDcmProperties := some content }).2 =
          (loadRemote src (loadProperties src)).assign (propertiesLines (some content)) := by
      rw [hload, loadFallback_eq, if_pos hempty, dcmFile, if_pos (by simp [overridden, hno.1, fileExists, hc])]
    have h12 := congrArg (fun r => r.2.get .rdkPath) (heq (some (str "RDK_PATH=1")) (some (str "RDK_PATH=2")))
    have h1 : propertiesLines (some (str "RDK_PATH=1")) = [(.rdkPath, str "1")] := by decide
    have h2 : propertiesLines (some (str "RDK_PATH=2")) = [(.rdkPath, str "2")] := by decide
    simp only [hread _ (by decide : str "RDK_PATH=1" ≠ []), hread _ (by decide : str "RDK_PATH=2" ≠ []), h1, h2,
      RrdConfig.get_assign] at h12
    exact absurd (show str "1" = str "2" from h12) (by decide)
  · rintro hkeep a b
    apply rrdConfigLoad_eq
    rw [hload, hload, loadFallback_eq, loadFallback_eq]
    rcases hkeep with hprod | ⟨hs, hl⟩
    · have hf (c : Option Str) : dcmFile { src with optDcmProperties := c } (loadRemote src (loadProperties src)) =
          if fileExists src.etcDcmProperties then src.etcDcmProperties else none := by
        simp [dcmFile, overridden, hprod]
      rw [hf, hf]
    · have hs' : ¬ (loadRemote src (loadProperties src)).logServer = [] := fun he => hserver.mp he hs
      have hl' : ¬ (loadRemote src (loadProperties src)).httpUploadLink = [] := fun he => hlink.mp he hl
      simp only [hs', hl', or_self, if_false]

/-- A production build whose DCM settings name another build type. -/
def prodSources : ConfigSources where
  includeProperties := none
  deviceProperties := some (str "BUILD_TYPE=prod\n")
  tr181 := none
  logServerUrl := none
  ssrUrl := none
  dcmSettings := some (str "BUILD_TYPE=dev\n")
  optDcmProperties := none
  etcDcmProperties := none

theorem override_ignored_iff_sample : (loadProperties prodSources).buildType = str "prod" ∧
    ¬ ∀ a b, rrdConfigLoad { prodSources with optDcmProperties := a } =
      rrdConfigLoad { prodSources with optDcmProperties := b } := by
  have h : (loadProperties prodSources).buildType = str "prod" := by decide
  refine ⟨h, fun heq => ?_⟩
  rcases (override_ignored_iff h).mp heq with hk | ⟨hs, -⟩
  · exact absurd (hk (str "dev") (by decide)) (by decide)
  · exact absurd hs (by decide)

/-- A production build that reads `/opt/dcm.properties`. -/
theorem override_read_on_prod : (loadProperties prodSources).buildType = str "prod" ∧
    rrdConfigLoad { prodSources with optDcmProperties := none } ≠
      rrdConfigLoad { prodSources with
        optDcmProperties := some (str "LOG_SERVER=evil\nHTTP_UPLOAD_LINK=http://evil\n") } := by
  decide +kernel

/-! ## The priority of RFC -/

/-- What the fallback assigns after the other sources: it reads a file only if
none of them set an upload link. -/
def fallbackAssignments (src : ConfigSources) : List (ConfigKey × Str) :=
  if ConfigKey.httpUploadLink ∈ (remoteAssignments src).map Prod.fst then []
  else propertiesLines (dcmFile src (RrdConfig.initial.assign (remoteAssignments src)))

theorem dcmFile_congr {config config' : RrdConfig} (h : config.buildType = config'.buildType) :
    dcmFile src config = dcmFile src config' := by
  rw [dcmFile, dcmFile, overridden, overridden, h]

theorem mem_rfcAssignments {v : Str} (ht : fileExists src.tr181) (hv : rfcValue src.logServerUrl = some v) :
    lastSet .logServer (rfcAssignments src) = some v := by
  have hl : lastSet ConfigKey.logServer (if ConfigKey.httpUploadLink ∈ (propertyAssignments src).map Prod.fst then []
      else (rfcValue src.ssrUrl).toList.map fun v => (ConfigKey.httpUploadLink, (v ++ str "/cgi-bin/S3.cgi").take 599)) =
      none := by
    rw [lastSet_eq_none]
    split <;> simp
  rw [rfcAssignments, if_pos ht, lastSet_append, hl, hv]
  rfl

/-- Where RFC answers with a log server, it is the result exactly when the last
log server in the DCM settings and the fallback after them, if there is one, is
the same up to the size of the field. -/
theorem rfc_server_kept_iff {v : Str} (ho : ¬ overridden src (loadProperties src)) (ht : fileExists src.tr181)
    (hv : rfcValue src.logServerUrl = some v) :
    (rrdConfigLoad src).2.logServer = v.take 255 ↔
      ∀ w, lastSet .logServer (dcmLines src.dcmSettings ++ fallbackAssignments src) = some w →
        w.take 255 = v.take 255 := by
  have hrem : lastSet .logServer (remoteAssignments src) =
      (lastSet .logServer (dcmLines src.dcmSettings)).or (some v) := by
    rw [remoteAssignments, lastSet_append, lastSet_append, mem_rfcAssignments ht hv, Option.some_or]
  have hserver : ¬ (loadRemote src (loadProperties src)).logServer = [] := fun he => by
    have := lastSet_eq_none.mpr ((get_remote_eq_nil_iff .logServer rfl).mp he)
    rw [hrem, Option.or_eq_none_iff] at this
    exact absurd this.2 (by simp)
  have hlink : (loadRemote src (loadProperties src)).httpUploadLink = [] ↔
      ConfigKey.httpUploadLink ∉ (remoteAssignments src).map Prod.fst := get_remote_eq_nil_iff .httpUploadLink rfl
  have hfile : dcmFile src (loadRemote src (loadProperties src)) =
      dcmFile src (RrdConfig.initial.assign (remoteAssignments src)) := dcmFile_congr (get_loadRemote src .buildType)
  -- the load makes the assignments of all sources, those of the fallback last
  have hall : (rrdConfigLoad src).2.get .logServer = (RrdConfig.initial.assign
      (remoteAssignments src ++ fallbackAssignments src)).get .logServer := by
    have hif : (if (loadRemote src (loadProperties src)).logServer = [] ∨
        (loadRemote src (loadProperties src)).httpUploadLink = [] then
          propertiesLines (dcmFile src (loadRemote src (loadProperties src))) else []) = fallbackAssignments src := by
      rw [fallbackAssignments, hfile]
      by_cases hm : ConfigKey.httpUploadLink ∈ (remoteAssignments src).map Prod.fst
      · rw [if_pos hm, if_neg (not_or.mpr ⟨hserver, fun he => hlink.mp he hm⟩)]
      · rw [if_neg hm, if_pos (.inr (hlink.mpr hm))]
    rw [rrdConfigLoad_config, if_neg ho, loadFallback_eq, hif, RrdConfig.get_assign, RrdConfig.assign_append,
      RrdConfig.get_assign, get_loadRemote]
  have hget : (rrdConfigLoad src).2.logServer = (rrdConfigLoad src).2.get .logServer := rfl
  rw [hget, hall, RrdConfig.get_assign, lastSet_append, lastSet_append, hrem, ← Option.or_assoc]
  cases (lastSet ConfigKey.logServer (fallbackAssignments src)).or
    (lastSet ConfigKey.logServer (dcmLines src.dcmSettings)) with
  | none => simp [ConfigKey.size]
  | some w => simp [ConfigKey.size]

/-- RFC answers, and the DCM settings name another server. -/
def rfcSources : ConfigSources where
  includeProperties := none
  deviceProperties := some (str "BUILD_TYPE=prod\n")
  tr181 := some (str "ELF")
  logServerUrl := some ⟨str "rfc.example\n", 0⟩
  ssrUrl := some ⟨str "https://ssr.example\n", 0⟩
  dcmSettings := some (str "LOG_SERVER=dcm.example\n")
  optDcmProperties := none
  etcDcmProperties := none

theorem rfc_server_kept_iff_sample :
    (rrdConfigLoad { rfcSources with dcmSettings := none }).2.logServer = str "rfc.example" := by
  have ho : ¬ overridden { rfcSources with dcmSettings := none }
      (loadProperties { rfcSources with dcmSettings := none }) := by decide
  have hn : lastSet .logServer (dcmLines none ++ fallbackAssignments { rfcSources with dcmSettings := none }) = none := by
    decide +kernel
  have hv : rfcValue rfcSources.logServerUrl = some (str "rfc.example") := by decide +kernel
  exact (rfc_server_kept_iff ho (by decide) hv).mpr fun w hw => absurd (hn.symm.trans hw) (by simp)

/-- The log server of RFC gives way to the one of the DCM settings. -/
theorem rfc_server_overwritten : ¬ overridden rfcSources (loadProperties rfcSources) ∧ fileExists rfcSources.tr181 ∧
    rfcValue rfcSources.logServerUrl = some (str "rfc.example") ∧
    (rrdConfigLoad rfcSources).2.logServer = str "dcm.example" ∧
    (rrdConfigLoad rfcSources).2.logServer ≠ (str "rfc.example").take 255 := by
  decide +kernel

end RRD
