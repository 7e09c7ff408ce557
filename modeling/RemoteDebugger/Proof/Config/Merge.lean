import RemoteDebugger.Framework.Assign
import RemoteDebugger.Impl.Config

/-!
# The configuration as a sequence of assignments

Each source of the configuration makes a sequence of assignments, and
`rrd_config_load` makes those of one source after those of another:

* `get_assign`: a field holds the value last assigned to it, cut to its size;
* `loadProperties_eq`, `queryRfc_eq`, `get_loadRemote`, `loadFallback_eq`: the
  stages of the load;
* `get_eq_nil_iff`: a field without a default is empty if no source sets it.
-/

namespace RRD

open Framework

namespace RrdConfig

variable {config config' : RrdConfig} {k k' : ConfigKey} {val : Str} {l l' : List (ConfigKey × Str)}

@[simp] theorem get_put_self (config : RrdConfig) (k : ConfigKey) (val : Str) :
    (config.put k val).get k = val.take (k.size - 1) := by
  cases k <;> rfl

theorem get_put_ne (config : RrdConfig) (val : Str) (h : k' ≠ k) : (config.put k' val).get k = config.get k := by
  cases k <;> cases k' <;> first | rfl | exact absurd rfl h

/-- A field holds the value last assigned to it. -/
theorem get_assign (config : RrdConfig) (k : ConfigKey) (l : List (ConfigKey × Str)) :
    (config.assign l).get k = ((lastSet k l).map fun val => val.take (k.size - 1)).getD (config.get k) :=
  get_foldl_put get_put_self (fun s _ _ v h => s.get_put_ne v h) config

theorem assign_append (config : RrdConfig) (l l' : List (ConfigKey × Str)) :
    config.assign (l ++ l') = (config.assign l).assign l' := List.foldl_append

theorem size_pos (k : ConfigKey) : 0 < k.size - 1 := by cases k <;> decide

/-- A field that starts empty stays empty until it is set, if no value is empty. -/
theorem get_eq_nil_iff (hc : config.get k = []) (hl : ∀ a ∈ l, a.2 ≠ []) :
    (config.assign l).get k = [] ↔ k ∉ l.map Prod.fst := by
  rw [get_assign, ← lastSet_eq_none]
  cases h : lastSet k l with
  | none => simp [hc]
  | some v =>
    have hv : v ≠ [] := hl _ (lastSet_mem h)
    have := size_pos k
    simp only [Option.map_some, Option.getD_some, List.take_eq_nil_iff, hv, or_false, reduceCtorEq, iff_false]
    omega

end RrdConfig

/-! ## The sources -/

theorem parseProperties_eq (file : Option Str) (config : RrdConfig) :
    (parseProperties file config).2 = config.assign (propertiesLines file) := by
  cases file <;> rfl

theorem parseDcmSettings_eq (file : Option Str) (config : RrdConfig) :
    (parseDcmSettings file config).2 = config.assign (dcmLines file) := by
  cases file <;> rfl

/-- What the property files assign. -/
def propertyAssignments (src : ConfigSources) : List (ConfigKey × Str) :=
  propertiesLines src.includeProperties ++ propertiesLines src.deviceProperties

/-- What RFC assigns: the upload link only if the property files set none. -/
def rfcAssignments (src : ConfigSources) : List (ConfigKey × Str) :=
  if fileExists src.tr181 then
    (rfcValue src.logServerUrl).toList.map (ConfigKey.logServer, ·) ++
      if ConfigKey.httpUploadLink ∈ (propertyAssignments src).map Prod.fst then []
      else (rfcValue src.ssrUrl).toList.map fun v => (ConfigKey.httpUploadLink, (v ++ str "/cgi-bin/S3.cgi").take 599)
  else []

/-- What the sources before the fallback assign, unless the override is in force. -/
def remoteAssignments (src : ConfigSources) : List (ConfigKey × Str) :=
  propertyAssignments src ++ rfcAssignments src ++ dcmLines src.dcmSettings

theorem propertiesLine_ne {line : Str} {a : ConfigKey × Str} (h : propertiesLine line = some a) : a.2 ≠ [] := by
  obtain ⟨⟨key, val⟩, -, h⟩ := Option.bind_eq_some_iff.mp h
  dsimp only at h
  split at h
  · exact absurd h (by simp)
  · rename_i hne
    obtain ⟨k, -, rfl⟩ := Option.map_eq_some_iff.mp h
    exact fun he => hne (.inr he)

theorem dcmLine_ne {line : Str} {a : ConfigKey × Str} (h : dcmLine line = some a) : a.2 ≠ [] := by
  obtain ⟨⟨key, val⟩, -, h⟩ := Option.bind_eq_some_iff.mp h
  by_cases hv : unquoteValue val = []
  · simp only [hv, ne_eq, not_true_eq_false, if_false] at h
    split at h
    · exact absurd h (by simp)
    · split at h
      · exact Option.some.inj h ▸ by decide
      · exact absurd h (by simp)
  · simp only [ne_eq, hv, not_false_eq_true, if_true] at h
    split at h
    · exact Option.some.inj h ▸ hv
    · split at h
      · exact Option.some.inj h ▸ hv
      · obtain ⟨k, -, rfl⟩ := Option.map_eq_some_iff.mp h
        exact hv

theorem propertiesLines_ne (file : Option Str) : ∀ a ∈ propertiesLines file, a.2 ≠ [] := by
  intro a ha
  obtain ⟨line, -, h⟩ := List.mem_filterMap.mp ha
  exact propertiesLine_ne h

theorem dcmLines_ne (file : Option Str) : ∀ a ∈ dcmLines file, a.2 ≠ [] := by
  intro a ha
  obtain ⟨line, -, h⟩ := List.mem_filterMap.mp ha
  exact dcmLine_ne h

theorem rfcValue_ne {result : Option CommandResult} {v : Str} (h : rfcValue result = some v) : v ≠ [] := by
  obtain ⟨output, -, h⟩ := Option.bind_eq_some_iff.mp h
  dsimp only at h
  split at h
  · rename_i ho
    exact Option.some.inj h ▸ ho.1
  · exact absurd h (by simp)

theorem rfcAssignments_ne (src : ConfigSources) : ∀ a ∈ rfcAssignments src, a.2 ≠ [] := by
  intro a ha
  rw [rfcAssignments] at ha
  split at ha
  · rcases List.mem_append.mp ha with ha | ha
    · simp only [List.mem_map, Option.mem_toList] at ha
      obtain ⟨v, hv, rfl⟩ := ha
      exact rfcValue_ne hv
    · split at ha
      · exact absurd ha (by simp)
      · simp only [List.mem_map, Option.mem_toList] at ha
        obtain ⟨v, hv, rfl⟩ := ha
        simp [rfcValue_ne hv]
  · exact absurd ha (by simp)

theorem propertyAssignments_ne (src : ConfigSources) : ∀ a ∈ propertyAssignments src, a.2 ≠ [] := by
  intro a ha
  exact (List.mem_append.mp ha).elim (propertiesLines_ne _ a) (propertiesLines_ne _ a)

theorem remoteAssignments_ne (src : ConfigSources) : ∀ a ∈ remoteAssignments src, a.2 ≠ [] := by
  intro a ha
  rcases List.mem_append.mp ha with ha | ha
  · exact (List.mem_append.mp ha).elim (propertyAssignments_ne src a) (rfcAssignments_ne src a)
  · exact dcmLines_ne _ a ha

/-! ## The stages of the load -/

theorem loadProperties_eq (src : ConfigSources) :
    loadProperties src = RrdConfig.initial.assign (propertyAssignments src) := by
  rw [loadProperties, parseProperties_eq, parseProperties_eq, propertyAssignments, RrdConfig.assign_append]

/-- The query makes the assignments of RFC. -/
theorem queryRfc_eq (src : ConfigSources) :
    (queryRfc src (loadProperties src)).2 = (loadProperties src).assign (rfcAssignments src) := by
  have hlink : ∀ c : RrdConfig, c.httpUploadLink = (loadProperties src).httpUploadLink →
      (c.httpUploadLink = [] ↔ ¬ ConfigKey.httpUploadLink ∈ (propertyAssignments src).map Prod.fst) := fun c hc => by
    rw [hc, loadProperties_eq]
    exact RrdConfig.get_eq_nil_iff (k := .httpUploadLink) rfl (propertyAssignments_ne src)
  rw [queryRfc, rfcAssignments]
  cases fileExists src.tr181 with
  | false => rfl
  | true =>
    cases rfcValue src.logServerUrl with
    | none =>
      by_cases hm : ConfigKey.httpUploadLink ∈ (propertyAssignments src).map Prod.fst
      · have := (hlink (loadProperties src) rfl).not.mpr (not_not_intro hm)
        simp [this, hm, RrdConfig.assign]
      · have := (hlink (loadProperties src) rfl).mpr hm
        cases rfcValue src.ssrUrl <;> simp [this, hm, RrdConfig.assign]
    | some v =>
      have hl := hlink ((loadProperties src).put .logServer v) rfl
      by_cases hm : ConfigKey.httpUploadLink ∈ (propertyAssignments src).map Prod.fst
      · simp [hl.not.mpr (not_not_intro hm), hm, RrdConfig.assign]
      · cases rfcValue src.ssrUrl <;> simp [hl.mpr hm, hm, RrdConfig.assign]

theorem get_loadRemote (src : ConfigSources) (k : ConfigKey) :
    (loadRemote src (loadProperties src)).get k = (RrdConfig.initial.assign (remoteAssignments src)).get k := by
  have hflag : ∀ (c : RrdConfig) (b : Bool), ({ c with useRfcConfig := b } : RrdConfig).get k = c.get k := fun c b => by
    cases k <;> rfl
  rw [loadRemote]
  dsimp only
  rw [parseDcmSettings_eq, remoteAssignments, RrdConfig.assign_append, RrdConfig.assign_append,
    ← loadProperties_eq, ← queryRfc_eq, RrdConfig.get_assign, RrdConfig.get_assign]
  congr 1
  split
  · exact hflag _ true
  · rfl

theorem loadFallback_eq (src : ConfigSources) (config : RrdConfig) : loadFallback src config =
    config.assign (if config.logServer = [] ∨ config.httpUploadLink = [] then propertiesLines (dcmFile src config)
      else []) := by
  rw [loadFallback]
  split
  · cases dcmFile src config with
    | none => rfl
    | some content => exact parseProperties_eq (some content) config
  · rfl

end RRD
