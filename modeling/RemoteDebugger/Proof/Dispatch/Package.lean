import RemoteDebugger.Impl.Package
import RemoteDebugger.Proof.Dispatch.Resolve

/-!
# The buffers for package names

* `dynJSONPathFits_iff`: the path of the deep sleep profile fits without a profile name only;
* `requestStringsMem_eq`: the two strings of a request;
* `rrdRdmManagerDownloadRequestMem_eq`: the request from memory is the one on strings;
* `downloadRequest_exact`: what is sent and cached for a node of a device with IARM.
-/

namespace RRD

open Framework Framework.Prog

variable {cfg : Config} {env : Env} {node : Str} {rbuf : DataBuf} {deep : Bool} {size : Nat}

/-! ## The path of the deep sleep profile -/

/-- The whole path that is formatted. -/
def dynJSONPathText (cfg : Config) (node : Str) : Str :=
  if cfg.profileName ≠ [] then rrdMediaApps ++ rdmPkgPrefix ++ cfg.profileName ++ str "-" ++ node ++ rrdJsonFile
  else rrdMediaApps ++ rdmPkgPrefix ++ node ++ rrdJsonFile

/-- The path and its terminator fit the allocation, and the memory holds it whole. -/
structure DynJSONPathFits (cfg : Config) (node : Str) : Prop where
  length : (dynJSONPathText cfg node).length + 1 ≤ rrdGetDeepSleepdynJSONPathLen cfg
  whole : ∀ junk, (dynJSONPathMem cfg junk node).map cstr = some (dynJSONPathText cfg node)

/-- With a profile name, the path of the deep sleep node is one byte too long. -/
theorem length_dynJSONPathText (h : cfg.profileName ≠ []) :
    (dynJSONPathText cfg deepSleepStr).length = rrdGetDeepSleepdynJSONPathLen cfg := by
  have hdash : (str "-").length = 1 := rfl
  rw [dynJSONPathText, if_pos h, rrdGetDeepSleepdynJSONPathLen]
  simp only [List.length_append, hdash]
  omega

theorem dynJSONPathMem_overflows (h : cfg.profileName ≠ []) (junk : Nat → Byte) :
    dynJSONPathMem cfg junk deepSleepStr = none := by
  have hlen := length_dynJSONPathText h
  rw [dynJSONPathText, if_pos h] at hlen
  rw [dynJSONPathMem, if_pos h]
  exact snprintfTo_eq_none (by rw [hlen]; exact Nat.lt_succ_self _) (by rw [length_malloc, hlen])

theorem DynJSONPathFits.profileName (h : DynJSONPathFits cfg deepSleepStr) : cfg.profileName = [] := by
  by_contra hprofile
  have hwhole := h.whole fun _ => 0
  rw [dynJSONPathMem_overflows hprofile] at hwhole
  cases hwhole

/-- The path of the deep sleep profile fits exactly where the device has no profile name. -/
theorem dynJSONPathFits_iff (cfg : Config) : DynJSONPathFits cfg deepSleepStr ↔ cfg.profileName = [] := by
  refine ⟨DynJSONPathFits.profileName, fun hprofile => ?_⟩
  have htext : dynJSONPathText cfg deepSleepStr = rrdMediaApps ++ rdmPkgPrefix ++ deepSleepStr ++ rrdJsonFile :=
    if_neg (not_not_intro hprofile)
  have hlen : (rrdMediaApps ++ rdmPkgPrefix ++ deepSleepStr ++ rrdJsonFile).length + 1 = rrdGetDeepSleepdynJSONPathLen cfg := by
    rw [rrdGetDeepSleepdynJSONPathLen, hprofile]
    simp only [List.length_append, List.length_nil, Nat.add_zero]
  refine ⟨by rw [htext, hlen], fun junk => ?_⟩
  have hzero : 0 ∉ rrdMediaApps ++ rdmPkgPrefix ++ deepSleepStr ++ rrdJsonFile := by decide +kernel
  rw [htext, dynJSONPathMem, if_neg (not_not_intro hprofile),
    snprintfTo_append (by omega) (by rw [length_malloc]; omega), Option.map_some, cstr_append_zero hzero]

/-- A device whose type is in the list of its build. -/
def hubConfig : Config := { plainConfig true with profileName := getRrdProfileName (str "TV,HUB") (some (str "HUB")) }

theorem hub_not_dynJSONPathFits : ¬DynJSONPathFits hubConfig deepSleepStr ∧
    (dynJSONPathText hubConfig deepSleepStr).length + 1 = 63 ∧ rrdGetDeepSleepdynJSONPathLen hubConfig = 62 :=
  ⟨fun h => absurd h.profileName (by decide +kernel), by decide +kernel, by decide +kernel⟩

/-! ## The strings of a request -/

/-- The size that is computed is that of the whole request. -/
theorem rrdGetProfileStringLength_eq {sub : Option Str}
    (h : rrdGetProfileStringLength cfg ⟨some node, sub⟩ (cfg.iarm && deep) = some size) :
    size = (requestedPkg cfg node deep ++ rdmPkgSuffix).length + 1 := by
  have hdash : (str "-").length = 1 := rfl
  simp only [rrdGetProfileStringLength] at h
  obtain ⟨-, h⟩ := Option.ite_none_left_eq_some.mp h
  by_cases hdeep : cfg.iarm ∧ deep
  · rw [if_pos (Bool.and_eq_true_iff.mpr hdeep)] at h
    rw [requestedPkg, if_pos hdeep]
    split at h
    · rename_i hprofile
      rw [if_pos hprofile, ← Option.some.inj h]
      simp only [List.length_append, hdash]
      omega
    · rename_i hprofile
      rw [if_neg hprofile, ← Option.some.inj h]
      simp only [List.length_append]
      omega
  · rw [if_neg fun hand => hdeep (Bool.and_eq_true_iff.mp hand)] at h
    rw [requestedPkg, if_neg hdeep, ← Option.some.inj h, List.length_append, List.length_append]

theorem rrdGetProfileStringLength_of_le {sub : Option Str} (h : node.length ≤ rrdDynamicProfileMaxLength) (deep : Bool) :
    rrdGetProfileStringLength cfg ⟨some node, sub⟩ (cfg.iarm && deep) =
      some ((requestedPkg cfg node deep ++ rdmPkgSuffix).length + 1) := by
  obtain ⟨size, hsize⟩ : ∃ size, rrdGetProfileStringLength cfg ⟨some node, sub⟩ (cfg.iarm && deep) = some size := by
    simp only [rrdGetProfileStringLength, Nat.not_lt.mpr h, if_false]
    split
    · split <;> exact ⟨_, rfl⟩
    · exact ⟨_, rfl⟩
  rw [hsize, rrdGetProfileStringLength_eq hsize]

theorem zero_notMem_requestedPkg (hnode : 0 ∉ node) (hprofile : 0 ∉ cfg.profileName) : 0 ∉ requestedPkg cfg node deep := by
  have hstart : 0 ∉ rdmPkgPrefix := by decide
  have hname : 0 ∉ deepSleepStr := by decide
  have hdash : 0 ∉ str "-" := by decide
  rw [requestedPkg]
  split
  · split <;> simp [hstart, hprofile, hname, hdash]
  · simp [hstart, hnode]

/-- A text in an allocation of its own size. -/
theorem snprintfTo_calloc (s : Str) : snprintfTo (calloc (s.length + 1)) (s.length + 1) s = some (zeroed (s.length + 1) s) :=
  snprintfTo_zeroed (Nat.lt_succ_self _) (Nat.lt_succ_self _)

theorem nodeStringsMem_eq (node : Str) : nodeStringsMem node ((rdmPkgPrefix ++ node ++ rdmPkgSuffix).length + 1) =
    some (zeroed ((rdmPkgPrefix ++ node ++ rdmPkgSuffix).length + 1) (rdmPkgPrefix ++ node ++ rdmPkgSuffix),
      zeroed ((rdmPkgPrefix ++ node).length + 1) (rdmPkgPrefix ++ node)) := by
  have hsize : rdmPkgPrefix.length + node.length + 1 = (rdmPkgPrefix ++ node).length + 1 := by rw [List.length_append]
  simp only [nodeStringsMem, hsize, snprintfTo_calloc]
  rfl

theorem zero_notMem_request {pkg : Str} (hpkg : 0 ∉ pkg) : 0 ∉ pkg ++ rdmPkgSuffix := fun h =>
  (List.mem_append.mp h).elim hpkg (by decide)

/-- The start of a request that is copied ends where the suffix does. -/
theorem strncpy_request {pkg : Str} (hpkg : 0 ∉ pkg) (size : Nat) :
    strncpy (calloc (pkg.length + rdmPkgSuffix.length)) (cstr (zeroed size (pkg ++ rdmPkgSuffix)))
      (pkg.length + rdmPkgSuffix.length - rdmPkgSuffix.length) = some (zeroed (pkg.length + rdmPkgSuffix.length) pkg) := by
  have hcalloc : calloc (pkg.length + rdmPkgSuffix.length) = List.replicate (pkg.length + rdmPkgSuffix.length) 0 := rfl
  rw [Nat.add_sub_cancel, cstr_zeroed (zero_notMem_request hpkg), hcalloc, strncpy_zeroed _ (Nat.le_add_right _ _),
    List.take_left]

theorem deepSleepStringsMem_eq (hprofile : 0 ∉ cfg.profileName) (hiarm : cfg.iarm) (node : Str) :
    deepSleepStringsMem cfg ((requestedPkg cfg node true ++ rdmPkgSuffix).length + 1) =
      some (zeroed ((requestedPkg cfg node true ++ rdmPkgSuffix).length + 1) (requestedPkg cfg node true ++ rdmPkgSuffix),
        zeroed ((requestedPkg cfg node true).length + rdmPkgSuffix.length) (requestedPkg cfg node true)) := by
  have hdash : (str "-").length = 1 := rfl
  have hdeep : cfg.iarm ∧ true = true := ⟨hiarm, rfl⟩
  have hstart : 0 ∉ rdmPkgPrefix := by decide
  have hname : 0 ∉ deepSleepStr := by decide
  have hzero : 0 ∉ str "-" := by decide
  rw [requestedPkg, if_pos hdeep]
  by_cases hne : cfg.profileName ≠ []
  · have hpkg : 0 ∉ rdmPkgPrefix ++ cfg.profileName ++ str "-" ++ deepSleepStr := by simp [hstart, hprofile, hname, hzero]
    have hsize : rdmPkgPrefix.length + deepSleepStr.length + rdmPkgSuffix.length + (cfg.profileName.length + 1) =
        (rdmPkgPrefix ++ cfg.profileName ++ str "-" ++ deepSleepStr).length + rdmPkgSuffix.length := by
      simp only [List.length_append, hdash]
      omega
    simp only [if_pos hne, deepSleepStringsMem, snprintfTo_calloc, Option.map_some,
      Option.bind_eq_bind, Option.bind_some, hsize, strncpy_request hpkg]
    rfl
  · have hpkg : 0 ∉ rdmPkgPrefix ++ deepSleepStr := by simp [hstart, hname]
    have hsize : rdmPkgPrefix.length + deepSleepStr.length + rdmPkgSuffix.length =
        (rdmPkgPrefix ++ deepSleepStr).length + rdmPkgSuffix.length := by rw [List.length_append]
    simp only [if_neg hne, deepSleepStringsMem, snprintfTo_calloc, Option.map_some,
      Option.bind_eq_bind, Option.bind_some, hsize, strncpy_request hpkg]
    rfl

/-- The strings of a request are whole, and terminated in their allocations. -/
theorem requestStringsMem_eq (hprofile : 0 ∉ cfg.profileName) (node : Str) (deep : Bool) :
    ∃ msgDataStringSize, (requestedPkg cfg node deep).length < msgDataStringSize ∧
      requestStringsMem cfg node deep ((requestedPkg cfg node deep ++ rdmPkgSuffix).length + 1) =
        some (zeroed ((requestedPkg cfg node deep ++ rdmPkgSuffix).length + 1) (requestedPkg cfg node deep ++ rdmPkgSuffix),
          zeroed msgDataStringSize (requestedPkg cfg node deep)) := by
  by_cases hdeep : cfg.iarm ∧ deep
  · obtain ⟨hiarm, rfl⟩ := hdeep
    refine ⟨_, Nat.lt_add_of_pos_right (by decide : 0 < rdmPkgSuffix.length), ?_⟩
    rw [requestStringsMem, if_pos ⟨hiarm, rfl⟩]
    exact deepSleepStringsMem_eq hprofile hiarm node
  · have hpkg : requestedPkg cfg node deep = rdmPkgPrefix ++ node := if_neg hdeep
    refine ⟨_, Nat.lt_succ_self _, ?_⟩
    rw [requestStringsMem, if_neg hdeep, hpkg]
    exact nodeStringsMem_eq node

/-! ## The request -/

theorem sendRequest_zeroed {paramString msgDataString : Str} {n m : Nat} (hparam : 0 ∉ paramString)
    (hn : paramString.length < n) (hmsg : 0 ∉ msgDataString) (hm : msgDataString.length < m) :
    sendRequest env rbuf (zeroed n paramString) (zeroed m msgDataString) = (do
      emit (.rbusSet paramString)
      if ← call (env.rbusSet · paramString) then
        emit (.appendItem msgDataString (requestedIssue rbuf))) := by
  have htake (s : Str) (size : Nat) : (zeroed size s).take s.length = s := List.take_left
  simp only [sendRequest, strlen_zeroed hparam hn, strlen_zeroed hmsg hm, htake]

/-- From memory or on strings, a request is the same. -/
theorem rrdRdmManagerDownloadRequestMem_eq {issue : IssueNodeData} (hnode : ∀ node ∈ issue.node, 0 ∉ node)
    (hprofile : 0 ∉ cfg.profileName) :
    rrdRdmManagerDownloadRequestMem cfg env issue rbuf deep = rrdRdmManagerDownloadRequest cfg env issue rbuf deep := by
  obtain ⟨_ | node, sub⟩ := issue
  · rfl
  · rw [rrdRdmManagerDownloadRequestMem, rrdRdmManagerDownloadRequest]
    cases hsize : rrdGetProfileStringLength cfg ⟨some node, sub⟩ (cfg.iarm && deep) with
    | none => rfl
    | some size =>
      have hpkg : 0 ∉ requestedPkg cfg node deep := zero_notMem_requestedPkg (hnode node rfl) hprofile
      have hparam := zero_notMem_request hpkg
      obtain ⟨msgDataStringSize, hlt, hstrings⟩ := requestStringsMem_eq hprofile node deep
      obtain rfl := rrdGetProfileStringLength_eq hsize
      have hwhole : (requestedPkg cfg node deep ++ rdmPkgSuffix).take
          ((requestedPkg cfg node deep ++ rdmPkgSuffix).length + 1 - 1) = requestedPkg cfg node deep ++ rdmPkgSuffix :=
        List.take_length
      simp only [hstrings, sendRequest_zeroed hparam (Nat.lt_succ_self _) hpkg hlt, hwhole]

/-- The package of a request, without its version. -/
def packageKey (profileName node : Str) (isDeepSleepAwakeEvent : Bool) : Str :=
  if isDeepSleepAwakeEvent then
    rdmPkgPrefix ++ (if profileName = [] then [] else profileName ++ str "-") ++ deepSleepStr
  else rdmPkgPrefix ++ node

theorem requestedPkg_eq_packageKey (hiarm : cfg.iarm) (node : Str) (deep : Bool) :
    requestedPkg cfg node deep = packageKey cfg.profileName node deep := by
  cases deep with
  | false => rw [requestedPkg, if_neg (by simp), packageKey, if_neg Bool.false_ne_true]
  | true =>
    rw [requestedPkg, if_pos ⟨hiarm, rfl⟩, packageKey, if_pos rfl]
    by_cases hprofile : cfg.profileName = [] <;> simp [hprofile]

/-- On a device with IARM, a request is the package and its version, in a buffer
of just that size, and what is cached is the package, with a terminator in its
own buffer. -/
theorem downloadRequest_exact (hiarm : cfg.iarm) (hnode : 0 ∉ node) (hlen : node.length ≤ rrdDynamicProfileMaxLength)
    (hprofile : 0 ∉ cfg.profileName) (env : Env) (sub : Option Str) (rbuf : DataBuf) (deep : Bool) (k : Nat) :
    ∃ key mSGLength paramString msgDataString, key = packageKey cfg.profileName node deep ∧
      rrdGetProfileStringLength cfg ⟨some node, sub⟩ deep = some mSGLength ∧
      requestStringsMem cfg node deep mSGLength = some (paramString, msgDataString) ∧
      paramString = key ++ rdmPkgSuffix ++ [0] ∧ paramString.length = mSGLength ∧
      0 ∈ msgDataString ∧ cstr msgDataString = key ∧
      ((rrdRdmManagerDownloadRequestMem cfg env ⟨some node, sub⟩ rbuf deep).run k).events =
        .rbusSet (key ++ rdmPkgSuffix) ::
          if env.rbusSet k (key ++ rdmPkgSuffix) then [.appendItem key (requestedIssue rbuf)] else [] := by
  have hkey := requestedPkg_eq_packageKey hiarm node deep
  have hpkg : 0 ∉ requestedPkg cfg node deep := zero_notMem_requestedPkg hnode hprofile
  have hand : (cfg.iarm && deep) = deep := by rw [hiarm, Bool.true_and]
  have hsize : rrdGetProfileStringLength cfg ⟨some node, sub⟩ (cfg.iarm && deep) = _ :=
    rrdGetProfileStringLength_of_le hlen deep
  rw [hand] at hsize
  obtain ⟨msgDataStringSize, hlt, hstrings⟩ := requestStringsMem_eq hprofile node deep
  refine ⟨requestedPkg cfg node deep, _, _, _, hkey, hsize, hstrings, zeroed_succ _, length_zeroed (Nat.le_succ _),
    zero_mem_zeroed hlt, cstr_zeroed hpkg, ?_⟩
  have hwhole : (requestedPkg cfg node deep ++ rdmPkgSuffix).take
      ((requestedPkg cfg node deep ++ rdmPkgSuffix).length + 1 - 1) = requestedPkg cfg node deep ++ rdmPkgSuffix :=
    List.take_length
  have hnodes : ∀ n ∈ (IssueNodeData.mk (some node) sub).node, 0 ∉ n := fun n hn => Option.mem_some_iff.mp hn ▸ hnode
  rw [rrdRdmManagerDownloadRequestMem_eq hnodes hprofile, rrdRdmManagerDownloadRequest, hand, hsize]
  simp only [hwhole]
  rw [bind_run_of_some (emit_run _ k), call_bind_run]
  cases env.rbusSet k (requestedPkg cfg node deep ++ rdmPkgSuffix) <;> rfl

/-- The request for deep sleep of that device. -/
theorem downloadRequest_hub : ((rrdRdmManagerDownloadRequestMem hubConfig (.ofFiles fun _ => none) ⟨some deepSleepStr, none⟩
    (rrdDataBuffInit .deepsleepEventMsg .deepsleepRdmDownloadPkgInitiate deepSleepStr) true).run 0).events =
      [.rbusSet (str "RDK-RRD-HUB-DEEPSLEEP:1.0"), .appendItem (str "RDK-RRD-HUB-DEEPSLEEP") deepSleepStr] := by
  have hiarm : hubConfig.iarm := rfl
  have hnode : 0 ∉ deepSleepStr := by decide
  have hlen : deepSleepStr.length ≤ rrdDynamicProfileMaxLength := by decide
  have hprofile : 0 ∉ hubConfig.profileName := by decide +kernel
  obtain ⟨key, -, -, -, hkey, -, -, -, -, -, -, hevents⟩ := downloadRequest_exact hiarm
    hnode hlen hprofile (.ofFiles fun _ => none) none
    (rrdDataBuffInit .deepsleepEventMsg .deepsleepRdmDownloadPkgInitiate deepSleepStr) true 0
  have hname : packageKey hubConfig.profileName deepSleepStr true = str "RDK-RRD-HUB-DEEPSLEEP" := by decide +kernel
  have hrequest : str "RDK-RRD-HUB-DEEPSLEEP" ++ rdmPkgSuffix = str "RDK-RRD-HUB-DEEPSLEEP:1.0" := by decide +kernel
  rw [hkey, hname, hrequest] at hevents
  exact hevents

end RRD
