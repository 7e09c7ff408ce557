import RemoteDebugger.Proof.Daemon.Suffix

/-!
# The key of a pending request

The request is cached under the node of its token, and the handler of the
download event looks for the value of the issue type parameter at that time, up
to its first dot.

* `pending_found_iff`: it finds the request exactly when the value is the node,
  or starts with the node and a dot;
* `suffix_hides_pending`: the value of a token with a suffix and no dot is not.
-/

namespace RRD

open Framework

/-- The key of a node is the key of a value. -/
theorem rdmDownloadPkgName_eq_iff {node value : Str} (h : ch '.' ∉ node) :
    rdmDownloadPkgName value = rdmPkgPrefix ++ node ↔ value = node ∨ node ++ [ch '.'] <+: value := by
  rw [rdmDownloadPkgName, List.append_cancel_left_eq, takeWhile_ne_eq_iff h]

namespace Daemon

variable {cfg : Config} {s : Daemon} {tr : List (Daemon × DaemonAct)} {e : CacheData} {message index : Nat}

/-- The download handler, on the current value of the parameter, finds an entry
of the package of `e`. -/
def Finds (s : Daemon) (e : CacheData) : Prop :=
  rdmDownloadPkgName s.issueType = e.mdata ∧
    ∃ e', findPresentInCache (rdmDownloadPkgName s.issueType) s.cache = some e' ∧ e'.mdata = e.mdata

theorem finds_iff (he : e ∈ s.cache) : s.Finds e ↔ rdmDownloadPkgName s.issueType = e.mdata := by
  refine ⟨And.left, fun hkey => ⟨hkey, ?_⟩⟩
  cases hf : findPresentInCache (rdmDownloadPkgName s.issueType) s.cache with
  | none => exact absurd hkey.symm (findPresentInCache_eq_none.mp hf e he)
  | some e' => exact ⟨e', rfl, (findPresentInCache_spec hf).2.trans hkey⟩

/-- In every run, for every entry cached for an issue token: `node` is the node
of the token. -/
theorem pending_found_iff (h : Run (Step cfg) .init tr s) (he : e ∈ s.cache)
    (ho : (s.requests e.addr).origin = .token message index) :
    ∃ info node, getIssueInfo (s.requests e.addr).base = some info ∧ info.node = some node ∧
      (s.Finds e ↔ s.issueType = node ∨ node ++ [ch '.'] <+: s.issueType) := by
  obtain ⟨info, node, hinfo, hnode, hpkg⟩ := ((Inv.of_run h).cache e he).pkg_eq message index ho
  refine ⟨info, node, hinfo, hnode, ?_⟩
  obtain ⟨node', hnode', -, hdot⟩ := getIssueInfo_node hinfo
  obtain rfl : node' = node := Option.some.inj (hnode'.symm.trans hnode)
  rw [finds_iff he, hpkg, rdmDownloadPkgName_eq_iff hdot]

/-- The value of the parameter, and the entries of the cache with their requests. -/
def pending (s : Daemon) : Str × List (CacheData × Request) := (s.issueType, s.cache.map fun e => (e, s.requests e.addr))

theorem mem_pending {r : Request} (h : (e, r) ∈ s.pending.2) : e ∈ s.cache ∧ s.requests e.addr = r := by
  obtain ⟨e', he', heq⟩ := List.mem_map.mp h
  cases heq
  exact ⟨he', rfl⟩

/-- The entry of the node `Network`. -/
def networkEntry (issueString : Str) : CacheData := ⟨0, str "RDK-RRD-Network", issueString⟩

/-- The steps of a request for a value that the operator writes. -/
def requestSteps (value : Str) : List DaemonAct :=
  [.set value, .issueEvent value, .receive (pingEnv []), .perform 0, .perform 0]

theorem pending_found_iff_node : ∃ tr s, Run (Step (plainConfig false)) .init tr s ∧ s.issueType = str "Network.Ping" ∧
    ∃ e ∈ s.cache, ∃ info node, getIssueInfo (s.requests e.addr).base = some info ∧ info.node = some node ∧
      (s.Finds e ↔ s.issueType = node ∨ node ++ [ch '.'] <+: s.issueType) := by
  let r : Request := ⟨.token 0 0, str "Network.Ping", [], false⟩
  have hrun : (exec (step (plainConfig false)) .init (requestSteps (str "Network.Ping"))).map pending =
      some (str "Network.Ping", [(networkEntry (str "Network.Ping"), r)]) := by decide +kernel
  obtain ⟨s, hs, hp⟩ := Option.map_eq_some_iff.mp hrun
  have hmem : (networkEntry (str "Network.Ping"), r) ∈ s.pending.2 := by
    rw [hp]
    exact List.mem_cons_self ..
  obtain ⟨he, hr⟩ := mem_pending hmem
  have ho : (s.requests (networkEntry (str "Network.Ping")).addr).origin = .token 0 0 := congrArg Request.origin hr
  exact ⟨_, s, exec_run hs, congrArg Prod.fst hp, _, he, pending_found_iff (exec_run hs) he ho⟩

/-- The operator writes `Network_ab12`, and nothing after it. -/
theorem suffix_hides_pending : ∃ tr s, Run (Step (plainConfig false)) .init tr s ∧ s.issueType = str "Network_ab12" ∧
    ∃ e ∈ s.cache, (s.requests e.addr).origin = .token 0 0 ∧ ¬ s.Finds e := by
  let r : Request := ⟨.token 0 0, str "Network", str "_ab12", false⟩
  have hrun : (exec (step (plainConfig false)) .init (requestSteps (str "Network_ab12"))).map pending =
      some (str "Network_ab12", [(networkEntry (str "Network"), r)]) := by decide +kernel
  obtain ⟨s, hs, hp⟩ := Option.map_eq_some_iff.mp hrun
  have hmem : (networkEntry (str "Network"), r) ∈ s.pending.2 := by
    rw [hp]
    exact List.mem_cons_self ..
  obtain ⟨he, hr⟩ := mem_pending hmem
  have hvalue : s.issueType = str "Network_ab12" := congrArg Prod.fst hp
  refine ⟨_, s, exec_run hs, hvalue, _, he, congrArg Request.origin hr, fun hf => ?_⟩
  have hkey := hf.1
  rw [hvalue] at hkey
  exact absurd hkey (by decide)

end Daemon

end RRD
