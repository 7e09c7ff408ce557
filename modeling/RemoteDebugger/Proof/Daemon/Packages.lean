import RemoteDebugger.Proof.Daemon.Invariant
import RemoteDebugger.Proof.Dispatch.Package

/-!
# The packages that the daemon asks for

Whatever the operator sends, an InstallPackage request names a package of the
remote debugger, after a few letters and digits or for deep sleep, and nothing
else reaches the download manager:

* `rrdRdmManagerDownloadRequest_names`: a request, from its node;
* `rrdEventThreadFunc_names`: the requests of a message;
* `Daemon.packages_named`: those of a run.
-/

namespace RRD

open Framework Framework.Prog

variable {cfg : Config} {env : Env} {issue : IssueNodeData} {rbuf : DataBuf} {node : Str}

/-- What stands for the device and the issue in the name of a package. -/
inductive PackageKey (cfg : Config) : Str → Prop where
  | node {node : Str} (hne : node ≠ []) (hlen : node.length ≤ rrdDynamicProfileMaxLength) (halnum : ∀ b ∈ node, isalnum b) :
      PackageKey cfg node
  | deepSleep (hprofile : cfg.profileName = []) : PackageKey cfg deepSleepStr
  | profile (hprofile : cfg.profileName ≠ []) : PackageKey cfg (cfg.profileName ++ str "-" ++ deepSleepStr)

/-- A request names a package, whole and with its version, and is cached under that name. -/
def Effect.NamesPackage (cfg : Config) : Effect → Prop
  | .rbusSet paramString => ∃ key, PackageKey cfg key ∧ paramString = rdmPkgPrefix ++ key ++ rdmPkgSuffix
  | .appendItem pkgData _ => ∃ key, PackageKey cfg key ∧ pkgData = rdmPkgPrefix ++ key
  | _ => True

theorem Effect.IsReport.namesPackage {P : IssueData → Prop} {e : Effect} (h : e.IsReport P rbuf) : e.NamesPackage cfg := by
  cases e with
  | rbusSet => exact h.elim
  | appendItem => exact h.elim
  | _ => trivial

/-! ## A request -/

theorem requestedPkg_key {deep : Bool} (node : Str) (hdeep : deep → cfg.iarm)
    (hnode : deep = false → PackageKey cfg node) : ∃ key, PackageKey cfg key ∧ requestedPkg cfg node deep = rdmPkgPrefix ++ key := by
  rw [requestedPkg]
  cases deep with
  | false => exact ⟨node, hnode rfl, if_neg fun h => Bool.false_ne_true h.2⟩
  | true =>
    rw [if_pos ⟨hdeep rfl, rfl⟩]
    split
    · rename_i hprofile
      exact ⟨_, .profile hprofile, by simp only [List.append_assoc]⟩
    · rename_i hprofile
      exact ⟨_, .deepSleep (not_not.mp hprofile), rfl⟩

theorem rrdRdmManagerDownloadRequest_names {deep : Bool} (hdeep : deep → cfg.iarm)
    (hne : ∀ node ∈ issue.node, node ≠ [] ∧ ∀ b ∈ node, isalnum b) :
    Emits (rrdRdmManagerDownloadRequest cfg env issue rbuf deep) (Effect.NamesPackage cfg) := by
  rw [rrdRdmManagerDownloadRequest]
  split
  · rename_i node size hnode hsize
    obtain ⟨hnil, halnum⟩ := hne node hnode
    have hissue : issue = ⟨some node, issue.subNode⟩ := by rw [← hnode]
    rw [hissue] at hsize
    have hlen : node.length ≤ rrdDynamicProfileMaxLength := by
      by_contra hlong
      simp only [rrdGetProfileStringLength, if_pos (Nat.lt_of_not_le hlong)] at hsize
      cases hsize
    obtain ⟨key, hkey, hpkg⟩ := requestedPkg_key node hdeep fun _ => .node hnil hlen halnum
    -- the buffer holds the whole name
    have hparam : (requestedPkg cfg node deep ++ rdmPkgSuffix).take (size - 1) = rdmPkgPrefix ++ key ++ rdmPkgSuffix := by
      rw [rrdGetProfileStringLength_eq hsize, Nat.add_sub_cancel, List.take_length, hpkg]
    refine .bind (.emit ⟨key, hkey, hparam⟩) fun _ => .bind (.call _) fun ok => ?_
    split
    · exact .emit ⟨key, hkey, hpkg⟩
    · exact .pure _
  · exact .pure _

/-! ## A message -/

section Message

theorem installedPackage_names (hne : ∀ node ∈ issue.node, node ≠ [] ∧ ∀ b ∈ node, isalnum b) :
    Emits (processIssueTypeInInstalledPackage cfg env rbuf issue) (Effect.NamesPackage cfg) := by
  have hrequest : Emits (rrdRdmManagerDownloadRequest cfg env issue rbuf false) (Effect.NamesPackage cfg) :=
    rrdRdmManagerDownloadRequest_names (by simp) hne
  rw [processIssueTypeInInstalledPackage]
  split
  · exact .stop
  · refine .bind (.call _) fun json => ?_
    split
    · exact hrequest
    · split
      · exact checkIssueNodeInfo_profile.mono fun e he => he.namesPackage
      · exact hrequest

theorem dynamicProfileappend_names (hne : ∀ node ∈ issue.node, node ≠ [] ∧ ∀ b ∈ node, isalnum b) :
    Emits (processIssueTypeInDynamicProfileappend cfg env rbuf issue) (Effect.NamesPackage cfg) := by
  rw [processIssueTypeInDynamicProfileappend]
  split
  · exact .stop
  · refine .bind (.call _) fun json => ?_
    split
    · exact .bind (rrdRdmManagerDownloadRequest_names (by simp) hne) fun _ => .pure _
    · exact profileData_emits _

theorem processIssueType_names (h : Clean rbuf.mdata) :
    Emits (processIssueType cfg env rbuf) (Effect.NamesPackage cfg) := by
  rw [processIssueType]
  cases hinfo : getIssueInfo rbuf.mdata with
  | none => exact .stop
  | some issue =>
    have hne : ∀ node ∈ issue.node, node ≠ [] ∧ ∀ b ∈ node, isalnum b := by
      obtain ⟨node, hnode, hnil, halnum, -⟩ := h.node hinfo
      intro node' hnode'
      obtain rfl : node = node' := Option.some.inj (hnode.symm.trans hnode')
      exact ⟨hnil, halnum⟩
    simp only
    split
    · refine .bind (dynamicProfileappend_names hne) fun dynamic => ?_
      split
      · exact .pure _
      · refine .bind processIssueTypeInStaticProfileappend_emits fun static => ?_
        split
        · exact .pure _
        · exact (checkIssueNodeInfo_emits (P := fun _ => True) (fun _ _ => trivial) fun _ _ => trivial).mono
            fun e he => he.namesPackage
    · split
      · exact processIssueTypeInDynamicProfile_emits.mono fun e he => he.namesPackage
      · refine .bind (.call _) fun json => ?_
        split
        · exact installedPackage_names hne
        · split
          · exact checkIssueNodeInfo_profile.mono fun e he => he.namesPackage
          · exact installedPackage_names hne

theorem deepSleepAwakeEvents_names (hiarm : cfg.iarm)
    (hmdata : rbuf.dsEvent = .deepsleepRdmDownloadPkgInitiate → Clean rbuf.mdata) :
    Emits (rrdProcessDeepSleepAwakeEvents cfg env rbuf) (Effect.NamesPackage cfg) := by
  rw [rrdProcessDeepSleepAwakeEvents]
  cases hinfo : getIssueInfo rbuf.mdata with
  | none => exact .stop
  | some issue =>
    simp only
    split
    · rename_i hev
      obtain ⟨node, hnode, hnil, halnum, -⟩ := (hmdata hev).node hinfo
      refine rrdRdmManagerDownloadRequest_names (fun _ => hiarm) fun node' hnode' => ?_
      obtain rfl : node = node' := Option.some.inj (hnode.symm.trans hnode')
      exact ⟨hnil, halnum⟩
    · refine .bind ?_ fun json => ?_
      · rw [rrdCheckIssueInDynamicProfile]
        split
        · refine .bind (.call _) fun parsed => ?_
          split
          · exact .pure _
          · exact .pure _
        · exact .pure _
      · split
        · exact .pure _
        · exact checkIssueNodeInfo_profile.mono fun e he => he.namesPackage
    · exact .pure _

theorem rrdEventThreadFunc_names {sender : Sender} (h : sender.Sends rbuf) :
    Emits (rrdEventThreadFunc cfg env rbuf) fun x => x.2.NamesPackage cfg := by
  rw [rrdEventThreadFunc]
  split
  · refine .loop (fun _ token htoken => .tag ?_) ()
    have hbase : Clean (cmdBuff rbuf token.1).mdata := acceptedTokens_clean (List.fst_mem_of_mem_zipIdx htoken)
    exact processIssueType_names hbase
  · exact .tag (.emit trivial)
  · rename_i hmtype
    split
    · rename_i hiarm
      refine .tag (deepSleepAwakeEvents_names hiarm fun hev => ?_)
      cases h with
      | operator _ _ hno => exact absurd hmtype hno
      | wake => exact clean_deepSleepStr
      | redelivery _ _ _ _ hno => exact absurd hev hno
    · exact .pure _
  · exact .pure _

end Message

/-! ## A run -/

namespace Daemon

variable {s s' : Daemon} {a : DaemonAct} {tr : List (Daemon × DaemonAct)}

/-- The packages of the requests made, to be made and pending. -/
structure PackagesNamed (cfg : Config) (s : Daemon) : Prop where
  work : ∀ x ∈ s.work, x.2.NamesPackage cfg
  log : ∀ x ∈ s.log, x.2.NamesPackage cfg
  cache : ∀ e ∈ s.cache, ∃ key, PackageKey cfg key ∧ e.mdata = rdmPkgPrefix ++ key

theorem PackagesNamed.step (h : Step cfg s a s') (hi : s.Inv) (hp : s.PackagesNamed cfg) : s'.PackagesNamed cfg := by
  cases step_moves h with
  | idle => exact hp
  | set value => exact ⟨hp.work, hp.log, hp.cache⟩
  | push _ hout => exact ⟨hp.work, hp.log, hp.cache⟩
  | complete _ hc hm => exact ⟨hp.work, hp.log, fun e he => hp.cache e (hc he)⟩
  | @receive env buf sender queue hq hw =>
    have hsends : sender.Sends buf := hi.queue (buf, sender) (hq ▸ List.mem_cons_self)
    refine ⟨fun x hx => ?_, hp.log, hp.cache⟩
    obtain ⟨y, hy, rfl⟩ := List.mem_map.mp hx
    exact rrdEventThreadFunc_names hsends 0 y hy
  | @perform addr r e work hw ha =>
    have hwork := hp.work
    rw [hw] at hwork
    obtain ⟨hhead, htail⟩ := List.forall_mem_cons.mp hwork
    refine ⟨htail, List.forall_mem_cons.mpr ⟨hhead, hp.log⟩, ?_⟩
    cases e with
    | appendItem pkg issue => exact List.forall_mem_cons.mpr ⟨hhead, hp.cache⟩
    | _ => exact hp.cache

/-- In every run, each InstallPackage request names a package of the remote
debugger: its key is a node of at most 34 letters and digits, or deep sleep on this
device. The name is never cut, and no request is cached under another one. -/
theorem packages_named (h : Run (Step cfg) .init tr s) : s.PackagesNamed cfg := by
  have hboth : s.Inv ∧ s.PackagesNamed cfg :=
    h.invariant (C := fun _ _ => True) (I := fun s => s.Inv ∧ s.PackagesNamed cfg)
      (fun hs _ hi => ⟨hi.1.step hs, hi.2.step hs hi.1⟩) (fun _ _ => trivial) ⟨.init, nofun, nofun, nofun⟩
  exact hboth.2

/-- An issue with punctuation in its name, which no profile has. -/
theorem packages_named_camera : ∃ s : Daemon, s.PackagesNamed (plainConfig true) ∧ s.cache.length = 1 ∧
    s.log.map (fun x => match x.2 with
      | .rbusSet paramString => some paramString
      | _ => none) = [none, some (str "RDK-RRD-Camera:1.0")] := by
  let acts : List DaemonAct :=
    [.issueEvent (str "Cam;era.All"), .receive (.ofFiles fun _ => none), .perform 0, .perform 0]
  have hrun : (exec (step (plainConfig true)) .init acts).map (fun s => (s.cache.length, s.log.map fun x =>
      match x.2 with
      | .rbusSet paramString => some paramString
      | _ => none)) = some (1, [none, some (str "RDK-RRD-Camera:1.0")]) := by decide +kernel
  obtain ⟨s, hs, hlog⟩ := Option.map_eq_some_iff.mp hrun
  simp only [Prod.mk.injEq] at hlog
  exact ⟨s, packages_named (exec_run hs), hlog⟩

end Daemon

end RRD
