import RemoteDebugger.Proof.Daemon.Invariant

/-!
# The suffix of a token in the name of its upload

* `upload_name_iff`: an upload has the base and the suffix of its token in its
  name exactly when no completion handler put the token on the queue again;
* `redelivered_upload_loses_suffix`: a package downloaded on demand.
-/

namespace RRD

open Framework

/-- A device on which the profile is at `path`. -/
def pingEnv (path : Str) : Env :=
  .ofFiles fun jsonFile => if jsonFile = path then some (pingProfile (str "ping -c 4 localhost") pingSanity) else none

namespace Daemon

/-- The uploads started, each with its request and its name. -/
def uploads (s : Daemon) : List (Request × Str) :=
  s.log.filterMap fun x => match x.2 with
    | .uploadDebugoutput _ issuename => some (x.1, issuename)
    | _ => none

variable {cfg : Config} {s : Daemon} {tr : List (Daemon × DaemonAct)} {r : Request} {issuename : Str}

theorem mem_uploads : (r, issuename) ∈ s.uploads ↔ ∃ outdir, (r, .uploadDebugoutput outdir issuename) ∈ s.log := by
  rw [uploads, List.mem_filterMap]
  constructor
  · rintro ⟨⟨r', e⟩, hx, h⟩
    cases e <;> cases h
    exact ⟨_, hx⟩
  · rintro ⟨outdir, hx⟩
    exact ⟨_, hx, rfl⟩

/-- In every run, for every upload. -/
theorem upload_name_iff (h : Run (Step cfg) .init tr s) (hup : (r, issuename) ∈ s.uploads) (hsuffix : r.suffix ≠ []) :
    issuename = r.base ++ r.suffix ↔ r.redelivered = false := by
  obtain ⟨outdir, hlog⟩ := mem_uploads.mp hup
  have hname : issuename = if r.redelivered then r.base else r.base ++ r.suffix := (Inv.of_run h).log _ hlog
  cases hr : r.redelivered with
  | false => simp [hname, hr]
  | true => simp [hname, hr, hsuffix]

/-- The request of `Network.Ping_ab12`. -/
def pingRequest (redelivered : Bool) : Request := ⟨.token 0 0, str "Network.Ping", str "_ab12", redelivered⟩

/-- With the issue in the static profile. -/
theorem upload_name_iff_static : ∃ tr s, Run (Step (plainConfig true)) .init tr s ∧
    s.uploads = [(pingRequest false, str "Network.Ping_ab12")] ∧
      (str "Network.Ping_ab12" = (pingRequest false).base ++ (pingRequest false).suffix ↔
        (pingRequest false).redelivered = false) := by
  let acts : List DaemonAct :=
    [.issueEvent (str "Network.Ping_ab12"), .receive (pingEnv rrdJsonFile), .perform 0, .perform 0, .perform 0]
  have hrun : (exec (step (plainConfig true)) .init acts).map uploads =
      some [(pingRequest false, str "Network.Ping_ab12")] := by decide +kernel
  obtain ⟨s, hs, hups⟩ := Option.map_eq_some_iff.mp hrun
  have hup : (pingRequest false, str "Network.Ping_ab12") ∈ s.uploads := by
    rw [hups]
    exact List.mem_cons_self ..
  exact ⟨_, s, exec_run hs, hups, upload_name_iff (exec_run hs) hup (by decide)⟩

/-- With the issue in no profile: its package is requested, installed and found
through the path that the installation reports. -/
theorem redelivered_upload_loses_suffix : ∃ tr s, Run (Step (plainConfig true)) .init tr s ∧
    s.uploads = [(pingRequest true, str "Network.Ping")] ∧
      str "Network.Ping" ≠ (pingRequest true).base ++ (pingRequest true).suffix := by
  let pkg : Str := str "RDK-RRD-Network"
  let path : Str := rrdMediaApps ++ pkg
  let acts : List DaemonAct :=
    [.issueEvent (str "Network.Ping_ab12"), .receive (pingEnv []), .perform 0, .perform 0,
      .installEvent ⟨pkg, path, .pkgInstallComplete⟩, .receive (pingEnv (path ++ rrdJsonFile)), .perform 0, .perform 0,
      .perform 0]
  have hrun : (exec (step (plainConfig true)) .init acts).map uploads =
      some [(pingRequest true, str "Network.Ping")] := by decide +kernel
  obtain ⟨s, hs, hups⟩ := Option.map_eq_some_iff.mp hrun
  exact ⟨_, s, exec_run hs, hups, by decide⟩

end Daemon

end RRD
