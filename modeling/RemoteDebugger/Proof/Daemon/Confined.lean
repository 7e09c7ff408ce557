import RemoteDebugger.Proof.Daemon.Suffix
import RemoteDebugger.Proof.Dispatch.Confined
import RemoteDebugger.Proof.Upload.Confined

/-!
# Where the daemon writes

* `Confined.step`: every step keeps the directories and the uploads confined;
* `reports_confined`: in every run, every directory that is made is that of a
  report, and every upload is from such a directory, to an archive next to it.
-/

namespace RRD

open Framework Framework.Prog

/-- The device of a step tells the time. -/
def DaemonAct.Stamps : DaemonAct → Prop
  | .receive env => env.Stamps
  | _ => True

/-- A message of the deep sleep kind is clean, whether it is a wake or comes back from the cache. -/
theorem Sender.Sends.confined {sender : Sender} {buf : DataBuf} (h : sender.Sends buf)
    (hmtype : buf.mtype = .deepsleepEventMsg) : buf.Confined := by
  cases h with
  | operator message _ h => exact absurd hmtype h
  | wake => exact ⟨clean_deepSleepStr, fun b hb => absurd hb List.not_mem_nil⟩
  | redelivery _ hbase hmdata _ _ hsuffix =>
    exact ⟨hmdata ▸ hbase, fun b hb => absurd (hsuffix ▸ hb) List.not_mem_nil⟩

namespace Daemon

variable {cfg : Config} {s s' : Daemon} {a : DaemonAct} {tr : List (Daemon × DaemonAct)}

/-- The directories that are made, each with the request it is for. -/
def directories (s : Daemon) : List (Request × Str) :=
  s.log.filterMap fun x => match x.2 with
    | .mkdir path => some (x.1, path)
    | _ => none

theorem mem_directories {r : Request} {path : Str} : (r, path) ∈ s.directories ↔ (r, .mkdir path) ∈ s.log := by
  rw [directories, List.mem_filterMap]
  constructor
  · rintro ⟨⟨r', e⟩, hx, h⟩
    cases e <;> cases h
    exact hx
  · exact fun hx => ⟨_, hx, rfl⟩

/-- The effects done and to be done are confined. -/
structure Confined (s : Daemon) : Prop where
  work : ∀ x ∈ s.work, x.2.Confined
  log : ∀ x ∈ s.log, x.2.Confined

theorem Confined.step (h : Step cfg s a s') (ha : a.Stamps) (hi : s.Inv) (hc : s.Confined) : s'.Confined := by
  cases step_moves h with
  | idle => exact hc
  | set value => exact ⟨hc.work, hc.log⟩
  | push => exact ⟨hc.work, hc.log⟩
  | complete => exact ⟨hc.work, hc.log⟩
  | receive env hq hw =>
    refine ⟨fun x hx => ?_, hc.log⟩
    obtain ⟨y, hy, rfl⟩ := List.mem_map.mp hx
    have hsends := hi.queue _ (hq ▸ List.mem_cons_self)
    exact rrdEventThreadFunc_confined ha hsends.confined 0 y hy
  | perform addr hw =>
    have hwork := hc.work
    rw [hw] at hwork
    obtain ⟨hhead, htail⟩ := List.forall_mem_cons.mp hwork
    exact ⟨htail, List.forall_mem_cons.mpr ⟨hhead, hc.log⟩⟩

theorem Confined.of_run (h : Run (Step cfg) .init tr s) (hs : ∀ p ∈ tr, p.2.Stamps) : s.Confined := by
  have hboth := h.invariant (I := fun s => s.Inv ∧ s.Confined) (C := fun _ a => a.Stamps)
    (fun hstep ha hic => ⟨hic.1.step hstep, hic.2.step hstep ha hic.1⟩) hs ⟨Inv.init, nofun, nofun⟩
  exact hboth.2

/-- What the device answers on a directory that is none of a report does not matter. -/
theorem receive_withDirs (hi : s.Inv) {env : Env} (hs : env.Stamps) {mkdir chdir : Nat → Str → Bool}
    (hdirs : env.AgreesOnReports mkdir chdir) :
    s.step cfg (.receive (env.withDirs mkdir chdir)) = s.step cfg (.receive env) := by
  cases hq : s.queue with
  | nil => simp only [step, hq]
  | cons m queue =>
    obtain ⟨buf, sender⟩ := m
    have hsends : sender.Sends buf := hi.queue (buf, sender) (hq ▸ List.mem_cons_self)
    have hprog : rrdEventThreadFunc cfg (env.withDirs mkdir chdir) buf = rrdEventThreadFunc cfg env buf :=
      rrdEventThreadFunc_withDirs hs hdirs hsends.confined
    cases hw : s.work with
    | nil => simp only [step, hq, hw, hprog]
    | cons => simp only [step, hq, hw]

/-- In every run on devices that tell the time, redelivered requests included,
every directory that is made is `/tmp/rrd/NODE-DebugReport-TIME`, whose node is
letters and digits; an upload is from such a directory, to an archive that is one
component directly under `/tmp/rrd`, and it is what the shell command removes; and
what the device answers on any other directory does not matter. -/
theorem reports_confined (h : Run (Step cfg) .init tr s) (hs : ∀ p ∈ tr, p.2.Stamps) :
    (∀ r path, (r, path) ∈ s.directories → ∃ dir : ReportDir, path = dir.path) ∧
    (∀ r outdir issuename, (r, .uploadDebugoutput outdir issuename) ∈ s.log → ∃ dir : ReportDir, outdir = dir.path ∧
      ∀ env : UploadEnv, env.HexMac → Emits (uploadDebugoutput env cfg outdir issuename) (UploadEffect.Confined dir)) ∧
    ∀ (env : Env) (mkdir chdir : Nat → Str → Bool), env.Stamps → env.AgreesOnReports mkdir chdir →
      s.step cfg (.receive (env.withDirs mkdir chdir)) = s.step cfg (.receive env) := by
  have hconfined := Confined.of_run h hs
  refine ⟨fun r path hmade => hconfined.log _ (mem_directories.mp hmade), fun r outdir issuename hlog => ?_, ?_⟩
  · obtain ⟨⟨dir, rfl⟩, hissue⟩ : Effect.Confined (.uploadDebugoutput outdir issuename) := hconfined.log _ hlog
    exact ⟨dir, rfl, fun env henv => uploadDebugoutput_confined henv cfg dir hissue⟩
  · exact fun env mkdir chdir hstamps hdirs => receive_withDirs (Inv.of_run h) hstamps hdirs

theorem pingEnv_stamps (path : Str) : (pingEnv path).Stamps := fun _ =>
  ⟨(by decide +kernel : ∀ b ∈ str "2025-01-01-00-00-00", isStamp b), (by decide : (str "2025-01-01-00-00-00").length ≤ 106)⟩

theorem reports_confined_static : ∃ tr s path outdir, Run (Step (plainConfig true)) .init tr s ∧
    (pingRequest false, path) ∈ s.directories ∧ (∃ dir : ReportDir, path = dir.path) ∧
    (pingRequest false, .uploadDebugoutput outdir (str "Network.Ping_ab12")) ∈ s.log ∧
      ∃ dir : ReportDir, outdir = dir.path ∧
        Emits (uploadDebugoutput (pingUploadEnv fun _ n => n) (plainConfig true) outdir (str "Network.Ping_ab12"))
          (UploadEffect.Confined dir) := by
  let acts : List DaemonAct :=
    [.issueEvent (str "Network.Ping_ab12"), .receive (pingEnv rrdJsonFile), .perform 0, .perform 0, .perform 0]
  have hrun : (exec (step (plainConfig true)) .init acts).map (fun s => (s.directories, s.uploads)) =
      some ([(pingRequest false, str "/tmp/rrd/Network-DebugReport-2025-01-01-00-00-00")],
        [(pingRequest false, str "Network.Ping_ab12")]) := by decide +kernel
  obtain ⟨s, hs, hboth⟩ := Option.map_eq_some_iff.mp hrun
  obtain ⟨hmade, hups⟩ := Prod.mk.inj hboth
  have hpath := List.mem_of_mem_head? (congrArg List.head? hmade)
  have hup : (pingRequest false, str "Network.Ping_ab12") ∈ s.uploads := by
    rw [hups]
    exact List.mem_cons_self ..
  obtain ⟨outdir, hlog⟩ := mem_uploads.mp hup
  have hstamps : ∀ p ∈ trace (step (plainConfig true)) .init acts, p.2.Stamps := by
    intro p hp
    have hmem := snd_mem_of_mem_trace hp
    simp only [acts, List.mem_cons, List.not_mem_nil, or_false] at hmem
    rcases hmem with h | h | h | h | h <;> rw [h]
    · trivial
    · exact pingEnv_stamps _
    · trivial
    · trivial
    · trivial
  obtain ⟨hdirs, huploads, -⟩ := reports_confined (exec_run hs) hstamps
  obtain ⟨dir, hdir, hemits⟩ := huploads _ _ _ hlog
  refine ⟨_, s, _, outdir, exec_run hs, hpath, hdirs _ _ hpath, hlog, dir, hdir, hemits _ ?_⟩
  intro mac hmac
  rw [← Option.some.inj hmac]
  exact (by decide +kernel : ∀ b ∈ str "D4:52:EE:58:F6:AE", isHexDigit b ∨ b = ch ':')

end Daemon

end RRD
