import RemoteDebugger.Framework.Run
import RemoteDebugger.Proof.Cache.Basic

/-!
# Pending requests and progress events

`_rdmManagerEventHandler` removes the entry it finds whatever the status of the
event is, so a request outlives the events before its package is installed
exactly when none of them reports progress for a package with an entry
(`survives_iff`).
-/

namespace RRD

open Framework

/-- A step of the installation that succeeded, other than the whole of it. -/
def RdmMgrStatus.isProgress : RdmMgrStatus → Bool
  | .pkgDownloadComplete | .pkgExtractComplete | .pkgValidateComplete | .pkgPostinstallComplete => true
  | _ => false

/-- An error, an uninstallation or an invalid input. -/
def RdmMgrStatus.isFailure : RdmMgrStatus → Bool
  | .pkgInstallError | .pkgDownloadError | .pkgExtractError | .pkgValidateError | .pkgPostinstallError
  | .pkgUninstall | .pkgInvalidInput => true
  | _ => false

/-- The handler on the cache. -/
def EventStep (c : Cache) (ev : EventData) (c' : Cache) : Prop := c' = (rdmManagerEventHandler ev c).1

instance (c : Cache) (ev : EventData) (c' : Cache) : Decidable (EventStep c ev c') := decEq _ _

/-- The entry is redelivered by the event. -/
def Redelivers (c : Cache) (ev : EventData) (e : CacheData) : Prop :=
  ev.pkgName = e.mdata ∧ ev.pkgInstStatus = .pkgInstallComplete ∧
    ∃ m, rdmManagerMessage ev e = some m ∧ m ∈ (rdmManagerEventHandler ev c).2

/-- Over the events of a run from `c`, an entry leaves only when it is
redelivered or its package fails, and the entry that a lookup finds is
redelivered after any number of progress events. -/
structure Survives (c : Cache) (tr : List (Cache × EventData)) : Prop where
  leaves : ∀ p ∈ tr, ∀ e ∈ p.1, e ∉ (rdmManagerEventHandler p.2 p.1).1 →
    Redelivers p.1 p.2 e ∨ p.2.pkgName = e.mdata ∧ p.2.pkgInstStatus.isFailure
  redelivered : ∀ pre p post, tr = pre ++ p :: post → ∀ e, findPresentInCache e.mdata c = some e →
    (∀ q ∈ pre, q.2.pkgName = e.mdata → q.2.pkgInstStatus.isProgress) →
    p.2.pkgName = e.mdata → p.2.pkgInstStatus = .pkgInstallComplete → Redelivers p.1 p.2 e

/-- No progress is reported for a package that has an entry. -/
def Quiet (c : Cache) (ev : EventData) : Prop :=
  ev.pkgInstStatus.isProgress → findPresentInCache ev.pkgName c = none

theorem status_cases (s : RdmMgrStatus) : s = .pkgInstallComplete ∨ s.isProgress ∨ s.isFailure := by
  cases s <;> decide

section

variable {c c' : Cache} {ev : EventData} {e : CacheData}

/-- What an event does to the cache. -/
theorem EventStep.cases (h : EventStep c ev c') :
    (findPresentInCache ev.pkgName c = none ∧ c' = c) ∨
      ∃ e, findPresentInCache ev.pkgName c = some e ∧ c' = removeItem e c ∧
        (rdmManagerEventHandler ev c).2 = (rdmManagerMessage ev e).toList := by
  rw [EventStep] at h
  rcases hf : findPresentInCache ev.pkgName c with _ | e
  · exact .inl ⟨rfl, by simp [h, rdmManagerEventHandler, hf]⟩
  · exact .inr ⟨e, rfl, by simp [h, rdmManagerEventHandler, hf], by simp [rdmManagerEventHandler, hf]⟩

theorem EventStep.distinct (h : EventStep c ev c') (hd : c.Distinct) : c'.Distinct := by
  rcases h.cases with ⟨-, rfl⟩ | ⟨e, -, rfl, -⟩
  · exact hd
  · exact hd.removeItem e

/-- The entry found is redelivered when the package is installed. -/
theorem redelivers_of_find (hf : findPresentInCache ev.pkgName c = some e)
    (hs : ev.pkgInstStatus = .pkgInstallComplete) : Redelivers c ev e := by
  obtain ⟨m, hm⟩ : ∃ m, rdmManagerMessage ev e = some m := ⟨_, by rw [rdmManagerMessage, if_pos hs]⟩
  refine ⟨(findPresentInCache_spec hf).2.symm, hs, m, hm, ?_⟩
  simp [rdmManagerEventHandler, hf, hm]

/-- The entry that leaves is the one found. -/
theorem EventStep.find_of_leaves (h : EventStep c ev c') (hd : c.Distinct) (he : e ∈ c) (hl : e ∉ c') :
    findPresentInCache ev.pkgName c = some e := by
  rcases h.cases with ⟨-, rfl⟩ | ⟨e', hf, rfl, -⟩
  · exact absurd he hl
  · have ha : e.addr = e'.addr := by
      by_contra ha
      exact hl (mem_removeItem.mpr ⟨he, ha⟩)
    rw [hf, hd.eq_of_addr he (findPresentInCache_spec hf).1 ha]

/-- A step keeps an entry when it reports progress only for packages without one. -/
theorem leaves_iff (hd : c.Distinct) :
    (∀ e ∈ c, e ∉ (rdmManagerEventHandler ev c).1 →
      Redelivers c ev e ∨ ev.pkgName = e.mdata ∧ ev.pkgInstStatus.isFailure) ↔ Quiet c ev := by
  have hstep : EventStep c ev (rdmManagerEventHandler ev c).1 := rfl
  constructor
  · intro h hp
    by_contra hne
    obtain ⟨e, hf⟩ := Option.ne_none_iff_exists'.mp hne
    have hl : e ∉ (rdmManagerEventHandler ev c).1 := by
      simp [rdmManagerEventHandler, hf, mem_removeItem]
    rcases h e (findPresentInCache_spec hf).1 hl with ⟨-, hs, -⟩ | ⟨-, hs⟩
    · rw [hs] at hp
      exact absurd hp (by decide)
    · revert hp hs
      cases ev.pkgInstStatus <;> decide
  · intro h e he hl
    have hf := hstep.find_of_leaves hd he hl
    rcases status_cases ev.pkgInstStatus with hs | hs | hs
    · exact .inl (redelivers_of_find hf hs)
    · exact absurd (h hs) (by simp [hf])
    · exact .inr ⟨(findPresentInCache_spec hf).2.symm, hs⟩

/-- A quiet event of a package other than those in progress leaves its lookup alone. -/
theorem EventStep.find_of_quiet {pkg : Str} (h : EventStep c ev c') (hd : c.Distinct) (hq : Quiet c ev)
    (hf : findPresentInCache pkg c = some e) (hp : ev.pkgName = pkg → ev.pkgInstStatus.isProgress) :
    findPresentInCache pkg c' = some e := by
  rcases h.cases with ⟨-, rfl⟩ | ⟨e', hf', rfl, -⟩
  · exact hf
  · have hne : ev.pkgName ≠ pkg := fun he => by
      have := hq (hp he)
      rw [hf'] at this
      cases this
    obtain ⟨hm, he'⟩ := findPresentInCache_spec hf'
    rw [findPresentInCache_removeItem hd hm (he' ▸ hne), hf]

end

/-- Pending requests survive the events of a run exactly when no progress is
reported for a package that has one. -/
theorem survives_iff {c c' : Cache} {tr : List (Cache × EventData)} (hd : c.Distinct) (h : Run EventStep c tr c') :
    Survives c tr ↔ ∀ p ∈ tr, Quiet p.1 p.2 := by
  have hds : ∀ p ∈ tr, p.1.Distinct := fun p hp => by
    obtain ⟨pre, _, _, rfl, hpre, -, -⟩ := h.of_mem hp
    exact hpre.invariant (C := fun _ _ => True) (fun hs _ => hs.distinct) (fun _ _ => trivial) hd
  constructor
  · intro hs p hp
    exact (leaves_iff (hds p hp)).mp (hs.leaves p hp)
  · intro hq
    refine ⟨fun p hp => (leaves_iff (hds p hp)).mpr (hq p hp), ?_⟩
    rintro pre p post rfl e he hpre hp hs
    obtain ⟨c₁, hr, h2⟩ := Run.append_iff.mp h
    -- the lookup of the entry's package is an invariant of the quiet events before
    have hi := hr.invariant (I := fun c => c.Distinct ∧ findPresentInCache e.mdata c = some e)
      (C := fun c ev => Quiet c ev ∧ (ev.pkgName = e.mdata → ev.pkgInstStatus.isProgress))
      (fun hs hc hi => ⟨hs.distinct hi.1, hs.find_of_quiet hi.1 hc.1 hi.2 hc.2⟩)
      (fun q hmem => ⟨hq q (List.mem_append_left _ hmem), hpre q hmem⟩) ⟨hd, he⟩
    cases h2 with
    | cons _ _ => exact redelivers_of_find (by rw [hp]; exact hi.2) hs

/-- A request waiting for its package. -/
def pendingPing : CacheData := ⟨0, str "RDK-RRD-Network", str "Network.Ping"⟩

/-- An event for that package. -/
def networkEvent (s : RdmMgrStatus) : EventData := ⟨str "RDK-RRD-Network", str "/media/apps/RDK-RRD-Network", s⟩

theorem survives_iff_install :
    Survives [pendingPing] [([pendingPing], networkEvent .pkgInstallComplete)] ∧
      rdmManagerEventHandler (networkEvent .pkgInstallComplete) [pendingPing] =
        ([], [⟨.eventMsg, str "Network.Ping",
          some (str "/media/apps/RDK-RRD-Network/etc/rrd/remote_debugger.json"), true, false,
          .deepsleepInvalidDefault, []⟩]) := by
  have hr : Run EventStep [pendingPing] [([pendingPing], networkEvent .pkgInstallComplete)] [] :=
    .cons (by decide) (.nil _)
  refine ⟨(survives_iff (by decide) hr).mpr ?_, by decide⟩
  rw [List.forall_mem_singleton]
  intro hp
  exact absurd hp (by decide)

/-- `RDM_PKG_DOWNLOAD_COMPLETE` takes the request away, and nothing is sent when
the installation completes. -/
theorem downloaded_not_survives :
    (rdmManagerEventHandler (networkEvent .pkgDownloadComplete) [pendingPing] = ([], []) ∧
      rdmManagerEventHandler (networkEvent .pkgInstallComplete) [] = ([], [])) ∧
    ¬ Survives [pendingPing] [([pendingPing], networkEvent .pkgDownloadComplete),
      ([], networkEvent .pkgInstallComplete)] := by
  refine ⟨by decide, fun h => ?_⟩
  rcases h.leaves _ List.mem_cons_self pendingPing (by decide) (by decide) with ⟨-, hs, -⟩ | ⟨-, hs⟩
  · exact absurd hs (by decide)
  · exact absurd hs (by decide)

end RRD
