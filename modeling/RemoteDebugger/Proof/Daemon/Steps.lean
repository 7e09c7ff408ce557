import RemoteDebugger.Impl.Daemon
import RemoteDebugger.Proof.Cache.Basic

/-!
# The steps of the daemon

* `Moves`: what a step does to the daemon, by what it does to the queue, the
  cache and the work;
* `step_moves`: every step is one of these.
-/

namespace RRD

open Framework

/-- A message from outside that gets the number `n`. -/
inductive Outside (n : Nat) : DataBuf → Sender → Prop where
  | operator {buf : DataBuf} (hdyn : buf.inDynamic = false) (hmtype : buf.mtype ≠ .deepsleepEventMsg) :
      Outside n buf (.operator n)
  | wake : Outside n pwrManagerMessage (.request ⟨.wake n, deepSleepStr, [], false⟩)

/-- The message of a completion handler that finds `e`, cached for `r`. -/
inductive RedeliveryOf (e : CacheData) (r : Request) : DataBuf × Sender → Prop where
  | mk (mtype : MsgType) {ev : DeepSleepEvent} (path : Str) (hev : ev ≠ .deepsleepRdmDownloadPkgInitiate) :
      RedeliveryOf e r
        (redelivered (rrdDataBuffInit mtype ev e.issueString) path, .request { r with redelivered := true })

namespace Daemon

inductive Moves (cfg : Config) (s : Daemon) : DaemonAct → Daemon → Prop where
  | idle (a : DaemonAct) : Moves cfg s a s
  | set (value : Str) : Moves cfg s (.set value) { s with issueType := value }
  | push (a : DaemonAct) {buf : DataBuf} {sender : Nat → Sender} (h : Outside s.next buf (sender s.next)) :
      Moves cfg s a (s.push buf sender)
  | complete (a : DaemonAct) {cache : Cache} {messages : List (DataBuf × Sender)} (hc : cache ⊆ s.cache)
      (hm : ∀ m ∈ messages, ∃ e ∈ s.cache, RedeliveryOf e (s.requests e.addr) m) :
      Moves cfg s a { s with cache := cache, queue := s.queue ++ messages }
  | receive (env : Env) {buf : DataBuf} {sender : Sender} {queue : List (DataBuf × Sender)}
      (hq : s.queue = (buf, sender) :: queue) (hw : s.work = []) :
      Moves cfg s (.receive env) { s with
        queue := queue
        work := ((rrdEventThreadFunc cfg env buf).run 0).events.map fun e => (sender.requestOf e.1, e.2)
        crashes := ((rrdEventThreadFunc cfg env buf).run 0).result.isNone }
  | perform (addr : Nat) {r : Request} {e : Effect} {work : List (Request × Effect)}
      (hw : s.work = (r, e) :: work) (ha : ∀ c ∈ s.cache, c.addr ≠ addr) :
      Moves cfg s (.perform addr) { s.perform addr r e with work := work, log := (r, e) :: s.log }

variable {cfg : Config} {s s' : Daemon} {a : DaemonAct}

theorem outside_issues (n : Nat) (value : Str) {mtype : MsgType} (h : mtype ≠ .deepsleepEventMsg) :
    Outside n (pushIssueTypesToMsgQueue value mtype) (.operator n) := .operator rfl h

/-- A handler that finds nothing leaves the cache alone; one that finds an entry
shrinks the cache, and its messages are redeliveries of it. -/
theorem complete_moves (a : DaemonAct) {pkg : Str} {handled : Cache × List DataBuf}
    (hnone : findPresentInCache pkg s.cache = none → handled.1 = s.cache)
    (hsome : ∀ e, findPresentInCache pkg s.cache = some e → handled.1 ⊆ s.cache ∧
      ∀ buf ∈ handled.2, ∀ r, RedeliveryOf e r (buf, .request { r with redelivered := true })) :
    Moves cfg s a (s.complete pkg handled) := by
  rw [Daemon.complete]
  cases hf : findPresentInCache pkg s.cache with
  | none =>
    simp only [hnone hf]
    exact .idle a
  | some e =>
    obtain ⟨hsub, hm⟩ := hsome e hf
    refine .complete a hsub fun m hmem => ?_
    obtain ⟨buf, hbuf, rfl⟩ := List.mem_map.mp hmem
    exact ⟨e, (findPresentInCache_spec hf).1, hm buf hbuf _⟩

theorem removeItem_subset (e : CacheData) (c : Cache) : removeItem e c ⊆ c := fun _ h => (mem_removeItem.mp h).1

theorem installEvent_moves (a : DaemonAct) (eventData : EventData) :
    Moves cfg s a (s.complete eventData.pkgName (rdmManagerEventHandler eventData s.cache)) := by
  refine complete_moves a (fun hnone => ?_) fun e hsome => ?_
  · rw [rdmManagerEventHandler, hnone]
  · rw [rdmManagerEventHandler, hsome]
    refine ⟨removeItem_subset e _, fun buf hbuf r => ?_⟩
    simp only [rdmManagerMessage, Option.mem_toList, Option.ite_none_right_eq_some,
      Option.some.injEq] at hbuf
    rw [← hbuf.2, rdmCompleteMessage]
    split
    · exact .mk _ _ nofun
    · exact .mk _ _ nofun

theorem downloadEvent_moves (a : DaemonAct) (got : Bool) :
    Moves cfg s a (s.complete (rdmDownloadPkgName s.issueType)
      (rdmDownloadEventHandler (if got then some s.issueType else none) s.cache)) := by
  cases got with
  | false => exact complete_moves a (fun _ => rfl) fun e _ => ⟨fun _ h => h, fun buf hbuf => nomatch hbuf⟩
  | true =>
    refine complete_moves a (fun hnone => ?_) fun e hsome => ?_
    · simp only [if_true, rdmDownloadEventHandler, hnone]
    · simp only [if_true, rdmDownloadEventHandler, hsome]
      refine ⟨removeItem_subset e _, fun buf hbuf r => ?_⟩
      rw [List.mem_singleton.mp hbuf]
      exact .mk _ _ nofun

theorem step_moves (h : Step cfg s a s') : Moves cfg s a s' := by
  unfold Step step at h
  split at h
  · cases h
  · cases a with
    | set value =>
      cases h
      exact .set value
    | issueEvent value =>
      by_cases hv : value = []
      · simp only [hv, if_true, Option.some.injEq] at h
        exact h ▸ .idle _
      · simp only [hv, if_false, Option.some.injEq] at h
        exact h ▸ .push _ (outside_issues s.next value nofun)
    | webCfgEvent value =>
      cases h
      exact .push _ (outside_issues s.next value nofun)
    | webCfgIssues issueTypeList =>
      cases h
      exact .push _ (outside_issues s.next issueTypeList nofun)
    | deepSleepWake =>
      cases h
      exact .push _ .wake
    | installEvent eventData =>
      cases h
      exact installEvent_moves _ eventData
    | downloadEvent got =>
      cases h
      exact downloadEvent_moves _ got
    | receive env =>
      simp only at h
      split at h
      · rename_i buf sender queue hq hw
        cases h
        exact .receive env hq hw
      · cases h
    | perform addr =>
      simp only at h
      split at h
      · cases h
      · rename_i r e work hw
        split at h
        · cases h
        · rename_i hfresh
          cases h
          exact .perform addr hw fun c hc ha => hfresh ⟨c, hc, ha⟩

end Daemon

end RRD
