import RemoteDebugger.Proof.Daemon.Steps
import RemoteDebugger.Proof.Dispatch.Effects

/-!
# What the daemon knows of its requests

The base of a request survives its way through the cache and the queue, and the
suffix does not:

* `Sender.Sends`: what a message on the queue has kept of its request;
* `Request.Caches`: what an entry of the cache has kept of it;
* `Request.Has`: what an effect does for it;
* `rrdEventThreadFunc_has`: a message sends the effects of its requests;
* `Daemon.Inv.step`: every step keeps `Daemon.Inv`, which states these of the
  queue, the cache, the work and the log.
-/

namespace RRD

open Framework Framework.Prog

/-- An entry with the package `pkg` and the issue string `issue`, for `r`. -/
structure Request.Caches (r : Request) (pkg issue : Str) : Prop where
  clean : Clean r.base
  issue_eq : issue = r.base ∨ issue = r.base ++ appendSuffix
  /-- The package of a token is that of the node of its base. -/
  pkg_eq : ∀ message index, r.origin = .token message index →
    ∃ info node, getIssueInfo r.base = some info ∧ info.node = some node ∧ pkg = rdmPkgPrefix ++ node

/-- An effect for `r`. -/
def Request.Has (r : Request) : Effect → Prop
  | .uploadDebugoutput _ issuename => issuename = if r.redelivered then r.base else r.base ++ r.suffix
  | .appendItem pkg issue => r.Caches pkg issue
  | _ => True

/-- A message of a sender. -/
inductive Sender.Sends : Sender → DataBuf → Prop where
  | operator (message : Nat) {buf : DataBuf} (hdyn : buf.inDynamic = false) (hmtype : buf.mtype ≠ .deepsleepEventMsg) :
      Sends (.operator message) buf
  | wake (message : Nat) : Sends (.request ⟨.wake message, deepSleepStr, [], false⟩) pwrManagerMessage
  | redelivery {r : Request} {buf : DataBuf} (hr : r.redelivered) (hbase : Clean r.base) (hmdata : buf.mdata = r.base)
      (hflags : buf.inDynamic = !buf.appendMode) (hev : buf.dsEvent ≠ .deepsleepRdmDownloadPkgInitiate)
      (hsuffix : buf.suffix = []) : Sends (.request r) buf

/-! ## A message -/

section Message

variable {cfg : Config} {env : Env} {buf : DataBuf} {r : Request}

theorem requestedIssue_eq (buf : DataBuf) :
    requestedIssue buf = buf.mdata ∨ requestedIssue buf = buf.mdata ++ appendSuffix := by
  rw [requestedIssue]
  split
  · exact .inr rfl
  · exact .inl rfl

theorem clean_deepSleepStr : Clean deepSleepStr := ⟨by decide +kernel, by decide +kernel, by decide +kernel⟩

/-- The report of a message does what its request asks for. -/
theorem Request.Has.of_isReport {P : IssueData → Prop} {e : Effect}
    (hname : buf.mdata ++ buf.suffix = if r.redelivered then r.base else r.base ++ r.suffix)
    (he : e.IsReport P buf) : r.Has e := by
  cases e with
  | uploadDebugoutput outdir issuename => exact Eq.trans he hname
  | appendItem pkg issue => exact he.elim
  | _ => trivial

theorem Request.Has.of_isDownload {e : Effect} {pkg : Str} (hc : r.Caches pkg (requestedIssue buf))
    (he : e.IsDownload pkg buf) : r.Has e := by
  cases e with
  | appendItem pkg' issue =>
    obtain ⟨rfl, rfl⟩ := he
    exact hc
  | uploadDebugoutput outdir issuename => exact he.elim
  | _ => trivial

/-- A token whose base is that of the request. -/
theorem processIssueType_has (hbase : Clean r.base) (hmdata : buf.mdata = r.base)
    (hname : buf.mdata ++ buf.suffix = if r.redelivered then r.base else r.base ++ r.suffix) :
    Emits (processIssueType cfg env buf) r.Has := by
  cases hinfo : getIssueInfo buf.mdata with
  | none =>
    simp only [processIssueType, hinfo]
    exact .stop
  | some info =>
    refine (processIssueType_emits hinfo).mono fun e he => ?_
    rcases he with he | ⟨-, node, hnode, he⟩
    · exact .of_isReport hname he
    · refine .of_isDownload ⟨hbase, hmdata ▸ requestedIssue_eq buf, fun _ _ _ => ?_⟩ he
      exact ⟨info, node, hmdata ▸ hinfo, hnode, rfl⟩

theorem processIssueTypeEvent_has {sender : Sender} (h : sender.Sends buf) (hmtype : buf.mtype = .eventMsg) :
    Emits (processIssueTypeEvent cfg env buf) fun x => (sender.requestOf x.1).Has x.2 := by
  refine .loop (fun _ token htoken => .tag ?_) ()
  show Emits _ (sender.requestOf token).Has
  cases h with
  | operator message =>
    have hbase : Clean token.1.1 := acceptedTokens_clean (List.fst_mem_of_mem_zipIdx htoken)
    rw [Sender.requestOf_operator]
    exact processIssueType_has hbase rfl rfl
  | wake message => cases hmtype
  | redelivery hr hbase hmdata =>
    rw [hmdata, hbase.acceptedTokens] at htoken
    obtain rfl : token = ((_, []), 0) := List.mem_singleton.mp htoken
    rw [Sender.requestOf_request]
    refine processIssueType_has hbase rfl ?_
    rw [if_pos hr]
    exact List.append_nil _

theorem rrdProcessDeepSleepAwakeEvents_has {sender : Sender} {token : TokenAt} (h : sender.Sends buf)
    (hmtype : buf.mtype = .deepsleepEventMsg) :
    Emits (rrdProcessDeepSleepAwakeEvents cfg env buf) (sender.requestOf token).Has := by
  refine rrdProcessDeepSleepAwakeEvents_emits.mono fun e he => ?_
  cases h with
  | operator message _ h => exact absurd hmtype h
  | wake message =>
    rcases he with he | ⟨-, pkg, he⟩
    · exact .of_isReport rfl he
    · exact .of_isDownload ⟨clean_deepSleepStr, .inl rfl, nofun⟩ he
  | redelivery hr _ hmdata _ hev hsuffix =>
    rcases he with he | ⟨h, -⟩
    · refine .of_isReport ?_ he
      rw [Sender.requestOf_request, if_pos hr, hmdata, hsuffix, List.append_nil]
    · exact absurd h hev

/-- What a message sends does what its requests ask for. -/
theorem rrdEventThreadFunc_has {sender : Sender} (h : sender.Sends buf) :
    Emits (rrdEventThreadFunc cfg env buf) fun x => (sender.requestOf x.1).Has x.2 := by
  rw [rrdEventThreadFunc]
  split
  · rename_i hmtype
    exact processIssueTypeEvent_has h hmtype
  · exact .tag (.emit trivial)
  · rename_i hmtype
    split
    · exact .tag (rrdProcessDeepSleepAwakeEvents_has h hmtype)
    · exact .pure _
  · exact .pure _

end Message

/-! ## The queue -/

theorem Outside.sends {n : Nat} {buf : DataBuf} {sender : Sender} (h : Outside n buf sender) : sender.Sends buf := by
  cases h with
  | operator hdyn hmtype => exact .operator n hdyn hmtype
  | wake => exact .wake n

/-- An entry is redelivered as a message of its request. -/
theorem RedeliveryOf.sends {e : CacheData} {r : Request} {m : DataBuf × Sender} (hc : r.Caches e.mdata e.issueString)
    (h : RedeliveryOf e r m) : m.2.Sends m.1 := by
  obtain ⟨mtype, path, hev⟩ := h
  have hbuf : (checkAppendRequest e.issueString).2 = r.base := by
    rcases hc.issue_eq with hi | hi
    · rw [hi, hc.clean.checkAppendRequest]
    · rw [hi, checkAppendRequest_append]
  exact .redelivery rfl hc.clean hbuf rfl hev rfl

/-! ## The invariant -/

namespace Daemon

structure Inv (s : Daemon) : Prop where
  queue : ∀ m ∈ s.queue, m.2.Sends m.1
  cache : ∀ e ∈ s.cache, (s.requests e.addr).Caches e.mdata e.issueString
  work : ∀ x ∈ s.work, x.1.Has x.2
  log : ∀ x ∈ s.log, x.1.Has x.2

variable {cfg : Config} {s s' : Daemon} {a : DaemonAct} {tr : List (Daemon × DaemonAct)}

theorem Inv.init : Inv Daemon.init := ⟨nofun, nofun, nofun, nofun⟩

/-- Only a new entry changes the cache. -/
theorem Inv.perform_cache (hi : s.Inv) {addr : Nat} {r : Request} {e : Effect} (he : r.Has e)
    (ha : ∀ c ∈ s.cache, c.addr ≠ addr) :
    ∀ c ∈ (s.perform addr r e).cache, ((s.perform addr r e).requests c.addr).Caches c.mdata c.issueString := by
  intro c hc
  cases e with
  | appendItem pkg issue =>
    show (Function.update s.requests addr r c.addr).Caches c.mdata c.issueString
    rcases List.mem_cons.mp hc with rfl | hc
    · rw [Function.update_self]
      exact he
    · rw [Function.update_of_ne (ha c hc)]
      exact hi.cache c hc
  | _ => exact hi.cache c hc

theorem perform_queue (s : Daemon) (addr : Nat) (r : Request) (e : Effect) : (s.perform addr r e).queue = s.queue := by
  cases e <;> rfl

theorem Inv.step (h : Step cfg s a s') (hi : s.Inv) : s'.Inv := by
  cases step_moves h with
  | idle => exact hi
  | set value => exact ⟨hi.queue, hi.cache, hi.work, hi.log⟩
  | push _ hout =>
    refine ⟨fun m hm => ?_, hi.cache, hi.work, hi.log⟩
    rcases List.mem_append.mp hm with hm | hm
    · exact hi.queue m hm
    · rw [List.mem_singleton.mp hm]
      exact hout.sends
  | complete _ hc hm =>
    refine ⟨fun m hmem => ?_, fun e he => hi.cache e (hc he), hi.work, hi.log⟩
    rcases List.mem_append.mp hmem with hmem | hmem
    · exact hi.queue m hmem
    · obtain ⟨e, he, hr⟩ := hm m hmem
      exact hr.sends (hi.cache e he)
  | receive env hq hw =>
    have hqueue := hi.queue
    rw [hq] at hqueue
    obtain ⟨hhead, htail⟩ := List.forall_mem_cons.mp hqueue
    refine ⟨htail, hi.cache, fun x hx => ?_, hi.log⟩
    obtain ⟨y, hy, rfl⟩ := List.mem_map.mp hx
    exact rrdEventThreadFunc_has hhead 0 y hy
  | perform addr hw ha =>
    have hwork := hi.work
    rw [hw] at hwork
    obtain ⟨hhead, htail⟩ := List.forall_mem_cons.mp hwork
    refine ⟨?_, hi.perform_cache hhead ha, htail, List.forall_mem_cons.mpr ⟨hhead, hi.log⟩⟩
    rw [perform_queue]
    exact hi.queue

/-- The invariant holds of every reachable state. -/
theorem Inv.of_run (h : Run (Step cfg) .init tr s) : s.Inv :=
  h.invariant (C := fun _ _ => True) (fun hs _ => Inv.step hs) (fun _ _ => trivial) Inv.init

end Daemon

end RRD
