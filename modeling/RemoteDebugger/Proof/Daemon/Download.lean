import RemoteDebugger.Proof.Daemon.Suffix

/-!
# One download for a request

* `rrdEventThreadFunc_atMost`: a message makes at most one InstallPackage request
  for each of its tokens;
* `redelivery_report`: a redelivered message makes none, if one for append mode
  finds the profile of its package (`packageReadable`);
* `atMostOneDownload`: so runs whose messages all do request each package once;
* `append_downloads_twice`: a package installed elsewhere is requested again.
-/

namespace RRD

open Framework Framework.Prog

/-- An InstallPackage request for `o`. -/
def asksFor (o : Origin) (x : Request × Effect) : Bool := decide (x.1.origin = o) && x.2.isRbusSet

theorem asksFor_iff {o : Origin} {x : Request × Effect} : asksFor o x ↔ x.1.origin = o ∧ x.2.isRbusSet := by
  rw [asksFor, Bool.and_eq_true, decide_eq_true_iff]

/-! ## A message -/

section Message

variable {cfg : Config} {env : Env} {buf : DataBuf} {r : Request} {sender : Sender}

/-- The effects of a message, each with its request. -/
def sent (cfg : Config) (env : Env) (buf : DataBuf) (sender : Sender) : Prog Nat (Request × Effect) Unit :=
  tag (fun e => (sender.requestOf e.1, e.2)) (rrdEventThreadFunc cfg env buf)

theorem processIssueTypeEvent_atMost (message : Nat) (o : Origin) :
    AtMost 1 (asksFor o ∘ fun e : TokenAt × Effect => ((Sender.operator message).requestOf e.1, e.2))
      (processIssueTypeEvent cfg env buf) := by
  -- the tokens of a message have different origins
  have hnd : ((acceptedTokens buf.mdata).zipIdx.map fun token => Origin.token message token.2).Nodup := by
    have hidx : ((acceptedTokens buf.mdata).zipIdx.map Prod.snd).Nodup := by
      rw [List.zipIdx_map_snd]
      exact List.nodup_range'
    have := hidx.map (f := Origin.token message) fun i j h => by cases h; rfl
    rwa [List.map_map] at this
  refine .loop_once (c := o) hnd (fun _ token _ => .tag ?_) (fun _ token hne => .tag ?_) ()
  · exact processIssueType_atMost.of_imp fun e he => (asksFor_iff.mp he).2
  · exact .of_emits fun w e _ he => hne (asksFor_iff.mp he).1

/-- A message from outside asks at most once for each of its requests. -/
theorem sent_atMost (h : sender.Sends buf) (hr : ∀ r, sender = .request r → r.redelivered = false) (o : Origin) :
    AtMost 1 (asksFor o) (sent cfg env buf sender) := by
  refine .tag ?_
  rw [rrdEventThreadFunc]
  cases h with
  | operator message _ hmtype =>
    split
    · exact processIssueTypeEvent_atMost message o
    · exact .mono (.of_emits (.tag (.emit fun h => Bool.false_ne_true (asksFor_iff.mp h).2))) (Nat.zero_le 1)
    · contradiction
    · exact .mono (.of_emits (.pure _)) (Nat.zero_le 1)
  | wake message =>
    show AtMost 1 _ (if cfg.iarm then _ else _)
    split
    · exact .tag (rrdProcessDeepSleepAwakeEvents_atMost.of_imp fun e he => (asksFor_iff.mp he).2)
    · exact .mono (.of_emits (.pure _)) (Nat.zero_le 1)
  | redelivery hred =>
    have hout := hr _ rfl
    rw [hred] at hout
    cases hout

/-- A redelivered message is a report: one for a named profile always, and one
for append mode if the profile of its package can be read. -/
theorem redelivery_report (h : (Sender.request r).Sends buf) (hr : r.redelivered)
    (hread : buf.appendMode → ∀ info ∈ getIssueInfo buf.mdata, ∀ node ∈ info.node,
      (env.readAndParseJSON 0 (dynJsonPath cfg node)).isSome) :
    ∀ x ∈ ((sent cfg env buf (.request r)).run 0).events, ¬ x.2.isRbusSet := by
  intro x hx
  obtain ⟨y, hy, rfl⟩ := List.mem_map.mp hx
  rw [rrdEventThreadFunc] at hy
  cases h with
  | wake message => cases hr
  | redelivery _ hbase hmdata hflags hev =>
    split at hy
    · -- its one token is its base
      rw [processIssueTypeEvent, eachToken, hmdata, hbase.acceptedTokens] at hy
      rcases mem_events_bind hy with hy | ⟨_, _, hy⟩
      · obtain ⟨e, he, rfl⟩ := List.mem_map.mp hy
        have hreport : ¬ e.isRbusSet := by
          cases hinfo : getIssueInfo (cmdBuff buf (r.base, [])).mdata with
          | none =>
            simp only [processIssueType, hinfo] at he
            cases he
          | some info =>
            cases happ : buf.appendMode with
            | true =>
              obtain ⟨node, hnode, -⟩ := getIssueInfo_node hinfo
              exact (processIssueType_report hinfo hnode happ (hread happ info (hmdata ▸ hinfo) node hnode) e he).not_isRbusSet
            | false =>
              rcases processIssueType_emits hinfo 0 e he with h | ⟨hf, -⟩
              · exact h.not_isRbusSet
              · rw [happ] at hflags
                rcases hf with hf | hf
                · exact absurd (happ.symm.trans hf) (by decide)
                · exact absurd (hflags.symm.trans hf) (by decide)
        exact hreport
      · cases hy
    · exact Emits.tag (P := fun y => ¬ y.2.isRbusSet) (.emit Bool.false_ne_true) 0 y hy
    · split at hy
      · obtain ⟨e, he, rfl⟩ := List.mem_map.mp hy
        rcases rrdProcessDeepSleepAwakeEvents_emits 0 e he with h | ⟨h, -⟩
        · exact h.not_isRbusSet
        · exact absurd h hev
      · cases hy
    · cases hy

end Message

/-! ## The numbers of messages -/

def Origin.message : Origin → Nat
  | token message _ => message
  | wake message => message

/-- The number of a message from outside. -/
def Sender.number : Sender → Option Nat
  | operator message => some message
  | request r => if r.redelivered then none else some r.origin.message

theorem Sender.requestOf_number {sender : Sender} {n : Nat} (h : sender.number = some n) (token : TokenAt) :
    (sender.requestOf token).origin.message = n ∧ (sender.requestOf token).redelivered = false := by
  cases sender with
  | operator message => exact ⟨Option.some.inj h, rfl⟩
  | request r =>
    rw [number, Option.ite_none_left_eq_some] at h
    exact ⟨Option.some.inj h.2, Bool.eq_false_iff.mpr h.1⟩

theorem Outside.number {n : Nat} {buf : DataBuf} {sender : Sender} (h : Outside n buf sender) :
    sender.number = some n := by
  cases h <;> rfl

theorem RedeliveryOf.number {e : CacheData} {r : Request} {m : DataBuf × Sender} (h : RedeliveryOf e r m) :
    m.2.number = none := by
  cases h
  rfl

namespace Daemon

/-- Whether a redelivered request for append mode finds the profile of its
package where append mode looks for it. -/
def packageReadable (cfg : Config) (s : Daemon) : DaemonAct → Bool
  | .receive env =>
    match s.queue with
    | (buf, .request r) :: _ =>
      !r.redelivered || !buf.appendMode || (getIssueInfo buf.mdata).all fun info =>
        info.node.all fun node => (env.readAndParseJSON 0 (dynJsonPath cfg node)).isSome
    | _ => true
  | _ => true

/-- No request is sent twice, and none for a redelivered message. -/
structure AtMostOneDownload (s : Daemon) : Prop where
  once : ∀ o, s.log.countP (asksFor o) ≤ 1
  redelivered : ∀ x ∈ s.log, x.1.redelivered → ¬ x.2.isRbusSet

/-- A request was sent for a message taken off the queue, and once. -/
structure Downloads (s : Daemon) : Prop where
  once : ∀ o, s.log.countP (asksFor o) + s.work.countP (asksFor o) ≤ 1
  asked : ∀ x ∈ s.log ++ s.work, x.2.isRbusSet → x.1.redelivered = false ∧ x.1.origin.message < s.next ∧
    ∀ m ∈ s.queue, m.2.number ≠ some x.1.origin.message
  numbered : ∀ m ∈ s.queue, ∀ n, m.2.number = some n → n < s.next
  distinct : (s.queue.filterMap fun m => m.2.number).Nodup

variable {cfg : Config} {s s' : Daemon} {a : DaemonAct} {tr : List (Daemon × DaemonAct)}

theorem Downloads.init : Downloads Daemon.init := ⟨fun _ => Nat.zero_le 1, nofun, nofun, List.nodup_nil⟩

theorem Downloads.push {buf : DataBuf} {sender : Nat → Sender} (hd : s.Downloads)
    (h : (sender s.next).number = some s.next) : (s.push buf sender).Downloads := by
  constructor
  · exact hd.once
  · intro x hx hset
    obtain ⟨hr, hlt, hq⟩ := hd.asked x hx hset
    refine ⟨hr, Nat.lt_succ_of_lt hlt, fun m hm => ?_⟩
    rcases List.mem_append.mp hm with hm | hm
    · exact hq m hm
    · rw [List.mem_singleton.mp hm, h]
      exact fun heq => Nat.ne_of_gt hlt (Option.some.inj heq)
  · intro m hm n hn
    rcases List.mem_append.mp hm with hm | hm
    · exact Nat.lt_succ_of_lt (hd.numbered m hm n hn)
    · rw [List.mem_singleton.mp hm, h] at hn
      exact Option.some.inj hn ▸ Nat.lt_succ_self _
  · show (List.filterMap _ (s.queue ++ [_])).Nodup
    simp only [List.filterMap_append, List.filterMap_cons, h, List.filterMap_nil]
    refine List.nodup_append.mpr ⟨hd.distinct, List.nodup_singleton _, fun n hn n' hn' heq => ?_⟩
    obtain ⟨m, hm, hmn⟩ := List.mem_filterMap.mp hn
    rw [heq, List.mem_singleton.mp hn'] at hmn
    exact Nat.lt_irrefl _ (hd.numbered m hm _ hmn)

theorem Downloads.complete {cache : Cache} {messages : List (DataBuf × Sender)} (hd : s.Downloads)
    (h : ∀ m ∈ messages, m.2.number = none) :
    ({ s with cache := cache, queue := s.queue ++ messages } : Daemon).Downloads := by
  constructor
  · exact hd.once
  · intro x hx hset
    obtain ⟨hr, hlt, hq⟩ := hd.asked x hx hset
    refine ⟨hr, hlt, fun m hm => ?_⟩
    rcases List.mem_append.mp hm with hm | hm
    · exact hq m hm
    · rw [h m hm]
      exact nofun
  · intro m hm n hn
    rcases List.mem_append.mp hm with hm | hm
    · exact hd.numbered m hm n hn
    · rw [h m hm] at hn
      cases hn
  · show (List.filterMap _ (s.queue ++ messages)).Nodup
    rw [List.filterMap_append, List.filterMap_eq_nil_iff.mpr h, List.append_nil]
    exact hd.distinct

/-- A message is taken off the queue, whose effects ask for nothing that was asked for. -/
theorem Downloads.take {message : DataBuf × Sender} {queue : List (DataBuf × Sender)} {work : List (Request × Effect)}
    {crashes : Bool} (hd : s.Downloads) (hq : s.queue = message :: queue)
    (honce : ∀ o, s.log.countP (asksFor o) + work.countP (asksFor o) ≤ 1)
    (hasked : ∀ x ∈ work, x.2.isRbusSet → x.1.redelivered = false ∧ x.1.origin.message < s.next ∧
      ∀ m ∈ queue, m.2.number ≠ some x.1.origin.message) :
    ({ s with queue := queue, work := work, crashes := crashes } : Daemon).Downloads := by
  have hqueue : ∀ m ∈ queue, m ∈ s.queue := fun m hm => hq ▸ List.mem_cons_of_mem _ hm
  have hdistinct := hd.distinct
  rw [hq] at hdistinct
  refine ⟨honce, fun x hx hset => ?_, fun m hm => hd.numbered m (hqueue m hm), ?_⟩
  · rcases List.mem_append.mp hx with hx | hx
    · obtain ⟨hr, hlt, hq'⟩ := hd.asked x (List.mem_append_left _ hx) hset
      exact ⟨hr, hlt, fun m hm => hq' m (hqueue m hm)⟩
    · exact hasked x hx hset
  · exact hdistinct.sublist ((List.sublist_cons_self _ _).filterMap _)

/-- What the log has is asked for once. -/
theorem Downloads.log_once (hd : s.Downloads) (o : Origin) : s.log.countP (asksFor o) ≤ 1 :=
  (Nat.le_add_right ..).trans (hd.once o)

/-- A redelivered message asks for nothing. -/
theorem Downloads.receive_redelivered {env : Env} {buf : DataBuf} {r : Request} {queue : List (DataBuf × Sender)}
    {crashes : Bool} (hd : s.Downloads) (hs : (Sender.request r).Sends buf) (hq : s.queue = (buf, .request r) :: queue)
    (hr : r.redelivered) (hc : packageReadable cfg s (.receive env)) :
    ({ s with queue := queue, work := ((sent cfg env buf (.request r)).run 0).events, crashes := crashes } : Daemon).Downloads := by
  have hnone : ∀ x ∈ ((sent cfg env buf (.request r)).run 0).events, ¬ x.2.isRbusSet := by
    refine redelivery_report hs hr fun happ info hinfo node hnode => ?_
    simp only [packageReadable, hq, hr, happ, Bool.not_true, Bool.false_or, Option.all_eq_true] at hc
    exact hc info hinfo node hnode
  refine hd.take hq (fun o => ?_) fun x hx hset => absurd hset (hnone x hx)
  have hzero : ((sent cfg env buf (.request r)).run 0).events.countP (asksFor o) = 0 :=
    List.countP_eq_zero.mpr fun x hx ha => hnone x hx (asksFor_iff.mp ha).2
  rw [hzero]
  exact hd.log_once o

/-- A message of the operator asks in its own name. -/
theorem Downloads.receive_numbered {env : Env} {buf : DataBuf} {sender : Sender} {queue : List (DataBuf × Sender)}
    {crashes : Bool} {n : Nat} (hd : s.Downloads) (hs : sender.Sends buf) (hq : s.queue = (buf, sender) :: queue)
    (hn : sender.number = some n) :
    ({ s with queue := queue, work := ((sent cfg env buf sender).run 0).events, crashes := crashes } : Daemon).Downloads := by
  have hhead : (buf, sender) ∈ s.queue := hq ▸ List.mem_cons_self ..
  have hdistinct := hd.distinct
  simp only [hq, List.filterMap_cons, hn] at hdistinct
  obtain ⟨hfirst, -⟩ := List.nodup_cons.mp hdistinct
  have hnew : ∀ x ∈ ((sent cfg env buf sender).run 0).events, x.1.origin.message = n ∧ x.1.redelivered = false :=
    fun x hx => by
      obtain ⟨y, -, rfl⟩ := List.mem_map.mp hx
      exact Sender.requestOf_number hn y.1
  refine hd.take hq (fun o => ?_) fun x hx hset => ?_
  · by_cases ho : o.message = n
    · -- nothing was asked for this message before
      have hzero : s.log.countP (asksFor o) = 0 := List.countP_eq_zero.mpr fun x hx ha => by
        obtain ⟨rfl, hset⟩ := asksFor_iff.mp ha
        exact (hd.asked x (List.mem_append_left _ hx) hset).2.2 _ hhead (ho ▸ hn)
      rw [hzero, Nat.zero_add]
      refine sent_atMost hs (fun r heq => ?_) o 0
      rw [heq, Sender.number, Option.ite_none_left_eq_some] at hn
      exact Bool.eq_false_iff.mpr hn.1
    · have hzero : ((sent cfg env buf sender).run 0).events.countP (asksFor o) = 0 :=
        List.countP_eq_zero.mpr fun x hx ha => ho ((asksFor_iff.mp ha).1 ▸ (hnew x hx).1)
      rw [hzero]
      exact hd.log_once o
  · obtain ⟨hm, hr⟩ := hnew x hx
    refine ⟨hr, hm ▸ hd.numbered _ hhead n hn, fun m hmem heq => hfirst ?_⟩
    exact List.mem_filterMap.mpr ⟨m, hmem, heq.trans (congrArg some hm)⟩

/-- The next message is taken off the queue, and its effects are to be performed. -/
theorem Downloads.receive {env : Env} {buf : DataBuf} {sender : Sender} {queue : List (DataBuf × Sender)}
    {crashes : Bool} (hd : s.Downloads) (hs : sender.Sends buf) (hq : s.queue = (buf, sender) :: queue)
    (hc : packageReadable cfg s (.receive env)) :
    ({ s with queue := queue, work := ((sent cfg env buf sender).run 0).events, crashes := crashes } : Daemon).Downloads := by
  cases hn : sender.number with
  | none =>
    obtain ⟨r, hr, rfl⟩ : ∃ r : Request, r.redelivered ∧ sender = .request r := by
      cases sender with
      | operator message => cases hn
      | request r =>
        rw [Sender.number] at hn
        split at hn
        · rename_i hr
          exact ⟨r, hr, rfl⟩
        · cases hn
    exact hd.receive_redelivered hs hq hr hc
  | some n => exact hd.receive_numbered hs hq hn

theorem Downloads.perform {addr : Nat} {r : Request} {e : Effect} {work : List (Request × Effect)} (hd : s.Downloads)
    (hw : s.work = (r, e) :: work) :
    ({ s.perform addr r e with work := work, log := (r, e) :: s.log } : Daemon).Downloads := by
  have hqueue : (s.perform addr r e).queue = s.queue := perform_queue s addr r e
  have hnext : (s.perform addr r e).next = s.next := by cases e <;> rfl
  refine ⟨fun o => ?_, fun x hx => ?_, ?_, ?_⟩
  · have honce := hd.once o
    rw [hw, List.countP_cons] at honce
    show ((r, e) :: s.log).countP (asksFor o) + work.countP (asksFor o) ≤ 1
    rw [List.countP_cons]
    omega
  · show _ → _ ∧ _ < (s.perform addr r e).next ∧ ∀ m ∈ (s.perform addr r e).queue, _
    rw [hqueue, hnext]
    refine hd.asked x ?_
    rw [hw]
    rcases List.mem_append.mp hx with hx | hx
    · rcases List.mem_cons.mp hx with rfl | hx
      · exact List.mem_append_right _ (List.mem_cons_self ..)
      · exact List.mem_append_left _ hx
    · exact List.mem_append_right _ (List.mem_cons_of_mem _ hx)
  · show ∀ m ∈ (s.perform addr r e).queue, ∀ n, _ → n < (s.perform addr r e).next
    rw [hqueue, hnext]
    exact hd.numbered
  · show ((s.perform addr r e).queue.filterMap _).Nodup
    rw [hqueue]
    exact hd.distinct

theorem Downloads.step (h : Step cfg s a s') (hc : packageReadable cfg s a) (hi : s.Inv) (hd : s.Downloads) :
    s'.Downloads := by
  cases step_moves h with
  | idle => exact hd
  | set value => exact ⟨hd.once, hd.asked, hd.numbered, hd.distinct⟩
  | push _ hout => exact hd.push hout.number
  | complete _ _ hm =>
    refine hd.complete fun m hmem => ?_
    obtain ⟨e, -, hr⟩ := hm m hmem
    exact hr.number
  | receive env hq _ => exact hd.receive (hi.queue _ (hq ▸ List.mem_cons_self ..)) hq hc
  | perform addr hw _ => exact hd.perform hw

/-- In a run in which every redelivered request for append mode finds the profile
of its package, a token and a wake ask for one package at most, and a
redelivered message for none. -/
theorem atMostOneDownload (h : Run (Step cfg) .init tr s) (hc : ∀ p ∈ tr, packageReadable cfg p.1 p.2) :
    s.AtMostOneDownload := by
  obtain ⟨-, hd⟩ := h.invariant (I := fun s => s.Inv ∧ s.Downloads)
    (fun hs hc hi => ⟨hi.1.step hs, hi.2.step hs hc hi.1⟩) hc ⟨.init, .init⟩
  refine ⟨fun o => (Nat.le_add_right ..).trans (hd.once o), fun x hx hr hset => ?_⟩
  have hnot := (hd.asked x (List.mem_append_left _ hx) hset).1
  rw [hr] at hnot
  cases hnot

/-- The InstallPackage requests sent, each with what asked for it. -/
def installs (s : Daemon) : List (Request × Str) :=
  s.log.filterMap fun x => match x.2 with
    | .rbusSet paramString => some (x.1, paramString)
    | _ => none

/-- The steps of a request for append mode whose package is installed at `path`,
and which is then processed under `env`. -/
def appendSteps (path : Str) (env : Env) : List DaemonAct :=
  [.issueEvent (str "Network.Ping_apnd"), .receive (pingEnv []), .perform 0, .perform 0,
    .installEvent ⟨str "RDK-RRD-Network", path, .pkgInstallComplete⟩, .receive env]

/-- The package is installed where append mode looks for it. -/
theorem atMostOneDownload_appended : ∃ tr s, Run (Step (plainConfig true)) .init tr s ∧
    s.installs.length = 1 ∧ s.AtMostOneDownload := by
  let cfg : Config := plainConfig true
  let acts : List DaemonAct :=
    appendSteps (rrdMediaApps ++ str "RDK-RRD-Network") (pingEnv (dynJsonPath cfg (str "Network")))
  have hrun : (exec (step cfg) .init acts).map (fun s => s.installs.length) = some 1 := by decide +kernel
  have hc : ∀ p ∈ trace (step cfg) .init acts, packageReadable cfg p.1 p.2 := by decide +kernel
  obtain ⟨s, hs, hlen⟩ := Option.map_eq_some_iff.mp hrun
  exact ⟨_, s, exec_run hs, hlen, atMostOneDownload (exec_run hs) hc⟩

/-- The package is installed elsewhere: the redelivered request asks for it again. -/
theorem append_downloads_twice : ∃ tr s, Run (Step (plainConfig true)) .init tr s ∧ ¬ s.AtMostOneDownload := by
  let path : Str := str "/opt/RDK-RRD-Network"
  let acts : List DaemonAct := appendSteps path (pingEnv (path ++ rrdJsonFile)) ++ [.perform 0, .perform 1]
  have hrun : (exec (step (plainConfig true)) .init acts).map (fun s => s.log.countP (asksFor (.token 0 0))) =
      some 2 := by decide +kernel
  obtain ⟨s, hs, hcount⟩ := Option.map_eq_some_iff.mp hrun
  refine ⟨_, s, exec_run hs, fun h => ?_⟩
  have honce := h.once (.token 0 0)
  rw [hcount] at honce
  exact absurd honce (by decide)

end Daemon

end RRD
