import RemoteDebugger.Proof.Dispatch.Append

/-!
# The append marker in the cache

A request is cached with the marker if it is in append mode, and the completion
handlers read the marker back. The base of a token has no underscore, so that
nothing else is taken for it.

* `redelivered_requestedIssue`: the mode and the base come back;
* `processIssueTypeEvent_caches`: what is cached for a token is its `requestedIssue`;
* `completion_keepsMode`: the two together, for both handlers.
-/

namespace RRD

open Framework Framework.Prog

variable {cfg : Config} {env : Env} {rbuf buf : DataBuf} {b : Str}

theorem requestedIssue_true (h : rbuf.appendMode = true) : requestedIssue rbuf = rbuf.mdata ++ appendSuffix := if_pos h

theorem requestedIssue_false (h : rbuf.appendMode = false) : requestedIssue rbuf = rbuf.mdata :=
  if_neg (by rw [h]; decide)

theorem checkAppendRequest_requestedIssue (h : Clean rbuf.mdata) :
    checkAppendRequest (requestedIssue rbuf) = (rbuf.appendMode, rbuf.mdata) := by
  cases happ : rbuf.appendMode with
  | true => rw [requestedIssue_true happ, checkAppendRequest_append]
  | false => rw [requestedIssue_false happ, h.checkAppendRequest]

/-- A message that is built from the issue string of a request is in its mode, for its base. -/
theorem redelivered_requestedIssue (h : Clean rbuf.mdata) (hbuf : buf.mdata = requestedIssue rbuf) (jsonPath : Str) :
    (redelivered buf jsonPath).mdata = rbuf.mdata ∧ (redelivered buf jsonPath).appendMode = rbuf.appendMode ∧
      (redelivered buf jsonPath).inDynamic = !rbuf.appendMode := by
  rw [redelivered, hbuf, checkAppendRequest_requestedIssue h]
  exact ⟨rfl, rfl, rfl⟩

/-- What a completion handler sends for an entry of the cache. -/
inductive CompletionMessage (cache : CacheData) : DataBuf → Prop where
  | install {eventData : EventData} {sendbuf : DataBuf} (h : rdmManagerMessage eventData cache = some sendbuf) :
      CompletionMessage cache sendbuf
  | download (pkgName : Str) : CompletionMessage cache (rdmDownloadMessage pkgName cache)

theorem CompletionMessage.keepsMode {cache : CacheData} {sendbuf : DataBuf} (h : CompletionMessage cache sendbuf)
    (hbase : Clean rbuf.mdata) (hissue : cache.issueString = requestedIssue rbuf) :
    sendbuf.mdata = rbuf.mdata ∧ sendbuf.appendMode = rbuf.appendMode ∧ sendbuf.inDynamic = !rbuf.appendMode := by
  cases h with
  | @install eventData _ h =>
    rw [rdmManagerMessage, Option.ite_none_right_eq_some, Option.some.injEq] at h
    rw [← h.2, rdmCompleteMessage]
    refine redelivered_requestedIssue hbase ?_ _
    split <;> exact hissue
  | download pkgName => exact redelivered_requestedIssue hbase hissue _

/-- What is cached for a token is the string that asks for its mode. -/
theorem processIssueTypeEvent_caches : Emits (processIssueTypeEvent cfg env rbuf) fun x =>
    Clean (cmdBuff rbuf x.1.1).mdata ∧
      ∀ pkg issue, x.2 = .appendItem pkg issue → issue = requestedIssue (cmdBuff rbuf x.1.1) := by
  refine .loop (fun _ token htoken => .tag ?_) ()
  have hbase : Clean token.1.1 := acceptedTokens_clean (List.fst_mem_of_mem_zipIdx htoken)
  cases hinfo : getIssueInfo (cmdBuff rbuf token.1).mdata with
  | none =>
    simp only [processIssueType, hinfo]
    exact .stop
  | some info =>
    refine (processIssueType_emits hinfo).mono fun e he => ⟨hbase, fun pkg issue heq => ?_⟩
    subst heq
    rcases he with he | ⟨-, node, -, he⟩
    · exact he.elim
    · exact he.2

/-- A message that a completion handler sends for the entry of a token has the
token's base and its mode, and names its profile exactly in plain mode. -/
theorem completion_keepsMode {k addr : Nat} {token : TokenAt} {pkg issue : Str} {sendbuf : DataBuf}
    (h : (token, Effect.appendItem pkg issue) ∈ ((processIssueTypeEvent cfg env rbuf).run k).events)
    (hsend : CompletionMessage ⟨addr, pkg, issue⟩ sendbuf) :
    sendbuf.mdata = (cmdBuff rbuf token.1).mdata ∧ sendbuf.appendMode = (cmdBuff rbuf token.1).appendMode ∧
      (sendbuf.inDynamic = true ↔ sendbuf.appendMode = false) := by
  obtain ⟨hbase, hcached⟩ := processIssueTypeEvent_caches k _ h
  obtain ⟨hmdata, happ, hdyn⟩ := hsend.keepsMode hbase (hcached pkg issue rfl)
  exact ⟨hmdata, happ, by rw [hdyn, happ, Bool.not_eq_true']⟩

/-- Two tokens in append mode, whose packages are not there. -/
def appendedPair : DataBuf :=
  { rrdDataBuffInit .eventMsg .deepsleepInvalidDefault (str "Device,Network.Ping") with appendMode := true }

theorem completion_keepsMode_pair : ∃ sendbuf : DataBuf,
    CompletionMessage ⟨0, str "RDK-RRD-Network", str "Network.Ping_apnd"⟩ sendbuf ∧
      sendbuf.mdata = str "Network.Ping" ∧ sendbuf.appendMode = true ∧
      (sendbuf.inDynamic = true ↔ sendbuf.appendMode = false) := by
  have hstored : (((str "Network.Ping", []), 1), Effect.appendItem (str "RDK-RRD-Network") (str "Network.Ping_apnd")) ∈
      ((processIssueTypeEvent (plainConfig true) (.ofFiles fun _ => none) appendedPair).run 0).events :=
    List.mem_of_getElem? (i := 3) rfl
  exact ⟨_, .download (str "RDK-RRD-Network"), completion_keepsMode hstored (.download (str "RDK-RRD-Network"))⟩

end RRD
