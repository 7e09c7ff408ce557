import Mathlib.Data.List.InsertIdx
import RemoteDebugger.Proof.WebCfg.Issues
import RemoteDebugger.Spec.Payload

/-!
# The requests of a web configuration

* `WebCfgRequests.step_cases`: what a step of the framework does;
* `decodeWebCfgData_answers`: what comes of a payload is its verdict;
* `webCfg_refines`: the requests and messages of every run of well-formed payloads
  are those of `AskedQueue`.
-/

namespace RRD

open Framework

variable {lib : WebCfgLib} {s s' : WebCfgRequests} {q : AskedQueue} {pString : Str}

/-! ## Steps -/

/-- The message that an execution of a request puts on the queue. -/
def messageOf (request : ExecData) : Option DataBuf := (processRemoteDebuggerWebConfigRequest request.userData).2

inductive WebCfgRequests.StepCases (lib : WebCfgLib) (s : WebCfgRequests) : WebCfgAct → WebCfgRequests → Prop where
  | decodes {pString : Str} {rc : Int} {request : Option ExecData} (h : decodeWebCfgData lib pString = .ok (rc, request)) :
    StepCases lib s (.decode pString) { s with pending := s.pending ++ request.toList }
  | executes {i : Nat} {request : ExecData} (h : s.pending[i]? = some request) :
    StepCases lib s (.execute i) { s with sent := s.sent ++ (messageOf request).toList }
  | releases {i : Nat} (h : i < s.pending.length) :
    StepCases lib s (.release i) { s with pending := s.pending.eraseIdx i }

theorem WebCfgRequests.step_cases {a : WebCfgAct} (h : s.Step lib a s') : StepCases lib s a s' := by
  unfold WebCfgRequests.Step WebCfgRequests.step at h
  cases a with
  | decode pString =>
    simp only at h
    split at h
    · cases h
    · rename_i hd
      exact Option.some.inj h ▸ .decodes hd
  | execute i =>
    obtain ⟨request, hi, rfl⟩ := Option.map_eq_some_iff.mp h
    exact .executes hi
  | release i =>
    simp only [Option.ite_none_right_eq_some, Option.some.injEq] at h
    obtain ⟨hi, rfl⟩ := h
    exact .releases hi

/-! ## Decoding -/

/-- What `decodeWebCfgData` returns for a document. -/
def requestFor : Option RemotedebuggerDoc → Int × Option ExecData
  | none => (-1, none)
  | some premotedebuggerInfo => (0, some (execDataLan premotedebuggerInfo))

theorem decodeWebCfgData_eq (lib : WebCfgLib) (pString : Str) : decodeWebCfgData lib pString =
    match payloadMap lib pString with
    | none => .ok (-1, none)
    | some kvs => (convertMap kvs (str "remotedebugger") .map true processRemotedebuggerdoc).map requestFor := by
  rw [decodeWebCfgData, payloadMap]
  cases lib.b64Decode pString with
  | none => rfl
  | some decodeMsg =>
    dsimp only [Option.bind_eq_bind, Option.bind_some]
    split
    · rw [remotedebuggerdocConvert, helperConvert, if_neg (List.append_ne_nil_of_right_ne_nil _ (List.cons_ne_nil _ _))]
      cases lib.unpackNext (decodeMsg ++ [lastByte lib pString decodeMsg]) with
      | none => rfl
      | some data =>
        cases data with
        | map kvs =>
          dsimp only
          rcases convertMap kvs (str "remotedebugger") .map true processRemotedebuggerdoc with _ | _ | _ <;> rfl
        | _ => rfl
    · rfl

/-- The issue types of a document are those that answer to `IssueType`. -/
theorem processParams_eq_issueTypesOf (rrdParam : RemotedebuggerParam) (inner : List (MsgObject × MsgObject)) :
    processParams rrdParam inner = match issueTypesOf inner with
      | none => (-1, rrdParam)
      | some arr => (0, ⟨some (joinIssueTypes arr), getReqTotalSizeOfIssueTypesStr arr⟩) := by
  have hentry : issueTypeEntry 0 inner = inner.findIdx? issueTypeAnswers := by rw [issueTypeEntry_eq]; simp
  have hfind : inner.find? issueTypeAnswers = (issueTypeEntry 0 inner).bind (inner[·]?) := by
    rw [hentry]
    exact List.find?_eq_bind_findIdx?_getElem? ..
  rw [issueTypesOf, hfind]
  rcases @processParams_eq_entry inner rrdParam with ⟨hnone, hparam⟩ | ⟨j, key, arr, hj, hget, hparam⟩
  · rw [hnone, hparam]
    rfl
  · rw [hj, Option.bind_some, hget, hparam]
    rfl

/-- The fields of a document, where they have the types that are read. -/
theorem processRemotedebuggerdoc_eq (inner : List (MsgObject × MsgObject)) (name : MsgStr) (version transactionId : Nat) :
    ∃ doc : RemotedebuggerDoc, doc.param = some (processParams ⟨none, 0⟩ inner).2 ∧
      processRemotedebuggerdoc .zero [some (.map inner), some (.str name), some (.positiveInteger version),
        some (.positiveInteger transactionId)] = .ok (if (processParams ⟨none, 0⟩ inner).1 ≠ 0 then -1 else 0, doc) := by
  refine ⟨⟨some (processParams ⟨none, 0⟩ inner).2, 1, some (cstr name.bytes), version % 2 ^ 32, transactionId % 2 ^ 16⟩,
    rfl, ?_⟩
  show (if (processParams ⟨none, 0⟩ inner).1 ≠ 0 then pure (-1, _) else pure (0, _) : Except Fault _) = _
  split <;> rfl

/-- The issue types are pushed whole. -/
theorem messageOf_issueTypes {doc : RemotedebuggerDoc} {arr : List MsgObject}
    (h : doc.param = some ⟨some (joinIssueTypes arr), getReqTotalSizeOfIssueTypesStr arr⟩) :
    messageOf (execDataLan doc) = some (issueMessage arr) := by
  have hfits : (joinIssueTypes arr).length ≤ getReqTotalSizeOfIssueTypesStr arr :=
    (joinIssueTypes_fits arr).trans (Nat.le_succ _)
  have htake : (joinIssueTypes arr).take (getReqTotalSizeOfIssueTypesStr arr) = joinIssueTypes arr :=
    List.take_of_length_le hfits
  simp only [messageOf, processRemoteDebuggerWebConfigRequest, execDataLan, Option.bind_some, h, prepareDataToPush, htake,
    issueMessage]

theorem convertMap_eq (kvs : List (MsgObject × MsgObject)) :
    convertMap kvs (str "remotedebugger") .map true processRemotedebuggerdoc =
      match field "remotedebugger" kvs with
      | none => .ok (some .zero)
      | some inner => (processRemotedebuggerdoc .zero [some inner, field "subdoc_name" kvs, field "version" kvs,
          field "transaction_id" kvs]).map fun r => if r.1 = 0 then some r.2 else none := by
  have hargs : ¬ (str "remotedebugger").take (str "parameters").length = str "parameters" := by decide
  have hname : str "remotedebugger" ≠ str "parameters" := by decide
  simp only [convertMap, hargs, hname, if_false, ne_eq, not_false_eq_true, if_true, finder_eq]
  simp only [field]
  cases lookup (str "remotedebugger") .map kvs with
  | none => rfl
  | some inner =>
    rw [if_pos Option.isSome_some]
    dsimp only
    rcases processRemotedebuggerdoc .zero [some inner, lookup (str "subdoc_name") .map kvs,
      lookup (str "version") .map kvs, lookup (str "transaction_id") .map kvs] with _ | ⟨ret, p⟩
    · rfl
    · show (if ret = 0 then pure (some p) else pure none : Except Fault _) = .ok (if ret = 0 then some p else none)
      split <;> rfl

/-- What comes of a map is its verdict: an execution of the request puts the
message on the queue that it asks for. -/
inductive Answers : Except Fault (Option RemotedebuggerDoc) → Verdict → Prop where
  | misread {fault : Fault} : Answers (.error fault) .misread
  | rejected : Answers (.ok none) .rejected
  | accepted {doc : RemotedebuggerDoc} {issueTypes : Option (List MsgObject)}
    (h : messageOf (execDataLan doc) = issueTypes.map issueMessage) : Answers (.ok (some doc)) (.accepted issueTypes)

theorem convertMap_answers (kvs : List (MsgObject × MsgObject)) :
    Answers (convertMap kvs (str "remotedebugger") .map true processRemotedebuggerdoc) (mapVerdict kvs) := by
  rw [mapVerdict]
  split
  · rename_i hdoc
    rw [convertMap_eq, hdoc]
    exact .accepted rfl
  · rename_i inner name version transactionId hdoc hname hversion htransactionId
    obtain ⟨doc, hparam, hok⟩ := processRemotedebuggerdoc_eq inner name version transactionId
    rw [convertMap_eq, hdoc, hname, hversion, htransactionId]
    simp only [hok, Except.map]
    rw [processParams_eq_issueTypesOf] at hparam ⊢
    cases hissues : issueTypesOf inner with
    | none => exact .rejected
    | some arr =>
      rw [hissues] at hparam
      exact .accepted (messageOf_issueTypes hparam)
  · rename_i hnone htyped
    cases hread : convertMap kvs (str "remotedebugger") .map true processRemotedebuggerdoc with
    | error fault => exact .misread
    | ok r =>
      rcases (convertMap_safe_iff kvs).mp ⟨r, hread⟩ with hdoc | ⟨⟨s, hname⟩, ⟨u, hversion⟩, ⟨v, htransactionId⟩, inner, hdoc⟩
      · exact (hnone hdoc).elim
      · exact (htyped inner s u v hdoc hname hversion htransactionId).elim

/-- What comes of a payload is its verdict. -/
inductive DecodeAnswers : Except Fault (Int × Option ExecData) → Verdict → Prop where
  | misread {fault : Fault} : DecodeAnswers (.error fault) .misread
  | rejected : DecodeAnswers (.ok (-1, none)) .rejected
  | accepted {request : ExecData} {issueTypes : Option (List MsgObject)}
    (h : messageOf request = issueTypes.map issueMessage) : DecodeAnswers (.ok (0, some request)) (.accepted issueTypes)

theorem decodeWebCfgData_answers (lib : WebCfgLib) (pString : Str) :
    DecodeAnswers (decodeWebCfgData lib pString) (verdict lib pString) := by
  rw [decodeWebCfgData_eq, verdict]
  cases payloadMap lib pString with
  | none => exact .rejected
  | some kvs =>
    have hanswers := convertMap_answers kvs
    dsimp only
    generalize convertMap kvs (str "remotedebugger") .map true processRemotedebuggerdoc = r at hanswers
    generalize mapVerdict kvs = v at hanswers
    cases hanswers with
    | misread => exact .misread
    | rejected => exact .rejected
    | accepted h => exact .accepted h

/-! ## The framework -/

/-- A state of the framework and the payloads in it, as what they ask for. -/
structure WebCfgRequests.Matches (s : WebCfgRequests) (q : AskedQueue) : Prop where
  pending : s.pending.map messageOf = q.pending.map (Option.map issueMessage)
  sent : s.sent = q.sent

theorem WebCfgRequests.Matches.step {a : WebCfgAct} (h : s.Step lib a s') (hq : s.Matches q) :
    ∃ q', q.step lib a = some q' ∧ s'.Matches q' := by
  unfold AskedQueue.step
  cases WebCfgRequests.step_cases h with
  | @decodes pString rc request hd =>
    have hanswers := decodeWebCfgData_answers lib pString
    rw [hd] at hanswers
    dsimp only
    generalize verdict lib pString = v at hanswers
    cases hanswers with
    | rejected => exact ⟨_, rfl, by simpa using hq.pending, hq.sent⟩
    | accepted hmessage => exact ⟨_, rfl, by simp [hq.pending, hmessage], hq.sent⟩
  | @executes i request hi =>
    have hget : (q.pending.map (Option.map issueMessage))[i]? = some (messageOf request) := by
      rw [← hq.pending, List.getElem?_map, hi, Option.map_some]
    rw [List.getElem?_map, Option.map_eq_some_iff] at hget
    obtain ⟨issueTypes, hissues, hmessage⟩ := hget
    dsimp only
    rw [hissues, ← hmessage]
    exact ⟨_, rfl, hq.pending, congrArg (· ++ _) hq.sent⟩
  | @releases i hi =>
    have hlen : s.pending.length = q.pending.length := by simpa using congrArg List.length hq.pending
    dsimp only
    rw [if_pos (hlen ▸ hi)]
    refine ⟨_, rfl, ?_, hq.sent⟩
    rw [← List.eraseIdx_map, hq.pending, List.eraseIdx_map]

/-- The msgpack of a document with `["Device.Info"]`. -/
def requestPayload : Str :=
  [0x84, 0xae] ++ str "remotedebugger" ++ [0x81, 0xa9] ++ str "IssueType" ++ [0x91, 0xab] ++ str "Device.Info" ++
    [0xab] ++ str "subdoc_name" ++ [0xae] ++ str "remotedebugger" ++ [0xa7] ++ str "version" ++ [1] ++
    [0xae] ++ str "transaction_id" ++ [2]

def requestStr (off size : Nat) : MsgObject := .str ⟨fun i => requestPayload.getD (off + i) 0, size⟩

def requestObject : MsgObject :=
  .map [(requestStr 2 14, .map [(requestStr 18 9, .array [requestStr 29 11])]), (requestStr 41 11, requestStr 53 14),
    (requestStr 68 7, .positiveInteger 1), (requestStr 77 14, .positiveInteger 2)]

/-- Its base64. -/
def requestBlob : Str :=
  str "hK5yZW1vdGVkZWJ1Z2dlcoGpSXNzdWVUeXBlkatEZXZpY2UuSW5mb6tzdWJkb2NfbmFtZa5yZW1vdGVkZWJ1Z2dlcqd2ZXJzaW9uAa50cmFuc2FjdGlvbl9pZAI="

def requestLib : WebCfgLib where
  b64DecodedSize size := size / 4 * 3
  b64Decode s := if s = requestBlob then some requestPayload else none
  unpackNext payload := if requestPayload <+: payload then some requestObject else none
  junk := 0x5a

end RRD
