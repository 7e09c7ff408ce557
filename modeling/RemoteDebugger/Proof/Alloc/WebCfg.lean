import Mathlib.Algebra.BigOperators.Group.List.Basic
import Mathlib.Data.List.Perm.Basic
import RemoteDebugger.Impl.AllocWebCfg
import RemoteDebugger.Proof.Alloc.Profile
import RemoteDebugger.Proof.WebCfg.Requests

/-!
# The memory of a web configuration request

* `decodeWebCfgData_refines`: from a payload nothing stays but the request, and
  nothing at all where there is none;
* `processRemoteDebuggerWebConfigRequest_refines`, `freeResourcesRemoteDebugger_refines`:
  an execution keeps the request, and the release frees all of it;
* `webCfg_memory`: in every run of the framework, the blocks that are live are those
  of the requests and messages.
-/

namespace RRD.Alloc

open Framework Framework.Prog

/-! ## What is owned -/

def ofParam (param : Option RemotedebuggerParamPtr) : Multiset (Block Site) :=
  (param.map RemotedebuggerParamPtr.blocks).getD []

def ofDocument (doc : Option RemotedebuggerDocPtr) : Multiset (Block Site) :=
  (doc.map RemotedebuggerDocPtr.blocks).getD []

def ofRequest (request : Option ExecDataPtr) : Multiset (Block Site) := (request.map ExecDataPtr.blocks).getD []

@[simp] theorem ofParam_none : ofParam none = 0 := rfl

@[simp] theorem ofParam_some (param : RemotedebuggerParamPtr) :
    ofParam (some param) = {param.block} + ofStr param.commandList := rfl

@[simp] theorem ofDocument_none : ofDocument none = 0 := rfl

theorem ofDocument_some (doc : RemotedebuggerDocPtr) :
    ofDocument (some doc) = {doc.block} + ofStr doc.subdocName + ofParam doc.param := by
  rw [add_assoc]
  rfl

@[simp] theorem ofRequest_none : ofRequest none = 0 := rfl

@[simp] theorem ofRequest_some (request : ExecDataPtr) :
    ofRequest (some request) = {request.block} + ofDocument request.userData := rfl

variable {W E : Type} {Left : Block Site → Prop} {own F : Multiset (Block Site)} {α β γ δ : Type} {out : γ → Multiset (Block Site)}
  {R : γ → δ → Prop} {msg : List (Block Site)}

/-! ## Faults -/

theorem orStop_bind_eq (x : Except Fault α) (f : α → Except Fault β) :
    (orStop (x >>= f) : Prog W E β) = orStop x >>= fun a => orStop (f a) := by
  cases x <;> rfl

/-- Both sides stop at a fault. -/
theorem orStop_bind {x : Except Fault α} {f : α → Prog (W × Nat) (MemEvent Site E) γ} {g : α → Prog W E δ}
    (h : ∀ a, x = .ok a → Refines Left own (f a) (g a) out R) : Refines Left own (orStop x >>= f) (orStop x >>= g) out R := by
  cases x with
  | error fault => exact .stop
  | ok a => exact h a rfl

/-! ## The document -/

theorem processParams_refines {rrdParam : RemotedebuggerParamPtr} {kvs : List (MsgObject × MsgObject)}
    (hmsg : ∀ b ∈ msg, b ∈ own) (hparam : rrdParam.block ∈ own) (hlist : rrdParam.commandList = none) :
    Refines Left own (processParams msg rrdParam kvs) (pure (RRD.processParams rrdParam.value kvs) : Prog W E _)
      (fun r => ofStr r.2.commandList + own)
      (fun r r' => r.1 = r'.1 ∧ r.2.value = r'.2 ∧ r.2.block = rrdParam.block) := by
  induction kvs with
  | nil => exact .pure ⟨rfl, rfl, rfl⟩ (by simp [hlist])
  | cons kv kvs ih =>
    obtain ⟨key, val⟩ := kv
    have hskip : Refines Left own (use msg >>= fun _ => processParams msg rrdParam kvs)
        (pure (RRD.processParams rrdParam.value kvs) : Prog W E _) (fun r => ofStr r.2.commandList + own)
        (fun r r' => r.1 = r'.1 ∧ r.2.value = r'.2 ∧ r.2.block = rrdParam.block) := .use hmsg ih
    cases key with
    | str key =>
      cases val with
      | array arr =>
        simp only [processParams, RRD.processParams]
        by_cases hkey : keyMatch key (str "IssueType")
        · rw [if_pos hkey, if_pos hkey]
          refine .use hmsg (.malloc fun b _ => .use (fun b' hb' => ?_) (.pure ⟨rfl, rfl, rfl⟩ rfl))
          rcases List.mem_cons.mp hb' with rfl | hb'
          · exact Multiset.mem_add.mpr (.inl (Multiset.mem_singleton_self _))
          · refine Multiset.mem_add.mpr (.inr ?_)
            rcases List.mem_cons.mp hb' with rfl | hb'
            · exact hparam
            · exact hmsg b' hb'
        · rw [if_neg hkey, if_neg hkey]
          exact hskip
      | _ => exact hskip
    | _ => exact hskip

/-- A document gets its name and its parameter. -/
theorem processRemotedebuggerdoc_refines (ld : RemotedebuggerDocPtr) {args : List (Option MsgObject)}
    (hmsg : ∀ b ∈ msg, b ∈ F) :
    Refines Left ({ld.block} + F) (processRemotedebuggerdoc msg ld args)
      (orStop (RRD.processRemotedebuggerdoc ld.value args) : Prog W E _)
      (fun r => ofDocument (some r.2) + F) (fun r r' => r.1 = r'.1 ∧ r.2.value = r'.2) := by
  have hld : ∀ b ∈ ld.block :: msg, b ∈ {ld.block} + F := fun b hb => by
    rcases List.mem_cons.mp hb with rfl | hb
    · exact Multiset.mem_add.mpr (.inl (Multiset.mem_singleton_self _))
    · exact Multiset.mem_add.mpr (.inr (hmsg b hb))
  rw [processRemotedebuggerdoc, RRD.processRemotedebuggerdoc]
  simp only [orStop_bind_eq]
  refine orStop_bind fun obj _ => orStop_bind fun obj1 _ => orStop_bind fun obj1 _ => orStop_bind fun name _ => ?_
  refine .use hld (strdup_bind fun subdocName htext _ => ?_)
  refine orStop_bind fun obj2 _ => orStop_bind fun obj2 _ => orStop_bind fun version _ => ?_
  refine orStop_bind fun obj3 _ => orStop_bind fun obj3 _ => orStop_bind fun transactionId _ => ?_
  refine .malloc fun param _ => .use (fun b hb => ?_) (orStop_bind fun obj _ => ?_)
  · rcases List.mem_cons.mp hb with rfl | hb
    · simp
    · rcases List.mem_cons.mp hb with rfl | hb
      · simp
      · simp [hmsg b hb]
  rw [RRD.processRemotedebuggerparams]
  simp only [orStop_bind_eq, bind_assoc]
  refine orStop_bind fun kvs _ => ?_
  refine Refines.bind (processParams_refines ?_ ?_ rfl) fun r r' hr => ?_
  · exact fun b hb => by simp [hmsg b hb]
  · simp
  obtain ⟨ret, param'⟩ := r
  obtain ⟨ret', param''⟩ := r'
  obtain ⟨hret, hvalue, hblock⟩ := hr
  obtain rfl : ret = ret' := hret
  obtain rfl : param'.value = param'' := hvalue
  obtain rfl : param'.block = param := hblock
  have hown : ofStr param'.commandList + ({param'.block} + ({subdocName.block} + ({ld.block} + F))) =
      ofDocument (some ⟨ld.block, some param', 1, some subdocName, version % 2 ^ 32, transactionId % 2 ^ 16⟩) + F := by
    rw [ofDocument_some, ofParam_some, ofStr_some]
    abel
  have hvalue : (RemotedebuggerDocPtr.mk ld.block (some param') 1 (some subdocName) (version % 2 ^ 32)
      (transactionId % 2 ^ 16)).value = ⟨some param'.value, 1, some (cstr name.bytes), version % 2 ^ 32, transactionId % 2 ^ 16⟩ :=
    congrArg (fun text => RemotedebuggerDoc.mk (some param'.value) 1 (some text) _ _) htext
  dsimp only
  split
  · exact .pure ⟨rfl, hvalue⟩ hown
  · exact .pure ⟨rfl, hvalue⟩ hown

/-- All of a document is freed. -/
theorem remotedebuggerdocDestroy_bind {ld : RemotedebuggerDocPtr} {Q : Prog W E δ} {f : Unit → WebCfgProg W E γ}
    (h : Refines Left own (f ()) Q out R) :
    Refines Left (ofDocument (some ld) + own) (remotedebuggerdocDestroy ld >>= f) Q out R := by
  obtain ⟨block, param, entriesCount, subdocName, version, transactionId⟩ := ld
  rw [ofDocument_some, remotedebuggerdocDestroy]
  simp only [bind_assoc]
  refine .use (by simp) ?_
  have hname : Refines Left ({block} + ofStr subdocName + own) (do
      free (blockOf subdocName)
      free (some block)
      f ()) Q out R := by
    refine .free ({block} + own) (by rw [ofStr]; abel) (.free own ?_ h)
    rw [ofPtr]
    simp
  cases param with
  | none =>
    rw [ofParam_none, add_zero]
    simp only [bind_assoc]
    exact hname
  | some param =>
    simp only [bind_assoc]
    refine .use (by simp) ?_
    refine .free ({param.block} + ({block} + ofStr subdocName + own)) (by rw [ofParam_some, ofStr, ofStr]; abel) ?_
    refine .free ({block} + ofStr subdocName + own) ?_ hname
    rw [ofPtr]
    simp

theorem msgpackUnpackNext_bind {lib : WebCfgLib} {buf : CharPtr} {Q : Prog W E δ}
    {f : Option (MsgObject × Block Site) → WebCfgProg W E γ} (hbuf : buf.block ∈ own)
    (h : ∀ msg, msg.map Prod.fst = lib.unpackNext buf.text → Refines Left (ofPtr (msg.map Prod.snd) + own) (f msg) Q out R) :
    Refines Left own (msgpackUnpackNext lib buf >>= f) Q out R := by
  rw [msgpackUnpackNext, bind_assoc]
  refine .use (by simpa using hbuf) ?_
  cases hdata : lib.unpackNext buf.text with
  | none =>
    have hnone := h none hdata.symm
    rw [Option.map_none, ofPtr, Option.toList_none, Multiset.coe_nil, zero_add] at hnone
    exact hnone
  | some data =>
    simp only [bind_assoc]
    exact .malloc fun zone _ => h (some (data, zone)) hdata.symm

/-- How `helper_convert` fills the document that it has from a map. -/
theorem convertMap_refines {kvs : List (MsgObject × MsgObject)} {p : Block Site} {wrapper : Str}
    {expectType : MsgObjectType} {optional : Bool} (hmsg : ∀ b ∈ msg, b ∈ F) :
    Refines Left ({p} + F) (convertMap msg kvs (.zero p) wrapper expectType optional processRemotedebuggerdoc)
      (orStop (RRD.convertMap kvs wrapper expectType optional RRD.processRemotedebuggerdoc) : Prog W E _)
      (fun r => ofDocument (some r.2) + F) (fun r r' => (if r.1 then some r.2.value else none) = r') := by
  rw [convertMap, RRD.convertMap]
  refine .use (fun b hb => Multiset.mem_add.mpr (.inr (hmsg b hb))) ?_
  dsimp only
  generalize hargs : (if wrapper.take (str "parameters").length = str "parameters" then some [finder wrapper expectType kvs]
    else if wrapper ≠ str "parameters" then
      some [finder wrapper expectType kvs, finder (str "subdoc_name") expectType kvs,
        finder (str "version") expectType kvs, finder (str "transaction_id") expectType kvs]
    else none) = args
  cases args with
  | none => exact .pure rfl rfl
  | some args =>
    dsimp only
    split
    · rw [orStop_bind_eq]
      refine (processRemotedebuggerdoc_refines (.zero p) hmsg).bind fun r r' hr => ?_
      obtain ⟨ret, ld⟩ := r
      obtain ⟨ret', ld'⟩ := r'
      obtain rfl : ret = ret' := hr.1
      obtain rfl : ld.value = ld' := hr.2
      by_cases h0 : ret = 0
      · simp only [h0, decide_true, if_true]
        exact .pure rfl rfl
      · simp only [h0, decide_false, if_false]
        exact .pure rfl rfl
    · cases optional with
      | false => exact .pure rfl rfl
      | true => exact .pure rfl rfl

/-- The document that `helper_convert` returns, and nothing where it returns NULL. -/
theorem remotedebuggerdocConvert_refines {lib : WebCfgLib} {buf : CharPtr} (hbuf : buf.block ∈ own) :
    Refines Left own (remotedebuggerdocConvert lib (some buf))
      (orStop (RRD.remotedebuggerdocConvert lib.unpackNext (some buf.text)) : Prog W E _)
      (fun r => ofDocument r + own) (fun r r' => r.map RemotedebuggerDocPtr.value = r') := by
  rw [remotedebuggerdocConvert, helperConvert, RRD.remotedebuggerdocConvert, RRD.helperConvert]
  refine .malloc fun p _ => .use (by simp) ?_
  dsimp only
  split
  · exact .pure rfl rfl
  refine msgpackUnpackNext_bind (Multiset.mem_add.mpr (.inr hbuf)) fun msg hmsg => ?_
  rw [← hmsg]
  -- the end of `helper_convert`, whatever came of the map
  have hend (converted : Bool) (ld : RemotedebuggerDocPtr) :
      Refines Left (ofPtr (msg.map Prod.snd) + (ofDocument (some ld) + own))
        (free (msg.map Prod.snd) >>= fun _ => if converted then pure (some ld) else do
          remotedebuggerdocDestroy ld
          pure none)
        (pure (if converted then some ld.value else none) : Prog W E _) (fun r => ofDocument r + own)
        (fun r r' => r.map RemotedebuggerDocPtr.value = r') := by
    refine .free (ofDocument (some ld) + own) rfl ?_
    cases converted with
    | true => exact .pure rfl rfl
    | false => exact remotedebuggerdocDestroy_bind (.pure rfl (zero_add own).symm)
  cases msg with
  | none => exact hend false (.zero p)
  | some msg =>
    obtain ⟨data, zone⟩ := msg
    cases data with
    | map kvs =>
      have hzone : ∀ b ∈ [buf.block, zone], b ∈ ({zone} + own : Multiset (Block Site)) := fun b hb => by
        rcases List.mem_cons.mp hb with rfl | hb
        · exact Multiset.mem_add.mpr (.inr hbuf)
        · exact Multiset.mem_add.mpr (.inl (Multiset.mem_singleton.mpr (List.mem_singleton.mp hb)))
      have hown : ofPtr (some zone) + ({p} + own) = {p} + ({zone} + own) := add_left_comm ({zone} : Multiset (Block Site)) _ _
      rw [Option.map_some, hown]
      refine .of_bind_pure ((convertMap_refines hzone).bind fun r r' hr => ?_)
      have hr' := hend r.1 r.2
      rwa [hr, Option.map_some, ofPtr, Option.toList_some, Multiset.coe_singleton, add_left_comm] at hr'
    | _ => exact hend false (.zero p)

/-! ## Decoding -/

theorem getMsgpackUnpackStatus_bind {lib : WebCfgLib} {buf : CharPtr} {Q : Prog W E δ} {f : Bool → WebCfgProg W E γ}
    (hbuf : buf.block ∈ own) (h : Refines Left own (f (RRD.getMsgpackUnpackStatus lib buf.text)) Q out R) :
    Refines Left own (getMsgpackUnpackStatus lib buf >>= f) Q out R := by
  rw [RRD.getMsgpackUnpackStatus] at h
  rw [getMsgpackUnpackStatus]
  by_cases hempty : buf.text = []
  · rw [if_pos hempty]
    simpa [hempty] using h
  · rw [if_neg hempty, bind_assoc]
    refine msgpackUnpackNext_bind hbuf fun msg hmsg => ?_
    rw [bind_assoc]
    refine .free own rfl ?_
    rw [← hmsg, Option.isSome_map] at h
    simpa [hempty] using h

/-- From a payload nothing stays but the request, and nothing where there is none. -/
theorem decodeWebCfgData_refines (lib : WebCfgLib) (pString : Str) :
    Refines Left own (decodeWebCfgData lib pString) (orStop (RRD.decodeWebCfgData lib pString) : Prog W E _)
      (fun r => ofRequest r.2 + own) (fun r r' => r.1 = r'.1 ∧ r.2.map ExecDataPtr.value = r'.2) := by
  rw [decodeWebCfgData, getBase64Decodedbuffer, RRD.decodeWebCfgData]
  simp only [bind_assoc]
  refine .malloc fun b _ => .use (by simp) ?_
  cases lib.b64Decode pString with
  | none =>
    simp only [bind_assoc]
    exact .free own (by simp [ofPtr]) (.pure ⟨rfl, rfl⟩ (zero_add own).symm)
  | some bytes =>
    refine getMsgpackUnpackStatus_bind (by simp) ?_
    dsimp only
    split
    · rw [orStop_bind_eq]
      refine (remotedebuggerdocConvert_refines (by simp)).bind fun doc doc' hdoc => ?_
      rw [← hdoc]
      refine .free (ofDocument doc + own) ?_ ?_
      · rw [ofPtr, Option.toList_some, Multiset.coe_singleton]
        exact add_left_comm ..
      cases doc with
      | none => exact .pure ⟨rfl, rfl⟩ rfl
      | some doc =>
        refine .use ?_ (.malloc fun request _ => .use ?_ (.pure ⟨rfl, rfl⟩ ?_))
        · simpa [ofDocument_some] using fun _ hb => .inr (.inl (.inl hb))
        · simp [ofDocument_some]
        · exact (add_assoc ..).symm
    · exact .free own (by simp [ofPtr]) (.pure ⟨rfl, rfl⟩ (zero_add own).symm)

/-! ## The callbacks -/

def ofSent (sbuf : Option DataBufPtr) : Multiset (Block Site) := (sbuf.map DataBufPtr.blocks).getD []

/-- An execution keeps the document, and makes a status and at most one message. -/
theorem processRemoteDebuggerWebConfigRequest_refines (data : Option RemotedebuggerDocPtr) :
    Refines Left (ofDocument data) (processRemoteDebuggerWebConfigRequest data)
      (pure (RRD.processRemoteDebuggerWebConfigRequest (data.map RemotedebuggerDocPtr.value)) : Prog W E _)
      (fun r => {r.1.1} + ofSent r.2 + ofDocument data) (fun r r' => r.1.2 = r'.1 ∧ r.2.map DataBufPtr.value = r'.2) := by
  rw [processRemoteDebuggerWebConfigRequest]
  cases data with
  | none => exact .malloc fun b _ => .use (by simp) (.pure ⟨rfl, rfl⟩ rfl)
  | some doc =>
    obtain ⟨block, param, entriesCount, subdocName, version, transactionId⟩ := doc
    refine .malloc fun b _ => .use (by simp [ofDocument_some]) ?_
    cases param with
    | none => exact .pure ⟨rfl, rfl⟩ rfl
    | some param =>
      obtain ⟨paramBlock, commandList, length⟩ := param
      refine .use (by simp [ofDocument_some]) ?_
      cases commandList with
      | none => exact .pure ⟨rfl, rfl⟩ rfl
      | some commandList =>
        dsimp only [Option.bind_some]
        rw [prepareDataToPush]
        simp only [bind_assoc]
        refine .use (by simp [ofDocument_some]) (strdup_bind fun issueTypeList htext _ => .use (by simp [ofDocument_some]) ?_)
        rw [pushIssueTypesToMsgQueue]
        simp only [bind_assoc]
        refine .malloc fun sbuf _ => .use (by simp [ofDocument_some]) (.pure ⟨rfl, ?_⟩ ?_)
        · rw [htext]
          rfl
        · show _ = ({b} + ({sbuf} + {issueTypeList.block}) + _ : Multiset (Block Site))
          abel

/-- The release frees all of a request. -/
theorem freeResourcesRemoteDebugger_refines (request : ExecDataPtr) :
    Refines Left (ofRequest (some request)) (freeResourcesRemoteDebugger request) (pure () : Prog W E _)
      (fun _ => 0) (fun _ _ => True) := by
  rw [ofRequest_some, freeResourcesRemoteDebugger]
  refine .use (by simp) ?_
  cases request.userData with
  | none => exact .of_bind_pure₂ (.free 0 (by simp [ofPtr]) (.pure trivial rfl))
  | some doc =>
    refine .use ?_ ?_
    · simpa [ofDocument_some] using fun _ hb => .inr (.inr (.inl hb))
    rw [add_comm]
    refine remotedebuggerdocDestroy_bind (.of_bind_pure₂ (.free 0 ?_ (.pure trivial rfl)))
    simp [ofPtr]

/-! ## The framework -/

structure WebCfgMemory where
  pending : List ExecDataPtr
  sent : List DataBufPtr
  /-- The statuses that the framework was given. -/
  statuses : List (Block Site)
  live : Multiset (Block Site)
  /-- The number of allocations. -/
  next : Nat

namespace WebCfgMemory

def init : WebCfgMemory := ⟨[], [], [], 0, 0⟩

def decode (lib : WebCfgLib) (pString : Str) (m : WebCfgMemory) : Option WebCfgMemory :=
  let o := (decodeWebCfgData lib pString : WebCfgProg Unit Empty _).run ((), m.next)
  (exec MemAct.step m.live (memActs o.events)).map fun live =>
    { m with pending := m.pending ++ (o.result.bind Prod.snd).toList, live := live, next := o.world.2 }

def execute (request : ExecDataPtr) (m : WebCfgMemory) : Option WebCfgMemory :=
  let o := (processRemoteDebuggerWebConfigRequest request.userData : WebCfgProg Unit Empty _).run ((), m.next)
  (exec MemAct.step m.live (memActs o.events)).map fun live =>
    { m with
      sent := m.sent ++ (o.result.bind Prod.snd).toList
      statuses := m.statuses ++ (o.result.map fun r => r.1.1).toList
      live := live
      next := o.world.2 }

def release (i : Nat) (request : ExecDataPtr) (m : WebCfgMemory) : Option WebCfgMemory :=
  let o := (freeResourcesRemoteDebugger request : WebCfgProg Unit Empty _).run ((), m.next)
  (exec MemAct.step m.live (memActs o.events)).map fun live =>
    { m with pending := m.pending.eraseIdx i, live := live, next := o.world.2 }

def step (lib : WebCfgLib) (m : WebCfgMemory) : WebCfgAct → Option WebCfgMemory
  | .decode pString => m.decode lib pString
  | .execute i => m.pending[i]?.bind m.execute
  | .release i => m.pending[i]?.bind (m.release i)

end WebCfgMemory

/-- The blocks of the requests and the messages, and the statuses. -/
def ofRequests (pending : List ExecDataPtr) (sent : List DataBufPtr) (statuses : List (Block Site)) : Multiset (Block Site) :=
  (pending.map fun request => ofRequest (some request)).sum + (sent.map fun sbuf => ofSent (some sbuf)).sum + statuses

section Requests

variable {pending : List ExecDataPtr} {sent : List DataBufPtr} {statuses : List (Block Site)}

theorem ofRequests_decoded (request : Option ExecDataPtr) :
    ofRequests (pending ++ request.toList) sent statuses = ofRequest request + ofRequests pending sent statuses := by
  have hsum : (request.toList.map fun request => ofRequest (some request)).sum = ofRequest request := by
    cases request <;> simp
  rw [ofRequests, List.map_append, List.sum_append, hsum, ofRequests]
  abel

theorem ofRequests_executed (sbuf : Option DataBufPtr) (status : Block Site) :
    ofRequests pending (sent ++ sbuf.toList) (statuses ++ [status]) =
      {status} + ofSent sbuf + ofRequests pending sent statuses := by
  have hsum : (sbuf.toList.map fun sbuf => ofSent (some sbuf)).sum = ofSent sbuf := by
    cases sbuf <;> simp [ofSent]
  rw [ofRequests, List.map_append, List.sum_append, hsum, ← Multiset.coe_add, Multiset.coe_singleton, ofRequests]
  abel

/-- A request among those that are pending. -/
theorem ofRequests_getElem {i : Nat} {request : ExecDataPtr} (hi : pending[i]? = some request) :
    ofRequests pending sent statuses = ofRequest (some request) + ofRequests (pending.eraseIdx i) sent statuses := by
  obtain ⟨hlt, hget⟩ := List.getElem?_eq_some_iff.mp hi
  have hperm := (List.getElem_cons_eraseIdx_perm hlt).map fun request => ofRequest (some request)
  rw [hget] at hperm
  rw [ofRequests, ofRequests, ← hperm.sum_eq, List.map_cons, List.sum_cons]
  abel

end Requests

/-- The memory of a state of the framework. -/
structure Accounted (s : WebCfgRequests) (m : WebCfgMemory) : Prop where
  pending : m.pending.map ExecDataPtr.value = s.pending
  sent : m.sent.map DataBufPtr.value = s.sent
  below : IdsBelow m.next m.live
  nodup : m.live.Nodup
  live : m.live = ofRequests m.pending m.sent m.statuses

variable {lib : WebCfgLib} {s s' : WebCfgRequests} {m : WebCfgMemory}

theorem map_toList_append {A B : Type} {f : A → B} {as : List A} {bs : List B} {a : Option A} {b : Option B}
    (h : as.map f = bs) (hab : a.map f = b) : (as ++ a.toList).map f = bs ++ b.toList := by
  subst h hab
  cases a <;> simp

theorem decode_accounted {pString : Str} {rc : Int} {request : Option ExecData} (h : Accounted s m)
    (hread : RRD.decodeWebCfgData lib pString = .ok (rc, request)) :
    ∃ m', m.decode lib pString = some m' ∧ Accounted { s with pending := s.pending ++ request.toList } m' := by
  obtain ⟨-, -, -, live, hexec, hbelow, hends⟩ :=
    @decodeWebCfgData_refines Unit Empty (fun _ => False) 0 lib pString m.live () m.next (by rw [zero_add]; exact h.below)
  rw [zero_add] at hexec
  refine ⟨_, by rw [WebCfgMemory.decode, hexec, Option.map_some], ?_⟩
  rw [hread] at hends
  rcases hends.exact with ⟨-, hr⟩ | ⟨p, r', hr, hr', ⟨-, hvalue⟩, hlive⟩
  · cases hr
  · obtain rfl := Option.some.inj hr'
    rw [hr]
    refine ⟨map_toList_append h.pending hvalue, h.sent, hbelow, exec_nodup hexec h.nodup, ?_⟩
    rw [add_zero, h.live] at hlive
    exact hlive.trans (ofRequests_decoded p.2).symm

theorem execute_accounted {i : Nat} {p : ExecDataPtr} (h : Accounted s m) (hp : m.pending[i]? = some p) :
    ∃ m', m.execute p = some m' ∧ Accounted { s with sent := s.sent ++ (messageOf p.value).toList } m' := by
  have hlive : m.live = ofDocument p.userData + ({p.block} + ofRequests (m.pending.eraseIdx i) m.sent m.statuses) := by
    rw [h.live, ofRequests_getElem hp, ofRequest_some]
    abel
  obtain ⟨-, -, -, live, hexec, hbelow, hends⟩ :=
    @processRemoteDebuggerWebConfigRequest_refines Unit Empty (fun _ => False) p.userData _ () m.next (hlive ▸ h.below)
  rw [← hlive] at hexec
  refine ⟨_, by rw [WebCfgMemory.execute, hexec, Option.map_some], ?_⟩
  rcases hends.exact with ⟨-, hr⟩ | ⟨r, r', hr, hr', ⟨-, hvalue⟩, hlive'⟩
  · cases hr
  · obtain rfl := Option.some.inj hr'
    rw [hr]
    refine ⟨h.pending, map_toList_append h.sent hvalue, hbelow, exec_nodup hexec h.nodup, ?_⟩
    refine Eq.trans ?_ (ofRequests_executed r.2 r.1.1).symm
    rw [ofRequests_getElem hp, ofRequest_some]
    dsimp only
    rw [hlive']
    abel

theorem release_accounted {i : Nat} {p : ExecDataPtr} (h : Accounted s m) (hp : m.pending[i]? = some p) :
    ∃ m', m.release i p = some m' ∧ Accounted { s with pending := s.pending.eraseIdx i } m' := by
  have hlive := h.live.trans (ofRequests_getElem hp)
  obtain ⟨-, -, -, live, hexec, hbelow, hends⟩ :=
    @freeResourcesRemoteDebugger_refines Unit Empty (fun _ => False) p _ () m.next (hlive ▸ h.below)
  rw [← hlive] at hexec
  refine ⟨_, by rw [WebCfgMemory.release, hexec, Option.map_some], ?_⟩
  rcases hends.exact with ⟨-, hr⟩ | ⟨_, _, -, -, -, hlive'⟩
  · cases hr
  · refine ⟨?_, h.sent, hbelow, exec_nodup hexec h.nodup, hlive'.trans (zero_add _)⟩
    rw [← List.eraseIdx_map, h.pending]

/-- A pending request has its pointer. -/
theorem Accounted.getElem {i : Nat} {request : ExecData} (h : Accounted s m) (hi : s.pending[i]? = some request) :
    ∃ p, m.pending[i]? = some p ∧ p.value = request := by
  rw [← h.pending, List.getElem?_map] at hi
  exact Option.map_eq_some_iff.mp hi

/-- The memory follows each step of the framework. -/
theorem step_accounted {a : WebCfgAct} (hs : s.Step lib a s') (h : Accounted s m) :
    ∃ m', m.step lib a = some m' ∧ Accounted s' m' := by
  cases WebCfgRequests.step_cases hs with
  | decodes hd => exact decode_accounted h hd
  | executes hi =>
    obtain ⟨p, hp, rfl⟩ := h.getElem hi
    rw [WebCfgMemory.step, hp]
    exact execute_accounted h hp
  | releases hi =>
    obtain ⟨p, hp, -⟩ := h.getElem (List.getElem?_eq_getElem hi)
    rw [WebCfgMemory.step, hp]
    exact release_accounted h hp

/-- In every run of the framework in which no payload is misread, each `free` and each
use is of a live block, and the live blocks are those of the requests that are not
released and of the messages, and the statuses, each once: nothing is left of a payload
that is rejected, or of a request that is released. -/
theorem webCfg_memory {tr : List (WebCfgRequests × WebCfgAct)} (h : Run (WebCfgRequests.Step lib) .init tr s) :
    ∃ m, exec (WebCfgMemory.step lib) .init (tr.map Prod.snd) = some m ∧ m.pending.map ExecDataPtr.value = s.pending ∧
      m.sent.map DataBufPtr.value = s.sent ∧ m.live.Nodup ∧ m.live = ofRequests m.pending m.sent m.statuses := by
  have hinit : Accounted .init .init := ⟨rfl, rfl, by simp [WebCfgMemory.init, IdsBelow], by simp [WebCfgMemory.init], rfl⟩
  obtain ⟨m, hexec, hm⟩ := h.followed Accounted step_accounted hinit
  exact ⟨m, hexec, hm.pending, hm.sent, hm.nodup, hm.live⟩

/-- A request is executed twice and released: the messages and the statuses stay. -/
theorem webCfg_memory_device : ∃ tr s, Run (WebCfgRequests.Step requestLib) .init tr s ∧
    (∃ m, exec (WebCfgMemory.step requestLib) .init (tr.map Prod.snd) = some m ∧
      m.pending.map ExecDataPtr.value = s.pending ∧ m.sent.map DataBufPtr.value = s.sent ∧ m.live.Nodup ∧
      m.live = ofRequests m.pending m.sent m.statuses) ∧
    s.pending = [] ∧ s.sent.length = 2 := by
  let acts : List WebCfgAct := [.decode requestBlob, .execute 0, .decode (str "{}"), .execute 0, .release 0]
  have hrun : (exec (WebCfgRequests.step requestLib) .init acts).map (fun s => (s.pending, s.sent.length)) =
      some ([], 2) := by decide +kernel
  obtain ⟨s, hs, hstate⟩ := Option.map_eq_some_iff.mp hrun
  have h := exec_run hs
  simp only [Prod.mk.injEq] at hstate
  exact ⟨_, s, h, webCfg_memory h, hstate.1, hstate.2⟩

end RRD.Alloc
