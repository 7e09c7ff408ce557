import Mathlib.Logic.Function.Basic
import RemoteDebugger.Framework.Run
import RemoteDebugger.Impl.Dispatch

/-!
# The daemon

The event handlers put messages on the queue, and the thread of
`RRDEventThreadFunc` takes them off. `receive` runs the dispatch of a message
under the answers of the device, which leaves its effects to be performed;
`perform` performs them one at a time, so that the handlers run in between.
Each message and effect carries, as ghost data, the request it belongs to. The queue
is empty at the start, and `msgsnd` and `msgrcv` work.
-/

namespace RRD

open Framework

/-- What asks for commands: a token of an operator's message, or a wake from deep sleep. -/
inductive Origin where
  | token (message index : Nat)
  | wake (message : Nat)
  deriving DecidableEq, Repr

/-- A request: where it comes from, the base and the suffix of its token, and
whether a completion handler put it on the queue again. -/
structure Request where
  origin : Origin
  base : Str
  suffix : Str
  redelivered : Bool
  deriving DecidableEq, Repr

/-- Where a message comes from. Each token of an operator's message is a request. -/
inductive Sender where
  | operator (message : Nat)
  | request (r : Request)
  deriving DecidableEq, Repr

/-- The request that an effect of a message belongs to. -/
def Sender.requestOf : Sender → TokenAt → Request
  | .operator message, token => ⟨.token message token.2, token.1.1, token.1.2, false⟩
  | .request r, _ => r

@[simp] theorem Sender.requestOf_operator (message : Nat) (token : TokenAt) :
    (Sender.operator message).requestOf token = ⟨.token message token.2, token.1.1, token.1.2, false⟩ := rfl

@[simp] theorem Sender.requestOf_request (r : Request) (token : TokenAt) : (Sender.request r).requestOf token = r := rfl

structure Daemon where
  queue : List (DataBuf × Sender)
  cache : Cache
  /-- The request that the entry at an address was cached for. -/
  requests : Nat → Request
  /-- The value of the issue type parameter. -/
  issueType : Str
  /-- The effects of the current message, still to be performed. -/
  work : List (Request × Effect)
  /-- Whether the thread uses a NULL pointer after them. -/
  crashes : Bool
  /-- The effects performed, the last one first. -/
  log : List (Request × Effect)
  /-- The number of the next message. -/
  next : Nat

inductive DaemonAct where
  /-- A write to the issue type parameter. -/
  | set (value : Str)
  /-- `_remoteDebuggerEventHandler` on a value that was written. -/
  | issueEvent (value : Str)
  /-- `_remoteDebuggerWebCfgDataEventHandler`. -/
  | webCfgEvent (value : Str)
  /-- The web configuration framework pushes a list that it decoded. -/
  | webCfgIssues (issueTypeList : Str)
  /-- `_pwrManagerEventHandler` on a wake from deep sleep. -/
  | deepSleepWake
  /-- `_rdmManagerEventHandler`. -/
  | installEvent (eventData : EventData)
  /-- `_rdmDownloadEventHandler`, whose `rbus_get` works or fails. -/
  | downloadEvent (got : Bool)
  | receive (env : Env)
  /-- The next effect. A new entry of the cache is allocated at `addr`. -/
  | perform (addr : Nat)

/-- `pushIssueTypesToMsgQueue`: the message it puts on the queue. -/
def pushIssueTypesToMsgQueue (issueTypeList : Str) (sndtype : MsgType) : DataBuf :=
  let (append, mdata) := checkAppendRequest issueTypeList
  { rrdDataBuffInit sndtype .deepsleepInvalidDefault mdata with appendMode := append }

/-- The message of `_pwrManagerEventHandler`. -/
def pwrManagerMessage : DataBuf :=
  rrdDataBuffInit .deepsleepEventMsg .deepsleepRdmDownloadPkgInitiate deepSleepStr

namespace Daemon

def init : Daemon := ⟨[], [], fun _ => ⟨.wake 0, [], [], false⟩, [], [], false, [], 0⟩

/-- A message from outside. -/
def push (s : Daemon) (buf : DataBuf) (sender : Nat → Sender) : Daemon :=
  { s with queue := s.queue ++ [(buf, sender s.next)], next := s.next + 1 }

/-- A completion handler that looks `pkg` up: its messages belong to the request
of the entry it finds. -/
def complete (s : Daemon) (pkg : Str) (handled : Cache × List DataBuf) : Daemon :=
  match findPresentInCache pkg s.cache with
  | none => { s with cache := handled.1 }
  | some cache =>
    { s with
      cache := handled.1
      queue := s.queue ++
        handled.2.map fun buf => (buf, .request { s.requests cache.addr with redelivered := true }) }

/-- Perform an effect: those on the cache change it. -/
def perform (s : Daemon) (addr : Nat) (r : Request) : Effect → Daemon
  | .appendItem pkg issue =>
    { s with cache := appendItem addr pkg issue s.cache, requests := Function.update s.requests addr r }
  | _ => s

def alive (s : Daemon) : Bool := !s.crashes || !s.work.isEmpty

def step (cfg : Config) (s : Daemon) (a : DaemonAct) : Option Daemon :=
  if !s.alive then none
  else match a with
  | .set value => some { s with issueType := value }
  | .issueEvent value =>
    if value = [] then some s else some (s.push (pushIssueTypesToMsgQueue value .eventMsg) .operator)
  | .webCfgEvent value => some (s.push (pushIssueTypesToMsgQueue value .eventWebcfgMsg) .operator)
  | .webCfgIssues issueTypeList => some (s.push (pushIssueTypesToMsgQueue issueTypeList .eventMsg) .operator)
  | .deepSleepWake =>
    some (s.push pwrManagerMessage fun message => .request ⟨.wake message, deepSleepStr, [], false⟩)
  | .installEvent eventData => some (s.complete eventData.pkgName (rdmManagerEventHandler eventData s.cache))
  | .downloadEvent got =>
    some (s.complete (rdmDownloadPkgName s.issueType)
      (rdmDownloadEventHandler (if got then some s.issueType else none) s.cache))
  | .receive env =>
    match s.queue, s.work with
    | (buf, sender) :: queue, [] =>
      let o := (rrdEventThreadFunc cfg env buf).run 0
      some { s with
        queue := queue
        work := o.events.map fun e => (sender.requestOf e.1, e.2)
        crashes := o.result.isNone }
    | _, _ => none
  | .perform addr =>
    match s.work with
    | [] => none
    | (r, e) :: work =>
      if ∃ c ∈ s.cache, c.addr = addr then none
      else some { s.perform addr r e with work := work, log := (r, e) :: s.log }

/-- The steps as a relation. -/
def Step (cfg : Config) (s : Daemon) (a : DaemonAct) (s' : Daemon) : Prop := s.step cfg a = some s'

end Daemon

end RRD
