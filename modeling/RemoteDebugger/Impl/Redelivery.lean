import Mathlib.Logic.Function.Basic
import RemoteDebugger.Impl.Cache

/-!
# The threads over the cache

The steps that threads interleave: the daemon thread's bus call and its
`append_item` afterwards (`RRDRdmManagerDownloadRequest`), and, in each
completion handler, the lookup, the message it sends and the removal. Each is
atomic: the cache operations hold `rrdCacheMut`. The state also records what was
requested, sent and removed.
-/

namespace RRD

open Framework

/-- A successful completion, as one of the two handlers sees it. -/
inductive Completion where
  | iarm (pkgName pkgInstPath : Str)
  | rbus (issue : Str)
  deriving DecidableEq, Repr

namespace Completion

/-- The key the handler looks up. -/
def key : Completion → Str
  | iarm pkgName _ => pkgName
  | rbus issue => rdmDownloadPkgName issue

/-- The message it sends for the entry it finds. -/
def message : Completion → CacheData → DataBuf
  | iarm _ pkgInstPath => rdmCompleteMessage pkgInstPath
  | rbus issue => rdmDownloadMessage (rdmDownloadPkgName issue)

/-- The handler run without interruption. -/
def handler : Completion → Cache → Cache × List DataBuf
  | iarm pkgName pkgInstPath => rdmManagerEventHandler ⟨pkgName, pkgInstPath, .pkgInstallComplete⟩
  | rbus issue => rdmDownloadEventHandler (some issue)

end Completion

/-- Where a handler is: waiting, or with the node it found before or after
its message is sent. -/
inductive Pc where
  | idle
  | found (ev : Completion) (cache : CacheData)
  | delivered (cache : CacheData)
  deriving DecidableEq, Repr

/-- The node that a handler will use again. -/
def Pc.node : Pc → Option CacheData
  | idle => none
  | found _ cache | delivered cache => some cache

/-- The shared state, with a handler for each bus thread in `τ`. -/
structure Threads (τ : Type) where
  cache : Cache
  /-- The address that `malloc` gives next. -/
  next : Nat
  /-- The package and issue of a request between its bus call and `append_item`. -/
  request : Option (Str × Str)
  handlers : τ → Pc
  requested : List (Str × Str)
  sent : List (CacheData × DataBuf)
  removed : List CacheData

inductive Act (τ : Type) where
  /-- The bus call of a request succeeds. -/
  | rbusSet (pkg issue : Str)
  | append
  | lookup (t : τ) (ev : Completion)
  | deliver (t : τ)
  | remove (t : τ)
  deriving DecidableEq, Repr

namespace Threads

variable {τ : Type} [DecidableEq τ]

/-- The daemon as it starts. -/
def init (τ : Type) : Threads τ := ⟨[], 0, none, fun _ => .idle, [], [], []⟩

def setPc (s : Threads τ) (t : τ) (pc : Pc) : Threads τ := { s with handlers := Function.update s.handlers t pc }

def step (s : Threads τ) : Act τ → Option (Threads τ)
  | .rbusSet pkg issue =>
    match s.request with
    | none => some { s with request := some (pkg, issue), requested := (pkg, issue) :: s.requested }
    | some _ => none
  | .append =>
    match s.request with
    | none => none
    | some (pkg, issue) =>
      some { s with cache := appendItem s.next pkg issue s.cache, next := s.next + 1, request := none }
  | .lookup t ev =>
    match s.handlers t with
    | .idle =>
      match findPresentInCache ev.key s.cache with
      | none => some s
      | some cache => some (s.setPc t (.found ev cache))
    | _ => none
  | .deliver t =>
    match s.handlers t with
    | .found ev cache => some { s.setPc t (.delivered cache) with sent := (cache, ev.message cache) :: s.sent }
    | _ => none
  | .remove t =>
    match s.handlers t with
    | .delivered cache =>
      some { s.setPc t .idle with cache := removeItem cache s.cache, removed := cache :: s.removed }
    | _ => none

/-- The steps as a relation. -/
def Step (s : Threads τ) (a : Act τ) (s' : Threads τ) : Prop := s.step a = some s'

end Threads

/-- The daemon with one completion handler, and a download manager that owes a
completion event for each successful bus call. -/
structure Managed where
  threads : Threads Unit
  owed : List Str

namespace Managed

def init : Managed := ⟨.init Unit, []⟩

/-- The events owed after an action: a completion event is one that was owed. -/
def owes (s : Managed) : Act Unit → Option (List Str)
  | .rbusSet pkg _ => some (pkg :: s.owed)
  | .lookup _ ev => if ev.key ∈ s.owed then some (s.owed.erase ev.key) else none
  | _ => some s.owed

def step (s : Managed) (a : Act Unit) : Option Managed :=
  (s.threads.step a).bind fun threads => (s.owes a).map fun owed => ⟨threads, owed⟩

def Step (s : Managed) (a : Act Unit) (s' : Managed) : Prop := s.step a = some s'

end Managed

end RRD
