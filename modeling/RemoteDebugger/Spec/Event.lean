import Mathlib.Algebra.Ring.Nat
import RemoteDebugger.Framework.Plan
import RemoteDebugger.Impl.Dispatch

/-!
# The turns of an event

What a token comes to is told by the files of the device (`resolve`). A turn
takes place at a `Site`: a second, and the directories that exist. The device
answers a turn as its site does, and goes from one site to the next with what the
turn did (`Site.Next`); a run of an event is such a sequence of turns
(`Event.Runs`).

`Event.Isolated` says that a token does not depend on the others of its event, and
`Event.Undisturbed` when.
-/

namespace RRD

open Framework Framework.Prog

/-! ## What a token comes to -/

inductive Resolved where
  /-- The thread stops. -/
  | crash
  /-- A download, or nothing. -/
  | nothing
  /-- A directory for the node, and these commands in it. -/
  | report (node : Str) (commands : Plan IssueData)

section Resolve

variable (cfg : Config) (files : Str → Option CJson)

/-- The command of an issue type, if it is accepted. -/
def plannedCommand (issue : IssueNodeData) (jsoncfg : Option CJson) (buf : Str) (deep : Bool) : Plan IssueData :=
  match readCommand cfg (issueTypeItem (commandRoot jsoncfg deep) issue) with
  | (none, _) => .done
  | (some raw, timeout) =>
    match isCommandsValid cfg raw (checkCommands ((sanityCheck jsoncfg).or (sanityCheck (files rrdJsonFile)))) with
    | none => .done
    | some command => ⟨[acceptedData jsoncfg buf raw command timeout], false⟩

/-- The commands of every sub-node, to the first that has no name. -/
def plannedOfNode (jsoncfg : Option CJson) (issue : IssueNodeData) (rfcbuf : Str) : Plan IssueData :=
  .sequence <| (cJsonItems (cJsonGetObjectItem jsoncfg issue.node)).zipIdx.map fun (item, i) =>
    match item.1 with
    | none => .halt
    | some string =>
      plannedCommand cfg files ⟨if i ≠ 0 then some rfcbuf else issue.node, some string⟩ jsoncfg
        (rfcbuf ++ rfcDelim ++ string) false

/-- The commands of every type of every category. -/
def plannedOfDeepSleep (jsoncfg : Option CJson) (issue : IssueNodeData) : Plan IssueData :=
  .sequence <| (cJsonItems (cJsonGetObjectItem jsoncfg issue.node)).map fun category =>
    .sequence <| (cJsonItems (some category.2)).map fun type =>
      match category.1, type.1 with
      | some categoryName, some typeName =>
        plannedCommand cfg files ⟨some categoryName, some typeName⟩ jsoncfg
          (categoryName.take typeName.length ++ rfcDelim ++ typeName.take categoryName.length) true
      | _, _ => .halt

def plannedCommands (issue : IssueNodeData) (jsoncfg : Option CJson) (rbuf : DataBuf) (deep : Bool)
    (data : Option IssueData) : Plan IssueData :=
  if issue.subNode ≠ none then
    if rbuf.appendMode then
      match data with
      | none => .halt
      | some cmdinfo => ⟨[cmdinfo], false⟩
    else plannedCommand cfg files issue jsoncfg rbuf.mdata false
  else if deep then plannedOfDeepSleep cfg files jsoncfg issue
  else plannedOfNode cfg files jsoncfg issue rbuf.mdata

def resolveReport (issue : IssueNodeData) (jsoncfg : Option CJson) (rbuf : DataBuf) (data : Option IssueData) : Resolved :=
  match issue.node with
  | none => .crash
  | some node =>
    .report node (plannedCommands cfg files issue jsoncfg rbuf (node = deepSleepStr || node = str "deepsleep") data)

/-- The profile in a file, if it has the issue. -/
def profileWith (issue : IssueNodeData) (path : Str) : Option CJson :=
  (files path).filter fun json => findIssueInParsedJSON cfg issue (some json)

/-- The command of a profile in append mode: `none` for a profile that has the
issue without a command that is accepted. -/
def appendedData (rbuf : DataBuf) (issue : IssueNodeData) (json : CJson) : Option (Option IssueData) :=
  if findIssueInParsedJSON cfg issue (some json) then
    (getIssueCommandInfo cfg issue (some json) rbuf.mdata).map some
  else some none

/-- A token in append mode, whose package has the profile `dynamic`. -/
def resolveAppend (rbuf : DataBuf) (issue : IssueNodeData) (dynamic : CJson) : Resolved :=
  (appendedData cfg rbuf issue dynamic).elim .crash fun
    | none => .nothing
    | some dynamicprofiledata =>
      match files rrdJsonFile with
      | none => .nothing
      | some static =>
        (appendedData cfg rbuf issue static).elim .crash fun
          | none => .nothing
          | some staticprofiledata =>
            resolveReport cfg files issue none rbuf (some (appendCommands staticprofiledata dynamicprofiledata))

/-- The profile that a token in plain mode is resolved to. -/
def resolveProfile (rbuf : DataBuf) (issue : IssueNodeData) : Option CJson :=
  if rbuf.inDynamic then rbuf.jsonPath.bind (profileWith cfg files issue)
  else (profileWith cfg files issue rrdJsonFile).or
    (issue.node.bind fun node => profileWith cfg files issue (dynJsonPath cfg node))

def resolve (rbuf : DataBuf) : Resolved :=
  match getIssueInfo rbuf.mdata with
  | none => .crash
  | some issue =>
    if rbuf.appendMode then
      match issue.node.bind fun node => files (dynJsonPath cfg node) with
      | none => .nothing
      | some dynamic => resolveAppend cfg files rbuf issue dynamic
    else
      (resolveProfile cfg files rbuf issue).elim .nothing fun json =>
        resolveReport cfg files issue (some json) rbuf none

end Resolve

/-! ## Sites -/

/-- An event on a device whose files stay as they are. A time is formatted as no
other is, on a clock that never goes back. -/
structure Event where
  cfg : Config
  files : Str → Option CJson
  strftime : Nat → Str
  strftime_injective : ∀ ⦃s t : Nat⦄, strftime s = strftime t → s = t
  rbuf : DataBuf

/-- The directory of a report. -/
def Event.dir (ev : Event) (node : Str) (now : Nat) : Str :=
  rrdOutputDir ++ node ++ str "-DebugReport-" ++ ev.strftime now

/-- What a turn depends on: the second, and the directories. -/
structure Site where
  now : Nat
  dirs : List Str

namespace Site

variable (ev : Event)

def has (site : Site) (path : Str) : Bool := site.dirs.contains path

theorem has_iff {site : Site} {path : Str} : site.has path ↔ path ∈ site.dirs := List.contains_iff_mem

/-- The device at a site: a directory is made if there is none of the name. -/
def device (site : Site) (env : Env) : Env :=
  { env with
    readAndParseJSON := fun _ jsonFile => ev.files jsonFile
    localtime := fun _ => ev.strftime site.now
    mkdir := fun _ path => !site.has path
    chdir := fun _ _ => true }

/-- The commands of a turn at a site. -/
def plan (site : Site) : Resolved → Plan IssueData
  | .crash => .halt
  | .nothing => .done
  | .report node commands => if site.has (ev.dir node site.now) then .done else commands

variable {ev} {site : Site} {node : Str} {commands : Plan IssueData}

theorem plan_of_mem (h : ev.dir node site.now ∈ site.dirs) : site.plan ev (.report node commands) = .done :=
  if_pos (has_iff.mpr h)

theorem plan_of_notMem (h : ev.dir node site.now ∉ site.dirs) : site.plan ev (.report node commands) = commands :=
  if_neg (mt has_iff.mp h)

end Site

/-- The seconds that a command takes at least: its timeout, which is positive. -/
def IssueData.seconds (d : IssueData) : Nat := max 1 d.timeout.toNat

/-- The command that an effect is the execution of. -/
def Effect.command? : Effect → Option IssueData
  | .executeCommands cmdinfo => some cmdinfo
  | _ => none

/-- From a turn to the next: the clock never goes back, and advances across each
command; no directory comes or goes but the one that the turn asked for, which is
there after a turn without commands. -/
structure Site.Next (site next : Site) (asked : Option Str) (commands : List IssueData) : Prop where
  clock : site.now + (commands.map IssueData.seconds).sum ≤ next.now
  others : ∀ path, asked ≠ some path → (path ∈ next.dirs ↔ path ∈ site.dirs)
  kept : commands = [] → ∀ path ∈ asked, path ∈ next.dirs

/-- The devices give the same answers to a call. -/
structure Env.AgreesAt (env env' : Env) (k : Nat) : Prop where
  readAndParseJSON : env'.readAndParseJSON k = env.readAndParseJSON k
  localtime : env'.localtime k = env.localtime k
  mkdir : env'.mkdir k = env.mkdir k
  chdir : env'.chdir k = env.chdir k
  executeCommands : env'.executeCommands k = env.executeCommands k
  rbusSet : env'.rbusSet k = env.rbusSet k

/-! ## Runs -/

namespace Event

variable (ev : Event) (env : Env) (sites : Nat → Site)

def tokens : List TokenAt := (acceptedTokens ev.rbuf.mdata).zipIdx

def resolved (n : Nat) : Resolved :=
  match ev.tokens[n]? with
  | none => .nothing
  | some token => resolve ev.cfg ev.files (cmdBuff ev.rbuf token.1)

/-- The directory that a turn asks for. -/
def asked (n : Nat) : Option Str :=
  match ev.resolved n with
  | .report node _ => some (ev.dir node (sites n).now)
  | _ => none

/-- The loop over the first tokens. -/
def before (n : Nat) : Outcome Nat (TokenAt × Effect) Unit :=
  (loop (fun _ token => tag (token, ·) (processIssueType ev.cfg env (cmdBuff ev.rbuf token.1))) () (ev.tokens.take n)).run 0

/-- The thread comes to a turn. -/
def Reached (n : Nat) : Prop := (ev.before env n).result = some ()

def turn (n : Nat) (token : TokenAt) : Outcome Nat Effect Unit :=
  (processIssueType ev.cfg env (cmdBuff ev.rbuf token.1)).run (ev.before env n).world

/-- The device answers each turn as at its site, from which it goes to the next. -/
structure Runs : Prop where
  answers : ∀ n token, ev.tokens[n]? = some token → ev.Reached env n → ∀ k, (ev.before env n).world ≤ k →
    k < (ev.turn env n token).world → env.AgreesAt ((sites n).device ev env) k
  next : ∀ n token, ev.tokens[n]? = some token → ev.Reached env n → (ev.turn env n token).result = some () →
    (sites n).Next (sites (n + 1)) (ev.asked sites n) ((ev.turn env n token).events.filterMap Effect.command?)

/-! ## Isolation -/

/-- The commands of a token as the only one of its event, from a site. -/
def aloneCommands (site : Site) (token : TokenAt) : List IssueData :=
  ((processIssueTypeEvent ev.cfg (site.device ev (.ofFiles ev.files))
    { ev.rbuf with mdata := token.1.1 ++ token.1.2 }).run 0).events.filterMap fun e => e.2.command?

/-- The commands of a token inside the event. -/
def insideCommands (token : TokenAt) : List IssueData :=
  ((processIssueTypeEvent ev.cfg env ev.rbuf).run 0).events.filterMap fun e =>
    if e.1 = token then e.2.command? else none

/-- A token that runs when it is alone also runs inside the list, with the same commands. -/
def Isolated (start : Site) : Prop :=
  ∀ token ∈ ev.tokens, ev.aloneCommands start token ≠ [] →
    ev.insideCommands env token = ev.aloneCommands start token

/-- The thread stops in the turn: before a directory is made, or with the
commands in a directory that neither the file system had nor an earlier token made. -/
def Halts (n : Nat) : Prop :=
  ev.resolved n = .crash ∨ ∃ node p, ev.resolved n = .report node p ∧ p.stops = true ∧
    ev.dir node (sites n).now ∉ (sites 0).dirs ∧
      ∀ m < n, ∀ q, ev.resolved m = .report node q → (sites m).now ≠ (sites n).now

/-- The directory of a token that would run alone is not there from the start when its
turn comes, and no token before stops the thread, or is rejected for the same node in
the same second. -/
def Undisturbed : Prop :=
  ∀ n node p, ev.resolved n = .report node p → p.emitted ≠ [] → ev.dir node (sites 0).now ∉ (sites 0).dirs →
    ev.dir node (sites n).now ∉ (sites 0).dirs ∧ ∀ m < n, ¬ ev.Halts sites m ∧
      ∀ q, ev.resolved m = .report node q → q.emitted = [] → (sites m).now ≠ (sites n).now

end Event

end RRD
