import RemoteDebugger.Framework.Prog
import RemoteDebugger.Impl.Cache
import RemoteDebugger.Impl.Sanity
import RemoteDebugger.Impl.Token

/-!
# `rrdJsonParser.c`: from a profile to commands and an upload

Programs over the calls of the device: `Env` answers the calls by their
number, so two reads of one file may differ. Their effects are `Effect`. A
program stops where the code uses a NULL pointer.
-/

namespace RRD

open Framework Framework.Prog

/-! ## The device -/

/-- A part of a command: the profile it was read from, its text there, and its
text in the command. -/
structure CommandPart where
  profile : Option CJson
  raw : Str
  text : Str

/-- Change both texts. -/
def CommandPart.edit (f : Str → Str) (part : CommandPart) : CommandPart :=
  { part with raw := f part.raw, text := f part.text }

/-- `issueData`. The ghost field `parts` says where the command comes from. -/
structure IssueData where
  rfcvalue : Str
  command : Str
  timeout : Int
  parts : List CommandPart

inductive Effect where
  | mkdir (path : Str)
  | executeCommands (cmdinfo : IssueData)
  | uploadDebugoutput (outdir issuename : Str)
  /-- `rbus_set` of `RDM_MGR_PKG_INST`: an InstallPackage request. -/
  | rbusSet (paramString : Str)
  | appendItem (pkgData issueTypeData : Str)
  | decodeWebCfgData (pString : Str)

/-- The answers of the device. -/
structure Env where
  readAndParseJSON : Nat → Str → Option CJson
  localtime : Nat → Str
  mkdir : Nat → Str → Bool
  chdir : Nat → Str → Bool
  executeCommands : Nat → IssueData → Bool
  rbusSet : Nat → Str → Bool

/-- A device with these files, on which every other call works. -/
def Env.ofFiles (files : Str → Option CJson) : Env where
  readAndParseJSON _ jsonFile := files jsonFile
  localtime _ := str "2025-01-01-00-00-00"
  mkdir _ _ := true
  chdir _ _ := true
  executeCommands _ _ := true
  rbusSet _ _ := true

/-- A profile with a command for the issue `Network.Ping`, and the items `rest`. -/
def pingProfile (command : Str) (rest : List (Str × CJson)) : CJson :=
  .object ((str "Network", .object [(str "Ping", .object [(str "Commands", .string command),
    (str "Timeout", .number 10 (str "10"))])]) :: rest)

/-- The check against `rm -rf`. -/
def pingSanity : List (Str × CJson) :=
  [(str "Sanity", .object [(str "Check", .object [(str "Commands", .array [.string (str "rm -rf")])])])]

variable (cfg : Config) (env : Env)

def executeCommands (cmdinfo : IssueData) : Prog Nat Effect Bool := do
  emit (.executeCommands cmdinfo)
  call (env.executeCommands · cmdinfo)

/-! ## Lookups -/

def findIssueInParsedJSON (issuestructNode : IssueNodeData) (jsoncfg : Option CJson) : Bool :=
  match issuestructNode.node with
  | none => false
  | some node =>
    match cJsonGetObjectItem jsoncfg (some node) with
    | none => false
    | some category =>
      if cfg.cJsonPrint category = deepSleepStr then true
      else if issuestructNode.subNode = none then true
      else (cJsonGetObjectItem (some category) issuestructNode.subNode).isSome

/-- `Sanity`, `Check` of a profile. -/
def sanityCheck (jsoncfg : Option CJson) : Option CJson :=
  cJsonGetObjectItem (cJsonGetObjectItem jsoncfg (some (str "Sanity"))) (some (str "Check"))

/-- `Commands` of `check`: the list `isCommandsValid` takes. -/
def checkCommands (check : Option CJson) : Option CJson := cJsonGetObjectItem check (some (str "Commands"))

/-- A command and a timeout after an item of an issue type. -/
def readElem (read : Option Str × Int) (elem : CJson) : Option Str × Int :=
  match elem with
  | .number valueint _ => (read.1, valueint)
  | .string valuestring => (some (cfg.cJsonPrint (.string valuestring)), read.2)
  | _ => read

/-- The loop over the items of an issue type: the last command, printed, and
the last timeout. -/
def readCommand (type : Option CJson) : Option Str × Int :=
  (cJsonItems type).foldl (fun read elem => readElem cfg read elem.2) (none, 0)

/-- `DEFAULT_TIMEOUT`. -/
def defaultTimeout : Int := 90

/-- The issue data of a command `raw` that is accepted as `command`. -/
def acceptedData (jsoncfg : Option CJson) (buf raw command : Str) (timeout : Int) : IssueData :=
  ⟨buf, command, if timeout = 0 then defaultTimeout else timeout, [⟨jsoncfg, raw, command⟩]⟩

/-- The issue type that a node and a sub-node name under `root`. -/
def issueTypeItem (root : Option CJson) (issuestructNode : IssueNodeData) : Option CJson :=
  cJsonGetObjectItem (cJsonGetObjectItem root issuestructNode.node) issuestructNode.subNode

/-- The command of an issue type, checked against the list of its own profile only. -/
def getIssueCommandInfo (issuestructNode : IssueNodeData) (jsoncfg : Option CJson) (buf : Str) : Option IssueData :=
  match readCommand cfg (issueTypeItem jsoncfg issuestructNode) with
  | (none, _) => none
  | (some raw, timeout) =>
    let cmdlist := checkCommands (sanityCheck jsoncfg)
    (isCommandsValid cfg raw cmdlist).map fun command => acceptedData jsoncfg buf raw command timeout

/-! ## Execution -/

/-- Where `invokeSanityandCommandExec` looks an issue up. -/
def commandRoot (jsoncfg : Option CJson) (deepSleepAwkEvnt : Bool) : Option CJson :=
  if deepSleepAwkEvnt then cJsonGetObjectItem jsoncfg (some deepSleepStr) else jsoncfg

/-- `sanityCheck`, from `RRD_JSON_FILE` where the profile has none. -/
def readSanityCheck (jsoncfg : Option CJson) : Prog Nat Effect (Option CJson) :=
  match sanityCheck jsoncfg with
  | some check => pure (some check)
  | none => do
    let jsoncfg ← call (env.readAndParseJSON · rrdJsonFile)
    pure (sanityCheck jsoncfg)

/-- Run a command that `check` has nothing against. -/
def executeIfValid (jsoncfg : Option CJson) (buf raw : Str) (timeout : Int) (check : Option CJson) :
    Prog Nat Effect Bool :=
  match isCommandsValid cfg raw (checkCommands check) with
  | none => pure false
  | some command => executeCommands env (acceptedData jsoncfg buf raw command timeout)

def invokeSanityandCommandExec (issuestructNode : IssueNodeData) (jsoncfg : Option CJson) (buf : Str)
    (deepSleepAwkEvnt : Bool) : Prog Nat Effect Bool :=
  match readCommand cfg (issueTypeItem (commandRoot jsoncfg deepSleepAwkEvnt) issuestructNode) with
  | (none, _) => pure false
  | (some raw, timeout) => do
    let check ← readSanityCheck env jsoncfg
    executeIfValid cfg env jsoncfg buf raw timeout check

/-- `RFC_DELIM`. -/
def rfcDelim : Str := str "."

/-- Every sub-node of the node in turn. An item without a name is one of an array. -/
def processAllDebugCommand (jsoncfg : Option CJson) (issuestructNode : IssueNodeData) (rfcbuf : Str) :
    Prog Nat Effect Bool :=
  loop (fun _ (issue, i) =>
    match issue.1 with
    | none => stop
    | some string =>
      invokeSanityandCommandExec cfg env ⟨if i ≠ 0 then some rfcbuf else issuestructNode.node, some string⟩
        jsoncfg (rfcbuf ++ rfcDelim ++ string) false)
    false (cJsonItems (cJsonGetObjectItem jsoncfg issuestructNode.node)).zipIdx

/-- Every type of every category under the node. The two lengths of the copies are swapped. -/
def processAllDeepSleepAwkMetricsCommands (jsoncfg : Option CJson) (issuestructNode : IssueNodeData) :
    Prog Nat Effect Bool :=
  loop (fun execstatus issueCategoryNode =>
    loop (fun _ issueTypeNode =>
      match issueCategoryNode.1, issueTypeNode.1 with
      | some category, some type =>
        let issuedCommand := category.take type.length ++ rfcDelim ++ type.take category.length
        invokeSanityandCommandExec cfg env ⟨some category, some type⟩ jsoncfg issuedCommand true
      | _, _ => stop)
      execstatus (cJsonItems (some issueCategoryNode.2)))
    false (cJsonItems (cJsonGetObjectItem jsoncfg issuestructNode.node))

def rrdOutputDir : Str := str "/tmp/rrd/"

/-- `mkdir` of the output directory. -/
def makeOutdir (outdir : Str) : Prog Nat Effect Bool := do
  emit (.mkdir outdir)
  call (env.mkdir · outdir)

/-- The commands that `checkIssueNodeInfo` runs in the output directory. -/
def runIssueCommands (issuestructNode : IssueNodeData) (jsoncfg : Option CJson) (buff : DataBuf)
    (isDeepSleepAwakeEventValid : Bool) (appendprofiledata : Option IssueData) : Prog Nat Effect Bool :=
  if issuestructNode.subNode ≠ none then
    if buff.appendMode then
      match appendprofiledata with
      | none => stop
      | some cmdinfo => executeCommands env cmdinfo
    else invokeSanityandCommandExec cfg env issuestructNode jsoncfg buff.mdata false
  else if isDeepSleepAwakeEventValid then processAllDeepSleepAwkMetricsCommands cfg env jsoncfg issuestructNode
  else processAllDebugCommand cfg env jsoncfg issuestructNode buff.mdata

/-- The upload of `checkIssueNodeInfo`, under a name that fits its buffer of 512 bytes. -/
def uploadReport (outdir : Str) (buff : DataBuf) : Prog Nat Effect Unit :=
  let tarName := buff.mdata ++ buff.suffix
  if 512 ≤ tarName.length then pure () else emit (.uploadDebugoutput outdir tarName)

def checkIssueNodeInfo (issuestructNode : IssueNodeData) (jsoncfg : Option CJson) (buff : DataBuf)
    (isDeepSleepAwakeEventValid : Bool) (appendprofiledata : Option IssueData) : Prog Nat Effect Unit :=
  match issuestructNode.node with
  | none => stop
  | some node => do
    let ltime ← call env.localtime
    let outdir := rrdOutputDir ++ node ++ str "-DebugReport-" ++ ltime
    let isDeepSleepAwakeEventValid := isDeepSleepAwakeEventValid || node = deepSleepStr || node = str "deepsleep"
    if ← makeOutdir env outdir then
      if ← call (env.chdir · outdir) then
        if ← runIssueCommands cfg env issuestructNode jsoncfg buff isDeepSleepAwakeEventValid appendprofiledata then
          uploadReport outdir buff

end RRD
