import RemoteDebugger.Framework.Ledger
import RemoteDebugger.Impl.Execute

/-!
# `rrdJsonParser.c` with its allocations

The functions that resolve an issue, and `executeCommands`, with each `malloc`,
`strdup`, `asprintf`, `cJSON_Print` and `cJSON_Parse`, each `free`, and each use of
what they point to. A pointer is its block with what the block holds; the structures
are handed on as they are written. A `cJSON` document is one block. Allocations succeed.
-/

namespace RRD.Alloc

open Framework Framework.Prog

/-- Where the daemon allocates: the variable that the block is first stored in. -/
inductive Site where
  /-- A message of the handlers, its `mdata` and its `jsonPath`. -/
  | sbuf | mdata | jsonPath
  /-- `issueTypeSplitter`: the array, and its strings. -/
  | args | arg
  /-- The buffer of a token, and its strings. -/
  | cmdBuff | cmdMdata | cmdJsonPath | cmdSuffix
  | pIssueNode | node | subNode
  /-- The strings of the node that `RRDProcessDeepSleepAwakeEvents` has on its stack. -/
  | stackNode | stackSubNode
  /-- The text of a file, and the document that is parsed from it. -/
  | fileContent | jsonParsed
  /-- The profile that `invokeSanityandCommandExec` reads again. -/
  | jsoncfg
  /-- The profile of the deep sleep package, its text, and what that is parsed to. -/
  | deepSleepProfile | deepSleepText | deepSleepIssues
  /-- What `cJSON_Print` returns. -/
  | categoryname | issuetype | sanitycmd | checkcmd | tmpCommand | checkval | mainnodename | rootNodeName
  /-- `issuestdata` and its strings, in `invokeSanityandCommandExec` and in `getIssueCommandInfo`. -/
  | issuestdata | command | rfcvalue
  | profiledata | profileCommand | profileRfcvalue
  | rfcbuf | issuetypearray | issuedCommand
  /-- `executeCommands`: the directory, the command with it, and the line of the report. -/
  | outdirpath | data | printbuffer
  | dynJSONPath | paramString | msgDataString | appendData
  /-- An entry of the cache and its strings. -/
  | cache | pkgData | issueTypeData
  /-- `rrdMsgPackDecoder.c`: the payload, what it is unpacked to, the document with
  its parts, the request, and the status of its execution. -/
  | decodeMsg | zone | premotedebuggerInfo | param | subdocName | commandList | execData | retStatus
  deriving DecidableEq, Repr

abbrev AllocProg (α : Type) := Prog (Nat × Nat) (MemEvent Site Effect) α

/-! ## Pointers -/

/-- A string on the heap. -/
structure CharPtr where
  block : Block Site
  text : Str
  deriving DecidableEq, Repr

/-- A `cJSON *`. -/
structure Document where
  block : Block Site
  json : CJson

/-- `data_buf`. -/
structure DataBufPtr where
  block : Block Site
  mtype : MsgType
  mdata : Option CharPtr
  jsonPath : Option CharPtr
  inDynamic : Bool
  appendMode : Bool
  dsEvent : DeepSleepEvent
  suffix : Option CharPtr
  deriving DecidableEq, Repr

/-- `issueNodeData`, which has no block on the stack. -/
structure IssueNodePtr where
  block : Option (Block Site)
  node : Option CharPtr
  subNode : Option CharPtr
  deriving DecidableEq, Repr

/-- `issueData`. -/
structure IssueDataPtr where
  block : Block Site
  rfcvalue : Option CharPtr
  command : Option CharPtr
  timeout : Int
  parts : List CommandPart

/-- The block of a string, to free it. -/
def blockOf (p : Option CharPtr) : Option (Block Site) := p.map CharPtr.block

/-- The blocks that are read where a string is. -/
def textOf (p : Option CharPtr) : List (Block Site) := (blockOf p).toList

def docBlocks (doc : Option Document) : List (Block Site) := (doc.map Document.block).toList

def docJson (doc : Option Document) : Option CJson := doc.map Document.json

def IssueNodePtr.value (issue : IssueNodePtr) : IssueNodeData :=
  ⟨issue.node.map CharPtr.text, issue.subNode.map CharPtr.text⟩

/-- The structure and its two strings. -/
def IssueNodePtr.blocks (issue : IssueNodePtr) : List (Block Site) :=
  issue.block.toList ++ textOf issue.node ++ textOf issue.subNode

def DataBufPtr.blocks (buff : DataBufPtr) : List (Block Site) :=
  buff.block :: textOf buff.mdata ++ textOf buff.jsonPath ++ textOf buff.suffix

def IssueDataPtr.blocks (data : IssueDataPtr) : List (Block Site) :=
  data.block :: textOf data.rfcvalue ++ textOf data.command

def IssueDataPtr.value (data : IssueDataPtr) : IssueData :=
  ⟨(data.rfcvalue.map CharPtr.text).getD [], (data.command.map CharPtr.text).getD [], data.timeout, data.parts⟩

/-- A buffer that is read as a value has its `mdata`. -/
def DataBufPtr.value (buff : DataBufPtr) : DataBuf :=
  ⟨buff.mtype, (buff.mdata.map CharPtr.text).getD [], buff.jsonPath.map CharPtr.text, buff.inDynamic, buff.appendMode,
    buff.dsEvent, (buff.suffix.map CharPtr.text).getD []⟩

def strdup {W E : Type} (site : Site) (text : Str) : Prog (W × Nat) (MemEvent Site E) CharPtr := do
  let block ← malloc site
  pure ⟨block, text⟩

/-- `strdup` of a string that may be NULL. -/
def strdupIf (site : Site) : Option Str → AllocProg (Option CharPtr)
  | none => pure none
  | some text => do
    let p ← strdup site text
    pure (some p)

/-- The device, which also answers how far a command gets that is not run. -/
structure Env extends RRD.Env where
  /-- Whether the directory of a command is made. -/
  mkdirCommand : Nat → IssueData → Bool

instance : Coe Env RRD.Env := ⟨Env.toEnv⟩

variable (cfg : Config) (env : Env)

/-! ## Lookups -/

def readAndParseJSON (site : Site) (jsonFile : Str) : AllocProg (Option Document) := do
  match ← lift (call (env.readAndParseJSON · jsonFile)) with
  | none => pure none
  | some json => do
    let fileContent ← malloc .fileContent
    use [fileContent]
    let block ← malloc site
    free (some fileContent)
    pure (some ⟨block, json⟩)

/-- `cJSON_Parse` of a text on the heap. -/
def parseText (site : Site) (text : CharPtr) : AllocProg (Option Document) := do
  use [text.block]
  match cfg.cJsonParse text.text with
  | none => pure none
  | some json => do
    let block ← malloc site
    pure (some ⟨block, json⟩)

/-- `getIssueInfo`, whose strings are made at these sites. -/
def getIssueInfo (nodeSite subNodeSite : Site) (issuestr : CharPtr) (issue : IssueNodePtr) : AllocProg IssueNodePtr := do
  use (issuestr.block :: issue.block.toList)
  match RRD.getIssueInfo issuestr.text with
  | none => stop
  | some info => do
    let node ← strdupIf nodeSite info.node
    let subNode ← strdupIf subNodeSite info.subNode
    pure { issue with node := node, subNode := subNode }

def findIssueInParsedJSON (issuestructNode : IssueNodePtr) (jsoncfg : Option Document) : AllocProg Bool := do
  use (issuestructNode.blocks ++ docBlocks jsoncfg)
  match issuestructNode.node with
  | none => pure false
  | some node =>
    match cJsonGetObjectItem (docJson jsoncfg) (some node.text) with
    | none => pure false
    | some category => do
      let categoryname ← strdup .categoryname (cfg.cJsonPrint category)
      use [categoryname.block]
      let result ←
        if categoryname.text = deepSleepStr then pure true
        else
          match issuestructNode.subNode with
          | none => pure true
          | some subNode =>
            match cJsonGetObjectItem (some category) (some subNode.text) with
            | none => pure false
            | some type => do
              let issuetype ← strdup .issuetype (cfg.cJsonPrint type)
              use [issuetype.block]
              free (some issuetype.block)
              pure true
      free (some categoryname.block)
      pure result

/-! ## Commands -/

/-- The loop over the items of an issue type: the last command, and the last timeout. -/
def readElems (site : Site) (read : Option CharPtr × Int) : List (Option Str × CJson) → AllocProg (Option CharPtr × Int)
  | [] => pure read
  | elem :: elems =>
    match elem.2 with
    | .number valueint _ => readElems site (read.1, valueint) elems
    | .string valuestring => do
      let tmpCommand ← strdup .tmpCommand (cfg.cJsonPrint (.string valuestring))
      free (blockOf read.1)
      use [tmpCommand.block]
      let command ← strdup site tmpCommand.text
      free (some tmpCommand.block)
      readElems site (some command, read.2) elems
    | _ => readElems site read elems

/-- The loop of `isCommandsValid`: whether a pattern is in the command. A printed
pattern is not freed. -/
def checkPatterns (issuecmd : CharPtr) (doc : Option Document) : List (Option Str × CJson) → AllocProg Bool
  | [] => pure false
  | subcmd :: sanitylist => do
    let checkcmd ← strdup .checkcmd (cfg.cJsonPrint subcmd.2)
    use (checkcmd.block :: issuecmd.block :: docBlocks doc)
    if trimPattern checkcmd.text <:+: issuecmd.text then pure true else checkPatterns issuecmd doc sanitylist

/-- Whether a command is accepted, and the command as it is then. `sanitylist` is
an item of `doc`. -/
def isCommandsValid (issuecmd : CharPtr) (sanitylist : Option CJson) (doc : Option Document) :
    AllocProg (Bool × CharPtr) := do
  let sanitycmd ← strdupIf .sanitycmd (sanitylist.map cfg.cJsonPrint)
  use (textOf sanitycmd ++ docBlocks doc)
  free (blockOf sanitycmd)
  if ← checkPatterns cfg issuecmd doc (cJsonItems sanitylist) then pure (false, issuecmd)
  else do
    use [issuecmd.block]
    if ch '&' ∈ issuecmd.text then pure (true, { issuecmd with text := updateBackgroundCmd issuecmd.text })
    else pure (true, issuecmd)

/-- The issue data of a command that is accepted. -/
def acceptedData (jsoncfg : Option CJson) (raw : Str) (block : Block Site) (rfcvalue command : CharPtr) (timeout : Int) :
    IssueDataPtr :=
  ⟨block, some rfcvalue, some command, if timeout = 0 then defaultTimeout else timeout, [⟨jsoncfg, raw, command.text⟩]⟩

/-- `replaceRRDLocation` of a command that has the macro: its new block. -/
def locateCommand (command : CharPtr) : AllocProg (Block Site) := do
  use [command.block]
  if (strstr defaultDir command.text).isSome then do
    let outdirpath ← malloc .outdirpath
    use [command.block, outdirpath]
    let data ← malloc .data
    use [command.block, outdirpath, data]
    free (some command.block)
    free (some outdirpath)
    use [data]
    pure data
  else pure command.block

/-- The command of `executeCommands` in the directory that is made, which is run if `ok`. -/
def runLocated (command : Option CharPtr) (ok : Bool) : AllocProg (Option (Block Site)) :=
  match command with
  | none => pure none
  | some command => do
    let command ← locateCommand command
    if ok then do
      let printbuffer ← malloc .printbuffer
      use [command, printbuffer]
      free (some printbuffer)
      use [command]
    pure (some command)

/-- `executeCommands`, which takes its data over. -/
def executeCommands (cmdinfo : IssueDataPtr) : AllocProg Bool := do
  use cmdinfo.blocks
  let ok ← lift (RRD.executeCommands env cmdinfo.value)
  let made ← peek fun k => ok || env.mkdirCommand k cmdinfo.value
  let command ← if made then runLocated cmdinfo.command ok else pure (blockOf cmdinfo.command)
  use [cmdinfo.block]
  free (blockOf cmdinfo.rfcvalue)
  free command
  free (some cmdinfo.block)
  pure ok

/-- `Check` of `Sanity`, printed and freed. -/
def printCheck (doc : Option Document) : AllocProg (Option CJson) := do
  let check := RRD.sanityCheck (docJson doc)
  let checkval ← strdupIf .checkval (check.map cfg.cJsonPrint)
  use (textOf checkval ++ docBlocks doc)
  free (blockOf checkval)
  pure check

/-- The check list of the profile, or of `RRD_JSON_FILE` where it has none, with
the document it is in. -/
def readSanityCheck (jsoncfg : Option Document) : AllocProg (Option CJson × Option Document) := do
  match ← printCheck cfg jsoncfg with
  | some check => pure (some check, jsoncfg)
  | none => do
    let jsoncfg ← readAndParseJSON env .jsoncfg rrdJsonFile
    let check ← printCheck cfg jsoncfg
    pure (check, jsoncfg)

def invokeSanityandCommandExec (issuestructNode : IssueNodePtr) (jsoncfg : Option Document) (buf : CharPtr)
    (deepSleepAwkEvnt : Bool) : AllocProg (Bool × IssueNodePtr) := do
  use (issuestructNode.blocks ++ docBlocks jsoncfg)
  let type := issueTypeItem (commandRoot (docJson jsoncfg) deepSleepAwkEvnt) issuestructNode.value
  free (blockOf issuestructNode.node)
  free (blockOf issuestructNode.subNode)
  let issuestructNode := { issuestructNode with node := none, subNode := none }
  let issuestdata ← malloc .issuestdata
  use (docBlocks jsoncfg)
  match ← readElems cfg .command (none, 0) (cJsonItems type) with
  | (none, _) => do
    free (some issuestdata)
    pure (false, issuestructNode)
  | (some command, timeout) => do
    let (check, doc) ← readSanityCheck cfg env jsoncfg
    let (valid, command') ← isCommandsValid cfg command (checkCommands check) doc
    if valid then do
      use [buf.block]
      let rfcvalue ← strdup .rfcvalue buf.text
      let ok ← executeCommands env (acceptedData (docJson jsoncfg) command.text issuestdata rfcvalue command' timeout)
      pure (ok, issuestructNode)
    else do
      free (some command'.block)
      free (some issuestdata)
      pure (false, issuestructNode)

def getIssueCommandInfo (issuestructNode : IssueNodePtr) (jsoncfg : Option Document) (buf : CharPtr) :
    AllocProg (Option IssueDataPtr) := do
  use (issuestructNode.blocks ++ docBlocks jsoncfg)
  let issuestdata ← malloc .profiledata
  match ← readElems cfg .profileCommand (none, 0) (cJsonItems (issueTypeItem (docJson jsoncfg) issuestructNode.value)) with
  | (none, _) => do
    free (some issuestdata)
    pure none
  | (some command, timeout) => do
    let check ← printCheck cfg jsoncfg
    let (valid, command') ← isCommandsValid cfg command (checkCommands check) jsoncfg
    if valid then do
      use [buf.block]
      let rfcvalue ← strdup .profileRfcvalue buf.text
      pure (some (acceptedData (docJson jsoncfg) command.text issuestdata rfcvalue command' timeout))
    else do
      free (some command'.block)
      free (some issuestdata)
      pure none

/-! ## Execution -/

/-- A turn of the loop of `processAllDebugCommand`. -/
def debugCommandTurn (jsoncfg : Option Document) (rfcbuf : CharPtr) (acc : Bool × IssueNodePtr)
    (issue : (Option Str × CJson) × Nat) : AllocProg (Bool × IssueNodePtr) :=
  match issue.1.1 with
  | none => stop
  | some string => do
    let issuetypearray ← strdup .issuetypearray (rfcbuf.text ++ rfcDelim ++ string)
    use (issuetypearray.block :: rfcbuf.block :: docBlocks jsoncfg)
    let node ← if issue.2 ≠ 0 then strdupIf .node (some rfcbuf.text) else pure acc.2.node
    let subNode ← strdup .subNode string
    let acc ← invokeSanityandCommandExec cfg env { acc.2 with node := node, subNode := some subNode } jsoncfg
      issuetypearray false
    free (some issuetypearray.block)
    pure acc

def processAllDebugCommand (jsoncfg : Option Document) (issuestructNode : IssueNodePtr) (rfcbuf : CharPtr) :
    AllocProg (Bool × IssueNodePtr) := do
  use (issuestructNode.blocks ++ docBlocks jsoncfg)
  match cJsonGetObjectItem (docJson jsoncfg) issuestructNode.value.node with
  | none => pure (false, issuestructNode)
  | some mainnode => do
    let mainnodename ← strdup .mainnodename (cfg.cJsonPrint mainnode)
    if cJsonItems (some mainnode) = [] then pure (false, issuestructNode)
    else do
      use [mainnodename.block]
      free (some mainnodename.block)
      loop (debugCommandTurn cfg env jsoncfg rfcbuf) (false, issuestructNode) (cJsonItems (some mainnode)).zipIdx

/-- A turn of the inner loop of `processAllDeepSleepAwkMetricsCommands`. -/
def metricsCommandTurn (jsoncfg : Option Document) (category : Option Str) (acc : Bool × IssueNodePtr)
    (issueTypeNode : Option Str × CJson) : AllocProg (Bool × IssueNodePtr) :=
  match category, issueTypeNode.1 with
  | some category, some type => do
    let issuedCommand ← strdup .issuedCommand (category.take type.length ++ rfcDelim ++ type.take category.length)
    use (issuedCommand.block :: docBlocks jsoncfg)
    let node ← strdup .node category
    let subNode ← strdup .subNode type
    let acc ← invokeSanityandCommandExec cfg env { acc.2 with node := some node, subNode := some subNode } jsoncfg
      issuedCommand true
    free (some issuedCommand.block)
    pure acc
  | _, _ => stop

def processAllDeepSleepAwkMetricsCommands (jsoncfg : Option Document) (issuestructNode : IssueNodePtr) :
    AllocProg (Bool × IssueNodePtr) := do
  use (issuestructNode.blocks ++ docBlocks jsoncfg)
  let rootNode := cJsonGetObjectItem (docJson jsoncfg) issuestructNode.value.node
  let rootNodeName ← strdupIf .rootNodeName (rootNode.map cfg.cJsonPrint)
  use (textOf rootNodeName)
  free (blockOf issuestructNode.node)
  loop (fun acc issueCategoryNode =>
      loop (metricsCommandTurn cfg env jsoncfg issueCategoryNode.1) acc (cJsonItems (some issueCategoryNode.2)))
    (false, { issuestructNode with node := none }) (cJsonItems rootNode)

def runIssueCommands (issuestructNode : IssueNodePtr) (jsoncfg : Option Document) (buff : DataBufPtr) (rfcbuf : CharPtr)
    (isDeepSleepAwakeEventValid : Bool) (appendprofiledata : Option IssueDataPtr) : AllocProg (Bool × IssueNodePtr) := do
  use (buff.block :: issuestructNode.blocks)
  if issuestructNode.subNode ≠ none then
    if buff.appendMode then
      match appendprofiledata with
      | none => stop
      | some cmdinfo => do
        let execstatus ← executeCommands env cmdinfo
        free (blockOf issuestructNode.node)
        free (blockOf issuestructNode.subNode)
        pure (execstatus, { issuestructNode with node := none, subNode := none })
    else invokeSanityandCommandExec cfg env issuestructNode jsoncfg rfcbuf false
  else if isDeepSleepAwakeEventValid then processAllDeepSleepAwkMetricsCommands cfg env jsoncfg issuestructNode
  else processAllDebugCommand cfg env jsoncfg issuestructNode rfcbuf

/-- The upload of `checkIssueNodeInfo`. -/
def uploadReport (outdir : Str) (buff : DataBufPtr) (mdata : CharPtr) : AllocProg Unit := do
  use (buff.block :: mdata.block :: textOf buff.suffix)
  let tarName := mdata.text ++ (buff.suffix.map CharPtr.text).getD []
  if 512 ≤ tarName.length then pure () else lift (emit (.uploadDebugoutput outdir tarName))

/-- The strings of a buffer, freed and set to NULL. -/
def freeStrings (buff : DataBufPtr) : AllocProg DataBufPtr := do
  free (blockOf buff.mdata)
  free (blockOf buff.jsonPath)
  free (blockOf buff.suffix)
  pure { buff with mdata := none, jsonPath := none, suffix := none }

/-- The directory of the report, and the commands in it, where they can be made. -/
def runInDirectory (outdir : Str) (issuestructNode : IssueNodePtr) (jsoncfg : Option Document) (buff : DataBufPtr)
    (mdata rfcbuf : CharPtr) (isDeepSleepAwakeEventValid : Bool) (appendprofiledata : Option IssueDataPtr) :
    AllocProg IssueNodePtr := do
  if ← lift (makeOutdir env outdir) then
    if ← lift (call (env.chdir · outdir)) then do
      let (execstatus, issuestructNode) ← runIssueCommands cfg env issuestructNode jsoncfg buff rfcbuf
        isDeepSleepAwakeEventValid appendprofiledata
      if execstatus then uploadReport outdir buff mdata
      pure issuestructNode
    else pure issuestructNode
  else pure issuestructNode

def checkIssueNodeInfo (issuestructNode : IssueNodePtr) (jsoncfg : Option Document) (buff : DataBufPtr)
    (isDeepSleepAwakeEventValid : Bool) (appendprofiledata : Option IssueDataPtr) :
    AllocProg (IssueNodePtr × DataBufPtr) := do
  use (buff.block :: textOf buff.mdata)
  match buff.mdata, issuestructNode.node with
  | some mdata, some node => do
    let rfcbuf ← strdup .rfcbuf mdata.text
    let ltime ← lift (call env.localtime)
    use issuestructNode.blocks
    let outdir := rrdOutputDir ++ node.text ++ str "-DebugReport-" ++ ltime
    let isDeepSleepAwakeEventValid :=
      isDeepSleepAwakeEventValid || node.text = deepSleepStr || node.text = str "deepsleep"
    let issuestructNode ← runInDirectory cfg env outdir issuestructNode jsoncfg buff mdata rfcbuf
      isDeepSleepAwakeEventValid appendprofiledata
    free (some rfcbuf.block)
    let buff ← freeStrings buff
    pure (issuestructNode, buff)
  | _, _ => stop

end RRD.Alloc
