import RemoteDebugger.Impl.Profile

/-!
# From a message to its commands or a download

`rrdDynamic.c`, `rrdEventProcess.c` and the dispatch of `RRDEventThreadFunc`.
-/

namespace RRD

open Framework Framework.Prog

variable (cfg : Config) (env : Env)

/-! ## Downloads -/

/-- `RRD_DYNAMIC_PROFILE_MAX_LENGTH`. -/
def rrdDynamicProfileMaxLength : Nat := 34

/-- The size of the buffer for the package name, or `none` for `-1`. -/
def rrdGetProfileStringLength (pissueStructNode : IssueNodeData) (isDeepSleepAwakeEvent : Bool) : Option Nat :=
  match pissueStructNode.node with
  | none => none
  | some node =>
    if rrdDynamicProfileMaxLength < node.length then none
    else if isDeepSleepAwakeEvent then
      let suffixlen := rdmPkgSuffix.length + deepSleepStr.length
      if cfg.profileName ≠ [] then some (rdmPkgPrefix.length + cfg.profileName.length + suffixlen + 1 + 1)
      else some (rdmPkgPrefix.length + suffixlen + 1)
    else some (rdmPkgPrefix.length + node.length + rdmPkgSuffix.length + 1)

/-- The package of a request: of the device's deep sleep profile, or of the node. -/
def requestedPkg (node : Str) (isDeepSleepAwakeEvent : Bool) : Str :=
  if cfg.iarm ∧ isDeepSleepAwakeEvent then
    if cfg.profileName ≠ [] then rdmPkgPrefix ++ cfg.profileName ++ str "-" ++ deepSleepStr
    else rdmPkgPrefix ++ deepSleepStr
  else rdmPkgPrefix ++ node

/-- The issue string that is cached with a request. -/
def requestedIssue (rbuf : DataBuf) : Str := if rbuf.appendMode then rbuf.mdata ++ appendSuffix else rbuf.mdata

/-- Set the InstallPackage parameter, and cache the request where that works.
`snprintf` cuts the parameter to the buffer. -/
def rrdRdmManagerDownloadRequest (pissueStructNode : IssueNodeData) (rbuf : DataBuf)
    (isDeepSleepAwakeEvent : Bool) : Prog Nat Effect Unit :=
  match pissueStructNode.node, rrdGetProfileStringLength cfg pissueStructNode (cfg.iarm && isDeepSleepAwakeEvent) with
  | some node, some mSGLength => do
    let msgDataString := requestedPkg cfg node isDeepSleepAwakeEvent
    let paramString := (msgDataString ++ rdmPkgSuffix).take (mSGLength - 1)
    emit (.rbusSet paramString)
    if ← call (env.rbusSet · paramString) then
      emit (.appendItem msgDataString (requestedIssue rbuf))
  | _, _ => pure ()

/-- The profile that a message names, printed, if it has the issue. -/
def rrdCheckIssueInDynamicProfile (rbuf : DataBuf) (issueStructNode : IssueNodeData) :
    Prog Nat Effect (Option Str) :=
  match rbuf.inDynamic, rbuf.jsonPath with
  | true, some jsonPath => do
    match ← call (env.readAndParseJSON · jsonPath) with
    | none => pure none
    | some parsed =>
      let jsonParsed := cfg.cJsonPrint parsed
      pure (if findIssueInParsedJSON cfg issueStructNode (cfg.cJsonParse jsonParsed) then some jsonParsed else none)
  | _, _ => pure none

def rrdProcessDeepSleepAwakeEvents (rbuf : DataBuf) : Prog Nat Effect Unit :=
  match getIssueInfo rbuf.mdata with
  | none => stop
  | some issueStructNode =>
    match rbuf.dsEvent with
    | .deepsleepRdmDownloadPkgInitiate => rrdRdmManagerDownloadRequest cfg env issueStructNode rbuf true
    | .deepsleepRdmPkgInstallComplete => do
      match ← rrdCheckIssueInDynamicProfile cfg env rbuf issueStructNode with
      | none => pure ()
      | some jsonParsed => checkIssueNodeInfo cfg env issueStructNode (cfg.cJsonParse jsonParsed) rbuf true none
    | .deepsleepInvalidDefault => pure ()

/-! ## Profiles -/

def rrdMediaApps : Str := str "/media/apps/"

/-- Where the package of a node is expected, whatever path its installation reported. -/
def dynJsonPath (node : Str) : Str :=
  (if cfg.iarm then rrdMediaApps else rrdTmpDir) ++ rdmPkgPrefix ++ node ++ rrdJsonFile

def processIssueTypeInDynamicProfile (rbuf : DataBuf) (pIssueNode : IssueNodeData) : Prog Nat Effect Unit :=
  match rbuf.jsonPath with
  | none => pure ()
  | some jsonPath => do
    match ← call (env.readAndParseJSON · jsonPath) with
    | none => pure ()
    | some jsonParsed =>
      if findIssueInParsedJSON cfg pIssueNode (some jsonParsed) then
        checkIssueNodeInfo cfg env pIssueNode (some jsonParsed) rbuf false none

def processIssueTypeInInstalledPackage (rbuf : DataBuf) (pIssueNode : IssueNodeData) : Prog Nat Effect Unit :=
  match pIssueNode.node with
  | none => stop
  | some node => do
    match ← call (env.readAndParseJSON · (dynJsonPath cfg node)) with
    | none => rrdRdmManagerDownloadRequest cfg env pIssueNode rbuf false
    | some jsonParsed =>
      if findIssueInParsedJSON cfg pIssueNode (some jsonParsed) then
        checkIssueNodeInfo cfg env pIssueNode (some jsonParsed) rbuf false none
      else rrdRdmManagerDownloadRequest cfg env pIssueNode rbuf false

def processIssueTypeInStaticProfile (rbuf : DataBuf) (pIssueNode : IssueNodeData) : Prog Nat Effect Unit := do
  match ← call (env.readAndParseJSON · rrdJsonFile) with
  | none => processIssueTypeInInstalledPackage cfg env rbuf pIssueNode
  | some jsonParsed =>
    if findIssueInParsedJSON cfg pIssueNode (some jsonParsed) then
      checkIssueNodeInfo cfg env pIssueNode (some jsonParsed) rbuf false none
    else processIssueTypeInInstalledPackage cfg env rbuf pIssueNode

/-- The command data of an issue that a profile has. The caller prints its fields. -/
def profileData (rbuf : DataBuf) (pIssueNode : IssueNodeData) (jsonParsed : CJson) :
    Prog Nat Effect (Option IssueData) :=
  if findIssueInParsedJSON cfg pIssueNode (some jsonParsed) then
    match getIssueCommandInfo cfg pIssueNode (some jsonParsed) rbuf.mdata with
    | none => stop
    | some data => pure (some data)
  else pure none

def processIssueTypeInDynamicProfileappend (rbuf : DataBuf) (pIssueNode : IssueNodeData) :
    Prog Nat Effect (Option IssueData) :=
  match pIssueNode.node with
  | none => stop
  | some node => do
    match ← call (env.readAndParseJSON · (dynJsonPath cfg node)) with
    | none => do
      rrdRdmManagerDownloadRequest cfg env pIssueNode rbuf false
      pure none
    | some jsonParsed => profileData cfg rbuf pIssueNode jsonParsed

def processIssueTypeInStaticProfileappend (rbuf : DataBuf) (pIssueNode : IssueNodeData) :
    Prog Nat Effect (Option IssueData) := do
  match ← call (env.readAndParseJSON · rrdJsonFile) with
  | none => pure none
  | some jsonParsed => profileData cfg rbuf pIssueNode jsonParsed

/-! ## Tokens -/

/-- A command without the quote at its end. -/
def dropClosingQuote (command : Str) : Str :=
  if command.getLast? = some (ch '"') then command.dropLast else command

/-- A command with `COMMAND_DELIM` for the quote at its start. -/
def delimOpeningQuote (command : Str) : Str :=
  if command.head? = some (ch '"') then ch ';' :: command.tail else command

/-- The static data, with the dynamic command appended to its command. -/
def appendCommands (staticprofiledata dynamicprofiledata : IssueData) : IssueData :=
  { staticprofiledata with
    command := dropClosingQuote staticprofiledata.command ++ delimOpeningQuote dynamicprofiledata.command
    parts := staticprofiledata.parts.map (CommandPart.edit dropClosingQuote) ++
      dynamicprofiledata.parts.map (CommandPart.edit delimOpeningQuote) }

def processIssueType (rbuf : DataBuf) : Prog Nat Effect Unit :=
  match getIssueInfo rbuf.mdata with
  | none => stop
  | some pIssueNode =>
    if rbuf.appendMode then do
      match ← processIssueTypeInDynamicProfileappend cfg env rbuf pIssueNode with
      | none => pure ()
      | some dynamicprofiledata =>
        match ← processIssueTypeInStaticProfileappend cfg env rbuf pIssueNode with
        | none => pure ()
        | some staticprofiledata =>
          checkIssueNodeInfo cfg env pIssueNode none rbuf false
            (some (appendCommands staticprofiledata dynamicprofiledata))
    else if rbuf.inDynamic then processIssueTypeInDynamicProfile cfg env rbuf pIssueNode
    else processIssueTypeInStaticProfile cfg env rbuf pIssueNode

/-- The buffer `cmdBuff` of a token, given by its base and its suffix. -/
def cmdBuff (rbuf : DataBuf) (token : Str × Str) : DataBuf :=
  { rrdDataBuffInit .eventMsg .deepsleepInvalidDefault token.1 with
    inDynamic := rbuf.inDynamic
    jsonPath := if rbuf.inDynamic then rbuf.jsonPath else none
    appendMode := rbuf.appendMode
    suffix := token.2 }

/-! ## Messages -/

/-- An accepted token of a message, and its place among them. -/
abbrev TokenAt := (Str × Str) × Nat

/-- The token that a message other than a list of issue types is taken for. -/
def wholeMessage (rbuf : DataBuf) : TokenAt := ((rbuf.mdata, []), 0)

/-- The loop over the accepted tokens, over what it does with the buffer of each.
Events are marked with their token. -/
def eachToken {E : Type} (process : DataBuf → Prog Nat E Unit) (rbuf : DataBuf) : Prog Nat (TokenAt × E) Unit :=
  loop (fun _ token => tag (token, ·) (process (cmdBuff rbuf token.1))) () (acceptedTokens rbuf.mdata).zipIdx

def processIssueTypeEvent (rbuf : DataBuf) : Prog Nat (TokenAt × Effect) Unit :=
  eachToken (processIssueType cfg env) rbuf

def processWebCfgTypeEvent (rbuf : DataBuf) : Prog Nat Effect Unit := emit (.decodeWebCfgData rbuf.mdata)

/-- A turn of the loop of `RRDEventThreadFunc`. -/
def rrdEventThreadFunc (rbuf : DataBuf) : Prog Nat (TokenAt × Effect) Unit :=
  match rbuf.mtype with
  | .eventMsg => processIssueTypeEvent cfg env rbuf
  | .eventWebcfgMsg => tag (wholeMessage rbuf, ·) (processWebCfgTypeEvent rbuf)
  | .deepsleepEventMsg =>
    if cfg.iarm then tag (wholeMessage rbuf, ·) (rrdProcessDeepSleepAwakeEvents cfg env rbuf) else pure ()
  | .default => pure ()

end RRD
