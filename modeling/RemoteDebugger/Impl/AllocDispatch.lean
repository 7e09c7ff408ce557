import RemoteDebugger.Impl.AllocWebCfg

/-!
# A turn of the thread with its allocations

`rrdDynamic.c`, `rrdEventProcess.c` and `RRDEventThreadFunc`, with the decoder of
`rrdMsgPackDecoder.c`. A function that frees strings of its buffer without setting
the pointers to NULL also returns what is still allocated of it, as ghost data.
-/

namespace RRD.Alloc

open Framework Framework.Prog

variable (cfg : Config) (env : Env) (lib : WebCfgLib)

/-! ## Downloads -/

/-- `append_item` of two copies, which the cache keeps. -/
def appendItem (msgDataString issue : Str) : AllocProg Unit := do
  let pkgData ← strdup .pkgData msgDataString
  let issueTypeData ← strdup .issueTypeData issue
  let cache ← malloc .cache
  use [cache, pkgData.block, issueTypeData.block]
  lift (emit (.appendItem msgDataString issue))

/-- Cache a request whose bus call worked. Returns `appendData`. -/
def cacheRequest (msgDataString : CharPtr) (rbuf : DataBufPtr) : AllocProg (Option CharPtr) := do
  use [msgDataString.block, rbuf.block]
  match rbuf.mdata with
  | none => stop
  | some mdata => do
    use [mdata.block]
    if rbuf.appendMode then do
      let appendData ← strdup .appendData (mdata.text ++ appendSuffix)
      use [appendData.block]
      appendItem msgDataString.text appendData.text
      pure (some appendData)
    else do
      appendItem msgDataString.text mdata.text
      pure none

/-- The request for a package of `mSGLength` bytes. -/
def requestPackage (node : CharPtr) (mSGLength : Nat) (rbuf : DataBufPtr) (isDeepSleepAwakeEvent : Bool) : AllocProg Unit := do
  let pkg := requestedPkg cfg node.text isDeepSleepAwakeEvent
  use [node.block]
  let paramString ← strdup .paramString ((pkg ++ rdmPkgSuffix).take (mSGLength - 1))
  use [paramString.block]
  let msgDataString ← strdup .msgDataString pkg
  use [msgDataString.block, paramString.block]
  lift (emit (.rbusSet paramString.text))
  let set ← lift (call (env.rbusSet · paramString.text))
  let appendData ← if set then cacheRequest msgDataString rbuf else pure none
  free (some msgDataString.block)
  free (blockOf appendData)
  free (some paramString.block)

/-- The node and the sub-node, freed and set to NULL. -/
def freeNodes (issue : IssueNodePtr) : AllocProg IssueNodePtr := do
  free (blockOf issue.node)
  free (blockOf issue.subNode)
  pure { issue with node := none, subNode := none }

def rrdRdmManagerDownloadRequest (pissueStructNode : IssueNodePtr) (dynJSONPath : CharPtr) (rbuf : DataBufPtr)
    (isDeepSleepAwakeEvent : Bool) : AllocProg IssueNodePtr := do
  use (dynJSONPath.block :: pissueStructNode.blocks)
  let mSGLength := rrdGetProfileStringLength cfg pissueStructNode.value (cfg.iarm && isDeepSleepAwakeEvent)
  let _ ← match pissueStructNode.node, mSGLength with
    | some node, some mSGLength => requestPackage cfg env node mSGLength rbuf isDeepSleepAwakeEvent
    | _, _ => pure ()
  freeNodes pissueStructNode

/-! ## Profiles -/

/-- `processIssueTypeInDynamicProfile` where it does not find the issue. -/
def freeMessage (rbuf : DataBufPtr) : AllocProg DataBufPtr := do
  free (blockOf rbuf.mdata)
  free (blockOf rbuf.jsonPath)
  pure { rbuf with mdata := none, jsonPath := none }

def processIssueTypeInDynamicProfile (rbuf : DataBufPtr) (pIssueNode : IssueNodePtr) :
    AllocProg (IssueNodePtr × DataBufPtr) := do
  use [rbuf.block]
  match rbuf.jsonPath with
  | none => do
    free (blockOf rbuf.mdata)
    pure (pIssueNode, { rbuf with mdata := none })
  | some jsonPath => do
    use [jsonPath.block]
    match ← readAndParseJSON env .jsonParsed jsonPath.text with
    | none => do
      let rbuf ← freeMessage rbuf
      pure (pIssueNode, rbuf)
    | some jsonParsed => do
      if ← findIssueInParsedJSON cfg pIssueNode (some jsonParsed) then do
        let result ← checkIssueNodeInfo cfg env pIssueNode (some jsonParsed) rbuf false none
        free (some jsonParsed.block)
        pure result
      else do
        use [jsonPath.block]
        let rbuf ← freeMessage rbuf
        free (some jsonParsed.block)
        pure (pIssueNode, rbuf)

/-- The path is not freed where a package is requested. -/
def processIssueTypeInInstalledPackage (rbuf : DataBufPtr) (pIssueNode : IssueNodePtr) :
    AllocProg (IssueNodePtr × DataBufPtr) := do
  use pIssueNode.blocks
  match pIssueNode.node with
  | none => stop
  | some node => do
    let dynJSONPath ← strdup .dynJSONPath (dynJsonPath cfg node.text)
    use [dynJSONPath.block]
    match ← readAndParseJSON env .jsonParsed dynJSONPath.text with
    | none => do
      let pIssueNode ← rrdRdmManagerDownloadRequest cfg env pIssueNode dynJSONPath rbuf false
      pure (pIssueNode, rbuf)
    | some jsonParsed => do
      if ← findIssueInParsedJSON cfg pIssueNode (some jsonParsed) then do
        free (some dynJSONPath.block)
        let result ← checkIssueNodeInfo cfg env pIssueNode (some jsonParsed) rbuf false none
        free (some jsonParsed.block)
        pure result
      else do
        let pIssueNode ← rrdRdmManagerDownloadRequest cfg env pIssueNode dynJSONPath rbuf false
        free (some jsonParsed.block)
        pure (pIssueNode, rbuf)

def processIssueTypeInStaticProfile (rbuf : DataBufPtr) (pIssueNode : IssueNodePtr) :
    AllocProg (IssueNodePtr × DataBufPtr) := do
  match ← readAndParseJSON env .jsonParsed rrdJsonFile with
  | none => processIssueTypeInInstalledPackage cfg env rbuf pIssueNode
  | some jsonParsed => do
    if ← findIssueInParsedJSON cfg pIssueNode (some jsonParsed) then do
      let result ← checkIssueNodeInfo cfg env pIssueNode (some jsonParsed) rbuf false none
      free (some jsonParsed.block)
      pure result
    else do
      let result ← processIssueTypeInInstalledPackage cfg env rbuf pIssueNode
      free (some jsonParsed.block)
      pure result

/-- The command data of an issue that a profile has. The caller prints its fields. -/
def profileData (rbuf : DataBufPtr) (pIssueNode : IssueNodePtr) (jsonParsed : Document) : AllocProg (Option IssueDataPtr) := do
  use [rbuf.block]
  match rbuf.mdata with
  | none => stop
  | some mdata => do
    match ← getIssueCommandInfo cfg pIssueNode (some jsonParsed) mdata with
    | none => stop
    | some data => do
      use data.blocks
      free (some jsonParsed.block)
      pure (some data)

/-- The path is freed where the profile has the issue. -/
def processIssueTypeInDynamicProfileappend (rbuf : DataBufPtr) (pIssueNode : IssueNodePtr) :
    AllocProg (Option IssueDataPtr × IssueNodePtr) := do
  use pIssueNode.blocks
  match pIssueNode.node with
  | none => stop
  | some node => do
    let dynJSONPath ← strdup .dynJSONPath (dynJsonPath cfg node.text)
    use [dynJSONPath.block]
    match ← readAndParseJSON env .jsonParsed dynJSONPath.text with
    | none => do
      let pIssueNode ← rrdRdmManagerDownloadRequest cfg env pIssueNode dynJSONPath rbuf false
      pure (none, pIssueNode)
    | some jsonParsed => do
      if ← findIssueInParsedJSON cfg pIssueNode (some jsonParsed) then do
        use (dynJSONPath.block :: pIssueNode.blocks)
        free (some dynJSONPath.block)
        let data ← profileData cfg rbuf pIssueNode jsonParsed
        pure (data, pIssueNode)
      else do
        free (some jsonParsed.block)
        pure (none, pIssueNode)

def processIssueTypeInStaticProfileappend (rbuf : DataBufPtr) (pIssueNode : IssueNodePtr) :
    AllocProg (Option IssueDataPtr) := do
  match ← readAndParseJSON env .jsonParsed rrdJsonFile with
  | none => pure none
  | some jsonParsed => do
    if ← findIssueInParsedJSON cfg pIssueNode (some jsonParsed) then profileData cfg rbuf pIssueNode jsonParsed
    else do
      free (some jsonParsed.block)
      pure none

/-! ## Tokens -/

def freeData (data : IssueDataPtr) : AllocProg Unit := do
  use [data.block]
  free (blockOf data.rfcvalue)
  free (blockOf data.command)
  free (some data.block)

/-- The commands of both profiles, run one after the other. `realloc` moves the static command. -/
def runAppended (rbuf : DataBufPtr) (pIssueNode : IssueNodePtr) (staticprofiledata dynamicprofiledata : IssueDataPtr) :
    AllocProg (IssueNodePtr × DataBufPtr) := do
  use (staticprofiledata.blocks ++ dynamicprofiledata.blocks)
  match staticprofiledata.command, dynamicprofiledata.command with
  | some staticCommand, some dynamicCommand => do
    let appendcommandstr ← strdup .profileCommand
      (dropClosingQuote staticCommand.text ++ delimOpeningQuote dynamicCommand.text)
    use [staticCommand.block, dynamicCommand.block, appendcommandstr.block]
    free (some staticCommand.block)
    let staticprofiledata := { staticprofiledata with
      command := some appendcommandstr
      parts := staticprofiledata.parts.map (CommandPart.edit dropClosingQuote) ++
        dynamicprofiledata.parts.map (CommandPart.edit delimOpeningQuote) }
    let result ← checkIssueNodeInfo cfg env pIssueNode none rbuf false (some staticprofiledata)
    freeData dynamicprofiledata
    pure result
  | _, _ => do
    freeData dynamicprofiledata
    freeData staticprofiledata
    pure (pIssueNode, rbuf)

/-- `processIssueType` in append mode. -/
def processAppended (rbuf : DataBufPtr) (pIssueNode : IssueNodePtr) : AllocProg (IssueNodePtr × DataBufPtr) := do
  let (dynamicprofiledata, pIssueNode) ← processIssueTypeInDynamicProfileappend cfg env rbuf pIssueNode
  match dynamicprofiledata with
  | none => pure (pIssueNode, rbuf)
  | some dynamicprofiledata => do
    use dynamicprofiledata.blocks
    match ← processIssueTypeInStaticProfileappend cfg env rbuf pIssueNode with
    | none => do
      freeData dynamicprofiledata
      pure (pIssueNode, rbuf)
    | some staticprofiledata => runAppended cfg env rbuf pIssueNode staticprofiledata dynamicprofiledata

def processIssueType (rbuf : DataBufPtr) : AllocProg DataBufPtr := do
  use [rbuf.block]
  match rbuf.mdata with
  | none => pure rbuf
  | some mdata => do
    let pIssueNode ← malloc .pIssueNode
    let issue ← getIssueInfo .node .subNode mdata ⟨some pIssueNode, none, none⟩
    use issue.blocks
    let (issue, rbuf) ←
      if rbuf.appendMode then processAppended cfg env rbuf issue
      else if rbuf.inDynamic then processIssueTypeInDynamicProfile cfg env rbuf issue
      else processIssueTypeInStaticProfile cfg env rbuf issue
    use [pIssueNode]
    let _ ← freeNodes issue
    free (some pIssueNode)
    pure rbuf

def rrdDataBuffDeAlloc (sbuf : DataBufPtr) : AllocProg Unit := do
  use [sbuf.block]
  free (blockOf sbuf.mdata)
  free (blockOf sbuf.jsonPath)
  free (blockOf sbuf.suffix)
  free (some sbuf.block)

/-- The base and the suffix of a string of the list, unless it is skipped. -/
def acceptedToken (token : Str) : Option (Str × Str) :=
  let (base, suffix) := splitIssueType token
  let base := removeSpecialCharacterfromIssueTypeList base
  if base = [] then none else some (base, suffix)

/-- A turn of the loop of `processIssueTypeEvent`. -/
def processToken (rbuf : DataBufPtr) (arg : CharPtr) : AllocProg Unit := do
  let cmdBuff ← malloc .cmdBuff
  use [arg.block]
  match acceptedToken arg.text with
  | none => do
    free (some cmdBuff)
    free (some arg.block)
  | some (base, localSuffix) => do
    use (cmdBuff :: rbuf.block :: textOf rbuf.jsonPath)
    let jsonPath ← strdupIf .cmdJsonPath (if rbuf.inDynamic then rbuf.jsonPath.map CharPtr.text else none)
    let mdata ← strdup .cmdMdata base
    let suffix ← strdupIf .cmdSuffix (if localSuffix = [] then none else some localSuffix)
    let buff ← processIssueType cfg env ⟨cmdBuff, .eventMsg, some mdata, jsonPath, rbuf.inDynamic, rbuf.appendMode,
      .deepsleepInvalidDefault, suffix⟩
    rrdDataBuffDeAlloc buff
    free (some arg.block)

/-! ## Messages -/

/-- A program on the events of a message. -/
abbrev MessageProg (α : Type) := Prog (Nat × Nat) (MemEvent Site (TokenAt × Effect)) α

/-- Mark the effects of a program with their token. -/
def mark {α : Type} (token : TokenAt) (m : AllocProg α) : MessageProg α := tag (Sum.map id (token, ·)) m

/-- The array of `issueTypeSplitter`, and its strings. -/
def issueTypeSplitter (inputStr : CharPtr) : MessageProg (Block Site × List CharPtr) := do
  use [inputStr.block]
  let args ← malloc .args
  let tokens ← results (strdup .arg) (RRD.issueTypeSplitter inputStr.text (ch ','))
  pure (args, tokens)

/-- Every token in turn, the accepted ones numbered from `k` on. -/
def processTokens (rbuf : DataBufPtr) : Nat → List CharPtr → MessageProg Unit
  | _, [] => pure ()
  | k, arg :: args => do
    let token := acceptedToken arg.text
    mark (token.getD ([], []), k) (processToken cfg env rbuf arg)
    processTokens rbuf (if token.isSome then k + 1 else k) args

/-- The message is not freed. -/
def processIssueTypeEvent (rbuf : DataBufPtr) : MessageProg (List (Block Site)) := do
  use [rbuf.block]
  match rbuf.mdata with
  | none => stop
  | some mdata => do
    let (args, tokens) ← issueTypeSplitter mdata
    processTokens cfg env rbuf 0 tokens
    free (some args)
    pure rbuf.blocks

/-- The structure of the message is not freed. The request is handed over to the framework. -/
def processWebCfgTypeEvent (rbuf : DataBufPtr) : AllocProg (List (Block Site) × Option ExecDataPtr) := do
  use [rbuf.block]
  match rbuf.mdata with
  | none => pure (rbuf.blocks, none)
  | some mdata => do
    use [mdata.block]
    lift (emit (.decodeWebCfgData mdata.text))
    let (_, request) ← decodeWebCfgData lib mdata.text
    free (some mdata.block)
    pure ({ rbuf with mdata := none }.blocks, request)

/-- What it returns, and what is still allocated of the message. -/
def rrdCheckIssueInDynamicProfile (rbuf : DataBufPtr) (issueStructNode : IssueNodePtr) :
    AllocProg (Option CharPtr × DataBufPtr) := do
  use [rbuf.block]
  if rbuf.inDynamic then
    match rbuf.jsonPath with
    | none => do
      free (blockOf rbuf.mdata)
      pure (none, { rbuf with mdata := none })
    | some jsonPath => do
      use [jsonPath.block]
      match ← readAndParseJSON env .deepSleepProfile jsonPath.text with
      | none => do
        let rbuf ← freeMessage rbuf
        pure (none, rbuf)
      | some parsed => do
        use [parsed.block]
        let jsonParsed ← strdup .deepSleepText (cfg.cJsonPrint parsed.json)
        let issues ← parseText cfg .deepSleepIssues jsonParsed
        if ← findIssueInParsedJSON cfg issueStructNode issues then pure (some jsonParsed, rbuf)
        else do
          use [jsonPath.block]
          let rbuf ← freeMessage rbuf
          free (some jsonParsed.block)
          pure (none, rbuf)
  else pure (none, rbuf)

/-- The path of the deep sleep package. -/
def deepSleepPath (node : Str) : Str :=
  rrdMediaApps ++ rdmPkgPrefix ++ (if cfg.profileName ≠ [] then cfg.profileName ++ str "-" else []) ++ node ++ rrdJsonFile

def rrdProcessDeepSleepAwakeEvents (rbuf : DataBufPtr) : AllocProg (List (Block Site)) := do
  use [rbuf.block]
  match rbuf.mdata with
  | none => pure rbuf.blocks
  | some mdata => do
    let issueStructNode ← getIssueInfo .stackNode .stackSubNode mdata ⟨none, none, none⟩
    match rbuf.dsEvent with
    | .deepsleepRdmDownloadPkgInitiate => do
      use issueStructNode.blocks
      let dynJSONPath ← strdup .dynJSONPath (deepSleepPath cfg (issueStructNode.value.node.getD []))
      let _ ← rrdRdmManagerDownloadRequest cfg env issueStructNode dynJSONPath rbuf true
      free (some dynJSONPath.block)
      free (some mdata.block)
      pure { rbuf with mdata := none }.blocks
    | .deepsleepRdmPkgInstallComplete => do
      match ← rrdCheckIssueInDynamicProfile cfg env rbuf issueStructNode with
      | (none, remaining) => pure remaining.blocks
      | (some jsonParsed, _) => do
        let jsoncfg ← parseText cfg .deepSleepIssues jsonParsed
        let (_, rbuf) ← checkIssueNodeInfo cfg env issueStructNode jsoncfg rbuf true none
        pure rbuf.blocks
    | .deepsleepInvalidDefault => pure rbuf.blocks

/-- A turn of the loop of `RRDEventThreadFunc`: what is left of the message, and the
request that it hands over. -/
def rrdEventThreadFunc (rbuf : DataBufPtr) : MessageProg (List (Block Site) × Option ExecDataPtr) := do
  use (rbuf.block :: textOf rbuf.mdata)
  match rbuf.mtype with
  | .eventMsg => do
    let remaining ← processIssueTypeEvent cfg env rbuf
    pure (remaining, none)
  | .eventWebcfgMsg => mark (wholeMessage rbuf.value) (processWebCfgTypeEvent lib rbuf)
  | .deepsleepEventMsg =>
    if cfg.iarm then do
      let remaining ← mark (wholeMessage rbuf.value) (rrdProcessDeepSleepAwakeEvents cfg env rbuf)
      pure (remaining, none)
    else pure (rbuf.blocks, none)
  | .default => do
    free (blockOf rbuf.mdata)
    free (some rbuf.block)
    pure (textOf rbuf.jsonPath ++ textOf rbuf.suffix, none)

end RRD.Alloc
