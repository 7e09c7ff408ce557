import RemoteDebugger.Impl.AllocProfile

/-!
# The allocations of an issue

From the profile to the upload, each function of `rrdJsonParser.c` with its
allocations does what the function without them does. What it owns it hands on,
frees, or leaves behind at one of the sites of `MayRemain`.
-/

namespace RRD.Alloc

open Framework Framework.Prog

/-! ## What is owned -/

def ofStr (p : Option CharPtr) : Multiset (Block Site) := ofPtr (blockOf p)

def ofDoc (doc : Option Document) : Multiset (Block Site) := docBlocks doc

def IssueNodePtr.owned (issue : IssueNodePtr) : Multiset (Block Site) := issue.blocks

def IssueDataPtr.owned (data : IssueDataPtr) : Multiset (Block Site) := data.blocks

@[simp] theorem ofStr_none : ofStr none = 0 := rfl

@[simp] theorem ofStr_some (p : CharPtr) : ofStr (some p) = {p.block} := rfl

@[simp] theorem ofDoc_none : ofDoc none = 0 := rfl

@[simp] theorem ofDoc_some (doc : Document) : ofDoc (some doc) = {doc.block} := rfl

theorem IssueNodePtr.owned_eq (issue : IssueNodePtr) :
    issue.owned = ofPtr issue.block + ofStr issue.node + ofStr issue.subNode := rfl

theorem IssueDataPtr.owned_eq (data : IssueDataPtr) :
    data.owned = {data.block} + ofStr data.rfcvalue + ofStr data.command := by
  rw [IssueDataPtr.owned, IssueDataPtr.blocks, add_assoc]
  rfl

@[simp] theorem mem_textOf {b : Block Site} {p : Option CharPtr} : b ∈ textOf p ↔ b ∈ ofStr p := Iff.rfl

theorem IssueNodePtr.mem_blocks {b : Block Site} {issue : IssueNodePtr} :
    b ∈ issue.blocks ↔ b ∈ issue.block ∨ b ∈ ofStr issue.node ∨ b ∈ ofStr issue.subNode := by
  simp [IssueNodePtr.blocks]

def ofData (data : Option IssueDataPtr) : Multiset (Block Site) := (data.map IssueDataPtr.owned).getD 0

/-- The blocks that a turn may leave behind: printed patterns and names, the path of a
package, the profile that is read again, data that is not executed, the entries of
the cache, and what is made of the deep sleep package and its node. -/
def MayRemain (b : Block Site) : Prop :=
  b.site ∈ [Site.checkcmd, .mainnodename, .rootNodeName, .dynJSONPath, .jsoncfg, .profiledata, .profileCommand,
    .profileRfcvalue, .cache, .pkgData, .issueTypeData, .deepSleepProfile, .deepSleepText, .deepSleepIssues, .stackNode,
    .stackSubNode]

variable {cfg : Config} {env : Env} {own : Multiset (Block Site)} {site : Site} {text : Str} {α β γ δ : Type}
  {out : γ → Multiset (Block Site)} {R : γ → δ → Prop}

/-! ## Strings and documents -/

theorem strdup_bind {W E : Type} {Left : Block Site → Prop} {Q : Prog W E δ}
    {f : CharPtr → Prog (W × Nat) (MemEvent Site E) γ}
    (h : ∀ p : CharPtr, p.text = text → p.block.site = site → Refines Left ({p.block} + own) (f p) Q out R) :
    Refines Left own (strdup site text >>= f) Q out R := by
  rw [strdup, bind_assoc]
  refine .malloc fun b hb => ?_
  exact h ⟨b, text⟩ rfl hb

theorem strdupIf_bind {Q : Prog Nat Effect δ} {f : Option CharPtr → AllocProg γ} {s : Option Str}
    (h : ∀ p : Option CharPtr, p.map CharPtr.text = s → (∀ b ∈ ofStr p, b.site = site) →
      Refines MayRemain (ofStr p + own) (f p) Q out R) :
    Refines MayRemain own (strdupIf site s >>= f) Q out R := by
  cases s with
  | none =>
    have hnone := h none rfl (by simp)
    rw [ofStr_none, zero_add] at hnone
    exact hnone
  | some text =>
    rw [strdupIf, bind_assoc]
    refine strdup_bind fun p htext hsite => ?_
    exact h (some p) (congrArg some htext) (by simp [hsite])

theorem readAndParseJSON_bind {jsonFile : Str} {f : Option Document → AllocProg γ} {g : Option CJson → Prog Nat Effect δ}
    (h : ∀ doc : Option Document, (∀ b ∈ ofDoc doc, b.site = site) →
      Refines MayRemain (ofDoc doc + own) (f doc) (g (docJson doc)) out R) :
    Refines MayRemain own (readAndParseJSON env site jsonFile >>= f) (call (env.readAndParseJSON · jsonFile) >>= g)
      out R := by
  rw [readAndParseJSON, bind_assoc]
  refine .lift_bind fun json => ?_
  cases json with
  | none =>
    have hnone := h none (by simp)
    rw [ofDoc_none, zero_add] at hnone
    exact hnone
  | some json =>
    simp only [bind_assoc]
    refine .malloc fun fileContent _ => .use (by simp) (.malloc fun b hb => ?_)
    refine .free ({b} + own) (by rw [ofPtr]; simp only [Option.toList_some, Multiset.coe_singleton]; abel) ?_
    exact h (some ⟨b, json⟩) (by simp [hb])

theorem parseText_bind {p : CharPtr} {Q : Prog Nat Effect δ} {f : Option Document → AllocProg γ} (hp : p.block ∈ own)
    (h : ∀ doc : Option Document, docJson doc = cfg.cJsonParse p.text → (∀ b ∈ ofDoc doc, b.site = site) →
      Refines MayRemain (ofDoc doc + own) (f doc) Q out R) :
    Refines MayRemain own (parseText cfg site p >>= f) Q out R := by
  rw [parseText, bind_assoc]
  refine .use (by simpa using hp) ?_
  cases hjson : cfg.cJsonParse p.text with
  | none =>
    have hnone := h none hjson.symm (by simp)
    rw [ofDoc_none, zero_add] at hnone
    exact hnone
  | some json =>
    simp only [bind_assoc]
    exact .malloc fun b hb => h (some ⟨b, json⟩) hjson.symm (by simp [hb])

theorem getIssueInfo_bind {nodeSite subNodeSite : Site} {issuestr : CharPtr} {issue : IssueNodePtr}
    {f : IssueNodePtr → AllocProg γ} {g : IssueNodeData → Prog Nat Effect δ} (hstr : issuestr.block ∈ own)
    (hissue : ∀ b ∈ issue.block, b ∈ own)
    (h : ∀ node subNode, (∀ b ∈ ofStr node, b.site = nodeSite) → (∀ b ∈ ofStr subNode, b.site = subNodeSite) →
      Refines MayRemain (ofStr node + ofStr subNode + own) (f ⟨issue.block, node, subNode⟩)
        (g (IssueNodePtr.mk issue.block node subNode).value) out R) :
    Refines MayRemain own (getIssueInfo nodeSite subNodeSite issuestr issue >>= f)
      (match RRD.getIssueInfo issuestr.text with
        | none => stop
        | some info => g info) out R := by
  rw [getIssueInfo, bind_assoc]
  refine .use ?_ ?_
  · simpa using ⟨hstr, hissue⟩
  cases RRD.getIssueInfo issuestr.text with
  | none => exact .stop
  | some info =>
    simp only [bind_assoc]
    refine strdupIf_bind fun node hnode hnodeSite => strdupIf_bind fun subNode hsubNode hsubNodeSite => ?_
    have hvalue : info = (IssueNodePtr.mk issue.block node subNode).value := by
      rw [IssueNodePtr.value, hnode, hsubNode]
    have hown : ofStr subNode + (ofStr node + own) = ofStr node + ofStr subNode + own := by abel
    rw [hown, hvalue]
    exact h node subNode hnodeSite hsubNodeSite

theorem findIssueInParsedJSON_bind {issue : IssueNodePtr} {jsoncfg : Option Document} {Q : Prog Nat Effect δ}
    {f : Bool → AllocProg γ} (hissue : ∀ b ∈ issue.blocks, b ∈ own) (hdoc : ∀ b ∈ docBlocks jsoncfg, b ∈ own)
    (h : Refines MayRemain own (f (RRD.findIssueInParsedJSON cfg issue.value (docJson jsoncfg))) Q out R) :
    Refines MayRemain own (findIssueInParsedJSON cfg issue jsoncfg >>= f) Q out R := by
  rw [findIssueInParsedJSON, bind_assoc]
  refine .use (List.forall_mem_append.mpr ⟨hissue, hdoc⟩) ?_
  obtain ⟨block, node, subNode⟩ := issue
  cases node with
  | none => exact h
  | some node =>
    simp only [RRD.findIssueInParsedJSON, IssueNodePtr.value, Option.map_some] at h
    dsimp only
    cases hcategory : cJsonGetObjectItem (docJson jsoncfg) (some node.text) with
    | none =>
      rw [hcategory] at h
      exact h
    | some category =>
      rw [hcategory] at h
      dsimp only at h ⊢
      simp only [bind_assoc]
      refine strdup_bind fun categoryname htext _ => .use (by simp) ?_
      rw [htext]
      have hdone : ∀ r, Refines MayRemain own (f r) Q out R →
          Refines MayRemain ({categoryname.block} + own) (free (some categoryname.block) >>= fun _ => f r) Q out R :=
        fun r hr => .free own (by simp [ofPtr]) hr
      split at h
      · rename_i hdeep
        rw [if_pos hdeep]
        exact hdone true h
      · rename_i hdeep
        rw [if_neg hdeep]
        cases subNode with
        | none => exact hdone true h
        | some subNode =>
          simp only [Option.map_some, reduceCtorEq, if_false] at h
          dsimp only
          cases htype : cJsonGetObjectItem (some category) (some subNode.text) with
          | none =>
            rw [htype] at h
            exact hdone false h
          | some type =>
            rw [htype] at h
            dsimp only
            simp only [bind_assoc]
            refine strdup_bind fun issuetype _ _ => .use (by simp) ?_
            exact .free ({categoryname.block} + own) (by simp [ofPtr]) (hdone true h)

/-! ## Commands -/

theorem readElems_bind {Q : Prog Nat Effect δ} {f : Option CharPtr × Int → AllocProg γ} {read : Option CharPtr × Int}
    {elems : List (Option Str × CJson)} (hread : ∀ b ∈ ofStr read.1, b.site = site)
    (h : ∀ command timeout, (command.map CharPtr.text, timeout) =
        elems.foldl (fun read elem => readElem cfg read elem.2) (read.1.map CharPtr.text, read.2) →
      (∀ b ∈ ofStr command, b.site = site) → Refines MayRemain (ofStr command + own) (f (command, timeout)) Q out R) :
    Refines MayRemain (ofStr read.1 + own) (readElems cfg site read elems >>= f) Q out R := by
  induction elems generalizing read with
  | nil => exact h read.1 read.2 rfl hread
  | cons elem elems ih =>
    obtain ⟨name, item⟩ := elem
    cases item with
    | number valueint text => exact @ih (read.1, valueint) hread h
    | string valuestring =>
      simp only [readElems, bind_assoc]
      refine strdup_bind fun tmpCommand htext _ => .free ({tmpCommand.block} + own) ?_ (.use (by simp) ?_)
      · rw [ofStr]
        abel
      · refine strdup_bind fun command hcommand hsite => .free ({command.block} + own) ?_ ?_
        · simp only [ofPtr, Option.toList_some, Multiset.coe_singleton]
          abel
        · refine @ih (some command, read.2) (by simp [hsite]) ?_
          simp only [Option.map_some, hcommand, htext]
          exact h
    | null => exact ih hread h
    | bool => exact ih hread h
    | array => exact ih hread h
    | object => exact ih hread h

theorem readCommand_bind {Q : Prog Nat Effect δ} {f : Option CharPtr × Int → AllocProg γ} {type : Option CJson}
    (h : ∀ command timeout, (command.map CharPtr.text, timeout) = readCommand cfg type →
      (∀ b ∈ ofStr command, b.site = site) → Refines MayRemain (ofStr command + own) (f (command, timeout)) Q out R) :
    Refines MayRemain own (readElems cfg site (none, 0) (cJsonItems type) >>= f) Q out R := by
  have hread : Refines MayRemain (ofStr ((none, 0) : Option CharPtr × Int).1 + own)
    (readElems cfg site (none, 0) (cJsonItems type) >>= f) Q out R := readElems_bind (by simp) h
  rwa [ofStr_none, zero_add] at hread

theorem checkPatterns_bind {Q : Prog Nat Effect δ} {f : Bool → AllocProg γ} {issuecmd : CharPtr} {doc : Option Document}
    {sanitylist : List (Option Str × CJson)} (hcmd : issuecmd.block ∈ own) (hdoc : ∀ b ∈ docBlocks doc, b ∈ own)
    (h : ∀ found : Bool, (found ↔ ∃ c ∈ sanitylist, trimPattern (cfg.cJsonPrint c.2) <:+: issuecmd.text) →
      Refines MayRemain own (f found) Q out R) :
    Refines MayRemain own (checkPatterns cfg issuecmd doc sanitylist >>= f) Q out R := by
  induction sanitylist with
  | nil => exact h false (by simp)
  | cons subcmd sanitylist ih =>
    simp only [checkPatterns, bind_assoc]
    refine strdup_bind fun checkcmd htext hsite => .use ?_ ?_
    · simpa using ⟨.inr hcmd, fun b hb => .inr (hdoc b hb)⟩
    · -- the pattern stays behind
      refine .leave {checkcmd.block} own rfl (by simp [MayRemain, hsite]) ?_
      rw [htext]
      split
      · rename_i hfound
        exact h true (by simp [hfound])
      · rename_i hother
        exact ih fun found hfound => h found (by simp [hfound, hother])

theorem isCommandsValid_bind {Q : Prog Nat Effect δ} {f : Bool × CharPtr → AllocProg γ} {issuecmd : CharPtr}
    {sanitylist : Option CJson} {doc : Option Document} (hcmd : issuecmd.block ∈ own)
    (hdoc : ∀ b ∈ docBlocks doc, b ∈ own)
    (h : ∀ valid text, RRD.isCommandsValid cfg issuecmd.text sanitylist = (if valid then some text else none) →
      Refines MayRemain own (f (valid, ⟨issuecmd.block, text⟩)) Q out R) :
    Refines MayRemain own (isCommandsValid cfg issuecmd sanitylist doc >>= f) Q out R := by
  rw [isCommandsValid]
  simp only [bind_assoc]
  refine strdupIf_bind fun sanitycmd _ _ => .use ?_ (.free own rfl ?_)
  · refine List.forall_mem_append.mpr ⟨fun b hb => ?_, fun b hb => ?_⟩
    · exact Multiset.mem_add.mpr (.inl hb)
    · exact Multiset.mem_add.mpr (.inr (hdoc b hb))
  refine checkPatterns_bind hcmd hdoc fun found hfound => ?_
  have hpatterns : found ↔ ∃ p ∈ patterns cfg sanitylist, p <:+: issuecmd.text := by
    rw [hfound]
    simp [patterns]
  cases found with
  | true =>
    refine h false issuecmd.text ?_
    rw [RRD.isCommandsValid, if_pos (hpatterns.mp rfl)]
    rfl
  | false =>
    have hnone : ¬∃ p ∈ patterns cfg sanitylist, p <:+: issuecmd.text := fun hp => absurd (hpatterns.mpr hp) (by decide)
    simp only [Bool.false_eq_true, if_false, bind_assoc]
    refine .use (by simpa using hcmd) ?_
    split
    · rename_i hamp
      refine h true _ ?_
      rw [RRD.isCommandsValid, if_neg hnone, if_pos hamp]
      rfl
    · rename_i hamp
      refine h true issuecmd.text ?_
      rw [RRD.isCommandsValid, if_neg hnone, if_neg hamp]
      rfl

theorem printCheck_bind {Q : Prog Nat Effect δ} {f : Option CJson → AllocProg γ} {doc : Option Document}
    (hdoc : ∀ b ∈ docBlocks doc, b ∈ own)
    (h : Refines MayRemain own (f (RRD.sanityCheck (docJson doc))) Q out R) :
    Refines MayRemain own (printCheck cfg doc >>= f) Q out R := by
  rw [printCheck]
  simp only [bind_assoc]
  refine strdupIf_bind fun checkval _ _ => .use ?_ (.free own rfl h)
  refine List.forall_mem_append.mpr ⟨fun b hb => ?_, fun b hb => ?_⟩
  · exact Multiset.mem_add.mpr (.inl hb)
  · exact Multiset.mem_add.mpr (.inr (hdoc b hb))

/-- `again` is a profile that is read again, which stays behind. -/
theorem readSanityCheck_bind {g : Option CJson → Prog Nat Effect δ}
    {f : Option CJson × Option Document → AllocProg γ} {jsoncfg : Option Document}
    (hdoc : ∀ b ∈ docBlocks jsoncfg, b ∈ own)
    (h : ∀ check doc (again : Multiset (Block Site)), (∀ b ∈ again, MayRemain b) → (∀ b ∈ docBlocks doc, b ∈ again + own) →
      Refines MayRemain (again + own) (f (check, doc)) (g check) out R) :
    Refines MayRemain own (readSanityCheck cfg env jsoncfg >>= f) (RRD.readSanityCheck env (docJson jsoncfg) >>= g) out R := by
  rw [readSanityCheck, bind_assoc]
  refine printCheck_bind hdoc ?_
  rw [RRD.readSanityCheck]
  cases RRD.sanityCheck (docJson jsoncfg) with
  | some check =>
    have hown := h (some check) jsoncfg 0 (by simp) (by simpa using hdoc)
    rw [zero_add] at hown
    exact hown
  | none =>
    simp only [bind_assoc]
    refine readAndParseJSON_bind fun doc hsite => printCheck_bind (fun b hb => Multiset.mem_add.mpr (.inl hb)) ?_
    refine h _ doc (ofDoc doc) (fun b hb => ?_) fun b hb => Multiset.mem_add.mpr (.inl hb)
    simp [MayRemain, hsite b hb]

theorem locateCommand_bind {command : CharPtr} {Q : Prog Nat Effect δ} {f : Block Site → AllocProg γ}
    (h : ∀ b, Refines MayRemain ({b} + own) (f b) Q out R) :
    Refines MayRemain ({command.block} + own) (locateCommand command >>= f) Q out R := by
  rw [locateCommand, bind_assoc]
  refine .use (by simp) ?_
  split
  · simp only [bind_assoc]
    refine .malloc fun outdirpath _ => .use (by simp) (.malloc fun data _ => .use (by simp) ?_)
    refine .free ({outdirpath} + ({data} + own)) ?_ (.free ({data} + own) rfl (.use (by simp) (h data)))
    rw [ofPtr, Option.toList_some, Multiset.coe_singleton]
    abel
  · exact h command.block

/-- A command is still one block, wherever it is. -/
theorem runLocated_bind {command : Option CharPtr} {ok : Bool} {Q : Prog Nat Effect δ}
    {f : Option (Block Site) → AllocProg γ} (h : ∀ b : Option (Block Site), Refines MayRemain (ofPtr b + own) (f b) Q out R) :
    Refines MayRemain (ofStr command + own) (runLocated command ok >>= f) Q out R := by
  cases command with
  | none => exact h none
  | some command =>
    rw [runLocated, bind_assoc]
    refine locateCommand_bind fun b => ?_
    cases ok with
    | false => exact h (some b)
    | true =>
      simp only [if_true, bind_assoc]
      refine .malloc fun printbuffer _ => .use (by simp) (.free ({b} + own) rfl (.use (by simp) (h (some b))))

theorem executeCommands_bind {f : Bool → AllocProg γ} {g : Bool → Prog Nat Effect δ} {cmdinfo : IssueDataPtr}
    (h : ∀ ok, Refines MayRemain own (f ok) (g ok) out R) :
    Refines MayRemain (cmdinfo.owned + own) (executeCommands env cmdinfo >>= f)
      (RRD.executeCommands env cmdinfo.value >>= g) out R := by
  have hown : cmdinfo.owned + own = ofStr cmdinfo.command + ({cmdinfo.block} + (ofStr cmdinfo.rfcvalue + own)) := by
    rw [IssueDataPtr.owned_eq]
    abel
  rw [executeCommands]
  simp only [bind_assoc]
  refine .use (fun b hb => Multiset.mem_add.mpr (.inl hb)) (.lift_bind fun ok => .peek fun made => ?_)
  -- the strings and the structure are freed, wherever the command is
  have hend (command : Option (Block Site)) :
      Refines MayRemain (ofPtr command + ({cmdinfo.block} + (ofStr cmdinfo.rfcvalue + own))) (do
        use [cmdinfo.block]
        free (blockOf cmdinfo.rfcvalue)
        free command
        free (some cmdinfo.block)
        f ok) (g ok) out R := by
    refine .use (by simp) (.free (ofPtr command + ({cmdinfo.block} + own)) ?_
      (.free ({cmdinfo.block} + own) rfl (.free own rfl (h ok))))
    rw [ofStr]
    abel
  rw [hown]
  cases made with
  | false =>
    simp only [Bool.false_eq_true, if_false, bind_assoc, pure_bind]
    exact hend (blockOf cmdinfo.command)
  | true =>
    simp only [if_true, bind_assoc, pure_bind]
    exact runLocated_bind hend

theorem invokeSanityandCommandExec_bind {f : Bool × IssueNodePtr → AllocProg γ} {g : Bool → Prog Nat Effect δ}
    {issue : IssueNodePtr} {jsoncfg : Option Document} {buf : CharPtr} {deepSleepAwkEvnt : Bool}
    {own' : Multiset (Block Site)} (hown : own' = ofStr issue.node + ofStr issue.subNode + own)
    (hblock : ∀ b ∈ issue.block, b ∈ own) (hdoc : ∀ b ∈ docBlocks jsoncfg, b ∈ own) (hbuf : buf.block ∈ own)
    (h : ∀ ok, Refines MayRemain own (f (ok, ⟨issue.block, none, none⟩)) (g ok) out R) :
    Refines MayRemain own' (invokeSanityandCommandExec cfg env issue jsoncfg buf deepSleepAwkEvnt >>= f)
      (RRD.invokeSanityandCommandExec cfg env issue.value (docJson jsoncfg) buf.text deepSleepAwkEvnt >>= g) out R := by
  rw [hown, invokeSanityandCommandExec]
  simp only [bind_assoc]
  refine .use ?_ (.free (ofStr issue.subNode + own) (by rw [ofStr, add_assoc])
    (.free own rfl (.malloc fun issuestdata hsite => .use ?_ ?_)))
  · intro b hb
    simp only [List.mem_append, IssueNodePtr.mem_blocks, Multiset.mem_add] at hb ⊢
    grind
  · intro b hb
    exact Multiset.mem_add.mpr (.inr (hdoc b hb))
  refine readCommand_bind fun command timeout hread _ => ?_
  rw [RRD.invokeSanityandCommandExec, ← hread]
  cases command with
  | none =>
    simp only [Option.map_none, bind_assoc]
    exact .free own (by simp [ofPtr]) (h false)
  | some command =>
    simp only [Option.map_some, bind_assoc]
    refine readSanityCheck_bind ?_ fun check doc again hagain hdocs => ?_
    · intro b hb
      simp [hdoc b hb]
    refine isCommandsValid_bind (by simp) hdocs fun valid text hvalid => ?_
    rw [RRD.executeIfValid, hvalid]
    cases valid with
    | true =>
      simp only [if_true, bind_assoc]
      refine .use (by simp [hbuf]) (strdup_bind fun rfcvalue htext _ => ?_)
      refine .leave again ({rfcvalue.block} + ({command.block} + ({issuestdata} + own))) ?_ hagain ?_
      · rw [ofStr_some]
        abel
      have hown : {rfcvalue.block} + ({command.block} + ({issuestdata} + own)) =
          (acceptedData (docJson jsoncfg) command.text issuestdata rfcvalue ⟨command.block, text⟩ timeout).owned + own := by
        rw [IssueDataPtr.owned_eq, acceptedData, ofStr_some, ofStr_some]
        abel
      rw [hown]
      have hvalue : (acceptedData (docJson jsoncfg) command.text issuestdata rfcvalue ⟨command.block, text⟩ timeout).value =
          RRD.acceptedData (docJson jsoncfg) buf.text command.text text timeout := by
        rw [IssueDataPtr.value, acceptedData, RRD.acceptedData, Option.map_some, htext]
        rfl
      rw [← hvalue]
      exact executeCommands_bind h
    | false =>
      simp only [Bool.false_eq_true, if_false, bind_assoc]
      refine .leave again ({command.block} + ({issuestdata} + own)) ?_ hagain ?_
      · rw [ofStr_some]
      exact .free ({issuestdata} + own) (by simp [ofPtr]) (.free own (by simp [ofPtr]) (h false))

theorem getIssueCommandInfo_bind {Q : Prog Nat Effect δ} {f : Option IssueDataPtr → AllocProg γ} {issue : IssueNodePtr}
    {jsoncfg : Option Document} {buf : CharPtr} (hissue : ∀ b ∈ issue.blocks, b ∈ own)
    (hdoc : ∀ b ∈ docBlocks jsoncfg, b ∈ own) (hbuf : buf.block ∈ own)
    (h : ∀ data : Option IssueDataPtr,
      data.map IssueDataPtr.value = RRD.getIssueCommandInfo cfg issue.value (docJson jsoncfg) buf.text →
      (∀ b ∈ ofData data, MayRemain b) → (∀ d ∈ data, d.command.isSome) →
      Refines MayRemain (ofData data + own) (f data) Q out R) :
    Refines MayRemain own (getIssueCommandInfo cfg issue jsoncfg buf >>= f) Q out R := by
  have hnone : RRD.getIssueCommandInfo cfg issue.value (docJson jsoncfg) buf.text = none →
      Refines MayRemain own (f none) Q out R := fun hinfo => by
    have hown := h none hinfo.symm (by simp [ofData]) (by simp)
    rwa [ofData, Option.map_none, Option.getD_none, zero_add] at hown
  rw [getIssueCommandInfo]
  simp only [bind_assoc]
  refine .use (List.forall_mem_append.mpr ⟨hissue, hdoc⟩) (.malloc fun issuestdata hsite => ?_)
  refine readCommand_bind fun command timeout hread hcommand => ?_
  rw [RRD.getIssueCommandInfo, ← hread] at h hnone
  cases command with
  | none =>
    simp only [Option.map_none, bind_assoc] at hnone ⊢
    exact .free own (by simp [ofPtr]) (hnone trivial)
  | some command =>
    simp only [Option.map_some, bind_assoc] at h hnone ⊢
    refine printCheck_bind (fun b hb => ?_) (isCommandsValid_bind (by simp) (fun b hb => ?_) fun valid text hvalid => ?_)
    · simp [hdoc b hb]
    · simp [hdoc b hb]
    rw [hvalid] at h hnone
    cases valid with
    | true =>
      simp only [if_true, bind_assoc]
      refine .use (by simp [hbuf]) (strdup_bind fun rfcvalue htext hrfc => ?_)
      have hown : {rfcvalue.block} + (ofStr (some command) + ({issuestdata} + own)) =
          ofData (some (acceptedData (docJson jsoncfg) command.text issuestdata rfcvalue ⟨command.block, text⟩ timeout)) + own := by
        simp only [ofData, Option.map_some, Option.getD_some, IssueDataPtr.owned_eq, acceptedData, ofStr_some]
        abel
      rw [hown]
      refine h _ ?_ ?_ (by simp [acceptedData])
      · rw [Option.map_some, if_pos rfl, Option.map_some, IssueDataPtr.value, acceptedData, RRD.acceptedData,
          Option.map_some, htext]
        rfl
      · have hcommand : command.block.site = .profileCommand := hcommand _ (by simp)
        simp only [ofData, Option.map_some, Option.getD_some, IssueDataPtr.owned_eq, acceptedData, ofStr_some,
          Multiset.mem_add, Multiset.mem_singleton]
        rintro b ((rfl | rfl) | rfl) <;> simp [MayRemain, hsite, hrfc, hcommand]
    | false =>
      simp only [Bool.false_eq_true, if_false, bind_assoc]
      exact .free ({issuestdata} + own) (by simp [ofPtr]) (.free own (by simp [ofPtr]) (hnone rfl))

end RRD.Alloc
