import RemoteDebugger.Framework.Assign
import RemoteDebugger.Impl.Walkers
import RemoteDebugger.Proof.Dispatch.Effects
import RemoteDebugger.Spec.Category

/-!
# The types of a category

Both walkers of a category attempt its types in turn (`attempt`): those of
`subNodeAttempts`, and of `deepSleepAttempts`. A type without a name stops them.

* `processAllDebugCommand_eq`, `processAllDeepSleepAwkMetricsCommands_eq`: a walker
  is the loop over its attempts;
* `attempts_run`: the loop executes the accepted commands of its types;
* `reportsExecuted_iff`: when a walker returns whether one was executed;
* `processAllDebugCommand_covers`: the first walker executes every type of a category.
-/

namespace RRD

open Framework Framework.Prog

variable {cfg : Config} {env : Env} {jsoncfg : Option CJson} {issue : IssueNodeData} {rfcbuf node : Str} {deep : Bool}

/-! ## Attempts -/

/-- The execution of the commands of an issue, under a label. -/
def attempt (cfg : Config) (env : Env) (jsoncfg : Option CJson) (deep : Bool) :
    Option (IssueNodeData × Str) → Prog Nat Effect Bool
  | none => stop
  | some (issue, label) => invokeSanityandCommandExec cfg env issue jsoncfg label deep

def subNodeAttempts (jsoncfg : Option CJson) (issue : IssueNodeData) (rfcbuf : Str) :
    List (Option (IssueNodeData × Str)) :=
  (cJsonItems (cJsonGetObjectItem jsoncfg issue.node)).zipIdx.map fun (item, i) => item.1.map fun string =>
    (⟨if i ≠ 0 then some rfcbuf else issue.node, some string⟩, rfcbuf ++ rfcDelim ++ string)

/-- The names of the categories and types under a node. -/
def namePairs (root : Option CJson) : List (Option Str × Option Str) :=
  (cJsonItems root).flatMap fun category => (cJsonItems (some category.2)).map fun type => (category.1, type.1)

def deepSleepAttempts (jsoncfg : Option CJson) (issue : IssueNodeData) : List (Option (IssueNodeData × Str)) :=
  (namePairs (cJsonGetObjectItem jsoncfg issue.node)).map fun (category, type) =>
    category.bind fun category => type.map fun type =>
      (⟨some category, some type⟩, category.take type.length ++ rfcDelim ++ type.take category.length)

theorem processAllDebugCommand_eq : processAllDebugCommand cfg env jsoncfg issue rfcbuf =
    loop (fun _ a => attempt cfg env jsoncfg false a) false (subNodeAttempts jsoncfg issue rfcbuf) := by
  rw [processAllDebugCommand, subNodeAttempts, loop_map]
  refine loop_congr (fun _ item _ => ?_) false
  obtain ⟨⟨_ | string, _⟩, i⟩ := item <;> rfl

theorem processAllDeepSleepAwkMetricsCommands_eq : processAllDeepSleepAwkMetricsCommands cfg env jsoncfg issue =
    loop (fun _ a => attempt cfg env jsoncfg true a) false (deepSleepAttempts jsoncfg issue) := by
  rw [processAllDeepSleepAwkMetricsCommands, deepSleepAttempts, loop_map, namePairs, loop_flatMap]
  refine loop_congr (fun status category _ => ?_) false
  rw [loop_map]
  refine loop_congr (fun _ type _ => ?_) status
  obtain ⟨_ | category, _⟩ := category
  · rfl
  · obtain ⟨_ | type, _⟩ := type <;> rfl

/-! ## What is executed -/

/-- A call executes the command of its type, and returns whether it did. -/
theorem invokeSanityandCommandExec_run (issue : IssueNodeData) (label : Str) (k : Nat) :
    (invokeSanityandCommandExec cfg env issue jsoncfg label deep).run k =
      ⟨some (env.executes (typeCommand cfg env jsoncfg (issueTypeItem (commandRoot jsoncfg deep) issue) label k)),
        commandEvents [typeCommand cfg env jsoncfg (issueTypeItem (commandRoot jsoncfg deep) issue) label k],
        afterType cfg env jsoncfg (issueTypeItem (commandRoot jsoncfg deep) issue) label k⟩ := by
  have hcheck : (readSanityCheck env jsoncfg).run k = ⟨some (checkAt env jsoncfg k), [], afterCheck jsoncfg k⟩ := by
    rw [readSanityCheck, checkAt, afterCheck]
    cases sanityCheck jsoncfg <;> rfl
  rw [invokeSanityandCommandExec, afterType, typeCommand]
  rcases readCommand cfg (issueTypeItem (commandRoot jsoncfg deep) issue) with ⟨_ | raw, timeout⟩
  · rfl
  · dsimp only
    rw [bind_run_of_some hcheck, executeIfValid]
    cases isCommandsValid cfg raw (checkCommands (checkAt env jsoncfg k)) <;> rfl

/-- The types that are attempted: their items in the profile, and their labels. -/
def attemptedTypes (jsoncfg : Option CJson) (deep : Bool) (attempts : List (Option (IssueNodeData × Str))) :
    List (Option CJson × Str) :=
  attempts.filterMap (Option.map fun a => (issueTypeItem (commandRoot jsoncfg deep) a.1, a.2))

theorem commandEvents_cons (command : Option (Nat × IssueData)) (commands : List (Option (Nat × IssueData))) :
    commandEvents (command :: commands) = commandEvents [command] ++ commandEvents commands := by
  cases command <;> rfl

/-- Attempts of types that all have a name return what the last one does. -/
theorem attempts_run (cfg : Config) (env : Env) (jsoncfg : Option CJson) (deep : Bool)
    {attempts : List (Option (IssueNodeData × Str))} (h : ∀ a ∈ attempts, a.isSome) (b : Bool) (k : Nat) :
    (loop (fun _ a => attempt cfg env jsoncfg deep a) b attempts).run k =
      ⟨some (((typeCommands cfg env jsoncfg (attemptedTypes jsoncfg deep attempts) k).map env.executes).getLastD b),
        commandEvents (typeCommands cfg env jsoncfg (attemptedTypes jsoncfg deep attempts) k),
        afterTypes cfg env jsoncfg (attemptedTypes jsoncfg deep attempts) k⟩ := by
  induction attempts generalizing b k with
  | nil => rfl
  | cons a attempts ih =>
    obtain ⟨ha, hattempts⟩ := List.forall_mem_cons.mp h
    obtain ⟨⟨issue, label⟩, rfl⟩ := Option.isSome_iff_exists.mp ha
    show (invokeSanityandCommandExec cfg env issue jsoncfg label deep >>= fun b => loop _ b attempts).run k = _
    rw [bind_run_of_some (invokeSanityandCommandExec_run issue label k), ih hattempts, ← commandEvents_cons]
    show _ = (⟨some (List.getLastD (_ :: _) b), _, _⟩ : Outcome Nat Effect Bool)
    rw [List.getLastD_cons]
    rfl

theorem getLastD_iff (bs : List Bool) :
    (bs.getLastD false = true ↔ true ∈ bs) ↔ (true ∈ bs → bs.getLast? = some true) := by
  rw [List.getLastD_eq_getLast?]
  constructor
  · intro h hmem
    have hlast := h.mpr hmem
    cases hbs : bs.getLast? with
    | none => simp [hbs] at hlast
    | some b => simpa [hbs] using hlast
  · intro h
    refine ⟨fun hlast => ?_, fun hmem => by rw [h hmem]; rfl⟩
    cases hbs : bs.getLast? with
    | none => simp [hbs] at hlast
    | some b =>
      obtain rfl : b = true := by simpa [hbs] using hlast
      exact List.mem_of_getLast? hbs

/-- If a type is executed, the last one is. -/
def LastDecides (env : Env) (commands : List (Option (Nat × IssueData))) : Prop :=
  (∃ command ∈ commands, env.executes command) → ∃ command, commands.getLast? = some command ∧ env.executes command

theorem lastDecides_iff (commands : List (Option (Nat × IssueData))) :
    ((commands.map env.executes).getLastD false = true ↔ ∃ command ∈ commands, env.executes command) ↔
      LastDecides env commands := by
  have hmem : (∃ command ∈ commands, env.executes command) ↔ true ∈ commands.map env.executes := List.mem_map.symm
  rw [LastDecides, hmem, getLastD_iff, List.getLast?_map]
  simp only [Option.map_eq_some_iff]

theorem reportsExecuted_iff (attempts : List (Option (IssueNodeData × Str))) (k : Nat) :
    ReportsExecuted env (loop (fun _ a => attempt cfg env jsoncfg deep a) false attempts)
        (typeCommands cfg env jsoncfg (attemptedTypes jsoncfg deep attempts) k) k ↔
      (∀ a ∈ attempts, a.isSome) ∧
        LastDecides env (typeCommands cfg env jsoncfg (attemptedTypes jsoncfg deep attempts) k) := by
  by_cases hnamed : ∀ a ∈ attempts, a.isSome
  · have hrun := attempts_run cfg env jsoncfg deep hnamed false k
    rw [and_iff_right hnamed, ← lastDecides_iff]
    constructor
    · rintro ⟨-, b, hb, h⟩
      rw [hrun] at hb
      exact Option.some.inj hb ▸ h
    · exact fun h => ⟨by rw [hrun], _, by rw [hrun], h⟩
  · refine iff_of_false (fun ⟨_, b, hb, _⟩ => ?_) fun h => hnamed h.1
    obtain ⟨a, ha, hnone⟩ : ∃ a ∈ attempts, ¬ a.isSome := by simpa using hnamed
    have hstop : attempt cfg env jsoncfg deep a = stop := by
      rw [Option.not_isSome_iff_eq_none.mp hnone]
      rfl
    rw [loop_stops ha (fun _ => hstop)] at hb
    cases hb

/-- Each walker executes the accepted commands of its types and returns whether one
was executed, if every type has a name, and the last one is executed where one is. -/
theorem walkers_reportExecuted_iff (cfg : Config) (env : Env) (jsoncfg : Option CJson) (issue : IssueNodeData)
    (rfcbuf : Str) (k : Nat) :
    (ReportsExecuted env (processAllDebugCommand cfg env jsoncfg issue rfcbuf)
        (typeCommands cfg env jsoncfg (attemptedTypes jsoncfg false (subNodeAttempts jsoncfg issue rfcbuf)) k) k ↔
      (∀ a ∈ subNodeAttempts jsoncfg issue rfcbuf, a.isSome) ∧ LastDecides env
        (typeCommands cfg env jsoncfg (attemptedTypes jsoncfg false (subNodeAttempts jsoncfg issue rfcbuf)) k)) ∧
    (ReportsExecuted env (processAllDeepSleepAwkMetricsCommands cfg env jsoncfg issue)
        (typeCommands cfg env jsoncfg (attemptedTypes jsoncfg true (deepSleepAttempts jsoncfg issue)) k) k ↔
      (∀ a ∈ deepSleepAttempts jsoncfg issue, a.isSome) ∧ LastDecides env
        (typeCommands cfg env jsoncfg (attemptedTypes jsoncfg true (deepSleepAttempts jsoncfg issue)) k)) := by
  rw [processAllDebugCommand_eq, processAllDeepSleepAwkMetricsCommands_eq]
  exact ⟨reportsExecuted_iff _ k, reportsExecuted_iff _ k⟩

/-- A profile whose last type is rejected. -/
def rejectedLast : CJson :=
  .object ((str "Network", .object [(str "Ping", .object [(str "Commands", .string (str "ping -c 4 localhost"))]),
    (str "Bad", .object [(str "Commands", .string (str "rm -rf /"))])]) :: pingSanity)

def networkIssue : IssueNodeData := ⟨some (str "Network"), none⟩

/-- The first type is executed, and the walker returns false. -/
theorem rejectedLast_not_reported : ¬ ReportsExecuted (.ofFiles fun _ => none)
    (processAllDebugCommand (plainConfig true) (.ofFiles fun _ => none) (some rejectedLast) networkIssue (str "Network"))
    (typeCommands (plainConfig true) (.ofFiles fun _ => none) (some rejectedLast)
      (attemptedTypes (some rejectedLast) false (subNodeAttempts (some rejectedLast) networkIssue (str "Network"))) 0) 0 := by
  have hexecuted : ∃ command ∈ typeCommands (plainConfig true) (.ofFiles fun _ => none) (some rejectedLast)
      (attemptedTypes (some rejectedLast) false (subNodeAttempts (some rejectedLast) networkIssue (str "Network"))) 0,
      (Env.ofFiles fun _ => none).executes command := by decide +kernel
  have hreturned : ((processAllDebugCommand (plainConfig true) (.ofFiles fun _ => none) (some rejectedLast) networkIssue
      (str "Network")).run 0).result = some false := by decide +kernel
  rintro ⟨-, b, hb, h⟩
  rw [hreturned] at hb
  cases hb
  exact absurd (h.mpr hexecuted) Bool.false_ne_true

/-! ## Every type of a category -/

theorem cJsonGetObjectItem_of_mem {items : List (Str × CJson)} (hdistinct : (items.map fun m => m.1.map tolower).Nodup)
    {m : Str × CJson} (hm : m ∈ items) : cJsonGetObjectItem (some (.object items)) (some m.1) = some m.2 := by
  have hnames : ((CJson.object items).children.filterMap fun c => c.1.map (·.map tolower)).Nodup := by
    rw [CJson.children, List.filterMap_map]
    simpa [Function.comp_def] using hdistinct
  have hfind : (CJson.object items).children.find? (fun c => c.1.map (·.map tolower) = some (m.1.map tolower)) =
      some (some m.1, m.2) := (find?_iff_of_nodup hnames).mpr ⟨List.mem_map.mpr ⟨m, hm, rfl⟩, rfl⟩
  rw [cJsonGetObjectItem, hfind, Option.map_some]

section Walk

variable {W E : Type} {invoke : IssueNodeData → Str → Prog W E Bool} {items : List (Option Str × CJson)}

/-- The call for a sub-node, where the first one has its node from outside. -/
def subNodeCall (invoke : IssueNodeData → Str → Prog W E Bool) (first : Option Str) (rfcbuf : Str)
    (item : (Option Str × CJson) × Nat) : Prog W E Bool :=
  match item.1.1 with
  | none => stop
  | some string => invoke ⟨if item.2 ≠ 0 then some rfcbuf else first, some string⟩ (rfcbuf ++ rfcDelim ++ string)

/-- In turn `j` the node of the structure is not used, or still the first one. -/
theorem walkSubNode_loop {first : Option Str} {state : Bool × IssueNodeData} {j : Nat}
    (h : j ≠ 0 ∨ state.2.node = first) :
    (loop (walkSubNode invoke rfcbuf) state (items.zipIdx j) >>= fun state => pure state.1) =
      loop (fun _ item => subNodeCall invoke first rfcbuf item) state.1 (items.zipIdx j) := by
  induction items generalizing state j with
  | nil => rfl
  | cons item items ih =>
    rw [List.zipIdx_cons]
    show ((walkSubNode invoke rfcbuf state (item, j) >>= fun state => loop (walkSubNode invoke rfcbuf) state _) >>= _) =
      subNodeCall invoke first rfcbuf (item, j) >>= fun b => loop _ b (items.zipIdx (j + 1))
    rw [walkSubNode, subNodeCall]
    cases item.1 with
    | none => rfl
    | some string =>
      have hnode : (if j ≠ 0 then some rfcbuf else state.2.node) = if j ≠ 0 then some rfcbuf else first := by
        split
        · rfl
        · rename_i hj
          exact h.resolve_left hj
      have hrest (b : Bool) : (loop (walkSubNode invoke rfcbuf) (b, ⟨none, none⟩) (items.zipIdx (j + 1)) >>=
          fun state => pure state.1) = loop (fun _ item => subNodeCall invoke first rfcbuf item) b (items.zipIdx (j + 1)) :=
        ih (.inl (Nat.succ_ne_zero j))
      simp only [bind_assoc, pure_bind, hnode]
      exact congrArg _ (funext hrest)

theorem walkSubNodes_fst : (walkSubNodes invoke rfcbuf issue items >>= fun state => pure state.1) =
    loop (fun _ item => subNodeCall invoke issue.node rfcbuf item) false items.zipIdx :=
  walkSubNode_loop (.inr rfl)

/-- Every member of a category is called for, in order, if the node is the category. -/
theorem walkSubNodes_members (hnode : issue.node = some rfcbuf) (members : List (Str × CJson)) :
    (walkSubNodes invoke rfcbuf issue (CJson.children (.object members)) >>= fun state => pure state.1) =
      loop (fun _ m => invoke ⟨some rfcbuf, some m.1⟩ (rfcbuf ++ rfcDelim ++ m.1)) false members := by
  rw [walkSubNodes_fst, hnode, CJson.children, List.zipIdx_map, loop_map]
  have hcall (m : (Str × CJson) × Nat) :
      subNodeCall invoke (some rfcbuf) rfcbuf (Prod.map (fun m : Str × CJson => (some m.1, m.2)) id m) =
        invoke ⟨some rfcbuf, some m.1.1⟩ (rfcbuf ++ rfcDelim ++ m.1.1) := by
    simp only [subNodeCall, Prod.map, id, ite_self]
  simp only [hcall]
  conv_rhs => rw [← List.zipIdx_map_fst 0 members, loop_map]

end Walk

/-- The calls that the loop over the sub-nodes makes, whatever they return. -/
def walkCalls (answer : IssueNodeData → Str → Bool) (rfcbuf : Str) (issue : IssueNodeData)
    (items : List (Option Str × CJson)) : List (IssueNodeData × Str) :=
  let invoke (issue : IssueNodeData) (label : Str) : Prog Unit (IssueNodeData × Str) Bool := do
    emit (issue, label)
    pure (answer issue label)
  ((walkSubNodes invoke rfcbuf issue items).run ()).events

theorem walkCalls_members {answer : IssueNodeData → Str → Bool} (hnode : issue.node = some rfcbuf)
    (members : List (Str × CJson)) : walkCalls answer rfcbuf issue (CJson.children (.object members)) =
      members.map fun m => (⟨some rfcbuf, some m.1⟩, rfcbuf ++ rfcDelim ++ m.1) := by
  rw [walkCalls, ← events_bind_pure (fun state => state.1), walkSubNodes_members hnode]
  generalize false = b
  induction members generalizing b with
  | nil => rfl
  | cons m members ih => exact congrArg _ (ih _)

/-- The types of a category: their items, and the labels of their commands. -/
def categoryTypes (rfcbuf : Str) (members : List (Str × CJson)) : List (Option CJson × Str) :=
  members.map fun m => (some m.2, rfcbuf ++ rfcDelim ++ m.1)

/-- A category request: the loop makes one call for each member, in order, with
both names and the label of the member; each call finds the member itself, and
executes its command if the check accepts it; and no other command is executed. -/
structure CoversCategory (cfg : Config) (env : Env) (jsoncfg : Option CJson) (issue : IssueNodeData) (rfcbuf : Str)
    (members : List (Str × CJson)) : Prop where
  runs : processAllDebugCommand cfg env jsoncfg issue rfcbuf =
    walkSubNodes (fun issue label => invokeSanityandCommandExec cfg env issue jsoncfg label false) rfcbuf issue
      (cJsonItems (cJsonGetObjectItem jsoncfg issue.node)) >>= fun state => pure state.1
  calls : ∀ answer, walkCalls answer rfcbuf issue (cJsonItems (cJsonGetObjectItem jsoncfg issue.node)) =
    members.map fun m => (⟨some rfcbuf, some m.1⟩, rfcbuf ++ rfcDelim ++ m.1)
  own : ∀ m ∈ members, issueTypeItem (commandRoot jsoncfg false) ⟨some rfcbuf, some m.1⟩ = some m.2
  attempts : ∀ m ∈ members, ∀ k,
    (invokeSanityandCommandExec cfg env ⟨some rfcbuf, some m.1⟩ jsoncfg (rfcbuf ++ rfcDelim ++ m.1) false).run k =
      ⟨some (env.executes (typeCommand cfg env jsoncfg (some m.2) (rfcbuf ++ rfcDelim ++ m.1) k)),
        commandEvents [typeCommand cfg env jsoncfg (some m.2) (rfcbuf ++ rfcDelim ++ m.1) k],
        afterType cfg env jsoncfg (some m.2) (rfcbuf ++ rfcDelim ++ m.1) k⟩
  executes : ∀ k, ((processAllDebugCommand cfg env jsoncfg issue rfcbuf).run k).events =
    commandEvents (typeCommands cfg env jsoncfg (categoryTypes rfcbuf members) k)

theorem processAllDebugCommand_walk : processAllDebugCommand cfg env jsoncfg issue rfcbuf =
    walkSubNodes (fun issue label => invokeSanityandCommandExec cfg env issue jsoncfg label false) rfcbuf issue
      (cJsonItems (cJsonGetObjectItem jsoncfg issue.node)) >>= fun state => pure state.1 := by
  rw [walkSubNodes_fst, processAllDebugCommand]
  refine loop_congr (fun _ item _ => ?_) false
  obtain ⟨⟨_ | string, _⟩, i⟩ := item <;> rfl

/-- The attempts of a category are its members, in order, if the node is the category. -/
theorem subNodeAttempts_members (hnode : issue.node = some rfcbuf) {members : List (Str × CJson)}
    (hcategory : cJsonGetObjectItem jsoncfg issue.node = some (.object members)) :
    subNodeAttempts jsoncfg issue rfcbuf =
      members.map fun m => some (⟨some rfcbuf, some m.1⟩, rfcbuf ++ rfcDelim ++ m.1) := by
  rw [subNodeAttempts, hcategory, cJsonItems, CJson.children, List.zipIdx_map, List.map_map]
  conv_rhs => rw [← List.zipIdx_map_fst 0 members, List.map_map]
  refine List.map_congr_left fun m _ => ?_
  simp [hnode]

theorem attemptedTypes_members {members : List (Str × CJson)}
    (hown : ∀ m ∈ members, issueTypeItem (commandRoot jsoncfg false) ⟨some rfcbuf, some m.1⟩ = some m.2) :
    attemptedTypes jsoncfg false (members.map fun m => some (⟨some rfcbuf, some m.1⟩, rfcbuf ++ rfcDelim ++ m.1)) =
      categoryTypes rfcbuf members := by
  rw [attemptedTypes, List.filterMap_map, categoryTypes, ← List.filterMap_eq_map]
  exact List.filterMap_congr fun m hm => congrArg (fun type => some (type, rfcbuf ++ rfcDelim ++ m.1)) (hown m hm)

theorem processAllDebugCommand_covers (hissue : getIssueInfo rfcbuf = some issue) (hsub : issue.subNode = none)
    {members : List (Str × CJson)} (hcategory : cJsonGetObjectItem jsoncfg issue.node = some (.object members))
    (hdistinct : (members.map fun m => m.1.map tolower).Nodup) :
    CoversCategory cfg env jsoncfg issue rfcbuf members := by
  have hnode : issue.node = some rfcbuf := getIssueInfo_whole hissue hsub
  have hown : ∀ m ∈ members, issueTypeItem (commandRoot jsoncfg false) ⟨some rfcbuf, some m.1⟩ = some m.2 := by
    intro m hm
    rw [← hnode, issueTypeItem]
    show cJsonGetObjectItem (cJsonGetObjectItem jsoncfg issue.node) (some m.1) = some m.2
    rw [hcategory]
    exact cJsonGetObjectItem_of_mem hdistinct hm
  refine ⟨processAllDebugCommand_walk, fun answer => ?_, hown, fun m hm k => ?_, fun k => ?_⟩
  · rw [hcategory]
    exact walkCalls_members hnode members
  · rw [invokeSanityandCommandExec_run, hown m hm]
  · have hnamed : ∀ a ∈ subNodeAttempts jsoncfg issue rfcbuf, a.isSome := by
      rw [subNodeAttempts_members hnode hcategory]
      exact List.forall_mem_map.mpr fun _ _ => rfl
    rw [processAllDebugCommand_eq, attempts_run _ _ _ _ hnamed, subNodeAttempts_members hnode hcategory,
      attemptedTypes_members hown]

theorem processAllDebugCommand_covers_sample : CoversCategory (plainConfig true) (.ofFiles fun _ => none)
    (some rejectedLast) networkIssue (str "Network")
    [(str "Ping", .object [(str "Commands", .string (str "ping -c 4 localhost"))]),
      (str "Bad", .object [(str "Commands", .string (str "rm -rf /"))])] :=
  processAllDebugCommand_covers (by decide) rfl rfl (by decide)

end RRD
