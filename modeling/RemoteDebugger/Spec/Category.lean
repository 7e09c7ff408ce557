import RemoteDebugger.Impl.Profile

/-!
# The commands of a category

What the types of a category come to, read off the profile, the check and the
answers of the device alone. A type is given by its item in the profile and the
label of its command.

* `typeCommand`, `typeCommands`: the commands that the check accepts, each with the
  call that executes it;
* `ReportsExecuted`: these are the commands of a program, which returns whether one
  of them was executed.
-/

namespace RRD

open Framework Framework.Prog

variable (cfg : Config) (env : Env) (jsoncfg : Option CJson)

/-- The check of a profile; where it has none, that of the static profile as it is read in call `k`. -/
def checkAt (k : Nat) : Option CJson :=
  (sanityCheck jsoncfg).or (sanityCheck (env.readAndParseJSON k rrdJsonFile))

/-- The call after the check was found. -/
def afterCheck (k : Nat) : Nat := if (sanityCheck jsoncfg).isSome then k else k + 1

/-- The command of a type, if it has one and the check accepts it, and the call that executes it. -/
def typeCommand (type : Option CJson) (label : Str) (k : Nat) : Option (Nat × IssueData) :=
  match readCommand cfg type with
  | (none, _) => none
  | (some raw, timeout) => (isCommandsValid cfg raw (checkCommands (checkAt env jsoncfg k))).map fun command =>
      (afterCheck jsoncfg k, acceptedData jsoncfg label raw command timeout)

/-- The call after those for a type. -/
def afterType (type : Option CJson) (label : Str) (k : Nat) : Nat :=
  match typeCommand cfg env jsoncfg type label k with
  | some command => command.1 + 1
  | none => if (readCommand cfg type).1.isSome then afterCheck jsoncfg k else k

/-- The commands of the types in turn. -/
def typeCommands : List (Option CJson × Str) → Nat → List (Option (Nat × IssueData))
  | [], _ => []
  | (type, label) :: types, k =>
    typeCommand cfg env jsoncfg type label k :: typeCommands types (afterType cfg env jsoncfg type label k)

/-- The call after those for the types. -/
def afterTypes (types : List (Option CJson × Str)) (k : Nat) : Nat :=
  types.foldl (fun k type => afterType cfg env jsoncfg type.1 type.2 k) k

/-- There is a command, and the device executes it. -/
def Env.executes (command : Option (Nat × IssueData)) : Bool := command.any fun c => env.executeCommands c.1 c.2

/-- The effects of the commands. -/
def commandEvents (commands : List (Option (Nat × IssueData))) : List Effect :=
  commands.filterMap (Option.map fun c => .executeCommands c.2)

/-- The program hands these commands to the device, and returns true exactly when one of them is executed. -/
structure ReportsExecuted (walker : Prog Nat Effect Bool) (commands : List (Option (Nat × IssueData))) (k : Nat) :
    Prop where
  hands : (walker.run k).events = commandEvents commands
  returns : ∃ execstatus, (walker.run k).result = some execstatus ∧
    (execstatus = true ↔ ∃ command ∈ commands, env.executes command)

end RRD
