import RemoteDebugger.Framework.Bytes

/-!
# cJSON

Parsed documents, and the lookups of cJSON on them. Items are optional where
the library takes a NULL pointer.
-/

namespace RRD

open Framework

/-- A parsed item. A number carries its `valueint` and its text. -/
inductive CJson where
  | null
  | bool (b : Bool)
  | number (valueint : Int) (text : Str)
  | string (valuestring : Str)
  | array (items : List CJson)
  | object (items : List (Str × CJson))

namespace CJson

/-- The child items, each with its name. -/
def children : CJson → List (Option Str × CJson)
  | array items => items.map (none, ·)
  | object items => items.map fun i => (some i.1, i.2)
  | _ => []

end CJson

def tolower (b : Byte) : Byte := if ch 'A' ≤ b ∧ b ≤ ch 'Z' then b + 32 else b

/-- `cJSON_GetObjectItem`: the first child of that name, ignoring case. -/
def cJsonGetObjectItem (item : Option CJson) (name : Option Str) : Option CJson :=
  match item, name with
  | some item, some name =>
    (item.children.find? fun c => c.1.map (·.map tolower) = some (name.map tolower)).map Prod.snd
  | _, _ => none

/-- The items that `cJSON_GetArraySize` counts and `cJSON_GetArrayItem` returns. -/
def cJsonItems (item : Option CJson) : List (Option Str × CJson) :=
  match item with
  | some item => item.children
  | none => []

/-- What a build and a device fix: the buses, the profile name of the device,
and the library's printer and parser. A printed string is quoted. -/
structure Config where
  /-- `IARMBUS_SUPPORT`. -/
  iarm : Bool
  /-- `getRrdProfileName(&devPropData)`. -/
  profileName : Str
  cJsonPrint : CJson → Str
  cJsonParse : Str → Option CJson
  print_string : ∀ s, ∃ t, cJsonPrint (.string s) = ch '"' :: t ++ [ch '"']

/-! ## Items without characters to escape -/

def tabs (depth : Nat) : Str := List.replicate depth 9

mutual

/-- The text of such an item, laid out as `cJSON_Print` does. -/
def printItem (depth : Nat) : CJson → Str
  | .null => str "null"
  | .bool b => if b then str "true" else str "false"
  | .number _ text => text
  | .string s => ch '"' :: s ++ [ch '"']
  | .array items => ch '[' :: printArray depth items ++ [ch ']']
  | .object items => ch '\x7b' :: ch '\n' :: printObject (depth + 1) items ++ tabs depth ++ [ch '\x7d']

def printArray (depth : Nat) : List CJson → Str
  | [] => []
  | [i] => printItem depth i
  | i :: items => printItem depth i ++ str ", " ++ printArray depth items

def printObject (depth : Nat) : List (Str × CJson) → Str
  | [] => []
  | i :: items =>
    tabs depth ++ printPair depth i ++ (if items.isEmpty then str "\n" else str ",\n") ++ printObject depth items

def printPair (depth : Nat) : Str × CJson → Str
  | (name, item) => ch '"' :: name ++ str "\":\t" ++ printItem depth item

end

/-- A device without a profile of its own, whose files hold such items. It
parses no text. -/
def plainConfig (iarm : Bool) : Config :=
  ⟨iarm, [], printItem 0, fun _ => none, fun s => ⟨s, by rw [printItem]⟩⟩

end RRD
