import RemoteDebugger.Impl.Config
import RemoteDebugger.Impl.Json

/-!
# The profile parameters

`setProfileData` and `getProfileData` of `rrdInterface.c`: the selected category
in memory and in its file, and the issue types that are listed for it.
-/

namespace RRD

open Framework

def rrdSetProfileEvent : Str :=
  str "Device.DeviceInfo.X_RDKCENTRAL-COM_RFC.Feature.RDKRemoteDebugger.setProfileData"

def rrdGetProfileEvent : Str :=
  str "Device.DeviceInfo.X_RDKCENTRAL-COM_RFC.Feature.RDKRemoteDebugger.getProfileData"

/-- The results of `rbusError_t` that the handlers return. -/
inductive RbusError where
  | success
  | busError
  | invalidInput
  deriving DecidableEq, Repr

/-! ## The category -/

def allCategory : Str := str "all"

/-- `sizeof(RRDProfileCategory)`. -/
def profileCategorySize : Nat := 256

/-- `RRDProfileCategory`, and what `RRD_PROFILE_CATEGORY_FILE` holds, or `none`
where it cannot be opened. -/
structure ProfileStore where
  category : Str
  file : Option Str
  deriving DecidableEq, Repr

/-- `load_profile_category`: what it returns, and `RRDProfileCategory` after it. -/
def loadProfileCategory (file : Option Str) : Int × Str :=
  match file with
  | none => (-1, allCategory)
  | some content =>
    match (readLines profileCategorySize content).head? with
    | none => (-1, allCategory)
    | some line => (0, line.takeWhile (· ≠ newline))

/-- How the calls of `save_profile_category` end. -/
structure FileOps where
  /-- `open`, which cuts the file to nothing, and `fdopen`. -/
  opens : Bool
  fdopens : Bool
  /-- Whether `fprintf` returns a positive number. -/
  prints : Bool
  /-- The bytes of the line that are in the file after `fclose`, whose result is not read. -/
  written : Nat
  deriving DecidableEq, Repr

/-- `save_profile_category`: what it returns, and the file after it. -/
def saveProfileCategory (ops : FileOps) (st : ProfileStore) : Int × Option Str :=
  if ops.opens then
    if ops.fdopens then (if ops.prints then 0 else -1, some ((st.category ++ [newline]).take ops.written))
    else (-1, some [])
  else (-1, st.file)

/-- A value, by its type. A string is the memory that `rbusValue_GetString` returns. -/
inductive RbusValue where
  | string (bytes : Option Str)
  | other
  deriving DecidableEq, Repr

structure RbusProperty where
  name : Option Str
  value : Option RbusValue
  deriving DecidableEq, Repr

/-- The checks of `rrd_SetHandler`: the string of a request that passes them. -/
def requestedCategory (prop : Option RbusProperty) : Option Str := do
  let prop ← prop
  let propertyName ← prop.name
  let value ← prop.value
  if propertyName = rrdSetProfileEvent then
    match value with
    | .string (some bytes) => if (cstr bytes).length > profileCategorySize - 1 then none else some (cstr bytes)
    | .string none => none
    | .other => none
  else none

def rrdSetHandler (ops : FileOps) (prop : Option RbusProperty) (st : ProfileStore) : RbusError × ProfileStore :=
  match requestedCategory prop with
  | none => (.invalidInput, st)
  | some str =>
    let st := { st with category := str.take (profileCategorySize - 1) }
    let (ret, file) := saveProfileCategory ops st
    (if ret ≠ 0 then .busError else .success, { st with file := file })

/-! ## The listed issue types -/

def CJson.isObject : CJson → Bool
  | .object _ => true
  | _ => false

def CJson.isString : CJson → Bool
  | .string _ => true
  | _ => false

/-- `Commands` of an item of a category. -/
def itemCommands (item : CJson) : Option CJson := cJsonGetObjectItem (some item) (some (str "Commands"))

def hasDirectCommands (category : CJson) : Bool :=
  category.children.any fun item => item.2.isObject && (itemCommands item.2).any CJson.isString

/-- The array of the names of the items that are objects. -/
def issueTypesArray (category : CJson) : CJson :=
  .array ((category.children.filter fun issueType => issueType.2.isObject).filterMap fun issueType =>
    issueType.1.map .string)

/-- The member of the answer for a category. -/
def categoryMember (category : Option Str × CJson) : Option (Str × CJson) :=
  if category.2.isObject ∧ hasDirectCommands category.2 ∧ (issueTypesArray category.2).children ≠ [] then
    category.1.map (·, issueTypesArray category.2)
  else none

/-- The answer of `get_all_categories_json`, before it is printed. -/
def allCategories (json : Option CJson) : CJson := .object ((cJsonItems json).filterMap categoryMember)

/-- The answer of `get_specific_category_json`, before it is printed. -/
def specificCategory (json : Option CJson) (categoryName : Str) : CJson :=
  match cJsonGetObjectItem json (some categoryName) with
  | some (.object items) => if hasDirectCommands (.object items) then issueTypesArray (.object items) else .array []
  | _ => allCategories json

def getAllCategoriesJson (cfg : Config) (json : Option CJson) : Str := cfg.cJsonPrint (allCategories json)

def getSpecificCategoryJson (cfg : Config) (json : Option CJson) (categoryName : Str) : Str :=
  cfg.cJsonPrint (specificCategory json categoryName)

/-- `MAX_PROFILE_JSON_SIZE`. -/
def maxProfileJsonSize : Nat := 32768

/-- `read_profile_json_file`, where the file can be read whole. -/
def readProfileJsonFile (file : Option Str) : Option Str :=
  file.filter fun content => 0 < content.length ∧ content.length < maxProfileJsonSize

/-- `rrd_GetHandler`: the string of the property, or the error. -/
def rrdGetHandler (cfg : Config) (profile : Option Str) (category propertyName : Str) : Except RbusError Str :=
  if propertyName ≠ rrdGetProfileEvent then .error .invalidInput
  else
    match readProfileJsonFile profile with
    | none => .error .busError
    | some jsonBuffer =>
      match cfg.cJsonParse (cstr jsonBuffer) with
      | none => .error .busError
      | some json =>
        if category = [] ∨ category = allCategory then .ok (getAllCategoriesJson cfg (some json))
        else .ok (getSpecificCategoryJson cfg (some json) category)

end RRD
