import RemoteDebugger.Framework.Assign
import RemoteDebugger.Impl.Config

/-!
# Property files

The format of a property file, said of its lines, of whatever length: `KEY=value`
or `KEY="value"`, blanks around the key and the value, and the last line for a key
counts.
-/

namespace RRD

open Framework

/-- The lines of a file. -/
def textLines (content : Str) : List Str := content.splitOn newline

/-- The field that a line sets. It is read as a string, up to its first NUL. -/
def documentedLine (line : Str) : Option (ConfigKey × Str) := do
  let (key, val) ← keyValue (cstr line)
  let val := unquoteValue val
  if val = [] then none else (simpleKey key).map (·, val)

/-- The fields that a file sets. -/
def documented (content : Str) : List (ConfigKey × Str) := (textLines content).filterMap documentedLine

/-- A value in a field: all of it that fits. -/
def ConfigKey.cut (k : ConfigKey) (val : Str) : Str := val.take (k.size - 1)

/-- No line is for a key of the DCM settings alone. -/
def NoUploadKeys (content : Str) : Prop :=
  ∀ line ∈ textLines content, ∀ key val, keyValue (cstr line) = some (key, val) → key ≠ uploadUrlKey ∧ key ≠ uploadProtocolKey

/-- A file is read as its format says, into any configuration, and alike by both
parsers. -/
structure MeetsGrammar (content : Str) : Prop where
  fields (config : RrdConfig) (k : ConfigKey) :
    (parseProperties (some content) config).2.get k = ((lastSet k (documented content)).map k.cut).getD (config.get k)
  dcm (h : NoUploadKeys content) (config : RrdConfig) (k : ConfigKey) :
    (parseDcmSettings (some content) config).2.get k = (parseProperties (some content) config).2.get k

end RRD
