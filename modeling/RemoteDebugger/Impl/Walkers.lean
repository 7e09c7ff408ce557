import RemoteDebugger.Framework.CString
import RemoteDebugger.Impl.Profile

/-!
# The walkers of a category in memory

The buffers that `processAllDebugCommand` and `processAllDeepSleepAwkMetricsCommands`
build their labels in, and the structure whose names the first one restores after
each call.
-/

namespace RRD

open Framework Framework.Prog

/-! ## Labels -/

/-- The copies of a label: at most `n` bytes of the category, and `m` of the type. -/
def copyLabel (category type : Str) (n m : Nat) : Option Str := do
  let label ← strncpy (List.replicate (category.length + type.length + rfcDelim.length + 1) 0) category n
  let label ← strncat label rfcDelim (rfcDelim.length + 1)
  strncat label type m

/-- `issuetypearray[i]`. -/
def subNodeLabel (rfcbuf string : Str) : Option Str := copyLabel rfcbuf string rfcbuf.length string.length

/-- `issuedCommand[_sindex]`, whose copies are bounded by the lengths
`issueCategoryLen`, which is that of the type, and `issueTypeLen`, which is that
of the category. -/
def deepSleepLabel (category type : Str) : Option Str := copyLabel category type type.length category.length

/-! ## Names -/

section

variable {W E : Type} (invoke : IssueNodeData → Str → Prog W E Bool) (rfcbuf : Str)

/-- A turn of the loop of `processAllDebugCommand`, with its status and its
structure: `invoke` frees both names, which are NULL after it. -/
def walkSubNode (state : Bool × IssueNodeData) (item : (Option Str × CJson) × Nat) : Prog W E (Bool × IssueNodeData) :=
  match item.1.1 with
  | none => stop
  | some string => do
    let node := if item.2 ≠ 0 then some rfcbuf else state.2.node
    let execstatus ← invoke ⟨node, some string⟩ (rfcbuf ++ rfcDelim ++ string)
    pure (execstatus, ⟨none, none⟩)

def walkSubNodes (issuestructNode : IssueNodeData) (items : List (Option Str × CJson)) :
    Prog W E (Bool × IssueNodeData) :=
  loop (walkSubNode invoke rfcbuf) (false, issuestructNode) items.zipIdx

end

end RRD
