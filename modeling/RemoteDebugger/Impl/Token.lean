import RemoteDebugger.Framework.Bytes

/-!
# Issue types

From the value of the issue type parameter to the node and sub-node of each
token: `issueTypeSplitter` and `removeSpecialCharacterfromIssueTypeList` of
`rrdEventProcess.c`, `split_issue_type` and `getIssueInfo` of `rrdJsonParser.c`.
-/

namespace RRD

open Framework

def isalnum (b : Byte) : Bool :=
  ch '0' ≤ b && b ≤ ch '9' || ch 'A' ≤ b && b ≤ ch 'Z' || ch 'a' ≤ b && b ≤ ch 'z'

/-! ## The list -/

/-- The delimiters that a byte other than a delimiter follows. -/
def countSplits (delimeter : Byte) : Str → Nat
  | a :: b :: s => (if a = delimeter ∧ b ≠ delimeter then 1 else 0) + countSplits delimeter (b :: s)
  | _ => 0

/-- Cut off `cnt` tokens, each with the delimiters after it. -/
def takeTokens (delimeter : Byte) : Nat → Str → List Str
  | 0, _ => []
  | cnt + 1, str =>
    str.takeWhile (· ≠ delimeter) ::
      takeTokens delimeter cnt ((str.dropWhile (· ≠ delimeter)).dropWhile (· = delimeter))

def issueTypeSplitter (inputStr : Str) (delimeter : Byte) : List Str :=
  let str := inputStr.dropWhile (· = delimeter)
  takeTokens delimeter (1 + countSplits delimeter (str.drop 1)) str

/-! ## A token -/

/-- `RRD_MAX_SUFFIX_LEN`. -/
def rrdMaxSuffixLen : Nat := 9

/-- The base and the suffix of a token, in buffers of 128 bytes. -/
def splitIssueType (input : Str) : Str × Str :=
  let base := (input.takeWhile (· ≠ ch '_')).take 127
  let underscore := input.dropWhile (· ≠ ch '_')
  if underscore ≠ [] ∧ underscore.length ≤ rrdMaxSuffixLen then
    (base, underscore.filter fun b => isalnum b || b = ch '_' || b = ch '-')
  else (base, [])

def removeSpecialCharacterfromIssueTypeList (s : Str) : Str :=
  s.filter fun b => isalnum b || b = ch ',' || b = ch '.'

/-- The tokens of a message that are processed: base and suffix. -/
def acceptedTokens (mdata : Str) : List (Str × Str) :=
  (issueTypeSplitter mdata (ch ',')).filterMap fun token =>
    let (base, suffix) := splitIssueType token
    let base := removeSpecialCharacterfromIssueTypeList base
    if base = [] then none else some (base, suffix)

/-! ## Nodes -/

/-- `issueNodeData`. -/
structure IssueNodeData where
  node : Option Str
  subNode : Option Str
  deriving DecidableEq, Repr

/-- The tokens of `strtok`, after the bytes `tok` of the current one. -/
def strtokFrom (delim : Byte) (tok : Str) : Str → List Str
  | [] => if tok = [] then [] else [tok]
  | b :: s =>
    if b = delim then
      if tok = [] then strtokFrom delim [] s else tok :: strtokFrom delim [] s
    else strtokFrom delim (tok ++ [b]) s

def strtok (delim : Byte) (s : Str) : List Str := strtokFrom delim [] s

/-- The node and the sub-node of an issue type, if the array of tokens is read
where it was written. -/
def getIssueInfo (issuestr : Str) : Option IssueNodeData :=
  let nodes := issuestr.count (ch '.')
  match strtok (ch '.') issuestr with
  | [] => none
  | node :: rest =>
    if nodes ≠ 0 then
      match rest with
      | [] => none
      | subNode :: _ => some ⟨some node, some subNode⟩
    else some ⟨some node, none⟩

/-- `getParamcount`. -/
def getParamcount (str : Str) : Nat := str.count (ch '.')

/-- The size of the array of `getIssueInfo`, the slots that its loop fills from
the first on, and those that it reads. -/
def slotsCreated (issuestr : Str) : Nat := getParamcount issuestr + 1

def slotsAssigned (issuestr : Str) : Nat := (strtok (ch '.') issuestr).length

def slotsRead (issuestr : Str) : List Nat := if getParamcount issuestr ≠ 0 then [0, 1] else [0]

end RRD
