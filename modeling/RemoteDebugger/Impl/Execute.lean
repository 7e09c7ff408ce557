import RemoteDebugger.Framework.CString
import RemoteDebugger.Framework.Substring
import RemoteDebugger.Impl.Dispatch

/-!
# From a command to the shell

What `executeCommands` of `rrdRunCmdThread.c` makes of a command:
`replaceRRDLocation` of `rrdCommandSanity.c`, and `removeQuotes`. And the text
that `cJSON_Print` gives a string with characters to escape.
-/

namespace RRD

open Framework

/-! ## Printed strings -/

def quote : Byte := ch '"'

def backslash : Byte := ch '\\'

/-- A digit of `%04x`. -/
def hexDigit (n : Byte) : Byte := if n < 10 then ch '0' + n else ch 'a' + (n - 10)

/-- A byte of a string as it is printed. -/
def escapeByte (b : Byte) : Str :=
  if b = quote ∨ b = backslash then [backslash, b]
  else if 32 ≤ b then [b]
  else if b = 8 then [backslash, ch 'b']
  else if b = 9 then [backslash, ch 't']
  else if b = 10 then [backslash, ch 'n']
  else if b = 12 then [backslash, ch 'f']
  else if b = 13 then [backslash, ch 'r']
  else [backslash, ch 'u', ch '0', ch '0', hexDigit (b / 16), hexDigit (b % 16)]

/-- `cJSON_Print` of a string. -/
def printString (valuestring : Str) : Str := quote :: valuestring.flatMap escapeByte ++ [quote]

/-! ## Commands -/

/-- The loop of `removeQuotes`: the first backslash that is before a quote goes,
and the search goes on at that quote. -/
def unescapeQuotes : Str → Str
  | a :: b :: s =>
    if a = backslash ∧ b = quote then b :: unescapeQuotes s else a :: unescapeQuotes (b :: s)
  | s => s

def removeQuotes (str : Str) : Str :=
  unescapeQuotes (if 2 ≤ str.length ∧ str.head? = some quote ∧ str.getLast? = some quote then str.tail.dropLast else str)

/-- `DEFAULT_DIR`. -/
def defaultDir : Str := str "RRD_LOCATION"

/-- The command from a place on that is `skip` bytes before the end of an occurrence. -/
def replaceFrom (dirLocation : Str) : Nat → Str → Str
  | _, [] => []
  | skip + 1, _ :: s => replaceFrom dirLocation skip s
  | 0, b :: s =>
    if defaultDir.isPrefixOf (b :: s) then dirLocation ++ replaceFrom dirLocation (defaultDir.length - 1) s
    else b :: replaceFrom dirLocation 0 s

def replaceRRDLocation (commandStr dirLocation : Str) : Str := replaceFrom dirLocation 0 commandStr

/-- What is left of a string behind an occurrence is shorter. -/
theorem length_behind {iterptr : Str} {i : Nat} (h : strstr defaultDir iterptr = some i) :
    (iterptr.drop (i + defaultDir.length)).length < iterptr.length := by
  have hlen := (strstr_eq_some_iff.mp h).1.length_le
  have hpos : 0 < defaultDir.length := by decide
  rw [List.length_drop] at hlen ⊢
  omega

/-- The first pass of `replaceRRDLocation`: the occurrences are counted in an `int`. -/
def countLocations (iterptr : Str) (cnt : Int32) : Int32 :=
  match h : strstr defaultDir iterptr with
  | none => cnt
  | some i => countLocations (iterptr.drop (i + defaultDir.length)) (cnt + 1)
termination_by iterptr.length
decreasing_by exact length_behind h

/-- `datalen`, in `size_t`. -/
def locationDatalen (commandStr dirLocation : Str) : UInt64 :=
  let cmdlen := UInt64.ofNat commandStr.length
  let deflen := UInt64.ofNat defaultDir.length
  let dirlen := UInt64.ofNat dirLocation.length
  cmdlen + (countLocations commandStr 0).toInt64.toUInt64 * (dirlen - deflen)

/-- The second pass, which writes to `data` from `tempptr` on. -/
def copyLocations (dirLocation data : Str) (tempptr : Nat) (iterptr : Str) : Option Str :=
  match h : strstr defaultDir iterptr with
  | none => strcpyAt data tempptr iterptr
  | some skiplen => do
    let data ← strncpyAt data tempptr iterptr skiplen
    let data ← strncpyAt data (tempptr + skiplen) dirLocation dirLocation.length
    have := length_behind h
    copyLocations dirLocation data (tempptr + skiplen + dirLocation.length) (iterptr.drop (skiplen + defaultDir.length))
termination_by iterptr.length
decreasing_by assumption

/-- `replaceRRDLocation` in the memory that `malloc` returns, which holds `junk`. -/
def replaceRRDLocationMem (junk : Nat → Byte) (commandStr dirLocation : Str) : Option Str :=
  copyLocations dirLocation (malloc junk (locationDatalen commandStr dirLocation + 1).toNat) 0 commandStr

/-- The command string that is handed to `systemd-run`, from the directory
`pathname` and the directory of the command in it. -/
def shellCommand (command pathname dirname : Str) : Str :=
  removeQuotes (replaceRRDLocation command (pathname ++ str "/" ++ dirname))

end RRD
