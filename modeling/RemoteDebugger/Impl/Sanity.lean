import Mathlib.Data.List.DropRight
import RemoteDebugger.Framework.Substring
import RemoteDebugger.Impl.Json

/-!
# `rrdCommandSanity.c`: the command check
-/

namespace RRD

open Framework

/-- Replace each `&;` by `&` and a space. -/
def updateBackgroundCmd : Str → Str
  | a :: b :: s =>
    if a = ch '&' ∧ b = ch ';' then a :: ch ' ' :: updateBackgroundCmd s else a :: updateBackgroundCmd (b :: s)
  | s => s

def isspace (b : Byte) : Bool := b = ch ' ' || 9 ≤ b && b ≤ 13

/-- A printed pattern without its quotes and without the spaces at its end. -/
def trimPattern (checkcmd : Str) : Str :=
  let unquoted :=
    if 2 ≤ checkcmd.length ∧ checkcmd.head? = some (ch '"') ∧ checkcmd.getLast? = some (ch '"') then
      checkcmd.tail.dropLast
    else checkcmd
  unquoted.rdropWhile isspace

/-- The patterns of a list, as they are compared. -/
def patterns (cfg : Config) (sanitylist : Option CJson) : List Str :=
  (cJsonItems sanitylist).map fun c => trimPattern (cfg.cJsonPrint c.2)

/-- Whether a command is accepted, and what it is then rewritten to. -/
def isCommandsValid (cfg : Config) (issuecmd : Str) (sanitylist : Option CJson) : Option Str :=
  if ∃ p ∈ patterns cfg sanitylist, p <:+: issuecmd then none
  else if ch '&' ∈ issuecmd then some (updateBackgroundCmd issuecmd)
  else some issuecmd

/-! ## In memory -/

/-- The loop that trims, on the first `n` bytes of `checkcmd`. -/
def trimSpaces (checkcmd : Str) : Nat → Str
  | 0 => checkcmd
  | j + 1 => if isspace (checkcmd.getD j 0) then trimSpaces (checkcmd.set j 0) j else checkcmd

/-- A printed pattern, with its terminator, without its quotes and trimmed. -/
def checkcmdMem (printed : Str) : Str :=
  let checkcmd := printed ++ [0]
  let len := printed.length
  if 2 ≤ len ∧ checkcmd.getD 0 0 = ch '"' ∧ checkcmd.getD (len - 1) 0 = ch '"' then
    trimSpaces ((checkcmd.set (len - 1) 0).drop 1) (len - 2)
  else trimSpaces checkcmd len

/-- The loop of `updateBackgroundCmd` from index `i` on. -/
def updateBackgroundCmdMem (str : Str) (i : Nat) : Str :=
  if str.getD i 0 = 0 then str
  else
    updateBackgroundCmdMem
      (if str.getD i 0 = ch '&' ∧ str.getD (i + 1) 0 = ch ';' then str.set (i + 1) (ch ' ') else str) (i + 1)
termination_by str.length - i
decreasing_by
  rename_i h
  have hlt : i < str.length := by
    by_contra hge
    exact h (by rw [List.getD_eq_getElem?_getD, List.getElem?_eq_none (Nat.le_of_not_lt hge)]; rfl)
  split <;> simp <;> omega

/-- The printed items of a list. -/
def printedItems (cfg : Config) (sanitylist : Option CJson) : List Str :=
  (cJsonItems sanitylist).map fun subcmd => cfg.cJsonPrint subcmd.2

/-- `isCommandsValid` on the printed items: what it returns, and the command it leaves. -/
def isCommandsValidRun (issuecmd : Str) : List Str → Int × Str
  | printed :: items =>
    if (strstr (cstr (checkcmdMem printed)) issuecmd).isSome then (1, issuecmd) else isCommandsValidRun issuecmd items
  | [] =>
    if (strstr (str "&") issuecmd).isSome then (0, cstr (updateBackgroundCmdMem (issuecmd ++ [0]) 0))
    else (0, issuecmd)

end RRD
