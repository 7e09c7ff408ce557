import RemoteDebugger.Impl.Cache
import RemoteDebugger.Impl.Token

/-!
# The pieces of an event

What an event asks for, said of its text alone.
-/

namespace RRD

open Framework

/-- The longest parts of an event without a comma, but for the empty ones. -/
def pieces (e : Str) : List Str := (e.splitOn (ch ',')).filter (· ≠ [])

/-- The issue that a piece names: of its text before an underscore, at most 127 bytes. -/
def pieceBase (p : Str) : Str := ((p.takeWhile (· ≠ ch '_')).take 127).filter fun b => isalnum b || b = ch '.'

/-- Its suffix: what is left from the first underscore on, if that is short. -/
def pieceSuffix (p : Str) : Str :=
  if (p.dropWhile (· ≠ ch '_')).length ≤ 9 then
    (p.dropWhile (· ≠ ch '_')).filter fun b => isalnum b || b = ch '_' || b = ch '-'
  else []

/-- The work item of a piece. -/
def pieceItem (p : Str) : DataBuf :=
  ⟨.eventMsg, pieceBase p, none, false, false, .deepsleepInvalidDefault, pieceSuffix p⟩

/-- The work items of an event that is not in append mode. -/
def eventItems (e : Str) : List DataBuf := ((pieces e).filter (pieceBase · ≠ [])).map pieceItem

end RRD
