import RemoteDebugger.Framework.CString
import RemoteDebugger.Impl.Upload

/-!
# Around a command

The names that `executeCommands` of `rrdRunCmdThread.c` makes in its arrays, and
its wait. Sizes are of type `size_t`.
-/

namespace RRD

open Framework

def rrdOutputFile : Str := str "debug_outputs.txt"

/-- `BUF_LEN_256` and `BUF_LEN_512`. -/
def bufLen256 : Nat := 256

def bufLen512 : Nat := 512

/-- The text of a `long`. -/
def longText (n : Int64) : Str :=
  if n.toInt < 0 then ch '-' :: decimal 0 n.toInt.natAbs else decimal 0 n.toInt.natAbs

/-- `%Y-%m-%d-%H-%M-%S`. -/
def timeText (locTime : Tm) : Str :=
  decimal 4 (locTime.tmYear + 1900) ++ str "-" ++ decimal 2 (locTime.tmMon + 1) ++ str "-" ++
    decimal 2 locTime.tmMday ++ str "-" ++ decimal 2 locTime.tmHour ++ str "-" ++ decimal 2 locTime.tmMin ++ str "-" ++
    decimal 2 locTime.tmSec

/-- What `snprintf` puts before the time in the name of the directory. -/
def dirText (rfcvalue : Str) (rrdCmdThreadID : UInt64) : Str :=
  rfcvalue ++ str "_" ++ decimal 0 rrdCmdThreadID.toNat ++ str "_"

/-- `dirname`: `len` is the length of the whole text, and `sizeof(dirname) - len` is unsigned. -/
def dirnameMem (junk : Nat → Byte) (rfcvalue : Str) (rrdCmdThreadID : UInt64) (locTime : Tm) : Option Str := do
  let text := dirText rfcvalue rrdCmdThreadID
  let dirname ← snprintfTo (calloc bufLen256) bufLen256 text
  let len := text.length
  strftimeAt junk dirname len (UInt64.ofNat bufLen256 - UInt64.ofNat len).toNat (timeText locTime)

/-- `finalOutFile`, from `dirname`. -/
def finalOutFileMem (dirname : Str) : Option Str := do
  let finalOutFile ← strncpy (calloc bufLen256) (cstr dirname) ((← strlen dirname) + 1)
  let finalOutFile ← strncat finalOutFile (str "/") (bufLen256 - (← strlen finalOutFile) - 1)
  strncat finalOutFile rrdOutputFile (rrdOutputFile.length + 1)

def remoteDebuggerPrefix : Str := str "remote_debugger_"

/-- `remoteDebuggerServiceStr`, which is given to `systemd-run`, `journalctl` and `systemctl stop`. -/
def remoteDebuggerServiceMem (rfcvalue : Str) (epochTime : Int64) : Option Str :=
  snprintfTo (calloc bufLen512) bufLen512 (remoteDebuggerPrefix ++ rfcvalue ++ longText epochTime)

/-- The argument of `sleep`. -/
def sleepArgument (timeout : Int) : UInt32 := UInt32.ofInt timeout

end RRD
