import RemoteDebugger.Impl.Archive

/-!
# `rrd_sysinfo.c`: the size of a directory
-/

namespace RRD

open Framework

/-- What `opendir` and `readdir`, and `stat`, answer for a path, as long as there
are descriptors. A directory that does not open has no names. -/
structure DirCalls where
  readdir : Str → Option (List Str)
  stat : Str → Option Stat

def isDot (dName : Str) : Prop := dName = str "." ∨ dName = str ".."

instance (dName : Str) : Decidable (isDot dName) := inferInstanceAs (Decidable (_ ∨ _))

/-- `filepath`, in its array. -/
def dirFilepath (dirpath dName : Str) : Str := snprintf 1024 (dirpath ++ ch '/' :: dName)

variable (calls : DirCalls)

/-- A turn of the loop of `rrd_sysinfo_get_dir_size`, whose call of itself is
`getDirSize`. A directory whose size it does not get adds nothing. -/
def addEntry (getDirSize : Str → Option UInt64) (dirpath : Str) (size : UInt64) (dName : Str) : UInt64 :=
  if isDot dName then size
  else
    let filepath := dirFilepath dirpath dName
    match calls.stat filepath with
    | none => size
    | some st =>
      if sIsReg st.stMode then size + UInt64.ofNat st.stSize.val
      else if sIsDir st.stMode then size + (getDirSize filepath).getD 0
      else size

/-- `rrd_sysinfo_get_dir_size`, where the process has `free` descriptors left. Each
call holds one while it reads its directory, and without one `opendir` fails. -1 is
`none`. -/
def rrdSysinfoGetDirSize : Nat → Str → Option UInt64
  | 0, _ => none
  | free + 1, dirpath =>
    match calls.readdir dirpath with
    | none => none
    | some names => some (names.foldl (addEntry calls (rrdSysinfoGetDirSize free) dirpath) 0)

/-- The call with these descriptors and on this path calls itself with those and on that. -/
inductive CallsItself : Nat × Str → Nat × Str → Prop where
  | mk {free : Nat} {dirpath dName : Str} {names : List Str} {st : Stat} (hnames : calls.readdir dirpath = some names)
      (hmem : dName ∈ names) (hdot : ¬isDot dName) (hst : calls.stat (dirFilepath dirpath dName) = some st)
      (hreg : ¬sIsReg st.stMode) (hdir : sIsDir st.stMode) :
      CallsItself (free + 1, dirpath) (free, dirFilepath dirpath dName)

end RRD
