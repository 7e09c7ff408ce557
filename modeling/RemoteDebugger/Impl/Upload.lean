import RemoteDebugger.Framework.Disk
import RemoteDebugger.Impl.Archive
import RemoteDebugger.Impl.Config
import RemoteDebugger.Impl.Json
import RemoteDebugger.Impl.Token

/-!
# The upload of a report

`uploadDebugoutput` of `rrdExecuteScript.c`, `rrd_upload_orchestrate` of
`uploadRRDLogs.c`, and what they use of `rrd_sysinfo.c`, `rrd_logproc.c`,
`rrd_archive.c` and `rrd_upload.c`. The programs here run over a file system,
and what changes it is an event. An archive there is its uncompressed stream.
-/

namespace RRD

open Framework Framework.Prog

/-! ## The device -/

/-- A path is the list of its components. -/
abbrev FileSystem := Disk Str (List Byte)

def components (path : Str) : List Str := strtok (ch '/') path

/-- The fields of `struct tm` that a timestamp reads. -/
structure Tm where
  tmYear : Nat
  tmMon : Nat
  tmMday : Nat
  tmHour : Nat
  tmMin : Nat
  tmSec : Nat
  deriving DecidableEq, Repr

/-- What `open` and `flock` answer for the lock file. -/
inductive LockAnswer where
  | openFails
  | acquired
  | wouldBlock
  | flockFails
  deriving DecidableEq, Repr

/-- The fields of `UploadSTBLogsParams` that are not constants. -/
structure UploadSTBLogsParams where
  uploadProtocol : Str
  uploadHttpLink : Str
  rrdFile : Str
  deriving DecidableEq, Repr

/-- The answers of the device to one upload. -/
structure UploadEnv where
  config : ConfigSources
  getEstbMac : Option Str
  localtime : Option Tm
  /-- What the `k`-th listing of the directory holds, if `opendir` works. -/
  readdir : Nat → Option (List Str)
  /-- Whether a file that is there can be renamed. -/
  rename : Bool
  host : Host
  /-- What `rrdArchiveCreate` meets. -/
  source : FileSystem → Source
  lock : Nat → LockAnswer
  uploadstblogsRun : UploadSTBLogsParams → FileSystem → Int × FileSystem
  vSecureSystem : Str → FileSystem → Int × FileSystem

inductive UploadEffect where
  | rename (oldpath newpath : Str)
  /-- An archive, complete or not, at its path. -/
  | archive (outpath : Str) (out : List Chunk)
  | uploadstblogsRun (params : UploadSTBLogsParams)
  | remove (path : Str)
  | system (cmd : Str)
  | vSecureSystem (cmd : Str)

/-- What an effect does to the file system. The only command is `rm -rf`, on
the words after it. -/
def UploadEffect.apply : UploadEffect → FileSystem → FileSystem
  | rename oldpath newpath, disk => disk.rename (components oldpath) (components newpath)
  | archive outpath out, disk => disk.write (components outpath) (out.flatMap Chunk.bytes)
  | remove path, disk => disk.unlink (components path)
  | system cmd, disk => ((strtok (ch ' ') cmd).drop 2).foldl (fun disk path => disk.removeTree (components path)) disk
  | uploadstblogsRun _, disk | vSecureSystem _, disk => disk

def perform (e : UploadEffect) : Prog FileSystem UploadEffect Unit := do
  emit e
  ask fun disk => ((), e.apply disk)

/-- A call that may do anything to the file system. -/
def performCall (e : UploadEffect) (f : FileSystem → Int × FileSystem) : Prog FileSystem UploadEffect Int := do
  emit e
  ask f

variable (env : UploadEnv)

/-! ## System information -/

/-- Into a buffer of `size` bytes, from one of 18. -/
def rrdSysinfoGetMacAddress (size : Nat) : Option Str :=
  if size < 13 then none
  else env.getEstbMac.map fun macWithColons => ((macWithColons.take 17).filter (· ≠ ch ':')).take (size - 1)

/-- `%0wd`. -/
def decimal (w n : Nat) : Str := ((Nat.toDigits 10 n).leftpad w '0').map ch

/-- The hour on the clock, and its half of the day. -/
def hourAmpm (hour : Nat) : Nat × Str :=
  if 12 ≤ hour then (if 12 < hour then hour - 12 else hour, str "PM")
  else if hour = 0 then (12, str "AM")
  else (hour, str "AM")

def rrdSysinfoGetTimestamp (size : Nat) : Option Str :=
  if size < 20 then none
  else env.localtime.map fun tm =>
    let (hour, ampm) := hourAmpm tm.tmHour
    let buf := snprintf 64 (decimal 4 (tm.tmYear + 1900) ++ str "-" ++ decimal 2 (tm.tmMon + 1) ++ str "-" ++
      decimal 2 tm.tmMday ++ str "-" ++ decimal 2 hour ++ str "-" ++ decimal 2 tm.tmMin ++ str "-" ++
      decimal 2 tm.tmSec ++ ampm)
    buf.take (size - 1)

/-! ## Logs -/

/-- The `k`-th check of the directory. -/
def rrdLogprocValidateSource (k : Nat) (sourceDir : Str) : Prog FileSystem UploadEffect Int :=
  ask fun disk =>
    (if disk (components sourceDir) = some .directory then
      match env.readdir k with
      | none => -2
      | some names => if names.any fun dName => dName ≠ str "." ∧ dName ≠ str ".." then 0 else -3
    else -2, disk)

/-- The issue type is not used. -/
def rrdLogprocPrepareLogs (k : Nat) (sourceDir : Str) : Prog FileSystem UploadEffect Int :=
  rrdLogprocValidateSource env k sourceDir

def toupper (b : Byte) : Byte := if ch 'a' ≤ b && b ≤ ch 'z' then b - 32 else b

/-- The body of the loop of `rrdLogprocConvertIssueType`. -/
def convertByte (c : Byte) : Option Byte :=
  if isalnum c then some (toupper c)
  else if c = ch '_' ∨ c = ch '.' then some (ch '_')
  else if c = ch '-' then some (ch '-')
  else none

def rrdLogprocConvertIssueType (input : Str) (size : Nat) : Option Str :=
  if size ≤ input.length then none else some ((input.filterMap convertByte).take (size - 1))

def liveLogsFile : Str := str "/tmp/rrd/RRD_LIVE_LOGS.tar.gz"

def rrdLogprocHandleLiveLogs (sourceDir : Str) : Prog FileSystem UploadEffect Int := do
  let destPath := snprintf 1024 (sourceDir ++ str "/RRD_LIVE_LOGS.tar.gz")
  let found ← ask fun disk => ((disk (components liveLogsFile)).isSome, disk)
  if !found then pure 0
  else if !env.rename then pure (-2)
  else do
    perform (.rename liveLogsFile destPath)
    pure 0

/-! ## The archive -/

/-- `rrd_archive_create`, in the directory it is given. -/
def createArchive (sourceDir workingDir archiveFilename : Str) : Prog FileSystem UploadEffect Int := do
  let outpath := snprintf 8192 (if workingDir ≠ [] then workingDir ++ ch '/' :: archiveFilename else archiveFilename)
  let src ← ask fun disk => (env.source disk, disk)
  let (rc, out) := rrdArchiveCreate env.host sourceDir src
  if src.gzopen then do
    perform (.archive outpath out)
    pure rc
  else pure rc

def rrdArchiveGenerateFilename (mac issueType timestamp : Str) (size : Nat) : Option Str :=
  if size < 128 then none
  else
    let filename := mac ++ str "_" ++ issueType ++ str "_" ++ timestamp ++ str "_RRD_DEBUG_LOGS.tgz"
    if size ≤ filename.length then none else some filename

def rrdArchiveCleanup (archivePath : Str) : Prog FileSystem UploadEffect Unit := perform (.remove archivePath)

/-! ## The upload -/

/-- Whether the lock is held, unless the check fails. -/
def rrdUploadCheckLock (answer : LockAnswer) : Option Bool :=
  match answer with
  | .acquired => some false
  | .wouldBlock => some true
  | .openFails | .flockFails => none

/-- The loop of `rrdUploadWaitForLock`, from its `k`-th check of the lock. -/
def waitForLockFrom : Nat → Nat → Int
  | _, 0 => -1
  | k, attempts + 1 =>
    if rrdUploadCheckLock (env.lock k) = some false then 0 else waitForLockFrom (k + 1) attempts

def rrdUploadWaitForLock (maxAttempts : Nat) : Int := waitForLockFrom env 1 maxAttempts

def rrdUploadExecute (config : RrdConfig) (workingDir archiveFilename : Str) : Prog FileSystem UploadEffect Int :=
  if config.logServer = [] then pure (-1)
  else match rrdUploadCheckLock (env.lock 0) with
    | none => pure (-1)
    | some locked =>
      if locked ∧ rrdUploadWaitForLock env 10 ≠ 0 then pure (-2)
      else do
        let params : UploadSTBLogsParams :=
          ⟨config.uploadProtocol, config.httpUploadLink, snprintf 512 (workingDir ++ archiveFilename)⟩
        let result ← performCall (.uploadstblogsRun params) (env.uploadstblogsRun params)
        pure (if result ≠ 0 then -3 else 0)

def rrdUploadCleanupSourceDir (dirPath : Str) : Prog FileSystem UploadEffect Unit :=
  perform (.system (snprintf 1024 (str "rm -rf " ++ dirPath)))

/-! ## The orchestration -/

def rrdLogDir : Str := str "/tmp/rrd/"

/-- The cleanup of `rrdUploadOrchestrate`, on success and on failure. -/
def cleanupReport (uploadDir archiveFilename : Str) : Prog FileSystem UploadEffect Unit := do
  rrdArchiveCleanup (snprintf 512 (rrdLogDir ++ archiveFilename))
  rrdUploadCleanupSourceDir uploadDir

/-- Steps 8 to 10 of `rrdUploadOrchestrate`. -/
def uploadArchive (config : RrdConfig) (uploadDir archiveFilename : Str) : Prog FileSystem UploadEffect Int := do
  if (← createArchive env uploadDir rrdLogDir archiveFilename) ≠ 0 then pure 10
  else if (← rrdUploadExecute env config rrdLogDir archiveFilename) ≠ 0 then do
    cleanupReport uploadDir archiveFilename
    pure 11
  else do
    cleanupReport uploadDir archiveFilename
    pure 0

/-- The issue type of the live logs. -/
def loguploadEnable : Str := str "LOGUPLOAD_ENABLE"

/-- Step 6.5. -/
def checkLiveLogs (uploadDir issueTypeSanitized : Str) : Prog FileSystem UploadEffect Unit :=
  if issueTypeSanitized = loguploadEnable then do
    let _ ← rrdLogprocHandleLiveLogs env uploadDir
    pure ()
  else pure ()

/-- Steps 6 to 10. -/
def uploadIssue (config : RrdConfig) (macAddr timestamp uploadDir issueType : Str) :
    Prog FileSystem UploadEffect Int :=
  match rrdLogprocConvertIssueType issueType 64 with
  | none => pure 8
  | some issueTypeSanitized => do
    checkLiveLogs env uploadDir issueTypeSanitized
    match rrdArchiveGenerateFilename macAddr issueTypeSanitized timestamp 256 with
    | none => pure 9
    | some archiveFilename => uploadArchive env config uploadDir archiveFilename

def rrdUploadOrchestrate (uploadDir issueType : Option Str) : Prog FileSystem UploadEffect Int :=
  match uploadDir, issueType with
  | some uploadDir, some issueType =>
    let (rc, config) := rrdConfigLoad env.config
    if rc ≠ 0 then pure 3
    else match rrdSysinfoGetMacAddress env 32 with
      | none => pure 4
      | some macAddr =>
        match rrdSysinfoGetTimestamp env 32 with
        | none => pure 5
        | some timestamp => do
          if (← rrdLogprocValidateSource env 0 uploadDir) ≠ 0 then pure 6
          else if (← rrdLogprocPrepareLogs env 1 uploadDir) ≠ 0 then pure 7
          else uploadIssue env config macAddr timestamp uploadDir issueType
  | _, _ => pure 1

/-! ## From a report -/

def normalizeIssueName (s : Str) : Str := s.map fun b => if b = ch '.' then ch '_' else b

def rrdScript : Str := str "/lib/rdk/uploadRRDLogs.sh"

def uploadDebugoutput (cfg : Config) (outdir issuename : Str) : Prog FileSystem UploadEffect Int :=
  let issuename := normalizeIssueName issuename
  if cfg.iarm then rrdUploadOrchestrate env (some outdir) (some issuename)
  else do
    let cmd := rrdScript ++ str " " ++ outdir ++ str " " ++ issuename
    let result ← performCall (.vSecureSystem cmd) (env.vSecureSystem cmd)
    pure (if result ≠ 0 then 1 else 0)

end RRD
