import RemoteDebugger.Framework.Prog
import RemoteDebugger.Impl.Execute
import RemoteDebugger.Impl.RunCommand

/-!
# `executeCommands` of `rrdRunCmdThread.c`

The calls that run a command and write its report, each an event with whether it
worked. The command is not NULL, and allocations succeed.
-/

namespace RRD

open Framework Framework.Prog

/-- A command of the shell. -/
inductive ShellCommand where
  /-- `systemd-run -r --unit=.. --service-type=oneshot -p RemainAfterExit=yes /bin/sh -c ..`. -/
  | systemdRun (unit command : Str)
  /-- `journalctl -a -u ..`. -/
  | journalctl (unit : Str)
  /-- `systemctl stop ..`. -/
  | systemctlStop (unit : Str)
  deriving DecidableEq, Repr

inductive RunEffect where
  | mkdir (dirname : Str) (ok : Bool)
  | fopen (path : Str) (ok : Bool)
  /-- Bytes into the report, by `fprintf` or `fwrite`. -/
  | write (bytes : Str)
  | popen (command : ShellCommand) (ok : Bool)
  | pclose
  | fclose
  | sleep (seconds : UInt32)
  | system (command : ShellCommand) (ok : Bool)
  deriving DecidableEq, Repr

/-- The answers of the device to a command. -/
structure RunEnv where
  rrdCmdThreadID : UInt64
  locTime : Tm
  epochTime : Int64
  /-- What `strftime` leaves where its text does not fit. -/
  junk : Nat → Byte
  mkdir : Bool
  getcwd : Str
  fopen : Bool
  /-- What the pipe of a command gives to each `fread`, if `v_secure_popen` works. -/
  popen : ShellCommand → Option (List Str)
  /-- Whether a command of `v_secure_system` ends with 0. -/
  system : ShellCommand → Bool

/-- The string in an array, if it ends in it. -/
def stringIn (mem : Str) : Option Str := if 0 ∈ mem then some (cstr mem) else none

variable (env : RunEnv)

/-- `copyDebugLogDestFile`, up to the first `fread` that reads nothing. -/
def copyDebugLogDestFile : List Str → Prog Nat RunEffect Unit
  | [] => pure ()
  | buffer :: source =>
    if buffer = [] then pure ()
    else do
      emit (.write buffer)
      copyDebugLogDestFile source

/-- Copy what a command prints to the report, where it can be started. -/
def copyOutput (command : ShellCommand) : Prog Nat RunEffect Unit :=
  match env.popen command with
  | none => emit (.popen command false)
  | some source => do
    emit (.popen command true)
    copyDebugLogDestFile source
    emit .pclose

/-- The command with the directory for its macro, if it has it. -/
def locatedCommand (command dirname : Str) : Str :=
  if (strstr defaultDir command).isSome then replaceRRDLocation command (env.getcwd ++ str "/" ++ dirname)
  else command

/-- The line before the output. -/
def reportHeader (command : Str) : Str := str "Executing Debug Commands: \"" ++ command ++ str "\"" ++ str "\n"

/-- From the open report on. -/
def writeReport (command unit : Str) (timeout : Int) : Prog Nat RunEffect Unit := do
  emit (.write (reportHeader command))
  copyOutput env (.systemdRun unit (removeQuotes command))
  copyOutput env (.journalctl unit)
  emit .fclose
  emit (.sleep (sleepArgument timeout))
  emit (.system (.systemctlStop unit) (env.system (.systemctlStop unit)))

/-- `executeCommands`. It stops where an array is left, or read beyond. -/
def executeCommandsRun (cmdData : IssueData) : Prog Nat RunEffect Bool :=
  match dirnameMem env.junk cmdData.rfcvalue env.rrdCmdThreadID env.locTime with
  | none => stop
  | some mem =>
    match stringIn mem with
    | none => stop
    | some dirname => do
      emit (.mkdir dirname env.mkdir)
      if !env.mkdir then pure false
      else match (finalOutFileMem mem).bind stringIn with
        | none => stop
        | some finalOutFile => do
          emit (.fopen finalOutFile env.fopen)
          if !env.fopen then pure false
          else match (remoteDebuggerServiceMem cmdData.rfcvalue env.epochTime).bind stringIn with
            | none => stop
            | some remoteDebuggerServiceStr => do
              writeReport env (locatedCommand env cmdData.command dirname) remoteDebuggerServiceStr cmdData.timeout
              pure true

/-- The commands among the effects of the thread, one after the other, and whether
each returns true. The device answers the `k`-th effect by `envs k`. -/
def runCommands (envs : Nat → RunEnv) : Nat → List Effect → Prog Nat RunEffect (List Bool)
  | _, [] => pure []
  | k, .executeCommands cmdinfo :: es => do
    let ok ← executeCommandsRun (envs k) cmdinfo
    let oks ← runCommands envs (k + 1) es
    pure (ok :: oks)
  | k, _ :: es => runCommands envs (k + 1) es

end RRD
