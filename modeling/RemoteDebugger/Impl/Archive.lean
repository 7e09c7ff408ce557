import RemoteDebugger.Framework.Octal
import RemoteDebugger.Framework.Prog

/-!
# `rrd_archive.c`: the tar writer

The system calls of a walk are data: what `lstat`, `opendir`, `readdir`,
`open` and `read` answer (`FileObs`, `Reopen`, `Dirent`, `Listing`), in the
order the walk meets them. A program here emits what it appends to the
uncompressed stream (`Chunk`), its world counts the `gzwrite` calls made, and
it stops where the source returns an error that every caller passes on.
-/

namespace RRD

open Framework

instance neZeroOffT : NeZero (2 ^ 63) := ⟨by decide⟩

/-- The fields of `struct stat` that the archive reads. The size of a file is
an `off_t`, and not negative. -/
structure Stat where
  stMode : UInt32
  stUid : UInt32
  stGid : UInt32
  stSize : Fin (2 ^ 63)
  stMtime : Int64
  deriving DecidableEq, Repr

def sIsDir (m : UInt32) : Bool := m &&& 0o170000 == 0o040000
def sIsReg (m : UInt32) : Bool := m &&& 0o170000 == 0o100000

/-- `struct posix_header`. -/
structure PosixHeader where
  name : List.Vector Byte 100
  mode : List.Vector Byte 8
  uid : List.Vector Byte 8
  gid : List.Vector Byte 8
  size : List.Vector Byte 12
  mtime : List.Vector Byte 12
  chksum : List.Vector Byte 8
  typeflag : Byte
  linkname : List.Vector Byte 100
  magic : List.Vector Byte 6
  version : List.Vector Byte 2
  uname : List.Vector Byte 32
  gname : List.Vector Byte 32
  devmajor : List.Vector Byte 8
  devminor : List.Vector Byte 8
  pfx : List.Vector Byte 155
  padding : List.Vector Byte 12

/-- The 512 bytes of a header. -/
def PosixHeader.bytes (h : PosixHeader) : List Byte :=
  h.name.1 ++ h.mode.1 ++ h.uid.1 ++ h.gid.1 ++ h.size.1 ++ h.mtime.1 ++ h.chksum.1 ++ [h.typeflag] ++
    h.linkname.1 ++ h.magic.1 ++ h.version.1 ++ h.uname.1 ++ h.gname.1 ++ h.devmajor.1 ++ h.devminor.1 ++
    h.pfx.1 ++ h.padding.1

/-- The services of the system that do not depend on the walk: the account
names, and how many of the bytes given to it the `k`-th `gzwrite` takes. -/
structure Host where
  getpwuid : UInt32 → Option Str
  getgrgid : UInt32 → Option Str
  gzwrite : Nat → Nat → Nat

/-- What is appended to the uncompressed stream: (part of) a header, file
data or padding, (part of) the blocks that end the archive. -/
inductive Chunk where
  | header (b : List Byte)
  | data (b : List Byte)
  | trailer (b : List Byte)
  deriving DecidableEq, Repr

def Chunk.bytes : Chunk → List Byte
  | .header b | .data b | .trailer b => b

/-- What a file's `open`, `malloc` and `read` answer: the data of the reads
until the end of the file, or until an error. -/
structure FileObs where
  opens : Bool
  alloc : Bool
  reads : List (List Byte)
  error : Bool
  deriving DecidableEq, Repr

def FileObs.bytes (f : FileObs) : List Byte := f.reads.flatten

/-- What the walk meets where `opendir` fails. -/
structure Reopen where
  st : Option Stat
  file : FileObs
  deriving DecidableEq, Repr

/-- One answer of `readdir` and those for its child: `malloc`, `lstat`, the
file if it is one, and, if it is a directory, what is met when `opendir` fails. -/
structure Dirent where
  dName : Str
  alloc : Bool
  st : Option Stat
  file : FileObs
  noDir : Option Reopen
  deriving DecidableEq, Repr

/-- The answers of `readdir` on an open directory, each with those on the
child, if it is a directory that opens. -/
inductive Listing where
  | done
  | entry (d : Dirent) (sub next : Listing)
  deriving Repr

def calculateChecksum (block : List Byte) : Nat := (block.map UInt8.toNat).sum % 2 ^ 32

/-- The header that `writeTarHeader` fills in, unless the name is too long. -/
def tarHeader (host : Host) (name : Str) (st : Stat) (typeflag : Byte) : Option PosixHeader :=
  let fields : Option (Str × Str) :=
    if name.length ≤ 100 then some ([], name)
    else if name.length ≤ 255 then
      let prefixLen := name.length - 100 - 1
      if prefixLen > 155 then none
      else some (name.take prefixLen, name.drop (prefixLen + 1))
    else none
  fields.map fun (pfx, nm) =>
    let hdr : PosixHeader :=
      { name := buffer 100 nm
        mode := buffer 8 (Octal.print 7 (st.stMode &&& 0o7777).toNat)
        uid := buffer 8 (Octal.print 7 st.stUid.toNat)
        gid := buffer 8 (Octal.print 7 st.stGid.toNat)
        size := buffer 12 (Octal.print 11 (if typeflag = ch '5' then 0 else st.stSize.val))
        mtime := buffer 12 (Octal.print 11 st.stMtime.toUInt64.toNat)
        chksum := ⟨List.replicate 8 (ch ' '), rfl⟩
        typeflag := typeflag
        linkname := buffer 100 []
        magic := ⟨str "ustar" ++ [0], rfl⟩
        version := ⟨str "00", rfl⟩
        uname := buffer 32 ((host.getpwuid st.stUid).getD [])
        gname := buffer 32 ((host.getgrgid st.stGid).getD [])
        devmajor := buffer 8 []
        devminor := buffer 8 []
        pfx := buffer 155 pfx
        padding := buffer 12 [] }
    { hdr with chksum := buffer 8 (Octal.print 6 (calculateChecksum hdr.bytes) ++ [ch ' ']) }

variable (host : Host)

/-- Append what `gzwrite` takes of `b`, and return how much that is. -/
def gzwrite (chunk : List Byte → Chunk) (b : List Byte) : Prog Nat Chunk Nat := do
  let n ← Prog.ask fun k => (min (host.gzwrite k b.length) b.length, k + 1)
  Prog.emit (chunk (b.take n))
  return n

def writeBlock (chunk : List Byte → Chunk) (b : List Byte) : Prog Nat Chunk Unit := do
  let written ← gzwrite host chunk b
  if written ≠ b.length then Prog.stop

/-- `writeZeros`, in at most `fuel` turns. -/
def writeZeros.loop (chunk : List Byte → Chunk) : Nat → Nat → Prog Nat Chunk Unit
  | 0, _ => pure ()
  | fuel + 1, size =>
    if size = 0 then pure ()
    else do
      writeBlock host chunk (List.replicate (min size 512) 0)
      writeZeros.loop chunk fuel (size - min size 512)

/-- Every turn writes at least one byte. -/
def writeZeros (chunk : List Byte → Chunk) (size : Nat) : Prog Nat Chunk Unit :=
  writeZeros.loop host chunk size size

def writeTarHeader (name : Str) (st : Stat) (typeflag : Byte) : Prog Nat Chunk Unit :=
  match tarHeader host name st typeflag with
  | none => Prog.stop
  | some hdr => writeBlock host .header hdr.bytes

/-- The loop over `read`: `gzwrite` must take all that was read. -/
def copyReads : List (List Byte) → Prog Nat Chunk Unit
  | [] => pure ()
  | b :: reads => do
    let n ← gzwrite host .data b
    if n ≠ b.length then Prog.stop else copyReads reads

/-- The padding that `writeFileContents` computes from the size in `st`. -/
def pad (size : Nat) : Nat := (512 - size % 512) % 512

def writeFileContents (f : FileObs) (st : Stat) : Prog Nat Chunk Unit :=
  if !f.opens || !f.alloc then Prog.stop
  else do
    copyReads host f.reads
    if f.error then Prog.stop
    else if pad st.stSize ≠ 0 then writeZeros host .data (pad st.stSize)

/-- `opendir` failed: whatever is there gets a header, a regular file its contents. -/
def archiveUnopened (relpath : Str) (r : Reopen) : Prog Nat Chunk Unit :=
  match r.st with
  | none => Prog.stop
  | some st => do
    writeTarHeader host relpath st (ch '0')
    if sIsReg st.stMode then writeFileContents host r.file st

/-- `snprintf` into an array of `n` bytes. -/
def snprintf (n : Nat) (s : Str) : Str := s.take (n - 1)

/-- The relative name of a child. -/
def childName (relpath dName : Str) : Str :=
  snprintf 8192 (if relpath = [] then dName else relpath ++ ch '/' :: dName)

/-- The path fits `fullpath`. -/
def pathFits (root relpath : Str) : Bool := root.length + 1 + relpath.length + 1 < 8192

/-- The body of `archivePathRecursive`, where `entries` is its loop over
`readdir` if the directory opens. -/
def archiveDir (root relpath : Str) (noDir : Option Reopen) (entries : Prog Nat Chunk Unit) :
    Prog Nat Chunk Unit :=
  if !pathFits root relpath then Prog.stop
  else match noDir with
    | some r => archiveUnopened host relpath r
    | none => entries

/-- The loop over `readdir`. -/
def archiveEntries (root : Str) : Str → Listing → Prog Nat Chunk Unit
  | _, .done => pure ()
  | relpath, .entry d sub next =>
    if d.dName = str "." ∨ d.dName = str ".." then archiveEntries root relpath next
    else if !d.alloc then Prog.stop
    else
      let relname := childName relpath d.dName
      match d.st with
      | none => Prog.stop
      | some st =>
        if sIsDir st.stMode then do
          writeTarHeader host (snprintf 8200 (relname ++ [ch '/'])) st (ch '5')
          archiveDir host root relname d.noDir (archiveEntries root relname sub)
          archiveEntries root relpath next
        else if sIsReg st.stMode then do
          writeTarHeader host relname st (ch '0')
          writeFileContents host d.file st
          archiveEntries root relpath next
        else archiveEntries root relpath next

/-- `archivePathRecursive` on a directory that opens to `l`, or not at all. -/
def archivePathRecursive (root relpath : Str) (noDir : Option Reopen) (l : Listing) : Prog Nat Chunk Unit :=
  archiveDir host root relpath noDir (archiveEntries host root relpath l)

/-- What `rrdArchiveCreate` meets: `gzopen`, `lstat` on the source, the
source's contents, and the size that `stat` finds for the finished archive. -/
structure Source where
  gzopen : Bool
  lstat : Option Stat
  noDir : Option Reopen
  listing : Listing
  file : FileObs
  stat : List Chunk → Option Nat

/-- The last component of a path. -/
def basename (path : Str) : Str := (path.reverse.takeWhile (· ≠ ch '/')).reverse

/-- The part of `rrdArchiveCreate` that writes the entries. -/
def archiveSource (sourceDir : Str) (src : Source) (st : Stat) : Prog Nat Chunk Unit :=
  if sIsDir st.stMode then archivePathRecursive host sourceDir [] src.noDir src.listing
  else do
    writeTarHeader host (basename sourceDir) st (ch '0')
    writeFileContents host src.file st

/-- `rrdArchiveCreate`: its return code and what it appended to the stream.
The second block of zeros is attempted even if the first fails. -/
def rrdArchiveCreate (sourceDir : Str) (src : Source) : Int × List Chunk :=
  if !src.gzopen then (-2, [])
  else match src.lstat with
    | none => (-2, [])
    | some st =>
      if !sIsDir st.stMode && !sIsReg st.stMode then (-2, [])
      else
        let o := (archiveSource host sourceDir src st).run 0
        let (ok, out) :=
          if o.result.isSome then
            let z₁ := (writeZeros host .trailer 512).run o.world
            let z₂ := (writeZeros host .trailer 512).run z₁.world
            (z₁.result.isSome && z₂.result.isSome, o.events ++ z₁.events ++ z₂.events)
          else (false, o.events)
        if (src.stat out).getD 0 = 0 then (-3, out)
        else if ok then (0, out) else (-2, out)

end RRD
