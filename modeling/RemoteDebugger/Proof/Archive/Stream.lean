import Mathlib.Data.List.Forall2
import RemoteDebugger.Proof.Archive.Header

/-!
# The archive as a stream of members

What the walk archives (`Listing.archived`, `Source.archived`) is read off
what it meets: a name, a `struct stat`, a type and, for a regular file, the
bytes its reads deliver. Every program of the writer that returns has appended
the members of these entries, in order (`Writes`): `archiveEntries_writes` for a
directory, `rrdArchiveCreate_writes` for an archive created with success.
-/

namespace RRD

open Framework
open Framework.Ustar (Member)

/-! ## The stream and the members written to it -/

/-- The uncompressed stream. -/
def stream (out : List Chunk) : List Byte := out.flatMap Chunk.bytes

/-- The data appended before the next header. -/
def dataAfter : List Chunk → List Byte
  | .data b :: out => b ++ dataAfter out
  | _ => []

/-- The headers written, each with the data written after it. -/
def written : List Chunk → List Member
  | [] => []
  | .header b :: out => ⟨b, dataAfter out⟩ :: written out
  | _ :: out => written out

/-- A tar reader finds the headers written, each followed by the data blocks
its size field states; the stream is made of blocks, the last two zero. -/
structure WellFormed (out : List Chunk) : Prop where
  members : Ustar.members (stream out) = some (written out)
  blocks : 512 ∣ (stream out).length
  trailer : Ustar.trailer <:+ stream out

/-- Chunks that are members: a header, then its data, and so on. -/
inductive Renders : List Chunk → List Member → Prop where
  | nil : Renders [] []
  | cons {m : Member} {bs : List (List Byte)} {es : List Chunk} {ms : List Member} (hd : bs.flatten = m.data)
      (h : Renders es ms) : Renders (.header m.header :: (bs.map .data ++ es)) (m :: ms)

theorem stream_append (es es' : List Chunk) : stream (es ++ es') = stream es ++ stream es' := by
  simp [stream]

theorem stream_data (bs : List (List Byte)) : stream (bs.map .data) = bs.flatten := by
  rw [stream, List.flatMap_map]
  exact List.flatMap_id

theorem Renders.append {es es' : List Chunk} {ms ms' : List Member} (h : Renders es ms) (h' : Renders es' ms') :
    Renders (es ++ es') (ms ++ ms') := by
  induction h with
  | nil => exact h'
  | cons hd _ ih => simpa only [List.cons_append, List.append_assoc] using Renders.cons hd ih

theorem Renders.stream_eq {es : List Chunk} {ms : List Member} (h : Renders es ms) :
    stream es = ms.flatMap Member.bytes := by
  induction h with
  | nil => rfl
  | @cons m bs es ms hd _ ih =>
    rw [← List.singleton_append, stream_append, stream_append, stream_data, hd, ih, List.flatMap_cons,
      Member.bytes, ← List.append_assoc]
    simp [stream, Chunk.bytes]

theorem dataAfter_map (bs : List (List Byte)) (out : List Chunk) :
    dataAfter (bs.map .data ++ out) = bs.flatten ++ dataAfter out := by
  induction bs with
  | nil => rfl
  | cons b bs ih => simp [dataAfter, ih]

theorem written_map (bs : List (List Byte)) (out : List Chunk) : written (bs.map .data ++ out) = written out := by
  induction bs with
  | nil => rfl
  | cons b bs ih => simpa [written] using ih

/-- The members before chunks that are not data are those rendered. -/
theorem Renders.written_append {es out : List Chunk} {ms : List Member} (h : Renders es ms)
    (ho : dataAfter out = []) : dataAfter (es ++ out) = [] ∧ written (es ++ out) = ms ++ written out := by
  induction h with
  | nil => exact ⟨ho, rfl⟩
  | cons hd _ ih =>
    refine ⟨rfl, ?_⟩
    rw [List.cons_append, List.append_assoc, written, dataAfter_map, written_map, ih.1, ih.2, hd,
      List.append_nil, List.cons_append]

/-! ## What the walk archives -/

/-- What an entry is: a directory, a file of which the reads delivered these
bytes, or something that neither opened as a directory nor is a regular file. -/
inductive Body where
  | directory
  | file (contents : List Byte)
  | bare

/-- An entry the walk archives: its name, the `lstat` it was met with, and what it is. -/
structure Archived where
  name : Str
  st : Stat
  body : Body

def Archived.typeflag (a : Archived) : Byte :=
  match a.body with
  | .directory => ch '5'
  | _ => ch '0'

/-- The data appended after an entry's header: what was read, and padding for
the size in `st`. -/
def Archived.data (a : Archived) : List Byte :=
  match a.body with
  | .file c => c ++ List.replicate (pad a.st.stSize) 0
  | _ => []

def Reopen.archived (relpath : Str) (r : Reopen) : List Archived :=
  match r.st with
  | none => []
  | some st => [⟨relpath, st, if sIsReg st.stMode then .file r.file.bytes else .bare⟩]

/-- A directory that opens to the entries `as`, or does not open. -/
def dirArchived (relpath : Str) (as : List Archived) : Option Reopen → List Archived
  | some r => r.archived relpath
  | none => as

def Listing.archived (relpath : Str) : Listing → List Archived
  | .done => []
  | .entry d sub next =>
    let relname := childName relpath d.dName
    let here : List Archived :=
      if d.dName = str "." ∨ d.dName = str ".." then []
      else match d.st with
        | none => []
        | some st =>
          if sIsDir st.stMode then
            ⟨snprintf 8200 (relname ++ [ch '/']), st, .directory⟩ ::
              dirArchived relname (sub.archived relname) d.noDir
          else if sIsReg st.stMode then [⟨relname, st, .file d.file.bytes⟩]
          else []
    here ++ next.archived relpath

def Source.archived (sourceDir : Str) (src : Source) : List Archived :=
  match src.lstat with
  | none => []
  | some st =>
    if sIsDir st.stMode then dirArchived [] (src.listing.archived []) src.noDir
    else [⟨basename sourceDir, st, .file src.file.bytes⟩]

/-- The member of an entry. -/
def Archived.IsMember (host : Host) (a : Archived) (m : Member) : Prop :=
  ∃ hdr, tarHeader host a.name a.st a.typeflag = some hdr ∧ m = ⟨hdr.bytes, a.data⟩

/-- The chunks are the members of the entries. -/
def Writes (host : Host) (as : List Archived) (es : List Chunk) : Prop :=
  ∃ ms, List.Forall₂ (Archived.IsMember host) as ms ∧ Renders es ms

variable {host : Host} {chunk : List Byte → Chunk} {k k' : Nat} {es : List Chunk}

theorem Writes.nil : Writes host [] [] := ⟨[], .nil, .nil⟩

theorem Writes.append {as as' : List Archived} {es es' : List Chunk} (h : Writes host as es)
    (h' : Writes host as' es') : Writes host (as ++ as') (es ++ es') := by
  obtain ⟨ms, hm, hr⟩ := h
  obtain ⟨ms', hm', hr'⟩ := h'
  exact ⟨ms ++ ms', List.rel_append hm hm', hr.append hr'⟩

/-! ## What a program that returns has written -/

theorem writeZeros_loop_eq_some {fuel size : Nat} (hf : size ≤ fuel)
    (h : (writeZeros.loop host chunk fuel size).run k = ⟨some (), es, k'⟩) :
    ∃ bs : List (List Byte), es = bs.map chunk ∧ bs.flatten = List.replicate size 0 := by
  induction fuel generalizing size k es with
  | zero =>
    obtain rfl : size = 0 := by omega
    cases h
    exact ⟨[], rfl, rfl⟩
  | succ fuel ih =>
    rw [writeZeros.loop] at h
    split at h
    · rename_i h0
      cases h
      exact ⟨[], rfl, by rw [h0]; rfl⟩
    · obtain ⟨_, es₁, _, es₂, h1, h2, rfl⟩ := Prog.bind_eq_some.mp h
      obtain ⟨-, rfl, rfl⟩ := writeBlock_eq_some.mp h1
      obtain ⟨bs, rfl, hbs⟩ := ih (by omega) h2
      refine ⟨List.replicate (min size 512) 0 :: bs, rfl, ?_⟩
      rw [List.flatten_cons, hbs, List.replicate_append_replicate]
      congr 1
      omega

theorem writeZeros_eq_some {chunk : List Byte → Chunk} {size : Nat}
    (h : (writeZeros host chunk size).run k = ⟨some (), es, k'⟩) :
    ∃ bs : List (List Byte), es = bs.map chunk ∧ bs.flatten = List.replicate size 0 :=
  writeZeros_loop_eq_some (Nat.le_refl _) h

theorem copyReads_eq_some {reads : List (List Byte)}
    (h : (copyReads host reads).run k = ⟨some (), es, k'⟩) : es = reads.map .data := by
  induction reads generalizing k es with
  | nil => cases h; rfl
  | cons b reads ih =>
    rw [copyReads, Prog.bind_run_of_some (gzwrite_run host .data b k)] at h
    split at h
    · cases h
    · rename_i hn
      simp only [ne_eq, not_not] at hn
      rw [hn, List.take_length] at h
      rcases hr : (copyReads host reads).run (k + 1) with ⟨r, es', k''⟩
      rw [hr] at h
      cases h
      rw [ih hr]
      rfl

/-- A file copied: what was read, and padding for the size in `st`. -/
theorem writeFileContents_eq_some {f : FileObs} {st : Stat}
    (h : (writeFileContents host f st).run k = ⟨some (), es, k'⟩) :
    ∃ bs : List (List Byte), es = bs.map .data ∧ bs.flatten = f.bytes ++ List.replicate (pad st.stSize) 0 := by
  rw [writeFileContents] at h
  split at h
  · cases h
  obtain ⟨_, es₁, _, es₂, h1, h2, rfl⟩ := Prog.bind_eq_some.mp h
  rw [copyReads_eq_some h1]
  split at h2
  · cases h2
  split at h2
  · obtain ⟨bs, rfl, hbs⟩ := writeZeros_eq_some h2
    exact ⟨f.reads ++ bs, by simp, by rw [List.flatten_append, hbs]; rfl⟩
  · rename_i hp
    cases h2
    simp only [ne_eq, not_not] at hp
    exact ⟨f.reads, by simp, by rw [hp]; simp [FileObs.bytes]⟩

/-- A header alone. -/
theorem writes_header {a : Archived} (hd : a.data = [])
    (h : (writeTarHeader host a.name a.st a.typeflag).run k = ⟨some (), es, k'⟩) : Writes host [a] es := by
  obtain ⟨hdr, ht, -, rfl, -⟩ := writeTarHeader_eq_some.mp h
  refine ⟨[⟨hdr.bytes, a.data⟩], .cons ⟨hdr, ht, rfl⟩ .nil, ?_⟩
  have hb : ([] : List (List Byte)).flatten = (⟨hdr.bytes, a.data⟩ : Member).data := hd.symm
  simpa using Renders.cons hb .nil

/-- A header and the contents of a file. -/
theorem writes_file {name : Str} {st : Stat} {f : FileObs} {k₁ : Nat} {es₁ es₂ : List Chunk}
    (h1 : (writeTarHeader host name st (ch '0')).run k = ⟨some (), es₁, k₁⟩)
    (h2 : (writeFileContents host f st).run k₁ = ⟨some (), es₂, k'⟩) :
    Writes host [⟨name, st, .file f.bytes⟩] (es₁ ++ es₂) := by
  obtain ⟨hdr, ht, -, rfl, -⟩ := writeTarHeader_eq_some.mp h1
  obtain ⟨bs, rfl, hbs⟩ := writeFileContents_eq_some h2
  refine ⟨[⟨hdr.bytes, f.bytes ++ List.replicate (pad st.stSize) 0⟩], .cons ⟨hdr, ht, rfl⟩ .nil, ?_⟩
  simpa using Renders.cons (m := ⟨hdr.bytes, _⟩) hbs .nil

theorem archiveUnopened_writes {relpath : Str} {r : Reopen}
    (h : (archiveUnopened host relpath r).run k = ⟨some (), es, k'⟩) : Writes host (r.archived relpath) es := by
  rw [archiveUnopened] at h
  rw [Reopen.archived]
  cases hst : r.st with
  | none =>
    rw [hst] at h
    cases h
  | some st =>
    rw [hst] at h
    obtain ⟨_, es₁, _, es₂, h1, h2, rfl⟩ := Prog.bind_eq_some.mp h
    split at h2
    · rename_i hr
      simpa only [hr, if_true] using writes_file h1 h2
    · rename_i hr
      cases h2
      simpa only [hr, if_false, Bool.false_eq_true, List.append_nil] using
        writes_header (a := ⟨relpath, st, .bare⟩) rfl h1

/-- What a directory that opens to `entries`, or does not, comes to. -/
theorem archiveDir_writes {root relpath : Str} {noDir : Option Reopen} {entries : Prog Nat Chunk Unit}
    {as : List Archived}
    (he : ∀ {es k'}, entries.run k = ⟨some (), es, k'⟩ → Writes host as es)
    (h : (archiveDir host root relpath noDir entries).run k = ⟨some (), es, k'⟩) :
    Writes host (dirArchived relpath as noDir) es := by
  unfold archiveDir at h
  split at h
  · cases h
  cases noDir with
  | some r => exact archiveUnopened_writes h
  | none => exact he h

/-- A loop over `readdir` that returns has written the members of what it met. -/
theorem archiveEntries_writes {root relpath : Str} {l : Listing}
    (h : (archiveEntries host root relpath l).run k = ⟨some (), es, k'⟩) :
    Writes host (l.archived relpath) es := by
  induction l generalizing relpath k k' es with
  | done => cases h; exact Writes.nil
  | entry d sub next ihs ihn =>
    rw [archiveEntries] at h
    rw [Listing.archived]
    by_cases hdot : d.dName = str "." ∨ d.dName = str ".."
    · rw [if_pos hdot] at h
      simpa only [hdot, if_true, List.nil_append] using ihn h
    rw [if_neg hdot] at h
    simp only [hdot, if_false]
    split at h
    · cases h
    cases hst : d.st with
    | none =>
      rw [hst] at h
      cases h
    | some st =>
      simp only [hst] at h
      by_cases hd : sIsDir st.stMode
      · rw [if_pos hd] at h
        obtain ⟨_, es₁, _, es₂, h1, h2, rfl⟩ := Prog.bind_eq_some.mp h
        obtain ⟨_, es₃, _, es₄, h3, h4, rfl⟩ := Prog.bind_eq_some.mp h2
        simp only [hd, if_true]
        rw [← List.singleton_append, List.append_assoc]
        exact (writes_header (a := ⟨_, st, .directory⟩) rfl h1).append ((archiveDir_writes ihs h3).append (ihn h4))
      · rw [if_neg hd] at h
        simp only [hd, if_false, Bool.false_eq_true]
        by_cases hr : sIsReg st.stMode
        · rw [if_pos hr] at h
          obtain ⟨_, es₁, _, es₂, h1, h2, rfl⟩ := Prog.bind_eq_some.mp h
          obtain ⟨_, es₃, _, es₄, h3, h4, rfl⟩ := Prog.bind_eq_some.mp h2
          simp only [hr, if_true]
          rw [← List.append_assoc]
          exact (writes_file h1 h3).append (ihn h4)
        · rw [if_neg hr] at h
          simpa only [hr, if_false, Bool.false_eq_true, List.nil_append] using ihn h

theorem archiveSource_writes {sourceDir : Str} {src : Source} {st : Stat} (hst : src.lstat = some st)
    (h : (archiveSource host sourceDir src st).run k = ⟨some (), es, k'⟩) :
    Writes host (src.archived sourceDir) es := by
  rw [archiveSource] at h
  simp only [Source.archived, hst]
  split at h
  · rename_i hd
    simp only [hd, if_true]
    exact archiveDir_writes archiveEntries_writes h
  · rename_i hd
    obtain ⟨_, es₁, _, es₂, h1, h2, rfl⟩ := Prog.bind_eq_some.mp h
    simpa only [hd, if_false, Bool.false_eq_true] using writes_file h1 h2

/-- An archive created with success: the members of what was met, then the
blocks of zeros. -/
theorem rrdArchiveCreate_writes {sourceDir : Str} {src : Source} {out : List Chunk}
    (h : rrdArchiveCreate host sourceDir src = (0, out)) :
    ∃ es, Writes host (src.archived sourceDir) es ∧
      ∃ bs : List (List Byte), out = es ++ bs.map .trailer ∧ bs.flatten = Ustar.trailer := by
  rw [rrdArchiveCreate] at h
  split at h
  · simp at h
  split at h
  · simp at h
  rename_i st hst
  split at h
  · simp at h
  rcases ho : (archiveSource host sourceDir src st).run 0 with ⟨_ | _, es, k⟩
  · simp only [ho, Option.isSome_none, Bool.false_eq_true, if_false] at h
    split at h <;> simp at h
  simp only [ho, Option.isSome_some, if_true] at h
  rcases hz₁ : (writeZeros host .trailer 512).run k with ⟨_ | _, es₁, k₁⟩
  · simp only [hz₁, Option.isSome_none, Bool.false_and, Bool.false_eq_true, if_false] at h
    split at h <;> simp at h
  rcases hz₂ : (writeZeros host .trailer 512).run k₁ with ⟨_ | _, es₂, k₂⟩
  · simp only [hz₁, hz₂, Option.isSome_none, Bool.and_false, Bool.false_eq_true, if_false] at h
    split at h <;> simp at h
  simp only [hz₁, hz₂, Option.isSome_some, Bool.and_self, if_true] at h
  split at h
  · simp at h
  obtain ⟨bs₁, rfl, hb₁⟩ := writeZeros_eq_some hz₁
  obtain ⟨bs₂, rfl, hb₂⟩ := writeZeros_eq_some hz₂
  refine ⟨es, archiveSource_writes hst ho, bs₁ ++ bs₂, ?_, ?_⟩
  · simpa [eq_comm] using h
  · rw [List.flatten_append, hb₁, hb₂, List.replicate_append_replicate, Ustar.trailer]

end RRD
