import RemoteDebugger.Proof.Archive.Stream

/-!
# When the archive is well formed

A walk in which nothing fails succeeds (`rrdArchiveCreate_total`), and
success says only that nothing was reported: the stream is that of a tar
archive exactly when each entry's data takes the blocks its size field states
(`Steady`, `rrdArchiveCreate_wellFormed_iff`).
-/

namespace RRD

open Framework
open Framework.Ustar (Member)

variable {host : Host} {es : List Chunk}

/-! ## When the stream is well formed -/

/-- The bytes read and their padding fill the blocks that the size field of the
header states; what has no data states none. -/
def Archived.Steady (a : Archived) : Prop :=
  match a.body with
  | .directory => True
  | .file c =>
    if a.st.stSize.val < 8 ^ 11 then c.length = a.st.stSize
    else c.length + pad a.st.stSize = 512 * Ustar.blocks (Octal.kept 11 a.st.stSize)
  | .bare => a.st.stSize.val = 0

theorem blocks_pad (n : Nat) : n + pad n = 512 * Ustar.blocks n := by
  rw [pad, Ustar.blocks]
  omega

theorem blocks_eq_zero {n : Nat} : Ustar.blocks n = 0 ↔ n = 0 := by
  rw [Ustar.blocks]
  omega

/-- What a reader finds in the size field. -/
theorem IsHeader.size_bytes {name : Str} {st : Stat} {typeflag : Byte} {hdr : PosixHeader}
    (h : IsHeader name st typeflag hdr) :
    Ustar.size hdr.bytes = Octal.kept 11 (if typeflag = ch '5' then 0 else st.stSize.val) := by
  rw [Ustar.size, field_size, h.size]
  exact Octal.parse_buffer_print 11 _

/-- A header has a byte other than zero. -/
theorem IsHeader.ne_zero {name : Str} {st : Stat} {typeflag : Byte} {hdr : PosixHeader}
    (h : IsHeader name st typeflag hdr) : ∃ b ∈ hdr.bytes, b ≠ 0 := by
  refine ⟨ch 'u', ?_, by decide⟩
  have hm : ch 'u' ∈ Ustar.field hdr.bytes 257 8 := by
    rw [field_magic, h.magic]
    decide
  exact List.mem_of_mem_drop (List.mem_of_mem_take hm)

/-- The member of an entry has the blocks its header states when the entry is steady. -/
theorem Archived.IsMember.exact_iff {a : Archived} {m : Member} (h : a.IsMember host m) : m.Exact ↔ a.Steady := by
  obtain ⟨hdr, ht, rfl⟩ := h
  have hx : Member.Exact ⟨hdr.bytes, a.data⟩ ↔ a.data.length = 512 * Ustar.blocks (Ustar.size hdr.bytes) :=
    ⟨fun e => e.data, fun e => ⟨length_bytes hdr, e⟩⟩
  rw [hx, (tarHeader_isHeader ht).size_bytes, Archived.Steady, Archived.data, Archived.typeflag]
  cases a.body with
  | directory => simp [Octal.kept_of_lt, Ustar.blocks]
  | file c =>
    simp only [(by decide : ch '0' ≠ ch '5'), if_false, List.length_append, List.length_replicate]
    split
    · rename_i hlt
      rw [Octal.kept_of_lt (by decide) hlt, ← blocks_pad]
      omega
    · rfl
  | bare =>
    simp only [(by decide : ch '0' ≠ ch '5'), if_false, List.length_nil]
    constructor
    · intro e
      by_contra h0
      have hk := Octal.kept_pos (w := 11) (by decide) (Nat.pos_of_ne_zero h0)
      have := mt blocks_eq_zero.mp (Nat.pos_iff_ne_zero.mp hk)
      omega
    · intro e
      rw [e]
      rfl

theorem forall_exact_iff {as : List Archived} {ms : List Member}
    (h : List.Forall₂ (Archived.IsMember host) as ms) : (∀ m ∈ ms, m.Exact) ↔ ∀ a ∈ as, a.Steady := by
  induction h with
  | nil => simp
  | cons hm _ ih => simp only [List.forall_mem_cons, ih, hm.exact_iff]

theorem forall_ne_zero {as : List Archived} {ms : List Member}
    (h : List.Forall₂ (Archived.IsMember host) as ms) : ∀ m ∈ ms, ∃ b ∈ m.header, b ≠ 0 := by
  induction h with
  | nil => simp
  | cons hm _ ih =>
    obtain ⟨hdr, ht, rfl⟩ := hm
    exact List.forall_mem_cons.mpr ⟨(tarHeader_isHeader ht).ne_zero, ih⟩

theorem written_trailer (bs : List (List Byte)) :
    dataAfter (bs.map .trailer) = [] ∧ written (bs.map .trailer) = [] := by
  induction bs with
  | nil => exact ⟨rfl, rfl⟩
  | cons b bs ih => exact ⟨rfl, ih.2⟩

theorem stream_trailer (bs : List (List Byte)) : stream (bs.map .trailer) = bs.flatten := by
  rw [stream, List.flatMap_map]
  exact List.flatMap_id

theorem Renders.stream_trailer {ms : List Member} {bs : List (List Byte)} (h : Renders es ms)
    (hb : bs.flatten = Ustar.trailer) :
    stream (es ++ bs.map .trailer) = ms.flatMap Member.bytes ++ Ustar.trailer := by
  rw [stream_append, h.stream_eq, RRD.stream_trailer, hb]

/-- Members followed by the blocks of zeros are well formed when each has the
blocks its header states. -/
theorem Writes.wellFormed_iff {as : List Archived} {bs : List (List Byte)} (h : Writes host as es)
    (hb : bs.flatten = Ustar.trailer) : WellFormed (es ++ bs.map .trailer) ↔ ∀ a ∈ as, a.Steady := by
  obtain ⟨ms, hm, hr⟩ := h
  have hs := hr.stream_trailer hb
  have hw : written (es ++ bs.map .trailer) = ms := by
    obtain ⟨hd, hn⟩ := written_trailer bs
    rw [(hr.written_append hd).2, hn, List.append_nil]
  rw [← forall_exact_iff hm]
  constructor
  · intro hwf
    exact Ustar.members_spec (hw ▸ hwf.members)
  · intro hx
    refine ⟨?_, ?_, ?_⟩
    · rw [hs, hw, Ustar.members_flatMap hx (forall_ne_zero hm)]
    · have := (Ustar.length_flatMap_bytes hx).2
      rw [hs, List.length_append, Ustar.trailer, List.length_replicate]
      omega
    · rw [hs]
      exact List.suffix_append _ _

/-! ## Walks in which nothing fails -/

/-- `gzwrite` takes all it is given. -/
def Host.Takes (host : Host) : Prop := ∀ k n, n ≤ host.gzwrite k n

/-- The file opens, its buffer is allocated, and it is read to its end. -/
structure FileObs.Succeeds (f : FileObs) : Prop where
  opens : f.opens = true
  alloc : f.alloc = true
  error : f.error = false

def Reopen.Succeeds (relpath : Str) (r : Reopen) : Prop :=
  ∃ st, r.st = some st ∧ relpath.length ≤ 255 ∧ (sIsReg st.stMode → r.file.Succeeds)

/-- What a directory whose loop succeeds if `entries` holds comes to. -/
def DirSucceeds (root relpath : Str) (noDir : Option Reopen) (entries : Prop) : Prop :=
  pathFits root relpath ∧ match noDir with
    | some r => r.Succeeds relpath
    | none => entries

def Listing.Succeeds (root relpath : Str) : Listing → Prop
  | .done => True
  | .entry d sub next =>
    let relname := childName relpath d.dName
    (d.dName = str "." ∨ d.dName = str ".." ∨ d.alloc = true ∧ ∃ st, d.st = some st ∧
      (sIsDir st.stMode → (snprintf 8200 (relname ++ [ch '/'])).length ≤ 255 ∧
        DirSucceeds root relname d.noDir (sub.Succeeds root relname)) ∧
      (sIsReg st.stMode → relname.length ≤ 255 ∧ d.file.Succeeds)) ∧ next.Succeeds root relpath

section

variable (hh : host.Takes)
include hh

theorem writeBlock_total (chunk : List Byte → Chunk) (b : List Byte) : (writeBlock host chunk b).Total := fun k => by
  rw [writeBlock_eq_some.mpr ⟨hh k _, rfl, rfl⟩]
  rfl

theorem writeZeros_loop_total (chunk : List Byte → Chunk) (fuel size : Nat) :
    (writeZeros.loop host chunk fuel size).Total := by
  induction fuel generalizing size with
  | zero => exact .pure ()
  | succ fuel ih =>
    rw [writeZeros.loop]
    split
    · exact .pure ()
    · exact (writeBlock_total hh chunk _).bind fun _ => ih _

theorem writeZeros_total (chunk : List Byte → Chunk) (size : Nat) : (writeZeros host chunk size).Total :=
  writeZeros_loop_total hh chunk size size

theorem writeTarHeader_total {name : Str} (hn : name.length ≤ 255) (st : Stat) (typeflag : Byte) :
    (writeTarHeader host name st typeflag).Total := fun k => by
  obtain ⟨hdr, ht⟩ := tarHeader_isSome host st typeflag hn
  rw [writeTarHeader_eq_some.mpr ⟨hdr, ht, hh k _, rfl, rfl⟩]
  rfl

theorem copyReads_total (reads : List (List Byte)) : (copyReads host reads).Total := by
  induction reads with
  | nil => exact .pure ()
  | cons b reads ih =>
    intro k
    rw [copyReads, Prog.bind_run_of_some (gzwrite_run host .data b k), min_eq_right (hh k _),
      if_neg (by simp)]
    exact ih _

theorem writeFileContents_total {f : FileObs} (hf : f.Succeeds) (st : Stat) :
    (writeFileContents host f st).Total := by
  simp only [writeFileContents, hf.opens, hf.alloc, hf.error, Bool.not_true, Bool.or_self, Bool.false_eq_true,
    if_false]
  refine (copyReads_total hh _).bind fun _ => ?_
  split
  · exact writeZeros_total hh _ _
  · exact .pure ()

theorem archiveUnopened_total {relpath : Str} {r : Reopen} (hr : r.Succeeds relpath) :
    (archiveUnopened host relpath r).Total := by
  obtain ⟨st, hst, hl, hf⟩ := hr
  simp only [archiveUnopened, hst]
  refine (writeTarHeader_total hh hl st _).bind fun _ => ?_
  split
  · exact writeFileContents_total hh (hf ‹_›) st
  · exact .pure ()

theorem archiveDir_total {root relpath : Str} {noDir : Option Reopen} {entries : Prog Nat Chunk Unit} {p : Prop}
    (he : p → entries.Total) (h : DirSucceeds root relpath noDir p) :
    (archiveDir host root relpath noDir entries).Total := by
  obtain ⟨hp, h⟩ := h
  simp only [archiveDir, hp, Bool.not_true, Bool.false_eq_true, if_false]
  cases noDir with
  | some r => exact archiveUnopened_total hh h
  | none => exact he h

theorem archiveEntries_total {root relpath : Str} {l : Listing} (h : l.Succeeds root relpath) :
    (archiveEntries host root relpath l).Total := by
  induction l generalizing relpath with
  | done => exact .pure ()
  | entry d sub next ihs ihn =>
    obtain ⟨hd, hn⟩ := h
    rw [archiveEntries]
    by_cases hdot : d.dName = str "." ∨ d.dName = str ".."
    · rw [if_pos hdot]
      exact ihn hn
    obtain ⟨ha, st, hst, hdir, hreg⟩ := (or_assoc.mpr hd).resolve_left hdot
    simp only [if_neg hdot, ha, hst, Bool.not_true, Bool.false_eq_true, if_false]
    split
    · obtain ⟨hl, hs⟩ := hdir ‹_›
      exact (writeTarHeader_total hh hl st _).bind fun _ =>
        (archiveDir_total hh ihs hs).bind fun _ => ihn hn
    split
    · obtain ⟨hl, hf⟩ := hreg ‹_›
      exact (writeTarHeader_total hh hl st _).bind fun _ =>
        (writeFileContents_total hh hf st).bind fun _ => ihn hn
    · exact ihn hn

/-- A directory in which nothing fails is archived with success, if the blocks
of zeros at least give the archive a size. -/
theorem rrdArchiveCreate_total {sourceDir : Str} {src : Source} {st : Stat} (hg : src.gzopen = true)
    (hst : src.lstat = some st) (hd : sIsDir st.stMode)
    (h : DirSucceeds sourceDir [] src.noDir (src.listing.Succeeds sourceDir []))
    (hsize : ∀ out, Ustar.trailer <:+ stream out → (src.stat out).getD 0 ≠ 0) :
    ∃ out, rrdArchiveCreate host sourceDir src = (0, out) := by
  have ht : (archiveSource host sourceDir src st).Total := by
    simp only [archiveSource, hd, if_true]
    exact archiveDir_total hh (archiveEntries_total hh) h
  obtain ⟨_, es, k, ho⟩ := ht.exists_run 0
  obtain ⟨_, es₁, k₁, h₁⟩ := (writeZeros_total hh .trailer 512).exists_run k
  obtain ⟨_, es₂, k₂, h₂⟩ := (writeZeros_total hh .trailer 512).exists_run k₁
  have hz : (src.stat (es ++ es₁ ++ es₂)).getD 0 ≠ 0 := by
    obtain ⟨bs₁, rfl, hb₁⟩ := writeZeros_eq_some h₁
    obtain ⟨bs₂, rfl, hb₂⟩ := writeZeros_eq_some h₂
    refine hsize _ ⟨stream es, ?_⟩
    rw [List.append_assoc, ← List.map_append, stream_append, stream_trailer, List.flatten_append, hb₁, hb₂,
      List.replicate_append_replicate, Ustar.trailer]
  refine ⟨es ++ es₁ ++ es₂, ?_⟩
  simp only [rrdArchiveCreate, hg, hst, hd, ho, h₁, h₂, hz, Bool.not_true, Bool.false_and, Bool.and_self,
    Option.isSome_some, Bool.false_eq_true, if_true, if_false]

end

/-- An archive created with success is well formed exactly when every entry
gave the data that its header announces. -/
theorem rrdArchiveCreate_wellFormed_iff {sourceDir : Str} {src : Source} {out : List Chunk}
    (h : rrdArchiveCreate host sourceDir src = (0, out)) :
    WellFormed out ↔ ∀ a ∈ src.archived sourceDir, a.Steady := by
  obtain ⟨es, hw, bs, rfl, hb⟩ := rrdArchiveCreate_writes h
  exact hw.wellFormed_iff hb

/-- A file that `lstat` finds with one byte, read when its writer has made it `n` bytes. -/
def Source.growing (n : Nat) : Source where
  gzopen := true
  lstat := some ⟨0o040755, 0, 0, 4096, 0⟩
  noDir := none
  listing := .entry ⟨str "top.txt", true, some Stat.plain, ⟨true, true, [List.replicate n 0], false⟩, none⟩ .done .done
  file := ⟨true, true, [], false⟩
  stat out := some (stream out).length.succ

theorem Source.growing_archived (n : Nat) (sourceDir : Str) :
    (Source.growing n).archived sourceDir = [⟨str "top.txt", Stat.plain, .file (List.replicate n 0)⟩] := by
  have hd : sIsDir 0o040755 = true := by decide
  have hn : ¬(str "top.txt" = str "." ∨ str "top.txt" = str "..") := by decide
  have hf : sIsDir Stat.plain.stMode = false ∧ sIsReg Stat.plain.stMode = true := by decide
  have hc : childName [] (str "top.txt") = str "top.txt" := by decide
  simp only [Source.archived, Source.growing, hd, dirArchived, Listing.archived, hn, hf, hc, if_true, if_false,
    Bool.false_eq_true, FileObs.bytes, List.flatten_singleton, List.append_nil]

theorem Source.growing_create (n : Nat) :
    ∃ out, rrdArchiveCreate Host.plain (str "/tmp/rrd") (Source.growing n) = (0, out) := by
  have hf : (childName [] (str "top.txt")).length ≤ 255 := by decide
  have hd : ¬ sIsDir Stat.plain.stMode = true := by decide
  refine rrdArchiveCreate_total (fun _ _ => Nat.le_refl _) rfl rfl (by decide) ⟨by decide, ?_⟩
    fun _ _ => by simp [Source.growing]
  exact ⟨.inr (.inr ⟨rfl, _, rfl, fun h => absurd h hd, fun _ => ⟨hf, rfl, rfl, rfl⟩⟩), trivial⟩

theorem Source.growing_steady (n : Nat) (sourceDir : Str) :
    (∀ a ∈ (Source.growing n).archived sourceDir, a.Steady) ↔ n = 1 := by
  have h1 : Stat.plain.stSize.val = 1 := rfl
  rw [Source.growing_archived, List.forall_mem_singleton, Archived.Steady]
  simp only [h1, List.length_replicate, (by decide : 1 < 8 ^ 11), if_true]

/-- A file that keeps its size is archived well. -/
theorem rrdArchiveCreate_wellFormed_iff_steady : ∃ out,
    rrdArchiveCreate Host.plain (str "/tmp/rrd") (Source.growing 1) = (0, out) ∧ WellFormed out := by
  obtain ⟨out, h⟩ := Source.growing_create 1
  exact ⟨out, h, (rrdArchiveCreate_wellFormed_iff h).mpr ((Source.growing_steady 1 _).mpr rfl)⟩

/-- A file that has grown to 600 bytes since its `lstat` gets three blocks under
a header that announces one, and the archive is created with success. -/
theorem growing_file_not_wellFormed : ∃ out,
    rrdArchiveCreate Host.plain (str "/tmp/rrd") (Source.growing 600) = (0, out) ∧ ¬ WellFormed out := by
  obtain ⟨out, h⟩ := Source.growing_create 600
  obtain ⟨es, hw, bs, rfl, hb⟩ := rrdArchiveCreate_writes h
  refine ⟨_, h, fun hwf => ?_⟩
  exact absurd ((Source.growing_steady 600 _).mp ((hw.wellFormed_iff hb).mp hwf)) (by decide)

end RRD
