import RemoteDebugger.Proof.Archive.WellFormed
import RemoteDebugger.Spec.FileTree

/-!
# Untar undoes archiving

A header carries a valid magic and checksum (`IsHeader.valid`), so a reader
decodes the member of an entry to that entry (`IsMember.entry_eq`). Over a
directory tree at rest the walk archives the entries of the tree
(`Observes.archived_eq`), hence `read_archive`: the archive is created with
success and read back as the tree.
-/

namespace RRD

open Framework
open Framework.Ustar (Member)

variable {host : Host}

/-! ## Decoding a member -/

theorem length_blank (h : PosixHeader) : (Ustar.blank h.bytes).length = 512 := by
  have hb := length_bytes h
  rw [bytes_eq, List.length_append, List.length_append, length_front, length_val] at hb
  rw [blank_bytes, List.length_append, List.length_append, length_front, List.length_replicate]
  exact hb

theorem sum_le (b : List Byte) : Ustar.sum b ≤ 255 * b.length := by
  induction b with
  | nil => simp [Ustar.sum]
  | cons x b ih =>
    have := x.toNat_lt
    simp only [Ustar.sum, List.map_cons, List.sum_cons, List.length_cons] at ih ⊢
    omega

/-- The checksum field: six digits, a space and a NUL. -/
theorem parse_chksum {n : Nat} (h : n < 8 ^ 6) :
    Octal.parse (buffer 8 (Octal.print 6 n ++ [ch ' '])).toList = n := by
  have hp : Octal.print 6 n = Octal.digits 6 n := by rw [Octal.print, Octal.width_of_lt (by decide) h]
  have hl : (Octal.digits 6 n ++ [ch ' ']).length = 7 := by
    rw [List.length_append, Octal.length_digits]
    rfl
  rw [buffer_toList, hp, List.take_of_length_le hl.le, List.append_assoc,
    Octal.parse_append (Octal.isDigit_digits _ _) (by simp; decide), Octal.value_digits, Nat.mod_eq_of_lt h]

section

variable {name : Str} {st : Stat} {typeflag : Byte} {hdr : PosixHeader}

theorem IsHeader.valid (h : IsHeader name st typeflag hdr) : Ustar.Valid hdr.bytes := by
  constructor
  · rw [Ustar.magic, field_magic, h.magic]
  · have hs : Ustar.sum (Ustar.blank hdr.bytes) < 8 ^ 6 := by
      refine (sum_le _).trans_lt ?_
      rw [length_blank]
      decide
    rw [Ustar.chksum, field_chksum, h.chksum, Nat.mod_eq_of_lt (hs.trans (by decide))]
    exact parse_chksum hs

theorem permissions_lt (st : Stat) : permissions st < 8 ^ 7 := by
  refine lt_of_le_of_lt (b := 0o7777) ?_ (by decide)
  rw [permissions, UInt32.toNat_and]
  exact Nat.and_le_right

theorem IsHeader.mode_bytes (h : IsHeader name st typeflag hdr) : Ustar.mode hdr.bytes = permissions st := by
  rw [Ustar.mode, field_mode, h.mode, ← permissions]
  exact (Octal.parse_buffer_print 7 _).trans (Octal.kept_of_lt (by decide) (permissions_lt st))

end

/-- The contents of an entry. -/
def Archived.contents (a : Archived) : List Byte :=
  match a.body with
  | .file c => c
  | _ => []

/-- What a reader should find for an entry. -/
def Archived.entry (a : Archived) : Ustar.Entry := ⟨a.name, a.typeflag, permissions a.st, a.contents⟩

/-- An entry that is read back: its name fits and its data is that announced. -/
structure Archived.Good (a : Archived) : Prop where
  no_nul : 0 ∉ a.name
  short : a.name.length ≤ 99
  steady : a.Steady
  small : ∀ c, a.body = .file c → a.st.stSize.val < 8 ^ 11

/-- The contents of an entry are the data up to the size in its header. -/
theorem Archived.Good.take_data {a : Archived} (ha : a.Good) {hdr : PosixHeader}
    (hh : IsHeader a.name a.st a.typeflag hdr) : a.data.take (Ustar.size hdr.bytes) = a.contents := by
  rw [hh.size_bytes, Archived.data, Archived.contents]
  rcases hb : a.body with _ | c | _
  · exact List.take_nil
  · have hst := ha.steady
    have hlt := ha.small c hb
    simp only [Archived.Steady, hb, hlt, if_true] at hst
    simp only [Archived.typeflag, hb, file_ne_dir, if_false, Octal.kept_of_lt (by decide : 0 < 11) hlt]
    rw [← hst, List.take_left]
  · exact List.take_nil

/-- The member of an entry is decoded to that entry. -/
theorem Archived.IsMember.entry_eq {a : Archived} {m : Member} (h : a.IsMember host m) (ha : a.Good) :
    m.entry = some a.entry := by
  obtain ⟨hdr, ht, rfl⟩ := h
  have hh := tarHeader_isHeader ht
  have hn : Ustar.name hdr.bytes = a.name := by
    rw [hh.name_short ha.no_nul (ha.short.trans (by decide)), List.take_of_length_le ha.short]
  have hf : Ustar.typeflag hdr.bytes = a.typeflag := by rw [getD_typeflag, hh.typeflag]
  simp only [Member.entry, hh.valid, if_true, hn, hf, hh.mode_bytes, ha.take_data hh, Archived.entry]

theorem mapM_entry {as : List Archived} {ms : List Member} (h : List.Forall₂ (Archived.IsMember host) as ms)
    (ha : ∀ a ∈ as, a.Good) : ms.mapM Member.entry = some (as.map Archived.entry) := by
  induction h with
  | nil => rfl
  | cons hm _ ih =>
    obtain ⟨h1, h2⟩ := List.forall_mem_cons.mp ha
    simp only [List.mapM_cons, hm.entry_eq h1, ih h2, List.map_cons]
    rfl

/-- An archive of good entries is read back. -/
theorem Writes.read_eq {as : List Archived} {es : List Chunk} {bs : List (List Byte)} (h : Writes host as es)
    (ha : ∀ a ∈ as, a.Good) (hb : bs.flatten = Ustar.trailer) :
    Ustar.read (stream (es ++ bs.map .trailer)) = some (as.map Archived.entry) := by
  obtain ⟨ms, hm, hr⟩ := h
  have hx := (forall_exact_iff hm).mpr fun a h => (ha a h).steady
  rw [Ustar.read, hr.stream_trailer hb, Ustar.members_flatMap hx (forall_ne_zero hm)]
  exact mapM_entry hm ha

/-! ## A walk over a tree at rest -/

/-- Every entry has a name and a size that a header can hold. -/
def Fits (es : List Ustar.Entry) : Prop := ∀ e ∈ es, e.name.length ≤ 99 ∧ e.data.length < 8 ^ 11

instance (es : List Ustar.Entry) : Decidable (Fits es) := inferInstanceAs (Decidable (∀ e ∈ es, _))

theorem childName_eq {relpath name : Str} (h : (join relpath name).length ≤ 99) :
    childName relpath name = join relpath name := by
  rw [childName, snprintf]
  exact List.take_of_length_le (h.trans (by decide))

theorem dirname_eq {relname : Str} (h : (relname ++ [ch '/']).length ≤ 99) :
    snprintf 8200 (relname ++ [ch '/']) = relname ++ [ch '/'] :=
  List.take_of_length_le (h.trans (by decide))

/-- A directory is not a regular file. -/
theorem not_reg_of_dir {m : UInt32} (h : sIsDir m = true) : sIsReg m = false := by
  simp only [sIsReg, sIsDir, beq_iff_eq, beq_eq_false_iff_ne] at h ⊢
  rw [h]
  decide

theorem RegularFile.notDir (f : RegularFile) : sIsDir f.st.stMode = false := by
  cases h : sIsDir f.st.stMode with
  | false => rfl
  | true => exact absurd (f.isReg.symm.trans (not_reg_of_dir h)) (by decide)

theorem Archived.good_file {name : Str} {f : RegularFile} (h0 : 0 ∉ name) (hn : name.length ≤ 99)
    (hs : f.contents.length < 8 ^ 11) : Archived.Good ⟨name, f.st, .file f.contents⟩ where
  no_nul := h0
  short := hn
  steady := by simp only [Archived.Steady, f.size_eq, hs, if_true]
  small := fun _ _ => f.size_eq ▸ hs

theorem Archived.good_directory {name : Str} {st : Stat} (h0 : 0 ∉ name) (hn : name.length ≤ 99) :
    Archived.Good ⟨name, st, .directory⟩ := ⟨h0, hn, trivial, fun _ h => by cases h⟩

/-- The walk over a tree archives its entries, and each is good. -/
theorem Observes.archived_eq {t : Tree} {l : Listing} (h : Observes t l) {relpath : Str} (h0 : 0 ∉ relpath)
    (hf : Fits (t.entries relpath)) :
    (l.archived relpath).map Archived.entry = t.entries relpath ∧ ∀ a ∈ l.archived relpath, a.Good := by
  have hz : ∀ e ∈ t.entries relpath, 0 ∉ e.name := fun e he => no_nul_of_mem_entries h0 he
  induction h generalizing relpath with
  | done => exact ⟨rfl, by simp [Listing.archived]⟩
  | dot hd _ ih =>
    rw [Listing.archived]
    simpa only [hd, if_true, List.nil_append] using ih h0 hf hz
  | @file n f t d sub next hn ha hst ho hm he hc h ih =>
    simp only [Tree.entries, Fits, List.forall_mem_cons] at hf hz
    obtain ⟨h1, h2⟩ := ih h0 hf.2 hz.2
    have hc' := childName_eq hf.1.1
    simp only [Listing.archived, hn, n.not_dot, hst, f.notDir, f.isReg, hc, hc', if_true, if_false,
      Bool.false_eq_true, List.singleton_append, List.map_cons, Tree.entries, h1, List.forall_mem_cons]
    exact ⟨rfl, Archived.good_file hz.1 hf.1.1 hf.1.2, h2⟩
  | @dir n dd ts t d sub next hn ha hst ho _ _ ihs ihn =>
    simp only [Tree.entries, Fits, List.forall_mem_cons, List.forall_mem_append] at hf hz
    have hd := dirname_eq hf.1.1
    have hc' : childName relpath n.name = join relpath n.name := by
      refine childName_eq (le_trans ?_ hf.1.1)
      rw [List.length_append]
      exact Nat.le_add_right _ _
    have h0' : 0 ∉ join relpath n.name := fun hm => hz.1 (List.mem_append_left _ hm)
    obtain ⟨h1, h2⟩ := ihs h0' hf.2.1 hz.2.1
    obtain ⟨h3, h4⟩ := ihn h0 hf.2.2 hz.2.2
    simp only [Listing.archived, hn, n.not_dot, hst, dd.isDir, ho, hc', hd, dirArchived, if_true, if_false,
      List.cons_append, List.map_cons, List.map_append, Tree.entries, h1, h3, List.forall_mem_cons,
      List.forall_mem_append]
    exact ⟨rfl, Archived.good_directory hz.1 hf.1.1, h2, h4⟩
  | @special n s t d sub next hn ha hst _ ih =>
    simpa only [Listing.archived, hn, n.not_dot, hst, s.notDir, s.notReg, if_false, Bool.false_eq_true,
      List.nil_append, Tree.entries] using ih h0 hf hz

/-- Nothing fails in a walk over a tree at rest whose names are short. -/
theorem Observes.succeeds {t : Tree} {l : Listing} (h : Observes t l) {root relpath : Str}
    (hr : root.length < 4096) (hf : Fits (t.entries relpath)) : l.Succeeds root relpath := by
  induction h generalizing relpath with
  | done => trivial
  | dot hd _ ih => exact ⟨or_assoc.mp (.inl hd), ih hf⟩
  | @file n f t d sub next hn ha hst ho hm he hc h ih =>
    simp only [Tree.entries, Fits, List.forall_mem_cons] at hf
    refine ⟨.inr (.inr ⟨ha, f.st, hst, fun hd => ?_, fun _ => ⟨?_, ho, hm, he⟩⟩), ih hf.2⟩
    · exact absurd (f.notDir.symm.trans hd) (by decide)
    · rw [hn, childName_eq hf.1.1]
      exact hf.1.1.trans (by decide)
  | @dir n dd ts t d sub next hn ha hst ho _ _ ihs ihn =>
    simp only [Tree.entries, Fits, List.forall_mem_cons, List.forall_mem_append] at hf
    have hl : (join relpath n.name).length + 1 ≤ 99 := by simpa using hf.1.1
    have hc' : childName relpath d.dName = join relpath n.name := by
      rw [hn, childName_eq (by omega)]
    have hp : pathFits root (join relpath n.name) = true := by
      simp only [pathFits, decide_eq_true_eq]
      omega
    refine ⟨.inr (.inr ⟨ha, dd.st, hst, fun _ => ⟨?_, ?_⟩, fun h => ?_⟩), ihn hf.2.2⟩
    · rw [hc', dirname_eq hf.1.1]
      exact hf.1.1.trans (by decide)
    · simp only [DirSucceeds, hc', ho]
      exact ⟨hp, ihs hf.2.1⟩
    · exact absurd ((not_reg_of_dir dd.isDir).symm.trans h) (by decide)
  | @special n s t d sub next hn ha hst _ ih =>
    refine ⟨.inr (.inr ⟨ha, s.st, hst, fun hd => ?_, fun h => ?_⟩), ih hf⟩
    · exact absurd (s.notDir.symm.trans hd) (by decide)
    · exact absurd (s.notReg.symm.trans h) (by decide)

/-- A directory tree at rest, with short names, is archived with success, and
its archive is read back as the tree. -/
theorem read_archive (hh : host.Takes) {sourceDir : Str} (hr : sourceDir.length < 4096) {d : Directory} {t : Tree}
    (ht : t.Distinct) (hf : Fits (t.entries [])) {src : Source} (hs : src.Shows d t) :
    ∃ out, rrdArchiveCreate host sourceDir src = (0, out) ∧
      Ustar.read (stream out) = some (t.entries []) ∧ InOrder (t.entries []) := by
  have hp : pathFits sourceDir [] = true := by
    simp only [pathFits, List.length_nil, decide_eq_true_eq]
    omega
  have hd : DirSucceeds sourceDir [] src.noDir (src.listing.Succeeds sourceDir []) := by
    simp only [DirSucceeds, hs.opendir]
    exact ⟨hp, hs.listing.succeeds hr hf⟩
  have hsize : ∀ out, Ustar.trailer <:+ stream out → (src.stat out).getD 0 ≠ 0 := fun out hout => by
    have := hout.length_le
    rw [Ustar.trailer, List.length_replicate] at this
    simp only [hs.stat, Option.getD_some]
    exact Nat.pos_iff_ne_zero.mp (Nat.lt_of_lt_of_le (by decide) this)
  obtain ⟨out, h⟩ := rrdArchiveCreate_total hh hs.gzopen hs.lstat d.isDir hd hsize
  obtain ⟨es, hw, bs, rfl, hb⟩ := rrdArchiveCreate_writes h
  obtain ⟨he, hg⟩ := hs.listing.archived_eq List.not_mem_nil hf
  have ha : src.archived sourceDir = src.listing.archived [] := by
    simp only [Source.archived, hs.lstat, d.isDir, hs.opendir, dirArchived, if_true]
  rw [ha] at hw
  exact ⟨_, h, (hw.read_eq hg hb).trans (congrArg some he), entries_inOrder ht []⟩

/-- A directory that holds a file, a link to it and an empty directory. -/
def Tree.sample : Tree :=
  .file ⟨str "outputs.txt", by decide, by decide, by decide, by decide⟩ ⟨Stat.plain, [ch 'x'], by decide, rfl⟩
    (.special ⟨str "latest", by decide, by decide, by decide, by decide⟩
      ⟨⟨0o120777, 0, 0, 11, 0⟩, by decide, by decide⟩
      (.dir ⟨str "logs", by decide, by decide, by decide, by decide⟩ ⟨⟨0o040755, 0, 0, 4096, 0⟩, by decide⟩
        .nil .nil))

theorem read_archive_sample : ∃ src out, rrdArchiveCreate Host.plain (str "/tmp/rrd") src = (0, out) ∧
    Ustar.read (stream out) =
      some [⟨str "outputs.txt", ch '0', 0o644, [ch 'x']⟩, ⟨str "logs/", ch '5', 0o755, []⟩] := by
  let src : Source := ⟨true, some ⟨0o040755, 0, 0, 4096, 0⟩, none, Tree.sample.listing, ⟨true, true, [], false⟩,
    fun out => some (out.flatMap Chunk.bytes).length⟩
  have hs : src.Shows ⟨⟨0o040755, 0, 0, 4096, 0⟩, by decide⟩ Tree.sample :=
    ⟨rfl, rfl, rfl, observes_listing _, fun _ => rfl⟩
  have hh : Host.plain.Takes := fun _ _ => Nat.le_refl _
  have ht : Tree.sample.Distinct := ⟨by decide, by decide, by decide, trivial, trivial⟩
  obtain ⟨out, h, hread, -⟩ := read_archive hh (by decide : (str "/tmp/rrd").length < 4096) ht (by decide) hs
  exact ⟨src, out, h, hread⟩

end RRD
