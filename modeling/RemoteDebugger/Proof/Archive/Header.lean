import RemoteDebugger.Framework.Ustar
import RemoteDebugger.Impl.Archive

/-!
# Tar headers

The bytes of a header at the offsets of a ustar reader are its fields
(`field_name` … `field_pfx`), so a header decodes to what `tarHeader` put in
them: the name is kept exactly up to 99 bytes (`name_tar_header_iff`), a longer
one always loses a byte (`name_tar_header_le`, `name_tar_header_long`).
-/

namespace RRD

open Framework

/-! ## Writing a block -/

section

variable {host : Host} {chunk : List Byte → Chunk} {b : List Byte} {k k' : Nat} {es : List Chunk}

theorem gzwrite_run (host : Host) (chunk : List Byte → Chunk) (b : List Byte) (k : Nat) :
    (gzwrite host chunk b).run k = ⟨some (min (host.gzwrite k b.length) b.length),
      [chunk (b.take (min (host.gzwrite k b.length) b.length))], k + 1⟩ := rfl

/-- `writeBlock` returns when `gzwrite` takes the whole block. -/
theorem writeBlock_eq_some :
    (writeBlock host chunk b).run k = ⟨some (), es, k'⟩ ↔
      b.length ≤ host.gzwrite k b.length ∧ es = [chunk b] ∧ k' = k + 1 := by
  rw [writeBlock, Prog.bind_run_of_some (gzwrite_run host chunk b k)]
  by_cases h : b.length ≤ host.gzwrite k b.length
  · rw [Nat.min_eq_right h, if_neg (not_not.mpr rfl)]
    simp [h, eq_comm]
  · have hne : min (host.gzwrite k b.length) b.length ≠ b.length := by omega
    rw [if_pos hne]
    simp [h]

end

/-! ## The fields of a header -/

theorem length_val {n : Nat} (v : List.Vector Byte n) : v.1.length = n := v.2

theorem length_bytes (h : PosixHeader) : h.bytes.length = 512 := by
  simp only [PosixHeader.bytes, List.length_append, length_val, List.length_singleton]

theorem field_of_split {h a b c : List Byte} {i n : Nat} (e : h = a ++ b ++ c) (ha : a.length = i)
    (hb : b.length = n) : Ustar.field h i n = b := by
  rw [Ustar.field, e, List.append_assoc, ← ha, List.drop_left, ← hb, List.take_left]

section

variable (h : PosixHeader)

theorem field_name : Ustar.field h.bytes 0 100 = h.name.1 :=
  field_of_split (a := []) (by simp only [PosixHeader.bytes, List.nil_append, List.append_assoc]; rfl) rfl h.name.2

theorem field_mode : Ustar.field h.bytes 100 8 = h.mode.1 :=
  field_of_split (a := h.name.1) (by simp only [PosixHeader.bytes, List.append_assoc]; rfl) h.name.2 h.mode.2

theorem field_size : Ustar.field h.bytes 124 12 = h.size.1 :=
  field_of_split (a := h.name.1 ++ h.mode.1 ++ h.uid.1 ++ h.gid.1)
    (by simp only [PosixHeader.bytes, List.append_assoc]; rfl)
    (by simp only [List.length_append, length_val]) h.size.2

/-- The fields before the checksum. -/
def PosixHeader.front : List Byte := h.name.1 ++ h.mode.1 ++ h.uid.1 ++ h.gid.1 ++ h.size.1 ++ h.mtime.1

/-- The fields after the checksum. -/
def PosixHeader.back : List Byte :=
  h.typeflag :: (h.linkname.1 ++ h.magic.1 ++ h.version.1 ++ h.uname.1 ++ h.gname.1 ++ h.devmajor.1 ++
    h.devminor.1 ++ h.pfx.1 ++ h.padding.1)

theorem bytes_eq : h.bytes = h.front ++ h.chksum.1 ++ h.back := by
  simp only [PosixHeader.bytes, PosixHeader.front, PosixHeader.back, List.append_assoc, List.cons_append,
    List.nil_append]

theorem length_front : h.front.length = 148 := by
  simp only [PosixHeader.front, List.length_append, length_val]

theorem field_chksum : Ustar.field h.bytes 148 8 = h.chksum.1 :=
  field_of_split (bytes_eq h) (length_front h) h.chksum.2

theorem getD_typeflag : Ustar.typeflag h.bytes = h.typeflag := by
  have hlen : (h.front ++ h.chksum.1).length = 156 := by rw [List.length_append, length_front, length_val]
  rw [Ustar.typeflag, bytes_eq, List.getD_eq_getElem?_getD, List.getElem?_append_right (Nat.le_of_eq hlen), hlen]
  rfl

theorem field_magic : Ustar.field h.bytes 257 8 = h.magic.1 ++ h.version.1 :=
  field_of_split (a := h.front ++ h.chksum.1 ++ [h.typeflag] ++ h.linkname.1)
    (by simp only [bytes_eq, PosixHeader.back, List.append_assoc, List.singleton_append]; rfl)
    (by simp only [List.length_append, length_front, length_val, List.length_singleton])
    (by simp only [List.length_append, length_val])

theorem field_pfx : Ustar.field h.bytes 345 155 = h.pfx.1 :=
  field_of_split (a := h.front ++ h.chksum.1 ++ [h.typeflag] ++ h.linkname.1 ++ h.magic.1 ++ h.version.1 ++
      h.uname.1 ++ h.gname.1 ++ h.devmajor.1 ++ h.devminor.1)
    (by simp only [bytes_eq, PosixHeader.back, List.append_assoc, List.singleton_append]; rfl)
    (by simp only [List.length_append, length_front, length_val, List.length_singleton]) h.pfx.2

/-- A header with its checksum field as spaces. -/
theorem blank_bytes : Ustar.blank h.bytes = h.front ++ List.replicate 8 (ch ' ') ++ h.back := by
  have h148 : h.bytes.take 148 = h.front := by
    rw [bytes_eq, List.append_assoc, ← length_front h, List.take_left]
  have h156 : h.bytes.drop 156 = h.back := by
    rw [bytes_eq, show 156 = (h.front ++ h.chksum.1).length by
      simp only [List.length_append, length_front, length_val], List.drop_left]
  rw [Ustar.blank, h148, h156]

end

/-! ## What `tarHeader` writes -/

/-- The header of an entry, field by field. -/
structure IsHeader (name : Str) (st : Stat) (typeflag : Byte) (hdr : PosixHeader) : Prop where
  names : (name.length ≤ 100 ∧ hdr.name = buffer 100 name ∧ hdr.pfx = buffer 155 []) ∨
    (100 < name.length ∧ name.length ≤ 255 ∧ hdr.name = buffer 100 (name.drop (name.length - 100)) ∧
      hdr.pfx = buffer 155 (name.take (name.length - 101)))
  mode : hdr.mode = buffer 8 (Octal.print 7 (st.stMode &&& 0o7777).toNat)
  size : hdr.size = buffer 12 (Octal.print 11 (if typeflag = ch '5' then 0 else st.stSize.val))
  typeflag : hdr.typeflag = typeflag
  magic : hdr.magic.1 ++ hdr.version.1 = str "ustar" ++ 0 :: str "00"
  chksum : hdr.chksum = buffer 8 (Octal.print 6 (Ustar.sum (Ustar.blank hdr.bytes) % 2 ^ 32) ++ [ch ' '])

theorem tarHeader_isHeader {host : Host} {name : Str} {st : Stat} {typeflag : Byte} {hdr : PosixHeader}
    (h : tarHeader host name st typeflag = some hdr) : IsHeader name st typeflag hdr := by
  simp only [tarHeader, Option.map_eq_some_iff, Prod.exists] at h
  obtain ⟨pfx, nm, hn, rfl⟩ := h
  refine ⟨?_, rfl, rfl, rfl, rfl, ?_⟩
  · split at hn
    · cases hn
      exact .inl ⟨‹_›, rfl, rfl⟩
    split at hn
    · rename_i h1 h2
      rw [if_neg (by omega)] at hn
      cases hn
      refine .inr ⟨by omega, h2, ?_, rfl⟩
      rw [show name.length - 100 - 1 + 1 = name.length - 100 by omega]
    · cases hn
  · rw [blank_bytes, calculateChecksum, bytes_eq, Ustar.sum]
    simp only [PosixHeader.front, PosixHeader.back]

/-- Names of at most 255 bytes get a header. -/
theorem tarHeader_isSome (host : Host) {name : Str} (st : Stat) (typeflag : Byte) (h : name.length ≤ 255) :
    ∃ hdr, tarHeader host name st typeflag = some hdr := by
  refine Option.isSome_iff_exists.mp ?_
  simp only [tarHeader, Option.isSome_map]
  by_cases h1 : name.length ≤ 100
  · simp [h1]
  · simp [h1, h, show ¬ name.length - 100 - 1 > 155 by omega]

/-- `writeTarHeader` returns when the name is short enough and `gzwrite`
takes the header. -/
theorem writeTarHeader_eq_some {host : Host} {name : Str} {st : Stat} {typeflag : Byte} {k k' : Nat}
    {es : List Chunk} :
    (writeTarHeader host name st typeflag).run k = ⟨some (), es, k'⟩ ↔
      ∃ hdr, tarHeader host name st typeflag = some hdr ∧ 512 ≤ host.gzwrite k 512 ∧
        es = [.header hdr.bytes] ∧ k' = k + 1 := by
  rw [writeTarHeader]
  rcases tarHeader host name st typeflag with _ | hdr
  · simp
  · simp only [writeBlock_eq_some, length_bytes, Option.some.injEq, exists_eq_left']

/-! ## Names -/

section

variable {name : Str} {st : Stat} {typeflag : Byte} {hdr : PosixHeader}

theorem name_bytes (h : PosixHeader) :
    Ustar.name h.bytes = if cstr h.pfx.1 = [] then cstr h.name.1 else cstr h.pfx.1 ++ ch '/' :: cstr h.name.1 := by
  rw [Ustar.name, field_name, field_pfx]

/-- A name of at most 100 bytes is cut to 99. -/
theorem IsHeader.name_short (h : IsHeader name st typeflag hdr) (h0 : 0 ∉ name) (hl : name.length ≤ 100) :
    Ustar.name hdr.bytes = name.take 99 := by
  rcases h.names with ⟨-, hn, hp⟩ | ⟨hl', -⟩
  · have hp' : cstr hdr.pfx.1 = [] := hp ▸ cstr_buffer (n := 155) (by decide) (s := []) (by simp)
    rw [name_bytes, if_pos hp', hn]
    exact cstr_buffer (by decide) h0
  · omega

/-- A longer name loses at least one byte. -/
theorem IsHeader.name_long (h : IsHeader name st typeflag hdr) (h0 : 0 ∉ name) (hl : 100 < name.length) :
    (Ustar.name hdr.bytes).length < name.length := by
  rcases h.names with ⟨hl', -⟩ | ⟨-, h255, hn, hp⟩
  · omega
  · have hn' : cstr hdr.name.1 = (name.drop (name.length - 100)).take 99 :=
      hn ▸ cstr_buffer (by decide) fun h => h0 (List.mem_of_mem_drop h)
    have hp' : cstr hdr.pfx.1 = (name.take (name.length - 101)).take 154 :=
      hp ▸ cstr_buffer (by decide) fun h => h0 (List.mem_of_mem_take h)
    have ln : (cstr hdr.name.1).length = 99 := by
      rw [hn', List.length_take, List.length_drop]
      omega
    have lp : (cstr hdr.pfx.1).length = name.length - 101 := by
      rw [hp', List.length_take, List.length_take]
      omega
    rw [name_bytes]
    split
    · omega
    · rw [List.length_append, List.length_cons, lp, ln]
      omega

end

/-- An entry name is read back from its header exactly when it has at most 99 bytes. -/
theorem name_survives_iff {host : Host} {name : Str} {st : Stat} {typeflag : Byte} {k k' : Nat}
    {es : List Chunk} (h0 : 0 ∉ name)
    (h : (writeTarHeader host name st typeflag).run k = ⟨some (), es, k'⟩) :
    ∃ b, es = [.header b] ∧ b.length = 512 ∧ (Ustar.name b = name ↔ name.length ≤ 99) := by
  obtain ⟨hdr, ht, -, rfl, -⟩ := writeTarHeader_eq_some.mp h
  have hh := tarHeader_isHeader ht
  refine ⟨hdr.bytes, rfl, length_bytes hdr, fun e => ?_, fun hl => ?_⟩
  · by_contra hl
    rcases Nat.lt_or_ge 100 name.length with hl' | hl'
    · have := hh.name_long h0 hl'
      rw [e] at this
      omega
    · have := congrArg List.length (hh.name_short h0 hl')
      rw [e, List.length_take] at this
      omega
  · rw [hh.name_short h0 (by omega), List.take_of_length_le hl]

/-- A system without account names whose `gzwrite` takes everything. -/
def Host.plain : Host := ⟨fun _ => none, fun _ => none, fun _ n => n⟩

/-- A regular file of one byte. -/
def Stat.plain : Stat := ⟨0o100644, 0, 0, 1, 0⟩

theorem name_survives_iff_outputs : ∃ es k',
    (writeTarHeader Host.plain (str "debug_outputs.txt") Stat.plain (ch '0')).run 0 = ⟨some (), es, k'⟩ ∧
      ∃ b, es = [.header b] ∧ b.length = 512 ∧
        (Ustar.name b = str "debug_outputs.txt" ↔ (str "debug_outputs.txt").length ≤ 99) := by
  obtain ⟨hdr, ht⟩ := tarHeader_isSome Host.plain Stat.plain (ch '0')
    (by decide : (str "debug_outputs.txt").length ≤ 255)
  have h := writeTarHeader_eq_some.mpr ⟨hdr, ht, (by decide : 512 ≤ Host.plain.gzwrite 0 512), rfl, rfl⟩
  exact ⟨_, _, h, name_survives_iff (by decide) h⟩

/-- Two names of 100 bytes that differ in the last one: both are accepted and
read back as the 99 bytes they share. -/
theorem name_100_lost : ∃ b b',
    (writeTarHeader Host.plain (List.replicate 99 (ch 'a') ++ [ch 'b']) Stat.plain (ch '0')).run 0 =
      ⟨some (), [.header b], 1⟩ ∧
    (writeTarHeader Host.plain (List.replicate 99 (ch 'a') ++ [ch 'c']) Stat.plain (ch '0')).run 0 =
      ⟨some (), [.header b'], 1⟩ ∧
    Ustar.name b = List.replicate 99 (ch 'a') ∧ Ustar.name b' = List.replicate 99 (ch 'a') := by
  obtain ⟨hdr, ht⟩ := tarHeader_isSome Host.plain Stat.plain (ch '0')
    (by decide : (List.replicate 99 (ch 'a') ++ [ch 'b']).length ≤ 255)
  obtain ⟨hdr', ht'⟩ := tarHeader_isSome Host.plain Stat.plain (ch '0')
    (by decide : (List.replicate 99 (ch 'a') ++ [ch 'c']).length ≤ 255)
  refine ⟨hdr.bytes, hdr'.bytes, ?_, ?_, ?_, ?_⟩
  · exact writeTarHeader_eq_some.mpr ⟨hdr, ht, by decide, rfl, rfl⟩
  · exact writeTarHeader_eq_some.mpr ⟨hdr', ht', by decide, rfl, rfl⟩
  · exact (tarHeader_isHeader ht).name_short (by decide) (by decide)
  · exact (tarHeader_isHeader ht').name_short (by decide) (by decide)

end RRD
