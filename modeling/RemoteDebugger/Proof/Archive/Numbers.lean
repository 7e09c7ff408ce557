import RemoteDebugger.Proof.Archive.Untar

/-!
# The numbers of a header

A number that has more digits than its field loses the last ones, and the header
is written all the same. The permissions and the checksum always fit.

* `tarHeader_owner`: what a header has of the owner and the time of a file;
* `faithful_iff`: a header has the numbers of its file exactly when they fit;
* `numbers_faithful_iff`: when a call that writes a header writes such a one.
-/

namespace RRD

open Framework

variable {host : Host} {name : Str} {st : Stat} {typeflag : Byte} {hdr : PosixHeader}

/-! ## The fields -/

section

variable (h : PosixHeader)

theorem field_uid : Ustar.field h.bytes 108 8 = h.uid.1 :=
  field_of_split (a := h.name.1 ++ h.mode.1) (by simp only [PosixHeader.bytes, List.append_assoc]; rfl)
    (by simp only [List.length_append, length_val]) h.uid.2

theorem field_gid : Ustar.field h.bytes 116 8 = h.gid.1 :=
  field_of_split (a := h.name.1 ++ h.mode.1 ++ h.uid.1) (by simp only [PosixHeader.bytes, List.append_assoc]; rfl)
    (by simp only [List.length_append, length_val]) h.gid.2

theorem field_mtime : Ustar.field h.bytes 136 12 = h.mtime.1 :=
  field_of_split (a := h.name.1 ++ h.mode.1 ++ h.uid.1 ++ h.gid.1 ++ h.size.1)
    (by simp only [PosixHeader.bytes, List.append_assoc]; rfl) (by simp only [List.length_append, length_val]) h.mtime.2

end

/-- The first digits of the owner and of the time of a file. -/
theorem tarHeader_owner (h : tarHeader host name st typeflag = some hdr) :
    Ustar.uid hdr.bytes = Octal.kept 7 st.stUid.toNat ∧ Ustar.gid hdr.bytes = Octal.kept 7 st.stGid.toNat ∧
      Ustar.mtime hdr.bytes = Octal.kept 11 st.stMtime.toUInt64.toNat := by
  rw [Ustar.uid, field_uid, Ustar.gid, field_gid, Ustar.mtime, field_mtime]
  simp only [tarHeader, Option.map_eq_some_iff, Prod.exists] at h
  obtain ⟨_, _, -, rfl⟩ := h
  exact ⟨Octal.parse_buffer_print 7 _, Octal.parse_buffer_print 7 _, Octal.parse_buffer_print 11 _⟩

/-- Names of more than 255 bytes get no header. -/
theorem tarHeader_eq_none (host : Host) (st : Stat) (typeflag : Byte) (h : 255 < name.length) :
    tarHeader host name st typeflag = none := by
  simp only [tarHeader, Option.map_eq_none_iff]
  rw [if_neg (by omega), if_neg (by omega)]

/-! ## Numbers -/

/-- The size of an entry. -/
def entrySize (st : Stat) (typeflag : Byte) : Nat := if typeflag = ch '5' then 0 else st.stSize.val

/-- The numbers of a header are those of the file, and its checksum is right. -/
structure Faithful (st : Stat) (typeflag : Byte) (header : List Byte) : Prop where
  mode : Ustar.mode header = permissions st
  uid : Ustar.uid header = st.stUid.toNat
  gid : Ustar.gid header = st.stGid.toNat
  size : Ustar.size header = entrySize st typeflag
  mtime : (Ustar.mtime header : Int) = st.stMtime.toInt
  chksum : Ustar.chksum header = Ustar.sum (Ustar.blank header)

/-- The numbers of a file have no more digits than their fields. -/
structure NumbersFit (st : Stat) (typeflag : Byte) : Prop where
  uid : st.stUid.toNat < 8 ^ 7
  gid : st.stGid.toNat < 8 ^ 7
  size : entrySize st typeflag < 8 ^ 11
  mtime_nonneg : 0 ≤ st.stMtime.toInt
  mtime : st.stMtime.toInt < (8 ^ 11 : Nat)

/-- A time before the epoch is printed as a number of 64 bits. -/
theorem kept_mtime_iff (t : Int64) :
    (Octal.kept 11 t.toUInt64.toNat : Int) = t.toInt ↔ 0 ≤ t.toInt ∧ t.toInt < (8 ^ 11 : Nat) := by
  have hbits : t.toInt = if 2 * t.toUInt64.toNat < 2 ^ 64 then (t.toUInt64.toNat : Int) else t.toUInt64.toNat - 2 ^ 64 :=
    BitVec.toInt_eq_toNat_cond t.toBitVec
  have hlt : t.toUInt64.toNat < 2 ^ 64 := t.toUInt64.toNat_lt
  have hkept := Octal.kept_eq_iff (n := t.toUInt64.toNat) (w := 11) (by decide)
  split at hbits
  · rw [hbits]
    omega
  · omega

/-- The numbers that fit are exactly those that are read back. -/
theorem faithful_iff (h : tarHeader host name st typeflag = some hdr) :
    Faithful st typeflag hdr.bytes ↔ NumbersFit st typeflag := by
  have hh := tarHeader_isHeader h
  obtain ⟨huid, hgid, hmtime⟩ := tarHeader_owner h
  have hsize : Ustar.size hdr.bytes = Octal.kept 11 (entrySize st typeflag) := hh.size_bytes
  constructor
  · rintro ⟨-, hu, hg, hs, ht, -⟩
    rw [huid, Octal.kept_eq_iff (by decide)] at hu
    rw [hgid, Octal.kept_eq_iff (by decide)] at hg
    rw [hsize, Octal.kept_eq_iff (by decide)] at hs
    rw [hmtime, kept_mtime_iff] at ht
    exact ⟨hu, hg, hs, ht.1, ht.2⟩
  · rintro ⟨hu, hg, hs, h0, ht⟩
    refine ⟨hh.mode_bytes, ?_, ?_, ?_, ?_, hh.valid.2⟩
    · rw [huid, Octal.kept_of_lt (by decide) hu]
    · rw [hgid, Octal.kept_of_lt (by decide) hg]
    · rw [hsize, Octal.kept_of_lt (by decide) hs]
    · rw [hmtime, kept_mtime_iff]
      exact ⟨h0, ht⟩

/-- Where the call writes a header, that has the numbers of the file. -/
def WritesNumbers (host : Host) (name : Str) (st : Stat) (typeflag : Byte) (k : Nat) : Prop :=
  ∀ es k', (writeTarHeader host name st typeflag).run k = ⟨some (), es, k'⟩ →
    ∃ header, es = [.header header] ∧ Faithful st typeflag header

/-- A header is written rightly exactly when it is not written, for the length of
the name or for the file it goes to, or all numbers fit. -/
theorem numbers_faithful_iff (host : Host) (name : Str) (st : Stat) (typeflag : Byte) (k : Nat) :
    WritesNumbers host name st typeflag k ↔
      255 < name.length ∨ host.gzwrite k 512 < 512 ∨ NumbersFit st typeflag := by
  constructor
  · intro h
    rcases Nat.lt_or_ge 255 name.length with hlong | hshort
    · exact .inl hlong
    rcases Nat.lt_or_ge (host.gzwrite k 512) 512 with hcut | hwhole
    · exact .inr (.inl hcut)
    obtain ⟨hdr, hhdr⟩ := tarHeader_isSome host st typeflag hshort
    obtain ⟨header, hes, hfaithful⟩ := h _ _ (writeTarHeader_eq_some.mpr ⟨hdr, hhdr, hwhole, rfl, rfl⟩)
    rw [List.singleton_inj, Chunk.header.injEq] at hes
    exact .inr (.inr ((faithful_iff hhdr).mp (hes ▸ hfaithful)))
  · intro h es k' hrun
    obtain ⟨hdr, hhdr, hwhole, rfl, -⟩ := writeTarHeader_eq_some.mp hrun
    rcases h with hlong | hcut | hfit
    · rw [tarHeader_eq_none host st typeflag hlong] at hhdr
      cases hhdr
    · omega
    · exact ⟨hdr.bytes, rfl, (faithful_iff hhdr).mpr hfit⟩

/-- A file of a user whose number has eight octal digits. -/
def bigUid : Stat := { Stat.plain with stUid := 0o10000000 }

theorem numbers_cut : ∃ header, (writeTarHeader Host.plain (str "a") bigUid (ch '0')).run 0 = ⟨some (), [.header header], 1⟩ ∧
    Ustar.uid header = 8 ^ 6 ∧ ¬WritesNumbers Host.plain (str "a") bigUid (ch '0') 0 := by
  obtain ⟨hdr, hhdr⟩ := tarHeader_isSome Host.plain bigUid (ch '0') (by decide : (str "a").length ≤ 255)
  have hrun := writeTarHeader_eq_some.mpr ⟨hdr, hhdr, (by decide : 512 ≤ Host.plain.gzwrite 0 512), rfl, rfl⟩
  have huid : Ustar.uid hdr.bytes = 8 ^ 6 := (tarHeader_owner hhdr).1.trans (by decide +kernel)
  refine ⟨hdr.bytes, hrun, huid, fun h => ?_⟩
  obtain ⟨header, hes, hfaithful⟩ := h _ _ hrun
  rw [List.singleton_inj, Chunk.header.injEq] at hes
  rw [hes, hfaithful.uid] at huid
  exact absurd huid (by decide)

end RRD
