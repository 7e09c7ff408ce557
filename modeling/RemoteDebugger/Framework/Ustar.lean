import RemoteDebugger.Framework.Octal

/-!
# Reading a ustar archive

A stream of 512-byte blocks: a header, then the data blocks its size field
announces, and so on up to two zero blocks. `members` cuts a stream at the
sizes its headers state; `read` also decodes each header, checking the magic
and the checksum.

* `members_spec`: what `members` returns has the lengths its headers state;
* `members_flatMap`: it finds back members with the lengths their headers
  state, when no header is a zero block.
-/

namespace Framework.Ustar

/-- `n` bytes of a block at offset `i`. -/
def field (h : List Byte) (i n : Nat) : List Byte := (h.drop i).take n

/-- The entry name: the prefix, a slash and the name, or the name alone. -/
def name (h : List Byte) : Str :=
  let n := cstr (field h 0 100)
  let p := cstr (field h 345 155)
  if p = [] then n else p ++ ch '/' :: n

def mode (h : List Byte) : Nat := Octal.parse (field h 100 8)
def uid (h : List Byte) : Nat := Octal.parse (field h 108 8)
def gid (h : List Byte) : Nat := Octal.parse (field h 116 8)
def size (h : List Byte) : Nat := Octal.parse (field h 124 12)
def mtime (h : List Byte) : Nat := Octal.parse (field h 136 12)
def chksum (h : List Byte) : Nat := Octal.parse (field h 148 8)
def typeflag (h : List Byte) : Byte := h.getD 156 0
def magic (h : List Byte) : List Byte := field h 257 8

/-- The sum of a block's bytes. -/
def sum (h : List Byte) : Nat := (h.map UInt8.toNat).sum

/-- A header with its checksum field as spaces. -/
def blank (h : List Byte) : List Byte := h.take 148 ++ List.replicate 8 (ch ' ') ++ h.drop 156

/-- The magic, the version and the checksum are right. -/
def Valid (h : List Byte) : Prop := magic h = str "ustar" ++ 0 :: str "00" ∧ chksum h = sum (blank h)

instance (h : List Byte) : Decidable (Valid h) := inferInstanceAs (Decidable (_ ∧ _))

/-- The blocks that `n` bytes take. -/
def blocks (n : Nat) : Nat := (n + 511) / 512

/-- The zero blocks that end an archive. -/
def trailer : List Byte := List.replicate 1024 0

/-- A header block and the data blocks after it. -/
structure Member where
  header : List Byte
  data : List Byte
  deriving DecidableEq, Repr

def Member.bytes (m : Member) : List Byte := m.header ++ m.data

/-- The data blocks are those the header's size field states. -/
structure Member.Exact (m : Member) : Prop where
  header : m.header.length = 512
  data : m.data.length = 512 * blocks (size m.header)

/-- The members of a stream, in at most `fuel` steps. -/
def membersFrom : Nat → List Byte → Option (List Member)
  | 0, _ => none
  | fuel + 1, s =>
    if s.take 1024 = trailer then some []
    else
      let h := s.take 512
      let n := 512 * blocks (size h)
      if s.length < 512 + n then none
      else (membersFrom fuel (s.drop (512 + n))).map (⟨h, (s.drop 512).take n⟩ :: ·)

def members (s : List Byte) : Option (List Member) := membersFrom s.length s

/-- An entry of an archive. -/
structure Entry where
  name : Str
  typeflag : Byte
  mode : Nat
  data : List Byte
  deriving DecidableEq, Repr

def Member.entry (m : Member) : Option Entry :=
  if Valid m.header then
    some ⟨Ustar.name m.header, Ustar.typeflag m.header, Ustar.mode m.header, m.data.take (size m.header)⟩
  else none

/-- The entries of an archive. -/
def read (s : List Byte) : Option (List Entry) := (members s).bind (·.mapM Member.entry)

theorem membersFrom_spec {fuel : Nat} {s : List Byte} {ms : List Member}
    (h : membersFrom fuel s = some ms) : ∀ m ∈ ms, m.Exact := by
  induction fuel generalizing s ms with
  | zero => simp [membersFrom] at h
  | succ fuel ih =>
    simp only [membersFrom] at h
    split at h
    · cases h; simp
    split at h
    · cases h
    rename_i hl
    obtain ⟨ms', h', rfl⟩ := Option.map_eq_some_iff.mp h
    intro m hm
    rcases List.mem_cons.mp hm with rfl | hm
    · constructor <;> simp only [List.length_take, List.length_drop] <;> omega
    · exact ih h' m hm

/-- Every member found has the length that its header states. -/
theorem members_spec {s : List Byte} {ms : List Member} (h : members s = some ms) : ∀ m ∈ ms, m.Exact :=
  membersFrom_spec h

/-- A member at the head of a stream. -/
theorem membersFrom_cons {m : Member} (hm : m.Exact) (hz : ∃ b ∈ m.header, b ≠ 0) (fuel : Nat) (s : List Byte) :
    membersFrom (fuel + 1) (m.bytes ++ s) = (membersFrom fuel s).map (m :: ·) := by
  have hh : (m.bytes ++ s).take 512 = m.header := by
    rw [Member.bytes, List.append_assoc, ← hm.header, List.take_left]
  have hd : (m.bytes ++ s).drop 512 = m.data ++ s := by
    rw [Member.bytes, List.append_assoc, ← hm.header, List.drop_left]
  have hne : (m.bytes ++ s).take 1024 ≠ trailer := fun e => by
    obtain ⟨b, hb, h0⟩ := hz
    have : b ∈ (m.bytes ++ s).take 1024 := by
      rw [show 1024 = 512 + 512 from rfl, List.take_add, hh]
      exact List.mem_append_left _ hb
    rw [e] at this
    exact h0 (List.eq_of_mem_replicate this)
  have hl : ¬ (m.bytes ++ s).length < 512 + 512 * blocks (size m.header) := by
    simp only [Member.bytes, List.length_append, hm.header, hm.data]
    omega
  simp only [membersFrom, hne, if_false, hh, hl, ← List.drop_drop, hd]
  rw [← hm.data, List.take_left, List.drop_left]

/-- Members with the lengths that their headers state are found back. -/
theorem membersFrom_flatMap {ms : List Member} (hm : ∀ m ∈ ms, m.Exact)
    (hz : ∀ m ∈ ms, ∃ b ∈ m.header, b ≠ 0) {fuel : Nat} (hf : ms.length < fuel) :
    membersFrom fuel (ms.flatMap Member.bytes ++ trailer) = some ms := by
  induction ms generalizing fuel with
  | nil =>
    obtain ⟨fuel, rfl⟩ : ∃ k, fuel = k + 1 := ⟨fuel - 1, by omega⟩
    rw [List.flatMap_nil, List.nil_append, membersFrom,
      if_pos (List.take_of_length_le (by rw [trailer, List.length_replicate]))]
  | cons m ms ih =>
    obtain ⟨fuel, rfl⟩ : ∃ k, fuel = k + 1 := ⟨fuel - 1, by omega⟩
    rw [List.flatMap_cons, List.append_assoc,
      membersFrom_cons (hm m List.mem_cons_self) (hz m List.mem_cons_self),
      ih (fun m' h => hm m' (List.mem_cons_of_mem _ h)) (fun m' h => hz m' (List.mem_cons_of_mem _ h))
        (by simpa using hf)]
    rfl

theorem length_flatMap_bytes {ms : List Member} (hm : ∀ m ∈ ms, m.Exact) :
    ms.length ≤ (ms.flatMap Member.bytes).length ∧ 512 ∣ (ms.flatMap Member.bytes).length := by
  induction ms with
  | nil => simp
  | cons m ms ih =>
    obtain ⟨hl, hd⟩ := ih fun m' h => hm m' (List.mem_cons_of_mem _ h)
    have hx := hm m List.mem_cons_self
    simp only [List.flatMap_cons, List.length_append, List.length_cons, Member.bytes, hx.header, hx.data]
    omega

theorem members_flatMap {ms : List Member} (hm : ∀ m ∈ ms, m.Exact)
    (hz : ∀ m ∈ ms, ∃ b ∈ m.header, b ≠ 0) : members (ms.flatMap Member.bytes ++ trailer) = some ms := by
  refine membersFrom_flatMap hm hz ?_
  have := (length_flatMap_bytes hm).1
  simp only [List.length_append, trailer, List.length_replicate]
  omega

end Framework.Ustar
