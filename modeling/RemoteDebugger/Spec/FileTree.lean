import RemoteDebugger.Framework.Ustar
import RemoteDebugger.Impl.Archive

/-!
# Directory trees at rest

`Tree` is what a directory holds, in the order `readdir` lists it, and
`Tree.entries` what an archive of it should hold: its regular files and its
directories. `Observes` says what a walk meets over a tree that does not change.

* `entries_inOrder`: the entries have different names, and a directory comes
  before whatever it contains.
-/

namespace RRD

open Framework

/-- A name that a directory can give to one of its children. -/
structure FileName where
  name : Str
  ne_nil : name ≠ []
  no_slash : ch '/' ∉ name
  no_nul : 0 ∉ name
  not_dot : ¬(name = str "." ∨ name = str "..")

/-- A regular file at rest: its size is that of its contents. -/
structure RegularFile where
  st : Stat
  contents : List Byte
  isReg : sIsReg st.stMode = true
  size_eq : st.stSize.val = contents.length

structure Directory where
  st : Stat
  isDir : sIsDir st.stMode = true

/-- A symbolic link, a socket, a device. -/
structure Special where
  st : Stat
  notReg : sIsReg st.stMode = false
  notDir : sIsDir st.stMode = false

/-- The contents of a directory. -/
inductive Tree where
  | nil
  | file (n : FileName) (f : RegularFile) (next : Tree)
  | dir (n : FileName) (d : Directory) (sub next : Tree)
  | special (n : FileName) (s : Special) (next : Tree)

namespace Tree

def names : Tree → List Str
  | nil => []
  | file n _ next | dir n _ _ next | special n _ next => n.name :: next.names

/-- No directory gives one name to two children. -/
def Distinct : Tree → Prop
  | nil => True
  | file n _ next | special n _ next => n.name ∉ next.names ∧ next.Distinct
  | dir n _ sub next => n.name ∉ next.names ∧ sub.Distinct ∧ next.Distinct

end Tree

/-- A path from the root of the archive. -/
def join (relpath name : Str) : Str := if relpath = [] then name else relpath ++ ch '/' :: name

/-- The permission bits of a mode. -/
def permissions (st : Stat) : Nat := (st.stMode &&& 0o7777).toNat

/-- What an archive of a tree holds. -/
def Tree.entries (relpath : Str) : Tree → List Ustar.Entry
  | nil => []
  | file n f next => ⟨join relpath n.name, ch '0', permissions f.st, f.contents⟩ :: next.entries relpath
  | dir n d sub next =>
    ⟨join relpath n.name ++ [ch '/'], ch '5', permissions d.st, []⟩ ::
      (sub.entries (join relpath n.name) ++ next.entries relpath)
  | special _ _ next => next.entries relpath

/-- Different names, and a directory before what it contains. -/
def InOrder (es : List Ustar.Entry) : Prop :=
  es.Pairwise fun a b => a.name ≠ b.name ∧ (b.typeflag = ch '5' → ¬ b.name <+: a.name)

/-- What a walk meets over a tree that does not change, when no call fails. -/
inductive Observes : Tree → Listing → Prop where
  | done : Observes .nil .done
  | dot {t : Tree} {d : Dirent} {sub next : Listing} (hd : d.dName = str "." ∨ d.dName = str "..")
      (h : Observes t next) : Observes t (.entry d sub next)
  | file {n : FileName} {f : RegularFile} {t : Tree} {d : Dirent} {sub next : Listing} (hn : d.dName = n.name)
      (ha : d.alloc = true) (hst : d.st = some f.st) (ho : d.file.opens = true) (hm : d.file.alloc = true)
      (he : d.file.error = false) (hc : d.file.bytes = f.contents) (h : Observes t next) :
      Observes (.file n f t) (.entry d sub next)
  | dir {n : FileName} {dd : Directory} {ts t : Tree} {d : Dirent} {sub next : Listing} (hn : d.dName = n.name)
      (ha : d.alloc = true) (hst : d.st = some dd.st) (ho : d.noDir = none) (hs : Observes ts sub)
      (h : Observes t next) : Observes (.dir n dd ts t) (.entry d sub next)
  | special {n : FileName} {s : Special} {t : Tree} {d : Dirent} {sub next : Listing} (hn : d.dName = n.name)
      (ha : d.alloc = true) (hst : d.st = some s.st) (h : Observes t next) :
      Observes (.special n s t) (.entry d sub next)

/-- A source directory at rest, on a system where no call fails. -/
structure Source.Shows (src : Source) (d : Directory) (t : Tree) : Prop where
  gzopen : src.gzopen = true
  lstat : src.lstat = some d.st
  opendir : src.noDir = none
  listing : Observes t src.listing
  stat : ∀ out, src.stat out = some (out.flatMap Chunk.bytes).length

/-- What `readdir`, `lstat` and the rest answer for a child, each read in one piece. -/
def FileName.dirent (n : FileName) (st : Stat) (contents : List Byte) : Dirent :=
  ⟨n.name, true, some st, ⟨true, true, [contents], false⟩, none⟩

/-- One walk over a tree. -/
def Tree.listing : Tree → Listing
  | nil => .done
  | file n f next => .entry (n.dirent f.st f.contents) .done next.listing
  | dir n d sub next => .entry (n.dirent d.st []) sub.listing next.listing
  | special n s next => .entry (n.dirent s.st []) .done next.listing

theorem observes_listing (t : Tree) : Observes t t.listing := by
  induction t with
  | nil => exact .done
  | file n f next ih => exact .file rfl rfl rfl rfl rfl rfl (by simp [FileName.dirent, FileObs.bytes]) ih
  | dir n d sub next ihs ihn => exact .dir rfl rfl rfl rfl ihs ihn
  | special n s next ih => exact .special rfl rfl rfl ih

/-! ## The order of the entries -/

theorem file_ne_dir : ch '0' ≠ ch '5' := by decide

/-- A path goes on at a slash, if at all. -/
def Below (rest : Str) : Prop := rest = [] ∨ ∃ t, rest = ch '/' :: t

theorem join_append (relpath name rest : Str) :
    join relpath name ++ rest = join relpath (name ++ rest) := by
  unfold join
  split <;> simp

theorem join_join (relpath name name' : Str) (h : name ≠ []) :
    join (join relpath name) name' = join relpath (name ++ ch '/' :: name') := by
  have : join relpath name ≠ [] := by
    unfold join
    split <;> simp [h]
  rw [join, if_neg this, join_append]

theorem join_prefix {relpath a b : Str} (h : join relpath a <+: join relpath b) : a <+: b := by
  unfold join at h
  split at h
  · exact h
  · exact (List.cons_prefix_cons.mp ((List.prefix_append_right_inj _).mp h)).2

/-- The first component of a path is what stands before its first slash. -/
theorem takeWhile_below {name rest : Str} (hn : ch '/' ∉ name) (hr : Below rest) :
    (name ++ rest).takeWhile (· ≠ ch '/') = name := by
  rw [takeWhile_ne_append hn]
  rcases hr with rfl | ⟨t, rfl⟩ <;> simp

/-- Entries are named after a child of the directory. -/
theorem name_of_mem_entries {t : Tree} {relpath : Str} {e : Ustar.Entry} (he : e ∈ t.entries relpath) :
    ∃ n : FileName, n.name ∈ t.names ∧ ∃ rest, Below rest ∧ (e.typeflag = ch '5' → rest ≠ []) ∧
      e.name = join relpath (n.name ++ rest) := by
  induction t generalizing relpath with
  | nil => simp [Tree.entries] at he
  | file n f next ih =>
    rcases List.mem_cons.mp he with rfl | he
    · exact ⟨n, List.mem_cons_self, [], .inl rfl, fun h => absurd h file_ne_dir, by simp⟩
    · obtain ⟨n', hn, h⟩ := ih he
      exact ⟨n', List.mem_cons_of_mem _ hn, h⟩
  | dir n d sub next ihs ihn =>
    rcases List.mem_cons.mp he with rfl | he
    · exact ⟨n, List.mem_cons_self, [ch '/'], .inr ⟨[], rfl⟩, by simp, join_append _ _ _⟩
    rcases List.mem_append.mp he with he | he
    · obtain ⟨n', -, rest, -, -, h⟩ := ihs he
      exact ⟨n, List.mem_cons_self, ch '/' :: (n'.name ++ rest), .inr ⟨_, rfl⟩, by simp,
        h.trans (join_join _ _ _ n.ne_nil)⟩
    · obtain ⟨n', hn, h⟩ := ihn he
      exact ⟨n', List.mem_cons_of_mem _ hn, h⟩
  | special n s next ih =>
    obtain ⟨n', hn, h⟩ := ih he
    exact ⟨n', List.mem_cons_of_mem _ hn, h⟩

/-- An entry of a later child is neither named like, nor a directory above, one
of an earlier child. -/
theorem before_of_not_mem {t : Tree} {relpath : Str} {n : FileName} {rest : Str} {a b : Ustar.Entry}
    (hn : n.name ∉ t.names) (hr : Below rest) (ha : a.name = join relpath (n.name ++ rest))
    (hb : b ∈ t.entries relpath) : a.name ≠ b.name ∧ (b.typeflag = ch '5' → ¬ b.name <+: a.name) := by
  obtain ⟨n', hn', rest', hr', h5, hb'⟩ := name_of_mem_entries hb
  have hne : n.name ≠ n'.name := fun e => hn (e ▸ hn')
  rw [ha, hb']
  constructor
  · intro e
    have := List.prefix_refl (join relpath (n.name ++ rest))
    have h1 := join_prefix (e ▸ this : join relpath (n.name ++ rest) <+: join relpath (n'.name ++ rest'))
    have h2 := join_prefix (e ▸ this : join relpath (n'.name ++ rest') <+: join relpath (n.name ++ rest))
    have := h1.eq_of_length (Nat.le_antisymm h1.length_le h2.length_le)
    rw [← takeWhile_below n.no_slash hr, this, takeWhile_below n'.no_slash hr'] at hne
    exact hne rfl
  · intro hd hp
    obtain ⟨t', rfl⟩ := hr'.resolve_left (h5 hd)
    obtain ⟨s, hs⟩ := join_prefix hp
    rw [List.append_assoc, List.cons_append] at hs
    rw [← takeWhile_below n.no_slash hr, ← hs, takeWhile_below n'.no_slash (.inr ⟨_, rfl⟩)] at hne
    exact hne rfl

/-- An archive of a tree lists every path once, each directory before its contents. -/
theorem entries_inOrder {t : Tree} (ht : t.Distinct) (relpath : Str) : InOrder (t.entries relpath) := by
  induction t generalizing relpath with
  | nil => exact .nil
  | file n f next ih =>
    refine List.pairwise_cons.mpr ⟨fun b hb => ?_, ih ht.2 relpath⟩
    exact before_of_not_mem ht.1 (.inl rfl) (by simp) hb
  | dir n d sub next ihs ihn =>
    have hdir : join relpath n.name ++ [ch '/'] = join relpath (n.name ++ [ch '/']) := join_append _ _ _
    refine List.pairwise_cons.mpr ⟨fun b hb => ?_, List.pairwise_append.mpr ⟨ihs ht.2.1 _, ihn ht.2.2 _, ?_⟩⟩
    · rcases List.mem_append.mp hb with hb | hb
      · -- what the directory contains has a longer name
        obtain ⟨n', -, rest, -, -, hb'⟩ := name_of_mem_entries hb
        have hl : (join relpath n.name ++ [ch '/']).length < b.name.length := by
          have := List.length_pos_iff.mpr n'.ne_nil
          rw [hb', join_join _ _ _ n.ne_nil, ← join_append]
          simp only [List.length_append, List.length_cons, List.length_nil]
          omega
        exact ⟨fun e => absurd (congrArg List.length e) hl.ne, fun _ hp => absurd hp.length_le hl.not_ge⟩
      · exact before_of_not_mem ht.1 (.inr ⟨[], rfl⟩) hdir hb
    · intro a ha b hb
      obtain ⟨n', -, rest, -, -, ha'⟩ := name_of_mem_entries ha
      exact before_of_not_mem ht.1 (.inr ⟨n'.name ++ rest, rfl⟩) (ha'.trans (join_join _ _ _ n.ne_nil)) hb
  | special n s next ih => exact ih ht.2 relpath

/-- No entry name holds a NUL. -/
theorem no_nul_of_mem_entries {t : Tree} {relpath : Str} (hr : 0 ∉ relpath) {e : Ustar.Entry}
    (he : e ∈ t.entries relpath) : 0 ∉ e.name := by
  have hj : ∀ n : FileName, 0 ∉ join relpath n.name := fun n => by
    unfold join
    split
    · exact n.no_nul
    · simp only [List.mem_append, List.mem_cons, not_or]
      exact ⟨hr, by decide, n.no_nul⟩
  induction t generalizing relpath with
  | nil => simp [Tree.entries] at he
  | file n f next ih =>
    rcases List.mem_cons.mp he with rfl | he
    · exact hj n
    · exact ih hr he hj
  | dir n d sub next ihs ihn =>
    rcases List.mem_cons.mp he with rfl | he
    · simp only [List.mem_append, List.mem_singleton, not_or]
      exact ⟨hj n, by decide⟩
    rcases List.mem_append.mp he with he | he
    · refine ihs (hj n) he fun n' => ?_
      rw [join_join _ _ _ n.ne_nil, ← join_append]
      simp only [List.mem_append, List.mem_cons, not_or]
      exact ⟨hj n, by decide, n'.no_nul⟩
    · exact ihn hr he hj
  | special n s next ih => exact ih hr he hj

end RRD
