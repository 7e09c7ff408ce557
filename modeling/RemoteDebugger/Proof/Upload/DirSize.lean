import Mathlib.Logic.Relation
import RemoteDebugger.Spec.Volume

/-!
# The size of a directory

`rrd_sysinfo_get_dir_size` uses a path that does not fit its array of 1024 bytes
as it was cut. What it misses are the entries with such a path, those that `stat`
fails on, and the directories that do not open, for want of a descriptor or for
another reason.

* `adds_missed`: what the call adds for an entry that it misses;
* `sums_names`: what it adds for the entries of a directory;
* `callsItself_safe`: it goes down where the missed entries do no harm;
* `getDirSize_self`: it comes to nothing on a directory whose path fills the array;
* `sizeRight_iff`: when it goes down and ends with the sum of the sizes.
-/

namespace RRD

open Framework

variable {v : Volume} {dirpath filepath dName : Str} {loc : List Str} {d : Directory} {t : Tree} {free : Nat}

/-! ## Paths -/

/-- The path of an entry fits the array, with its terminator. -/
def PathFits (dirpath dName : Str) : Prop := (dirpath ++ ch '/' :: dName).length < 1024

instance (dirpath dName : Str) : Decidable (PathFits dirpath dName) := inferInstanceAs (Decidable (_ < _))

theorem dirFilepath_of_fits (h : PathFits dirpath dName) : dirFilepath dirpath dName = dirpath ++ ch '/' :: dName :=
  List.take_of_length_le (Nat.le_sub_one_of_lt h)

theorem length_dirFilepath (h : ¬PathFits dirpath dName) : (dirFilepath dirpath dName).length = 1023 := by
  rw [dirFilepath, snprintf, List.length_take]
  exact Nat.min_eq_left (by rw [PathFits] at h; omega)

/-- A path that fills the array is the path of all of its entries. -/
theorem dirFilepath_self (h : dirpath.length = 1023) (dName : Str) : dirFilepath dirpath dName = dirpath :=
  List.take_left' h

theorem not_isReg_of_isDir {m : UInt32} (h : sIsDir m = true) : ¬sIsReg m = true := by
  intro hreg
  have hdir := beq_iff_eq.mp h
  rw [beq_iff_eq.mp hreg] at hdir
  exact absurd hdir (by decide)

/-- A path whose `stat` says that it is a directory denotes one. -/
theorem item_of_isDir {i : TreeItem} (h : sIsDir i.st.stMode = true) : ∃ d t, i = .dir d t := by
  cases i with
  | file f => exact absurd f.isReg (not_isReg_of_isDir h)
  | dir d t => exact ⟨d, t, rfl⟩
  | special s => exact absurd (h.symm.trans s.notDir) (by decide)

/-! ## The calls -/

theorem item_of_seen {i : TreeItem} (h : v.seen dirpath = some i) : v.item dirpath = some i :=
  (Option.ite_none_right_eq_some.mp h).2

theorem seen_of_stats {i : TreeItem} (hstats : v.stats dirpath) (h : v.item dirpath = some i) : v.seen dirpath = some i :=
  (if_pos hstats).trans h

theorem readdir_open (h : v.item dirpath = some (.dir d t)) (hopens : v.opens dirpath) :
    v.calls.readdir dirpath = some (str "." :: str ".." :: t.names) := by
  simp only [Volume.calls, h, hopens, if_true]

theorem readdir_closed (hopens : ¬v.opens dirpath) : v.calls.readdir dirpath = none := by
  simp only [Volume.calls]
  split
  · exact if_neg hopens
  · rfl

theorem readdir_eq_some {names : List Str} (h : v.calls.readdir dirpath = some names) :
    ∃ d t, v.item dirpath = some (.dir d t) ∧ v.opens dirpath ∧ names = str "." :: str ".." :: t.names := by
  simp only [Volume.calls] at h
  split at h
  · rename_i d t hitem
    obtain ⟨hopens, h⟩ := Option.ite_none_right_eq_some.mp h
    exact ⟨d, t, hitem, hopens, (Option.some.inj h).symm⟩
  · cases h

/-- What an entry adds, by what its path denotes. -/
theorem addEntry_seen {f : Str → Option UInt64} (hdot : ¬isDot dName) (size : UInt64) :
    addEntry v.calls f dirpath size dName =
      match v.seen (dirFilepath dirpath dName) with
      | some (.file g) => size + UInt64.ofNat g.st.stSize.val
      | some (.dir _ _) => size + (f (dirFilepath dirpath dName)).getD 0
      | _ => size := by
  rw [addEntry, if_neg hdot]
  have hstat : v.calls.stat (dirFilepath dirpath dName) = (v.seen (dirFilepath dirpath dName)).map TreeItem.st := rfl
  simp only [hstat]
  rcases v.seen (dirFilepath dirpath dName) with _ | (g | ⟨d, t⟩ | s)
  · rfl
  · exact if_pos g.isReg
  · exact (if_neg (not_isReg_of_isDir d.isDir)).trans (if_pos d.isDir)
  · simp only [Option.map_some, TreeItem.st, s.notReg, s.notDir, Bool.false_eq_true, if_false]

/-- The entries of a directory for itself and for the one above it add nothing. -/
theorem foldl_dot {f : Str → Option UInt64} (hdot : isDot dName) (names : List Str) (size : UInt64) :
    (dName :: names).foldl (addEntry v.calls f dirpath) size = names.foldl (addEntry v.calls f dirpath) size := by
  rw [List.foldl_cons, addEntry, if_pos hdot]

/-- The call on a directory that opens. -/
theorem getDirSize_open (h : v.item dirpath = some (.dir d t)) (hopens : v.opens dirpath) (free : Nat) :
    rrdSysinfoGetDirSize v.calls (free + 1) dirpath =
      some (t.names.foldl (addEntry v.calls (rrdSysinfoGetDirSize v.calls free) dirpath) 0) := by
  rw [rrdSysinfoGetDirSize, readdir_open h hopens]
  dsimp only
  rw [foldl_dot (.inl rfl), foldl_dot (.inr rfl)]

/-- The directory opens, with a descriptor that is left. -/
def OpensAt (v : Volume) (free : Nat) (dirpath : Str) : Prop := 0 < free ∧ v.opens dirpath

instance (v : Volume) (free : Nat) (dirpath : Str) : Decidable (OpensAt v free dirpath) :=
  inferInstanceAs (Decidable (_ ∧ _))

theorem getDirSize_closed (h : ¬OpensAt v free dirpath) : rrdSysinfoGetDirSize v.calls free dirpath = none := by
  cases free with
  | zero => rfl
  | succ free => rw [rrdSysinfoGetDirSize, readdir_closed fun hopens => h ⟨Nat.succ_pos free, hopens⟩]

/-! ## What the call misses -/

/-- An entry that the call does not go into: the descriptors that are left for it,
its directory, the path that the call takes for it, and the size of the regular files
in it. -/
structure Missed where
  free : Nat
  dirpath : Str
  filepath : Str
  size : Nat

/-- The path of an entry fits, and `stat` does not fail on it. -/
def Reads (v : Volume) (dirpath dName : Str) : Prop := PathFits dirpath dName ∧ v.stats (dirFilepath dirpath dName)

instance (v : Volume) (dirpath dName : Str) : Decidable (Reads v dirpath dName) := inferInstanceAs (Decidable (_ ∧ _))

/-- The entries that are not read, and the directories that do not open. -/
def Tree.missed (v : Volume) (free : Nat) (dirpath : Str) : Tree → List Missed
  | .nil => []
  | .file n f next =>
    (if Reads v dirpath n.name then [] else [⟨free, dirpath, dirFilepath dirpath n.name, f.st.stSize.val⟩]) ++
      next.missed v free dirpath
  | .dir n _ sub next =>
    (if Reads v dirpath n.name ∧ OpensAt v free (dirFilepath dirpath n.name) then
        sub.missed v (free - 1) (dirFilepath dirpath n.name)
      else [⟨free, dirpath, dirFilepath dirpath n.name, sub.size⟩]) ++
      next.missed v free dirpath
  | .special n _ next =>
    (if Reads v dirpath n.name then [] else [⟨free, dirpath, dirFilepath dirpath n.name, 0⟩]) ++
      next.missed v free dirpath

/-- The regular file that `stat` finds at its path, if any, counts. -/
def Missed.counted (v : Volume) (m : Missed) : Nat :=
  match v.seen m.filepath with
  | some (.file f) => f.st.stSize.val
  | _ => 0

/-- At its path `stat` finds no directory, or one properly below that has no entries or
does not open. -/
def Harmless (v : Volume) (m : Missed) : Prop :=
  ∀ d t, v.seen m.filepath = some (.dir d t) → (t = .nil ∨ ¬OpensAt v m.free m.filepath) ∧ v.Below m.dirpath m.filepath

def lostSize (ms : List Missed) : Nat := (ms.map (·.size)).sum

def countedSize (v : Volume) (ms : List Missed) : Nat := (ms.map (·.counted v)).sum

/-! ## What the call adds -/

/-- Looking an entry up in what is left of a directory finds the entry of the directory. -/
def Tree.Within (t t0 : Tree) : Prop := ∀ name i, t.item name = some i → t0.item name = some i

/-- What is left of a directory after an entry is within it, as the names are distinct. -/
theorem Tree.within_next {t next t0 : Tree} {n : FileName} (h : t.Within t0) (hn : n.name ∉ next.names)
    (ht : ∀ name, n.name ≠ name → t.item name = next.item name) : next.Within t0 := by
  intro name i hi
  have hne : n.name ≠ name := by
    rintro rfl
    exact hn (Tree.item_isSome.mp (Option.isSome_of_eq_some hi))
  exact h name i ((ht name hne).trans hi)

/-- The loop adds this number for these names. -/
def Adds (v : Volume) (free : Nat) (dirpath : Str) (names : List Str) (s : Nat) : Prop :=
  ∀ size, names.foldl (addEntry v.calls (rrdSysinfoGetDirSize v.calls free) dirpath) size = size + UInt64.ofNat s

theorem adds_cons {names : List Str} {a s : Nat} (h : Adds v free dirpath [dName] a) (hs : Adds v free dirpath names s) :
    Adds v free dirpath (dName :: names) (a + s) := by
  intro size
  have hcons : dName :: names = [dName] ++ names := rfl
  rw [hcons, List.foldl_append, h size, hs, UInt64.ofNat_add, UInt64.add_assoc]

/-- A missed entry that does no harm adds the regular file that its path denotes. -/
theorem adds_missed (m : Missed) (hdot : ¬isDot dName) (hpath : m.filepath = dirFilepath dirpath dName)
    (hm : Harmless v m) : Adds v m.free dirpath [dName] (m.counted v) := by
  intro size
  rw [List.foldl_cons, List.foldl_nil, addEntry_seen hdot, ← hpath, Missed.counted]
  cases hseen : v.seen m.filepath with
  | none => simp
  | some i =>
    cases i with
    | file f => rfl
    | special s => simp
    | dir d t =>
      have hzero : (rrdSysinfoGetDirSize v.calls m.free m.filepath).getD 0 = 0 := by
        by_cases hopens : OpensAt v m.free m.filepath
        · obtain ⟨free, hfree⟩ := Nat.exists_eq_add_of_lt hopens.1
          obtain rfl := (hm d t hseen).1.resolve_right (not_not_intro hopens)
          rw [hfree, getDirSize_open (item_of_seen hseen) hopens.2]
          rfl
        · rw [getDirSize_closed hopens]
          rfl
      simp [hzero]

theorem lostSize_append (l l' : List Missed) : lostSize (l ++ l') = lostSize l + lostSize l' := by
  rw [lostSize, List.map_append, List.sum_append]
  rfl

theorem countedSize_append (l l' : List Missed) : countedSize v (l ++ l') = countedSize v l + countedSize v l' := by
  rw [countedSize, List.map_append, List.sum_append]
  rfl

/-- The loop adds the size of what these names stand for, but for the missed entries. -/
def Sums (v : Volume) (free : Nat) (dirpath : Str) (names : List Str) (size : Nat) (ms : List Missed) : Prop :=
  ∃ s, s + lostSize ms = size + countedSize v ms ∧ Adds v free dirpath names s

theorem sums_cons {names : List Str} {size size' : Nat} {ms ms' : List Missed}
    (h : Sums v free dirpath [dName] size ms) (h' : Sums v free dirpath names size' ms') :
    Sums v free dirpath (dName :: names) (size + size') (ms ++ ms') := by
  obtain ⟨a, ha, hadds⟩ := h
  obtain ⟨s, hs, hadds'⟩ := h'
  refine ⟨a + s, ?_, adds_cons hadds hadds'⟩
  rw [lostSize_append, countedSize_append]
  omega

/-- A missed entry that does no harm. -/
theorem sums_missed {size : Nat} (hdot : ¬isDot dName)
    (hm : Harmless v ⟨free, dirpath, dirFilepath dirpath dName, size⟩) :
    Sums v free dirpath [dName] size [⟨free, dirpath, dirFilepath dirpath dName, size⟩] := by
  have hadds := adds_missed ⟨free, dirpath, dirFilepath dirpath dName, size⟩ hdot rfl hm
  refine ⟨_, ?_, hadds⟩
  rw [lostSize, countedSize, List.map_singleton, List.map_singleton, List.sum_singleton, List.sum_singleton]
  exact Nat.add_comm _ _

/-- A regular file that is read. -/
theorem sums_file {f : RegularFile} (hdot : ¬isDot dName) (hseen : v.seen (dirFilepath dirpath dName) = some (.file f)) :
    Sums v free dirpath [dName] f.st.stSize.val [] := by
  refine ⟨f.st.stSize.val, congrArg (f.st.stSize.val + ·) rfl, fun size => ?_⟩
  rw [List.foldl_cons, List.foldl_nil, addEntry_seen hdot, hseen]

theorem sums_special {st : Special} (hdot : ¬isDot dName)
    (hseen : v.seen (dirFilepath dirpath dName) = some (.special st)) : Sums v free dirpath [dName] 0 [] := by
  refine ⟨0, rfl, fun size => ?_⟩
  rw [List.foldl_cons, List.foldl_nil, addEntry_seen hdot, hseen]
  exact (UInt64.add_zero size).symm

/-- A directory that opens adds what its own entries add. -/
theorem sums_dir {size : Nat} {ms : List Missed} (hdot : ¬isDot dName)
    (hseen : v.seen (dirFilepath dirpath dName) = some (.dir d t)) (hopens : OpensAt v free (dirFilepath dirpath dName))
    (h : Sums v (free - 1) (dirFilepath dirpath dName) t.names size ms) : Sums v free dirpath [dName] size ms := by
  obtain ⟨s, hs, hadds⟩ := h
  refine ⟨s, hs, fun size => ?_⟩
  have hsub : rrdSysinfoGetDirSize v.calls free (dirFilepath dirpath dName) = some (UInt64.ofNat s) := by
    rw [← Nat.succ_pred_eq_of_pos hopens.1, getDirSize_open (item_of_seen hseen) hopens.2]
    exact congrArg some ((hadds 0).trans (UInt64.zero_add _))
  rw [List.foldl_cons, List.foldl_nil, addEntry_seen hdot, hseen]
  dsimp only
  rw [hsub, Option.getD_some]

theorem item_of_at {i : TreeItem} (hpath : v.resolve dirpath = some loc) (h : v.root.at loc = some i) :
    v.item dirpath = some i := Option.bind_eq_some_iff.mpr ⟨loc, hpath, h⟩

/-- A path that fits denotes the entry. -/
theorem item_fits {t0 : Tree} {i : TreeItem} {name : FileName} (hpath : v.resolve dirpath = some loc)
    (hdir : v.root.at loc = some (.dir d t0)) (hi : t0.item name.name = some i) (hfits : PathFits dirpath name.name) :
    v.resolve (dirFilepath dirpath name.name) = some (loc ++ [name.name]) ∧ v.root.at (loc ++ [name.name]) = some i ∧
      v.item (dirFilepath dirpath name.name) = some i := by
  have hresolve := Volume.resolve_child hpath hdir name
  rw [hi, Option.map_some] at hresolve
  have hitem := Volume.item_child hpath hdir name
  rw [hi] at hitem
  rw [dirFilepath_of_fits hfits]
  obtain ⟨loc', hloc', hat⟩ := Option.bind_eq_some_iff.mp hitem
  rw [Option.some.inj (hresolve.symm.trans hloc')]
  exact ⟨hloc', hat, hitem⟩

/-- What the loop adds for the entries of a directory. -/
theorem sums_names {t0 : Tree} (hpath : v.resolve dirpath = some loc) (hdir : v.root.at loc = some (.dir d t0))
    (ht : t.Within t0) (hdist : t.Distinct) (hm : ∀ m ∈ t.missed v free dirpath, Harmless v m) :
    Sums v free dirpath t.names t.size (t.missed v free dirpath) := by
  induction t generalizing dirpath loc d t0 free with
  | nil => exact ⟨0, rfl, fun size => (UInt64.add_zero size).symm⟩
  | file n f next ih =>
    have hnext := Tree.within_next ht hdist.1 fun name hne => if_neg hne
    have hsums := ih hpath hdir hnext hdist.2 fun m hmem => hm m (List.mem_append_right _ hmem)
    have hitem := item_fits hpath hdir (ht n.name _ (if_pos rfl))
    refine sums_cons ?_ hsums
    split
    · rename_i hreads
      exact sums_file n.not_dot (seen_of_stats hreads.2 (hitem hreads.1).2.2)
    · rename_i hreads
      exact sums_missed n.not_dot (hm _ (List.mem_append_left _ (by simp [hreads])))
  | special n st next ih =>
    have hnext := Tree.within_next ht hdist.1 fun name hne => if_neg hne
    have hsums := ih hpath hdir hnext hdist.2 fun m hmem => hm m (List.mem_append_right _ hmem)
    have hitem := item_fits hpath hdir (ht n.name _ (if_pos rfl))
    rw [Tree.size, ← Nat.zero_add next.size]
    refine sums_cons ?_ hsums
    split
    · rename_i hreads
      exact sums_special n.not_dot (seen_of_stats hreads.2 (hitem hreads.1).2.2)
    · rename_i hreads
      exact sums_missed n.not_dot (hm _ (List.mem_append_left _ (by simp [hreads])))
  | dir n dd sub next ihsub ih =>
    have hnext := Tree.within_next ht hdist.1 fun name hne => if_neg hne
    have hsums := ih hpath hdir hnext hdist.2.2 fun m hmem => hm m (List.mem_append_right _ hmem)
    have hitem := item_fits hpath hdir (ht n.name _ (if_pos rfl))
    refine sums_cons ?_ hsums
    split
    · rename_i hreads
      obtain ⟨hsubpath, hsubdir, hitem⟩ := hitem hreads.1.1
      refine sums_dir n.not_dot (seen_of_stats hreads.1.2 hitem) hreads.2
        (ihsub hsubpath hsubdir (fun _ _ hi => hi) hdist.2.1 fun m hmem => ?_)
      exact hm m (List.mem_append_left _ (by rwa [if_pos hreads]))
    · rename_i hreads
      exact sums_missed n.not_dot (hm _ (List.mem_append_left _ (by simp [hreads])))

/-! ## Where the call goes -/

theorem below_irrefl : ¬v.Below dirpath dirpath := by
  rintro ⟨loc, rest, hloc, hrest, hne⟩
  rw [hloc] at hrest
  exact hne (List.self_eq_append_right.mp (Option.some.inj hrest))

/-- A call goes to a directory that `stat` finds at a path of its entries. -/
theorem callsItself_iff {free' : Nat} (hitem : v.item dirpath = some (.dir d t)) :
    CallsItself v.calls (free, dirpath) (free', filepath) ↔
      free = free' + 1 ∧ v.opens dirpath ∧ ∃ n : FileName, n.name ∈ t.names ∧ filepath = dirFilepath dirpath n.name ∧
        ∃ d t, v.seen filepath = some (.dir d t) := by
  constructor
  · rintro ⟨hnames, hmem, hdot, hst, -, hdir⟩
    obtain ⟨d', t', hitem', hopens, rfl⟩ := readdir_eq_some hnames
    obtain ⟨-, rfl⟩ : d = d' ∧ t = t' := by simpa using hitem.symm.trans hitem'
    rename_i dName st
    have hmem : dName ∈ t.names := by
      rcases List.mem_cons.mp hmem with rfl | hmem
      · exact absurd (.inl rfl) hdot
      rcases List.mem_cons.mp hmem with rfl | hmem
      · exact absurd (.inr rfl) hdot
      · exact hmem
    obtain ⟨n, rfl⟩ := Tree.exists_fileName hmem
    obtain ⟨i, hi, rfl⟩ := Option.map_eq_some_iff.mp hst
    obtain ⟨d'', t'', rfl⟩ := item_of_isDir hdir
    exact ⟨rfl, hopens, n, hmem, rfl, d'', t'', hi⟩
  · rintro ⟨rfl, hopens, n, hmem, rfl, d', t', hseen⟩
    refine .mk (readdir_open hitem hopens) (by simp [hmem]) n.not_dot (congrArg (Option.map TreeItem.st) hseen) ?_ d'.isDir
    exact not_isReg_of_isDir d'.isDir

/-- What is missed in a directory is missed in the one above. -/
theorem missed_of_sub {sub : Tree} {name : FileName} (hi : t.item name.name = some (.dir d sub))
    (hreads : Reads v dirpath name.name) (hopens : OpensAt v free (dirFilepath dirpath name.name)) {m : Missed}
    (hm : m ∈ sub.missed v (free - 1) (dirFilepath dirpath name.name)) : m ∈ t.missed v free dirpath := by
  induction t with
  | nil => cases hi
  | file n _ next ih | special n _ next ih =>
    rw [Tree.item] at hi
    split at hi
    · cases hi
    · exact List.mem_append_right _ (ih hi)
  | dir n _ _ next _ ih =>
    rw [Tree.item] at hi
    split at hi
    · rename_i hn
      cases hi
      rw [← hn] at hreads hopens hm
      exact List.mem_append_left _ (by rwa [if_pos ⟨hreads, hopens⟩])
    · exact List.mem_append_right _ (ih hi)

/-- An entry that is not read is missed. -/
theorem exists_missed (v : Volume) (free : Nat) (hmem : dName ∈ t.names) (hreads : ¬Reads v dirpath dName) :
    ∃ size, ⟨free, dirpath, dirFilepath dirpath dName, size⟩ ∈ t.missed v free dirpath := by
  induction t with
  | nil => cases hmem
  | file n f next ih =>
    rcases List.mem_cons.mp hmem with rfl | hmem
    · exact ⟨f.st.stSize.val, List.mem_append_left _ (by simp [hreads])⟩
    · obtain ⟨size, hmem⟩ := ih hmem
      exact ⟨size, List.mem_append_right _ hmem⟩
  | special n _ next ih =>
    rcases List.mem_cons.mp hmem with rfl | hmem
    · exact ⟨0, List.mem_append_left _ (by simp [hreads])⟩
    · obtain ⟨size, hmem⟩ := ih hmem
      exact ⟨size, List.mem_append_right _ hmem⟩
  | dir n _ sub next _ ih =>
    rcases List.mem_cons.mp hmem with rfl | hmem
    · exact ⟨sub.size, List.mem_append_left _ (by simp [hreads])⟩
    · obtain ⟨size, hmem⟩ := ih hmem
      exact ⟨size, List.mem_append_right _ hmem⟩

/-- A call on a directory in which what it misses does no harm. -/
def Safe (v : Volume) (call : Nat × Str) : Prop :=
  ∃ loc d t, v.resolve call.2 = some loc ∧ v.root.at loc = some (.dir d t) ∧
    (OpensAt v call.1 call.2 → ∀ m ∈ t.missed v (call.1 - 1) call.2, Harmless v m)

/-- From a safe call it goes down, to a safe call. -/
theorem callsItself_safe {call call' : Nat × Str} (h : Safe v call) (hcall : CallsItself v.calls call call') :
    v.Below call.2 call'.2 ∧ Safe v call' := by
  obtain ⟨free, dirpath⟩ := call
  obtain ⟨free', filepath⟩ := call'
  obtain ⟨loc, d, t, hpath, hdir, hsafe⟩ := h
  have hitem := item_of_at hpath hdir
  obtain ⟨rfl, hopens, n, hmem, rfl, d', t', hseen⟩ := (callsItself_iff hitem).mp hcall
  have hharmless := hsafe ⟨Nat.succ_pos free', hopens⟩
  obtain ⟨i, hi⟩ := Option.isSome_iff_exists.mp (Tree.item_isSome.mpr hmem)
  by_cases hreads : Reads v dirpath n.name
  · obtain ⟨hresolve, hat, hi'⟩ := item_fits hpath hdir hi hreads.1
    rw [item_of_seen hseen, Option.some.injEq] at hi'
    subst hi'
    refine ⟨⟨loc, [n.name], hpath, hresolve, List.cons_ne_nil _ _⟩, _, d', t', hresolve, hat, fun hopens' m hm => ?_⟩
    exact hharmless m (missed_of_sub hi hreads hopens' hm)
  · obtain ⟨size, hmiss⟩ := exists_missed v free' hmem hreads
    obtain ⟨hnil, hbelow⟩ := hharmless _ hmiss d' t' hseen
    obtain ⟨loc', hresolve, hat⟩ := Option.bind_eq_some_iff.mp (item_of_seen hseen)
    refine ⟨hbelow, loc', d', t', hresolve, hat, fun hopens' m hm => ?_⟩
    rcases hnil with rfl | hclosed
    · cases hm
    · exact absurd hopens' hclosed

/-- Every call that comes from a safe one is safe. -/
theorem safe_of_reach {call call' : Nat × Str} (h : Safe v call)
    (hreach : Relation.ReflTransGen (CallsItself v.calls) call call') : Safe v call' := by
  induction hreach with
  | refl => exact h
  | tail _ hstep ih => exact (callsItself_safe ih hstep).2

/-- A missed entry is that of a directory which the call comes to. If its path fits, it is
no directory that opens. -/
theorem exists_of_missed {t0 : Tree} (hpath : v.resolve dirpath = some loc)
    (hdir : v.root.at loc = some (.dir d t0)) (ht : t.Within t0) (hdist : t.Distinct) (hopens : v.opens dirpath)
    {m : Missed} (hm : m ∈ t.missed v free dirpath) :
    Relation.ReflTransGen (CallsItself v.calls) (free + 1, dirpath) (m.free + 1, m.dirpath) ∧ v.opens m.dirpath ∧
      ∃ d t, v.item m.dirpath = some (.dir d t) ∧ ∃ n : FileName, n.name ∈ t.names ∧
        m.filepath = dirFilepath m.dirpath n.name ∧
        (PathFits m.dirpath n.name → ∀ d t, v.seen m.filepath = some (.dir d t) → ¬OpensAt v m.free m.filepath) := by
  have hitem := item_of_at hpath hdir
  induction t generalizing dirpath loc d t0 free with
  | nil => cases hm
  | file n f next ih | special n f next ih =>
    have hnext := Tree.within_next ht hdist.1 fun name hne => if_neg hne
    rcases List.mem_append.mp hm with hm | hm
    · split at hm
      · cases hm
      rename_i hreads
      rw [List.mem_singleton.mp hm]
      have hi := ht n.name _ (if_pos rfl)
      have hmem := Tree.item_isSome.mp (Option.isSome_of_eq_some hi)
      refine ⟨.refl, hopens, d, t0, hitem, n, hmem, rfl, fun hfits d' t' hseen => ?_⟩
      have := (item_of_seen hseen).symm.trans (item_fits hpath hdir hi hfits).2.2
      cases this
    · exact ih hpath hdir hnext hdist.2 hopens hm hitem
  | dir n dd sub next ihsub ih =>
    have hnext := Tree.within_next ht hdist.1 fun name hne => if_neg hne
    have hi := ht n.name _ (if_pos rfl)
    have hmem := Tree.item_isSome.mp (Option.isSome_of_eq_some hi)
    rcases List.mem_append.mp hm with hm | hm
    · split at hm
      · rename_i hreads
        obtain ⟨hsubpath, hsubdir, hsubitem⟩ := item_fits hpath hdir hi hreads.1.1
        obtain ⟨hreach, h⟩ := ihsub hsubpath hsubdir (fun _ _ hi => hi) hdist.2.1 hreads.2.2 hm hsubitem
        rw [Nat.sub_add_cancel hreads.2.1] at hreach
        have hcall : CallsItself v.calls (free + 1, dirpath) (free, dirFilepath dirpath n.name) :=
          (callsItself_iff hitem).mpr ⟨rfl, hopens, n, hmem, rfl, _, _, seen_of_stats hreads.1.2 hsubitem⟩
        exact ⟨.head hcall hreach, h⟩
      · rename_i hreads
        rw [List.mem_singleton.mp hm]
        refine ⟨.refl, hopens, d, t0, hitem, n, hmem, rfl, fun hfits d' t' hseen hopens' => hreads ⟨⟨hfits, ?_⟩, hopens'⟩⟩
        exact (Option.ite_none_right_eq_some.mp hseen).1
    · exact ih hpath hdir hnext hdist.2.2 hopens hm hitem

theorem Tree.exists_name (hne : t ≠ .nil) : ∃ n : FileName, n.name ∈ t.names := by
  cases t with
  | nil => exact absurd rfl hne
  | file n _ next | dir n _ _ next | special n _ next => exact ⟨n, List.mem_cons_self⟩

/-- A nonempty directory whose path fills the array is called on itself. -/
theorem callsItself_self (hseen : v.seen dirpath = some (.dir d t)) (hopens : v.opens dirpath)
    (hlength : dirpath.length = 1023) (hne : t ≠ .nil) (free : Nat) :
    CallsItself v.calls (free + 1, dirpath) (free, dirpath) := by
  obtain ⟨n, hmem⟩ := Tree.exists_name hne
  exact (callsItself_iff (item_of_seen hseen)).mpr ⟨rfl, hopens, n, hmem, (dirFilepath_self hlength n.name).symm, d, t, hseen⟩

/-- A directory whose path fills the array: the calls on it are on itself as long as
there are descriptors, and none of them adds a file. -/
theorem getDirSize_self (hseen : v.seen dirpath = some (.dir d t)) (hopens : v.opens dirpath)
    (hlength : dirpath.length = 1023) (free : Nat) : rrdSysinfoGetDirSize v.calls (free + 1) dirpath = some 0 := by
  have hadds (f : Str → Option UInt64) (hf : (f dirpath).getD 0 = 0) (names : List Str) :
      names.foldl (addEntry v.calls f dirpath) 0 = 0 := by
    induction names with
    | nil => rfl
    | cons dName names ih =>
      rw [List.foldl_cons]
      by_cases hdot : isDot dName
      · rwa [addEntry, if_pos hdot]
      · rw [addEntry_seen hdot, dirFilepath_self hlength, hseen]
        dsimp only
        rwa [hf]
  induction free with
  | zero => rw [getDirSize_open (item_of_seen hseen) hopens, hadds _ rfl]
  | succ free ih => rw [getDirSize_open (item_of_seen hseen) hopens, hadds _ (by rw [ih]; rfl)]

/-! ## The sum -/

/-- The calls that the call on this directory leads to go down, and where it succeeds it is right. -/
structure SizeRight (v : Volume) (free : Nat) (dirpath : Str) (t : Tree) : Prop where
  descends : ∀ call call', Relation.ReflTransGen (CallsItself v.calls) (free, dirpath) call →
    CallsItself v.calls call call' → v.Below call.2 call'.2
  sum : ∀ size, rrdSysinfoGetDirSize v.calls free dirpath = some size → size = UInt64.ofNat t.size

/-- Where every call goes down, what is missed does no harm. -/
theorem harmless_of_descends (hpath : v.resolve dirpath = some loc) (hdir : v.root.at loc = some (.dir d t))
    (hdist : t.Distinct) (hopens : v.opens dirpath)
    (h : ∀ call call', Relation.ReflTransGen (CallsItself v.calls) (free + 1, dirpath) call →
      CallsItself v.calls call call' → v.Below call.2 call'.2) :
    ∀ m ∈ t.missed v free dirpath, Harmless v m := by
  intro m hm d' t' hseen
  obtain ⟨hreach, hopens', dm, tm, hitem, n, hmem, hfilepath, hfits⟩ :=
    exists_of_missed hpath hdir (fun _ _ hi => hi) hdist hopens hm
  have hcall : CallsItself v.calls (m.free + 1, m.dirpath) (m.free, m.filepath) :=
    (callsItself_iff hitem).mpr ⟨rfl, hopens', n, hmem, hfilepath, d', t', hseen⟩
  refine ⟨?_, h _ _ hreach hcall⟩
  by_contra hnot
  obtain ⟨hne, hsub⟩ := not_or.mp hnot
  rw [not_not] at hsub
  -- The path was cut, so that it is the path of its own entries.
  have hlength : m.filepath.length = 1023 := by
    rw [hfilepath]
    exact length_dirFilepath fun hf => hfits hf d' t' hseen hsub
  obtain ⟨free', hfree⟩ := Nat.exists_eq_add_one_of_ne_zero (Nat.ne_of_gt hsub.1)
  have hself : CallsItself v.calls (m.free, m.filepath) (free', m.filepath) := by
    rw [hfree]
    exact callsItself_self hseen hsub.2 hlength hne free'
  exact below_irrefl (h (m.free, m.filepath) (free', m.filepath) (hreach.tail hcall) hself)

/-- The call succeeds with a sum that lacks what it misses. -/
theorem getDirSize_eq (hpath : v.resolve dirpath = some loc) (hdir : v.root.at loc = some (.dir d t))
    (hdist : t.Distinct) (hopens : v.opens dirpath) (hm : ∀ m ∈ t.missed v free dirpath, Harmless v m) :
    ∃ s, rrdSysinfoGetDirSize v.calls (free + 1) dirpath = some (UInt64.ofNat s) ∧
      s + lostSize (t.missed v free dirpath) = t.size + countedSize v (t.missed v free dirpath) := by
  obtain ⟨s, hs, hadds⟩ := sums_names hpath hdir (fun _ _ hi => hi) hdist hm
  refine ⟨s, ?_, hs⟩
  rw [getDirSize_open (item_of_at hpath hdir) hopens, hadds 0, UInt64.zero_add]

theorem ofNat_eq_iff {s lost size counted : Nat} (h : s + lost = size + counted) :
    UInt64.ofNat s = UInt64.ofNat size ↔ UInt64.ofNat counted = UInt64.ofNat lost := by
  have h' : UInt64.ofNat s + UInt64.ofNat lost = UInt64.ofNat size + UInt64.ofNat counted := by
    rw [← UInt64.ofNat_add, ← UInt64.ofNat_add, h]
  constructor
  · intro hs
    rw [hs] at h'
    exact ((UInt64.add_right_inj _).mp h').symm
  · intro hc
    rw [hc] at h'
    exact (UInt64.add_left_inj _).mp h'

theorem sizeRight_of_harmless (hpath : v.resolve dirpath = some loc) (hdir : v.root.at loc = some (.dir d t))
    (hdist : t.Distinct) (h : OpensAt v free dirpath → (∀ m ∈ t.missed v (free - 1) dirpath, Harmless v m) ∧
      UInt64.ofNat (countedSize v (t.missed v (free - 1) dirpath)) =
        UInt64.ofNat (lostSize (t.missed v (free - 1) dirpath))) :
    SizeRight v free dirpath t := by
  have hsafe : Safe v (free, dirpath) := ⟨loc, d, t, hpath, hdir, fun hopens => (h hopens).1⟩
  refine ⟨fun call call' hreach hcall => (callsItself_safe (safe_of_reach hsafe hreach) hcall).1, fun size hsize => ?_⟩
  by_cases hopens : OpensAt v free dirpath
  · obtain ⟨hm, hsizes⟩ := h hopens
    obtain ⟨s, hs, heq⟩ := getDirSize_eq hpath hdir hdist hopens.2 hm
    rw [Nat.sub_add_cancel hopens.1, hsize] at hs
    rw [Option.some.inj hs]
    exact (ofNat_eq_iff heq).mpr hsizes
  · cases hsize.symm.trans (getDirSize_closed hopens)

/-- The recursion over a directory goes down and sums up its files exactly where what it misses
does no harm, and the files it counts for that make up for the files it misses. -/
theorem sizeRight_iff (hpath : v.resolve dirpath = some loc) (hdir : v.root.at loc = some (.dir d t))
    (hdist : t.Distinct) :
    SizeRight v free dirpath t ↔ (OpensAt v free dirpath → (∀ m ∈ t.missed v (free - 1) dirpath, Harmless v m) ∧
      UInt64.ofNat (countedSize v (t.missed v (free - 1) dirpath)) =
        UInt64.ofNat (lostSize (t.missed v (free - 1) dirpath))) := by
  refine ⟨fun h hopens => ?_, sizeRight_of_harmless hpath hdir hdist⟩
  obtain ⟨free, rfl⟩ := Nat.exists_eq_add_one_of_ne_zero (Nat.ne_of_gt hopens.1)
  have hm := harmless_of_descends hpath hdir hdist hopens.2 h.descends
  obtain ⟨s, hs, heq⟩ := getDirSize_eq hpath hdir hdist hopens.2 hm
  exact ⟨hm, (ofNat_eq_iff heq).mp (h.sum _ hs)⟩

def modeStat (stMode : UInt32) (stSize : Fin (2 ^ 63)) : Stat := ⟨stMode, 0, 0, stSize, 0⟩

def plainDir : Directory := ⟨modeStat 0o040755 4096, rfl⟩

def oneByte : RegularFile := ⟨modeStat 0o100644 1, [ch 'x'], rfl, rfl⟩

/-- A name of `n + 1` letters. -/
def letters (n : Nat) : FileName where
  name := List.replicate (n + 1) (ch 'a')
  ne_nil := nofun
  no_slash h := absurd (List.eq_of_mem_replicate h) (by decide)
  no_nul h := absurd (List.eq_of_mem_replicate h) (by decide)
  not_dot h := by
    rw [List.replicate_succ] at h
    rcases h with h | h <;> exact absurd (List.head_eq_of_cons_eq h) (by decide)

/-- The directory `/a/a` of a volume holds `aa` and another directory. -/
def letterTree : Tree := .file (letters 1) oneByte (.dir (letters 2) plainDir (.file (letters 0) oneByte .nil) .nil)

def letterVolume : Volume where
  root := .dir plainDir (.dir (letters 0) plainDir (.dir (letters 0) plainDir letterTree .nil) .nil)
  cwd := []
  opens _ := true
  stats _ := true

theorem letterTree_distinct : letterTree.Distinct := ⟨by decide, by decide, ⟨List.not_mem_nil, trivial⟩, trivial⟩

theorem sizeRight_letters : SizeRight letterVolume 1024 (str "/a/a") letterTree := by
  have hpath : letterVolume.resolve (str "/a/a") = some [str "a", str "a"] := rfl
  have hdir : letterVolume.root.at [str "a", str "a"] = some (.dir plainDir letterTree) := rfl
  exact (sizeRight_iff hpath hdir letterTree_distinct).mpr fun _ => ⟨nofun, rfl⟩

/-- A directory behind four names of 254 letters, whose path has 1023 characters. -/
def deepRoot : TreeItem :=
  .dir plainDir (.dir (letters 253) plainDir (.dir (letters 253) plainDir (.dir (letters 253) plainDir
    (.dir (letters 253) plainDir (.dir (letters 1) plainDir (.file (letters 0) oneByte .nil) .nil) .nil) .nil) .nil) .nil)

def deepVolume : Volume where
  root := deepRoot
  cwd := []
  opens _ := true
  stats _ := true

def deepPath : Str :=
  let name := ch '/' :: (letters 253).name
  name ++ name ++ name ++ name ++ str "/aa"

def deepTree : Tree := .file (letters 0) oneByte .nil

theorem deepPath_length : deepPath.length = 1023 := by decide +kernel

theorem deepPath_item : deepVolume.item deepPath = some (.dir plainDir deepTree) := by
  have hloc : deepVolume.resolve deepPath =
      some [(letters 253).name, (letters 253).name, (letters 253).name, (letters 253).name, (letters 1).name] := by
    decide +kernel
  rw [Volume.item, hloc]
  simp [deepVolume, deepRoot, deepTree, TreeItem.at, Tree.item]

/-- The call on it calls itself on the same directory, and succeeds with no size. -/
theorem deepPath_not_sizeRight :
    ¬SizeRight deepVolume 1024 deepPath deepTree ∧ CallsItself deepVolume.calls (1024, deepPath) (1023, deepPath) ∧
      rrdSysinfoGetDirSize deepVolume.calls 1024 deepPath = some 0 ∧ deepTree.size = 1 := by
  have hseen := seen_of_stats rfl deepPath_item
  have hcall := callsItself_self hseen rfl deepPath_length nofun 1023
  refine ⟨fun h => ?_, hcall, getDirSize_self hseen rfl deepPath_length 1023, rfl⟩
  exact below_irrefl (h.descends (1024, deepPath) (1023, deepPath) .refl hcall)

end RRD
