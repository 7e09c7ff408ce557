import RemoteDebugger.Framework.Run
import RemoteDebugger.Impl.RunReport
import RemoteDebugger.Spec.Volume

/-!
# Reports on their way to an archive

What the calls of a command do to the files below the directory of a report,
while other programs work on the same device, and which files a tree has to hold
for its archive to hold them.

* `DiskStep`: a call, and what other programs do before the next one;
* `Delivered`: reports that are on the disk;
* `Tree.Holds`, `mem_entries_of_at`: the files of a directory, and their entries in
  its archive.
-/

namespace RRD

open Framework

/-! ## Files -/

/-- The file system, and the file that is open. -/
structure DiskState where
  disk : FileSystem
  opened : Option (List Str)

/-- A call in the directory `cwd`. Its paths are relative ones. -/
def diskCall (cwd : List Str) (s : DiskState) : RunEffect → Option DiskState
  | .mkdir dirname ok =>
    if ok then
      if s.disk (cwd ++ components dirname) = none then
        some { s with disk := Function.update s.disk (cwd ++ components dirname) (some .directory) }
      else none
    else some s
  | .fopen path ok =>
    if ok then some ⟨s.disk.write (cwd ++ components path) [], some (cwd ++ components path)⟩ else some s
  | .write bytes =>
    match s.opened with
    | none => none
    | some p =>
      match s.disk p with
      | some (.file contents) => some { s with disk := s.disk.write p (contents ++ bytes) }
      | _ => none
  | .fclose => some { s with opened := none }
  | .popen _ _ | .pclose | .sleep _ | .system _ _ => some s

/-- Other programs leave the directories of the commands and their reports as they are. -/
structure Others (cwd : List Str) (disk disk' : FileSystem) : Prop where
  directory : ∀ name, disk (cwd ++ [name]) = some .directory → disk' (cwd ++ [name]) = some .directory
  report : ∀ name contents, disk (cwd ++ [name, rrdOutputFile]) = some (.file contents) →
    disk' (cwd ++ [name, rrdOutputFile]) = some (.file contents)

theorem Others.refl (cwd : List Str) (disk : FileSystem) : Others cwd disk disk :=
  ⟨fun _ h => h, fun _ _ h => h⟩

/-- A call, and then other programs. -/
def DiskStep (cwd : List Str) (s : DiskState) (e : RunEffect) (s' : DiskState) : Prop :=
  ∃ s₁, diskCall cwd s e = some s₁ ∧ Others cwd s₁.disk s'.disk ∧ s'.opened = s₁.opened

/-! ## Reports -/

/-- The name of a directory that has a time in it. -/
structure Dated (name : Str) : Prop where
  no_slash : ch '/' ∉ name
  dash : ch '-' ∈ name

theorem Dated.ne_nil {name : Str} (h : Dated name) : name ≠ [] := List.ne_nil_of_mem h.dash

/-- The report of a path and a text is on the disk, in the directory of its command. -/
def OnDisk (cwd : List Str) (disk : FileSystem) (report : Str × Str) : Prop :=
  ∃ name, Dated name ∧ report.1 = name ++ str "/" ++ rrdOutputFile ∧
    disk (cwd ++ [name]) = some .directory ∧ disk (cwd ++ [name, rrdOutputFile]) = some (.file report.2)

/-- These reports are on the disk. -/
def Delivered (cwd : List Str) (disk : FileSystem) (reports : List (Str × Str)) : Prop :=
  ∀ report ∈ reports, OnDisk cwd disk report

theorem Delivered.others {cwd : List Str} {disk disk' : FileSystem} {reports : List (Str × Str)}
    (h : Delivered cwd disk reports) (ho : Others cwd disk disk') : Delivered cwd disk' reports := by
  intro report hreport
  obtain ⟨name, hname, hpath, hdir, hfile⟩ := h report hreport
  exact ⟨name, hname, hpath, ho.directory name hdir, ho.report name _ hfile⟩

/-! ## The tree of a directory -/

/-- The tree has every file that the disk has below a directory. -/
def Tree.Holds (t : Tree) (d : Directory) (disk : FileSystem) (p : List Str) : Prop :=
  ∀ q contents, disk (p ++ q) = some (.file contents) →
    ∃ f : RegularFile, (TreeItem.dir d t).at q = some (.file f) ∧ f.contents = contents

theorem Tree.entries_of_item_file {t : Tree} {name : Str} {f : RegularFile} (h : t.item name = some (.file f))
    (relpath : Str) : ∃ e ∈ t.entries relpath, e.name = join relpath name ∧ e.data = f.contents := by
  induction t with
  | nil => cases h
  | file n f' next ih =>
    rw [item] at h
    split at h
    · rename_i hn
      cases h
      exact ⟨_, List.mem_cons_self, congrArg (join relpath) hn, rfl⟩
    · obtain ⟨e, he, hname⟩ := ih h
      exact ⟨e, List.mem_cons_of_mem _ he, hname⟩
  | dir n d sub next _ ih =>
    rw [item] at h
    split at h
    · cases h
    · obtain ⟨e, he, hname⟩ := ih h
      exact ⟨e, List.mem_cons_of_mem _ (List.mem_append_right _ he), hname⟩
  | special n s next ih =>
    rw [item] at h
    split at h
    · cases h
    · exact ih h

theorem Tree.entries_of_item_dir {t sub : Tree} {name : Str} {d : Directory} (h : t.item name = some (.dir d sub))
    (relpath : Str) : ∀ e ∈ sub.entries (join relpath name), e ∈ t.entries relpath := by
  induction t with
  | nil => cases h
  | file n f next ih =>
    rw [item] at h
    split at h
    · cases h
    · exact fun e he => List.mem_cons_of_mem _ (ih h e he)
  | dir n d' sub' next _ ih =>
    rw [item] at h
    split at h
    · rename_i hn
      cases h
      subst hn
      exact fun e he => List.mem_cons_of_mem _ (List.mem_append_left _ he)
    · exact fun e he => List.mem_cons_of_mem _ (List.mem_append_right _ (ih h e he))
  | special n s next ih =>
    rw [item] at h
    split at h
    · cases h
    · exact ih h

/-- A file of a tree is an entry of its archive, under its path. -/
theorem mem_entries_of_at {t : Tree} {d : Directory} {q : List Str} {f : RegularFile} (hq : q ≠ [])
    (h : (TreeItem.dir d t).at q = some (.file f)) (relpath : Str) :
    ∃ e ∈ t.entries relpath, e.name = q.foldl join relpath ∧ e.data = f.contents := by
  induction q generalizing t d relpath with
  | nil => exact absurd rfl hq
  | cons name rest ih =>
    obtain ⟨i, hitem, hat⟩ := Option.bind_eq_some_iff.mp h
    cases rest with
    | nil =>
      obtain rfl := Option.some.inj hat
      exact Tree.entries_of_item_file hitem relpath
    | cons name' rest =>
      cases i with
      | dir d' sub =>
        obtain ⟨e, he, hname⟩ := ih (by simp) hat (join relpath name)
        exact ⟨e, Tree.entries_of_item_dir hitem relpath e he, hname⟩
      | file _ => cases hat
      | special _ => cases hat

end RRD
