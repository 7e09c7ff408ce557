import Mathlib.Data.List.Infix
import Mathlib.Logic.Function.Basic

/-!
# A file system

`Disk α β` says what there is at each path, which is the list of its
components: a directory, or a file with its contents.

* `removeTree_self`, `unlink_self`: what was removed is gone;
* `removeTree_none`: and a removal brings nothing back;
* `write_self_ne_none`, `write_ne_none`, `rename_of_not_isPrefix`: what is there
  after a write and a rename.
-/

namespace Framework

/-- What there is at a path. -/
inductive Inode (β : Type) where
  | directory
  | file (contents : β)
  deriving DecidableEq, Repr

abbrev Disk (α β : Type) := List α → Option (Inode β)

namespace Disk

variable {α β : Type} [DecidableEq α] {d : Disk α β} {p q src dst : List α} {b : β}

/-- Create a file, or replace its contents. -/
def write (d : Disk α β) (p : List α) (b : β) : Disk α β := Function.update d p (some (.file b))

/-- Remove a file or an empty directory. -/
def unlink (d : Disk α β) (p : List α) : Disk α β := Function.update d p none

/-- Remove a path with all that is below it. -/
def removeTree (d : Disk α β) (p : List α) : Disk α β := fun q => if p <+: q then none else d q

/-- Move a path with all that is below it. -/
def rename (d : Disk α β) (src dst : List α) : Disk α β := fun q =>
  if dst <+: q then d (src ++ q.drop dst.length) else if src <+: q then none else d q

@[simp] theorem unlink_self : d.unlink p p = none := by
  rw [unlink, Function.update_self]

@[simp] theorem removeTree_self : d.removeTree p p = none := if_pos (List.prefix_refl p)

theorem removeTree_none (h : d q = none) : d.removeTree p q = none := by
  rw [removeTree, h, ite_self]

theorem write_self_ne_none : d.write p b p ≠ none := by
  rw [write, Function.update_self]
  exact Option.some_ne_none _

theorem write_ne_none (h : d q ≠ none) : d.write p b q ≠ none := by
  by_cases hq : q = p
  · rw [hq]
    exact write_self_ne_none
  · rwa [write, Function.update_of_ne hq]

theorem rename_of_not_isPrefix (hdst : ¬ dst <+: q) (hsrc : ¬ src <+: q) : d.rename src dst q = d q := by
  rw [rename, if_neg hdst, if_neg hsrc]

end Disk

end Framework
