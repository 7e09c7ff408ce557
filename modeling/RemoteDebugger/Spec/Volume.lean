import RemoteDebugger.Impl.Sysinfo
import RemoteDebugger.Proof.Dispatch.Token
import RemoteDebugger.Spec.FileTree

/-!
# Paths in a file system

A volume is a root directory without symbolic links, the directory that relative
paths start in, the paths whose directories may be opened, and those whose items may
be looked at. A path denotes a location, which is the list of names from the root.

* `Tree.item_isSome`: the names of a directory are those of its entries;
* `strtok_concat`: the components of a path with a name after it;
* `Volume.resolve_child`, `Volume.item_child`: a name behind the path of a directory
  denotes the entry.
-/

namespace RRD

open Framework

/-- What a name can stand for. -/
inductive TreeItem where
  | file (f : RegularFile)
  | dir (d : Directory) (t : Tree)
  | special (s : Special)

namespace TreeItem

def st : TreeItem → Stat
  | file f => f.st
  | dir d _ => d.st
  | special s => s.st

end TreeItem

namespace Tree

/-- The entry of a directory with this name. -/
def item (name : Str) : Tree → Option TreeItem
  | nil => none
  | file n f next => if n.name = name then some (.file f) else next.item name
  | dir n d sub next => if n.name = name then some (.dir d sub) else next.item name
  | special n s next => if n.name = name then some (.special s) else next.item name

/-- The sizes of all regular files below. -/
def size : Tree → Nat
  | nil => 0
  | file _ f next => f.st.stSize.val + next.size
  | dir _ _ sub next => sub.size + next.size
  | special _ _ next => next.size

theorem item_isSome {name : Str} {t : Tree} : (t.item name).isSome ↔ name ∈ t.names := by
  induction t with
  | nil => simp [item, names]
  | file n _ next ih | special n _ next ih =>
    rw [item, names, List.mem_cons, ← ih]
    by_cases hn : n.name = name
    · simp [hn]
    · simp [hn, Ne.symm hn]
  | dir n _ sub next _ ih =>
    rw [item, names, List.mem_cons, ← ih]
    by_cases hn : n.name = name
    · simp [hn]
    · simp [hn, Ne.symm hn]

/-- A name in a directory is that of a file. -/
theorem exists_fileName {name : Str} {t : Tree} (h : name ∈ t.names) : ∃ n : FileName, n.name = name := by
  induction t with
  | nil => cases h
  | file n _ next ih | special n _ next ih =>
    rcases List.mem_cons.mp h with rfl | h
    · exact ⟨n, rfl⟩
    · exact ih h
  | dir n _ sub next _ ih =>
    rcases List.mem_cons.mp h with rfl | h
    · exact ⟨n, rfl⟩
    · exact ih h

end Tree

/-- The item at a location below another one. -/
def TreeItem.at : TreeItem → List Str → Option TreeItem
  | i, [] => some i
  | .dir _ t, name :: rest => (t.item name).bind (·.at rest)
  | _, _ :: _ => none

theorem TreeItem.at_append (i : TreeItem) (l l' : List Str) : i.at (l ++ l') = (i.at l).bind (·.at l') := by
  induction l generalizing i with
  | nil => simp [TreeItem.at]
  | cons name rest ih =>
    cases i with
    | dir d t =>
      rw [List.cons_append, TreeItem.at, TreeItem.at]
      cases t.item name with
      | none => rfl
      | some j => exact ih j
    | _ => rfl

/-! ## Volumes -/

structure Volume where
  root : TreeItem
  cwd : List Str
  opens : Str → Bool
  stats : Str → Bool

namespace Volume

variable (v : Volume)

/-- The location that a component leads to, from that of a directory. -/
def step (loc : List Str) (name : Str) : Option (List Str) :=
  match v.root.at loc with
  | some (.dir _ t) =>
    if name = str "." then some loc
    else if name = str ".." then some loc.dropLast
    else (t.item name).map fun _ => loc ++ [name]
  | _ => none

/-- The location that the components of a path lead to. -/
def walk (path : Str) : Option (List Str) :=
  (strtok (ch '/') path).foldlM v.step (if path.head? = some (ch '/') then [] else v.cwd)

/-- The location that a path denotes. A slash at its end is one of a directory. -/
def resolve (path : Str) : Option (List Str) :=
  if path = [] then none
  else (v.walk path).filter fun loc =>
    path.getLast? ≠ some (ch '/') ∨ (v.root.at loc).any fun i => sIsDir i.st.stMode

/-- The item that a path denotes. -/
def item (path : Str) : Option TreeItem := (v.resolve path).bind v.root.at

/-- The item that `stat` finds. -/
def seen (path : Str) : Option TreeItem := if v.stats path then v.item path else none

/-- The answers of the calls. -/
def calls : DirCalls where
  readdir path :=
    match v.item path with
    | some (.dir _ t) => if v.opens path then some (str "." :: str ".." :: t.names) else none
    | _ => none
  stat path := (v.seen path).map TreeItem.st

/-- A location properly below that of another path. -/
def Below (dirpath filepath : Str) : Prop :=
  ∃ loc rest, v.resolve dirpath = some loc ∧ v.resolve filepath = some (loc ++ rest) ∧ rest ≠ []

end Volume

/-! ## Names after a path -/

theorem strtokFrom_concat {delim : Byte} {n : Str} (hn : delim ∉ n) (hne : n ≠ []) (tok s : Str) :
    strtokFrom delim tok (s ++ delim :: n) = strtokFrom delim tok s ++ [n] := by
  have hlast : strtokFrom delim [] n = [n] := strtok_of_notMem hn hne
  induction s generalizing tok with
  | nil =>
    simp only [List.nil_append, strtokFrom, if_true, hlast]
    split <;> rfl
  | cons b s ih =>
    simp only [List.cons_append, strtokFrom, ih]
    split
    · split <;> rfl
    · rfl

/-- The components of a path with a name after it. -/
theorem strtok_concat {delim : Byte} {n : Str} (hn : delim ∉ n) (hne : n ≠ []) (s : Str) :
    strtok delim (s ++ delim :: n) = strtok delim s ++ [n] := strtokFrom_concat hn hne [] s

namespace Volume

variable {v : Volume} {path : Str} {loc : List Str} {d : Directory} {t : Tree}

theorem step_name (h : v.root.at loc = some (.dir d t)) (n : FileName) :
    v.step loc n.name = (t.item n.name).map fun _ => loc ++ [n.name] := by
  obtain ⟨hdot, hdots⟩ := not_or.mp n.not_dot
  simp only [step, h, if_neg hdot, if_neg hdots]

/-- A name behind the path of a directory denotes the entry of that name. -/
theorem resolve_child (hpath : v.resolve path = some loc) (h : v.root.at loc = some (.dir d t)) (n : FileName) :
    v.resolve (path ++ ch '/' :: n.name) = (t.item n.name).map fun _ => loc ++ [n.name] := by
  rw [resolve] at hpath
  obtain ⟨hne, hpath⟩ := Option.ite_none_left_eq_some.mp hpath
  obtain ⟨hwalk, -⟩ := Option.filter_eq_some_iff.mp hpath
  have hhead : (path ++ ch '/' :: n.name).head? = path.head? := List.head?_append_of_ne_nil path hne
  have hwalk' : v.walk (path ++ ch '/' :: n.name) = (t.item n.name).map fun _ => loc ++ [n.name] := by
    rw [walk, strtok_concat n.no_slash n.ne_nil, hhead, List.foldlM_append]
    rw [walk] at hwalk
    rw [hwalk, ← step_name h n]
    show [n.name].foldlM v.step loc = v.step loc n.name
    rw [List.foldlM_cons]
    cases v.step loc n.name <;> rfl
  have hlast : (path ++ ch '/' :: n.name).getLast? ≠ some (ch '/') := fun hlast => by
    rw [List.append_cons, List.getLast?_append_of_ne_nil _ n.ne_nil] at hlast
    exact n.no_slash (List.mem_of_getLast? hlast)
  rw [resolve, if_neg (by simp), hwalk']
  cases t.item n.name with
  | none => rfl
  | some i => exact Option.filter_eq_some_iff.mpr ⟨rfl, decide_eq_true (.inl hlast)⟩

theorem item_child (hpath : v.resolve path = some loc) (h : v.root.at loc = some (.dir d t)) (n : FileName) :
    v.item (path ++ ch '/' :: n.name) = t.item n.name := by
  rw [item, resolve_child hpath h]
  cases hitem : t.item n.name with
  | none => rfl
  | some i =>
    rw [Option.map_some, Option.bind_some, TreeItem.at_append, h, Option.bind_some, TreeItem.at, hitem, Option.bind_some]
    cases i <;> rfl

end Volume

end RRD
