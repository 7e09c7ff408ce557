import Mathlib.Data.List.Find
import Mathlib.Data.List.Nodup
import RemoteDebugger.Impl.Cache

/-!
# The cache as a list of nodes

Nodes have different addresses (`Distinct`), which every operation keeps.

* `findPresentInCache_spec`: what a lookup finds is in the cache, under the key;
* `mem_removeItem`, `findPresentInCache_removeItem`: a removal takes the node
  with that address, and no entry of another package.
-/

namespace RRD

open Framework

def Cache.Distinct (c : Cache) : Prop := (c.map CacheData.addr).Nodup

instance (c : Cache) : Decidable c.Distinct := inferInstanceAs (Decidable (List.Nodup _))

variable {c : Cache} {e e' : CacheData} {pkg : Str}

theorem findPresentInCache_spec (h : findPresentInCache pkg c = some e) : e ∈ c ∧ e.mdata = pkg :=
  ⟨List.mem_of_find?_eq_some h, by simpa using List.find?_some h⟩

theorem findPresentInCache_eq_none : findPresentInCache pkg c = none ↔ ∀ e ∈ c, e.mdata ≠ pkg := by
  simp [findPresentInCache]

theorem mem_removeItem : e' ∈ removeItem e c ↔ e' ∈ c ∧ e'.addr ≠ e.addr := by
  simp [removeItem]

theorem Cache.Distinct.eq_of_addr (hd : c.Distinct) (h : e ∈ c) (h' : e' ∈ c) (ha : e.addr = e'.addr) : e = e' :=
  List.inj_on_of_nodup_map hd h h' ha

theorem Cache.Distinct.removeItem (hd : c.Distinct) (e : CacheData) : (removeItem e c).Distinct :=
  hd.sublist (List.filter_sublist.map _)

theorem Cache.Distinct.appendItem (hd : c.Distinct) {addr : Nat} (ha : ∀ e ∈ c, e.addr ≠ addr) (pkg issue : Str) :
    (appendItem addr pkg issue c).Distinct := by
  refine List.nodup_cons.mpr ⟨fun h => ?_, hd⟩
  obtain ⟨e, he, rfl⟩ := List.mem_map.mp h
  exact ha e he rfl

/-- A node in the cache goes, and it alone. -/
theorem Cache.Distinct.removeItem_eq (hd : c.Distinct) (h : e ∈ c) : RRD.removeItem e c = c.erase e := by
  rw [RRD.removeItem, (List.Nodup.of_map _ hd).erase_eq_filter]
  refine List.filter_congr fun x hx => ?_
  by_cases hxe : x = e
  · simp [hxe]
  · have : x.addr ≠ e.addr := fun ha => hxe (hd.eq_of_addr hx h ha)
    simp [hxe, this]

/-- A removal of an entry of one package leaves lookups of the others alone. -/
theorem findPresentInCache_removeItem (hd : c.Distinct) (h : e ∈ c) (hp : e.mdata ≠ pkg) :
    findPresentInCache pkg (removeItem e c) = findPresentInCache pkg c := by
  rw [findPresentInCache, findPresentInCache, removeItem, List.find?_filter]
  refine List.find?_congr fun x hx => ?_
  by_cases hxp : x.mdata = pkg
  · have : x.addr ≠ e.addr := fun ha => hp (hd.eq_of_addr hx h ha ▸ hxp)
    simp [hxp, this]
  · simp [hxp]

end RRD
