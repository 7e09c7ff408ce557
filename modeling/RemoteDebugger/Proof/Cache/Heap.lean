import RemoteDebugger.Impl.CacheList
import RemoteDebugger.Proof.Cache.Basic

/-!
# The nodes of the cache hold its entries

`CacheList.Holds s l`: the nodes of `s` are a doubly linked list of `l`, and no
other node is allocated. Each operation takes it from a list to the list that
`CacheOp.onList` gives (`CacheOp.Step.holds`), so that after every run the nodes
hold the `entries` of the operations (`holds_of_run`).

`Cache.entries` reads the list model of the cache off the nodes:
`appendItem_refines`, `removeItem_refines` and `findPresentInCache_refines`.
-/

namespace RRD

open Framework

structure CacheList.Holds (s : CacheList) (l : List (Nat × CacheStrings)) : Prop where
  seg : ∃ q, Seg s.heap none s.cacheDataNode l q none
  only : ∀ a, s.heap a ≠ none → a ∈ l.map Prod.fst

namespace CacheList

variable {s s' : CacheList} {l l₁ l₂ : List (Nat × CacheStrings)} {a : Nat} {v : CacheStrings}

theorem Holds.nodup (hs : s.Holds l) : (l.map Prod.fst).Nodup := by
  obtain ⟨q, hq⟩ := hs.seg
  exact hq.nodup

theorem Holds.reaches_iff (hs : s.Holds l) : Reaches s.heap s.cacheDataNode a ↔ a ∈ l.map Prod.fst := by
  obtain ⟨q, hq⟩ := hs.seg
  exact hq.reaches_iff

theorem initCache_holds : initCache.Holds [] := ⟨⟨none, rfl, rfl⟩, fun _ ha => absurd rfl ha⟩

/-- The new node is the head, and the old head points back to it. -/
theorem appendItem_holds (hs : s.Holds l) (ha : s.heap a = none) (pkgData issueTypeData : Option Str) :
    ∃ s', s.appendItem (some a) pkgData issueTypeData = some s' ∧ s'.Holds ((a, ⟨pkgData, issueTypeData⟩) :: l) := by
  obtain ⟨⟨q, hq⟩, ho⟩ := hs
  have hal : a ∉ l.map Prod.fst := fun hm => by
    obtain ⟨l₁, w, l₂, r, k, -, -, hk, -⟩ := hq.split hm
    simp [ha] at hk
  -- the nodes of `l` are those of `s`, whatever is written at `a`
  have hfr (m : Heap Nat CacheStrings) (nd) (b : Nat) (hb : b ∈ l.map Prod.fst) : m.set a nd b = m b :=
    m.set_of_ne _ fun he => hal (he ▸ hb)
  cases hl : s.cacheDataNode with
  | none =>
    refine ⟨⟨s.heap.set a (some ⟨⟨pkgData, issueTypeData⟩, none, none⟩), some a⟩,
      by simp [appendItem, createCache, hl], ⟨some a, rfl, none, by simp, ?_⟩, fun b hb => ?_⟩
    · rw [hl] at hq
      cases l with
      | nil => exact ⟨rfl, rfl⟩
      | cons e l => exact absurd hq.1 (by simp)
    · by_cases hba : b = a
      · simp [hba]
      · exact List.mem_cons_of_mem _ (ho b (s.heap.set_of_ne _ hba ▸ hb))
  | some c =>
    rw [hl] at hq
    have hq' : Seg (s.heap.set a (some ⟨⟨pkgData, issueTypeData⟩, some c, none⟩)) none (some c) l q none :=
      hq.frame (hfr s.heap _)
    obtain ⟨m', hm', ⟨q', hs'⟩, hf⟩ := hq'.setPrev hq.nodup (some a)
    refine ⟨⟨m', some a⟩, ?_, ⟨q', rfl, some c, (hf a hal).trans (by simp), hs'⟩, fun b hb => ?_⟩
    · rw [Heap.storeIf] at hm'
      simp [appendItem, createCache, hl, hm']
    · by_cases hbl : b ∈ l.map Prod.fst
      · exact List.mem_cons_of_mem _ hbl
      · by_cases hba : b = a
        · simp [hba]
        · exact absurd (ho b fun he => hb ((hf b hbl).trans ((s.heap.set_of_ne _ hba).trans he))) hbl

theorem filter_ne (hd : ((l₁ ++ (a, v) :: l₂).map Prod.fst).Nodup) :
    (l₁ ++ (a, v) :: l₂).filter (fun e => some e.1 ≠ some a) = l₁ ++ l₂ := by
  simp only [List.map_append, List.map_cons, List.nodup_append, List.nodup_cons, List.mem_cons] at hd
  rw [List.filter_append, List.filter_cons_of_neg (by simp)]
  congr 1
  · refine List.filter_eq_self.mpr fun e he => ?_
    simpa using hd.2.2 e.1 (List.mem_map_of_mem he) a (.inl rfl)
  · refine List.filter_eq_self.mpr fun e he => ?_
    simp only [ne_eq, Option.some.injEq, decide_not, Bool.not_eq_true', decide_eq_false_iff_not]
    exact fun hea => hd.2.1.1 (hea ▸ List.mem_map_of_mem he)

theorem removeItem_holds (hs : s.Holds l) (ha : a ∈ l.map Prod.fst) :
    ∃ s', s.removeItem (some a) = some s' ∧ s'.Holds (l.filter fun e => some e.1 ≠ some a) := by
  obtain ⟨⟨q, hq⟩, ho⟩ := hs
  obtain ⟨⟨a, v⟩, hv, rfl⟩ := List.mem_map.mp ha
  obtain ⟨l₁, l₂, rfl⟩ := List.append_of_mem hv
  have hd := hq.nodup
  obtain ⟨r, k, m₁, m₂, hk, hm₁, hm₂, hr, hh, ⟨q', hs'⟩, hm₂a, hf⟩ := hq.unlink
  have hout : a ∉ (l₁ ++ l₂).map Prod.fst := by
    rw [← filter_ne hd]
    simp
  -- the head moves exactly when `a` is the head, and then `a` has no predecessor to write to
  have hrun : s.removeItem (some a) = some ⟨m₂.set a none, if l₁ = [] then k else s.cacheDataNode⟩ := by
    by_cases hl : l₁ = []
    · have hr' := hr hl
      subst hr'
      have : m₁ = m₂ := Option.some.inj hm₂
      subst this
      simp [removeItem, hk, hh.mpr hl, hm₁, freecacheDataCacheNode, Heap.free, hm₂a, hl]
    · have : s.cacheDataNode ≠ some a := fun he => hl (hh.mp he)
      simp [removeItem, hk, this, hm₁, hm₂, freecacheDataCacheNode, Heap.free, hm₂a, hl]
  refine ⟨_, hrun, ?_⟩
  rw [filter_ne hd]
  refine ⟨⟨q', hs'.frame fun b hb => m₂.set_of_ne _ fun he => hout (he ▸ hb)⟩, fun b hb => ?_⟩
  by_contra hbl
  by_cases hba : b = a
  · simp [hba] at hb
  · have hb' : m₂.set a none b ≠ none := hb
    rw [m₂.set_of_ne _ hba, hf b hbl] at hb'
    have := ho b hb'
    simp only [List.map_append, List.map_cons, List.mem_append, List.mem_cons] at this hbl
    tauto

theorem findFrom_eq {m : Heap Nat CacheStrings} {p h q : Option Nat} (hs : Seg m p h l q none) (pkgData : Str)
    {fuel : Nat} (hf : l.length < fuel) :
    findFrom m pkgData fuel h = some ((l.find? (·.2.mdata = some pkgData)).map Prod.fst) := by
  induction l generalizing p h fuel with
  | nil =>
    obtain ⟨rfl, -⟩ := hs
    obtain ⟨f, rfl⟩ := Nat.exists_eq_succ_of_ne_zero (Nat.ne_of_gt hf)
    rfl
  | cons e l ih =>
    obtain ⟨rfl, k, hk, hs⟩ := hs
    obtain ⟨f, rfl⟩ := Nat.exists_eq_succ_of_ne_zero (Nat.ne_of_gt (Nat.zero_lt_of_lt hf))
    have hf' : l.length < f := Nat.lt_of_succ_lt_succ hf
    have := ih hs hf'
    by_cases he : e.2.mdata = some pkgData <;> simp [findFrom, hk, he, this]

theorem findPresentInCache_eq (hs : s.Holds l) (pkgData : Str) {fuel : Nat} (hf : l.length < fuel) :
    s.findPresentInCache fuel pkgData = some ((l.find? (·.2.mdata = some pkgData)).map Prod.fst) := by
  obtain ⟨q, hq⟩ := hs.seg
  exact findFrom_eq hq pkgData hf

end CacheList

/-! ## Runs -/

variable {s s' : CacheList} {l : List (Nat × CacheStrings)} {op : CacheOp}

theorem CacheOp.perform_holds (hs : s.Holds l) (hl : op.Legal s) :
    ∃ s', op.perform s = some s' ∧ s'.Holds (op.onList l) := by
  cases op with
  | append addr pkgData issueTypeData =>
    cases addr with
    | none => exact ⟨s, rfl, hs⟩
    | some a => exact CacheList.appendItem_holds hs (hl a rfl) pkgData issueTypeData
  | find pkgData => exact ⟨s, rfl, hs⟩
  | remove cache =>
    cases cache with
    | none =>
      refine ⟨s, rfl, ?_⟩
      rw [onList, List.filter_eq_self.mpr (by simp)]
      exact hs
    | some a => exact CacheList.removeItem_holds hs (hs.reaches_iff.mp (hl a rfl))

theorem CacheOp.Step.holds (h : op.Step s s') (hs : s.Holds l) : s'.Holds (op.onList l) := by
  obtain ⟨s₁, h1, h2⟩ := CacheOp.perform_holds hs h.1
  rw [h.2, Option.some.injEq] at h1
  exact h1 ▸ h2

theorem holds_of_run {tr : List (CacheList × CacheOp)} (h : Run CacheOp.Step s tr s')
    (hs : s.Holds l) : s'.Holds ((tr.map Prod.snd).foldl CacheOp.onList l) := by
  induction h generalizing l with
  | nil => exact hs
  | cons hstep _ ih => exact ih (hstep.holds hs)

/-- After every run the nodes are a doubly linked list without cycles that
reads as the entries of the operations, a lookup finds the most recent entry of
its package, and the next operation meets no fault. -/
theorem requestCache_isList {tr : List (CacheList × CacheOp)}
    (h : Run CacheOp.Step CacheList.initCache tr s) :
    (∀ a nd, Reaches s.heap s.cacheDataNode a → s.heap a = some nd → ¬ Reaches s.heap nd.next a) ∧
      (∀ a nd, s.cacheDataNode = some a → s.heap a = some nd → nd.prev = none) ∧
      (∀ a nd b, s.heap a = some nd → nd.next = some b → ∃ nd', s.heap b = some nd' ∧ nd'.prev = some a) ∧
      (∀ fuel, (entries (tr.map Prod.snd)).length < fuel →
        s.heap.walk fuel s.cacheDataNode = some (entries (tr.map Prod.snd)) ∧
        ∀ pkgData, s.findPresentInCache fuel pkgData =
            some (((entries (tr.map Prod.snd)).find? (·.2.mdata = some pkgData)).map Prod.fst) ∧
          (s.findPresentInCache fuel pkgData = some none ↔
            ∀ e ∈ entries (tr.map Prod.snd), e.2.mdata ≠ some pkgData)) ∧
      ∀ op : CacheOp, op.Legal s → ∃ s', op.Step s s' := by
  have hh : s.Holds (entries (tr.map Prod.snd)) := holds_of_run h CacheList.initCache_holds
  obtain ⟨q, hq⟩ := hh.seg
  refine ⟨fun a nd ha hnd => hq.acyclic ha hnd, fun a nd ha hnd => ?_, fun a nd b hnd hb => ?_, fun fuel hf => ?_,
    fun op hl => ?_⟩
  · exact hq.head_prev ha hnd
  · have ha : Reaches s.heap s.cacheDataNode a := hh.reaches_iff.mpr (hh.only a (by simp [hnd]))
    exact hq.prev_next ha hnd hb
  · refine ⟨hq.walk_eq hf, fun pkgData => ?_⟩
    rw [CacheList.findPresentInCache_eq hh pkgData hf]
    exact ⟨rfl, by simp⟩
  · obtain ⟨s', hs', -⟩ := CacheOp.perform_holds hh hl
    exact ⟨s', hl, hs'⟩

/-- Two entries of one package and one of another, which is then removed from between them. -/
theorem requestCache_isList_sample : ∃ (s : CacheList) (tr : List (CacheList × CacheOp)),
    Run CacheOp.Step CacheList.initCache tr s ∧
    tr.map Prod.snd = [.append (some 1) (some (str "p")) (some (str "i")), .append (some 2) (some (str "q")) none,
      .append (some 3) (some (str "p")) (some (str "j")), .remove (some 2)] ∧
    s.heap.walk 3 s.cacheDataNode =
      some [(3, ⟨some (str "p"), some (str "j")⟩), (1, ⟨some (str "p"), some (str "i")⟩)] ∧
    s.findPresentInCache 3 (str "p") = some (some 3) := by
  have hrun : Run CacheOp.Step CacheList.initCache _ _ := Run.cons
    ⟨show CacheOp.Legal CacheList.initCache (.append (some 1) (some (str "p")) (some (str "i"))) by
      simp [CacheOp.Legal, CacheList.initCache], rfl⟩ (Run.cons
    ⟨show CacheOp.Legal _ (.append (some 2) (some (str "q")) none) by
      simp [CacheOp.Legal, Heap.set, CacheList.initCache], rfl⟩ (Run.cons
    ⟨show CacheOp.Legal _ (.append (some 3) (some (str "p")) (some (str "j"))) by
      simp [CacheOp.Legal, Heap.set, CacheList.initCache], rfl⟩ (Run.cons
    ⟨show CacheOp.Legal _ (.remove (some 2)) by
      rintro _ ⟨rfl⟩
      exact .next rfl (.here 2), rfl⟩ (.nil _))))
  have h := (requestCache_isList hrun).2.2.2.1 3 (by decide)
  exact ⟨_, _, hrun, rfl, h.1, (h.2 (str "p")).1⟩

/-! ## The list model -/

/-- The entries of a cache in the list model. -/
def Cache.entries (c : Cache) : List (Nat × CacheStrings) :=
  c.map fun e => (e.addr, ⟨some e.mdata, some e.issueString⟩)

variable {c : Cache} {e : CacheData}

theorem Cache.map_fst_entries (c : Cache) : c.entries.map Prod.fst = c.map CacheData.addr := by
  simp [Cache.entries]

theorem CacheList.Holds.distinct (hs : s.Holds c.entries) : c.Distinct := by
  rw [Cache.Distinct, ← Cache.map_fst_entries]
  exact hs.nodup

theorem appendItem_refines (hs : s.Holds c.entries) {a : Nat} (ha : s.heap a = none) (pkgData issueTypeData : Str) :
    ∃ s', s.appendItem (some a) (some pkgData) (some issueTypeData) = some s' ∧
      s'.Holds (appendItem a pkgData issueTypeData c).entries :=
  CacheList.appendItem_holds hs ha (some pkgData) (some issueTypeData)

theorem removeItem_refines (hs : s.Holds c.entries) (he : e ∈ c) :
    ∃ s', s.removeItem (some e.addr) = some s' ∧ s'.Holds (removeItem e c).entries := by
  have ha : e.addr ∈ c.entries.map Prod.fst := c.map_fst_entries ▸ List.mem_map_of_mem he
  obtain ⟨s', h, hs'⟩ := CacheList.removeItem_holds hs ha
  refine ⟨s', h, ?_⟩
  simpa [Cache.entries, removeItem, List.filter_map, Function.comp_def] using hs'

theorem findPresentInCache_refines (hs : s.Holds c.entries) (pkgData : Str) {fuel : Nat} (hf : c.length < fuel) :
    s.findPresentInCache fuel pkgData = some ((findPresentInCache pkgData c).map CacheData.addr) := by
  rw [CacheList.findPresentInCache_eq hs pkgData (by simpa [Cache.entries] using hf), Cache.entries, List.find?_map,
    findPresentInCache, Option.map_map]
  simp only [Function.comp_def, Option.some.injEq]

end RRD
