import RemoteDebugger.Proof.Cache.Once

/-!
# Requests between the bus call and the completion

The entry a completion looks for is appended only after the bus call that can
bring the completion about. The books are kept in two ways: every request is
pending, in the cache or removed (`Books`), and every completion event comes
from a bus call and ends in a message or a miss (`Run.balance`). Hence, when
nothing is pending, all requests have been redelivered exactly when no lookup
has missed (`allRedelivered_iff`).
-/

namespace RRD

open Framework

def CacheData.request (e : CacheData) : Str × Str := (e.mdata, e.issueString)

/-- The node whose message is sent but which is not yet removed. -/
def Pc.sent : Pc → List CacheData
  | .delivered e => [e]
  | _ => []

/-- Whether a handler has found a node and not sent its message. -/
def Pc.toSend : Pc → Nat
  | .found _ _ => 1
  | _ => 0

namespace Managed

/-- No request is between its steps, and every completion event was handled. -/
structure Quiescent (s : Managed) : Prop where
  request : s.threads.request = none
  owed : s.owed = []
  handler : s.threads.handlers () = .idle

/-- Every request is on the queue again, and the cache is empty. -/
def AllRedelivered (s : Managed) : Prop :=
  s.threads.requested.Perm (s.threads.sent.map fun p => p.1.request) ∧ s.threads.cache = []

/-- A completion event finds an entry of its package. -/
def answered (s : Managed) : Act Unit → Bool
  | .lookup _ ev => (findPresentInCache ev.key s.threads.cache).isSome
  | _ => true

/-! ## Steps -/

section

variable {s s' : Managed} {a : Act Unit}

theorem step_iff : Step s a s' ↔ Threads.Step s.threads a s'.threads ∧ s.owes a = some s'.owed := by
  rw [Step, step, Threads.Step]
  constructor
  · intro h
    obtain ⟨threads, ht, h⟩ := Option.bind_eq_some_iff.mp h
    obtain ⟨owed, ho, rfl⟩ := Option.map_eq_some_iff.mp h
    exact ⟨ht, ho⟩
  · rintro ⟨ht, ho⟩
    rw [ht, ho]
    rfl

theorem Step.threads (h : Step s a s') : Threads.Step s.threads a s'.threads := (step_iff.mp h).1

theorem Step.owed (h : Step s a s') : s.owes a = some s'.owed := (step_iff.mp h).2

/-- A completion event was owed. -/
theorem Step.owed_lookup {t : Unit} {ev : Completion} (h : Step s (.lookup t ev) s') :
    s.owed.length = s'.owed.length + 1 := by
  have ho := h.owed
  rw [owes] at ho
  split at ho
  · rename_i hm
    have hl := List.length_erase_of_mem hm
    have hpos := List.length_pos_of_mem hm
    rw [← Option.some.inj ho, hl]
    omega
  · cases ho

/-- One handler shares no node. -/
theorem Step.unshared (h : Step s a s') : s.threads.Unshared a := by
  cases a with
  | lookup t ev =>
    intro e _ t' hn
    have ht := (Threads.step_lookup.mp h.threads).1
    rw [show t' = t from rfl, ht] at hn
    cases hn
  | rbusSet pkg issue => trivial
  | append => trivial
  | deliver t => trivial
  | remove t => trivial

end

/-! ## The requests -/

/-- Every request is pending, in the cache or removed; what was sent is removed,
or about to be. -/
structure Books (s : Threads Unit) : Prop where
  requested : s.requested.Perm
    (s.request.toList ++ (s.cache.map CacheData.request ++ s.removed.map CacheData.request))
  sent : (s.sent.map fun p => p.1.request).Perm
    ((s.handlers ()).sent.map CacheData.request ++ s.removed.map CacheData.request)

theorem Books.step {s s' : Threads Unit} {a : Act Unit} (hs : Threads.Step s a s') (ho : s.Once) (h : Books s) :
    Books s' := by
  cases a with
  | rbusSet pkg issue =>
    obtain ⟨hr, rfl⟩ := Threads.step_rbusSet.mp hs
    refine ⟨?_, h.sent⟩
    have := h.requested
    rw [hr] at this
    exact this.cons _
  | append =>
    obtain ⟨pkg, issue, hr, rfl⟩ := Threads.step_append.mp hs
    refine ⟨?_, h.sent⟩
    have := h.requested
    rw [hr] at this
    exact this
  | lookup t ev =>
    obtain ⟨ht, ⟨-, rfl⟩ | ⟨e, -, rfl⟩⟩ := Threads.step_lookup.mp hs
    · exact h
    · refine ⟨h.requested, ?_⟩
      have := h.sent
      rw [ht] at this
      rw [Threads.setPc_self]
      exact this
  | deliver t =>
    obtain ⟨ev, e, ht, rfl⟩ := Threads.step_deliver.mp hs
    refine ⟨h.requested, ?_⟩
    have := h.sent
    rw [ht] at this
    show (e.request :: _).Perm (((s.setPc t (.delivered e)).handlers t).sent.map CacheData.request ++ _)
    rw [Threads.setPc_self]
    exact this.cons _
  | remove t =>
    obtain ⟨e, ht, rfl⟩ := Threads.step_remove.mp hs
    have he : e ∈ s.cache := ho.held t e (by rw [ht, Pc.node])
    constructor
    · refine h.requested.trans (List.Perm.append_left _ ?_)
      show (s.cache.map _ ++ _).Perm ((removeItem e s.cache).map _ ++ e.request :: _)
      rw [ho.distinct.removeItem_eq he]
      exact (((List.perm_cons_erase he).map _).append_right _).trans List.perm_middle.symm
    · have := h.sent
      rw [ht] at this
      show (s.sent.map _).Perm (((s.setPc t .idle).handlers t).sent.map CacheData.request ++ _)
      rw [Threads.setPc_self]
      exact this

/-- The invariant of the requests, over a run. -/
theorem books_of_run {s : Managed} {tr : List (Managed × Act Unit)} (h : Run Step init tr s) : Books s.threads := by
  have hi : Books (Threads.init Unit) := ⟨.nil, .nil⟩
  exact (h.invariant (I := fun s => s.threads.Once ∧ Books s.threads) (C := fun _ _ => True)
    (fun hs _ hi => ⟨Threads.Once.step hs.threads hs.unshared hi.1, hi.2.step hs.threads hi.1⟩)
    (fun _ _ => trivial) ⟨Threads.once_init, hi⟩).2

/-! ## The completion events -/

/-- A bus call is followed by one completion event, which misses, or is about to
be answered by a message, or has been. -/
theorem Step.balance {s s' : Managed} {a : Act Unit} (h : Step s a s') :
    s'.threads.requested.length + (s.threads.sent.length + (s.threads.handlers ()).toSend + s.owed.length) =
      s.threads.requested.length +
        (s'.threads.sent.length + (s'.threads.handlers ()).toSend + s'.owed.length) +
        (!s.answered a).toNat := by
  have ho := h.owed
  have hs := h.threads
  have hset : ∀ (s : Threads Unit) (t : Unit) (pc : Pc), (s.setPc t pc).handlers () = pc :=
    fun s t pc => Threads.setPc_self s t pc
  cases a with
  | rbusSet pkg issue =>
    obtain ⟨-, he⟩ := Threads.step_rbusSet.mp hs
    simp only [owes, Option.some.injEq] at ho
    simp only [← ho, he, answered, List.length_cons, Bool.not_true, Bool.toNat_false]
    omega
  | append =>
    obtain ⟨pkg, issue, -, he⟩ := Threads.step_append.mp hs
    simp only [owes, Option.some.injEq] at ho
    simp only [← ho, he, answered, Bool.not_true, Bool.toNat_false]
    omega
  | lookup t ev =>
    have hl := h.owed_lookup
    obtain ⟨ht, ⟨hf, he⟩ | ⟨e, hf, he⟩⟩ := Threads.step_lookup.mp hs
    · simp only [he, hl, answered, hf, Option.isSome_none, Bool.not_false, Bool.toNat_true]
      omega
    · have ht₀ : (s.threads.handlers ()).toSend = 0 := congrArg Pc.toSend ht
      have ht' : (s'.threads.handlers ()).toSend = 1 := by rw [he, hset, Pc.toSend]
      rw [ht', ht₀, hl]
      simp only [he, Threads.setPc, answered, hf, Option.isSome_some, Bool.not_true, Bool.toNat_false]
      omega
  | deliver t =>
    obtain ⟨ev, e, ht, he⟩ := Threads.step_deliver.mp hs
    have ht₀ : (s.threads.handlers ()).toSend = 1 := congrArg Pc.toSend ht
    have ht' : (s'.threads.handlers ()).toSend = 0 := by
      rw [he]
      exact congrArg Pc.toSend (hset s.threads t (.delivered e))
    simp only [owes, Option.some.injEq] at ho
    rw [ht', ht₀, ← ho]
    simp only [he, Threads.setPc, answered, List.length_cons, Bool.not_true, Bool.toNat_false]
    omega
  | remove t =>
    obtain ⟨e, ht, he⟩ := Threads.step_remove.mp hs
    have ht₀ : (s.threads.handlers ()).toSend = 0 := congrArg Pc.toSend ht
    have ht' : (s'.threads.handlers ()).toSend = 0 := by
      rw [he]
      exact congrArg Pc.toSend (hset s.threads t .idle)
    simp only [owes, Option.some.injEq] at ho
    rw [ht', ht₀, ← ho]
    simp only [he, Threads.setPc, answered, Bool.not_true, Bool.toNat_false]
    omega

/-- Over a run, what is not answered is what is lost. -/
theorem balance {s s' : Managed} {tr : List (Managed × Act Unit)} (h : Run Step s tr s') :
    s'.threads.requested.length + (s.threads.sent.length + (s.threads.handlers ()).toSend + s.owed.length) =
      s.threads.requested.length +
        (s'.threads.sent.length + (s'.threads.handlers ()).toSend + s'.owed.length) +
        tr.countP fun p => !p.1.answered p.2 := by
  induction h with
  | nil => simp
  | @cons s s₁ s' a tr hs _ ih =>
    have hb := hs.balance
    rw [List.countP_cons]
    cases ha : s.answered a with
    | true =>
      simp only [ha, Bool.not_true, Bool.toNat_false, Bool.false_eq_true, if_false] at hb ⊢
      omega
    | false =>
      simp only [ha, Bool.not_false, Bool.toNat_true, if_true] at hb ⊢
      omega

/-- When nothing is pending, all requests were redelivered exactly when every
completion event found an entry of its package in the cache. -/
theorem allRedelivered_iff {s : Managed} {tr : List (Managed × Act Unit)} (h : Run Step init tr s)
    (hq : s.Quiescent) : s.AllRedelivered ↔ ∀ p ∈ tr, p.1.answered p.2 := by
  have hb := balance h
  have hbooks := books_of_run h
  have hreq := hbooks.requested
  have hsent := hbooks.sent
  rw [hq.request, Option.toList_none, List.nil_append] at hreq
  rw [hq.handler, show Pc.idle.sent = [] from rfl, List.map_nil, List.nil_append] at hsent
  have hlen := hreq.length_eq
  have hlen' := hsent.length_eq
  simp only [List.length_append, List.length_map] at hlen hlen'
  have hcount : s.threads.cache.length = tr.countP fun p => !p.1.answered p.2 := by
    simp only [hq.owed, hq.handler, Pc.toSend, init, Threads.init, List.length_nil] at hb
    omega
  have hzero : (tr.countP fun p => !p.1.answered p.2) = 0 ↔ ∀ p ∈ tr, p.1.answered p.2 := by
    simp [List.countP_eq_zero]
  rw [← hzero, ← hcount, List.length_eq_zero_iff]
  constructor
  · exact fun hr => hr.2
  · intro hc
    rw [hc, List.map_nil, List.nil_append] at hreq
    exact ⟨hreq.trans hsent.symm, hc⟩

/-- A request for a package and its completion. -/
def pingEvent : Completion := .iarm (str "RDK-RRD-Network") (str "/media/apps/RDK-RRD-Network")

theorem allRedelivered_iff_appended : ∃ s tr, Run Step init tr s ∧ s.Quiescent ∧ s.AllRedelivered ∧
    s.threads.sent.length = 1 := by
  let acts : List (Act Unit) :=
    [.rbusSet pingEvent.key (str "Network.Ping"), .append, .lookup () pingEvent, .deliver (), .remove ()]
  obtain ⟨s, hs⟩ : ∃ s, exec step init acts = some s := ⟨_, rfl⟩
  have hq : s.Quiescent := by
    cases hs
    exact ⟨rfl, rfl, rfl⟩
  have hc : ∀ p ∈ trace step init acts, p.1.answered p.2 := by decide
  refine ⟨s, _, exec_run hs, hq, (allRedelivered_iff (exec_run hs) hq).mpr hc, ?_⟩
  cases hs
  rfl

/-- The completion event is handled before `append_item`: the entry stays, and
nothing is redelivered. -/
theorem early_completion_lost : ∃ s tr, Run Step init tr s ∧ s.Quiescent ∧ s.threads.sent = [] ∧
    ¬ s.AllRedelivered := by
  let acts : List (Act Unit) := [.rbusSet pingEvent.key (str "Network.Ping"), .lookup () pingEvent, .append]
  obtain ⟨s, hs⟩ : ∃ s, exec step init acts = some s := ⟨_, rfl⟩
  refine ⟨s, _, exec_run hs, ?_⟩
  cases hs
  exact ⟨⟨rfl, rfl, rfl⟩, rfl, fun h => by cases h.2⟩

end Managed

end RRD
