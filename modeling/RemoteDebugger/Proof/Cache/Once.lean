import RemoteDebugger.Proof.Cache.Steps

/-!
# Delivered and removed once

A lookup leaves its node in the cache until the handler has sent the message,
so a second handler can find the same node. As long as none does (`Unshared`),
every node is delivered once and unlinked once (`atMostOnce_of_unshared`): the
invariant `Once` says that handlers hold different nodes of the cache, and that
a node of the cache already sent is one whose removal is pending.
-/

namespace RRD

open Framework

namespace Threads

variable {τ : Type}

/-- Every entry is put on the queue at most once, and no removal is of a node
already unlinked. -/
def AtMostOnce (s : Threads τ) : Prop :=
  (s.sent.map fun p => p.1.addr).Nodup ∧ (s.removed.map CacheData.addr).Nodup

/-- A lookup finds no node that a handler still holds. -/
def Unshared (s : Threads τ) : Act τ → Prop
  | .lookup _ ev => ∀ e, findPresentInCache ev.key s.cache = some e → ∀ t, (s.handlers t).node ≠ some e
  | _ => True

structure Once (s : Threads τ) : Prop where
  distinct : s.cache.Distinct
  fresh : ∀ e ∈ s.cache, e.addr < s.next
  held : ∀ t e, (s.handlers t).node = some e → e ∈ s.cache
  alone : ∀ t t' e, (s.handlers t).node = some e → (s.handlers t').node = some e → t = t'
  sentFresh : ∀ p ∈ s.sent, p.1.addr < s.next
  sentHeld : ∀ p ∈ s.sent, ∀ e ∈ s.cache, e.addr = p.1.addr → ∃ t, s.handlers t = .delivered e
  removedFresh : ∀ e ∈ s.removed, e.addr < s.next
  unlinked : ∀ r ∈ s.removed, ∀ e ∈ s.cache, e.addr ≠ r.addr
  once : s.AtMostOnce

theorem once_init : (init τ).Once where
  distinct := List.nodup_nil
  fresh := by simp [init]
  held := by simp [init, Pc.node]
  alone := by simp [init, Pc.node]
  sentFresh := by simp [init]
  sentHeld := by simp [init]
  removedFresh := by simp [init]
  unlinked := by simp [init]
  once := ⟨List.nodup_nil, List.nodup_nil⟩

section

variable {s s' : Threads τ} {t : τ} {ev : Completion} {pkg issue : Str}

/-- The node that a handler sends has not been sent before. -/
theorem Once.not_sent (h : Once s) {e : CacheData} (ht : s.handlers t = .found ev e) :
    e.addr ∉ s.sent.map fun p => p.1.addr := by
  have hnode : (s.handlers t).node = some e := by rw [ht, Pc.node]
  intro hm
  obtain ⟨p, hp, ha⟩ := List.mem_map.mp hm
  obtain ⟨t', ht'⟩ := h.sentHeld p hp e (h.held t e hnode) ha.symm
  have := h.alone t t' e hnode (by rw [ht', Pc.node])
  rw [← this, ht] at ht'
  cases ht'

variable [DecidableEq τ]

theorem Once.rbusSet (h : Once s) (hs : Step s (.rbusSet pkg issue) s') : Once s' := by
  obtain ⟨-, rfl⟩ := step_rbusSet.mp hs
  exact ⟨h.distinct, h.fresh, h.held, h.alone, h.sentFresh, h.sentHeld, h.removedFresh, h.unlinked, h.once⟩

/-- A new node has an address of its own. -/
theorem Once.append (h : Once s) (hs : Step s .append s') : Once s' := by
  obtain ⟨pkg, issue, -, rfl⟩ := step_append.mp hs
  have hlt : ∀ n, n < s.next → n < s.next + 1 := fun n hn => by omega
  constructor
  · exact h.distinct.appendItem (fun e he => (h.fresh e he).ne) pkg issue
  · exact List.forall_mem_cons.mpr ⟨Nat.lt_succ_self _, fun e he => hlt _ (h.fresh e he)⟩
  · exact fun t e he => List.mem_cons_of_mem _ (h.held t e he)
  · exact h.alone
  · exact fun p hp => hlt _ (h.sentFresh p hp)
  · intro p hp
    refine List.forall_mem_cons.mpr ⟨fun he => ?_, h.sentHeld p hp⟩
    exact absurd he (h.sentFresh p hp).ne'
  · exact fun e he => hlt _ (h.removedFresh e he)
  · intro r hr
    exact List.forall_mem_cons.mpr ⟨(h.removedFresh r hr).ne', h.unlinked r hr⟩
  · exact h.once

theorem Once.lookup (h : Once s) (hs : Step s (.lookup t ev) s') (hc : Unshared s (.lookup t ev)) : Once s' := by
  obtain ⟨ht, ⟨-, rfl⟩ | ⟨e, hf, rfl⟩⟩ := step_lookup.mp hs
  · exact h
  have hn : ∀ t', ((s.setPc t (.found ev e)).handlers t').node = if t' = t then some e else (s.handlers t').node := by
    intro t'
    by_cases h' : t' = t
    · rw [if_pos h', h', setPc_self, Pc.node]
    · rw [if_neg h', setPc_of_ne _ _ h']
  constructor
  · exact h.distinct
  · exact h.fresh
  · intro t' e' he'
    rw [hn] at he'
    split at he'
    · cases he'
      exact (findPresentInCache_spec hf).1
    · exact h.held t' e' he'
  · intro t₁ t₂ e' h₁ h₂
    rw [hn] at h₁ h₂
    split at h₁ <;> split at h₂
    · rename_i h₁' h₂'
      exact h₁'.trans h₂'.symm
    · cases h₁
      exact absurd h₂ (hc _ hf t₂)
    · cases h₂
      exact absurd h₁ (hc _ hf t₁)
    · exact h.alone t₁ t₂ e' h₁ h₂
  · exact h.sentFresh
  · intro p hp e' he' ha
    obtain ⟨t', ht'⟩ := h.sentHeld p hp e' he' ha
    have hne : t' ≠ t := fun heq => by
      rw [heq, ht] at ht'
      cases ht'
    exact ⟨t', (setPc_of_ne s _ hne).trans ht'⟩
  · exact h.removedFresh
  · exact h.unlinked
  · exact h.once

theorem Once.deliver (h : Once s) (hs : Step s (.deliver t) s') : Once s' := by
  obtain ⟨ev, e, ht, rfl⟩ := step_deliver.mp hs
  have hnode : (s.handlers t).node = some e := by rw [ht, Pc.node]
  have he : e ∈ s.cache := h.held t e hnode
  have hn : ∀ t', ((s.setPc t (.delivered e)).handlers t').node = (s.handlers t').node := by
    intro t'
    by_cases h' : t' = t
    · rw [h', setPc_self, hnode, Pc.node]
    · rw [setPc_of_ne _ _ h']
  constructor
  · exact h.distinct
  · exact h.fresh
  · intro t' e' he'
    exact h.held t' e' ((hn t').symm.trans he')
  · intro t₁ t₂ e' h₁ h₂
    exact h.alone t₁ t₂ e' ((hn t₁).symm.trans h₁) ((hn t₂).symm.trans h₂)
  · exact List.forall_mem_cons.mpr ⟨h.fresh e he, h.sentFresh⟩
  · refine List.forall_mem_cons.mpr ⟨fun e' he' ha => ?_, fun p hp e' he' ha => ?_⟩
    · rw [h.distinct.eq_of_addr he' he ha]
      exact ⟨t, setPc_self s t _⟩
    · obtain ⟨t', ht'⟩ := h.sentHeld p hp e' he' ha
      have hne : t' ≠ t := fun heq => by
        rw [heq, ht] at ht'
        cases ht'
      exact ⟨t', (setPc_of_ne s _ hne).trans ht'⟩
  · exact h.removedFresh
  · exact h.unlinked
  · exact ⟨List.nodup_cons.mpr ⟨h.not_sent ht, h.once.1⟩, h.once.2⟩

theorem Once.remove (h : Once s) (hs : Step s (.remove t) s') : Once s' := by
  obtain ⟨e, ht, rfl⟩ := step_remove.mp hs
  have hnode : (s.handlers t).node = some e := by rw [ht, Pc.node]
  have he : e ∈ s.cache := h.held t e hnode
  have hn : ∀ t' e', ((s.setPc t .idle).handlers t').node = some e' → t' ≠ t ∧ (s.handlers t').node = some e' := by
    intro t' e' h'
    have hne : t' ≠ t := fun heq => by
      rw [heq, setPc_self] at h'
      cases h'
    rw [setPc_of_ne _ _ hne] at h'
    exact ⟨hne, h'⟩
  constructor
  · exact h.distinct.removeItem e
  · exact fun e' he' => h.fresh e' (mem_removeItem.mp he').1
  · intro t' e' h'
    obtain ⟨hne, h'⟩ := hn t' e' h'
    refine mem_removeItem.mpr ⟨h.held t' e' h', fun ha => hne ?_⟩
    rw [h.distinct.eq_of_addr (h.held t' e' h') he ha] at h'
    exact h.alone t' t e h' hnode
  · intro t₁ t₂ e' h₁ h₂
    exact h.alone t₁ t₂ e' (hn t₁ e' h₁).2 (hn t₂ e' h₂).2
  · exact h.sentFresh
  · intro p hp e' he' ha
    obtain ⟨he', hea⟩ := mem_removeItem.mp he'
    obtain ⟨t', ht'⟩ := h.sentHeld p hp e' he' ha
    have hne : t' ≠ t := fun heq => by
      rw [heq, ht] at ht'
      cases ht'
      exact hea rfl
    exact ⟨t', (setPc_of_ne s _ hne).trans ht'⟩
  · exact List.forall_mem_cons.mpr ⟨h.fresh e he, h.removedFresh⟩
  · refine List.forall_mem_cons.mpr ⟨fun e' he' => (mem_removeItem.mp he').2, fun r hr e' he' => ?_⟩
    exact h.unlinked r hr e' (mem_removeItem.mp he').1
  · refine ⟨h.once.1, List.nodup_cons.mpr ⟨fun hm => ?_, h.once.2⟩⟩
    obtain ⟨r, hr, ha⟩ := List.mem_map.mp hm
    exact h.unlinked r hr e he ha.symm

theorem Once.step {a : Act τ} (hs : Step s a s') (hc : Unshared s a) (h : Once s) : Once s' := by
  cases a with
  | rbusSet pkg issue => exact h.rbusSet hs
  | append => exact h.append hs
  | lookup t ev => exact h.lookup hs hc
  | deliver t => exact h.deliver hs
  | remove t => exact h.remove hs

end

/-- In a run in which no lookup finds a node that another handler holds, every
entry is delivered at most once and unlinked at most once. -/
theorem atMostOnce_of_unshared [DecidableEq τ] {s : Threads τ} {tr : List (Threads τ × Act τ)} (h : Run Step (init τ) tr s)
    (hc : ∀ p ∈ tr, Unshared p.1 p.2) : s.AtMostOnce :=
  (h.invariant (I := Once) (C := Unshared) Once.step hc once_init).once

theorem atMostOnce_of_unshared_iarm : ∃ s : Threads Unit, ∃ tr, Run Step (init Unit) tr s ∧
    s.sent.length = 1 ∧ s.AtMostOnce := by
  let ev : Completion := .iarm (str "RDK-RRD-Network") (str "/media/apps/RDK-RRD-Network")
  let acts : List (Act Unit) := [.rbusSet ev.key (str "Network.Ping"), .append, .lookup () ev, .deliver (), .remove ()]
  obtain ⟨s, hs⟩ : ∃ s, exec step (init Unit) acts = some s := ⟨_, rfl⟩
  have hc : ∀ p ∈ trace step (init Unit) acts, Unshared p.1 p.2 := by
    -- the one lookup is made while the handler is idle
    have hidle : ∀ e, (Pc.idle).node ≠ some e := fun _ h => by cases h
    intro p hp
    rcases hp with _ | ⟨_, _ | ⟨_, _ | ⟨_, _ | ⟨_, _ | ⟨_, hp⟩⟩⟩⟩⟩
    all_goals first | trivial | exact fun e _ _ => hidle e
  refine ⟨s, _, exec_run hs, ?_, atMostOnce_of_unshared (exec_run hs) hc⟩
  cases hs
  rfl

/-- The handlers of both buses find the same entry before either removes it. -/
theorem two_handlers_deliver_twice : ∃ s : Threads Bool, ∃ tr, Run Step (init Bool) tr s ∧ ¬ s.AtMostOnce := by
  let iarm : Completion := .iarm (str "RDK-RRD-Network") (str "/media/apps/RDK-RRD-Network")
  let rbus : Completion := .rbus (str "Network.Ping")
  obtain ⟨s, hs⟩ : ∃ s, exec step (init Bool) [.rbusSet iarm.key (str "Network.Ping"), .append, .lookup false iarm,
      .lookup true rbus, .deliver false, .deliver true, .remove false, .remove true] = some s := ⟨_, rfl⟩
  refine ⟨s, _, exec_run hs, fun h => ?_⟩
  cases hs
  exact absurd h.1 (by decide)

end Threads

end RRD
