import RemoteDebugger.Framework.Run
import RemoteDebugger.Impl.Redelivery
import RemoteDebugger.Proof.Cache.Basic

/-!
# The steps of the threads over the cache

* `step_rbusSet` … `step_remove`: what each step needs and does;
* `exec_handler`: a handler that is not interrupted does what its source does.
-/

namespace RRD

open Framework

namespace Threads

section

variable {τ : Type} [DecidableEq τ] {s s' : Threads τ} {t : τ} {ev : Completion} {pkg issue : Str}

theorem step_rbusSet : Step s (.rbusSet pkg issue) s' ↔
    s.request = none ∧ s' = { s with request := some (pkg, issue), requested := (pkg, issue) :: s.requested } := by
  rw [Step, step]
  cases s.request <;> simp [eq_comm]

theorem step_append : Step s .append s' ↔ ∃ pkg issue, s.request = some (pkg, issue) ∧
    s' = { s with cache := appendItem s.next pkg issue s.cache, next := s.next + 1, request := none } := by
  rw [Step, step]
  rcases s.request with _ | ⟨pkg, issue⟩ <;> simp [eq_comm]

theorem step_lookup : Step s (.lookup t ev) s' ↔ s.handlers t = .idle ∧
    (findPresentInCache ev.key s.cache = none ∧ s' = s ∨
      ∃ e, findPresentInCache ev.key s.cache = some e ∧ s' = s.setPc t (.found ev e)) := by
  rw [Step, step]
  cases s.handlers t <;> cases findPresentInCache ev.key s.cache <;> simp [eq_comm]

theorem step_deliver : Step s (.deliver t) s' ↔ ∃ ev e, s.handlers t = .found ev e ∧
    s' = { s.setPc t (.delivered e) with sent := (e, ev.message e) :: s.sent } := by
  rw [Step, step]
  cases s.handlers t <;> simp [eq_comm]

theorem step_remove : Step s (.remove t) s' ↔ ∃ e, s.handlers t = .delivered e ∧
    s' = { s.setPc t .idle with cache := removeItem e s.cache, removed := e :: s.removed } := by
  rw [Step, step]
  cases s.handlers t <;> simp [eq_comm]

@[simp] theorem setPc_self (s : Threads τ) (t : τ) (pc : Pc) : (s.setPc t pc).handlers t = pc := by
  simp [setPc]

theorem setPc_of_ne {t' : τ} (s : Threads τ) (pc : Pc) (h : t' ≠ t) : (s.setPc t pc).handlers t' = s.handlers t' := by
  simp [setPc, h]

/-- A handler that finds an entry and is not interrupted: the cache and the
messages are those of its source. -/
theorem exec_handler {e : CacheData} (ht : s.handlers t = .idle) (hf : findPresentInCache ev.key s.cache = some e) :
    ∃ s', exec step s [.lookup t ev, .deliver t, .remove t] = some s' ∧ s'.cache = (ev.handler s.cache).1 ∧
      s'.sent = (ev.handler s.cache).2.map (e, ·) ++ s.sent ∧ s'.handlers = s.handlers := by
  have hh : ev.handler s.cache = (removeItem e s.cache, [ev.message e]) := by
    cases ev with
    | iarm pkgName path =>
      have hf' : findPresentInCache pkgName s.cache = some e := hf
      simp [Completion.handler, rdmManagerEventHandler, hf', rdmManagerMessage, Completion.message]
    | rbus issue =>
      have hf' : findPresentInCache (rdmDownloadPkgName issue) s.cache = some e := hf
      simp [Completion.handler, rdmDownloadEventHandler, hf', Completion.message]
  let s₁ := s.setPc t (.found ev e)
  let s₂ := { s₁.setPc t (.delivered e) with sent := (e, ev.message e) :: s.sent }
  let s₃ := { s₂.setPc t .idle with cache := removeItem e s.cache, removed := e :: s.removed }
  have h1 : s.step (.lookup t ev) = some s₁ := step_lookup.mpr ⟨ht, .inr ⟨e, hf, rfl⟩⟩
  have h2 : s₁.step (.deliver t) = some s₂ := step_deliver.mpr ⟨ev, e, setPc_self s t (.found ev e), rfl⟩
  have h3 : s₂.step (.remove t) = some s₃ := step_remove.mpr ⟨e, setPc_self s₁ t (.delivered e), rfl⟩
  refine ⟨s₃, by simp only [exec, h1, h2, h3, Option.bind_some], by rw [hh], by rw [hh]; rfl, ?_⟩
  show Function.update (Function.update (Function.update s.handlers t _) t _) t _ = s.handlers
  rw [Function.update_idem, Function.update_idem, ← ht, Function.update_eq_self]

end

end Threads

end RRD
