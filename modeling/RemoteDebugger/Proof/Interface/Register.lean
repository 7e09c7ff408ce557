import RemoteDebugger.Proof.Interface.Category
import RemoteDebugger.Proof.Interface.Listing

/-!
# The selected category as a register

A session of the two handlers: requests that set the category, requests that
read the issue types by it, and starts of the program, where `RRD_subscribe`
loads the category from its file.

* `Register`: what the handlers are for, a value in use and a value that is kept;
* `ProfileStore.step_register`: a call does with the two copies what the register does;
* `answers_register`: a session whose requests are all saved whole is one of a single value;
* `session_values`: no session, whatever fails in it, mixes two values.
-/

namespace RRD

open Framework

variable {cfg : Config} {ops : FileOps} {prop : Option RbusProperty} {st st' : ProfileStore} {v : Str} {n : Nat}

/-! ## Sessions -/

/-- A call of the bus, or a start of the program. -/
inductive ProfileCall where
  | set (ops : FileOps) (prop : Option RbusProperty)
  /-- A request for the property, with what `RRD_JSON_FILE` holds then. -/
  | get (profile : Option Str) (propertyName : Str)
  /-- `RRD_subscribe`, in a new process. -/
  | start

/-- What `rrd_GetHandler` answers, if it is called. -/
def ProfileStore.answer (cfg : Config) (st : ProfileStore) : ProfileCall → Option (Except RbusError Str)
  | .set _ _ => none
  | .get profile propertyName => some (rrdGetHandler cfg profile st.category propertyName)
  | .start => none

def ProfileStore.step (st : ProfileStore) : ProfileCall → ProfileStore
  | .set ops prop => (rrdSetHandler ops prop st).2
  | .get _ _ => st
  | .start => { st with category := restored st.file }

def answers (cfg : Config) (st : ProfileStore) : List ProfileCall → List (Except RbusError Str)
  | [] => []
  | c :: cs => (st.answer cfg c).toList ++ answers cfg (st.step c) cs

/-! ## The register -/

/-- The value that is in use, and the one that a start of the program finds. -/
@[ext]
structure Register where
  current : Str
  kept : Str
  deriving DecidableEq, Repr

/-- What a start finds after a request for `v`. -/
def keptValue (ops : FileOps) (v kept : Str) : Str :=
  if ops.opens then if ops.fdopens then lineCategory v ops.written else allCategory else kept

def Register.step (r : Register) : ProfileCall → Register
  | .set ops prop =>
    match requestedCategory prop with
    | none => r
    | some v => ⟨v, keptValue ops v r.kept⟩
  | .get _ _ => r
  | .start => ⟨r.kept, r.kept⟩

/-- The two copies of the category. -/
def ProfileStore.register (st : ProfileStore) : Register := ⟨st.category, restored st.file⟩

theorem rrdSetHandler_register (h : requestedCategory prop = some v) :
    (rrdSetHandler ops prop st).2.register = ⟨v, keptValue ops v (restored st.file)⟩ := by
  rw [rrdSetHandler_saved h, ProfileStore.register, keptValue]
  by_cases hopens : ops.opens
  · rw [if_pos hopens, if_pos hopens, restored_saved h]
  · rw [if_neg hopens, if_neg hopens]

/-- A call does with the two copies what the register does. -/
theorem ProfileStore.step_register (st : ProfileStore) (c : ProfileCall) : (st.step c).register = st.register.step c := by
  cases c with
  | set ops prop =>
    rw [ProfileStore.step, Register.step]
    cases h : requestedCategory prop with
    | none => rw [rrdSetHandler_rejected h]
    | some v => exact rrdSetHandler_register h
  | get profile propertyName => rfl
  | start => rfl

theorem ProfileStore.foldl_register (st : ProfileStore) (cs : List ProfileCall) :
    (cs.foldl ProfileStore.step st).register = cs.foldl Register.step st.register := by
  induction cs generalizing st with
  | nil => rfl
  | cons c cs ih => rw [List.foldl_cons, List.foldl_cons, ih, ProfileStore.step_register]

/-! ## One value -/

/-- A request that is saved whole, if it passes the checks. -/
def ProfileCall.Saved : ProfileCall → Prop
  | .set ops prop => ∀ v, requestedCategory prop = some v →
      ops.opens ∧ ops.fdopens ∧ newline ∉ v ∧ v.length ≤ ops.written ∧ 0 < ops.written
  | .get _ _ => True
  | .start => True

/-- The value after a call, where nothing is lost. -/
def ProfileCall.valueAfter (value : Str) : ProfileCall → Str
  | .set _ prop => (requestedCategory prop).getD value
  | .get _ _ => value
  | .start => value

/-- The answers by one value, which a start of the program does not change. -/
def valueAnswers (cfg : Config) (value : Str) : List ProfileCall → List (Except RbusError Str)
  | [] => []
  | .get profile propertyName :: cs => rrdGetHandler cfg profile value propertyName :: valueAnswers cfg value cs
  | c :: cs => valueAnswers cfg (c.valueAfter value) cs

theorem keptValue_saved (hopens : ops.opens) (hfdopens : ops.fdopens) (hv : newline ∉ v) (hlen : v.length ≤ ops.written)
    (hpos : 0 < ops.written) (kept : Str) : keptValue ops v kept = v := by
  rw [keptValue, if_pos hopens, if_pos hfdopens, lineCategory_eq_iff, if_neg (by omega)]
  exact ⟨hv, hlen⟩

theorem Register.step_saved {c : ProfileCall} (hc : c.Saved) (value : Str) :
    Register.step ⟨value, value⟩ c = ⟨c.valueAfter value, c.valueAfter value⟩ := by
  cases c with
  | set ops prop =>
    rw [Register.step, ProfileCall.valueAfter]
    cases h : requestedCategory prop with
    | none => rfl
    | some v =>
      obtain ⟨hopens, hfdopens, hv, hlen, hpos⟩ := hc v h
      simp only [keptValue_saved hopens hfdopens hv hlen hpos, Option.getD_some]
  | get profile propertyName => rfl
  | start => rfl

theorem ProfileStore.step_saved {c : ProfileCall} {value : Str} (hc : c.Saved) (hst : st.register = ⟨value, value⟩) :
    (st.step c).register = ⟨c.valueAfter value, c.valueAfter value⟩ := by
  rw [ProfileStore.step_register, hst, Register.step_saved hc]

/-- A session whose requests are all saved whole answers by one value: the last
that passed the checks, also across starts of the program. -/
theorem answers_register {value : Str} (cfg : Config) (cs : List ProfileCall) (hst : st.register = ⟨value, value⟩)
    (hcs : ∀ c ∈ cs, c.Saved) : answers cfg st cs = valueAnswers cfg value cs := by
  induction cs generalizing st value with
  | nil => rfl
  | cons c cs ih =>
    obtain ⟨hc, hrest⟩ := List.forall_mem_cons.mp hcs
    have hnext := ih (ProfileStore.step_saved hc hst) hrest
    cases c with
    | set ops prop => exact hnext
    | get profile propertyName =>
      have hvalue : st.category = value := congrArg Register.current hst
      rw [answers, ProfileStore.answer, hvalue, Option.toList_some, List.singleton_append, hnext]
      rfl
    | start => exact hnext

/-- A device whose profile is `item`, printed. -/
def profileConfig (item : CJson) : Config :=
  { plainConfig true with cJsonParse := fun s => if s = printItem 0 item then some item else none }

theorem answers_register_start : answers (profileConfig (pingProfile (str "ping") pingSanity)) ⟨allCategory, none⟩
    [.set .ok (categoryRequest (str "Network")), .start,
      .get (some (printItem 0 (pingProfile (str "ping") pingSanity))) rrdGetProfileEvent] =
    [.ok (str "[\"Ping\"]")] := by
  have hsaved : (ProfileCall.set .ok (categoryRequest (str "Network"))).Saved := fun v hv => by
    obtain rfl := Option.some.inj ((show requestedCategory (categoryRequest (str "Network")) = some (str "Network") by
      decide +kernel).symm.trans hv)
    decide +kernel
  have hcalls : ∀ c ∈ [ProfileCall.set .ok (categoryRequest (str "Network")), .start,
      .get (some (printItem 0 (pingProfile (str "ping") pingSanity))) rrdGetProfileEvent], c.Saved := by
    simp only [List.forall_mem_cons, List.not_mem_nil, false_implies, implies_true, and_true]
    exact ⟨hsaved, trivial, trivial⟩
  exact (answers_register _ _ rfl hcalls).trans (by decide +kernel)

/-! ## No mixed values -/

/-- The values of a session that passed the checks. -/
def requested (cs : List ProfileCall) : List Str :=
  cs.filterMap fun
    | .set _ prop => requestedCategory prop
    | .get _ _ => none
    | .start => none

/-- One of the first values, or the default, or a requested value, whole or up to where its line ends. -/
def OneValue (initial : List Str) (vs : List Str) (s : Str) : Prop :=
  s = allCategory ∨ s ∈ initial ∨ ∃ v ∈ vs, s = v ∨ ∃ n, s = (v.take n).takeWhile (· ≠ newline)

def Register.OneValue (initial vs : List Str) (r : Register) : Prop :=
  RRD.OneValue initial vs r.current ∧ RRD.OneValue initial vs r.kept

theorem OneValue.keptValue {initial vs : List Str} {kept : Str} (hv : v ∈ vs) (hkept : OneValue initial vs kept) :
    OneValue initial vs (keptValue ops v kept) := by
  rw [RRD.keptValue, lineCategory]
  split
  · split
    · split
      · exact .inl rfl
      · exact .inr (.inr ⟨v, hv, .inr ⟨_, rfl⟩⟩)
    · exact .inl rfl
  · exact hkept

theorem Register.OneValue.step {initial vs : List Str} {r : Register} {c : ProfileCall}
    (hc : ∀ v ∈ requested [c], v ∈ vs) (hr : r.OneValue initial vs) : (r.step c).OneValue initial vs := by
  cases c with
  | set ops prop =>
    rw [Register.step]
    cases h : requestedCategory prop with
    | none => exact hr
    | some v =>
      have hv : v ∈ vs := hc v (List.mem_filterMap.mpr ⟨_, List.mem_singleton_self _, h⟩)
      exact ⟨.inr (.inr ⟨v, hv, .inl rfl⟩), hr.2.keptValue hv⟩
  | get profile propertyName => exact hr
  | start => exact ⟨hr.2, hr.2⟩

theorem Register.OneValue.foldl {initial vs : List Str} {r : Register} {cs : List ProfileCall}
    (hcs : ∀ v ∈ requested cs, v ∈ vs) (hr : r.OneValue initial vs) :
    (cs.foldl Register.step r).OneValue initial vs := by
  induction cs generalizing r with
  | nil => exact hr
  | cons c cs ih =>
    have happ : requested (c :: cs) = requested [c] ++ requested cs := List.filterMap_append (l := [c])
    rw [happ] at hcs
    exact ih (fun v hv => hcs v (List.mem_append_right _ hv)) (hr.step fun v hv => hcs v (List.mem_append_left _ hv))

/-- Whatever fails in a session, and wherever the program is started again in it,
neither copy mixes two values. -/
theorem session_values (st : ProfileStore) (cs : List ProfileCall) :
    (cs.foldl ProfileStore.step st).register.OneValue [st.category, restored st.file] (requested cs) := by
  rw [ProfileStore.foldl_register]
  refine Register.OneValue.foldl (fun v hv => hv) ⟨.inr (.inl ?_), .inr (.inl ?_)⟩
  · exact List.mem_cons_self
  · exact List.mem_cons_of_mem _ (List.mem_singleton_self _)

end RRD
