import RemoteDebugger.Impl.WebCfg

/-!
# Which payloads the WebCfg decoder reads safely

`keyAnswers` is the test that a lookup makes of an entry, so that a lookup
finds the first entry that passes it (`finder_eq`). The decoder meets no fault
exactly when the four entries it takes its arguments from have the types it
reads: `remotedebuggerdocConvert_safe_iff`.
-/

namespace RRD

open Framework

variable {name : Str} {expectType : MsgObjectType} {kvs : List (MsgObject × MsgObject)}

/-- The entry answers to a name: its key is a string that agrees with the name
up to the size of the key where the value has the expected type, and up to the
length of the name where it has not. -/
def keyAnswers (name : Str) (expectType : MsgObjectType) (kv : MsgObject × MsgObject) : Bool :=
  match kv.1 with
  | .str key => if expectType = kv.2.type then keyMatch key name else strncmpEq name.length key.ptr name
  | _ => false

/-- The value of the first entry that answers to a name. -/
def lookup (name : Str) (expectType : MsgObjectType) (kvs : List (MsgObject × MsgObject)) : Option MsgObject :=
  (kvs.find? (keyAnswers name expectType)).map Prod.snd

theorem finder_eq : finder name expectType kvs = lookup name expectType kvs := by
  induction kvs with
  | nil => rfl
  | cons kv kvs ih =>
    obtain ⟨key, val⟩ := kv
    rw [lookup, List.find?_cons]
    cases key <;> try exact ih
    rename_i key
    rw [finder, keyAnswers]
    by_cases ht : expectType = val.type
    · subst ht
      simp only [if_true]
      cases keyMatch key name
      · exact ih
      · rfl
    · simp only [ht, if_false, ite_self]
      cases strncmpEq name.length key.ptr name
      · exact ih
      · rfl

/-! ## Reads -/

theorem bind_ok_iff {α β : Type} {x : Except Fault α} {f : α → Except Fault β} :
    (∃ r, (x >>= f) = .ok r) ↔ ∃ a, x = .ok a ∧ ∃ r, f a = .ok r := by
  cases x with
  | error e => simp [bind, Except.bind]
  | ok a => simp [bind, Except.bind]

theorem deref_ok {p : Option MsgObject} {o : MsgObject} : deref p = .ok o ↔ p = some o := by
  cases p <;> simp [deref]

theorem viaStr_ok {o : MsgObject} {s : MsgStr} : o.viaStr = .ok s ↔ o = .str s := by
  cases o <;> simp [MsgObject.viaStr]

theorem viaU64_ok {o : MsgObject} {u : Nat} : o.viaU64 = .ok u ↔ o = .positiveInteger u := by
  cases o <;> simp [MsgObject.viaU64]

theorem viaMap_ok {o : MsgObject} {kvs : List (MsgObject × MsgObject)} : o.viaMap = .ok kvs ↔ o = .map kvs := by
  cases o <;> simp [MsgObject.viaMap]

/-- The parameters are read from a map. -/
theorem processRemotedebuggerparams_ok (rrdParam : RemotedebuggerParam) (o : MsgObject) :
    (∃ r, processRemotedebuggerparams rrdParam o = .ok r) ↔ ∃ kvs, o = .map kvs := by
  rw [processRemotedebuggerparams, bind_ok_iff]
  simp [viaMap_ok, pure, Except.pure]

/-- The document is read from a map, a string and two unsigned integers. -/
theorem processRemotedebuggerdoc_ok (ld : RemotedebuggerDoc) (inner subdocName version transactionId : Option MsgObject) :
    (∃ r, processRemotedebuggerdoc ld [inner, subdocName, version, transactionId] = .ok r) ↔
      (∃ s, subdocName = some (.str s)) ∧ (∃ u, version = some (.positiveInteger u)) ∧
        (∃ u, transactionId = some (.positiveInteger u)) ∧ ∃ kvs, inner = some (.map kvs) := by
  have hret {α : Type} (c : Prop) [Decidable c] (x y : α) :
      ∃ r, (if c then pure x else pure y : Except Fault α) = .ok r := by
    by_cases hc : c <;> simp [hc, pure, Except.pure]
  have hparams (o : MsgObject) := processRemotedebuggerparams_ok ⟨none, 0⟩ o
  rw [processRemotedebuggerdoc]
  -- the arguments are read one after the other, and the parameters last
  simp only [vaArg, List.length_cons, List.length_nil, Nat.reduceAdd, Nat.reduceLT, dite_true, List.getElem_cons_zero,
    List.getElem_cons_succ, bind_ok_iff, Except.ok.injEq, exists_eq_left', deref_ok, viaStr_ok, viaU64_ok, hret,
    and_true, hparams]
  constructor
  · rintro ⟨_, rfl, s, rfl, _, rfl, u, rfl, _, rfl, v, rfl, _, rfl, kvs, rfl⟩
    exact ⟨⟨s, rfl⟩, ⟨u, rfl⟩, ⟨v, rfl⟩, kvs, rfl⟩
  · rintro ⟨⟨s, rfl⟩, ⟨u, rfl⟩, ⟨v, rfl⟩, kvs, rfl⟩
    exact ⟨_, rfl, s, rfl, _, rfl, u, rfl, _, rfl, v, rfl, _, rfl, kvs, rfl⟩

/-! ## The decoder -/

/-- The value of the entry that answers to a name, under the type that the
decoder expects of all of them. -/
def field (name : String) (kvs : List (MsgObject × MsgObject)) : Option MsgObject := lookup (str name) .map kvs

/-- A map is read safely exactly when it has no `remotedebugger`, or the four
values that answer to the names are of the types read. -/
theorem convertMap_safe_iff (kvs : List (MsgObject × MsgObject)) :
    (∃ r, convertMap kvs (str "remotedebugger") .map true processRemotedebuggerdoc = .ok r) ↔
      field "remotedebugger" kvs = none ∨
        (∃ s, field "subdoc_name" kvs = some (.str s)) ∧ (∃ u, field "version" kvs = some (.positiveInteger u)) ∧
          (∃ u, field "transaction_id" kvs = some (.positiveInteger u)) ∧
          ∃ inner, field "remotedebugger" kvs = some (.map inner) := by
  have hret {α : Type} (c : Prop) [Decidable c] (x y : α) :
      ∃ r, (if c then pure x else pure y : Except Fault α) = .ok r := by
    by_cases hc : c <;> simp [hc, pure, Except.pure]
  have hargs : ¬ (str "remotedebugger").take (str "parameters").length = str "parameters" := by decide
  have hname : str "remotedebugger" ≠ str "parameters" := by decide
  simp only [convertMap, hargs, hname, if_false, ne_eq, not_false_eq_true, if_true, finder_eq]
  simp only [field]
  cases hi : lookup (str "remotedebugger") .map kvs with
  | none => simp [pure, Except.pure]
  | some inner =>
    simp only [Option.isSome_some, if_true, bind_ok_iff, hret, and_true, processRemotedebuggerdoc_ok, reduceCtorEq,
      false_or]

/-- The decoder meets no fault exactly when the payload unpacks to no map, or
to a map without `remotedebugger`, or to one in which `remotedebugger` is a map,
`subdoc_name` a string and `version` and `transaction_id` are unsigned integers. -/
theorem remotedebuggerdocConvert_safe_iff (unpackNext : Str → Option MsgObject) (buf : Option Str) :
    (∃ r, remotedebuggerdocConvert unpackNext buf = .ok r) ↔
      ∀ payload, buf = some payload → payload ≠ [] → ∀ kvs, unpackNext payload = some (.map kvs) →
        field "remotedebugger" kvs = none ∨
          (∃ s, field "subdoc_name" kvs = some (.str s)) ∧ (∃ u, field "version" kvs = some (.positiveInteger u)) ∧
            (∃ u, field "transaction_id" kvs = some (.positiveInteger u)) ∧
            ∃ inner, field "remotedebugger" kvs = some (.map inner) := by
  rw [remotedebuggerdocConvert]
  cases buf with
  | none => simp [helperConvert]
  | some payload =>
    rw [helperConvert]
    by_cases hp : payload = []
    · simp [hp]
    · simp only [hp, if_false]
      cases hu : unpackNext payload with
      | none => simp [hu]
      | some o =>
        cases o with
        | map kvs =>
          simp only [convertMap_safe_iff]
          simp [hp, hu]
        | _ => simp [hu]

/-! ## A payload without the name of its document -/

/-- The msgpack of `{"remotedebugger": {"IssueType": ["Device"]}}`. -/
def samplePayload : Str :=
  [0x81, 0xae] ++ str "remotedebugger" ++ [0x81, 0xa9] ++ str "IssueType" ++ [0x91, 0xa6] ++ str "Device"

/-- A string of the payload. -/
def sampleStr (off size : Nat) : MsgObject := .str ⟨fun i => samplePayload.getD (off + i) 0, size⟩

def sampleObject : MsgObject :=
  .map [(sampleStr 2 14, .map [(sampleStr 18 9, .array [sampleStr 29 6])])]

def sampleUnpackNext (payload : Str) : Option MsgObject := if payload = samplePayload then some sampleObject else none

/-- Without `subdoc_name` the decoder reads through a null pointer. -/
theorem remotedebuggerdocConvert_fault :
    remotedebuggerdocConvert sampleUnpackNext (some samplePayload) = .error .nullPointer ∧
      ¬ ∃ r, remotedebuggerdocConvert sampleUnpackNext (some samplePayload) = .ok r := by
  have h : remotedebuggerdocConvert sampleUnpackNext (some samplePayload) = .error .nullPointer := rfl
  refine ⟨h, ?_⟩
  rw [h]
  rintro ⟨r, hr⟩
  exact absurd hr (by simp)

end RRD
