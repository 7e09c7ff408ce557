import RemoteDebugger.Proof.WebCfg.Decoder

/-!
# Which entry a name is looked up in

A key is compared up to its own size or up to the length of the name, so an
entry before the one with the name can end the search, or be read beyond its
end. `Clear` says of an entry that it does neither.

* `finderRun_exact_iff`: `__finder` returns the first entry whose key is the
  name, and reads no key beyond its end, exactly when the entries before are clear;
* `issueTypeEntry_exact_iff`: the same for the array of issue types.
-/

namespace RRD

open Framework

variable {name : Str} {expectType : MsgObjectType} {errno : Int} {key : MsgStr} {val : MsgObject}
  {kvs : List (MsgObject × MsgObject)} {n m i : Nat} {p : Nat → Byte} {s : Str}

/-! ## Comparisons -/

/-- The `n` bytes at `p`. -/
def bytesAt (p : Nat → Byte) (n : Nat) : Str := (List.range n).map p

theorem bytesAt_succ (p : Nat → Byte) (n : Nat) : bytesAt p (n + 1) = p 0 :: bytesAt (fun i => p (i + 1)) n := by
  rw [bytesAt, List.range_succ_eq_map, List.map_cons, List.map_map]
  rfl

theorem length_bytesAt (p : Nat → Byte) (n : Nat) : (bytesAt p n).length = n := by simp [bytesAt]

theorem bytesAt_take (h : m ≤ n) : (bytesAt p n).take m = bytesAt p m := by
  rw [bytesAt, ← List.map_take, List.take_range, Nat.min_eq_left h, bytesAt]

/-- `strncmp` compares what the two arrays hold as strings, cut to `n` bytes. -/
theorem strncmpEq_iff (h : 0 ∉ s) : strncmpEq n p s = true ↔ cstr (bytesAt p n) = s.take n := by
  induction n generalizing p s with
  | zero => simp [strncmpEq, bytesAt, cstr]
  | succ n ih =>
    rw [strncmpEq, bytesAt_succ, decide_eq_true_eq]
    cases s with
    | nil =>
      by_cases hp : p 0 = 0
      · simp [cstr, hp]
      · simp [cstr, hp]
    | cons b s =>
      obtain ⟨hb, hs⟩ := not_or.mp (mt List.mem_cons.mpr h)
      by_cases hp : p 0 = 0
      · simp [cstr, hp, hb]
      · have hcons : cstr (p 0 :: bytesAt (fun i => p (i + 1)) n) = p 0 :: cstr (bytesAt (fun i => p (i + 1)) n) :=
          List.takeWhile_cons_of_pos (decide_eq_true hp)
        rw [hcons, List.take_succ_cons, List.cons_eq_cons, List.tail_cons, List.headD_cons, ih hs]
        simp only [hp, false_or]

/-- More than `m` bytes are read exactly when the first `m` are those of the string. -/
theorem lt_strncmpReads_iff (h : 0 ∉ s) : m < strncmpReads n p s ↔ m < n ∧ bytesAt p m = s.take m := by
  induction n generalizing p s m with
  | zero => simp [strncmpReads]
  | succ n ih =>
    rw [strncmpReads]
    cases m with
    | zero =>
      have hpos : 0 < if p 0 = s.headD 0 ∧ p 0 ≠ 0 then strncmpReads n (fun i => p (i + 1)) s.tail + 1 else 1 := by
        split <;> omega
      exact iff_of_true hpos ⟨n.succ_pos, rfl⟩
    | succ m =>
      cases s with
      | nil =>
        have hread : ¬ (p 0 = ([] : Str).headD 0 ∧ p 0 ≠ 0) := fun ⟨h0, hne⟩ => hne h0
        rw [if_neg hread, bytesAt_succ]
        simp
      | cons b s =>
        obtain ⟨hb, hs⟩ := not_or.mp (mt List.mem_cons.mpr h)
        rw [bytesAt_succ, List.take_succ_cons, List.cons_eq_cons, List.headD_cons, List.tail_cons]
        by_cases hp : p 0 = b
        · have hread : p 0 = b ∧ p 0 ≠ 0 := ⟨hp, fun h0 => hb (h0.symm.trans hp)⟩
          rw [if_pos hread, Nat.add_lt_add_iff_right, Nat.add_lt_add_iff_right, ih hs]
          simp [hp]
        · simp [hp]

/-! ## Clear entries -/

theorem MsgStr.length_bytes (key : MsgStr) : key.bytes.length = key.size := length_bytesAt key.ptr key.size

/-- The key of an entry is the name. -/
def hasKey (name : Str) (kv : MsgObject × MsgObject) : Bool :=
  match kv.1 with
  | .str key => key.bytes = name
  | _ => false

/-- The comparison of an entry that has not the name ends neither the search nor
beyond the key: no key is the start of the name, and none goes on after it, with
a NUL where the value has the expected type and with any byte where it has not. -/
def Clear (name : Str) (expectType : MsgObjectType) (kv : MsgObject × MsgObject) : Prop :=
  ∀ key, kv.1 = .str key →
    ¬ key.bytes <+: name ∧ if expectType = kv.2.type then ¬ name ++ [0] <+: key.bytes else ¬ name <+: key.bytes

/-- A key compared up to its size agrees with the name. -/
theorem keyMatch_iff (h : 0 ∉ name) : keyMatch key name = true ↔ key.bytes <+: name ∨ name ++ [0] <+: key.bytes := by
  have htake : 0 ∉ name.take key.size := fun h0 => h (List.mem_of_mem_take h0)
  have hbytes : cstr (bytesAt key.ptr key.size) = key.bytes.takeWhile (· ≠ 0) := rfl
  have hstart : key.bytes = name.take key.size ↔ key.bytes <+: name := by
    rw [List.prefix_iff_eq_take, key.length_bytes]
  rw [keyMatch, strncmpEq_iff h, hbytes, takeWhile_ne_eq_iff htake, hstart]
  refine or_congr_right ⟨fun hp => ?_, fun hp => ?_⟩
  · have hlen := hp.length_le
    rw [List.length_append, List.length_singleton, List.length_take, key.length_bytes] at hlen
    rwa [List.take_of_length_le (by omega)] at hp
  · have hlen := hp.length_le
    rw [List.length_append, List.length_singleton, key.length_bytes] at hlen
    rwa [List.take_of_length_le (by omega)]

/-- A key compared up to the length of the name agrees with it, or is read beyond its end. -/
theorem strncmpEq_or_overread_iff (h : 0 ∉ name) :
    strncmpEq name.length key.ptr name = true ∨ key.size < strncmpReads name.length key.ptr name ↔
      key.bytes <+: name ∨ name <+: key.bytes := by
  have hcstr : cstr (bytesAt key.ptr name.length) = name ↔ bytesAt key.ptr name.length = name := by
    refine ⟨fun he => ?_, fun he => ?_⟩
    · have hstart : cstr (bytesAt key.ptr name.length) <+: bytesAt key.ptr name.length := List.takeWhile_prefix _
      rw [he] at hstart
      exact (hstart.eq_of_length (length_bytesAt ..).symm).symm
    · rw [he, cstr, takeWhile_ne_of_notMem h]
  rw [strncmpEq_iff h, lt_strncmpReads_iff h, List.take_length, hcstr]
  have hkey : bytesAt key.ptr key.size = name.take key.size ↔ key.bytes <+: name := by
    rw [List.prefix_iff_eq_take, key.length_bytes]
    rfl
  rw [hkey]
  rcases Nat.lt_or_ge key.size name.length with hlt | hge
  · -- a name longer than the key: agreement is with memory after the key
    have hname : ¬ name <+: key.bytes := fun hp => absurd hp.length_le (by rw [key.length_bytes]; omega)
    have hagree (he : bytesAt key.ptr name.length = name) : key.bytes <+: name := by
      rw [← hkey, ← bytesAt_take hlt.le, he]
    simp only [hlt, true_and, hname, or_false]
    exact ⟨fun hor => hor.elim hagree id, .inr⟩
  · have hname : bytesAt key.ptr name.length = name ↔ name <+: key.bytes := by
      rw [← bytesAt_take hge, List.prefix_iff_eq_take, eq_comm]
      rfl
    have hshort (hp : key.bytes <+: name) : name <+: key.bytes := by
      have hlen : key.bytes.length = name.length := Nat.le_antisymm hp.length_le (key.length_bytes ▸ hge)
      rw [hp.eq_of_length hlen]
    simp only [Nat.not_lt.mpr hge, false_and, or_false, hname]
    exact ⟨.inr, fun hor => hor.elim hshort id⟩

theorem strncmpReads_le : strncmpReads n p s ≤ n := by
  induction n generalizing p s with
  | zero => simp [strncmpReads]
  | succ n ih =>
    rw [strncmpReads]
    split
    · exact Nat.succ_le_succ ih
    · omega

/-! ## The search -/

/-- How many bytes of a key are compared. -/
def compareLength (name : Str) (expectType : MsgObjectType) (key : MsgStr) (val : MsgObject) : Nat :=
  if expectType = val.type then key.size else name.length

theorem finderRun_str : finderRun name expectType errno i ((.str key, val) :: kvs) =
    compareKey i key name (compareLength name expectType key val) errno
      (finderRun name expectType errno (i + 1) kvs) := by
  rw [finderRun, compareLength]
  by_cases ht : expectType = val.type
  · simp only [ht, if_true]
  · simp only [ht, if_false, ite_self]

theorem clear_iff (h : 0 ∉ name) : Clear name expectType (.str key, val) ↔
    ¬ (strncmpEq (compareLength name expectType key val) key.ptr name = true ∨
      key.size < strncmpReads (compareLength name expectType key val) key.ptr name) := by
  have hclear : Clear name expectType (.str key, val) ↔ ¬ key.bytes <+: name ∧
      if expectType = val.type then ¬ name ++ [0] <+: key.bytes else ¬ name <+: key.bytes := by
    simp [Clear]
  rw [hclear, compareLength]
  by_cases ht : expectType = val.type
  · have hread : ¬ key.size < strncmpReads key.size key.ptr name := Nat.not_lt.mpr strncmpReads_le
    have hmatch : strncmpEq key.size key.ptr name = true ↔ _ := keyMatch_iff h
    rw [if_pos ht, if_pos ht, hmatch, or_iff_left hread, not_or]
  · rw [if_neg ht, if_neg ht, strncmpEq_or_overread_iff h, not_or]

/-- An entry with the name ends the search, within its key. -/
theorem compareLength_exact (expectType : MsgObjectType) (val : MsgObject) (h : 0 ∉ key.bytes) :
    strncmpEq (compareLength key.bytes expectType key val) key.ptr key.bytes = true ∧
      strncmpReads (compareLength key.bytes expectType key val) key.ptr key.bytes ≤ key.size := by
  have hlen : compareLength key.bytes expectType key val = key.size := by
    rw [compareLength, key.length_bytes, ite_self]
  rw [hlen]
  exact ⟨(keyMatch_iff h).mpr (.inl (List.prefix_refl _)), strncmpReads_le⟩

theorem finderRun_entry_none (h : (finderRun name expectType errno i kvs).entry = none) :
    (finderRun name expectType errno i kvs).errno = missingEntry := by
  induction kvs generalizing i with
  | nil => rfl
  | cons kv kvs ih =>
    obtain ⟨k, v⟩ := kv
    cases k <;> try exact ih h
    rw [finderRun_str, compareKey] at h ⊢
    split at h
    · simp at h
    · rename_i hne
      rw [if_neg hne]
      exact ih h

theorem findIdx?_cons_shift {α : Type} (q : α → Bool) (a : α) (l : List α) (i : Nat) :
    ((a :: l).findIdx? q).map (· + i) = if q a then some i else (l.findIdx? q).map (· + (i + 1)) := by
  rw [List.findIdx?_cons]
  split
  · simp
  · rw [Option.map_map]
    exact congrArg (Option.map · _) (funext fun j => by simp only [Function.comp_apply]; omega)

theorem finderRun_entry : (finderRun name expectType errno i kvs).entry =
    (kvs.findIdx? (keyAnswers name expectType)).map (· + i) := by
  induction kvs generalizing i with
  | nil => rfl
  | cons kv kvs ih =>
    obtain ⟨k, val⟩ := kv
    rw [findIdx?_cons_shift]
    cases k <;> try exact ih
    rename_i key
    have hanswers : keyAnswers name expectType (.str key, val) =
        strncmpEq (compareLength name expectType key val) key.ptr name := by
      have hif : keyAnswers name expectType (.str key, val) =
          if expectType = val.type then keyMatch key name else strncmpEq name.length key.ptr name := rfl
      rw [hif, compareLength, keyMatch]
      split <;> rfl
    rw [finderRun_str, compareKey, hanswers]
    split
    · rfl
    · exact ih

/-- The entry is the one whose value `finder` returns. -/
theorem finder_eq_entry : finder name expectType kvs =
    (finderRun name expectType errno 0 kvs).entry.bind fun j => kvs[j]?.map Prod.snd := by
  have hfind (q : MsgObject × MsgObject → Bool) : (kvs.find? q).map Prod.snd =
      (kvs.findIdx? q).bind fun j => kvs[j]?.map Prod.snd := by
    induction kvs with
    | nil => rfl
    | cons kv kvs ih =>
      rw [List.find?_cons, List.findIdx?_cons]
      cases q kv
      · simpa [Option.bind_map, Function.comp_def] using ih
      · rfl
  rw [finder_eq, lookup, hfind, finderRun_entry]
  simp

variable (expectType errno i kvs) in
/-- From entry `i` on the search ends at the first entry with the name, and
within every key, exactly when the entries before it are clear. -/
theorem finderRun_from_iff (h : 0 ∉ name) :
    (finderRun name expectType errno i kvs).entry = (kvs.findIdx? (hasKey name)).map (· + i) ∧
      (∀ r ∈ (finderRun name expectType errno i kvs).reads, r.2 ≤ r.1.size) ↔
    ∀ kv ∈ kvs.takeWhile (!hasKey name ·), Clear name expectType kv := by
  induction kvs generalizing i with
  | nil => simp [finderRun]
  | cons kv kvs ih =>
    obtain ⟨k, val⟩ := kv
    rw [findIdx?_cons_shift]
    cases k with
    | str key =>
      rw [finderRun_str, compareKey]
      by_cases hexact : key.bytes = name
      · subst hexact
        obtain ⟨hmatch, hread⟩ := compareLength_exact expectType val h
        simp [hmatch, hasKey, hread]
      · have hkey : hasKey name (.str key, val) = false := decide_eq_false hexact
        have hbefore : (∀ kv ∈ ((MsgObject.str key, val) :: kvs).takeWhile (!hasKey name ·), Clear name expectType kv) ↔
            Clear name expectType (.str key, val) ∧
              ∀ kv ∈ kvs.takeWhile (!hasKey name ·), Clear name expectType kv := by
          rw [List.takeWhile_cons_of_pos (by rw [hkey]; rfl), List.forall_mem_cons]
        rw [hbefore, clear_iff h, hkey, ← ih (i + 1), not_or, Nat.not_lt]
        by_cases hmatch : strncmpEq (compareLength name expectType key val) key.ptr name = true
        · have hnot : ¬ some i = (kvs.findIdx? (hasKey name)).map (· + (i + 1)) := by
            intro he
            obtain ⟨j, -, hj⟩ := Option.map_eq_some_iff.mp he.symm
            omega
          simp [hmatch, hnot]
        · simp only [hmatch, if_false, List.forall_mem_cons, Bool.false_eq_true, not_false_eq_true, true_and]
          exact and_left_comm
    | _ =>
      have hclear {k : MsgObject} (hk : ∀ key, k ≠ .str key) : Clear name expectType (k, val) :=
        fun key he => absurd he (hk key)
      simpa [finderRun, hasKey, hclear] using ih (i + 1)

/-! ## The lookups -/

/-- A lookup is exact: it returns the value of the first entry with the name,
NULL with `MISSING_ENTRY` exactly when no entry has it, and reads no key beyond
its end. -/
def ExactLookup (name : Str) (expectType : MsgObjectType) (errno : Int) (kvs : List (MsgObject × MsgObject)) : Prop :=
  let call := finderRun name expectType errno 0 kvs
  call.entry = kvs.findIdx? (hasKey name) ∧
    (call.entry = none ∧ call.errno = missingEntry ↔ ∀ kv ∈ kvs, hasKey name kv = false) ∧
      ∀ r ∈ call.reads, r.2 ≤ r.1.size

theorem exactLookup_iff : ExactLookup name expectType errno kvs ↔
    (finderRun name expectType errno 0 kvs).entry = kvs.findIdx? (hasKey name) ∧
      ∀ r ∈ (finderRun name expectType errno 0 kvs).reads, r.2 ≤ r.1.size := by
  refine ⟨fun ⟨hentry, _, hreads⟩ => ⟨hentry, hreads⟩, fun ⟨hentry, hreads⟩ => ⟨hentry, ?_, hreads⟩⟩
  rw [← List.findIdx?_eq_none_iff, ← hentry]
  exact ⟨And.left, fun hnone => ⟨hnone, finderRun_entry_none hnone⟩⟩

/-- The entry is an array under the name of the issue types. -/
def isIssueType (kv : MsgObject × MsgObject) : Bool := kv.2.type = .array && hasKey (str "IssueType") kv

/-- The array that the issue types are taken from is the first under their name. -/
def ExactIssueType (kvs : List (MsgObject × MsgObject)) : Prop := issueTypeEntry 0 kvs = kvs.findIdx? isIssueType

/-- An array under a key that agrees with the name of the issue types up to its own size. -/
def issueTypeAnswers (kv : MsgObject × MsgObject) : Bool := kv.2.type = .array && keyAnswers (str "IssueType") .array kv

theorem issueTypeEntry_eq : issueTypeEntry i kvs = (kvs.findIdx? issueTypeAnswers).map (· + i) := by
  induction kvs generalizing i with
  | nil => rfl
  | cons kv kvs ih =>
    obtain ⟨k, val⟩ := kv
    rw [findIdx?_cons_shift, ← ih]
    cases k <;> cases val <;> rfl

theorem issueTypeAnswers_array {kv : MsgObject × MsgObject} (h : issueTypeAnswers kv = true) :
    ∃ key arr, kv = (.str key, .array arr) ∧ keyMatch key (str "IssueType") = true := by
  obtain ⟨harray, hkey⟩ := Bool.and_eq_true_iff.mp h
  obtain ⟨k, val⟩ := kv
  cases val with
  | array arr =>
    cases k with
    | str key => exact ⟨key, arr, rfl, hkey⟩
    | _ => exact absurd hkey (by simp [keyAnswers])
  | _ => exact absurd (of_decide_eq_true harray) (by simp [MsgObject.type])

/-- The entry is the one whose array `processParams` joins. -/
theorem processParams_eq_entry (rrdParam : RemotedebuggerParam) : issueTypeEntry 0 kvs = none ∧
    processParams rrdParam kvs = (-1, rrdParam) ∨ ∃ j key arr, issueTypeEntry 0 kvs = some j ∧
      kvs[j]? = some (.str key, .array arr) ∧
        processParams rrdParam kvs = (0, ⟨some (joinIssueTypes arr), getReqTotalSizeOfIssueTypesStr arr⟩) := by
  have hzero : issueTypeEntry 0 kvs = kvs.findIdx? issueTypeAnswers := by rw [issueTypeEntry_eq]; simp
  rw [hzero]
  clear hzero
  induction kvs with
  | nil => exact .inl ⟨rfl, rfl⟩
  | cons kv kvs ih =>
    rw [List.findIdx?_cons]
    by_cases hanswers : issueTypeAnswers kv = true
    · obtain ⟨key, arr, rfl, hmatch⟩ := issueTypeAnswers_array hanswers
      refine .inr ⟨0, key, arr, ?_, rfl, ?_⟩
      · rw [if_pos hanswers]
      · rw [processParams, if_pos hmatch]
    · have hnext : processParams rrdParam (kv :: kvs) = processParams rrdParam kvs := by
        obtain ⟨k, val⟩ := kv
        cases k <;> cases val <;> try rfl
        rename_i key arr
        have hmatch : ¬ keyMatch key (str "IssueType") = true := hanswers
        rw [processParams, if_neg hmatch]
      rw [if_neg hanswers, hnext]
      rcases ih with ⟨hnone, hparam⟩ | ⟨j, key, arr, hentry, hget, hparam⟩
      · exact .inl ⟨by rw [hnone]; rfl, hparam⟩
      · exact .inr ⟨j + 1, key, arr, by rw [hentry]; rfl, hget, hparam⟩

/-- Where one test implies another, the first elements that pass them are one
exactly when nothing before passes the weaker test. -/
theorem findIdx?_eq_iff {α : Type} {q r : α → Bool} (h : ∀ a, r a = true → q a = true) (l : List α) :
    l.findIdx? q = l.findIdx? r ↔ ∀ a ∈ l.takeWhile (!r ·), q a = false := by
  induction l with
  | nil => simp
  | cons a l ih =>
    rw [List.findIdx?_cons, List.findIdx?_cons]
    cases hr : r a with
    | true => simp [h a hr, hr]
    | false =>
      rw [List.takeWhile_cons_of_pos (by rw [hr]; rfl), List.forall_mem_cons, ← ih]
      cases q a with
      | true =>
        have hne : ¬ some 0 = (l.findIdx? r).map (· + 1) := fun he => by
          obtain ⟨j, -, hj⟩ := Option.map_eq_some_iff.mp he.symm
          exact absurd hj j.succ_ne_zero
        exact iff_of_false hne (fun hall => absurd hall.1 (by decide))
      | false =>
        have hinj : Function.Injective fun j : Nat => j + 1 := fun j k he => Nat.succ.inj he
        simp only [Bool.false_eq_true, if_false, true_and]
        exact (Option.map_injective hinj).eq_iff

theorem clear_issueType_iff (kv : MsgObject × MsgObject) :
    issueTypeAnswers kv = false ↔ (kv.2.type = .array → Clear (str "IssueType") .array kv) := by
  have hname : 0 ∉ str "IssueType" := by decide
  obtain ⟨k, val⟩ := kv
  by_cases harray : val.type = .array
  · cases k with
    | str key =>
      have hread : ¬ key.size < strncmpReads key.size key.ptr (str "IssueType") := Nat.not_lt.mpr strncmpReads_le
      have hkey : issueTypeAnswers (.str key, val) = keyMatch key (str "IssueType") := by
        simp [issueTypeAnswers, keyAnswers, harray]
      rw [hkey, clear_iff hname, compareLength, if_pos harray.symm, or_iff_left hread, Bool.not_eq_true]
      simp [harray, keyMatch]
    | _ => simp [issueTypeAnswers, keyAnswers, Clear]
  · simp [issueTypeAnswers, harray]

theorem isIssueType_answers (kv : MsgObject × MsgObject) (h : isIssueType kv = true) : issueTypeAnswers kv = true := by
  obtain ⟨harray, hkey⟩ := Bool.and_eq_true_iff.mp h
  obtain ⟨k, val⟩ := kv
  cases k with
  | str key =>
    have harray : val.type = .array := of_decide_eq_true harray
    have hbytes : key.bytes = str "IssueType" := of_decide_eq_true hkey
    have hname : 0 ∉ str "IssueType" := by decide
    have hmatch : keyMatch key (str "IssueType") = true := (keyMatch_iff hname).mpr (.inl (hbytes ▸ List.prefix_refl _))
    simp [issueTypeAnswers, keyAnswers, harray, hmatch]
  | _ => exact absurd hkey (by simp [hasKey])

/-- The issue types are taken from the first array under their name exactly when
no array before it is under a key that agrees with it up to its own size. -/
theorem issueTypeEntry_exact_iff : ExactIssueType kvs ↔
    ∀ kv ∈ kvs.takeWhile (!isIssueType ·), kv.2.type = .array → Clear (str "IssueType") .array kv := by
  have hzero : issueTypeEntry 0 kvs = kvs.findIdx? issueTypeAnswers := by rw [issueTypeEntry_eq]; simp
  rw [ExactIssueType, hzero, findIdx?_eq_iff isIssueType_answers]
  simp only [clear_issueType_iff]

/-- A lookup is exact exactly when the entries before the first with the name are
clear, and the issue types are those under their name exactly when the arrays
before it are. -/
theorem lookup_exact_iff (h : 0 ∉ name) :
    (ExactLookup name expectType errno kvs ↔
      ∀ kv ∈ kvs.takeWhile (!hasKey name ·), Clear name expectType kv) ∧
    (ExactIssueType kvs ↔
      ∀ kv ∈ kvs.takeWhile (!isIssueType ·), kv.2.type = .array → Clear (str "IssueType") .array kv) := by
  refine ⟨?_, issueTypeEntry_exact_iff⟩
  rw [exactLookup_iff, ← finderRun_from_iff expectType errno kvs 0 h]
  simp

/-- A string in memory with zeros after it. -/
def literalStr (s : Str) : MsgObject := .str ⟨fun i => s.getD i 0, s.length⟩

/-- A document with its version, and an array of issue types. -/
def exactEntries : List (MsgObject × MsgObject) :=
  [(literalStr (str "version"), .positiveInteger 7), (literalStr (str "IssueType"), .array [literalStr (str "Device")])]

theorem lookup_exact_version :
    (ExactLookup (str "version") .map 0 exactEntries ↔
      ∀ kv ∈ exactEntries.takeWhile (!hasKey (str "version") ·), Clear (str "version") .map kv) ∧
    (ExactIssueType exactEntries ↔
      ∀ kv ∈ exactEntries.takeWhile (!isIssueType ·), kv.2.type = .array → Clear (str "IssueType") .array kv) :=
  lookup_exact_iff (by decide)

/-- A longer key is taken for the name, and a shorter one for that of the issue types. -/
theorem lookup_not_exact :
    ¬ ExactLookup (str "version") .map 0
      [(literalStr (str "version2"), .positiveInteger 9), (literalStr (str "version"), .positiveInteger 7)] ∧
    ¬ ExactIssueType [(literalStr (str "Issue"), .array [literalStr (str "Device")]),
      (literalStr (str "IssueType"), .array [literalStr (str "Process")])] := by
  refine ⟨fun h => ?_, fun h => ?_⟩
  · have hentry : some 0 = some 1 := h.1
    exact absurd hentry (by decide)
  · have hentry : some 0 = some 1 := h
    exact absurd hentry (by decide)

end RRD
