import RemoteDebugger.Impl.RunCommand
import RemoteDebugger.Proof.Dispatch.Report
import RemoteDebugger.Proof.Interface.Listing

/-!
# The wait before a unit is stopped

The two loops over the items of an issue type keep the last number. Zero stands
for no number, and `sleep` takes a number below it as unsigned.

* `readCommand_timeout`: the number that is kept;
* `toNat_sleepArgument`: what `sleep` makes of it;
* `waitsAsAsked_iff`: when the wait is that of the profile.
-/

namespace RRD

open Framework Framework.Prog

variable {cfg : Config} {env : Env} {jsoncfg : Option CJson} {issue : IssueNodeData} {type : CJson} {buf : Str} {v : Int}

/-! ## Numbers -/

def CJson.valueint : CJson → Option Int
  | .number valueint _ => some valueint
  | _ => none

/-- The numbers among the items. -/
def numbers (type : CJson) : List Int := type.children.filterMap fun elem => elem.2.valueint

/-- They are of type `int`. -/
def IntNumbers (type : CJson) : Prop := ∀ v ∈ numbers type, -2147483648 ≤ v ∧ v < 2147483648

def lastNumber (type : CJson) : Option Int := (numbers type).getLast?

/-- The seconds that an issue type asks for. -/
def askedWait (type : CJson) : Nat :=
  match lastNumber type with
  | some v => if 0 < v then v.toNat else defaultTimeout.toNat
  | none => defaultTimeout.toNat

theorem readElem_timeout (read : Option Str × Int) (elem : CJson) :
    (readElem cfg read elem).2 = elem.valueint.getD read.2 := by
  cases elem <;> rfl

theorem readCommand_timeout (type : CJson) : (readCommand cfg (some type)).2 = (lastNumber type).getD 0 := by
  have hfold (elems : List (Option Str × CJson)) (read : Option Str × Int) :
      (elems.foldl (fun read elem => readElem cfg read elem.2) read).2 =
        ((elems.filterMap fun elem => elem.2.valueint).getLast?).getD read.2 := by
    induction elems generalizing read with
    | nil => rfl
    | cons elem elems ih =>
      rw [List.foldl_cons, ih, readElem_timeout, List.filterMap_cons]
      cases elem.2.valueint with
      | none => rfl
      | some v =>
        rw [List.getLast?_cons]
        rfl
  exact hfold type.children (none, 0)

theorem toNat_sleepArgument (hlow : -2147483648 ≤ v) (hhigh : v < 2147483648) :
    (sleepArgument v).toNat = if 0 ≤ v then v.toNat else (4294967296 + v).toNat := by
  have hmod : (sleepArgument v).toNat = (v % 4294967296).toNat := by
    have hlt : (v % 4294967296).toNat < 4294967296 := by omega
    exact UInt32.toNat_ofNat_of_lt' hlt
  rw [hmod]
  split <;> omega

/-! ## Extractors -/

/-- The wait is what the type asks for, and `sleep` gets a positive number of type `int`. -/
def Waits (type : CJson) (d : IssueData) : Prop :=
  (sleepArgument d.timeout).toNat = askedWait type ∧ 1 ≤ (sleepArgument d.timeout).toNat ∧
    (sleepArgument d.timeout).toNat < 2147483648

/-- Whatever is run for an issue of that type, by either extractor, waits so. -/
structure WaitsAsAsked (cfg : Config) (type : CJson) : Prop where
  appended : ∀ jsoncfg issue buf d, issueTypeItem jsoncfg issue = some type →
    getIssueCommandInfo cfg issue jsoncfg buf = some d → Waits type d
  invoked : ∀ env jsoncfg issue buf deep k d, issueTypeItem (commandRoot jsoncfg deep) issue = some type →
    .executeCommands d ∈ ((invokeSanityandCommandExec cfg env issue jsoncfg buf deep).run k).events → Waits type d

/-- The data of a type has a command, and the wait of the type or the default. -/
def ReadFrom (type : CJson) (d : IssueData) : Prop :=
  holdsString type ∧ d.timeout = if (lastNumber type).getD 0 = 0 then defaultTimeout else (lastNumber type).getD 0

theorem acceptedData_readFrom {raw command : Str} {timeout : Int} (h : readCommand cfg (some type) = (some raw, timeout)) :
    ReadFrom type (acceptedData jsoncfg buf raw command timeout) := by
  have hstring : holdsString type := (readCommand_isSome type).mp (by rw [h]; rfl)
  have htimeout : timeout = (lastNumber type).getD 0 := by
    rw [← readCommand_timeout type, h]
  exact ⟨hstring, by rw [acceptedData, htimeout]⟩

theorem getIssueCommandInfo_readFrom {d : IssueData} (htype : issueTypeItem jsoncfg issue = some type)
    (h : getIssueCommandInfo cfg issue jsoncfg buf = some d) : ReadFrom type d := by
  rw [getIssueCommandInfo, htype] at h
  split at h
  · cases h
  · rename_i raw timeout hread
    obtain ⟨command, -, rfl⟩ := Option.map_eq_some_iff.mp h
    exact acceptedData_readFrom hread

theorem invokeSanityandCommandExec_readFrom {deep : Bool} (htype : issueTypeItem (commandRoot jsoncfg deep) issue = some type) :
    Emits (invokeSanityandCommandExec cfg env issue jsoncfg buf deep) (Effect.IsCommand (ReadFrom type)) := by
  rw [invokeSanityandCommandExec, htype]
  split
  · exact .pure _
  · rename_i raw timeout hread
    refine .bind readSanityCheck_emits fun check => ?_
    rw [executeIfValid]
    split
    · exact .pure _
    · exact executeCommands_emits (acceptedData_readFrom hread)

/-! ## The wait -/

/-- The last number is not negative. -/
def NotNegative (type : CJson) : Prop := ∀ v, lastNumber type = some v → 0 ≤ v

theorem waits_iff {d : IssueData} (hints : IntNumbers type) (h : ReadFrom type d) : Waits type d ↔ NotNegative type := by
  have hdefault : sleepArgument defaultTimeout = 90 := rfl
  obtain ⟨-, htimeout⟩ := h
  rw [Waits, NotNegative, htimeout, askedWait]
  cases hlast : lastNumber type with
  | none =>
    rw [Option.getD_none, if_pos rfl, hdefault]
    exact iff_of_true ⟨rfl, by decide, by decide⟩ fun v hv => by cases hv
  | some v =>
    have hv : -2147483648 ≤ v ∧ v < 2147483648 := hints v (List.mem_of_getLast? hlast)
    have hcond : (∀ w, some v = some w → 0 ≤ w) ↔ 0 ≤ v := by simp
    rw [Option.getD_some, hcond]
    by_cases hzero : v = 0
    · rw [if_pos hzero, hdefault, hzero]
      exact iff_of_true ⟨rfl, by decide, by decide⟩ le_rfl
    · rw [if_neg hzero, toNat_sleepArgument hv.1 hv.2]
      dsimp only
      by_cases hneg : 0 ≤ v
      · rw [if_pos hneg, if_pos (by omega)]
        exact iff_of_true ⟨rfl, by omega, by omega⟩ hneg
      · rw [if_neg hneg]
        exact iff_of_false (fun h => by have := h.2.2; omega) hneg

/-- A profile with the type in a category. -/
def typeProfile (type : CJson) : CJson := .object [(str "Network", .object [(str "Ping", type)])]

theorem issueTypeItem_typeProfile (type : CJson) :
    issueTypeItem (some (typeProfile type)) ⟨some (str "Network"), some (str "Ping")⟩ = some type := by
  rw [issueTypeItem, typeProfile, getObjectItem_single, if_pos rfl, getObjectItem_single, if_pos rfl]

/-- Some data is read from a type that holds a string. -/
theorem exists_getIssueCommandInfo (cfg : Config) (h : holdsString type) : ∃ d,
    getIssueCommandInfo cfg ⟨some (str "Network"), some (str "Ping")⟩ (some (typeProfile type)) [] = some d := by
  have hcheck : checkCommands (sanityCheck (some (typeProfile type))) = none := by
    rw [sanityCheck, typeProfile, getObjectItem_single, if_neg (by decide)]
    rfl
  rw [getIssueCommandInfo, issueTypeItem_typeProfile]
  rcases hread : readCommand cfg (some type) with ⟨_ | raw, timeout⟩
  · have hsome : (readCommand cfg (some type)).1.isSome := (readCommand_isSome type).mpr h
    rw [hread] at hsome
    cases hsome
  · obtain ⟨command, hvalid⟩ := isCommandsValid_none cfg raw
    refine ⟨acceptedData (some (typeProfile type)) [] raw command timeout, ?_⟩
    simp only [hcheck, hvalid, Option.map_some]

theorem WaitsAsAsked.notNegative (hints : IntNumbers type) (h : WaitsAsAsked cfg type) (hstring : holdsString type) :
    NotNegative type := by
  obtain ⟨d, hd⟩ := exists_getIssueCommandInfo cfg hstring
  have htype := issueTypeItem_typeProfile type
  exact (waits_iff hints (getIssueCommandInfo_readFrom htype hd)).mp (h.appended _ _ _ d htype hd)

/-- The wait is what the type asks for exactly when the type has no command or its
last number is not negative. -/
theorem waitsAsAsked_iff (cfg : Config) (hints : IntNumbers type) :
    WaitsAsAsked cfg type ↔ (holdsString type → NotNegative type) := by
  refine ⟨fun h => h.notNegative hints, fun h =>
    ⟨fun jsoncfg issue buf d htype hd => ?_, fun env jsoncfg issue buf deep k d htype hd => ?_⟩⟩
  · have hread := getIssueCommandInfo_readFrom htype hd
    exact (waits_iff hints hread).mpr (h hread.1)
  · have hread : ReadFrom type d := invokeSanityandCommandExec_readFrom htype k _ hd
    exact (waits_iff hints hread).mpr (h hread.1)

/-- An issue type with a command and one number. -/
def timedType (valueint : Int) (text : Str) : CJson :=
  .object [(str "Commands", .string (str "uptime")), (str "Timeout", .number valueint text)]

theorem intNumbers_timedType {valueint : Int} (text : Str) (h : -2147483648 ≤ valueint ∧ valueint < 2147483648) :
    IntNumbers (timedType valueint text) := by
  intro v hv
  obtain rfl : v = valueint := List.mem_singleton.mp hv
  exact h

theorem waitsAsAsked_ten : WaitsAsAsked (plainConfig true) (timedType 10 (str "10")) := by
  refine (waitsAsAsked_iff _ (intNumbers_timedType _ (by decide))).mpr fun _ v hv => ?_
  cases hv
  decide

/-- A timeout of -1, for which `sleep` gets `UINT_MAX`. -/
theorem negative_not_waitsAsAsked : ¬WaitsAsAsked (plainConfig true) (timedType (-1) (str "-1")) ∧
    sleepArgument (-1) = 4294967295 := by
  have hints : IntNumbers (timedType (-1) (str "-1")) := intNumbers_timedType _ (by decide)
  refine ⟨fun h => ?_, by decide⟩
  have hneg := h.notNegative hints (by decide +kernel) (-1) rfl
  exact absurd hneg (by decide)

end RRD
