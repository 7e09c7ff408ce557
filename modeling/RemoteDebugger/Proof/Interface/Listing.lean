import RemoteDebugger.Framework.Assign
import RemoteDebugger.Impl.Interface
import RemoteDebugger.Proof.Dispatch.Case

/-!
# The listed issue types

`getProfileData` lists an issue type by the `Commands` of its category, and a
request for it takes any string of the type as its command.

* `cJsonGetObjectItem_iff`: a lookup among names that differ;
* `rrdGetHandler_eq_ok`: what a request is answered with;
* `invokeSanityandCommandExec_findsCommand`: what a request comes to without a command;
* `listed_iff`, `listedFor_iff`, `findsCommand_iff`: what is listed, and what has a command;
* `listsRunnable_iff`: when these are the same.
-/

namespace RRD

open Framework

variable {cfg : Config} {json item category : CJson} {name key type : Str}

/-! ## Lookups -/

/-- The names under an item, in lower case. -/
def memberNames (item : CJson) : List Str := item.children.filterMap fun c => c.1.map lower

theorem cJsonGetObjectItem_iff (h : (memberNames item).Nodup) {c : CJson} :
    cJsonGetObjectItem (some item) (some key) = some c ↔ ∃ name, (some name, c) ∈ item.children ∧ lower name = lower key := by
  have hfind {c : Option Str × CJson} := find?_iff_of_nodup h (k := lower key) (a := c)
  constructor
  · intro hget
    obtain ⟨⟨name, c'⟩, hc, rfl⟩ := Option.map_eq_some_iff.mp hget
    obtain ⟨hmem, hname⟩ := hfind.mp hc
    obtain ⟨name, rfl, hlower⟩ := Option.map_eq_some_iff.mp hname
    exact ⟨name, hmem, hlower⟩
  · rintro ⟨name, hmem, hlower⟩
    have hget : item.children.find? (fun c => c.1.map (·.map tolower) = some (key.map tolower)) = some (some name, c) :=
      hfind.mpr ⟨hmem, congrArg some hlower⟩
    rw [cJsonGetObjectItem, hget, Option.map_some]

/-- The names differ, ignoring case, in a profile and in each of its categories. -/
structure NamesDistinct (json : CJson) : Prop where
  categories : (memberNames json).Nodup
  types : ∀ category ∈ json.children, (memberNames category.2).Nodup

/-! ## Commands -/

/-- An item holds a string. -/
def holdsString (type : CJson) : Bool := type.children.any fun elem => elem.2.isString

theorem readElem_isSome (read : Option Str × Int) (elem : CJson) :
    (readElem cfg read elem).1.isSome ↔ read.1.isSome ∨ elem.isString := by
  cases elem <;> simp [readElem, CJson.isString]

theorem readCommand_isSome (type : CJson) : (readCommand cfg (some type)).1.isSome ↔ holdsString type := by
  have hfold (elems : List (Option Str × CJson)) (read : Option Str × Int) :
      (elems.foldl (fun read elem => readElem cfg read elem.2) read).1.isSome ↔
        read.1.isSome ∨ elems.any fun elem => elem.2.isString := by
    induction elems generalizing read with
    | nil => simp
    | cons elem elems ih => rw [List.foldl_cons, ih, readElem_isSome, List.any_cons, Bool.or_eq_true, or_assoc]
  rw [readCommand, hfold]
  simp [cJsonItems, holdsString]

/-- A request for the type of the category does not end for want of a command. -/
def FindsCommand (cfg : Config) (json : CJson) (category type : Str) : Prop :=
  (readCommand cfg (issueTypeItem (commandRoot (some json) false) ⟨some category, some type⟩)).1.isSome

/-- Without a command a request ends at once; with one it goes on to the check. -/
theorem invokeSanityandCommandExec_findsCommand (cfg : Config) (env : Env) (json : CJson) (category type label : Str) :
    (FindsCommand cfg json category type → ∃ raw timeout,
      invokeSanityandCommandExec cfg env ⟨some category, some type⟩ (some json) label false =
        readSanityCheck env (some json) >>= executeIfValid cfg env (some json) label raw timeout) ∧
    (¬FindsCommand cfg json category type →
      invokeSanityandCommandExec cfg env ⟨some category, some type⟩ (some json) label false = pure false) := by
  rw [FindsCommand, invokeSanityandCommandExec]
  rcases readCommand cfg (issueTypeItem (commandRoot (some json) false) ⟨some category, some type⟩) with ⟨_ | raw, timeout⟩
  · exact ⟨fun h => absurd h Bool.false_ne_true, fun _ => rfl⟩
  · exact ⟨fun _ => ⟨raw, timeout, rfl⟩, fun h => absurd rfl h⟩

/-- The items with these names in the profile. -/
def AtNames (json : CJson) (category type : Str) (p : CJson → CJson → Prop) : Prop :=
  ∃ c C, (some c, C) ∈ json.children ∧ lower c = lower category ∧
    ∃ t T, (some t, T) ∈ C.children ∧ lower t = lower type ∧ p C T

theorem findsCommand_iff (h : NamesDistinct json) {category type : Str} :
    FindsCommand cfg json category type ↔ AtNames json category type fun _ T => holdsString T := by
  have hnone : (readCommand cfg none).1.isSome ↔ False := by simp [readCommand, cJsonItems]
  have hroot : commandRoot (some json) false = some json := rfl
  rw [FindsCommand, hroot, issueTypeItem]
  constructor
  · intro hcmd
    cases hC : cJsonGetObjectItem (some json) (some category) with
    | none =>
      rw [hC] at hcmd
      exact (hnone.mp hcmd).elim
    | some C =>
      cases hT : cJsonGetObjectItem (some C) (some type) with
      | none =>
        rw [hC, hT] at hcmd
        exact (hnone.mp hcmd).elim
      | some T =>
        rw [hC, hT, readCommand_isSome] at hcmd
        obtain ⟨c, hc, hcname⟩ := (cJsonGetObjectItem_iff h.categories).mp hC
        obtain ⟨t, ht, htname⟩ := (cJsonGetObjectItem_iff (h.types _ hc)).mp hT
        exact ⟨c, C, hc, hcname, t, T, ht, htname, hcmd⟩
  · rintro ⟨c, C, hc, hcname, t, T, ht, htname, hstring⟩
    rw [(cJsonGetObjectItem_iff h.categories).mpr ⟨c, hc, hcname⟩,
      (cJsonGetObjectItem_iff (h.types _ hc)).mpr ⟨t, ht, htname⟩, readCommand_isSome]
    exact hstring

/-! ## Lists -/

/-- An answer lists a name, compared as the lookups compare names. -/
def Lists (answer : CJson) (type : Str) : Prop := ∃ t, (none, CJson.string t) ∈ answer.children ∧ lower t = lower type

/-- The answer for all categories lists the type under the category. -/
def Listed (json : CJson) (category type : Str) : Prop :=
  ∃ c types, (some c, types) ∈ (allCategories (some json)).children ∧ lower c = lower category ∧ Lists types type

/-- The answer for the category lists the type. -/
def ListedFor (json : CJson) (category type : Str) : Prop := Lists (specificCategory (some json) category) type

/-- A request is answered with the listing of the profile at that time, for a profile that is within
the size and parses. -/
theorem rrdGetHandler_eq_ok {profile : Option Str} {categoryName propertyName answer : Str} :
    rrdGetHandler cfg profile categoryName propertyName = .ok answer ↔
      propertyName = rrdGetProfileEvent ∧ ∃ content json, profile = some content ∧
        (0 < content.length ∧ content.length < maxProfileJsonSize) ∧ cfg.cJsonParse (cstr content) = some json ∧
        answer = cfg.cJsonPrint (if categoryName = [] ∨ categoryName = allCategory then allCategories (some json)
          else specificCategory (some json) categoryName) := by
  rw [rrdGetHandler]
  by_cases hname : propertyName = rrdGetProfileEvent
  · rw [if_neg (not_not_intro hname)]
    cases hread : readProfileJsonFile profile with
    | none =>
      refine iff_of_false nofun fun ⟨_, content, json, hprofile, hsize, _⟩ => ?_
      rw [hprofile, readProfileJsonFile, Option.filter_eq_none_iff] at hread
      exact hread content rfl (decide_eq_true hsize)
    | some content =>
      obtain ⟨rfl, hsize⟩ := Option.filter_eq_some_iff.mp hread
      have hsize := of_decide_eq_true hsize
      cases hparse : cfg.cJsonParse (cstr content) with
      | none => simp [hparse]
      | some json =>
        by_cases hall : categoryName = [] ∨ categoryName = allCategory <;>
          simp [hname, hparse, hsize, hall, getAllCategoriesJson, getSpecificCategoryJson, eq_comm]
  · rw [if_pos hname]
    exact iff_of_false nofun fun h => hname h.1

theorem lists_issueTypesArray : Lists (issueTypesArray category) type ↔
    ∃ t T, (some t, T) ∈ category.children ∧ lower t = lower type ∧ T.isObject := by
  constructor
  · rintro ⟨t, ht, hlower⟩
    obtain ⟨elem, helem, he⟩ := List.mem_map.mp ht
    cases he
    obtain ⟨⟨name, T⟩, hT, hname⟩ := List.mem_filterMap.mp helem
    obtain ⟨t', rfl, he⟩ := Option.map_eq_some_iff.mp hname
    cases he
    obtain ⟨hmem, hobject⟩ := List.mem_filter.mp hT
    exact ⟨t, T, hmem, hlower, hobject⟩
  · rintro ⟨t, T, hmem, hlower, hobject⟩
    refine ⟨t, List.mem_map.mpr ⟨.string t, ?_, rfl⟩, hlower⟩
    exact List.mem_filterMap.mpr ⟨(some t, T), List.mem_filter.mpr ⟨hmem, hobject⟩, rfl⟩

theorem categoryMember_iff {c : Option Str × CJson} {m : Str × CJson} : categoryMember c = some m ↔
    c.2.isObject ∧ hasDirectCommands c.2 ∧ (issueTypesArray c.2).children ≠ [] ∧ c.1 = some m.1 ∧ m.2 = issueTypesArray c.2 := by
  rw [categoryMember]
  split
  · rename_i hc
    simp only [hc, true_and, Option.map_eq_some_iff]
    constructor
    · rintro ⟨name, hname, rfl⟩
      exact ⟨hc.2.2, hname, rfl⟩
    · rintro ⟨-, hname, harray⟩
      exact ⟨m.1, hname, Prod.ext rfl harray.symm⟩
  · rename_i hc
    simp only [reduceCtorEq, false_iff]
    exact fun h => hc ⟨h.1, h.2.1, h.2.2.1⟩

/-- What `get_all_categories_json` lists. -/
theorem listed_iff {category type : Str} : Listed json category type ↔
    AtNames json category type fun C T => C.isObject ∧ hasDirectCommands C ∧ T.isObject := by
  have hmem {c : Str} {types : CJson} : (some c, types) ∈ (allCategories (some json)).children ↔
      ∃ a ∈ json.children, categoryMember a = some (c, types) := by
    simp [allCategories, CJson.children, cJsonItems]
  constructor
  · rintro ⟨c, types, hc, hcname, hlists⟩
    obtain ⟨⟨name, C⟩, hC, hmember⟩ := hmem.mp hc
    obtain ⟨hobject, hdirect, -, hname, harray⟩ := categoryMember_iff.mp hmember
    cases hname
    rw [show types = issueTypesArray C from harray] at hlists
    obtain ⟨t, T, hT, htname, hTobject⟩ := lists_issueTypesArray.mp hlists
    exact ⟨c, C, hC, hcname, t, T, hT, htname, hobject, hdirect, hTobject⟩
  · rintro ⟨c, C, hC, hcname, t, T, hT, htname, hobject, hdirect, hTobject⟩
    have hlists : Lists (issueTypesArray C) type := lists_issueTypesArray.mpr ⟨t, T, hT, htname, hTobject⟩
    have hne : (issueTypesArray C).children ≠ [] := fun e => by
      obtain ⟨t, ht, -⟩ := hlists
      rw [e] at ht
      cases ht
    exact ⟨c, _, hmem.mpr ⟨_, hC, categoryMember_iff.mpr ⟨hobject, hdirect, hne, rfl, rfl⟩⟩, hcname, hlists⟩

/-- The answer for all categories holds arrays only, and lists nothing by itself. -/
theorem not_lists_allCategories (type : Str) : ¬Lists (allCategories (some json)) type := by
  rintro ⟨t, ht, -⟩
  simp [allCategories, CJson.children] at ht

theorem specificCategory_lists (category : CJson) {categoryName type : Str}
    (h : cJsonGetObjectItem (some json) (some categoryName) = some category) :
    Lists (specificCategory (some json) categoryName) type ↔
      category.isObject ∧ hasDirectCommands category ∧ Lists (issueTypesArray category) type := by
  rw [specificCategory, h]
  cases category with
  | object items =>
    simp only [CJson.isObject, true_and]
    split
    · rename_i hdirect
      simp [hdirect]
    · rename_i hdirect
      simp [hdirect, Lists, CJson.children]
  | _ => simp [CJson.isObject, not_lists_allCategories]

/-- What `get_specific_category_json` lists. -/
theorem listedFor_iff (h : NamesDistinct json) {category type : Str} : ListedFor json category type ↔
    AtNames json category type fun C T => C.isObject ∧ hasDirectCommands C ∧ T.isObject := by
  rw [ListedFor]
  constructor
  · intro hlists
    cases hC : cJsonGetObjectItem (some json) (some category) with
    | none =>
      rw [specificCategory, hC] at hlists
      exact (not_lists_allCategories _ hlists).elim
    | some C =>
      obtain ⟨hobject, hdirect, hlists⟩ := (specificCategory_lists C hC).mp hlists
      obtain ⟨c, hc, hcname⟩ := (cJsonGetObjectItem_iff h.categories).mp hC
      obtain ⟨t, T, hT, htname, hTobject⟩ := lists_issueTypesArray.mp hlists
      exact ⟨c, C, hc, hcname, t, T, hT, htname, hobject, hdirect, hTobject⟩
  · rintro ⟨c, C, hc, hcname, t, T, hT, htname, hobject, hdirect, hTobject⟩
    have hC := (cJsonGetObjectItem_iff h.categories).mpr ⟨c, hc, hcname⟩
    exact (specificCategory_lists C hC).mpr ⟨hobject, hdirect, lists_issueTypesArray.mpr ⟨t, T, hT, htname, hTobject⟩⟩

/-! ## The two sides -/

theorem mem_unique (h : (memberNames item).Nodup) {a b : Str} {A B : CJson} (ha : (some a, A) ∈ item.children)
    (hb : (some b, B) ∈ item.children) (hlower : lower a = lower b) : A = B := by
  have hA := (cJsonGetObjectItem_iff h).mpr ⟨a, ha, hlower⟩
  have hB := (cJsonGetObjectItem_iff h).mpr ⟨b, hb, rfl⟩
  exact Option.some.inj (hA.symm.trans hB)

theorem atNames_iff (h : NamesDistinct json) {c t : Str} {C T : CJson} (hC : (some c, C) ∈ json.children)
    (hT : (some t, T) ∈ C.children) (p : CJson → CJson → Prop) : AtNames json c t p ↔ p C T := by
  constructor
  · rintro ⟨c', C', hC', hcname, t', T', hT', htname, hp⟩
    obtain rfl := mem_unique h.categories hC' hC hcname
    obtain rfl := mem_unique (h.types _ hC) hT' hT htname
    exact hp
  · exact fun hp => ⟨c, C, hC, rfl, t, T, hT, rfl, hp⟩

/-- The types that are listed are those with a command, for every category and type. -/
def ListsRunnable (cfg : Config) (json : CJson) : Prop :=
  ∀ category type, (Listed json category type ↔ FindsCommand cfg json category type) ∧
    (ListedFor json category type ↔ FindsCommand cfg json category type)

/-- No type of the category holds a string, or some type has its command under
`Commands` and the types that hold a string are those that are objects. -/
def Uniform (category : CJson) : Prop :=
  (∀ type ∈ category.children, ¬holdsString type.2) ∨
    (hasDirectCommands category ∧ ∀ type ∈ category.children, type.2.isObject ↔ holdsString type.2)

theorem holdsString_of_itemCommands {type : CJson} (h : (itemCommands type).any CJson.isString) : holdsString type := by
  obtain ⟨commands, hget, hstring⟩ := (Option.any_eq_true _ _).mp h
  obtain ⟨elem, hfind, rfl⟩ := Option.map_eq_some_iff.mp hget
  exact List.any_eq_true.mpr ⟨elem, List.mem_of_find?_eq_some hfind, hstring⟩

/-- A category that is listed has a type with a command. -/
theorem exists_holdsString (h : hasDirectCommands category) : ∃ type ∈ category.children, holdsString type.2 := by
  obtain ⟨type, htype, hboth⟩ := List.any_eq_true.mp h
  exact ⟨type, htype, holdsString_of_itemCommands (Bool.and_eq_true_iff.mp hboth).2⟩

theorem uniform_iff : Uniform category ↔
    ∀ type ∈ category.children, (hasDirectCommands category ∧ type.2.isObject ↔ holdsString type.2) := by
  constructor
  · rintro (hnone | ⟨hdirect, hall⟩) type htype
    · have hdirect : ¬hasDirectCommands category := fun h => by
        obtain ⟨type, htype, hstring⟩ := exists_holdsString h
        exact hnone type htype hstring
      exact iff_of_false (fun h => hdirect h.1) (hnone type htype)
    · rw [← hall type htype]
      exact and_iff_right hdirect
  · intro hall
    by_cases hdirect : hasDirectCommands category
    · exact .inr ⟨hdirect, fun type htype => (and_iff_right hdirect).symm.trans (hall type htype)⟩
    · exact .inl fun type htype hstring => hdirect ((hall type htype).mpr hstring).1

/-- Every member of an object has a name. -/
theorem exists_name (h : item.isObject) {c : Option Str × CJson} (hc : c ∈ item.children) : ∃ name, c.1 = some name := by
  cases item with
  | object items =>
    obtain ⟨i, -, rfl⟩ := List.mem_map.mp hc
    exact ⟨i.1, rfl⟩
  | _ => cases h

/-- A member with a name is one of an object. -/
theorem isObject_of_mem {c : CJson} (hc : (some name, c) ∈ item.children) : item.isObject := by
  cases item with
  | object items => rfl
  | array items => simp [CJson.children] at hc
  | _ => cases hc

theorem ListsRunnable.uniform (h : NamesDistinct json) (hruns : ListsRunnable cfg json) {c : Str}
    (hC : (some c, category) ∈ json.children) (hobject : category.isObject) : Uniform category := by
  refine uniform_iff.mpr fun type htype => ?_
  obtain ⟨t, ht⟩ := exists_name hobject htype
  have hT : (some t, type.2) ∈ category.children := ht ▸ htype
  have hiff := (hruns c t).1
  rw [listed_iff, findsCommand_iff h, atNames_iff h hC hT, atNames_iff h hC hT] at hiff
  exact (and_iff_right hobject).symm.trans hiff

/-- What is listed is what can be requested exactly when every category that is an
object is uniform. -/
theorem listsRunnable_iff (h : NamesDistinct json) :
    ListsRunnable cfg json ↔ ∀ c category, (some c, category) ∈ json.children → category.isObject → Uniform category := by
  refine ⟨fun hruns c category hC hobject => hruns.uniform h hC hobject, fun huniform category type => ?_⟩
  have hsame : AtNames json category type (fun C T => C.isObject ∧ hasDirectCommands C ∧ T.isObject) ↔
      AtNames json category type fun _ T => holdsString T := by
    refine exists_congr fun c => exists_congr fun C => and_congr_right fun hC => and_congr_right fun _ => ?_
    refine exists_congr fun t => exists_congr fun T => and_congr_right fun hT => and_congr_right fun _ => ?_
    have hobject := isObject_of_mem hT
    have hboth := uniform_iff.mp (huniform c C hC hobject) _ hT
    exact (and_iff_right hobject).trans hboth
  rw [listed_iff, listedFor_iff h, findsCommand_iff h]
  exact ⟨hsame, hsame⟩

theorem listsRunnable_ping : ListsRunnable (plainConfig true) (pingProfile (str "ping") pingSanity) := by
  have hnames : NamesDistinct (pingProfile (str "ping") pingSanity) := ⟨by decide +kernel, by decide +kernel⟩
  refine (listsRunnable_iff hnames).mpr fun c category hC hobject => ?_
  rcases List.mem_cons.mp hC with hC | hC
  · cases hC
    exact .inr ⟨by decide +kernel, by decide +kernel⟩
  · cases List.mem_singleton.mp hC
    exact .inl (by decide +kernel)

/-- The first category of the shipped profile. -/
def debugCategory : CJson :=
  .object [(str "DebugCategory", .object [(str "DebugIssueType", .object
    [(str "DebugCommands", .string (str "command1;command2;commmand3")), (str "DebugTimeout", .number 10 (str "10"))])])]

/-- Its type has a command and is not listed. -/
theorem debugCategory_not_listed : NamesDistinct debugCategory ∧ ¬ListsRunnable (plainConfig true) debugCategory := by
  have hnames : NamesDistinct debugCategory := ⟨by decide +kernel, by decide +kernel⟩
  refine ⟨hnames, fun hruns => ?_⟩
  rcases hruns.uniform hnames List.mem_cons_self rfl with hnone | ⟨hdirect, -⟩
  · exact hnone _ List.mem_cons_self (by decide +kernel)
  · exact absurd hdirect (by decide +kernel)

end RRD
