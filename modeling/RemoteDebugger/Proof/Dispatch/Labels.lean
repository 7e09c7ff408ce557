import RemoteDebugger.Proof.Dispatch.Walkers

/-!
# The labels of the types of a category

* `cstr_subNodeLabel`, `cstr_deepSleepLabel`: what the copies of the two walkers
  leave in their buffers;
* `take_label_iff`: the label of a deep sleep type is whole if its two names are of
  one length;
* `labelsRight_iff`: when all labels of a deep sleep profile are.
-/

namespace RRD

open Framework Framework.Prog

variable {cfg : Config} {env : Env} {jsoncfg : Option CJson} {issue : IssueNodeData} {rfcbuf : Str} {deep : Bool}

/-! ## Copies -/

/-- The copies of a label stay within its allocation. -/
theorem copyLabel_eq {category type : Str} (hcategory : 0 ∉ category) {n : Nat}
    (hn : n ≤ category.length + type.length + rfcDelim.length + 1) (m : Nat) : copyLabel category type n m =
      some (zeroed (category.length + type.length + rfcDelim.length + 1) (category.take n ++ rfcDelim ++ type.take m)) := by
  have hdelim : rfcDelim.take (rfcDelim.length + 1) = rfcDelim := rfl
  have hone : rfcDelim.length = 1 := rfl
  have hzero : 0 ∉ category.take n := fun h => hcategory (List.mem_of_mem_take h)
  have hzero' : 0 ∉ category.take n ++ rfcDelim := fun h => (List.mem_append.mp h).elim hzero (by decide)
  rw [copyLabel, strncpy_zeroed _ hn, Option.bind_eq_bind, Option.bind_some, strncat_zeroed _ hzero,
    Option.bind_some, hdelim, strncat_zeroed _ hzero']
  · simp only [List.length_append, List.length_take, hone]
    omega
  · simp only [List.length_append, List.length_take, hone]
    omega

theorem cstr_copyLabel {category type : Str} (hcategory : 0 ∉ category) (htype : 0 ∉ type) {n : Nat}
    (hn : n ≤ category.length + type.length + rfcDelim.length + 1) (m : Nat) :
    (copyLabel category type n m).map cstr = some (category.take n ++ rfcDelim ++ type.take m) := by
  rw [copyLabel_eq hcategory hn, Option.map_some, cstr_zeroed]
  simp only [List.mem_append, not_or]
  exact ⟨⟨fun h => hcategory (List.mem_of_mem_take h), by decide⟩, fun h => htype (List.mem_of_mem_take h)⟩

/-- The label of a sub-node is its whole name. -/
theorem cstr_subNodeLabel {string : Str} (hrfcbuf : 0 ∉ rfcbuf) (hstring : 0 ∉ string) :
    (subNodeLabel rfcbuf string).map cstr = some (rfcbuf ++ rfcDelim ++ string) := by
  rw [subNodeLabel, cstr_copyLabel hrfcbuf hstring (by omega), List.take_length, List.take_length]

theorem cstr_deepSleepLabel {category type : Str} (hcategory : 0 ∉ category) (htype : 0 ∉ type) :
    (deepSleepLabel category type).map cstr =
      some (category.take type.length ++ rfcDelim ++ type.take category.length) :=
  cstr_copyLabel hcategory htype (by omega) _

/-- The label of a deep sleep type is whole if its two names are of one length. -/
theorem take_label_iff (category type : Str) :
    category.take type.length ++ rfcDelim ++ type.take category.length = category ++ rfcDelim ++ type ↔
      category.length = type.length := by
  constructor
  · intro h
    have hlen := congrArg List.length h
    simp only [List.length_append, List.length_take] at hlen
    omega
  · intro h
    rw [List.take_of_length_le (Nat.le_of_eq h), List.take_of_length_le (Nat.le_of_eq h.symm)]

/-- A name of a category or a type. -/
structure IsName (s : Str) : Prop where
  dot : ch '.' ∉ s
  zero : 0 ∉ s

theorem append_delim_inj {c c' t t' : Str} (hc : ch '.' ∉ c) (hc' : ch '.' ∉ c')
    (h : c ++ rfcDelim ++ t = c' ++ rfcDelim ++ t') : c = c' ∧ t = t' := by
  have hcut {c t : Str} (hc : ch '.' ∉ c) : (c ++ rfcDelim ++ t).takeWhile (· ≠ ch '.') = c := by
    rw [List.append_assoc, takeWhile_ne_append hc]
    exact List.append_nil c
  have hfirst : c = c' := by rw [← hcut (t := t) hc, h, hcut hc']
  subst hfirst
  exact ⟨rfl, List.append_cancel_left h⟩

/-- The categories and types with a name. -/
def typeNames (root : Option CJson) : List (Str × Str) :=
  (namePairs root).filterMap fun (category, type) => category.bind fun category => type.map fun type => (category, type)

/-- The labels of the deep sleep types: whole, different, written within their
allocation, and those of the commands that are executed. -/
structure LabelsRight (cfg : Config) (jsoncfg : Option CJson) (issue : IssueNodeData) : Prop where
  whole : ∀ p ∈ typeNames (cJsonGetObjectItem jsoncfg issue.node),
    (deepSleepLabel p.1 p.2).map cstr = some (p.1 ++ rfcDelim ++ p.2)
  distinct : ∀ p ∈ typeNames (cJsonGetObjectItem jsoncfg issue.node),
    ∀ q ∈ typeNames (cJsonGetObjectItem jsoncfg issue.node),
      (deepSleepLabel p.1 p.2).map cstr = (deepSleepLabel q.1 q.2).map cstr → p = q
  executed : ∀ env k d,
    .executeCommands d ∈ ((processAllDeepSleepAwkMetricsCommands cfg env jsoncfg issue).run k).events →
      ∃ p ∈ typeNames (cJsonGetObjectItem jsoncfg issue.node), d.rfcvalue = p.1 ++ rfcDelim ++ p.2

theorem invokeSanityandCommandExec_label (buf : Str) :
    Emits (invokeSanityandCommandExec cfg env issue jsoncfg buf deep) (Effect.IsCommand fun d => d.rfcvalue = buf) := by
  rw [invokeSanityandCommandExec]
  split
  · exact .pure _
  · refine .bind readSanityCheck_emits fun check => ?_
    rw [executeIfValid]
    split
    · exact .pure _
    · exact executeCommands_emits rfl

theorem processAllDeepSleepAwkMetricsCommands_label :
    Emits (processAllDeepSleepAwkMetricsCommands cfg env jsoncfg issue) (Effect.IsCommand fun d =>
      ∃ p ∈ typeNames (cJsonGetObjectItem jsoncfg issue.node),
        d.rfcvalue = p.1.take p.2.length ++ rfcDelim ++ p.2.take p.1.length) := by
  rw [processAllDeepSleepAwkMetricsCommands_eq]
  refine .loop (fun _ a ha => ?_) false
  obtain ⟨⟨category, type⟩, hpair, rfl⟩ := List.mem_map.mp ha
  cases category with
  | none => exact .stop
  | some category =>
    cases type with
    | none => exact .stop
    | some type =>
      refine (invokeSanityandCommandExec_label _).mono fun e he => he.mono fun d hd => ?_
      exact ⟨(category, type), List.mem_filterMap.mpr ⟨_, hpair, rfl⟩, hd⟩

theorem labelsRight_iff (hnames : ∀ p ∈ typeNames (cJsonGetObjectItem jsoncfg issue.node), IsName p.1 ∧ IsName p.2) :
    LabelsRight cfg jsoncfg issue ↔
      ∀ p ∈ typeNames (cJsonGetObjectItem jsoncfg issue.node), p.1.length = p.2.length := by
  have hlabel : ∀ p ∈ typeNames (cJsonGetObjectItem jsoncfg issue.node), (deepSleepLabel p.1 p.2).map cstr =
      some (p.1.take p.2.length ++ rfcDelim ++ p.2.take p.1.length) := fun p hp =>
    cstr_deepSleepLabel (hnames p hp).1.zero (hnames p hp).2.zero
  constructor
  · intro h p hp
    refine (take_label_iff p.1 p.2).mp (Option.some.inj ?_)
    rw [← hlabel p hp, h.whole p hp]
  · intro h
    have hwhole : ∀ p ∈ typeNames (cJsonGetObjectItem jsoncfg issue.node), (deepSleepLabel p.1 p.2).map cstr =
        some (p.1 ++ rfcDelim ++ p.2) := fun p hp => by
      rw [hlabel p hp, (take_label_iff p.1 p.2).mpr (h p hp)]
    refine ⟨hwhole, fun p hp q hq heq => ?_, fun env k d hd => ?_⟩
    · rw [hwhole p hp, hwhole q hq] at heq
      obtain ⟨h1, h2⟩ := append_delim_inj (hnames p hp).1.dot (hnames q hq).1.dot (Option.some.inj heq)
      exact Prod.ext h1 h2
    · obtain ⟨p, hp, hvalue⟩ := processAllDeepSleepAwkMetricsCommands_label k _ hd
      exact ⟨p, hp, hvalue.trans ((take_label_iff p.1 p.2).mpr (h p hp))⟩

/-- A profile for deep sleep, with one type. -/
def deepSleepProfile (category type : Str) : CJson :=
  .object [(str "DeepSleep", .object [(category, .object [(type, .object [(str "Commands", .string (str "hal_dump")),
    (str "Timeout", .number 10 (str "10"))])])])]

def deepSleepIssue : IssueNodeData := ⟨some deepSleepStr, none⟩

theorem typeNames_deepSleepProfile (category type : Str) :
    typeNames (cJsonGetObjectItem (some (deepSleepProfile category type)) deepSleepIssue.node) = [(category, type)] := rfl

theorem labelsRight_iff_sample :
    LabelsRight (plainConfig true) (some (deepSleepProfile (str "Audio") (str "State"))) deepSleepIssue := by
  have hnames := typeNames_deepSleepProfile (str "Audio") (str "State")
  refine (labelsRight_iff ?_).mpr ?_ <;> rw [hnames] <;> intro p hp <;> rw [List.mem_singleton.mp hp]
  · exact ⟨⟨by decide, by decide⟩, ⟨by decide, by decide⟩⟩
  · rfl

/-- The label of a type of the shipped profile ends within its name. -/
theorem audioStatus_label : ¬ LabelsRight (plainConfig true)
    (some (deepSleepProfile (str "Audio") (str "AudioStatus"))) deepSleepIssue := by
  intro h
  have hmem : (str "Audio", str "AudioStatus") ∈ typeNames (cJsonGetObjectItem
      (some (deepSleepProfile (str "Audio") (str "AudioStatus"))) deepSleepIssue.node) := by
    rw [typeNames_deepSleepProfile]
    exact List.mem_singleton_self _
  have hcut : (deepSleepLabel (str "Audio") (str "AudioStatus")).map cstr = some (str "Audio.Audio") := by decide +kernel
  exact absurd (hcut.symm.trans (h.whole _ hmem)) (by decide)

end RRD
