import RemoteDebugger.Proof.Config.Lines
import RemoteDebugger.Proof.Config.Merge

/-!
# Property files and their format

Both parsers read a file by the same loop. That of the DCM settings takes the
quotes off a value, that of the property files does not.

* `SplitOk.sameFields`: a line that is read whole, or whose pieces do no harm;
* `properties_sameFields`, `dcm_sameFields`: what the parsers set, line by line;
* `properties_grammar_iff`: when a file of such lines is read as documented.
-/

namespace RRD

open Framework

variable {content line s val : Str} {k : ConfigKey} {l l' l₁ l₁' : List (ConfigKey × Str)}

/-! ## Assignments that come to the same -/

/-- Every field is set to the same, or not at all. -/
def SameFields (l l' : List (ConfigKey × Str)) : Prop := ∀ k : ConfigKey, (lastSet k l).map k.cut = (lastSet k l').map k.cut

theorem SameFields.append (h : SameFields l l') (h₁ : SameFields l₁ l₁') : SameFields (l ++ l₁) (l' ++ l₁') := fun k => by
  rw [lastSet_append, lastSet_append, Option.map_or, Option.map_or, h k, h₁ k]

theorem SameFields.flatMap {lines : List Str} {g g' : Str → List (ConfigKey × Str)}
    (h : ∀ line ∈ lines, SameFields (g line) (g' line)) : SameFields (lines.flatMap g) (lines.flatMap g') := by
  induction lines with
  | nil => exact fun _ => rfl
  | cons line lines ih =>
    obtain ⟨hline, hlines⟩ := List.forall_mem_cons.mp h
    exact hline.append (ih hlines)

/-- What a field has no room for makes no difference. -/
theorem SameFields.of_prefix {v v' : Str} (h : v <+: v') (hroom : k.size - 1 ≤ v.length) :
    SameFields [(k, v)] [(k, v')] := fun k' => by
  obtain ⟨more, rfl⟩ := h
  have hcut : k.cut (v ++ more) = k.cut v := List.take_append_of_le_length hroom
  by_cases hk : k = k'
  · subst hk
    simp [lastSet, hcut]
  · simp [lastSet, hk]

/-- Whatever the fields hold before. -/
theorem sameFields_iff : (∀ (config : RrdConfig) (k : ConfigKey),
    (config.assign l).get k = ((lastSet k l').map k.cut).getD (config.get k)) ↔ SameFields l l' := by
  have hget (config : RrdConfig) (k : ConfigKey) :
      (config.assign l).get k = ((lastSet k l).map k.cut).getD (config.get k) := config.get_assign k l
  simp only [hget]
  refine ⟨fun h k => ?_, fun h config k => by rw [h k]⟩
  -- a value is not what two configurations held
  have hnone (v : Str) (hv : ∀ config : RrdConfig, v = config.get k) : False := by
    have hnil := hv (RrdConfig.initial.put k [])
    have hbyte := hv (RrdConfig.initial.put k [0])
    rw [RrdConfig.get_put_self] at hnil hbyte
    rw [hnil, List.take_of_length_le (l := [0]) (RrdConfig.size_pos k)] at hbyte
    simp at hbyte
  cases hl : lastSet k l with
  | none =>
    cases hl' : lastSet k l' with
    | none => rfl
    | some v' => exact (hnone (k.cut v') fun config => by simpa [hl, hl'] using (h config k).symm).elim
  | some v =>
    cases hl' : lastSet k l' with
    | none => exact (hnone (k.cut v) fun config => by simpa [hl, hl'] using h config k).elim
    | some v' => simpa [hl, hl'] using h RrdConfig.initial k

/-! ## The lines -/

theorem keyValue_newline (s : Str) : keyValue (s ++ [newline]) = keyValue s := by
  by_cases h : ch '=' ∈ s
  · obtain ⟨key, val, hkey, rfl⟩ := exists_keyValue h
    rw [List.append_assoc, List.cons_append, keyValue_append hkey, keyValue_append hkey, trim_newline]
  · rw [keyValue_eq_none h, keyValue_eq_none]
    simp only [List.mem_append, List.mem_singleton, h, false_or]
    decide

theorem propertiesLine_reader : LineReader propertiesLine where
  nil := rfl
  append_newline s := by rw [propertiesLine, keyValue_newline, ← propertiesLine]

theorem dcmLine_reader : LineReader dcmLine where
  nil := rfl
  append_newline s := by rw [dcmLine, keyValue_newline, ← dcmLine]

theorem propertiesLine_eq_some {v : Str} : propertiesLine s = some (k, v) ↔
    ∃ key, keyValue s = some (key, v) ∧ simpleKey key = some k ∧ v ≠ [] := by
  have hnil : simpleKey [] = none := by decide
  cases hkv : keyValue s with
  | none => simp [propertiesLine, hkv]
  | some kv =>
    obtain ⟨key, val⟩ := kv
    simp only [propertiesLine, hkv, Option.bind_eq_bind, Option.bind_some, Option.some.injEq, Prod.mk.injEq,
      Option.ite_none_left_eq_some, not_or]
    constructor
    · rintro ⟨⟨-, hval⟩, h⟩
      obtain ⟨k', hk, ⟨⟩⟩ := Option.map_eq_some_iff.mp h
      exact ⟨key, ⟨rfl, rfl⟩, hk, hval⟩
    · rintro ⟨_, ⟨rfl, rfl⟩, hk, hval⟩
      refine ⟨⟨?_, hval⟩, by rw [hk]; rfl⟩
      rintro rfl
      rw [hnil] at hk
      cases hk

/-- The keys in upper case are no others of the DCM settings. -/
theorem simpleKey_ne {key : Str} (h : simpleKey key = some k) : key ≠ uploadUrlKey ∧ key ≠ uploadProtocolKey := by
  constructor <;> rintro rfl <;> exact absurd h (by decide +revert)

/-- The DCM settings take the quotes off. -/
theorem dcmLine_of_properties {v : Str} (h : propertiesLine s = some (k, v)) :
    dcmLine s = if unquoteValue v = [] then none else some (k, unquoteValue v) := by
  obtain ⟨key, hkv, hk, -⟩ := propertiesLine_eq_some.mp h
  obtain ⟨hurl, hprotocol⟩ := simpleKey_ne hk
  simp only [dcmLine, hkv, Option.bind_eq_bind, Option.bind_some, hurl, hprotocol, if_false, hk, Option.map_some, ite_not]

/-! ## Quotes -/

/-- The value has quotes around it. -/
def Quoted (val : Str) : Prop := 2 ≤ val.length ∧ val.head? = some (ch '"') ∧ val.getLast? = some (ch '"')

instance : Decidable (Quoted val) := inferInstanceAs (Decidable (_ ∧ _ ∧ _))

theorem unquoteValue_of_not_quoted (h : ¬Quoted val) : unquoteValue val = val := if_neg h

theorem dcmLine_of_not_quoted (h : propertiesLine s = some (k, val)) (hquotes : ¬Quoted val) : dcmLine s = some (k, val) := by
  obtain ⟨-, -, -, hne⟩ := propertiesLine_eq_some.mp h
  rw [dcmLine_of_properties h, unquoteValue_of_not_quoted hquotes, if_neg hne]

/-! ## Pieces -/

/-- A string that sets no field. -/
def SetsNothing (s : Str) : Prop := propertiesLine s = none ∧ dcmLine s = none

/-- A line that is read as one, though it may be read in pieces: it fits, or
neither it nor a piece of it sets a field, or its first piece alone does and has
its value, or all of it that the field has room for. -/
inductive SplitOk (line : Str) : Prop where
  | short (h : line.length < 1024)
  | quiet (h : ∀ s ∈ cstr line :: readLines 1024 line, SetsNothing s)
  | own {first : Str} {rest : List Str} {k : ConfigKey} {v : Str} (hreads : readLines 1024 line = first :: rest)
      (hrest : ∀ s ∈ rest, SetsNothing s) (hfirst : propertiesLine first = some (k, v))
      (hline : propertiesLine (cstr line) = some (k, v))
  | full {first : Str} {rest : List Str} {k : ConfigKey} {v : Str} (hreads : readLines 1024 line = first :: rest)
      (hrest : ∀ s ∈ rest, SetsNothing s) (hfirst : propertiesLine first = some (k, v)) (hroom : k.size - 1 ≤ v.length)
      (hquotes : ¬Quoted v) (hline : ∀ k' v', propertiesLine (cstr line) = some (k', v') → ¬Quoted v')

theorem cstr_prefix {p : Str} (h : p <+: line) : cstr p <+: cstr line := by
  obtain ⟨more, rfl⟩ := h
  rw [cstr, cstr, List.takeWhile_append]
  split
  · exact (List.takeWhile_prefix _).trans (List.prefix_append p _)
  · exact List.prefix_rfl

/-- What is read first is the start of the line. -/
theorem readLines_head {first : Str} {rest : List Str} {size : Nat} (h : readLines size line = first :: rest) :
    first <+: cstr line := by
  obtain ⟨p, pieces, hreads, rfl, -⟩ := List.map_eq_cons_iff.mp h
  exact cstr_prefix (fgetsLines_head (size - 1) [] line p (by rw [hreads]; rfl))

/-- A line is for the key of its start, and has its value. -/
theorem propertiesLine_prefix {v : Str} (h : propertiesLine s = some (k, v)) (hs : s <+: line) :
    ∃ v', v <+: v' ∧ propertiesLine line = some (k, v') := by
  obtain ⟨key, hkv, hk, hne⟩ := propertiesLine_eq_some.mp h
  have hmem : ch '=' ∈ s := by
    by_contra hmem
    rw [keyValue_eq_none hmem] at hkv
    cases hkv
  obtain ⟨key, val, hkey, rfl⟩ := exists_keyValue hmem
  obtain ⟨more, rfl⟩ := hs
  rw [keyValue_append hkey, Option.some.injEq, Prod.mk.injEq] at hkv
  obtain ⟨rfl, rfl⟩ := hkv
  have hstart := trim_append hne more
  refine ⟨_, hstart, propertiesLine_eq_some.mpr ⟨trim key, ?_, hk, fun h => hne (List.prefix_nil.mp (h ▸ hstart))⟩⟩
  rw [List.append_assoc, List.cons_append, keyValue_append hkey]

/-- Both parsers set for the pieces what they set for the line. -/
theorem SplitOk.sameFields (h : SplitOk line) (hline : newline ∉ line) :
    SameFields ((readLines 1024 line).filterMap propertiesLine) (propertiesLine (cstr line)).toList ∧
      SameFields ((readLines 1024 line).filterMap dcmLine) (dcmLine (cstr line)).toList := by
  cases h with
  | short hlen =>
    rw [propertiesLine_reader.reads_short hline hlen, dcmLine_reader.reads_short hline hlen]
    exact ⟨fun _ => rfl, fun _ => rfl⟩
  | quiet hquiet =>
    obtain ⟨⟨hprop, hdcm⟩, hpieces⟩ := List.forall_mem_cons.mp hquiet
    rw [hprop, hdcm, List.filterMap_eq_nil_iff.mpr fun s hs => (hpieces s hs).1,
      List.filterMap_eq_nil_iff.mpr fun s hs => (hpieces s hs).2]
    exact ⟨fun _ => rfl, fun _ => rfl⟩
  | own hreads hrest hfirst hwhole =>
    have hdcm := (dcmLine_of_properties hwhole).trans (dcmLine_of_properties hfirst).symm
    rw [hreads, List.filterMap_cons_some hfirst, hwhole, hdcm, List.filterMap_cons,
      List.filterMap_eq_nil_iff.mpr fun s hs => (hrest s hs).1, List.filterMap_eq_nil_iff.mpr fun s hs => (hrest s hs).2]
    refine ⟨fun _ => rfl, ?_⟩
    cases dcmLine _ <;> exact fun _ => rfl
  | full hreads hrest hfirst hroom hquotes hplain =>
    obtain ⟨v', hv', hwhole⟩ := propertiesLine_prefix hfirst (readLines_head hreads)
    have hsame := SameFields.of_prefix hv' hroom
    rw [hreads, List.filterMap_cons_some hfirst, List.filterMap_cons_some (dcmLine_of_not_quoted hfirst hquotes), hwhole,
      dcmLine_of_not_quoted hwhole (hplain _ _ hwhole), List.filterMap_eq_nil_iff.mpr fun s hs => (hrest s hs).1,
      List.filterMap_eq_nil_iff.mpr fun s hs => (hrest s hs).2]
    exact ⟨hsame, hsame⟩

/-! ## Files -/

/-- What the lines of a property file set, with their quotes. -/
def settings (content : Str) : List (ConfigKey × Str) :=
  (textLines content).filterMap fun line => propertiesLine (cstr line)

/-- A file whose lines are read as one sets what they set. -/
theorem LineReader.sameFields {f : Str → Option (ConfigKey × Str)} (hf : LineReader f)
    (h : ∀ line ∈ textLines content, SameFields ((readLines 1024 line).filterMap f) (f (cstr line)).toList) :
    SameFields ((readLines 1024 content).filterMap f) ((textLines content).filterMap fun line => f (cstr line)) := by
  rw [hf.reads_textLines, List.filterMap_eq_flatMap_toList]
  exact .flatMap h

theorem documented_eq_dcm (h : NoUploadKeys content) :
    documented content = (textLines content).filterMap fun line => dcmLine (cstr line) := by
  refine List.filterMap_congr fun line hline => ?_
  rw [documentedLine, dcmLine]
  cases hkv : keyValue (cstr line) with
  | none => rfl
  | some kv =>
    obtain ⟨hurl, hprotocol⟩ := h line hline kv.1 kv.2 hkv
    simp only [Option.bind_eq_bind, Option.bind_some, hurl, hprotocol, if_false, ne_eq, ite_not]

section

variable (h : ∀ line ∈ textLines content, SplitOk line)

include h

theorem properties_sameFields : SameFields (propertiesLines (some content)) (settings content) :=
  propertiesLine_reader.sameFields fun line hline => ((h line hline).sameFields (notMem_of_mem_splitOn hline)).1

theorem dcm_sameFields (hkeys : NoUploadKeys content) : SameFields (dcmLines (some content)) (documented content) := by
  rw [documented_eq_dcm hkeys]
  exact dcmLine_reader.sameFields fun line hline => ((h line hline).sameFields (notMem_of_mem_splitOn hline)).2

/-- The property files are read as documented where the quotes make no difference, and then
the DCM settings are read alike. -/
theorem meetsGrammar_iff : MeetsGrammar content ↔ SameFields (settings content) (documented content) := by
  have hprop := properties_sameFields h
  constructor
  · rintro ⟨hfields, -⟩ k
    exact (hprop k).symm.trans (sameFields_iff.mp hfields k)
  · intro hsame
    have hfields := sameFields_iff.mpr fun k => (hprop k).trans (hsame k)
    refine ⟨hfields, fun hkeys config k => ?_⟩
    exact (sameFields_iff.mpr (dcm_sameFields h hkeys) config k).trans (hfields config k).symm

end

/-! ## Quotes that make no difference -/

theorem quoted_iff : Quoted val ↔ ∃ inner, val = ch '"' :: (inner ++ [ch '"']) := by
  constructor
  · rintro ⟨hlen, hhead, hlast⟩
    obtain ⟨rest, rfl⟩ := List.head?_eq_some_iff.mp hhead
    have hne : rest ≠ [] := fun h => absurd hlen (by rw [h]; decide)
    rw [List.getLast?_cons, List.getLast?_eq_some_getLast hne, Option.getD_some, Option.some.injEq] at hlast
    exact ⟨rest.dropLast, by rw [← hlast, List.dropLast_append_getLast]⟩
  · rintro ⟨inner, rfl⟩
    refine ⟨by simp, rfl, ?_⟩
    rw [← List.cons_append, List.getLast?_concat]

theorem unquoteValue_quoted (inner : Str) : unquoteValue (ch '"' :: (inner ++ [ch '"'])) = inner := by
  have hquoted : Quoted (ch '"' :: (inner ++ [ch '"'])) := quoted_iff.mpr ⟨inner, rfl⟩
  refine (if_pos hquoted).trans ?_
  rw [← List.cons_append, List.dropLast_concat]
  rfl

def emptyQuotes : Str := str "\"\""

theorem unquoteValue_eq_nil_iff (h : val ≠ []) : unquoteValue val = [] ↔ val = emptyQuotes := by
  by_cases hquoted : Quoted val
  · obtain ⟨inner, rfl⟩ := quoted_iff.mp hquoted
    rw [unquoteValue_quoted]
    constructor
    · rintro rfl
      rfl
    · intro he
      have hlen := congrArg List.length he
      exact List.length_eq_zero_iff.mp (by simpa [emptyQuotes, str] using hlen)
  · rw [unquoteValue_of_not_quoted hquoted]
    exact ⟨fun hnil => absurd hnil h, fun he => absurd (by rw [he]; decide) hquoted⟩

theorem unquoteValue_eq_emptyQuotes_iff : unquoteValue val = emptyQuotes ↔ val = emptyQuotes ++ emptyQuotes := by
  by_cases hquoted : Quoted val
  · obtain ⟨inner, rfl⟩ := quoted_iff.mp hquoted
    rw [unquoteValue_quoted]
    constructor
    · rintro rfl
      rfl
    · intro he
      have := congrArg unquoteValue he
      rw [unquoteValue_quoted] at this
      exact this.trans (by decide)
  · rw [unquoteValue_of_not_quoted hquoted]
    constructor <;> rintro rfl <;> exact absurd (by decide) hquoted

/-- A list that is shifted by a byte and starts alike is that byte, over and over. -/
theorem take_cons_eq_take_iff {b : Byte} {w : Str} {n : Nat} (h : n ≤ w.length) :
    (b :: w).take n = w.take n ↔ w.take n = List.replicate n b := by
  induction n generalizing b w with
  | zero => simp
  | succ n ih =>
    cases w with
    | nil => simp at h
    | cons c w =>
      have hlen : n ≤ w.length := Nat.le_of_succ_le_succ h
      simp only [List.take_succ_cons, List.replicate_succ, List.cons.injEq]
      constructor
      · rintro ⟨rfl, htake⟩
        exact ⟨rfl, (ih hlen).mp htake⟩
      · rintro ⟨rfl, htake⟩
        exact ⟨rfl, (ih hlen).mpr htake⟩

/-- The quotes around a value are in the field, unless it is all quotes that the field has room for. -/
theorem cut_unquoteValue_iff (k : ConfigKey) (val : Str) : k.cut val = k.cut (unquoteValue val) ↔
    ¬Quoted val ∨ val.take k.size = List.replicate k.size (ch '"') ∧ k.size < val.length := by
  by_cases hquoted : Quoted val
  · obtain ⟨inner, rfl⟩ := quoted_iff.mp hquoted
    obtain ⟨n, hn⟩ : ∃ n, k.size = n + 1 := ⟨k.size - 1, by have := RrdConfig.size_pos k; omega⟩
    rw [unquoteValue_quoted, or_iff_right (not_not_intro hquoted), ConfigKey.cut, ConfigKey.cut, hn, Nat.add_sub_cancel,
      List.take_succ_cons, List.replicate_succ, List.cons.injEq, and_iff_right rfl, List.length_cons, List.length_append,
      List.length_singleton]
    rcases Nat.lt_or_ge inner.length n with hlt | hle
    · refine iff_of_false (fun h => ?_) fun h => by omega
      have hlen := congrArg List.length h
      simp only [List.length_take, List.length_cons, List.length_append] at hlen
      omega
    · have hinner : (inner ++ [ch '"']).take n = inner.take n := List.take_append_of_le_length hle
      rw [← hinner, take_cons_eq_take_iff (by simp; omega)]
      exact (and_iff_left (by omega)).symm
  · rw [unquoteValue_of_not_quoted hquoted]
    exact ⟨fun _ => .inl hquoted, fun _ => rfl⟩

/-- Every field has room for two quotes. -/
theorem cut_eq_emptyQuotes_iff (k : ConfigKey) : k.cut val = emptyQuotes ↔ val = emptyQuotes := by
  have hroom : 2 < k.size - 1 := by cases k <;> decide
  constructor
  · intro h
    have hlen := congrArg List.length h
    rw [ConfigKey.cut, List.length_take, show emptyQuotes.length = 2 from rfl] at hlen
    rwa [ConfigKey.cut, List.take_of_length_le (by omega)] at h
  · rintro rfl
    exact List.take_of_length_le hroom.le

/-! ## The last value -/

/-- The values without their quotes, where that leaves any. -/
def unquoted (l : List (ConfigKey × Str)) : List (ConfigKey × Str) :=
  l.filterMap fun a => if unquoteValue a.2 = [] then none else some (a.1, unquoteValue a.2)

theorem documented_eq (content : Str) : documented content = unquoted (settings content) := by
  rw [documented, unquoted, settings, List.filterMap_filterMap]
  refine List.filterMap_congr fun line _ => ?_
  have hkey : simpleKey [] = none := by decide
  have hval : unquoteValue [] = [] := by decide
  rw [documentedLine, propertiesLine]
  cases keyValue (cstr line) with
  | none => rfl
  | some kv =>
    obtain ⟨key, val⟩ := kv
    simp only [Option.bind_eq_bind, Option.bind_some]
    by_cases hnil : key = [] ∨ val = []
    · rcases hnil with rfl | rfl <;> simp [hkey, hval]
    · rw [if_neg hnil]
      cases simpleKey key <;> simp

theorem settings_ne (content : Str) : ∀ a ∈ settings content, a.2 ≠ [] := by
  intro a ha
  obtain ⟨line, -, hline⟩ := List.mem_filterMap.mp ha
  exact propertiesLine_ne hline

theorem lastSet_unquoted (hl : ∀ a ∈ l, a.2 ≠ []) (k : ConfigKey) :
    lastSet k (unquoted l) = (lastSet k (l.filter (·.2 ≠ emptyQuotes))).map unquoteValue := by
  induction l with
  | nil => rfl
  | cons a l ih =>
    obtain ⟨ha, hl⟩ := List.forall_mem_cons.mp hl
    by_cases hempty : a.2 = emptyQuotes
    · have hnil := (unquoteValue_eq_nil_iff ha).mpr hempty
      have hskip : unquoted (a :: l) = unquoted l := List.filterMap_cons_none (if_pos hnil)
      rw [hskip, ih hl, List.filter_cons_of_neg (by simpa using hempty)]
    · have hvalue := mt (unquoteValue_eq_nil_iff ha).mp hempty
      have hstep : unquoted (a :: l) = (a.1, unquoteValue a.2) :: unquoted l := List.filterMap_cons_some (if_neg hvalue)
      rw [hstep, List.filter_cons_of_pos (by simpa using hempty), lastSet, lastSet, ih hl, Option.map_or]
      split <;> rfl

/-- The quotes around the last value for a key make no difference: there are none, or
the field has room for nothing but quotes, or all that there is are quotes. -/
inductive QuotesOk (k : ConfigKey) (l : List (ConfigKey × Str)) : Prop where
  | unset (h : lastSet k l = none)
  | plain {v : Str} (h : lastSet k l = some v) (hquotes : ¬Quoted v)
  | long {v : Str} (h : lastSet k l = some v) (hv : v.take k.size = List.replicate k.size (ch '"')) (hlen : k.size < v.length)
  | empty (h : lastSet k l = some emptyQuotes)
      (hbefore : lastSet k (l.filter (·.2 ≠ emptyQuotes)) = some (emptyQuotes ++ emptyQuotes))

theorem QuotesOk.value {v : Str} (h : QuotesOk k l) (hlast : lastSet k l = some v) (hempty : v ≠ emptyQuotes) :
    ¬Quoted v ∨ v.take k.size = List.replicate k.size (ch '"') ∧ k.size < v.length := by
  cases h with
  | unset h => exact absurd (h.symm.trans hlast) (by simp)
  | plain h hquotes => exact .inl (Option.some.inj (h.symm.trans hlast) ▸ hquotes)
  | long h hv hlen =>
    obtain rfl := Option.some.inj (h.symm.trans hlast)
    exact .inr ⟨hv, hlen⟩
  | empty h _ => exact absurd (Option.some.inj (h.symm.trans hlast)).symm hempty

theorem QuotesOk.before (h : QuotesOk k l) (hlast : lastSet k l = some emptyQuotes) :
    lastSet k (l.filter (·.2 ≠ emptyQuotes)) = some (emptyQuotes ++ emptyQuotes) := by
  cases h with
  | unset h => exact absurd (h.symm.trans hlast) (by simp)
  | plain h hquotes => exact absurd (Option.some.inj (h.symm.trans hlast) ▸ by decide) hquotes
  | long h _ hlen =>
    obtain rfl := Option.some.inj (h.symm.trans hlast)
    exact absurd hlen (by cases k <;> decide)
  | empty _ hbefore => exact hbefore

theorem quotesOk_iff (hl : ∀ a ∈ l, a.2 ≠ []) (k : ConfigKey) :
    (lastSet k l).map k.cut = (lastSet k (unquoted l)).map k.cut ↔ QuotesOk k l := by
  rw [lastSet_unquoted hl]
  cases hlast : lastSet k l with
  | none => exact iff_of_true (by rw [lastSet_filter_none hlast]; rfl) (.unset hlast)
  | some v =>
    by_cases hempty : v = emptyQuotes
    · rw [hempty] at hlast ⊢
      rw [Option.map_some, (cut_eq_emptyQuotes_iff k).mpr rfl, eq_comm]
      simp only [Option.map_eq_some_iff, cut_eq_emptyQuotes_iff, unquoteValue_eq_emptyQuotes_iff, exists_eq_right]
      exact ⟨.empty hlast, fun h => h.before hlast⟩
    · have hkept : lastSet k (l.filter (·.2 ≠ emptyQuotes)) = some v :=
        lastSet_filter (p := (· ≠ emptyQuotes)) hlast (by simpa using hempty)
      rw [hkept, Option.map_some, Option.map_some, Option.map_some, Option.some.injEq, cut_unquoteValue_iff]
      constructor
      · rintro (hquotes | ⟨hv, hlen⟩)
        · exact .plain hlast hquotes
        · exact .long hlast hv hlen
      · exact fun h => h.value hlast hempty

/-- A file whose long lines do no harm is read as documented exactly when the quotes
around the last value for each key make no difference. -/
theorem properties_grammar_iff (h : ∀ line ∈ textLines content, SplitOk line) :
    MeetsGrammar content ↔ ∀ k, QuotesOk k (settings content) := by
  rw [meetsGrammar_iff h, documented_eq]
  exact forall_congr' (quotesOk_iff (settings_ne content))

/-- A comment, blanks, a carriage return, and quotes that a later line replaces. -/
def plainProperties : Str := str "# LOG_SERVER=none\n LOG_SERVER = logs.example\r\nBUILD_TYPE=\"dev\"\nBUILD_TYPE=prod"

theorem properties_grammar_plain : MeetsGrammar plainProperties := by
  have hshort : ∀ line ∈ textLines plainProperties, line.length < 1024 := by decide +kernel
  have hsettings : settings plainProperties =
      [(.logServer, str "logs.example"), (.buildType, str "\"dev\""), (.buildType, str "prod")] := by decide +kernel
  refine (properties_grammar_iff fun line hline => .short (hshort line hline)).mpr fun k => ?_
  rw [hsettings]
  cases k with
  | logServer => exact .plain rfl (by decide)
  | buildType => exact .plain rfl (by decide)
  | _ => exact .unset rfl

/-- The quotes of a value are kept, and the end of a long comment is taken for a line. -/
theorem properties_not_grammar : ¬MeetsGrammar (str "LOG_SERVER=\"logs.example\"\n") ∧
    ¬MeetsGrammar (List.replicate 1023 (ch '#') ++ str "LOG_SERVER=x\n") := by
  constructor
  · exact fun h => absurd (h.fields RrdConfig.initial .logServer) (by decide +kernel)
  · exact fun h => absurd (h.fields RrdConfig.initial .logServer) (by decide +kernel)

end RRD
