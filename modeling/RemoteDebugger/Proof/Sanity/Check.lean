import RemoteDebugger.Proof.Execute.Background
import RemoteDebugger.Proof.Execute.Quotes

/-!
# The command check

`isCommandsValid` trims each printed pattern and rewrites the command in place.

* `cstr_checkcmdMem`, `cstr_updateBackgroundCmdMem`: the loops give `trimPattern` and `updateBackgroundCmd`;
* `isCommandsValidRun_eq`: the run gives `isCommandsValid`;
* `updateBackgroundCmd_getElem`: the rewriting, byte by byte;
* `trimPattern_printString`: the trimmed pattern of a string;
* `isCommandsValidRun_spec`: what is returned, and what is left of the command.
-/

namespace RRD

open Framework

variable {a b : Byte} {s t c : Str}

/-! ## Trimming in place -/

theorem getD_append_cons (s : Str) (b : Byte) (t : Str) : (s ++ b :: t).getD s.length 0 = b := by simp

theorem set_append_cons (s : Str) (b : Byte) (t : Str) (x : Byte) : (s ++ b :: t).set s.length x = s ++ x :: t := by simp

theorem cstr_trimSpaces (hs : 0 ∉ s) (t : Str) : cstr (trimSpaces (s ++ 0 :: t) s.length) = s.rdropWhile isspace := by
  induction s using List.reverseRecOn generalizing t with
  | nil => rfl
  | append_singleton s b ih =>
    have hs' : 0 ∉ s := fun h0 => hs (List.mem_append_left _ h0)
    rw [List.length_append, List.length_singleton, List.append_assoc, List.singleton_append, trimSpaces,
      getD_append_cons, set_append_cons]
    by_cases hb : isspace b = true
    · rw [if_pos hb, ih hs', List.rdropWhile_concat_pos _ _ _ hb]
    · have hkeep : cstr (s ++ b :: 0 :: t) = s ++ [b] := by
        rw [← List.singleton_append, ← List.append_assoc]
        exact cstr_append_zero hs
      rw [if_neg hb, hkeep, List.rdropWhile_concat_neg _ _ _ hb]

theorem exists_ends (h : 2 ≤ s.length) : ∃ x t y, s = x :: (t ++ [y]) := by
  cases s with
  | nil => cases h
  | cons x s =>
    have hne : s ≠ [] := fun e => by simp [e] at h
    exact ⟨x, s.dropLast, s.getLast hne, by rw [List.dropLast_append_getLast]⟩

theorem cstr_checkcmdMem (h : 0 ∉ s) : cstr (checkcmdMem s) = trimPattern s := by
  have hwhole : cstr (trimSpaces (s ++ [0]) s.length) = s.rdropWhile isspace := cstr_trimSpaces h []
  rw [checkcmdMem, trimPattern]
  by_cases hlen : 2 ≤ s.length
  · obtain ⟨x, t, y, rfl⟩ := exists_ends hlen
    have hends : (2 ≤ (x :: (t ++ [y])).length ∧ (x :: (t ++ [y]) ++ [0]).getD 0 0 = ch '"' ∧
        (x :: (t ++ [y]) ++ [0]).getD ((x :: (t ++ [y])).length - 1) 0 = ch '"') ↔
        2 ≤ (x :: (t ++ [y])).length ∧ (x :: (t ++ [y])).head? = some (ch '"') ∧
          (x :: (t ++ [y])).getLast? = some (ch '"') := by
      have hlast : (x :: (t ++ [y])).getLast? = some y := by rw [← List.cons_append, List.getLast?_concat]
      rw [hlast]
      simp
    simp only [hends]
    split
    · have ht : 0 ∉ t := fun h0 => h (List.mem_cons_of_mem _ (List.mem_append_left _ h0))
      have hmem : ((x :: (t ++ [y]) ++ [0]).set ((x :: (t ++ [y])).length - 1) 0).drop 1 = t ++ 0 :: [0] := by simp
      have hcount : (x :: (t ++ [y])).length - 2 = t.length := by simp
      have hinner : (x :: (t ++ [y])).tail.dropLast = t := by simp
      rw [hmem, hcount, hinner, cstr_trimSpaces ht]
    · exact hwhole
  · have hshort {p q : Prop} : ¬ (2 ≤ s.length ∧ p ∧ q) := fun hand => hlen hand.1
    simp only [hshort, if_false]
    exact hwhole

/-! ## Rewriting in place -/

theorem updateBackgroundCmdMem_end (s t : Str) : updateBackgroundCmdMem (s ++ 0 :: t) s.length = s ++ 0 :: t := by
  rw [updateBackgroundCmdMem, getD_append_cons, if_pos rfl]

/-- One step of the loop, at a byte with another behind it. -/
theorem updateBackgroundCmdMem_step (ha : a ≠ 0) (s : Str) (b : Byte) (t : Str) :
    updateBackgroundCmdMem (s ++ a :: b :: t) s.length =
      updateBackgroundCmdMem (s ++ [a] ++ (if a = ch '&' ∧ b = ch ';' then ch ' ' else b) :: t) (s ++ [a]).length := by
  have hsplit : s ++ a :: b :: t = s ++ [a] ++ b :: t := by simp
  have hlen : s.length + 1 = (s ++ [a]).length := by simp
  conv_lhs => rw [updateBackgroundCmdMem, getD_append_cons, if_neg ha, hsplit, hlen, getD_append_cons, set_append_cons]
  split <;> rfl

theorem updateBackgroundCmdMem_append (hc : 0 ∉ c) (s t : Str) :
    updateBackgroundCmdMem (s ++ (c ++ 0 :: t)) s.length = s ++ (updateBackgroundCmd c ++ 0 :: t) := by
  induction c using updateBackgroundCmd.induct generalizing s with
  | case1 a b c hab ih =>
    obtain ⟨rfl, rfl⟩ := hab
    have hc' : 0 ∉ c := fun h0 => hc (List.mem_cons_of_mem _ (List.mem_cons_of_mem _ h0))
    -- the semicolon becomes a space, which the loop steps over
    obtain ⟨d, u, hrest⟩ : ∃ d u, c ++ 0 :: t = d :: u := by cases c <;> exact ⟨_, _, rfl⟩
    have hfirst := updateBackgroundCmdMem_step (a := ch '&') (by decide) s (ch ';') (c ++ 0 :: t)
    have hsecond := updateBackgroundCmdMem_step (a := ch ' ') (by decide) (s ++ [ch '&']) d u
    rw [if_pos ⟨rfl, rfl⟩, hrest] at hfirst
    rw [if_neg fun hand => absurd hand.1 (by decide), ← hrest, ih hc'] at hsecond
    rw [updateBackgroundCmd_splice, List.cons_append, List.cons_append, hrest, hfirst, ← hrest, hsecond]
    simp
  | case2 a b c hab ih =>
    have ha : a ≠ 0 := fun e => hc (e ▸ List.mem_cons_self)
    have hc' : 0 ∉ b :: c := fun h0 => hc (List.mem_cons_of_mem _ h0)
    have hstep := updateBackgroundCmdMem_step ha s b (c ++ 0 :: t)
    rw [if_neg hab, ← List.cons_append, ih hc'] at hstep
    rw [updateBackgroundCmd_skip hab]
    exact hstep.trans (by simp)
  | case3 c hshort =>
    rw [updateBackgroundCmd_short hshort]
    rcases c with _ | ⟨a, _ | ⟨b, c⟩⟩
    · exact updateBackgroundCmdMem_end s t
    · have ha : a ≠ 0 := fun e => hc (e ▸ List.mem_cons_self)
      have hnul : ¬ (a = ch '&' ∧ (0 : Byte) = ch ';') := fun hand => absurd hand.2 (by decide)
      have hstep := updateBackgroundCmdMem_step ha s 0 t
      rw [if_neg hnul, updateBackgroundCmdMem_end] at hstep
      exact hstep.trans (by simp)
    · exact absurd rfl (hshort a b c)

theorem notMem_updateBackgroundCmd (hc : 0 ∉ c) : 0 ∉ updateBackgroundCmd c := by
  induction c using updateBackgroundCmd.induct with
  | case1 a b c hab ih =>
    obtain ⟨rfl, rfl⟩ := hab
    have hc' : 0 ∉ c := fun h0 => hc (List.mem_cons_of_mem _ (List.mem_cons_of_mem _ h0))
    rw [updateBackgroundCmd_splice, List.mem_cons, List.mem_cons, not_or, not_or]
    exact ⟨by decide, by decide, ih hc'⟩
  | case2 a b c hab ih =>
    obtain ⟨ha, hc'⟩ := not_or.mp (mt List.mem_cons.mpr hc)
    rw [updateBackgroundCmd_skip hab, List.mem_cons, not_or]
    exact ⟨ha, ih hc'⟩
  | case3 c hshort => rwa [updateBackgroundCmd_short hshort]

theorem cstr_updateBackgroundCmdMem (hc : 0 ∉ c) :
    cstr (updateBackgroundCmdMem (c ++ [0]) 0) = updateBackgroundCmd c := by
  have hloop := updateBackgroundCmdMem_append hc [] []
  rw [List.nil_append, List.length_nil, List.nil_append] at hloop
  rw [hloop]
  exact cstr_append_zero (notMem_updateBackgroundCmd hc)

/-! ## The run -/

theorem isSome_strstr : (strstr s c).isSome = true ↔ s <:+: c := by
  rw [← not_iff_not, Bool.not_eq_true, Option.isSome_eq_false_iff, Option.isNone_iff_eq_none, strstr_eq_none_iff]

/-- The run returns non-zero for a command that has a trimmed pattern, and leaves
it as it was; and it rewrites any other. -/
theorem isCommandsValidRun_eq (hc : 0 ∉ c) {items : List Str} (hitems : ∀ printed ∈ items, 0 ∉ printed) :
    isCommandsValidRun c items =
      if ∃ printed ∈ items, trimPattern printed <:+: c then (1, c) else (0, updateBackgroundCmd c) := by
  induction items with
  | nil =>
    have hamp : str "&" <:+: c ↔ ch '&' ∈ c := List.singleton_infix_iff ..
    have hnone : ¬ ∃ printed ∈ ([] : List Str), trimPattern printed <:+: c := fun ⟨_, hmem, _⟩ => List.not_mem_nil hmem
    rw [isCommandsValidRun, if_neg hnone]
    by_cases hmem : ch '&' ∈ c
    · rw [if_pos (isSome_strstr.mpr (hamp.mpr hmem)), cstr_updateBackgroundCmdMem hc]
    · rw [if_neg (mt isSome_strstr.mp (mt hamp.mp hmem)), updateBackgroundCmd_of_notMem hmem]
  | cons printed items ih =>
    obtain ⟨hprinted, hitems⟩ := List.forall_mem_cons.mp hitems
    rw [isCommandsValidRun, cstr_checkcmdMem hprinted, ih hitems]
    by_cases hfound : trimPattern printed <:+: c
    · rw [if_pos (isSome_strstr.mpr hfound), if_pos ⟨printed, List.mem_cons_self, hfound⟩]
    · have hiff : (∃ q ∈ printed :: items, trimPattern q <:+: c) ↔ ∃ q ∈ items, trimPattern q <:+: c := by
        simp [hfound]
      rw [if_neg (mt isSome_strstr.mp hfound)]
      simp only [hiff]

variable {cfg : Config} {sanitylist : Option CJson}

theorem exists_printedItems : (∃ printed ∈ printedItems cfg sanitylist, trimPattern printed <:+: c) ↔
    ∃ subcmd ∈ cJsonItems sanitylist, trimPattern (cfg.cJsonPrint subcmd.2) <:+: c := by
  simp [printedItems]

/-- The run is what `isCommandsValid` says of the command. -/
theorem isCommandsValid_run (hc : 0 ∉ c) (hitems : ∀ printed ∈ printedItems cfg sanitylist, 0 ∉ printed) :
    isCommandsValidRun c (printedItems cfg sanitylist) =
      (isCommandsValid cfg c sanitylist).elim (1, c) fun command => (0, command) := by
  have hpatterns : (∃ q ∈ patterns cfg sanitylist, q <:+: c) ↔
      ∃ subcmd ∈ cJsonItems sanitylist, trimPattern (cfg.cJsonPrint subcmd.2) <:+: c := by
    simp [patterns]
  rw [isCommandsValidRun_eq hc hitems, isCommandsValid]
  simp only [exists_printedItems, hpatterns]
  by_cases hfound : ∃ subcmd ∈ cJsonItems sanitylist, trimPattern (cfg.cJsonPrint subcmd.2) <:+: c
  · rw [if_pos hfound, if_pos hfound]
    rfl
  · rw [if_neg hfound, if_neg hfound]
    by_cases hamp : ch '&' ∈ c
    · rw [if_pos hamp]
      rfl
    · rw [if_neg hamp, updateBackgroundCmd_of_notMem hamp]
      rfl

/-! ## The rewriting, byte by byte -/

/-- The byte at `i` is the `;` of a `&;`. -/
def Spoils (cmd : Str) (i : Nat) : Prop := cmd[i]? = some (ch ';') ∧ 0 < i ∧ cmd[i - 1]? = some (ch '&')

instance (c : Str) (i : Nat) : Decidable (Spoils c i) := inferInstanceAs (Decidable (_ ∧ _ ∧ _))

theorem not_spoils_zero : ¬ Spoils c 0 := fun h => absurd h.2.1 (Nat.lt_irrefl 0)

theorem spoils_one : Spoils (a :: b :: c) 1 ↔ a = ch '&' ∧ b = ch ';' := by
  simp [Spoils, and_comm]

theorem spoils_cons (a : Byte) (c : Str) (i : Nat) : Spoils (a :: c) (i + 2) ↔ Spoils c (i + 1) := by
  simp [Spoils]

theorem length_updateBackgroundCmd (c : Str) : (updateBackgroundCmd c).length = c.length := by
  induction c using updateBackgroundCmd.induct with
  | case1 a b c hab ih =>
    obtain ⟨rfl, rfl⟩ := hab
    rw [updateBackgroundCmd_splice]
    simp [ih]
  | case2 a b c hab ih =>
    rw [updateBackgroundCmd_skip hab]
    simp [ih]
  | case3 c hshort => rw [updateBackgroundCmd_short hshort]

theorem updateBackgroundCmd_getElem (cmd : Str) (i : Nat) :
    (updateBackgroundCmd cmd)[i]? = if Spoils cmd i then some (ch ' ') else cmd[i]? := by
  induction cmd using updateBackgroundCmd.induct generalizing i with
  | case1 a b c hab ih =>
    obtain ⟨rfl, rfl⟩ := hab
    rw [updateBackgroundCmd_splice]
    rcases i with _ | _ | i
    · rw [if_neg not_spoils_zero]
      rfl
    · rw [if_pos (spoils_one.mpr ⟨rfl, rfl⟩)]
      rfl
    · -- the `;` behind which the rest starts is no `&`
      have hrest : Spoils (ch '&' :: ch ';' :: c) (i + 2) ↔ Spoils c i := by
        rw [spoils_cons]
        cases i with
        | zero =>
          have hsemi : ch ';' ≠ ch '&' := by decide
          have hne : ¬ Spoils (ch ';' :: c) 1 := fun h => hsemi (Option.some.inj h.2.2)
          exact iff_of_false hne not_spoils_zero
        | succ i => exact spoils_cons ..
      simp only [hrest]
      exact ih i
  | case2 a b c hab ih =>
    rw [updateBackgroundCmd_skip hab]
    rcases i with _ | _ | i
    · rw [if_neg not_spoils_zero]
      rfl
    · rw [if_neg (mt spoils_one.mp hab)]
      have hhead := ih 0
      rw [if_neg not_spoils_zero] at hhead
      exact hhead
    · simp only [spoils_cons]
      exact ih (i + 1)
  | case3 c hshort =>
    rw [updateBackgroundCmd_short hshort, if_neg]
    rcases c with _ | ⟨a, _ | ⟨b, c⟩⟩
    · simp [Spoils]
    · cases i <;> simp [Spoils]
    · exact absurd rfl (hshort a b c)

theorem updateBackgroundCmd_of_not_broken (h : ¬ Broken c) : updateBackgroundCmd c = c := by
  induction c using updateBackgroundCmd.induct with
  | case1 a b c hab ih =>
    obtain ⟨rfl, rfl⟩ := hab
    exact absurd ⟨[], c, rfl⟩ h
  | case2 a b c hab ih =>
    rw [broken_cons, not_or] at h
    rw [updateBackgroundCmd_skip hab, ih h.2]
  | case3 c hshort => exact updateBackgroundCmd_short hshort

/-! ## Printed patterns -/

theorem escapeByte_space : escapeByte (ch ' ') = [ch ' '] := by decide

/-- The escape of another byte does not end in a space. -/
theorem escapeByte_concat (hb : b ≠ ch ' ') : ∃ u x, escapeByte b = u ++ [x] ∧ isspace x = false := by
  have hlast : ((escapeByte b).getLast?.any fun x => !isspace x) = true :=
    forall_byte (p := fun b => b ≠ ch ' ' → ((escapeByte b).getLast?.any fun x => !isspace x) = true)
      (by decide +kernel) b hb
  cases hx : (escapeByte b).getLast? with
  | none =>
    rw [hx] at hlast
    cases hlast
  | some x =>
    rw [hx] at hlast
    obtain ⟨u, hu⟩ := List.getLast?_eq_some_iff.mp hx
    exact ⟨u, x, hu, by simpa using hlast⟩

theorem rdropWhile_flatMap_escapeByte (p : Str) :
    (p.flatMap escapeByte).rdropWhile isspace = (p.rdropWhile (· = ch ' ')).flatMap escapeByte := by
  induction p using List.reverseRecOn with
  | nil => rfl
  | append_singleton p b ih =>
    rw [List.flatMap_append, List.flatMap_singleton]
    by_cases hb : b = ch ' '
    · subst hb
      rw [escapeByte_space, List.rdropWhile_concat_pos _ _ _ (by decide), ih, List.rdropWhile_concat_pos _ _ _ (by decide)]
    · obtain ⟨u, x, hescape, hx⟩ := escapeByte_concat hb
      have hkeep : (p ++ [b]).rdropWhile (· = ch ' ') = p ++ [b] := List.rdropWhile_concat_neg _ _ _ (by simpa using hb)
      rw [hkeep, List.flatMap_append, List.flatMap_singleton, hescape, ← List.append_assoc,
        List.rdropWhile_concat_neg _ _ _ (by rw [hx]; decide)]

/-- The trimmed pattern of a string is the escaped text, without the spaces at its end. -/
theorem trimPattern_printString (p : Str) : trimPattern (printString p) = (p.rdropWhile (· = ch ' ')).flatMap escapeByte := by
  have hquoted : 2 ≤ (printString p).length ∧ (printString p).head? = some (ch '"') ∧
      (printString p).getLast? = some (ch '"') := by
    refine ⟨by simp [printString], rfl, ?_⟩
    rw [printString, List.getLast?_concat]
    rfl
  have hinner : (printString p).tail.dropLast = p.flatMap escapeByte := by simp [printString]
  rw [trimPattern, if_pos hquoted, hinner]
  exact rdropWhile_flatMap_escapeByte p

theorem infix_flatMap {p raw : Str} (h : p <:+: raw) (f : Byte → Str) : p.flatMap f <:+: raw.flatMap f := by
  obtain ⟨s, t, rfl⟩ := h
  exact ⟨s.flatMap f, t.flatMap f, by simp⟩

/-! ## The check -/

/-- `cmd'` is `cmd` with each `&;` turned into `&` and a space. -/
structure Rewritten (cmd cmd' : Str) : Prop where
  length_eq : cmd'.length = cmd.length
  getElem : ∀ i, cmd'[i]? = if Spoils cmd i then some (ch ' ') else cmd[i]?
  not_broken : ¬ Broken cmd'

theorem rewritten_updateBackgroundCmd (c : Str) : Rewritten c (updateBackgroundCmd c) :=
  ⟨length_updateBackgroundCmd c, updateBackgroundCmd_getElem c, not_broken_updateBackgroundCmd c⟩

/-- A second run leaves the command that a run leaves. -/
theorem isCommandsValidRun_again (hc : 0 ∉ c) {items : List Str} (hitems : ∀ printed ∈ items, 0 ∉ printed) :
    (isCommandsValidRun (updateBackgroundCmd c) items).2 = updateBackgroundCmd c := by
  rw [isCommandsValidRun_eq (notMem_updateBackgroundCmd hc) hitems]
  split
  · rfl
  · exact updateBackgroundCmd_of_not_broken (not_broken_updateBackgroundCmd c)

/-- The check returns non-zero exactly for a command that has the trimmed text of
an item, which it leaves as it is; any other it rewrites, once and for all. And
it rejects the printed form of a command whose text has that of a string. -/
theorem isCommandsValidRun_spec (hc : 0 ∉ c) (hitems : ∀ printed ∈ printedItems cfg sanitylist, 0 ∉ printed)
    (hstring : ∀ s, cfg.cJsonPrint (.string s) = printString s) :
    ((isCommandsValidRun c (printedItems cfg sanitylist)).1 ≠ 0 ↔
      ∃ subcmd ∈ cJsonItems sanitylist, trimPattern (cfg.cJsonPrint subcmd.2) <:+: c) ∧
    ((isCommandsValidRun c (printedItems cfg sanitylist)).1 ≠ 0 →
      (isCommandsValidRun c (printedItems cfg sanitylist)).2 = c) ∧
    ((isCommandsValidRun c (printedItems cfg sanitylist)).1 = 0 →
      ∃ c', (isCommandsValidRun c (printedItems cfg sanitylist)).2 = c' ∧ Rewritten c c' ∧
        (isCommandsValidRun c' (printedItems cfg sanitylist)).2 = c') ∧
    ∀ raw pattern name, c = printString raw → (name, .string pattern) ∈ cJsonItems sanitylist →
      pattern.rdropWhile (· = ch ' ') <:+: raw → (isCommandsValidRun c (printedItems cfg sanitylist)).1 ≠ 0 := by
  have hreject : (isCommandsValidRun c (printedItems cfg sanitylist)).1 ≠ 0 ↔
      ∃ subcmd ∈ cJsonItems sanitylist, trimPattern (cfg.cJsonPrint subcmd.2) <:+: c := by
    rw [isCommandsValidRun_eq hc hitems, ← exists_printedItems]
    split <;> simp [*]
  refine ⟨hreject, fun hne => ?_, fun heq => ?_, fun raw pattern name hraw hmem hinfix => ?_⟩
  · rw [isCommandsValidRun_eq hc hitems, if_pos (exists_printedItems.mpr (hreject.mp hne))]
  · have hnone : ¬ ∃ printed ∈ printedItems cfg sanitylist, trimPattern printed <:+: c := fun hfound =>
      hreject.mpr (exists_printedItems.mp hfound) heq
    refine ⟨updateBackgroundCmd c, ?_, rewritten_updateBackgroundCmd c, isCommandsValidRun_again hc hitems⟩
    rw [isCommandsValidRun_eq hc hitems, if_neg hnone]
  · refine hreject.mpr ⟨_, hmem, ?_⟩
    rw [hstring, trimPattern_printString, hraw]
    exact (infix_flatMap hinfix escapeByte).trans ⟨[quote], [quote], rfl⟩

/-- A device whose library escapes the strings that it prints. -/
def escapingConfig : Config where
  iarm := true
  profileName := []
  cJsonPrint
    | .string s => printString s
    | item => printItem 0 item
  cJsonParse := fun _ => none
  print_string := fun s => ⟨s.flatMap escapeByte, rfl⟩

/-- A pattern with a quote in it and a space at its end. -/
def quotedPattern : CJson := .array [.string (str "rm \"/\" ")]

theorem quoted_pattern_rejected :
    (isCommandsValidRun (printString (str "ls; rm \"/\"*")) (printedItems escapingConfig (some quotedPattern))).1 ≠ 0 ∧
    (isCommandsValidRun (printString (str "ls; rm \"/\"*")) (printedItems escapingConfig (some quotedPattern))).2 =
      printString (str "ls; rm \"/\"*") := by
  have hitems : ∀ printed ∈ printedItems escapingConfig (some quotedPattern), 0 ∉ printed := by decide +kernel
  have hspec := isCommandsValidRun_spec (c := printString (str "ls; rm \"/\"*")) (by decide +kernel) hitems fun _ => rfl
  have hreject := hspec.2.2.2 (str "ls; rm \"/\"*") (str "rm \"/\" ") none rfl (List.mem_singleton.mpr rfl)
    (by decide +kernel)
  exact ⟨hreject, hspec.2.1 hreject⟩

end RRD
