import RemoteDebugger.Impl.Dispatch
import RemoteDebugger.Proof.Sanity.Rewrite

/-!
# The command check

* `CommandPart.Gated`: none of the patterns in effect for the profile of a part
  is in its text;
* `CommandPart.Checked`: what a route ensures of a part;
* `CommandPart.Checked.gated_iff`: a checked part is gated exactly when it was
  checked against the patterns in effect (`Resolved`) and the rewriting makes
  none (`Unspliced`);
* `acceptedData_checked`, `appendCommands_checked`: a command that is accepted,
  and one made of two.
-/

namespace RRD

open Framework

/-! ## The patterns in effect -/

/-- `Sanity`, `Check`, `Commands` of a profile. -/
def ownCommands (profile : Option CJson) : Option CJson := checkCommands (sanityCheck profile)

/-- The list in effect for a profile: its own, or that of the static profile. -/
def commandsInEffect (files : Str → Option CJson) (profile : Option CJson) : Option CJson :=
  match ownCommands profile with
  | some commands => some commands
  | none => ownCommands (files rrdJsonFile)

/-- The device whose files do not change. -/
def Env.Stable (env : Env) (files : Str → Option CJson) : Prop := ∀ k path, env.readAndParseJSON k path = files path

theorem Env.ofFiles_stable (files : Str → Option CJson) : (Env.ofFiles files).Stable files := fun _ _ => rfl

namespace CommandPart

variable (cfg : Config) (files : Str → Option CJson) (append : Bool) (part : CommandPart)

def Gated : Prop := ∀ p ∈ patterns cfg (commandsInEffect files part.profile), Plain p → ¬ p <:+: part.text

/-- The list that the routes look up: in append mode that of the profile, else
that of the static profile where the profile has no `Check`. -/
def consulted (profile : Option CJson) : Option CJson :=
  if append then ownCommands profile else checkCommands ((sanityCheck profile).or (sanityCheck (files rrdJsonFile)))

structure Checked : Prop where
  text_eq : part.text = updateBackgroundCmd part.raw
  blocked : ∀ p ∈ patterns cfg (consulted files append part.profile), Plain p → ¬ p <:+: part.raw

/-- The profile has a list, or leaves it to the static profile in a way that the
route follows, or the text has none of the patterns of the static profile. -/
def Resolved : Prop :=
  (ownCommands part.profile).isSome ∨ append = false ∧ sanityCheck part.profile = none ∨
    ∀ p ∈ patterns cfg (ownCommands (files rrdJsonFile)), Plain p → ¬ p <:+: part.raw

/-- No pattern in effect is made of `&;`. -/
def Unspliced : Prop := ∀ p ∈ patterns cfg (commandsInEffect files part.profile), Plain p → ¬ Spliced p part.raw

variable {cfg files append part}

theorem commandsInEffect_of_isSome {profile : Option CJson} (h : (ownCommands profile).isSome) :
    commandsInEffect files profile = ownCommands profile := by
  obtain ⟨commands, hc⟩ := Option.isSome_iff_exists.mp h
  rw [commandsInEffect, hc]

theorem consulted_of_isSome {profile : Option CJson} (h : (ownCommands profile).isSome) :
    consulted files append profile = ownCommands profile := by
  rw [consulted]
  split
  · rfl
  · cases hs : sanityCheck profile with
    | none =>
      rw [ownCommands, hs] at h
      cases h
    | some check => rw [ownCommands, hs, Option.some_or]

theorem consulted_of_none {profile : Option CJson} (h : sanityCheck profile = none) :
    consulted files false profile = ownCommands (files rrdJsonFile) := by
  rw [consulted, h, Option.none_or, ownCommands]
  rfl

theorem commandsInEffect_of_none {profile : Option CJson} (h : ownCommands profile = none) :
    commandsInEffect files profile = ownCommands (files rrdJsonFile) := by
  rw [commandsInEffect, h]

/-- A checked part. -/
theorem Checked.gated_iff (h : part.Checked cfg files append) :
    part.Gated cfg files ↔ part.Resolved cfg files append ∧ part.Unspliced cfg files := by
  have hin : ∀ p, Plain p → (p <:+: part.text ↔ p <:+: part.raw ∨ Spliced p part.raw) := fun p hp => by
    rw [h.text_eq, infix_update_iff hp]
  constructor
  · intro hg
    refine ⟨?_, fun p hp hplain hs => hg p hp hplain ((hin p hplain).mpr (.inr hs))⟩
    cases hown : ownCommands part.profile with
    | some commands => exact .inl (by rw [hown]; rfl)
    | none =>
      rw [Gated, commandsInEffect_of_none hown] at hg
      exact .inr (.inr fun p hp hplain hraw => hg p hp hplain ((hin p hplain).mpr (.inl hraw)))
  · rintro ⟨hres, huns⟩ p hp hplain ht
    rcases (hin p hplain).mp ht with hraw | hs
    · by_cases hown : (ownCommands part.profile).isSome
      · rw [commandsInEffect_of_isSome hown] at hp
        exact h.blocked p (by rwa [consulted_of_isSome hown]) hplain hraw
      · rw [commandsInEffect_of_none (Option.not_isSome_iff_eq_none.mp hown)] at hp
        rcases hres with hsome | ⟨rfl, hnone⟩ | hfree
        · exact hown hsome
        · exact h.blocked p (by rwa [consulted_of_none hnone]) hplain hraw
        · exact hfree p hp hplain hraw
    · exact huns p hp hplain hs

end CommandPart

/-! ## Commands -/

section Command

variable {cfg : Config} {files : Str → Option CJson} {append : Bool}

theorem isCommandsValid_spec {command text : Str} {cmdlist : Option CJson}
    (h : isCommandsValid cfg command cmdlist = some text) :
    text = updateBackgroundCmd command ∧ ∀ p ∈ patterns cfg cmdlist, ¬ p <:+: command := by
  rw [isCommandsValid] at h
  split at h
  · cases h
  · rename_i hfree
    refine ⟨?_, fun p hp hin => hfree ⟨p, hp, hin⟩⟩
    split at h
    · exact (Option.some.inj h).symm
    · rename_i hamp
      rw [updateBackgroundCmd_of_notMem hamp]
      exact (Option.some.inj h).symm

/-- A command is the text of a string. -/
theorem readCommand_string {type : Option CJson} {command : Str} (h : (readCommand cfg type).1 = some command) :
    ∃ s, command = cfg.cJsonPrint (.string s) := by
  have hloop : ∀ (items : List (Option Str × CJson)) (read : Option Str × Int),
      (∀ c, read.1 = some c → ∃ s, c = cfg.cJsonPrint (.string s)) →
      ∀ c, (items.foldl (fun read elem => readElem cfg read elem.2) read).1 = some c →
        ∃ s, c = cfg.cJsonPrint (.string s) := by
    intro items
    induction items with
    | nil => exact fun read hread => hread
    | cons item items ih =>
      intro read hread
      refine ih _ fun c hc => ?_
      obtain ⟨name, item⟩ := item
      cases item with
      | string s => exact ⟨s, (Option.some.inj hc).symm⟩
      | _ => exact hread c hc
  refine hloop (cJsonItems type) (none, 0) (fun c hc => ?_) command h
  cases hc

/-- The data of a command of `profile`, checked against its own list. -/
inductive IssueData.OfProfile (cfg : Config) (d : IssueData) : Prop where
  | mk (profile : Option CJson) (s : Str)
      (hvalid : isCommandsValid cfg (cfg.cJsonPrint (.string s)) (ownCommands profile) = some d.command)
      (hparts : d.parts = [⟨profile, cfg.cJsonPrint (.string s), d.command⟩])

theorem getIssueCommandInfo_ofProfile {issue : IssueNodeData} {jsoncfg : Option CJson} {buf : Str} {d : IssueData}
    (h : getIssueCommandInfo cfg issue jsoncfg buf = some d) : d.OfProfile cfg := by
  rw [getIssueCommandInfo] at h
  split at h
  · cases h
  · rename_i raw timeout hread
    obtain ⟨command, hvalid, rfl⟩ := Option.map_eq_some_iff.mp h
    obtain ⟨s, rfl⟩ := readCommand_string (congrArg Prod.fst hread)
    exact ⟨jsoncfg, s, hvalid, rfl⟩

/-- What every route ensures of a command: its plain patterns are in its parts,
and its parts are checked. -/
structure IssueData.Checked (cfg : Config) (files : Str → Option CJson) (append : Bool) (d : IssueData) : Prop where
  infix_iff : ∀ p, Plain p → (p <:+: d.command ↔ ∃ part ∈ d.parts, p <:+: part.text)
  parts : ∀ part ∈ d.parts, part.Checked cfg files append

/-- A command that is one part. -/
theorem acceptedData_checked {jsoncfg : Option CJson} {buf raw command : Str} {timeout : Int}
    (h : isCommandsValid cfg raw (CommandPart.consulted files append jsoncfg) = some command) :
    (acceptedData jsoncfg buf raw command timeout).Checked cfg files append := by
  obtain ⟨htext, hfree⟩ := isCommandsValid_spec h
  constructor
  · exact fun p _ => by simp [acceptedData]
  · intro part hpart
    rw [List.mem_singleton.mp hpart]
    exact ⟨htext, fun p hp _ => hfree p hp⟩

/-- The text of a string, rewritten, without the quote at its end. -/
theorem edit_dropClosingQuote_checked {profile : Option CJson} {s text : Str}
    (h : isCommandsValid cfg (cfg.cJsonPrint (.string s)) (ownCommands profile) = some text) :
    (CommandPart.edit dropClosingQuote ⟨profile, cfg.cJsonPrint (.string s), text⟩).Checked cfg files true := by
  obtain ⟨rfl, hfree⟩ := isCommandsValid_spec h
  obtain ⟨t, ht⟩ := cfg.print_string s
  rw [ht] at hfree ⊢
  have hdrop : ∀ c : Str, dropClosingQuote (c ++ [ch '"']) = c := fun c => by simp [dropClosingQuote]
  have hraw : dropClosingQuote (ch '"' :: t ++ [ch '"']) = ch '"' :: t := hdrop _
  constructor
  · show dropClosingQuote (updateBackgroundCmd (ch '"' :: t ++ [ch '"'])) = updateBackgroundCmd (dropClosingQuote _)
    rw [updateBackgroundCmd_concat (by decide), hdrop, hraw]
  · intro p hp _ hin
    refine hfree p hp ?_
    rw [CommandPart.edit, hraw] at hin
    exact hin.trans (List.prefix_append ..).isInfix

/-- The text of a string, rewritten, with the delimiter for the quote at its start. -/
theorem edit_delimOpeningQuote_checked {profile : Option CJson} {s text : Str}
    (h : isCommandsValid cfg (cfg.cJsonPrint (.string s)) (ownCommands profile) = some text) :
    (CommandPart.edit delimOpeningQuote ⟨profile, cfg.cJsonPrint (.string s), text⟩).Checked cfg files true := by
  obtain ⟨rfl, hfree⟩ := isCommandsValid_spec h
  obtain ⟨t, ht⟩ := cfg.print_string s
  rw [ht, List.cons_append] at hfree ⊢
  have hdelim : ∀ c : Str, delimOpeningQuote (ch '"' :: c) = ch ';' :: c := fun c => by simp [delimOpeningQuote]
  constructor
  · show delimOpeningQuote (updateBackgroundCmd (ch '"' :: (t ++ [ch '"']))) =
      updateBackgroundCmd (delimOpeningQuote (ch '"' :: (t ++ [ch '"'])))
    rw [updateBackgroundCmd_cons (by decide), hdelim, hdelim, updateBackgroundCmd_cons (by decide)]
  · intro p hp hplain hin
    refine hfree p hp ?_
    rw [CommandPart.edit, hdelim, infix_cons_of_notMem hplain.notMem_semicolon] at hin
    exact hin.trans (List.suffix_cons _ _).isInfix

/-- The text of the dynamic profile starts with the delimiter. -/
theorem delimOpeningQuote_head {profile : Option CJson} {s text : Str}
    (h : isCommandsValid cfg (cfg.cJsonPrint (.string s)) (ownCommands profile) = some text) :
    ∃ t, delimOpeningQuote text = ch ';' :: t := by
  obtain ⟨rfl, -⟩ := isCommandsValid_spec h
  obtain ⟨t, ht⟩ := cfg.print_string s
  rw [ht, List.cons_append, updateBackgroundCmd_cons (by decide)]
  exact ⟨_, by simp [delimOpeningQuote]; rfl⟩

theorem appendCommands_checked {static dynamic : IssueData} (hs : static.OfProfile cfg) (hd : dynamic.OfProfile cfg) :
    (appendCommands static dynamic).Checked cfg files true := by
  obtain ⟨P, s, hvs, hps⟩ := hs
  obtain ⟨Q, t, hvd, hpd⟩ := hd
  have hparts : (appendCommands static dynamic).parts =
      [CommandPart.edit dropClosingQuote ⟨P, cfg.cJsonPrint (.string s), static.command⟩,
        CommandPart.edit delimOpeningQuote ⟨Q, cfg.cJsonPrint (.string t), dynamic.command⟩] := by
    simp [appendCommands, hps, hpd]
  constructor
  · intro p hp
    obtain ⟨u, hu⟩ := delimOpeningQuote_head hvd
    have hcommand : (appendCommands static dynamic).command = dropClosingQuote static.command ++ ch ';' :: u := by
      rw [appendCommands, hu]
    rw [hcommand, infix_append_cons_iff hp.notMem_semicolon, hparts]
    simp [CommandPart.edit, hu]
  · rw [hparts]
    exact List.forall_mem_cons.mpr ⟨edit_dropClosingQuote_checked hvs,
      List.forall_mem_cons.mpr ⟨edit_delimOpeningQuote_checked hvd, nofun⟩⟩

end Command

end RRD
