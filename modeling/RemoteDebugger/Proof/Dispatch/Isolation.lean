import Mathlib.Data.List.Nodup
import RemoteDebugger.Proof.Dispatch.Suffix
import RemoteDebugger.Proof.Dispatch.Turn

/-!
# The tokens of an event are isolated

* `Event.Runs.turn_eq`: a turn executes what its token resolves to, at its site;
* `Event.Runs.progress`: the directories at a turn that the thread comes to;
* `Event.Runs.reached_iff`: which turns it comes to;
* `Event.insideCommands_eq`, `Event.aloneCommands_eq`: the commands of a token inside
  the list and alone.
-/

namespace RRD

open Framework Framework.Prog

variable {ev : Event} {env : Env} {sites : Nat → Site} {n : Nat} {token : TokenAt} {node node' : Str} {s s' : Nat}

/-! ## Directories -/

theorem Event.dir_inj (h : ∀ b ∈ node, isalnum b) (h' : ∀ b ∈ node', isalnum b) :
    ev.dir node s = ev.dir node' s' ↔ node = node' ∧ s = s' := by
  refine ⟨fun heq => ?_, fun ⟨hnode, hs⟩ => hnode ▸ hs ▸ rfl⟩
  simp only [Event.dir, List.append_assoc, List.append_cancel_left_eq] at heq
  have hcut (node : Str) (hnode : ∀ b ∈ node, isalnum b) (stamp : Str) :
      (node ++ (str "-DebugReport-" ++ stamp)).takeWhile isalnum = node := by
    have hnone : (str "-DebugReport-" ++ stamp).takeWhile isalnum = [] := rfl
    rw [List.takeWhile_append_of_pos hnode, hnone, List.append_nil]
  have hnode : node = node' := by
    have := congrArg (List.takeWhile isalnum) heq
    rwa [hcut node h, hcut node' h'] at this
  subst hnode
  rw [List.append_cancel_left_eq, List.append_cancel_left_eq] at heq
  exact ⟨rfl, ev.strftime_injective heq⟩

/-- A report is on the node of its token. -/
theorem resolve_report {cfg : Config} {files : Str → Option CJson} {rbuf : DataBuf} {p : Plan IssueData}
    (h : resolve cfg files rbuf = .report node p) : ∃ issue, getIssueInfo rbuf.mdata = some issue ∧ issue.node = some node := by
  rw [resolve] at h
  cases hissue : getIssueInfo rbuf.mdata with
  | none => simp only [hissue, reduceCtorEq] at h
  | some issue =>
    refine ⟨issue, rfl, ?_⟩
    have hreport {jsoncfg : Option CJson} {data : Option IssueData}
        (h : resolveReport cfg files issue jsoncfg rbuf data = .report node p) : issue.node = some node := by
      rw [resolveReport] at h
      cases hnode : issue.node with
      | none => simp only [hnode, reduceCtorEq] at h
      | some node' =>
        simp only [hnode, Resolved.report.injEq] at h
        rw [h.1]
    simp only [hissue] at h
    split at h
    · split at h
      · cases h
      · rename_i dynamic hdynamic
        rw [resolveAppend] at h
        cases hd : appendedData cfg rbuf issue dynamic with
        | none => simp only [hd, Option.elim_none, reduceCtorEq] at h
        | some d =>
          rw [hd, Option.elim_some] at h
          cases d with
          | none => cases h
          | some d =>
            dsimp only at h
            split at h
            · cases h
            · rename_i static hstatic
              cases hs : appendedData cfg rbuf issue static with
              | none => simp only [hs, Option.elim_none, reduceCtorEq] at h
              | some s =>
                rw [hs, Option.elim_some] at h
                cases s with
                | none => cases h
                | some s => exact hreport h
    · cases hprofile : resolveProfile cfg files rbuf issue with
      | none => simp only [hprofile, Option.elim_none, reduceCtorEq] at h
      | some json =>
        rw [hprofile] at h
        exact hreport h

namespace Event

theorem getElem?_tokens (h : ev.tokens[n]? = some token) : token.2 = n ∧ token.1 ∈ acceptedTokens ev.rbuf.mdata := by
  rw [tokens, List.getElem?_zipIdx] at h
  obtain ⟨t, ht, rfl⟩ := Option.map_eq_some_iff.mp h
  exact ⟨Nat.zero_add n, List.mem_of_getElem? ht⟩

theorem resolved_of_token (h : ev.tokens[n]? = some token) :
    ev.resolved n = resolve ev.cfg ev.files (cmdBuff ev.rbuf token.1) := by
  simp only [resolved, h]

/-- Only a token is reported on, and its node is letters and digits. -/
theorem resolved_report {p : Plan IssueData} (h : ev.resolved n = .report node p) :
    (∃ token, ev.tokens[n]? = some token) ∧ ∀ b ∈ node, isalnum b := by
  cases htoken : ev.tokens[n]? with
  | none => simp only [resolved, htoken, reduceCtorEq] at h
  | some token =>
    rw [resolved_of_token htoken] at h
    obtain ⟨issue, hissue, hnode⟩ := resolve_report h
    obtain ⟨node', hnode', -, halnum, -⟩ := (acceptedTokens_clean (getElem?_tokens htoken).2).node hissue
    obtain rfl : node' = node := Option.some.inj (hnode'.symm.trans hnode)
    exact ⟨⟨token, rfl⟩, halnum⟩

theorem asked_eq_iff (h : ∀ b ∈ node, isalnum b) : ev.asked sites n = some (ev.dir node s) ↔
    (∃ p, ev.resolved n = .report node p) ∧ (sites n).now = s := by
  rw [asked]
  cases hr : ev.resolved n with
  | report node' p =>
    rw [Option.some.injEq, dir_inj (resolved_report hr).2 h]
    simp only [Resolved.report.injEq]
    exact and_congr_left fun _ => ⟨fun h => ⟨p, h, rfl⟩, fun ⟨_, h, _⟩ => h⟩
  | _ => simp

/-! ## Turns -/

theorem before_succ (h : ev.tokens[n]? = some token) :
    loop (fun _ token => tag (token, ·) (processIssueType ev.cfg env (cmdBuff ev.rbuf token.1))) () (ev.tokens.take (n + 1)) =
      loop (fun _ token => tag (token, ·) (processIssueType ev.cfg env (cmdBuff ev.rbuf token.1))) () (ev.tokens.take n) >>=
        fun _ => tag (token, ·) (processIssueType ev.cfg env (cmdBuff ev.rbuf token.1)) := by
  rw [List.take_add_one, h, Option.toList_some, loop_append]
  exact congrArg _ (funext fun _ => loop_singleton _ _ _)

/-- The thread comes to the next turn if it does not stop in this one. -/
theorem reached_succ (h : ev.tokens[n]? = some token) :
    ev.Reached env (n + 1) ↔ ev.Reached env n ∧ (ev.turn env n token).result = some () := by
  rw [Reached, Reached, turn, before, before_succ h]
  rcases hrun : (ev.before env n) with ⟨_ | a, es, k⟩
  · rw [bind_run_of_none hrun]
    simp
  · rw [bind_run_of_some hrun]
    simp [tag_run]

namespace Runs

variable (h : ev.Runs env sites)

include h

/-- A turn executes what its token resolves to at its site, and stops where that does. -/
theorem turn_eq (htoken : ev.tokens[n]? = some token) (hreached : ev.Reached env n) :
    (ev.turn env n token).events.filterMap Effect.command? = ((sites n).plan ev (ev.resolved n)).emitted ∧
      (ev.turn env n token).result.isNone = ((sites n).plan ev (ev.resolved n)).stops := by
  have hrun : (processIssueType ev.cfg ((sites n).device ev env) (cmdBuff ev.rbuf token.1)).run (ev.before env n).world =
      ev.turn env n token :=
    processIssueType_local.run _ (h.answers n token htoken hreached)
  rw [← hrun, resolved_of_token htoken]
  exact processIssueType_follows _

end Runs

/-- What is known of the site of a turn: the clock, and the directories that
bear the name of a report from now on. -/
structure Progress (ev : Event) (sites : Nat → Site) (n : Nat) : Prop where
  past : ∀ m < n, (sites m).now ≤ (sites n).now
  executed : ∀ m < n, ((sites m).plan ev (ev.resolved m)).emitted ≠ [] → (sites m).now < (sites n).now
  dirs : ∀ node s, (∀ b ∈ node, isalnum b) → (sites n).now ≤ s →
    (ev.dir node s ∈ (sites n).dirs ↔
      ev.dir node s ∈ (sites 0).dirs ∨ ∃ m < n, ev.asked sites m = some (ev.dir node s))

theorem progress_zero : Progress ev sites 0 where
  past _ hm := absurd hm (Nat.not_lt_zero _)
  executed _ hm := absurd hm (Nat.not_lt_zero _)
  dirs _ _ _ _ := by simp

/-- A turn with commands takes time. -/
theorem sum_seconds_pos {commands : List IssueData} (h : commands ≠ []) : 0 < (commands.map IssueData.seconds).sum := by
  obtain ⟨d, ds, rfl⟩ := List.exists_cons_of_ne_nil h
  rw [List.map_cons, List.sum_cons, IssueData.seconds]
  omega

/-- One turn keeps what is known. -/
theorem Progress.succ (hp : Progress ev sites n)
    (hnext : (sites n).Next (sites (n + 1)) (ev.asked sites n) ((sites n).plan ev (ev.resolved n)).emitted) :
    Progress ev sites (n + 1) := by
  have hclock : (sites n).now ≤ (sites (n + 1)).now := Nat.le_trans (Nat.le_add_right _ _) hnext.clock
  refine ⟨fun m hm => ?_, fun m hm hne => ?_, fun node s hnode hs => ?_⟩
  · rcases Nat.lt_succ_iff_lt_or_eq.mp hm with hm | rfl
    · exact Nat.le_trans (hp.past m hm) hclock
    · exact hclock
  · rcases Nat.lt_succ_iff_lt_or_eq.mp hm with hm | rfl
    · exact Nat.lt_of_lt_of_le (hp.executed m hm hne) hclock
    · have hpos := sum_seconds_pos hne
      have := hnext.clock
      omega
  · have hsplit : (∃ m < n + 1, ev.asked sites m = some (ev.dir node s)) ↔
        (∃ m < n, ev.asked sites m = some (ev.dir node s)) ∨ ev.asked sites n = some (ev.dir node s) := by
      simp only [Nat.lt_succ_iff_lt_or_eq, or_and_right, exists_or, exists_eq_left]
    rw [hsplit]
    by_cases hasked : ev.asked sites n = some (ev.dir node s)
    · -- the name is of this second, so no command was executed
      have hnow := ((asked_eq_iff hnode).mp hasked).2
      have hnone : ((sites n).plan ev (ev.resolved n)).emitted = [] := by
        by_contra hne
        have hpos := sum_seconds_pos hne
        have := hnext.clock
        omega
      exact iff_of_true (hnext.kept hnone _ hasked) (.inr (.inr hasked))
    · rw [hnext.others _ hasked, hp.dirs node s hnode (Nat.le_trans hclock hs)]
      simp only [hasked, or_false]

namespace Runs

variable (h : ev.Runs env sites)

include h

theorem next_of_reached (htoken : ev.tokens[n]? = some token) (hreached : ev.Reached env (n + 1)) :
    (sites n).Next (sites (n + 1)) (ev.asked sites n) ((sites n).plan ev (ev.resolved n)).emitted := by
  obtain ⟨hreached, hresult⟩ := (reached_succ htoken).mp hreached
  rw [← (h.turn_eq htoken hreached).1]
  exact h.next n token htoken hreached hresult

/-- Whatever the turns before did, a turn that the thread comes to finds the directories in place. -/
theorem progress (hn : n ≤ ev.tokens.length) (hreached : ev.Reached env n) : Progress ev sites n := by
  induction n with
  | zero => exact progress_zero
  | succ n ih =>
    have htoken := List.getElem?_eq_getElem hn
    exact (ih (Nat.le_of_succ_le hn) ((reached_succ htoken).mp hreached).1).succ (h.next_of_reached htoken hreached)

/-- Whether the directory of a turn is there. -/
theorem mem_dirs_iff {p : Plan IssueData} (hreached : ev.Reached env n) (hr : ev.resolved n = .report node p) :
    ev.dir node (sites n).now ∈ (sites n).dirs ↔ ev.dir node (sites n).now ∈ (sites 0).dirs ∨
      ∃ m < n, ∃ q, ev.resolved m = .report node q ∧ (sites m).now = (sites n).now := by
  obtain ⟨⟨token, htoken⟩, hnode⟩ := resolved_report hr
  have hn : n ≤ ev.tokens.length := Nat.le_of_lt (List.getElem?_eq_some_iff.mp htoken).1
  rw [(h.progress hn hreached).dirs node _ hnode (Nat.le_refl _)]
  simp only [asked_eq_iff hnode, exists_and_right]

theorem stops_iff (htoken : ev.tokens[n]? = some token) (hreached : ev.Reached env n) :
    (ev.turn env n token).result = some () ↔ ¬ ev.Halts sites n := by
  have hstops := (h.turn_eq htoken hreached).2
  have hsome : (ev.turn env n token).result = some () ↔ ((sites n).plan ev (ev.resolved n)).stops = false := by
    rw [← hstops]
    cases (ev.turn env n token).result <;> simp
  rw [hsome, Halts]
  cases hr : ev.resolved n with
  | crash => simp [Site.plan, Plan.halt]
  | nothing => simp [Site.plan, Plan.done]
  | report node p =>
    have hdir := h.mem_dirs_iff hreached hr
    by_cases hmem : ev.dir node (sites n).now ∈ (sites n).dirs
    · rw [Site.plan_of_mem hmem]
      refine iff_of_true rfl ?_
      rintro (hcrash | ⟨node', p', heq, -, hstart, hm⟩)
      · cases hcrash
      · cases heq
        rcases hdir.mp hmem with hmem | ⟨m, hlt, q, hq, hnow⟩
        · exact hstart hmem
        · exact hm m hlt q hq hnow
    · rw [Site.plan_of_notMem hmem]
      refine ⟨fun hgo => ?_, fun hgo => ?_⟩
      · rintro (hcrash | ⟨node', p', heq, hstop, -⟩)
        · cases hcrash
        · cases heq
          exact absurd hstop (by simp [hgo])
      · by_contra hstop
        exact hgo (.inr ⟨node, p, rfl, by simpa using hstop, fun hstart => hmem (hdir.mpr (.inl hstart)),
          fun m hlt q hq hnow => hmem (hdir.mpr (.inr ⟨m, hlt, q, hq, hnow⟩))⟩)

/-- The thread comes to a turn if no token before stops it. -/
theorem reached_iff (hn : n ≤ ev.tokens.length) : ev.Reached env n ↔ ∀ m < n, ¬ ev.Halts sites m := by
  induction n with
  | zero => exact iff_of_true rfl fun m hm => absurd hm (Nat.not_lt_zero m)
  | succ n ih =>
    have htoken := List.getElem?_eq_getElem hn
    have hbefore := ih (Nat.le_of_succ_le hn)
    rw [reached_succ htoken]
    constructor
    · rintro ⟨hreached, hresult⟩ m hm
      rcases Nat.lt_succ_iff_lt_or_eq.mp hm with hm | rfl
      · exact hbefore.mp hreached m hm
      · exact (h.stops_iff htoken hreached).mp hresult
    · intro hm
      have hreached := hbefore.mpr fun m hlt => hm m (Nat.lt_succ_of_lt hlt)
      exact ⟨hreached, (h.stops_iff htoken hreached).mpr (hm n (Nat.lt_succ_self n))⟩

end Runs

/-! ## The commands of a token -/

theorem nodup_tokens : ev.tokens.Nodup := by
  refine List.Nodup.of_map Prod.snd ?_
  rw [tokens, List.zipIdx_map_snd]
  exact List.nodup_range'

/-- The turns of some tokens execute no command of another one. -/
theorem filterMap_loop (ev : Event) (env : Env) (as : List TokenAt) (h : token ∉ as) (k : Nat) :
    ((loop (fun _ token => tag (token, ·) (processIssueType ev.cfg env (cmdBuff ev.rbuf token.1))) () as).run k).events.filterMap
      (fun e => if e.1 = token then e.2.command? else none) = [] := by
  have hemits : Emits (loop (fun _ token => tag (token, ·) (processIssueType ev.cfg env (cmdBuff ev.rbuf token.1))) () as)
      fun e => e.1 ∈ as := .loop (fun _ _ ha => Emits.tag (P := fun e : TokenAt × Effect => e.1 ∈ as) fun _ _ _ => ha) ()
  refine List.filterMap_eq_nil_iff.mpr fun e he => if_neg fun heq => h ?_
  rw [← heq]
  exact hemits k e he

theorem filterMap_tag (es : List Effect) : (es.map (token, ·)).filterMap
    (fun e => if e.1 = token then e.2.command? else none) = es.filterMap Effect.command? := by
  simp only [List.filterMap_map, Function.comp_def, if_true]

/-- The list, with the token in its place. -/
theorem tokens_split (h : ev.tokens[n]? = some token) : ev.tokens = ev.tokens.take n ++ token :: ev.tokens.drop (n + 1) ∧
    token ∉ ev.tokens.take n ∧ token ∉ ev.tokens.drop (n + 1) := by
  obtain ⟨hlt, htoken⟩ := List.getElem?_eq_some_iff.mp h
  have hsplit : ev.tokens = ev.tokens.take n ++ token :: ev.tokens.drop (n + 1) := by
    rw [← htoken, ← List.drop_eq_getElem_cons hlt, List.take_append_drop]
  have hnodup : (ev.tokens.take n ++ token :: ev.tokens.drop (n + 1)).Nodup := hsplit ▸ nodup_tokens
  rw [List.nodup_middle, List.nodup_cons, List.mem_append, not_or] at hnodup
  exact ⟨hsplit, hnodup.1⟩

theorem insideCommands_of_not_reached (h : ev.tokens[n]? = some token) (hreached : ¬ ev.Reached env n) :
    ev.insideCommands env token = [] := by
  obtain ⟨hsplit, hnotin, -⟩ := tokens_split h
  have hbefore := filterMap_loop ev env _ hnotin 0
  rw [insideCommands, processIssueTypeEvent, eachToken, ← tokens, hsplit, loop_append]
  rcases hrun : ev.before env n with ⟨_ | a, es, k⟩
  · rw [bind_run_of_none hrun]
    rwa [← before, hrun] at hbefore
  · exact absurd (by rw [Reached, hrun]) hreached

/-- The commands of a token inside the list are those of its turn. -/
theorem insideCommands_of_reached (h : ev.tokens[n]? = some token) (hreached : ev.Reached env n) :
    ev.insideCommands env token = (ev.turn env n token).events.filterMap Effect.command? := by
  obtain ⟨hsplit, hbefore, hafter⟩ := tokens_split h
  have hbefore := filterMap_loop ev env _ hbefore 0
  have hafter := filterMap_loop ev env _ hafter
  rw [insideCommands, processIssueTypeEvent, eachToken, ← tokens, hsplit, loop_append]
  rcases hrun : ev.before env n with ⟨_ | a, es, k⟩
  · rw [Reached, hrun] at hreached
    cases hreached
  · have hturn : ev.turn env n token = (processIssueType ev.cfg env (cmdBuff ev.rbuf token.1)).run k := by rw [turn, hrun]
    rw [← before, hrun] at hbefore
    rw [bind_run_of_some hrun, List.filterMap_append, hbefore, List.nil_append]
    show (((tag (token, ·) (processIssueType ev.cfg env (cmdBuff ev.rbuf token.1))) >>= fun _ =>
      loop _ () (ev.tokens.drop (n + 1))).run k).events.filterMap _ = _
    rcases ht : (processIssueType ev.cfg env (cmdBuff ev.rbuf token.1)).run k with ⟨_ | b, es', k'⟩
    · have htag : (tag (token, ·) (processIssueType ev.cfg env (cmdBuff ev.rbuf token.1))).run k =
          ⟨none, es'.map (token, ·), k'⟩ := by rw [tag_run, ht]
      rw [bind_run_of_none htag, filterMap_tag, hturn, ht]
    · have htag : (tag (token, ·) (processIssueType ev.cfg env (cmdBuff ev.rbuf token.1))).run k =
          ⟨some b, es'.map (token, ·), k'⟩ := by rw [tag_run, ht]
      rw [bind_run_of_some htag, List.filterMap_append, filterMap_tag, hafter, List.append_nil, hturn, ht]

/-- The commands of a token alone are what it resolves to. -/
theorem aloneCommands_eq (h : ev.tokens[n]? = some token) (site : Site) :
    ev.aloneCommands site token = (site.plan ev (ev.resolved n)).emitted := by
  have hbuff : cmdBuff { ev.rbuf with mdata := token.1.1 ++ token.1.2 } token.1 = cmdBuff ev.rbuf token.1 := rfl
  rw [aloneCommands, processIssueTypeEvent, eachToken, acceptedTokens_alone (getElem?_tokens h).2, resolved_of_token h]
  show ((loop _ () [(token.1, 0)]).run 0).events.filterMap _ = _
  rw [loop_singleton, hbuff, tag_run, List.filterMap_map]
  exact (processIssueType_follows 0).1

/-! ## Isolation -/

section Isolation

variable (h : ev.Runs env sites)

include h

/-- A token that would run alone runs inside the list if the thread comes to it
and finds no directory of its name. -/
theorem Runs.isolated_iff : ev.Isolated env (sites 0) ↔ ∀ n node p, ev.resolved n = .report node p → p.emitted ≠ [] →
    ev.dir node (sites 0).now ∉ (sites 0).dirs → ev.Reached env n ∧ ev.dir node (sites n).now ∉ (sites n).dirs := by
  constructor
  · intro hiso n node p hr hne hstart
    obtain ⟨⟨token, htoken⟩, -⟩ := resolved_report hr
    have halone : ev.aloneCommands (sites 0) token = p.emitted := by
      rw [aloneCommands_eq htoken, hr, Site.plan_of_notMem hstart]
    have hinside := hiso token (List.mem_of_getElem? htoken) (halone ▸ hne)
    rw [halone] at hinside
    by_cases hreached : ev.Reached env n
    · refine ⟨hreached, fun hmem => hne ?_⟩
      rw [← hinside, insideCommands_of_reached htoken hreached, (h.turn_eq htoken hreached).1, hr,
        Site.plan_of_mem hmem]
      rfl
    · exact absurd (hinside.symm.trans (insideCommands_of_not_reached htoken hreached)) hne
  · intro hall token hmem hne
    obtain ⟨n, htoken⟩ := List.getElem?_of_mem hmem
    rw [aloneCommands_eq htoken] at hne ⊢
    cases hr : ev.resolved n with
    | report node p =>
      rw [hr] at hne
      have hstart : ev.dir node (sites 0).now ∉ (sites 0).dirs := fun hmem => hne (by rw [Site.plan_of_mem hmem]; rfl)
      rw [Site.plan_of_notMem hstart] at hne
      obtain ⟨hreached, hfree⟩ := hall n node p hr hne hstart
      rw [insideCommands_of_reached htoken hreached, (h.turn_eq htoken hreached).1, hr, Site.plan_of_notMem hfree,
        Site.plan_of_notMem hstart]
    | _ =>
      rw [hr] at hne
      exact absurd rfl hne

theorem Isolated.undisturbed (hiso : ev.Isolated env (sites 0)) : ev.Undisturbed sites := by
  intro n node p hr hne hstart
  obtain ⟨⟨token, htoken⟩, -⟩ := resolved_report hr
  have hn : n ≤ ev.tokens.length := Nat.le_of_lt (List.getElem?_eq_some_iff.mp htoken).1
  obtain ⟨hreached, hfree⟩ := h.isolated_iff.mp hiso n node p hr hne hstart
  rw [h.mem_dirs_iff hreached hr, not_or] at hfree
  refine ⟨hfree.1, fun m hm => ⟨(h.reached_iff hn).mp hreached m hm, fun q hq _ hnow => ?_⟩⟩
  exact hfree.2 ⟨m, hm, q, hq, hnow⟩

/-- Of the tokens before, the first that asks for the directory in the same second
would have run, which takes time. -/
theorem Undisturbed.isolated (hclear : ev.Undisturbed sites) : ev.Isolated env (sites 0) := by
  refine h.isolated_iff.mpr fun n node p hr hne hstart => ?_
  obtain ⟨⟨token, htoken⟩, -⟩ := resolved_report hr
  have hn : n ≤ ev.tokens.length := Nat.le_of_lt (List.getElem?_eq_some_iff.mp htoken).1
  obtain ⟨hfree, hbefore⟩ := hclear n node p hr hne hstart
  have hreached {m : Nat} (hm : m ≤ n) : ev.Reached env m :=
    (h.reached_iff (Nat.le_trans hm hn)).mpr fun l hl => (hbefore l (Nat.lt_of_lt_of_le hl hm)).1
  have hnone : ∀ m < n, ∀ q, ev.resolved m = .report node q → (sites m).now ≠ (sites n).now := by
    intro m
    induction m using Nat.strong_induction_on with
    | _ m ih =>
      intro hm q hq hnow
      have hcommands : q.emitted ≠ [] := fun hempty => (hbefore m hm).2 q hq hempty hnow
      have hexecuted : ((sites m).plan ev (ev.resolved m)).emitted = [] := by
        by_contra hexec
        exact absurd hnow (Nat.ne_of_lt ((h.progress hn (hreached (Nat.le_refl n))).executed m hm hexec))
      -- so the directory was there already
      have hmem : ev.dir node (sites m).now ∈ (sites m).dirs := by
        by_contra hmem
        rw [hq, Site.plan_of_notMem hmem] at hexecuted
        exact hcommands hexecuted
      rcases (h.mem_dirs_iff (hreached (Nat.le_of_lt hm)) hq).mp hmem with hmem | ⟨l, hl, q', hq', hnow'⟩
      · exact hfree (hnow ▸ hmem)
      · exact ih l hl (Nat.lt_trans hl hm) q' hq' (hnow'.trans hnow)
  refine ⟨hreached (Nat.le_refl n), fun hmem => ?_⟩
  rcases (h.mem_dirs_iff (hreached (Nat.le_refl n)) hr).mp hmem with hmem | ⟨m, hm, q, hq, hnow⟩
  · exact hfree hmem
  · exact hnone m hm q hq hnow

end Isolation

end Event

/-! ## Two tokens in one second -/

section Sample

/-- The first second is formatted as a date, and any other as no other is. -/
def sampleTime (now : Nat) : Str := str "2025-01-01-00-00-00" ++ List.replicate now (ch '0')

theorem sampleTime_injective ⦃s t : Nat⦄ (h : sampleTime s = sampleTime t) : s = t := by
  have hlen := congrArg List.length h
  simp only [sampleTime, List.length_append, List.length_replicate] at hlen
  omega

def commandItem (command : Str) : CJson := .object [(str "Commands", .string command)]

/-- A harmful command for `Network.Bad`, and others for `Network.Ping` and `Device.Ping`. -/
def twoNodes : CJson := .object <|
  [(str "Network", .object [(str "Bad", commandItem (str "rm -rf /")), (str "Ping", commandItem (str "true"))]),
    (str "Device", .object [(str "Ping", commandItem (str "true"))])] ++ pingSanity

def sampleEvent (issueTypes : Str) : Event where
  cfg := plainConfig true
  files _ := some twoNodes
  strftime := sampleTime
  strftime_injective := sampleTime_injective
  rbuf := rrdDataBuffInit .eventMsg .deepsleepInvalidDefault issueTypes

/-- The directory of a report on `Network`. -/
def sampleDir : Str := (sampleEvent []).dir (str "Network") 0

/-- The second token comes in the same second as the first. -/
def sampleSites : Nat → Site
  | 0 => ⟨0, []⟩
  | 1 => ⟨0, [sampleDir]⟩
  | _ => ⟨90, [sampleDir]⟩

/-- A device that is at the second site from call 4 on. -/
def sampleEnv : Env where
  readAndParseJSON _ _ := some twoNodes
  localtime _ := sampleTime 0
  mkdir k path := !(sampleSites (if k < 4 then 0 else 1)).has path
  chdir _ _ := true
  executeCommands _ _ := true
  rbusSet _ _ := true

variable {issueTypes : Str} {token₀ token₁ : TokenAt}

/-- The first token is rejected in calls 0 to 3. -/
theorem runs_sample (htokens : (sampleEvent issueTypes).tokens = [token₀, token₁])
    (hfirst : (processIssueType (plainConfig true) sampleEnv (cmdBuff (sampleEvent issueTypes).rbuf token₀.1)).run 0 =
      ⟨some (), [.mkdir sampleDir], 4⟩)
    (hasked : (sampleEvent issueTypes).asked sampleSites 0 = some sampleDir)
    (hnext : (sampleSites 1).Next (sampleSites 2) ((sampleEvent issueTypes).asked sampleSites 1)
      (((processIssueType (plainConfig true) sampleEnv (cmdBuff (sampleEvent issueTypes).rbuf token₁.1)).run
        4).events.filterMap Effect.command?)) : (sampleEvent issueTypes).Runs sampleEnv sampleSites := by
  have hbefore : (sampleEvent issueTypes).before sampleEnv 1 = ⟨some (), [(token₀, .mkdir sampleDir)], 4⟩ := by
    rw [Event.before, htokens]
    show (loop _ () [token₀]).run 0 = _
    rw [loop_singleton, tag_run]
    exact congrArg (fun o : Outcome Nat Effect Unit => (⟨o.result, o.events.map (token₀, ·), o.world⟩ :
      Outcome Nat (TokenAt × Effect) Unit)) hfirst
  constructor
  · intro n token htoken _ k hk hlt
    rw [htokens] at htoken
    rcases n with _ | _ | n
    · cases htoken
      have hturn : (sampleEvent issueTypes).turn sampleEnv 0 token₀ = ⟨some (), [.mkdir sampleDir], 4⟩ := hfirst
      have hk4 : k < 4 := by rwa [hturn] at hlt
      exact ⟨rfl, rfl, by simp [Site.device, sampleEnv, hk4], rfl, rfl, rfl⟩
    · rw [hbefore] at hk
      have hk4 : ¬ k < 4 := Nat.not_lt.mpr hk
      exact ⟨rfl, rfl, by simp [Site.device, sampleEnv, hk4], rfl, rfl, rfl⟩
    · cases htoken
  · intro n token htoken _ _
    rw [htokens] at htoken
    rcases n with _ | _ | n
    · cases htoken
      have hturn : (sampleEvent issueTypes).turn sampleEnv 0 token₀ = ⟨some (), [.mkdir sampleDir], 4⟩ := hfirst
      rw [hturn, hasked]
      refine ⟨Nat.le_refl 0, fun path hpath => ?_, fun _ path hpath => ?_⟩
      · have hne : path ≠ sampleDir := fun heq => hpath (heq ▸ rfl)
        simp [sampleSites, hne]
      · cases hpath
        exact List.mem_singleton_self _
    · cases htoken
      rw [Event.turn, hbefore]
      exact hnext
    · cases htoken

end Sample

namespace Event

/-- In every run of an event its tokens are isolated exactly when none that would
run alone is disturbed. -/
theorem isolated_iff_undisturbed (h : ev.Runs env sites) : ev.Isolated env (sites 0) ↔ ev.Undisturbed sites :=
  ⟨fun hiso => hiso.undisturbed h, fun hclear => hclear.isolated h⟩

/-- A rejected token of another node disturbs no other. -/
theorem isolated_iff_undisturbed_sample :
    (sampleEvent (str "Network.Bad,Device.Ping")).Isolated sampleEnv (sampleSites 0) ↔
      (sampleEvent (str "Network.Bad,Device.Ping")).Undisturbed sampleSites := by
  have htokens : (sampleEvent (str "Network.Bad,Device.Ping")).tokens =
      [((str "Network.Bad", []), 0), ((str "Device.Ping", []), 1)] := by decide +kernel
  exact isolated_iff_undisturbed (runs_sample htokens rfl rfl ⟨by decide, fun path _ => Iff.rfl, nofun⟩)

/-- The harmful command of `Network.Bad` keeps that of `Network.Ping` from being run. -/
theorem rejected_token_blocks : (sampleEvent (str "Network.Bad,Network.Ping")).Runs sampleEnv sampleSites ∧
    ¬ (sampleEvent (str "Network.Bad,Network.Ping")).Isolated sampleEnv (sampleSites 0) := by
  have htokens : (sampleEvent (str "Network.Bad,Network.Ping")).tokens =
      [((str "Network.Bad", []), 0), ((str "Network.Ping", []), 1)] := by decide +kernel
  have hruns : (sampleEvent (str "Network.Bad,Network.Ping")).Runs sampleEnv sampleSites := by
    refine runs_sample htokens rfl rfl ⟨Nat.zero_le _, fun path _ => Iff.rfl, fun _ path hpath => ?_⟩
    cases hpath
    exact List.mem_singleton_self _
  refine ⟨hruns, fun hiso => ?_⟩
  have hping : (sampleEvent (str "Network.Bad,Network.Ping")).resolved 1 = .report (str "Network") _ := rfl
  have hclear := hiso.undisturbed hruns 1 _ _ hping (List.cons_ne_nil _ _) (List.not_mem_nil)
  exact (hclear.2 0 Nat.zero_lt_one).2 _ rfl rfl rfl

end Event

end RRD
