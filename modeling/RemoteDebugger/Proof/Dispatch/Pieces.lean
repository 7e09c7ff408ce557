import RemoteDebugger.Framework.Visits
import RemoteDebugger.Proof.Dispatch.List
import RemoteDebugger.Proof.Dispatch.Stops
import RemoteDebugger.Spec.Pieces

/-!
# An event is processed piece by piece

* `acceptToken_piece`: the filters of a token give the base and the suffix of the piece;
* `workItems_pieces`: an event without the append marker gives the work items of its
  pieces;
* `handedItems_eq_iff`: all of them are handed on unless one before the last ends
  the thread.
-/

namespace RRD

open Framework Framework.Prog

theorem suffixOf_underscorePart (p : Str) : suffixOf (underscorePart p) = pieceSuffix p := by
  rw [suffixOf, underscorePart, pieceSuffix, rrdMaxSuffixLen]
  by_cases hnil : p.dropWhile (· ≠ ch '_') = []
  · rw [hnil]
    rfl
  · simp only [hnil, ne_eq, not_false_eq_true, true_and]

/-- Without a comma, the filter of the base keeps letters, digits and dots. -/
theorem filter_base {p : Str} (h : ch ',' ∉ p) :
    removeSpecialCharacterfromIssueTypeList ((p.takeWhile (· ≠ ch '_')).take 127) = pieceBase p := by
  refine List.filter_congr fun b hb => ?_
  have hcomma : b ≠ ch ',' := fun e =>
    h (e ▸ (List.takeWhile_sublist _).subset (List.mem_of_mem_take hb))
  simp [hcomma]

theorem acceptToken_piece {p : Str} (h : ch ',' ∉ p) :
    acceptToken p = if pieceBase p = [] then none else some (pieceBase p, pieceSuffix p) := by
  rw [acceptToken, splitIssueType_eq, suffixOf_underscorePart]
  simp only [filter_base h]

theorem acceptedTokens_pieces (e : Str) : acceptedTokens e =
    ((pieces e).filter (pieceBase · ≠ [])).map fun p => (pieceBase p, pieceSuffix p) := by
  have hnil : pieceBase [] = [] := rfl
  have haccept : (e.splitOn (ch ',')).filterMap acceptToken =
      (e.splitOn (ch ',')).filterMap fun p => if pieceBase p = [] then none else some (pieceBase p, pieceSuffix p) :=
    List.filterMap_congr fun p hp => acceptToken_piece (notMem_of_mem_splitOn hp)
  rw [acceptedTokens_eq, haccept, pieces, List.filter_filter]
  induction e.splitOn (ch ',') with
  | nil => rfl
  | cons p ps ih =>
    by_cases hbase : pieceBase p = []
    · simp [hbase, ih]
    · have hp : p ≠ [] := fun e => hbase (e ▸ hnil)
      simp [hbase, hp, ih]

/-- An event without the append marker gives one work item for each of its
pieces that has a base, in order. -/
theorem workItems_pieces {e : Str} (h : ¬ appendSuffix <:+ e) : workItems e = eventItems e := by
  have hmessage : pushIssueTypesToMsgQueue e .eventMsg = rrdDataBuffInit .eventMsg .deepsleepInvalidDefault e := by
    rw [pushIssueTypesToMsgQueue, checkAppendRequest_of_not_suffix h]
    rfl
  rw [workItems, hmessage]
  show (acceptedTokens e).map (cmdBuff (rrdDataBuffInit .eventMsg .deepsleepInvalidDefault e)) = eventItems e
  rw [acceptedTokens_pieces, List.map_map]
  rfl

/-! ## Items that are handed on -/

variable {cfg : Config} {env : Env} {e : Str} {k : Nat}

/-- The buffers that `processIssueTypeEvent` hands to `processIssueType`, in a run from call `k` on. -/
def handedItems (cfg : Config) (env : Env) (e : Str) (k : Nat) : List DataBuf :=
  ((eachToken (announce (processIssueType cfg env)) (pushIssueTypesToMsgQueue e .eventMsg)).run k).events.map Prod.snd

theorem handedItems_eq_workItems_iff :
    handedItems cfg env e k = workItems e ↔ OnlyLastStops (processIssueType cfg env) (workItems e) k := by
  have hitems : tag Prod.snd (loop (fun _ (item : DataBuf × Nat) => tag (((item.1.mdata, item.1.suffix), item.2), ·)
        (announce (processIssueType cfg env) item.1)) () (workItems e).zipIdx) =
      loop (fun _ item => announce (processIssueType cfg env) item) () (workItems e) := by
    rw [tag_loop]
    conv_rhs => rw [← List.zipIdx_map_fst 0 (workItems e), loop_map]
    refine loop_congr (fun _ item _ => Prog.ext fun w => ?_) ()
    simp only [tag_run, List.map_map, Function.comp_def, List.map_id']
  rw [handedItems, eachToken_workItems, ← announced_eq_iff, ← hitems]
  rfl

/-- No item before the last one ends the thread. -/
def OnlyLastEnds (cfg : Config) (env : Env) : List DataBuf → Nat → Prop
  | [], _ | [_], _ => True
  | item :: items, k => ¬EndsThread cfg env item k ∧
      OnlyLastEnds cfg env items ((processIssueType cfg env item).run k).world

theorem onlyLastStops_iff {items : List DataBuf} (h : ∀ item ∈ items, item.appendMode = false ∧ item.inDynamic = false) :
    OnlyLastStops (processIssueType cfg env) items k ↔ OnlyLastEnds cfg env items k := by
  induction items generalizing k with
  | nil => exact Iff.rfl
  | cons item items ih =>
    obtain ⟨⟨happ, hdyn⟩, hitems⟩ := List.forall_mem_cons.mp h
    cases items with
    | nil => exact Iff.rfl
    | cons => exact and_congr (Option.isSome_iff_ne_none.trans (not_congr (processIssueType_isNone happ hdyn))) (ih hitems)

/-- An event without the append marker hands on the work items of its pieces, in
order, exactly when none of them but the last ends the thread. -/
theorem handedItems_eq_iff (cfg : Config) (env : Env) (k : Nat) (h : ¬ appendSuffix <:+ e) :
    handedItems cfg env e k = eventItems e ↔ OnlyLastEnds cfg env (eventItems e) k := by
  rw [← workItems_pieces h, handedItems_eq_workItems_iff, workItems_pieces h]
  refine onlyLastStops_iff fun item hitem => ?_
  obtain ⟨p, -, rfl⟩ := List.mem_map.mp hitem
  exact ⟨rfl, rfl⟩

theorem handedItems_eq_iff_sample :
    handedItems (plainConfig true) (.ofFiles fun _ => none) (str ",Network.Ping_a!,_b,A B,") 0 =
      [⟨.eventMsg, str "Network.Ping", none, false, false, .deepsleepInvalidDefault, str "_a"⟩,
        ⟨.eventMsg, str "AB", none, false, false, .deepsleepInvalidDefault, []⟩] := by
  have hitems : eventItems (str ",Network.Ping_a!,_b,A B,") =
      [⟨.eventMsg, str "Network.Ping", none, false, false, .deepsleepInvalidDefault, str "_a"⟩,
        ⟨.eventMsg, str "AB", none, false, false, .deepsleepInvalidDefault, []⟩] := by decide +kernel
  rw [← hitems]
  refine (handedItems_eq_iff _ _ 0 (by decide +kernel)).mpr ?_
  rw [hitems]
  refine ⟨fun hends => ?_, trivial⟩
  have hping : getIssueInfo (str "Network.Ping") = some ⟨some (str "Network"), some (str "Ping")⟩ := by decide
  rcases hends with hissue | ⟨hissue, -, -, -⟩
  · cases hping.symm.trans hissue
  · cases hping.symm.trans hissue

/-- The first token has no node, and the second is not handed on. -/
theorem dot_ends_event : ¬ appendSuffix <:+ str ".,A" ∧
    handedItems (plainConfig true) (.ofFiles fun _ => none) (str ".,A") 0 ≠ eventItems (str ".,A") := by
  decide +kernel

end RRD
