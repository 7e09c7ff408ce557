import RemoteDebugger.Impl.Interface
import RemoteDebugger.Proof.Config.Lines

/-!
# The selected category and its file

`rrd_SetHandler` writes a line that `load_profile_category` reads. The line ends
where the value has a newline, and `fclose` can leave a part of it.

* `loadProfileCategory_take`: what the start of a line restores;
* `rrdSetHandler_saved`: what the handler leaves for a value that passes its checks;
* `stored_restored_iff`: when a value that was stored is restored;
* `setsWhole_iff`: when a request is carried out in both places or in none.
-/

namespace RRD

open Framework

variable {ops : FileOps} {prop : Option RbusProperty} {st : ProfileStore} {v line s : Str} {n : Nat}

/-! ## Loading -/

/-- What `fgets` reads first, up to its newline. -/
theorem fgetsLines_head_takeWhile (hline : newline ∉ line) (hlen : line.length < n) (hne : line ++ s ≠ []) :
    (fgetsLines n line s).head?.map (·.takeWhile (· ≠ newline)) =
      some (((line ++ s).take n).takeWhile (· ≠ newline)) := by
  induction s generalizing line with
  | nil =>
    rw [List.append_nil] at hne ⊢
    rw [fgetsLines, if_neg hne, List.head?_cons, Option.map_some, List.take_of_length_le hlen.le]
  | cons b s ih =>
    have hcons : line ++ b :: s = line ++ [b] ++ s := List.append_cons line b s
    rw [fgetsLines]
    split
    · rename_i hend
      rw [List.head?_cons, Option.map_some]
      by_cases hb : b = newline
      · obtain ⟨k, hk⟩ : ∃ k, n - line.length = k + 1 := ⟨n - line.length - 1, by omega⟩
        rw [hb, List.take_append, List.take_of_length_le hlen.le, hk, List.take_succ_cons, takeWhile_ne_append hline,
          takeWhile_ne_append hline]
        rfl
      · have hn : (line ++ [b]).length = n := by
          have := hend.resolve_left hb
          simp only [List.length_append, List.length_singleton]
          omega
        rw [hcons, List.take_left' hn]
    · rename_i hmore
      obtain ⟨hb, hfull⟩ := not_or.mp hmore
      rw [hcons]
      refine ih ?_ (by simp; omega) (by simp)
      simp [hline, Ne.symm hb]

/-- A line that `fprintf` made, or its start. -/
theorem takeWhile_take_newline (v : Str) (n : Nat) :
    ((v ++ [newline]).take n).takeWhile (· ≠ newline) = (v.take n).takeWhile (· ≠ newline) := by
  have hrest : ([newline].take (n - v.length)).takeWhile (· ≠ newline) = [] := by
    cases n - v.length <;> rfl
  rw [List.take_append, List.takeWhile_append, hrest, List.append_nil]
  split
  · rename_i hlen
    exact ((List.takeWhile_prefix _).eq_of_length hlen).symm
  · rfl

/-- The category that the first `n` bytes of the line for `v` are read as. -/
def lineCategory (v : Str) (n : Nat) : Str := if n = 0 then allCategory else (v.take n).takeWhile (· ≠ newline)

theorem loadProfileCategory_take (hzero : 0 ∉ v) (hlen : v.length ≤ 255) (n : Nat) :
    loadProfileCategory (some ((v ++ [newline]).take n)) = (if n = 0 then -1 else 0, lineCategory v n) := by
  rw [lineCategory]
  split
  · rename_i hn
    rw [hn]
    rfl
  · rename_i hn
    have hne : (v ++ [newline]).take n ≠ [] := by simp [hn]
    have hzeros : 0 ∉ (v ++ [newline]).take n := fun h =>
      (List.mem_append.mp (List.mem_of_mem_take h)).elim hzero (by decide)
    have hnil : newline ∉ ([] : Str) := List.not_mem_nil
    have hread := fgetsLines_head_takeWhile (n := 255) hnil (by decide) hne
    have hmin : (v.take (min 255 n)) = v.take n := by
      rw [List.take_eq_take_iff]
      omega
    rw [List.nil_append, List.take_take, takeWhile_take_newline, hmin] at hread
    obtain ⟨first, hfirst, hcut⟩ := Option.map_eq_some_iff.mp hread
    have hstart := fgetsLines_head 255 [] _ first hfirst
    have hcstr : cstr first = first := takeWhile_ne_of_notMem fun h => hzeros (hstart.subset h)
    have hhead : (readLines profileCategorySize ((v ++ [newline]).take n)).head? = some first := by
      rw [readLines, List.head?_map, show profileCategorySize - 1 = 255 from rfl, hfirst, Option.map_some, hcstr]
    simp only [loadProfileCategory, hhead, hcut]

/-! ## Setting -/

theorem requestedCategory_string (h : requestedCategory prop = some v) : 0 ∉ v ∧ v.length ≤ 255 := by
  obtain ⟨prop, rfl, h⟩ := Option.bind_eq_some_iff.mp h
  obtain ⟨propertyName, -, h⟩ := Option.bind_eq_some_iff.mp h
  obtain ⟨value, -, h⟩ := Option.bind_eq_some_iff.mp h
  split at h
  · rcases value with (_ | bytes) | _
    · cases h
    · obtain ⟨hlen, hv⟩ := Option.ite_none_left_eq_some.mp h
      obtain rfl := Option.some.inj hv
      exact ⟨fun h0 => absurd (List.mem_takeWhile_imp h0) (by decide), Nat.le_of_not_lt hlen⟩
    · cases h
  · cases h

/-- The bytes of the file after a request for `v`. -/
theorem rrdSetHandler_saved (h : requestedCategory prop = some v) : rrdSetHandler ops prop st =
    (if ops.opens ∧ ops.fdopens ∧ ops.prints then .success else .busError,
      ⟨v, if ops.opens then some (if ops.fdopens then (v ++ [newline]).take ops.written else []) else st.file⟩) := by
  have hv : v.take (profileCategorySize - 1) = v := List.take_of_length_le (requestedCategory_string h).2
  simp only [rrdSetHandler, h, hv, saveProfileCategory]
  cases ops.opens <;> cases ops.fdopens <;> cases ops.prints <;> rfl

/-- The value that the line restores is the one it was made of. -/
theorem takeWhile_take_eq_iff (v : Str) (n : Nat) : (v.take n).takeWhile (· ≠ newline) = v ↔ newline ∉ v ∧ v.length ≤ n := by
  constructor
  · intro h
    have hlen := congrArg List.length h
    have hle := (List.takeWhile_prefix (fun b => decide (b ≠ newline)) (l := v.take n)).length_le
    rw [List.length_take] at hle
    have hn : v.length ≤ n := by omega
    rw [List.take_of_length_le hn] at h
    refine ⟨fun hmem => ?_, hn⟩
    rw [← h] at hmem
    exact absurd (List.mem_takeWhile_imp hmem) (by decide)
  · rintro ⟨hv, hn⟩
    rw [List.take_of_length_le hn, takeWhile_ne_of_notMem hv]

theorem rrdSetHandler_file (h : requestedCategory prop = some v) (hset : (rrdSetHandler ops prop st).1 = .success) :
    (rrdSetHandler ops prop st).2.file = some ((v ++ [newline]).take ops.written) := by
  rw [rrdSetHandler_saved h] at hset ⊢
  by_cases hops : ops.opens ∧ ops.fdopens ∧ ops.prints
  · simp [hops]
  · rw [if_neg hops] at hset
    cases hset

/-- A value that was stored is restored exactly when it has no newline and it is
in the file, with a byte at least. -/
theorem stored_restored_iff (h : requestedCategory prop = some v) (hset : (rrdSetHandler ops prop st).1 = .success) :
    loadProfileCategory (rrdSetHandler ops prop st).2.file = (0, v) ↔
      newline ∉ v ∧ v.length ≤ ops.written ∧ 0 < ops.written := by
  obtain ⟨hzero, hlen⟩ := requestedCategory_string h
  rw [rrdSetHandler_file h hset, loadProfileCategory_take hzero hlen, lineCategory, Prod.mk.injEq]
  by_cases hn : ops.written = 0
  · simp [hn]
  · rw [if_neg hn, if_neg hn, takeWhile_take_eq_iff]
    constructor
    · rintro ⟨-, hv, hwritten⟩
      exact ⟨hv, hwritten, Nat.pos_of_ne_zero hn⟩
    · rintro ⟨hv, hwritten, -⟩
      exact ⟨rfl, hv, hwritten⟩

/-- A request for a category. -/
def categoryRequest (bytes : Str) : Option RbusProperty := some ⟨some rrdSetProfileEvent, some (.string (some bytes))⟩

/-- Every call works, and the file takes a whole line. -/
def FileOps.ok : FileOps := ⟨true, true, true, profileCategorySize⟩

theorem stored_restored_longest : loadProfileCategory
    (rrdSetHandler .ok (categoryRequest (List.replicate 255 (ch 'A'))) ⟨allCategory, none⟩).2.file =
      (0, List.replicate 255 (ch 'A')) :=
  (stored_restored_iff (by decide +kernel) (by decide +kernel)).mpr ⟨by decide +kernel, by decide +kernel, by decide +kernel⟩

/-- A value of two lines. -/
theorem newline_not_restored : (rrdSetHandler .ok (categoryRequest (str "Video\nAudio")) ⟨allCategory, none⟩).1 = .success ∧
    loadProfileCategory (rrdSetHandler .ok (categoryRequest (str "Video\nAudio")) ⟨allCategory, none⟩).2.file =
      (0, str "Video") := by
  decide +kernel

/-! ## Both places -/

/-- The category that is loaded later. -/
def restored (file : Option Str) : Str := (loadProfileCategory file).2

/-- After success the value is in both places, after an error both are as before. -/
def Atomic (ops : FileOps) (prop : Option RbusProperty) (st : ProfileStore) : Prop :=
  let (error, st') := rrdSetHandler ops prop st
  if error = .success then ∃ v, requestedCategory prop = some v ∧ st'.category = v ∧ restored st'.file = v
  else st'.category = st.category ∧ restored st'.file = restored st.file

/-- What `save_profile_category` can do with the value at no loss. -/
def SetsWhole (ops : FileOps) (prop : Option RbusProperty) (st : ProfileStore) : Prop :=
  ∀ v, requestedCategory prop = some v →
    if ops.opens ∧ ops.fdopens ∧ ops.prints then
      if ops.written = 0 then v = allCategory else newline ∉ v ∧ v.length ≤ ops.written
    else v = st.category ∧
      (ops.opens → restored st.file = if ops.fdopens then lineCategory v ops.written else allCategory)

theorem rrdSetHandler_rejected (h : requestedCategory prop = none) : rrdSetHandler ops prop st = (.invalidInput, st) := by
  simp only [rrdSetHandler, h]

theorem restored_saved (h : requestedCategory prop = some v) :
    restored (some (if ops.fdopens then (v ++ [newline]).take ops.written else [])) =
      if ops.fdopens then lineCategory v ops.written else allCategory := by
  obtain ⟨hzero, hlen⟩ := requestedCategory_string h
  split
  · rw [restored, loadProfileCategory_take hzero hlen]
  · rfl

theorem lineCategory_eq_iff : lineCategory v n = v ↔ if n = 0 then v = allCategory else newline ∉ v ∧ v.length ≤ n := by
  rw [lineCategory]
  split
  · exact eq_comm
  · exact takeWhile_take_eq_iff v n

/-- A request is carried out in both places, or in none, exactly in these cases. -/
theorem setsWhole_iff (ops : FileOps) (prop : Option RbusProperty) (st : ProfileStore) :
    Atomic ops prop st ↔ SetsWhole ops prop st := by
  cases h : requestedCategory prop with
  | none =>
    rw [Atomic, rrdSetHandler_rejected h]
    exact iff_of_true (by simp) fun v hv => by rw [h] at hv; cases hv
  | some v =>
    have hcond : SetsWhole ops prop st ↔
        if ops.opens ∧ ops.fdopens ∧ ops.prints then
          if ops.written = 0 then v = allCategory else newline ∉ v ∧ v.length ≤ ops.written
        else v = st.category ∧
          (ops.opens → restored st.file = if ops.fdopens then lineCategory v ops.written else allCategory) := by
      simp [SetsWhole, h]
    rw [hcond, Atomic, rrdSetHandler_saved h]
    by_cases hops : ops.opens ∧ ops.fdopens ∧ ops.prints
    · obtain ⟨hopens, hfdopens, hprints⟩ := hops
      have hfile : restored (some (if ops.fdopens then (v ++ [newline]).take ops.written else [])) = _ := restored_saved h
      rw [if_pos hfdopens, if_pos hfdopens] at hfile
      simp only [hopens, hfdopens, hprints, and_self, if_true]
      rw [hfile, ← lineCategory_eq_iff]
      simp [h]
    · have herror : (if ops.opens ∧ ops.fdopens ∧ ops.prints then RbusError.success else .busError) = .busError := if_neg hops
      rw [herror, if_neg hops]
      simp only [reduceCtorEq, if_false]
      refine and_congr_right fun _ => ?_
      by_cases hopens : ops.opens
      · simp only [hopens, if_true, forall_const]
        rw [restored_saved h, eq_comm]
      · simp [hopens]

/-- The file cannot be opened. -/
theorem failed_open_not_atomic : ¬Atomic { FileOps.ok with opens := false } (categoryRequest (str "Audio"))
    ⟨str "Video", some (str "Video\n")⟩ := by
  have herror : rrdSetHandler { FileOps.ok with opens := false } (categoryRequest (str "Audio"))
      ⟨str "Video", some (str "Video\n")⟩ = (.busError, ⟨str "Audio", some (str "Video\n")⟩) := by decide +kernel
  rw [Atomic, herror]
  rintro ⟨hcategory, -⟩
  exact absurd hcategory (by decide)

end RRD
