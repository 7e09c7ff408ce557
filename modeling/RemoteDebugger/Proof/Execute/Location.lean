import Mathlib.Algebra.Ring.Nat
import RemoteDebugger.Impl.Execute

/-!
# The directory of a command

`replaceRRDLocation` counts the occurrences of the macro, allocates what the
result takes, and writes it.

* `replaceRRDLocation_of_cut`: the result has the directory between the pieces of the command;
* `locationDatalen_of_cut`: in `size_t` the sum is the length of the result;
* `replaceRRDLocation_exact`: the result is written to the last byte of its allocation.
-/

namespace RRD

open Framework

variable {dir : Str} {pieces : List Str} {b : Byte} {s : Str}

/-! ## One pass over the command -/

theorem replaceFrom_skip (skip : Nat) (s : Str) : replaceFrom dir skip s = replaceRRDLocation (s.drop skip) dir := by
  induction skip generalizing s with
  | zero => rfl
  | succ skip ih =>
    cases s with
    | nil => rfl
    | cons b s => exact ih s

theorem replaceRRDLocation_append (s : Str) :
    replaceRRDLocation (defaultDir ++ s) dir = dir ++ replaceRRDLocation s dir := by
  obtain ⟨b, t, hdir⟩ : ∃ b t, defaultDir = b :: t := ⟨_, _, rfl⟩
  have hlen : defaultDir.length - 1 = t.length := by rw [hdir]; rfl
  have hmatch : defaultDir.isPrefixOf (b :: (t ++ s)) = true :=
    List.isPrefixOf_iff_prefix.mpr (hdir ▸ List.prefix_append (b :: t) s)
  have hdrop : (t ++ s).drop t.length = s := List.drop_left
  rw [replaceRRDLocation]
  show replaceFrom dir 0 (defaultDir ++ s) = _
  conv_lhs => rw [hdir, List.cons_append, replaceFrom, if_pos hmatch, hlen, replaceFrom_skip, hdrop]

theorem replaceRRDLocation_cons (h : ¬ defaultDir <+: b :: s) :
    replaceRRDLocation (b :: s) dir = b :: replaceRRDLocation s dir := by
  rw [replaceRRDLocation, replaceFrom, if_neg fun h' => h (List.isPrefixOf_iff_prefix.mp h')]
  rfl

theorem defaultDir_ne_nil : defaultDir ≠ [] := by decide

/-- Text without an occurrence that ends in it or before the next is kept. -/
theorem replaceRRDLocation_before {p : Str} (hfirst : ¬ defaultDir <:+: (p ++ defaultDir).dropLast) (s : Str) :
    replaceRRDLocation (p ++ defaultDir ++ s) dir = p ++ dir ++ replaceRRDLocation s dir := by
  induction p with
  | nil => exact replaceRRDLocation_append s
  | cons b p ih =>
    have hne : p ++ defaultDir ≠ [] := List.append_ne_nil_of_right_ne_nil _ defaultDir_ne_nil
    have hstart : ¬ defaultDir <+: b :: (p ++ defaultDir ++ s) :=
      (strstr_eq_some_iff.mp (strstr_first defaultDir_ne_nil hfirst s)).2.2 0 p.length.succ_pos
    rw [List.cons_append, List.dropLast_cons_of_ne_nil hne, List.infix_cons_iff, not_or] at hfirst
    rw [List.cons_append, List.cons_append, replaceRRDLocation_cons hstart, ih hfirst.2]
    rfl

/-- The result has the directory between the pieces of the command. -/
theorem replaceRRDLocation_of_cut (h : Cut defaultDir s pieces) : replaceRRDLocation s dir = dir.intercalate pieces := by
  induction h with
  | @last s hnone =>
    rw [List.intercalate_singleton]
    induction s with
    | nil => rfl
    | cons b s ih =>
      rw [List.infix_cons_iff, not_or] at hnone
      rw [replaceRRDLocation_cons hnone.1, ih hnone.2]
  | next hfirst hrest ih =>
    rw [replaceRRDLocation_before hfirst, ih, List.intercalate_cons_of_ne_nil hrest.ne_nil]

/-! ## Two passes -/

theorem countLocations_none (h : strstr defaultDir s = none) (cnt : Int32) : countLocations s cnt = cnt := by
  rw [countLocations]
  split
  · rfl
  · rename_i i hi
    rw [h] at hi
    cases hi

theorem countLocations_some {i : Nat} (h : strstr defaultDir s = some i) (cnt : Int32) :
    countLocations s cnt = countLocations (s.drop (i + defaultDir.length)) (cnt + 1) := by
  conv_lhs => rw [countLocations]
  split
  · rename_i hi
    rw [h] at hi
    cases hi
  · rename_i j hj
    rw [h, Option.some.injEq] at hj
    rw [hj]

theorem drop_behind (p s : Str) : (p ++ defaultDir ++ s).drop (p.length + defaultDir.length) = s := by
  rw [← List.length_append, List.drop_left]

theorem countLocations_of_cut (h : Cut defaultDir s pieces) (cnt : Int32) :
    countLocations s cnt = cnt + Int32.ofNat (pieces.length - 1) := by
  induction h generalizing cnt with
  | last hnone =>
    rw [countLocations_none (strstr_eq_none_iff.mpr hnone)]
    simp
  | @next p s pieces hfirst hrest ih =>
    obtain ⟨n, hn⟩ := Nat.exists_eq_succ_of_ne_zero (mt List.length_eq_zero_iff.mp hrest.ne_nil)
    rw [countLocations_some (strstr_first defaultDir_ne_nil hfirst s), drop_behind, ih, List.length_cons, hn,
      Nat.succ_sub_one, Nat.succ_sub_one, Int32.ofNat_add, Int32.add_assoc, Int32.add_comm 1 (Int32.ofNat n)]
    rfl

/-- In `size_t` the difference of the lengths may wrap, and the sum is the length of the result. -/
theorem locationDatalen_of_cut (h : Cut defaultDir s pieces) (hlen : (dir.intercalate pieces).length < 2 ^ 63)
    (hcnt : pieces.length - 1 < 2 ^ 31) : (locationDatalen s dir).toNat = (dir.intercalate pieces).length := by
  have hcast : (Int32.ofNat (pieces.length - 1)).toInt64.toUInt64 = UInt64.ofNat (pieces.length - 1) := by
    have hint : (Int32.ofNat (pieces.length - 1)).toInt64 = Int64.ofNat (pieces.length - 1) := by
      apply Int64.toInt.inj
      rw [Int32.toInt_toInt64, Int32.toInt_ofNat_of_lt hcnt, Int64.toInt_ofNat_of_lt (by omega)]
    rw [hint, Int64.toUInt64_ofNat']
  have hsum := congrArg UInt64.ofNat (h.length_replace dir)
  rw [locationDatalen, countLocations_of_cut h, Int32.zero_add, hcast]
  have hdatalen : UInt64.ofNat s.length + UInt64.ofNat (pieces.length - 1) *
      (UInt64.ofNat dir.length - UInt64.ofNat defaultDir.length) = UInt64.ofNat (dir.intercalate pieces).length := by
    simp only [UInt64.ofNat_add, UInt64.ofNat_mul] at hsum
    grind
  rw [hdatalen, UInt64.toNat_ofNat_of_lt' (hlen.trans (by decide))]

theorem copyLocations_none (h : strstr defaultDir s = none) (data : Str) (tempptr : Nat) :
    copyLocations dir data tempptr s = strcpyAt data tempptr s := by
  rw [copyLocations]
  split
  · rfl
  · rename_i i hi
    rw [h] at hi
    cases hi

theorem copyLocations_some {i : Nat} (h : strstr defaultDir s = some i) (data : Str) (tempptr : Nat) :
    copyLocations dir data tempptr s = (do
      let data ← strncpyAt data tempptr s i
      let data ← strncpyAt data (tempptr + i) dir dir.length
      copyLocations dir data (tempptr + i + dir.length) (s.drop (i + defaultDir.length))) := by
  conv_lhs => rw [copyLocations]
  split
  · rename_i hi
    rw [h] at hi
    cases hi
  · rename_i j hj
    rw [h, Option.some.injEq] at hj
    rw [hj]

/-- Behind what is written the second pass writes the result to the last byte. -/
theorem copyLocations_of_cut (h : Cut defaultDir s pieces) (written : Str) {rest : Str}
    (hrest : rest.length = (dir.intercalate pieces).length + 1) :
    copyLocations dir (written ++ rest) written.length s = some (written ++ dir.intercalate pieces ++ [0]) := by
  induction h generalizing written rest with
  | @last s hnone =>
    rw [List.intercalate_singleton] at hrest ⊢
    rw [copyLocations_none (strstr_eq_none_iff.mpr hnone), strcpyAt_append written (by omega),
      List.drop_of_length_le (by omega)]
  | @next p s pieces hfirst hcut ih =>
    rw [List.intercalate_cons_of_ne_nil hcut.ne_nil] at hrest ⊢
    rw [List.length_append, List.length_append] at hrest
    rw [copyLocations_some (strstr_first defaultDir_ne_nil hfirst s), drop_behind]
    have hskip : strncpyAt (written ++ rest) written.length (p ++ defaultDir ++ s) p.length =
        some (written ++ p ++ rest.drop p.length) := by
      rw [strncpyAt_append written (by simp) (by omega), List.append_assoc p, List.take_left]
    have hdir : strncpyAt (written ++ p ++ rest.drop p.length) (written.length + p.length) dir dir.length =
        some (written ++ p ++ dir ++ (rest.drop p.length).drop dir.length) := by
      rw [← List.length_append, strncpyAt_append (written ++ p) le_rfl (by rw [List.length_drop]; omega), List.take_length]
    have hlen : written.length + p.length + dir.length = (written ++ p ++ dir).length := by
      rw [List.length_append, List.length_append]
    have hleft : ((rest.drop p.length).drop dir.length).length = (dir.intercalate pieces).length + 1 := by
      rw [List.length_drop, List.length_drop]
      omega
    have hnext := ih (written ++ p ++ dir) hleft
    simp only [Option.bind_eq_bind, hskip, hdir, Option.bind_some, hlen]
    rw [hnext]
    simp only [List.append_assoc]

/-- A command has one cut at the macro. The result joins its pieces by the
directory, and takes the whole allocation. -/
theorem replaceRRDLocation_exact (junk : Nat → Byte) (commandStr dirLocation : Str) :
    ∃ pieces, Cut defaultDir commandStr pieces ∧ (∀ pieces', Cut defaultDir commandStr pieces' → pieces' = pieces) ∧
      replaceRRDLocation commandStr dirLocation = dirLocation.intercalate pieces ∧
      ((dirLocation.intercalate pieces).length < 2 ^ 63 → pieces.length - 1 < 2 ^ 31 →
        (locationDatalen commandStr dirLocation + 1).toNat = (dirLocation.intercalate pieces ++ [0]).length ∧
        replaceRRDLocationMem junk commandStr dirLocation = some (dirLocation.intercalate pieces ++ [0])) := by
  obtain ⟨pieces, hcut⟩ := Cut.exists_cut defaultDir_ne_nil commandStr
  refine ⟨pieces, hcut, fun pieces' hcut' => hcut'.unique defaultDir_ne_nil hcut, replaceRRDLocation_of_cut hcut,
    fun hlen hcnt => ?_⟩
  have hdatalen := locationDatalen_of_cut hcut hlen hcnt
  have hsize : (locationDatalen commandStr dirLocation + 1).toNat = (dirLocation.intercalate pieces).length + 1 := by
    rw [UInt64.toNat_add, hdatalen, UInt64.toNat_one, Nat.mod_eq_of_lt (by omega)]
  refine ⟨by rw [hsize, List.length_append]; rfl, ?_⟩
  rw [replaceRRDLocationMem, hsize]
  exact copyLocations_of_cut hcut [] (length_malloc ..)

/-- A directory shorter than the macro, in a command that has it twice. -/
theorem replaceRRDLocation_twice : replaceRRDLocationMem (fun _ => 1) (str "cp RRD_LOCATION/a RRD_LOCATION/b") (str "/tmp") =
    some (str "cp /tmp/a /tmp/b" ++ [0]) := by
  obtain ⟨pieces, hcut, -, hresult, hmem⟩ :=
    replaceRRDLocation_exact (fun _ => 1) (str "cp RRD_LOCATION/a RRD_LOCATION/b") (str "/tmp")
  have hjoined : (str "/tmp").intercalate pieces = str "cp /tmp/a /tmp/b" := by
    rw [← hresult]
    decide +kernel
  have hcnt : (pieces.length - 1) * 12 ≤ 32 := by
    have hlen := hcut.length_replace []
    have hdir : defaultDir.length = 12 := rfl
    have hcmd : (str "cp RRD_LOCATION/a RRD_LOCATION/b").length = 32 := by decide +kernel
    rw [hdir, hcmd, List.length_nil] at hlen
    omega
  rw [hjoined] at hmem
  exact (hmem (by decide +kernel) (by omega)).2

end RRD
