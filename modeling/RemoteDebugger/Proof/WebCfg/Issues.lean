import RemoteDebugger.Proof.Dispatch.List
import RemoteDebugger.Proof.WebCfg.Decoder

/-!
# The issue types of an array, from the payload to the tokens

The strings of an array are joined by commas in an allocation sized before, the
list is copied to another, and the copy is cut at its commas.

* `commandListMem_eq`: what is written is within the first allocation, and is `joinIssueTypes`;
* `issueTypeListMem_eq`: the copy is the whole list;
* `tokensOf_joinIssueTypes`: its tokens are those of the strings, in their order;
* `issueTypes_kept`: the three together.
-/

namespace RRD

open Framework

variable {arr : List MsgObject} {size n index : Nat} {s : Str}

/-! ## The command list -/

/-- The bytes that the array's strings and their commas can take. -/
def issueTypesRoom (arr : List MsgObject) : Nat := getReqTotalSizeOfIssueTypesStr arr - 1

theorem issueTypesRoom_str (s : MsgStr) (arr : List MsgObject) :
    issueTypesRoom (.str s :: arr) = s.size + 1 + issueTypesRoom arr := by
  simp [issueTypesRoom, getReqTotalSizeOfIssueTypesStr]
  omega

theorem issueTypesRoom_cons_le (o : MsgObject) (arr : List MsgObject) : issueTypesRoom arr ≤ issueTypesRoom (o :: arr) := by
  simp [issueTypesRoom, getReqTotalSizeOfIssueTypesStr]
  omega

theorem length_cstr_bytes (s : MsgStr) : (cstr s.bytes).length ≤ s.size := by
  refine (List.takeWhile_prefix _).length_le.trans ?_
  simp [MsgStr.bytes]

theorem notMem_cstr (b : List Byte) : 0 ∉ cstr b := fun h => by
  simpa using List.mem_takeWhile_imp h

theorem joinIssueTypes_fits (arr : List MsgObject) : (joinIssueTypes arr).length ≤ issueTypesRoom arr := by
  induction arr with
  | nil => exact Nat.zero_le _
  | cons o arr ih =>
    have hle := issueTypesRoom_cons_le o arr
    cases o with
    | str s =>
      have hbytes := length_cstr_bytes s
      have hcomma : (if arr = [] then [] else [ch ',']).length ≤ 1 := by split <;> simp
      rw [joinIssueTypes, List.length_append, List.length_append, issueTypesRoom_str]
      omega
    | _ => exact ih.trans hle

theorem notMem_joinIssueTypes (arr : List MsgObject) : 0 ∉ joinIssueTypes arr := by
  induction arr with
  | nil => exact List.not_mem_nil
  | cons o arr ih =>
    cases o with
    | str s =>
      have hcomma : 0 ∉ if arr = [] then [] else [ch ','] := by split <;> decide
      simp only [joinIssueTypes, List.mem_append, not_or]
      exact ⟨⟨notMem_cstr _, hcomma⟩, ih⟩
    | _ => exact ih

/-- The loop appends the strings that are left, where there is room for them. -/
theorem appendIssueTypes_zeroed (hs : 0 ∉ s) (hroom : s.length + issueTypesRoom arr < n)
    (hsize : index + arr.length = size) :
    appendIssueTypes size index arr (zeroed n s) = some (zeroed n (s ++ joinIssueTypes arr)) := by
  induction arr generalizing index s with
  | nil => simp [appendIssueTypes, joinIssueTypes]
  | cons o arr ih =>
    have hle := issueTypesRoom_cons_le o arr
    rw [List.length_cons] at hsize
    cases o with
    | str m =>
      have hbytes := length_cstr_bytes m
      rw [issueTypesRoom_str] at hroom
      have hstr : strncat (zeroed n s) (cstr m.bytes) m.size = some (zeroed n (s ++ cstr m.bytes)) := by
        have hfit : (s ++ (cstr m.bytes).take m.size).length < n := by
          rw [List.take_of_length_le hbytes, List.length_append]
          omega
        rw [strncat_zeroed _ hs hfit, List.take_of_length_le hbytes]
      have hnul : 0 ∉ s ++ cstr m.bytes := by simp [hs, notMem_cstr]
      rw [appendIssueTypes, hstr, joinIssueTypes]
      -- the comma is for all but the last object of the array
      by_cases hlast : arr = []
      · have hindex : ¬ index < size - 1 := by rw [hlast, List.length_nil] at hsize; omega
        subst hlast
        simp [hindex, appendIssueTypes, joinIssueTypes]
      · have hindex : index < size - 1 := by have := List.length_pos_iff.mpr hlast; omega
        have hcomma : strcat (zeroed n (s ++ cstr m.bytes)) [ch ','] = some (zeroed n (s ++ cstr m.bytes ++ [ch ','])) := by
          rw [strcat, strncat_zeroed _ hnul (by simp; omega)]
          rfl
        have hnul' : 0 ∉ s ++ cstr m.bytes ++ [ch ','] := by simp [hs, notMem_cstr]; decide
        have hrest : appendIssueTypes size (index + 1) arr (zeroed n (s ++ cstr m.bytes ++ [ch ','])) = _ :=
          ih hnul' (by simp; omega) (by omega)
        simp only [Option.bind_eq_bind, Option.bind_some, hindex, if_true, hcomma, hlast, if_false]
        rw [hrest]
        simp only [List.append_assoc]
    | _ => exact ih hs (by omega) (by omega)

theorem commandListMem_eq (arr : List MsgObject) :
    commandListMem arr = some (zeroed (getReqTotalSizeOfIssueTypesStr arr + 1) (joinIssueTypes arr)) := by
  have hfits := joinIssueTypes_fits arr
  have hroom : issueTypesRoom arr + 1 = getReqTotalSizeOfIssueTypesStr arr := rfl
  have hloop : appendIssueTypes arr.length 0 arr (zeroed (getReqTotalSizeOfIssueTypesStr arr + 1) []) = _ :=
    appendIssueTypes_zeroed List.not_mem_nil (by rw [List.length_nil]; omega) (Nat.zero_add _)
  have hcalloc : calloc (getReqTotalSizeOfIssueTypesStr arr + 1) = zeroed (getReqTotalSizeOfIssueTypesStr arr + 1) [] := rfl
  rw [commandListMem, hcalloc]
  simp only [Option.bind_eq_bind, hloop, Option.bind_some, List.nil_append]
  exact storeByte_zeroed (by omega) (Nat.lt_succ_self _)

/-! ## The copy -/

/-- A string no longer than the length that is given is copied whole. -/
theorem issueTypeListMem_eq (junk : Nat → Byte) {length : Nat} (hs : 0 ∉ s) (h : s.length ≤ length) :
    issueTypeListMem junk length (zeroed size s) = some (zeroed (length + 1) s) := by
  rw [issueTypeListMem, cstr_zeroed hs]
  exact strncpy_malloc junk h

/-! ## The tokens -/

/-- The pieces between the commas of a string, without the empty ones. -/
def issuePieces : MsgObject → List Str
  | .str s => tokensOf (ch ',') s.bytes
  | _ => []

theorem tokensOf_append_delimiter (d : Byte) (s t : Str) : tokensOf d (s ++ d :: t) = tokensOf d s ++ tokensOf d t := by
  rw [tokensOf, List.splitOn_append_cons_self, List.filter_append, tokensOf, tokensOf]

theorem tokensOf_joinIssueTypes (h : ∀ s, .str s ∈ arr → 0 ∉ s.bytes) :
    tokensOf (ch ',') (joinIssueTypes arr) = arr.flatMap issuePieces := by
  induction arr with
  | nil => rfl
  | cons o arr ih =>
    have ih := ih fun s hs => h s (List.mem_cons_of_mem _ hs)
    cases o with
    | str s =>
      have hbytes : cstr s.bytes = s.bytes := takeWhile_ne_of_notMem (h s (List.mem_cons_self ..))
      rw [joinIssueTypes, hbytes, List.flatMap_cons, ← ih, issuePieces]
      by_cases hlast : arr = []
      · subst hlast
        simp [joinIssueTypes, tokensOf]
      · rw [if_neg hlast, List.append_assoc, List.singleton_append, tokensOf_append_delimiter]
    | _ => exact ih

/-- Up to an empty token the splitter takes the parts between delimiters. -/
theorem issueTypeSplitter_nonempty (d : Byte) (s : Str) : (issueTypeSplitter s d).filter (· ≠ []) = tokensOf d s := by
  rw [issueTypeSplitter_eq, ← tokensOf_dropWhile]
  by_cases hnil : s.dropWhile (· = d) = []
  · rw [if_pos hnil, hnil]
    rfl
  · rw [if_neg hnil, tokensOf_dropWhile]
    simp [tokensOf]

/-- The list of an array's strings is written within its allocation, copied
whole, and cut to the pieces of the strings in their order. -/
theorem issueTypes_kept (junk : Nat → Byte) (h : ∀ s, .str s ∈ arr → 0 ∉ s.bytes) :
    ∃ commandList issueTypeList, commandListMem arr = some commandList ∧
      cstr commandList = joinIssueTypes arr ∧ 0 ∈ commandList ∧
      issueTypeListMem junk (getReqTotalSizeOfIssueTypesStr arr) commandList = some issueTypeList ∧
      cstr issueTypeList = cstr commandList ∧ 0 ∈ issueTypeList ∧
      (issueTypeSplitter (cstr issueTypeList) (ch ',')).filter (· ≠ []) = arr.flatMap issuePieces := by
  have hnul := notMem_joinIssueTypes arr
  have hfits := joinIssueTypes_fits arr
  have hroom : issueTypesRoom arr + 1 = getReqTotalSizeOfIssueTypesStr arr := rfl
  have hterminated {size : Nat} {s : Str} (hlt : s.length < size) : 0 ∈ zeroed size s :=
    List.mem_append_right _ (List.mem_replicate.mpr ⟨by omega, rfl⟩)
  refine ⟨_, _, commandListMem_eq arr, cstr_zeroed hnul, hterminated (by omega),
    issueTypeListMem_eq junk hnul (by omega), ?_, hterminated (by omega), ?_⟩
  · rw [cstr_zeroed hnul]
  · rw [cstr_zeroed hnul, issueTypeSplitter_nonempty, tokensOf_joinIssueTypes h]

/-- Two strings of a payload around an object that is none. -/
def mixedArray : List MsgObject := [sampleStr 29 6, .positiveInteger 7, sampleStr 18 9, .nil]

theorem issueTypes_kept_mixed : ∃ commandList issueTypeList, commandListMem mixedArray = some commandList ∧
    cstr commandList = joinIssueTypes mixedArray ∧ 0 ∈ commandList ∧
    issueTypeListMem (fun _ => 1) (getReqTotalSizeOfIssueTypesStr mixedArray) commandList = some issueTypeList ∧
    cstr issueTypeList = cstr commandList ∧ 0 ∈ issueTypeList ∧
    (issueTypeSplitter (cstr issueTypeList) (ch ',')).filter (· ≠ []) = mixedArray.flatMap issuePieces := by
  refine issueTypes_kept _ fun s hs => ?_
  simp only [mixedArray, sampleStr, List.mem_cons, MsgObject.str.injEq, reduceCtorEq, List.not_mem_nil, or_false,
    false_or] at hs
  rcases hs with rfl | rfl <;> decide

example : mixedArray.flatMap issuePieces = [str "Device", str "IssueType"] := by decide +kernel

end RRD
