import RemoteDebugger.Framework.Bytes

/-!
# Copies into a zeroed array

`strncpy` and `strncat` on an array of bytes, where they write within it.
`zeroed size s` is an array of zeros after a string was written to its start.

* `cstr_zeroed`: the string that the array holds;
* `strncpy_zeroed`, `strncat_zeroed`, `storeByte_zeroed`: a write into such an array leaves one;
* `strncpyAt_append`, `strcpyAt_append`, `strcpyAt_zeroed`: a copy behind what is written;
* `snprintfTo_zeroed`: a text that fits, with its terminator;
* `strncpy_malloc`: a bounded copy and a terminator make one of any array.
-/

namespace Framework

/-- `strncpy(buf, src, n)`: `n` bytes are written. -/
def strncpy (buf src : Str) (n : Nat) : Option Str :=
  if n ≤ buf.length then some (src.take n ++ List.replicate (n - src.length) 0 ++ buf.drop n) else none

/-- `strncat(buf, src, n)`: at most `n` bytes after the string in `buf`, and a terminator. -/
def strncat (buf src : Str) (n : Nat) : Option Str :=
  let s := cstr buf ++ src.take n
  if s.length < buf.length then some (s ++ 0 :: buf.drop (s.length + 1)) else none

def strcat (buf src : Str) : Option Str := strncat buf src src.length

/-- `strncpy(buf + off, src, n)`. -/
def strncpyAt (buf : Str) (off : Nat) (src : Str) (n : Nat) : Option Str :=
  (strncpy (buf.drop off) src n).map (buf.take off ++ ·)

/-- `strcpy(buf + off, src)`. -/
def strcpyAt (buf : Str) (off : Nat) (src : Str) : Option Str := strncpyAt buf off src (src.length + 1)

/-- `snprintf(buf, size, s)`. -/
def snprintfTo (buf : Str) (size : Nat) (s : Str) : Option Str :=
  if size = 0 then some buf else strcpyAt buf 0 (s.take (size - 1))

/-- `buf[i] = b`. -/
def storeByte (buf : Str) (i : Nat) (b : Byte) : Option Str := if i < buf.length then some (buf.set i b) else none

/-- `strlen(buf)`: a read beyond the array where no NUL is in it. -/
def strlen (buf : Str) : Option Nat := if 0 ∈ buf then some (cstr buf).length else none

/-- The memory that `calloc(1, size)` returns. -/
def calloc (size : Nat) : Str := List.replicate size 0

/-- The memory that `malloc(size)` returns, where it holds `junk`. -/
def malloc (junk : Nat → Byte) (size : Nat) : Str := (List.range size).map junk

/-- `strftime(buf + off, max, ..)` for a time with this text. What a text that does
not fit leaves behind `off` is not specified. -/
def strftimeAt (junk : Nat → Byte) (buf : Str) (off max : Nat) (text : Str) : Option Str :=
  if text.length < max then strcpyAt buf off text else some (buf.take off ++ malloc junk (buf.length - off))

/-- An array of `size` bytes: a string, and zeros. -/
def zeroed (size : Nat) (s : Str) : Str := s ++ List.replicate (size - s.length) 0

variable {size n : Nat} {s src : Str}

theorem length_zeroed (h : s.length ≤ size) : (zeroed size s).length = size := by
  rw [zeroed, List.length_append, List.length_replicate]
  omega

/-- An array of the size of the string. -/
theorem zeroed_succ (s : Str) : zeroed (s.length + 1) s = s ++ [0] := by
  rw [zeroed, Nat.add_sub_cancel_left]
  rfl

theorem cstr_zeroed (hs : 0 ∉ s) : cstr (zeroed size s) = s := by
  rw [zeroed]
  cases hzeros : size - s.length with
  | zero =>
    rw [List.replicate_zero, List.append_nil, cstr, takeWhile_ne_of_notMem hs]
  | succ k => exact cstr_append_zero hs

theorem strncpy_zeroed (src : Str) (h : n ≤ size) :
    strncpy (List.replicate size 0) src n = some (zeroed size (src.take n)) := by
  have hlen : n - src.length + (size - n) = size - min n src.length := by omega
  rw [strncpy, if_pos (by rwa [List.length_replicate]), zeroed, List.drop_replicate, List.append_assoc,
    List.replicate_append_replicate, hlen, List.length_take]

/-- A copy behind what is written. -/
theorem strncpyAt_append (s : Str) {src rest : Str} (hsrc : n ≤ src.length) (h : n ≤ rest.length) :
    strncpyAt (s ++ rest) s.length src n = some (s ++ src.take n ++ rest.drop n) := by
  rw [strncpyAt, List.drop_left, List.take_left, strncpy, if_pos h, Nat.sub_eq_zero_of_le hsrc, List.replicate_zero,
    List.append_nil, Option.map_some, List.append_assoc]

theorem strcpyAt_append (s : Str) {src rest : Str} (h : src.length < rest.length) :
    strcpyAt (s ++ rest) s.length src = some (s ++ src ++ 0 :: rest.drop (src.length + 1)) := by
  rw [strcpyAt, strncpyAt, List.drop_left, List.take_left, strncpy, if_pos (Nat.succ_le_of_lt h),
    List.take_of_length_le (Nat.le_succ _),
    Nat.add_sub_cancel_left, Option.map_some]
  simp

theorem strncat_zeroed (src : Str) (hs : 0 ∉ s) (h : (s ++ src.take n).length < size) :
    strncat (zeroed size s) src n = some (zeroed size (s ++ src.take n)) := by
  have hle : s.length ≤ (s ++ src.take n).length := by simp
  have hdrop : (zeroed size s).drop ((s ++ src.take n).length + 1) =
      List.replicate (size - ((s ++ src.take n).length + 1)) 0 := by
    have hrest : size - s.length - ((s ++ src.take n).length + 1 - s.length) = size - ((s ++ src.take n).length + 1) := by
      omega
    rw [zeroed, List.drop_append, List.drop_of_length_le (by omega), List.nil_append, List.drop_replicate, hrest]
  have hzeros : size - (s ++ src.take n).length = size - ((s ++ src.take n).length + 1) + 1 := by omega
  rw [strncat, cstr_zeroed hs, length_zeroed (by omega)]
  rw [if_pos h, hdrop, zeroed, hzeros, List.replicate_succ]

theorem storeByte_zeroed {i : Nat} (hs : s.length ≤ i) (h : i < size) :
    storeByte (zeroed size s) i 0 = some (zeroed size s) := by
  have hset : (zeroed size s).set i 0 = zeroed size s := by
    rw [zeroed, List.set_append_right _ _ hs, List.set_replicate_self]
  rw [storeByte, length_zeroed (by omega), if_pos h, hset]

theorem calloc_eq (size : Nat) : calloc size = zeroed size [] := rfl

/-- A string behind the one that the array holds. -/
theorem strcpyAt_zeroed {s src : Str} (h : (s ++ src).length < size) :
    strcpyAt (zeroed size s) s.length src = some (zeroed size (s ++ src)) := by
  rw [List.length_append] at h
  rw [zeroed, strcpyAt_append s (by rw [List.length_replicate]; omega), List.drop_replicate, zeroed]
  have hzeros : size - (s ++ src).length = size - s.length - (src.length + 1) + 1 := by
    rw [List.length_append]
    omega
  rw [hzeros, List.replicate_succ]

/-- A text that is not cut. -/
theorem snprintfTo_eq {buf s : Str} (hn : s.length < n) : snprintfTo buf n s = strcpyAt buf 0 s := by
  rw [snprintfTo, if_neg (Nat.ne_of_gt (Nat.zero_lt_of_lt hn)), List.take_of_length_le (Nat.le_sub_one_of_lt hn)]

/-- A text that fits both the array and the size that is given for it. -/
theorem snprintfTo_zeroed {s : Str} (hn : s.length < n) (h : s.length < size) :
    snprintfTo (calloc size) n s = some (zeroed size s) := by
  rw [snprintfTo_eq hn, calloc_eq]
  exact strcpyAt_zeroed (s := []) h

theorem snprintfTo_append {s rest : Str} (hn : s.length < n) (h : s.length < rest.length) :
    snprintfTo rest n s = some (s ++ 0 :: rest.drop (s.length + 1)) := by
  rw [snprintfTo_eq hn]
  exact strcpyAt_append [] h

/-- A text that does not fit the array is written beyond it. -/
theorem snprintfTo_eq_none {buf s : Str} (hn : s.length < n) (h : buf.length ≤ s.length) : snprintfTo buf n s = none := by
  rw [snprintfTo_eq hn, strcpyAt, strncpyAt, strncpy, if_neg (by rw [List.drop_zero]; omega), Option.map_none]

theorem length_strncpy {buf src buf' : Str} (h : strncpy buf src n = some buf') : buf'.length = buf.length := by
  obtain ⟨hn, h⟩ := Option.ite_none_right_eq_some.mp h
  obtain rfl := Option.some.inj h
  simp only [List.length_append, List.length_take, List.length_replicate, List.length_drop]
  omega

theorem length_strncat {buf src buf' : Str} (h : strncat buf src n = some buf') : buf'.length = buf.length := by
  obtain ⟨hn, h⟩ := Option.ite_none_right_eq_some.mp h
  obtain rfl := Option.some.inj h
  rw [List.length_append, List.length_cons, List.length_drop]
  omega

/-- A string and its terminator are within the array. -/
theorem length_cstr_lt {buf : Str} (h : 0 ∈ buf) : (cstr buf).length < buf.length := by
  refine Nat.lt_of_le_of_ne (List.takeWhile_prefix _).length_le fun hlen => ?_
  have hcstr : cstr buf = buf := (List.takeWhile_prefix _).eq_of_length hlen
  rw [← hcstr] at h
  exact absurd (List.mem_takeWhile_imp h) (by decide)

theorem zero_mem_zeroed (h : s.length < size) : 0 ∈ zeroed size s :=
  List.mem_append_right _ (List.mem_replicate.mpr ⟨by omega, rfl⟩)

theorem strlen_zeroed (hs : 0 ∉ s) (h : s.length < size) : strlen (zeroed size s) = some s.length := by
  rw [strlen, if_pos (zero_mem_zeroed h), cstr_zeroed hs]

theorem length_malloc (junk : Nat → Byte) (size : Nat) : (malloc junk size).length = size := by simp [malloc]

/-- `strncpy` of `n` bytes, and a terminator after them. -/
theorem strncpy_malloc (junk : Nat → Byte) (h : s.length ≤ n) :
    ((strncpy (malloc junk (n + 1)) s n).bind fun buf => storeByte buf n 0) = some (zeroed (n + 1) s) := by
  obtain ⟨b, hlast⟩ : ∃ b, (malloc junk (n + 1)).drop n = [b] :=
    List.length_eq_one_iff.mp (by rw [List.length_drop, length_malloc]; omega)
  have hlen : (s ++ List.replicate (n - s.length) (0 : Byte)).length = n := by
    rw [List.length_append, List.length_replicate]
    omega
  have hzeros : n + 1 - s.length = n - s.length + 1 := by omega
  rw [strncpy, length_malloc, if_pos n.le_succ, hlast, List.take_of_length_le h, Option.bind_some, storeByte,
    if_pos (by rw [List.length_append, hlen, List.length_singleton]; exact n.lt_succ_self),
    List.set_append_right _ _ hlen.le, hlen, Nat.sub_self, List.set_cons_zero, zeroed, hzeros, List.replicate_succ',
    List.append_assoc]

end Framework
