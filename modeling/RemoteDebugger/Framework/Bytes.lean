import Mathlib.Data.List.Infix
import Mathlib.Data.List.TakeWhile
import Mathlib.Data.Vector.Defs

/-!
# Bytes and C strings

A C string is its bytes without the terminator (`Str`). `buffer n s` is a
zeroed array of `n` bytes after a bounded copy of `s` that leaves room for the
terminator (`strncpy` with `n - 1`, or `snprintf` with `n`), and `cstr` reads a
string back from an array, up to its first NUL or its end: `cstr_buffer`. The
part of a string before a byte is `n` exactly when the string is `n` or starts
with `n` and that byte: `takeWhile_ne_eq_iff`.
-/

namespace Framework

abbrev Byte := UInt8

/-- A C string, without its terminator. -/
abbrev Str := List Byte

/-- The code of an ASCII character. -/
def ch (c : Char) : Byte := c.toNat.toUInt8

/-- The bytes of an ASCII literal. -/
def str (s : String) : Str := s.toList.map ch

/-- A property of the 256 bytes can be tested. -/
theorem forall_byte {p : Byte → Prop} (h : ∀ n : Fin 256, p (UInt8.ofFin n)) (b : Byte) : p b :=
  UInt8.ofFin_toFin b ▸ h b.toFin

/-- The string an array holds: its bytes up to the first NUL, or up to its end. -/
def cstr (b : List Byte) : Str := b.takeWhile (· ≠ 0)

/-- A zeroed array of `n` bytes after a copy of `s` cut to `n - 1` bytes. -/
def buffer (n : Nat) (s : Str) : List.Vector Byte n :=
  ⟨s.take (n - 1) ++ List.replicate (n - min (n - 1) s.length) 0, by
    rw [List.length_append, List.length_take, List.length_replicate]
    omega⟩

theorem buffer_toList (n : Nat) (s : Str) :
    (buffer n s).toList = s.take (n - 1) ++ List.replicate (n - min (n - 1) s.length) 0 := rfl

/-! ## Up to a byte -/

theorem decide_ne_of_notMem {d : Byte} {s : Str} (h : d ∉ s) : ∀ b ∈ s, decide (b ≠ d) = true := fun _ hb =>
  decide_eq_true fun e => h (e ▸ hb)

theorem takeWhile_ne_append {d : Byte} {s : Str} (h : d ∉ s) (t : Str) :
    (s ++ t).takeWhile (· ≠ d) = s ++ t.takeWhile (· ≠ d) := List.takeWhile_append_of_pos (decide_ne_of_notMem h)

theorem takeWhile_ne_of_notMem {d : Byte} {s : Str} (h : d ∉ s) : s.takeWhile (· ≠ d) = s :=
  List.takeWhile_eq_self_iff.mpr (decide_ne_of_notMem h)

theorem dropWhile_ne_of_notMem {d : Byte} {s : Str} (h : d ∉ s) : s.dropWhile (· ≠ d) = [] :=
  List.dropWhile_eq_nil_iff.mpr (decide_ne_of_notMem h)

theorem cstr_append_zero {s t : Str} (h : 0 ∉ s) : cstr (s ++ 0 :: t) = s := by
  rw [cstr, takeWhile_ne_append h]
  simp

/-- A string of fewer than `n` bytes is read back whole from its array. -/
theorem cstr_buffer {n : Nat} (hn : 0 < n) {s : Str} (h : 0 ∉ s) :
    cstr (buffer n s).toList = s.take (n - 1) := by
  obtain ⟨k, hk⟩ : ∃ k, n - min (n - 1) s.length = k + 1 := ⟨n - min (n - 1) s.length - 1, by omega⟩
  rw [buffer_toList, hk, List.replicate_succ]
  exact cstr_append_zero fun h0 => h (List.mem_of_mem_take h0)

theorem takeWhile_ne_eq_iff {d : Byte} {n v : Str} (h : d ∉ n) :
    v.takeWhile (· ≠ d) = n ↔ v = n ∨ n ++ [d] <+: v := by
  constructor
  · rintro rfl
    rcases hd : v.dropWhile (· ≠ d) with _ | ⟨b, t⟩
    · exact .inl (List.takeWhile_eq_self_iff.mpr (List.dropWhile_eq_nil_iff.mp hd)).symm
    · have hne : v.dropWhile (· ≠ d) ≠ [] := hd ▸ List.cons_ne_nil b t
      have hhead := List.head_dropWhile_not _ hne
      simp only [hd, List.head_cons] at hhead
      have hb : b = d := not_not.mp (of_decide_eq_false hhead)
      refine .inr ⟨t, ?_⟩
      rw [List.append_assoc, List.singleton_append, ← hb, ← hd, hb, List.takeWhile_append_dropWhile]
  · rintro (rfl | ⟨t, rfl⟩)
    · exact takeWhile_ne_of_notMem h
    · rw [List.append_assoc, takeWhile_ne_append h]
      simp

/-! ## Splitting -/

theorem notMem_of_mem_splitOn {d : Byte} {s t : Str} (h : t ∈ s.splitOn d) : d ∉ t := by
  induction s generalizing t with
  | nil =>
    rw [List.splitOn_nil, List.mem_singleton] at h
    exact h ▸ List.not_mem_nil
  | cons b s ih =>
    rw [List.splitOn_cons_eq_if_modifyHead] at h
    split at h
    · rcases List.mem_cons.mp h with rfl | h
      · exact List.not_mem_nil
      · exact ih h
    · rename_i hb
      obtain ⟨head, tail, htail⟩ := List.exists_cons_of_ne_nil (List.splitOn_ne_nil d s)
      rw [htail, List.modifyHead_cons] at h
      rcases List.mem_cons.mp h with rfl | h
      · have hhead : d ∉ head := ih (htail ▸ List.mem_cons_self)
        simpa [hhead] using fun e => hb (by simp [e])
      · exact ih (htail ▸ List.mem_cons_of_mem _ h)

end Framework
