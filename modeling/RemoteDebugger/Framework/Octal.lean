import Mathlib.Algebra.Ring.Nat
import Mathlib.Data.Nat.Log
import RemoteDebugger.Framework.Bytes

/-!
# Octal numerals in fixed-width fields

`print w n` is `printf`'s `%0wo`: at least `w` digits, more when `n` needs
them. A field of `w + 1` bytes keeps the first `w` of them
(`value_buffer_print`), which denote `n` itself exactly when `n < 8 ^ w`.
-/

namespace Framework.Octal

/-- The last `k` octal digits of `n`. -/
def digits : Nat → Nat → Str
  | 0, _ => []
  | k + 1, n => digits k (n / 8) ++ [UInt8.ofNat (48 + n % 8)]

def isDigit (b : Byte) : Bool := 48 ≤ b && b ≤ 55

/-- The number that a string of octal digits denotes. -/
def value (s : Str) : Nat := s.foldl (fun a b => 8 * a + (b.toNat - 48)) 0

/-- The number of digits `%0wo` prints for `n`. -/
def width (w n : Nat) : Nat := max w (Nat.log 8 n + 1)

/-- `%0wo`. -/
def print (w n : Nat) : Str := digits (width w n) n

/-- The number at the start of a field. -/
def parse (b : List Byte) : Nat := value (b.takeWhile isDigit)

@[simp] theorem length_digits (k n : Nat) : (digits k n).length = k := by
  induction k generalizing n with
  | zero => rfl
  | succ k ih => simp [digits, ih]

theorem digit_toNat (n : Nat) : (UInt8.ofNat (48 + n % 8)).toNat = 48 + n % 8 := by
  simp only [UInt8.toNat_ofNat']
  omega

theorem isDigit_digits (k n : Nat) : ∀ b ∈ digits k n, isDigit b = true := by
  induction k generalizing n with
  | zero => simp [digits]
  | succ k ih =>
    intro b hb
    rcases List.mem_append.mp hb with hb | hb
    · exact ih _ b hb
    · rw [List.mem_singleton.mp hb]
      have := digit_toNat n
      simp only [isDigit, Bool.and_eq_true, decide_eq_true_eq, UInt8.le_iff_toNat_le, this]
      exact ⟨Nat.le_add_right 48 _, by have := Nat.mod_lt n (by decide : 8 > 0); simp; omega⟩

theorem value_append (s : Str) (b : Byte) : value (s ++ [b]) = 8 * value s + (b.toNat - 48) := by
  simp [value]

theorem value_digits (k n : Nat) : value (digits k n) = n % 8 ^ k := by
  induction k generalizing n with
  | zero => simp [digits, value, Nat.mod_one]
  | succ k ih =>
    rw [digits, value_append, ih, digit_toNat, Nat.pow_succ', Nat.mod_mul]
    omega

/-- The first `j` of `k` digits are those of the number without its last `k - j`. -/
theorem take_digits {j k : Nat} (h : j ≤ k) (n : Nat) :
    (digits k n).take j = digits j (n / 8 ^ (k - j)) := by
  induction k generalizing n with
  | zero =>
    obtain rfl : j = 0 := by omega
    simp [digits]
  | succ k ih =>
    rcases Nat.lt_or_eq_of_le h with h | rfl
    · rw [digits, List.take_append_of_le_length (by rw [length_digits]; omega), ih (by omega),
        Nat.div_div_eq_div_mul, ← Nat.pow_succ', show (k - j).succ = k + 1 - j by omega]
    · rw [List.take_of_length_le (by rw [length_digits]), Nat.sub_self, Nat.pow_zero, Nat.div_one]

theorem le_width (w n : Nat) : w ≤ width w n := le_max_left _ _

theorem lt_pow_width (w n : Nat) : n < 8 ^ width w n :=
  (Nat.lt_pow_succ_log_self (by decide) n).trans_le (Nat.pow_le_pow_right (by decide) (le_max_right _ _))

/-- Numbers that fit a width are printed in exactly that width. -/
theorem width_of_lt {w n : Nat} (hw : 0 < w) (h : n < 8 ^ w) : width w n = w := by
  have : Nat.log 8 n < w := Nat.log_lt_of_lt_pow' (by omega) h
  unfold width
  omega

/-- What a field of `w + 1` bytes keeps of a printed number: its first `w` digits. -/
def kept (w n : Nat) : Nat := n / 8 ^ (width w n - w)

theorem kept_of_lt {w n : Nat} (hw : 0 < w) (h : n < 8 ^ w) : kept w n = n := by
  rw [kept, width_of_lt hw h, Nat.sub_self, Nat.pow_zero, Nat.div_one]

theorem kept_lt (w n : Nat) : kept w n < 8 ^ w := by
  have h := lt_pow_width w n
  rw [kept, Nat.div_lt_iff_lt_mul (Nat.pow_pos (by decide)), ← Nat.pow_add,
    Nat.add_sub_cancel' (le_width w n)]
  exact h

/-- A field holds exactly the numbers of its width. -/
theorem kept_eq_iff {w n : Nat} (hw : 0 < w) : kept w n = n ↔ n < 8 ^ w :=
  ⟨fun h => h ▸ kept_lt w n, kept_of_lt hw⟩

theorem kept_pos {w n : Nat} (hw : 0 < w) (h : 0 < n) : 0 < kept w n := by
  refine Nat.div_pos ?_ (Nat.pow_pos (by decide))
  refine (Nat.pow_le_pow_right (by decide) ?_).trans (Nat.pow_log_le_self 8 (by omega))
  unfold width
  omega

theorem parse_append {s t : Str} (hs : ∀ b ∈ s, isDigit b = true) (ht : ∀ b ∈ t.head?, isDigit b = false) :
    parse (s ++ t) = value s := by
  rw [parse, List.takeWhile_append_of_pos hs]
  cases t with
  | nil => simp
  | cons b t => simp [ht b (by simp)]

theorem take_print (w n : Nat) : (print w n).take w = digits w (kept w n) :=
  take_digits (le_width w n) n

/-- A number read back from the field it was printed to. -/
theorem parse_buffer_print (w n : Nat) : parse (buffer (w + 1) (print w n)).toList = kept w n := by
  rw [buffer_toList, Nat.add_sub_cancel, take_print, parse_append (isDigit_digits _ _), value_digits,
    Nat.mod_eq_of_lt (kept_lt w n)]
  intro b hb
  have : min w (print w n).length = w := min_eq_left (by simpa [print] using le_width w n)
  rw [this, Nat.add_sub_cancel_left] at hb
  simp only [List.replicate_one, List.head?_cons, Option.mem_some_iff] at hb
  exact hb ▸ rfl

end Framework.Octal
