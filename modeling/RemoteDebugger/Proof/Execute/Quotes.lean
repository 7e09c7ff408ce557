import RemoteDebugger.Impl.Execute

/-!
# Printed strings

`removeQuotes` undoes of the printer's escapes only the one of the quote.

* `removeQuotes_printString`: it leaves the other escapes as they are;
* `removeQuotes_printString_iff`: when it gives back the string that was printed.
-/

namespace RRD

open Framework

variable {t rest s : Str}

/-! ## The loop -/

theorem unescapeQuotes_quote (s : Str) : unescapeQuotes (backslash :: quote :: s) = quote :: unescapeQuotes s := by
  rw [unescapeQuotes, if_pos ⟨rfl, rfl⟩]

theorem unescapeQuotes_skip {a b : Byte} (h : ¬ (a = backslash ∧ b = quote)) (s : Str) :
    unescapeQuotes (a :: b :: s) = a :: unescapeQuotes (b :: s) := by
  rw [unescapeQuotes, if_neg h]

/-- Text without quotes is kept, if no quote follows it. -/
theorem unescapeQuotes_append (ht : quote ∉ t) (hrest : rest.head? ≠ some quote) :
    unescapeQuotes (t ++ rest) = t ++ unescapeQuotes rest := by
  induction t with
  | nil => rfl
  | cons a t ih =>
    have ht' : quote ∉ t := fun h => ht (List.mem_cons_of_mem _ h)
    rw [List.cons_append, List.cons_append, ← ih ht']
    cases htail : t ++ rest with
    | nil => rfl
    | cons b s =>
      refine unescapeQuotes_skip (fun h => ?_) s
      cases t with
      | nil => exact hrest (by rw [show rest = b :: s from htail, h.2]; rfl)
      | cons c t => exact ht' (by rw [← h.2, ← (List.cons.inj htail).1]; exact List.mem_cons_self)

/-! ## Escapes -/

/-- Only the escape of the quote has a quote, at its end; every escape has two bytes at least. -/
theorem escapeByte_cases (b : Byte) :
    (b = quote ∧ escapeByte b = [backslash, quote]) ∨
    (b ≠ quote ∧ b ≠ backslash ∧ 32 ≤ b ∧ escapeByte b = [b]) ∨
    (b ≠ quote ∧ ¬ (b ≠ backslash ∧ 32 ≤ b) ∧ quote ∉ escapeByte b ∧ 2 ≤ (escapeByte b).length) := by
  revert b
  refine forall_byte ?_
  decide +kernel

theorem head_escapeByte (b : Byte) : ∃ a t, escapeByte b = a :: t ∧ a ≠ quote := by
  rcases escapeByte_cases b with ⟨-, h⟩ | ⟨hb, -, -, h⟩ | ⟨-, -, hquote, hlen⟩
  · exact ⟨_, _, h, by decide⟩
  · exact ⟨_, _, h, hb⟩
  · cases hescape : escapeByte b with
    | nil =>
      rw [hescape] at hlen
      cases hlen
    | cons a t =>
      rw [hescape] at hquote
      exact ⟨a, t, rfl, fun e => hquote (e ▸ List.mem_cons_self)⟩

theorem head_flatMap_escapeByte (s : Str) : (s.flatMap escapeByte).head? ≠ some quote := by
  cases s with
  | nil => simp
  | cons b s =>
    obtain ⟨a, t, hescape, ha⟩ := head_escapeByte b
    rw [List.flatMap_cons, hescape, List.cons_append, List.head?_cons]
    exact fun h => ha (Option.some.inj h)

/-- What is left of a byte. -/
def deliveredByte (b : Byte) : Str := if b = quote then [quote] else escapeByte b

theorem unescapeQuotes_flatMap (s : Str) : unescapeQuotes (s.flatMap escapeByte) = s.flatMap deliveredByte := by
  induction s with
  | nil => rfl
  | cons b s ih =>
    rw [List.flatMap_cons, List.flatMap_cons, ← ih]
    rcases escapeByte_cases b with ⟨rfl, h⟩ | ⟨hb, -, -, h⟩ | ⟨hb, -, hquote, -⟩
    · rw [h]
      exact unescapeQuotes_quote _
    · rw [deliveredByte, if_neg hb, h]
      exact unescapeQuotes_append (by simpa using hb.symm) (head_flatMap_escapeByte s)
    · rw [deliveredByte, if_neg hb]
      exact unescapeQuotes_append hquote (head_flatMap_escapeByte s)

theorem removeQuotes_printString (s : Str) : removeQuotes (printString s) = s.flatMap deliveredByte := by
  have hlen : 2 ≤ (printString s).length := by simp [printString]
  have hlast : (printString s).getLast? = some quote := by rw [printString, List.getLast?_concat]
  have hcut : (printString s).tail.dropLast = s.flatMap escapeByte := by
    rw [printString, List.cons_append, List.tail_cons, List.dropLast_concat]
  rw [removeQuotes, if_pos ⟨hlen, rfl, hlast⟩, hcut, unescapeQuotes_flatMap]

/-! ## Strings that are delivered -/

theorem flatMap_eq_self_iff {f : Byte → Str} (h : ∀ b, f b = [b] ∨ 2 ≤ (f b).length) :
    s.flatMap f = s ↔ ∀ b ∈ s, f b = [b] := by
  have hlen (s : Str) : s.length ≤ (s.flatMap f).length := by
    induction s with
    | nil => exact Nat.le_refl _
    | cons b s ih =>
      have hone : 1 ≤ (f b).length := (h b).elim (fun e => by rw [e, List.length_singleton]) Nat.le_of_succ_le
      rw [List.flatMap_cons, List.length_append, List.length_cons]
      omega
  induction s with
  | nil => simp
  | cons b s ih =>
    rw [List.flatMap_cons, List.forall_mem_cons]
    constructor
    · intro heq
      rcases h b with hb | hb
      · rw [hb] at heq
        exact ⟨hb, ih.mp (List.append_cancel_left heq)⟩
      · have hle := hlen s
        have hsum := congrArg List.length heq
        rw [List.length_append, List.length_cons] at hsum
        omega
    · rintro ⟨hb, hs⟩
      rw [hb, ih.mpr hs]
      rfl

theorem deliveredByte_cases (b : Byte) : deliveredByte b = [b] ∧ (b ≠ backslash ∧ 32 ≤ b) ∨
    2 ≤ (deliveredByte b).length ∧ ¬ (b ≠ backslash ∧ 32 ≤ b) := by
  rw [deliveredByte]
  rcases escapeByte_cases b with ⟨rfl, -⟩ | ⟨hb, hslash, hprint, h⟩ | ⟨hb, hbad, -, hlen⟩
  · exact .inl ⟨rfl, by decide, by decide⟩
  · exact .inl ⟨by rw [if_neg hb, h], hslash, hprint⟩
  · exact .inr ⟨by rwa [if_neg hb], hbad⟩

/-- A string is delivered as it was written if it has no backslash and no control character. -/
theorem removeQuotes_printString_iff (s : Str) :
    removeQuotes (printString s) = s ↔ ∀ b ∈ s, b ≠ backslash ∧ 32 ≤ b := by
  rw [removeQuotes_printString, flatMap_eq_self_iff fun b => (deliveredByte_cases b).imp And.left And.left]
  refine forall₂_congr fun b _ => ?_
  rcases deliveredByte_cases b with ⟨h, hok⟩ | ⟨hlen, hbad⟩
  · exact iff_of_true h hok
  · refine iff_of_false (fun h => ?_) hbad
    rw [h, List.length_singleton] at hlen
    exact absurd hlen (by decide)

/-- A backslash arrives twice. -/
theorem backslash_doubled : removeQuotes (printString (str "grep -c 'a\\.b' /tmp/x")) ≠ str "grep -c 'a\\.b' /tmp/x" := by
  decide +kernel

end RRD
