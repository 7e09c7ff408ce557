import RemoteDebugger.Impl.Sanity

/-!
# Patterns in a rewritten command

A pattern without `&` and `;` is in a rewritten command exactly when it is in the
command itself, or when the space that `&;` leaves makes it (`infix_update_iff`).
-/

namespace RRD

open Framework

/-- A pattern that no rewriting of `&;` and no joint of commands can touch. -/
structure Plain (p : Str) : Prop where
  notMem_amp : ch '&' ∉ p
  notMem_semicolon : ch ';' ∉ p

/-- The rewriting makes the pattern `p` of `&;` and the text after it. -/
def Spliced (p c : Str) : Prop := ∃ r, p = ch ' ' :: r ∧ ch '&' :: ch ';' :: r <:+: c

/-! ## Infixes of a longer string -/

section Infix

variable {a : Byte} {p l : Str}

/-- A pattern that does not start with `a` is after it. -/
theorem infix_cons_of_notMem (h : a ∉ p) : p <:+: a :: l ↔ p <:+: l := by
  refine ⟨fun hp => ?_, fun hp => hp.trans (List.suffix_cons a l).isInfix⟩
  rcases List.infix_cons_iff.mp hp with hp | hp
  · cases p with
    | nil => exact List.nil_infix
    | cons b p =>
      obtain ⟨rfl, -⟩ := List.cons_prefix_cons.mp hp
      exact absurd (List.mem_cons_self ..) h
  · exact hp

/-- A pattern without `a` is on one side of it. -/
theorem infix_append_cons_iff {s : Str} (h : a ∉ p) : p <:+: s ++ a :: l ↔ p <:+: s ∨ p <:+: a :: l := by
  refine ⟨fun hp => ?_, fun hp => ?_⟩
  · induction s with
    | nil => exact .inr hp
    | cons b s ih =>
      rcases List.infix_cons_iff.mp hp with hp | hp
      · -- a prefix that reaches `a` has it
        by_cases hlen : p.length ≤ (b :: s).length
        · exact .inl (List.prefix_of_prefix_length_le hp (List.prefix_append (b :: s) _) hlen).isInfix
        · have hle : (b :: s ++ [a]).length ≤ p.length := by
            rw [List.length_append, List.length_singleton]
            omega
          have hpre : b :: s ++ [a] <+: b :: s ++ a :: l := ⟨l, by simp⟩
          have hap := List.prefix_of_prefix_length_le hpre hp hle
          exact absurd (hap.subset (by simp)) h
      · exact (ih hp).imp_left fun hs => hs.trans (List.suffix_cons b s).isInfix
  · rcases hp with hp | hp
    · exact hp.trans (List.prefix_append ..).isInfix
    · exact hp.trans (List.suffix_append ..).isInfix

end Infix

/-! ## The rewriting -/

section Update

variable {a b : Byte} {p c : Str}

theorem Plain.tail (h : Plain (a :: p)) : Plain p :=
  ⟨fun hm => h.notMem_amp (List.mem_cons_of_mem _ hm), fun hm => h.notMem_semicolon (List.mem_cons_of_mem _ hm)⟩

theorem Plain.head_ne_amp (h : Plain (a :: p)) : a ≠ ch '&' := fun e => h.notMem_amp (e ▸ List.mem_cons_self ..)

theorem updateBackgroundCmd_splice (c : Str) :
    updateBackgroundCmd (ch '&' :: ch ';' :: c) = ch '&' :: ch ' ' :: updateBackgroundCmd c := by
  rw [updateBackgroundCmd, if_pos ⟨rfl, rfl⟩]

theorem updateBackgroundCmd_skip (h : ¬ (a = ch '&' ∧ b = ch ';')) (c : Str) :
    updateBackgroundCmd (a :: b :: c) = a :: updateBackgroundCmd (b :: c) := by
  rw [updateBackgroundCmd, if_neg h]

theorem updateBackgroundCmd_short (h : ∀ a b s, c = a :: b :: s → False) : updateBackgroundCmd c = c := by
  match c, h with
  | [], _ => rfl
  | [a], _ => rfl
  | a :: b :: c, h => exact absurd rfl (h a b c)

theorem updateBackgroundCmd_cons (h : a ≠ ch '&') (c : Str) :
    updateBackgroundCmd (a :: c) = a :: updateBackgroundCmd c := by
  cases c with
  | nil => rfl
  | cons b c => exact updateBackgroundCmd_skip (fun hab => h hab.1) c

theorem updateBackgroundCmd_of_notMem (h : ch '&' ∉ c) : updateBackgroundCmd c = c := by
  induction c with
  | nil => rfl
  | cons a c ih =>
    obtain ⟨ha, hc⟩ := not_or.mp (mt List.mem_cons.mpr h)
    rw [updateBackgroundCmd_cons (Ne.symm ha), ih hc]

/-- A byte at the end that is not a semicolon stays. -/
theorem updateBackgroundCmd_concat (h : a ≠ ch ';') (c : Str) :
    updateBackgroundCmd (c ++ [a]) = updateBackgroundCmd c ++ [a] := by
  induction c using updateBackgroundCmd.induct with
  | case1 x y c hxy ih =>
    obtain ⟨rfl, rfl⟩ := hxy
    show updateBackgroundCmd (ch '&' :: ch ';' :: (c ++ [a])) = _
    rw [updateBackgroundCmd_splice, updateBackgroundCmd_splice, ih]
    rfl
  | case2 x y c hxy ih =>
    show updateBackgroundCmd (x :: y :: (c ++ [a])) = _
    rw [updateBackgroundCmd_skip hxy, updateBackgroundCmd_skip hxy]
    exact congrArg (x :: ·) ih
  | case3 c hc =>
    rw [updateBackgroundCmd_short hc]
    match c, hc with
    | [], _ => rfl
    | [x], _ => exact updateBackgroundCmd_skip (fun hxa => h hxa.2) []
    | x :: y :: c, hc => exact absurd rfl (hc x y c)

/-- What a command starts with: the rewriting does not touch it. -/
theorem prefix_update_iff (h : Plain p) : p <+: updateBackgroundCmd c ↔ p <+: c := by
  induction c using updateBackgroundCmd.induct generalizing p with
  | case1 x y c hxy ih =>
    obtain ⟨rfl, rfl⟩ := hxy
    rw [updateBackgroundCmd_splice]
    cases p with
    | nil => simp
    | cons b p => simp [List.cons_prefix_cons, h.head_ne_amp]
  | case2 x y c hxy ih =>
    rw [updateBackgroundCmd_skip hxy]
    cases p with
    | nil => simp
    | cons b p => rw [List.cons_prefix_cons, List.cons_prefix_cons, ih h.tail]
  | case3 c hc => rw [updateBackgroundCmd_short hc]

theorem Spliced.cons (h : ¬ (a = ch '&' ∧ c.head? = some (ch ';'))) : Spliced p (a :: c) ↔ Spliced p c := by
  refine exists_congr fun r => and_congr_right fun _ => ?_
  rw [List.infix_cons_iff]
  refine or_iff_right fun hr => h ?_
  obtain ⟨ha, hr⟩ := List.cons_prefix_cons.mp hr
  obtain ⟨t, rfl⟩ := hr
  exact ⟨ha.symm, rfl⟩

/-- Where a plain pattern is in a rewritten command. -/
theorem infix_update_iff (h : Plain p) : p <:+: updateBackgroundCmd c ↔ p <:+: c ∨ Spliced p c := by
  induction c using updateBackgroundCmd.induct with
  | case1 x y c hxy ih =>
    obtain ⟨rfl, rfl⟩ := hxy
    have hskip : p <:+: ch '&' :: ch ';' :: c ↔ p <:+: c := by
      rw [infix_cons_of_notMem h.notMem_amp, infix_cons_of_notMem h.notMem_semicolon]
    have hsplice : Spliced p (ch '&' :: ch ';' :: c) ↔ (∃ r, p = ch ' ' :: r ∧ r <+: c) ∨ Spliced p c := by
      rw [Spliced, Spliced, ← exists_or]
      refine exists_congr fun r => ?_
      rw [← and_or_left]
      refine and_congr_right fun _ => ?_
      rw [List.infix_cons_iff, List.cons_prefix_cons, List.cons_prefix_cons, List.infix_cons_iff, List.cons_prefix_cons]
      simp [show ch '&' ≠ ch ';' by decide]
    rw [updateBackgroundCmd_splice, infix_cons_of_notMem h.notMem_amp, List.infix_cons_iff, ih, hskip, hsplice,
      List.prefix_cons_iff]
    -- the space is the first byte of the pattern, or the pattern is further on
    have hrest : (∃ r, p = ch ' ' :: r ∧ r <+: updateBackgroundCmd c) ↔ ∃ r, p = ch ' ' :: r ∧ r <+: c := by
      refine exists_congr fun r => and_congr_right fun hp => ?_
      exact prefix_update_iff (hp ▸ h).tail
    rw [hrest]
    constructor
    · rintro ((rfl | hr) | hc | hc)
      · exact .inl List.nil_infix
      · exact .inr (.inl hr)
      · exact .inl hc
      · exact .inr (.inr hc)
    · rintro (hc | hr | hc)
      · exact .inr (.inl hc)
      · exact .inl (.inr hr)
      · exact .inr (.inr hc)
  | case2 x y c hxy ih =>
    have hhead : p <+: x :: updateBackgroundCmd (y :: c) ↔ p <+: x :: y :: c := by
      rw [← updateBackgroundCmd_skip hxy, prefix_update_iff h]
    have hsplice : Spliced p (x :: y :: c) ↔ Spliced p (y :: c) :=
      Spliced.cons fun hx => hxy ⟨hx.1, Option.some.inj hx.2⟩
    rw [updateBackgroundCmd_skip hxy, List.infix_cons_iff, hhead, ih, hsplice, ← or_assoc, ← List.infix_cons_iff]
  | case3 c hc =>
    rw [updateBackgroundCmd_short hc]
    refine (or_iff_left ?_).symm
    rintro ⟨r, -, hr⟩
    -- two bytes do not fit
    have hlen := hr.length_le
    match c, hc with
    | [], _ => simp at hlen
    | [x], _ => simp at hlen
    | x :: y :: c, hc => exact hc x y c rfl

end Update

end RRD
