import RemoteDebugger.Spec.PropertyFile

/-!
# Lines that are read in pieces

`fgets` reads a line that does not fit its array in pieces, each of which the
parsers take for a line.

* `reads_textLines`: a file is read line by line;
* `reads_short`: a line that fits is read whole;
* `keyValue_append`: the key and the value of a line;
* `trim_append`: a value that is cut is the start of the value.
-/

namespace RRD

open Framework

variable {α : Type} {f : Str → Option α} {s t line : Str} {n size : Nat}

/-! ## The lines of a file -/

/-- A file is a last line, or a line before a file. -/
theorem textLines_induction {P : Str → Prop} (last : ∀ line, newline ∉ line → P line)
    (cons : ∀ line rest, newline ∉ line → P rest → P (line ++ newline :: rest)) (content : Str) : P content := by
  have hfrom (content : Str) : ∀ s, newline ∉ s → P (s ++ content) := by
    induction content with
    | nil =>
      intro s hs
      rw [List.append_nil]
      exact last s hs
    | cons b content ih =>
      intro s hs
      by_cases hb : b = newline
      · rw [hb]
        exact cons s content hs (ih [] List.not_mem_nil)
      · have hsb : newline ∉ s ++ [b] := by simp [hs, Ne.symm hb]
        have := ih (s ++ [b]) hsb
        rwa [List.append_assoc, List.singleton_append] at this
  exact hfrom content [] List.not_mem_nil

theorem textLines_last (h : newline ∉ line) : textLines line = [line] := List.splitOn_eq_singleton h

theorem textLines_cons (h : newline ∉ line) (rest : Str) : textLines (line ++ newline :: rest) = line :: textLines rest :=
  List.splitOn_append_cons_self_of_not_mem h rest

/-! ## Reading -/

/-- A newline ends what is read. -/
theorem fgetsLines_newline (n : Nat) (line s rest : Str) :
    fgetsLines n line (s ++ newline :: rest) = fgetsLines n line (s ++ [newline]) ++ fgetsLines n [] rest := by
  induction s generalizing line with
  | nil => simp [fgetsLines]
  | cons b s ih =>
    simp only [List.cons_append, fgetsLines, ih]
    split <;> rfl

/-- What `fgets` reads first is the start of the file. -/
theorem fgetsLines_head (n : Nat) (line s : Str) : ∀ p ∈ (fgetsLines n line s).head?, p <+: line ++ s := by
  induction s generalizing line with
  | nil =>
    rw [fgetsLines]
    split <;> simp
  | cons b s ih =>
    rw [fgetsLines]
    split
    · simp
    · have := ih (line ++ [b])
      rwa [List.append_assoc, List.singleton_append] at this

/-- A line that fits is read whole. -/
theorem fgetsLines_short (h : newline ∉ s) (hlen : (line ++ s).length ≤ n) (hne : line ++ s ≠ []) :
    fgetsLines n line s = [line ++ s] := by
  induction s generalizing line with
  | nil =>
    rw [List.append_nil] at hne ⊢
    rw [fgetsLines, if_neg hne]
  | cons b s ih =>
    have hb : b ≠ newline := fun hb => h (hb ▸ List.mem_cons_self)
    rw [fgetsLines]
    rw [List.length_append, List.length_cons] at hlen
    split
    · rename_i hfull
      obtain rfl : s = [] := List.length_eq_zero_iff.mp (by have := hfull.resolve_left hb; omega)
      rfl
    · rw [ih (fun hs => h (List.mem_cons_of_mem _ hs)) (by simp; omega) (by simp), List.append_assoc,
        List.singleton_append]

/-! ## Keys and values -/

theorem keyValue_append {key : Str} (h : ch '=' ∉ key) (val : Str) :
    keyValue (key ++ ch '=' :: val) = some (trim key, trim val) := by
  have hkey := decide_ne_of_notMem h
  rw [keyValue, if_pos (by simp), List.takeWhile_append_of_pos hkey, List.dropWhile_append_of_pos hkey]
  simp

theorem keyValue_eq_none (h : ch '=' ∉ s) : keyValue s = none := if_neg h

theorem exists_keyValue (h : ch '=' ∈ s) : ∃ key val, ch '=' ∉ key ∧ s = key ++ ch '=' :: val := by
  obtain ⟨key, val, hs, hkey⟩ := List.eq_append_cons_of_mem h
  exact ⟨key, val, hkey, hs⟩

/-! ## Blanks -/

theorem trim_newline (s : Str) : trim (s ++ [newline]) = trim s := by
  rw [trim, List.dropWhile_append]
  split
  · rename_i hblank
    rw [trim, List.isEmpty_iff.mp hblank]
    rfl
  · rw [List.rdropWhile_concat_pos _ _ _ rfl, trim]

theorem rdropWhile_append_of_ne {p : Byte → Bool} {b : Byte} (h : ¬p b) (s t : Str) :
    s ++ [b] <+: (s ++ [b] ++ t).rdropWhile p := by
  induction t using List.reverseRecOn with
  | nil => rw [List.append_nil, List.rdropWhile_concat_neg _ _ _ h]
  | append_singleton t c ih =>
    rw [← List.append_assoc, List.rdropWhile_concat]
    split
    · exact ih
    · rw [List.append_assoc]
      exact List.prefix_append _ _

/-- A value that is cut is the start of the value. -/
theorem trim_append (hne : trim s ≠ []) (t : Str) : trim s <+: trim (s ++ t) := by
  have hdrop : s.dropWhile isBlank ≠ [] := fun h => hne (by rw [trim, h]; rfl)
  obtain ⟨u, hu⟩ := List.rdropWhile_prefix isBlank (l := s.dropWhile isBlank)
  have hlast := List.rdropWhile_last_not isBlank (s.dropWhile isBlank) hne
  have htrim : trim (s ++ t) = (trim s ++ (u ++ t)).rdropWhile isBlank := by
    rw [trim, List.dropWhile_append, if_neg (by simpa using hdrop), ← List.append_assoc, trim, hu]
  rw [htrim, ← List.dropLast_append_getLast hne]
  exact rdropWhile_append_of_ne hlast _ _

/-! ## Readers of lines -/

/-- A reader of a line, for which the newline at its end is a blank. -/
structure LineReader (f : Str → Option α) : Prop where
  nil : f [] = none
  append_newline (s : Str) : f (s ++ [newline]) = f s

theorem LineReader.cstr_newline (hf : LineReader f) (s : Str) : f (cstr (s ++ [newline])) = f (cstr s) := by
  rw [cstr, List.takeWhile_append]
  split
  · rename_i hlen
    have hs : cstr s = s := List.IsPrefix.eq_of_length (List.takeWhile_prefix _) hlen
    rw [hs, show [newline].takeWhile (· ≠ 0) = [newline] from rfl, hf.append_newline]
  · rfl

/-- What is read of a line with its newline. -/
theorem LineReader.reads_newline (hf : LineReader f) (n : Nat) (line s : Str) :
    ((fgetsLines n line (s ++ [newline])).map cstr).filterMap f = ((fgetsLines n line s).map cstr).filterMap f := by
  induction s generalizing line with
  | nil =>
    have hend := hf.cstr_newline line
    have hread : fgetsLines n line [newline] = [line ++ [newline]] := by
      rw [fgetsLines, if_pos (.inl rfl), fgetsLines, if_pos rfl]
    rw [List.nil_append, hread, fgetsLines]
    split
    · rename_i hline
      rw [hline] at hend ⊢
      simp only [List.map_cons, List.map_nil, List.filterMap_cons, hend, show cstr [] = [] from rfl, hf.nil,
        List.filterMap_nil]
    · simp only [List.map_cons, List.map_nil, List.filterMap_cons, hend]
  | cons b s ih =>
    simp only [List.cons_append, fgetsLines]
    split
    · simp only [List.map_cons, List.filterMap_cons, ih]
    · exact ih _

/-- A file is read line by line. -/
theorem LineReader.reads_textLines (hf : LineReader f) (size : Nat) (content : Str) :
    (readLines size content).filterMap f = (textLines content).flatMap fun line => (readLines size line).filterMap f := by
  induction content using textLines_induction with
  | last line hline => rw [textLines_last hline, List.flatMap_singleton]
  | cons line rest hline ih =>
    rw [textLines_cons hline, List.flatMap_cons, ← ih, readLines, fgetsLines_newline, List.map_append, List.filterMap_append,
      hf.reads_newline]
    rfl

theorem LineReader.reads_short (hf : LineReader f) (hline : newline ∉ line) (h : line.length < size) :
    (readLines size line).filterMap f = (f (cstr line)).toList := by
  rcases eq_or_ne line [] with rfl | hne
  · simp [readLines, fgetsLines, cstr, hf.nil]
  · have hread : fgetsLines (size - 1) [] line = [line] := fgetsLines_short hline (Nat.le_sub_one_of_lt h) hne
    rw [readLines, hread]
    cases hread : f (cstr line) <;> simp [hread]

end RRD
