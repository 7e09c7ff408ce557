import RemoteDebugger.Proof.Dispatch.List
import RemoteDebugger.Proof.Upload.Cleanup

/-!
# The archive names of two reports

A name is the base and the suffix of a token, in upper case and with underscores
for dots. So the dots at the end of one base can be the underscores at the start
of another's suffix.

* `acceptedTokens_item`: the bytes of an item, and the length of its suffix;
* `convertIssueType_item`: the name of an item, byte by byte;
* `nameBytes_eq_iff`: when two items have one name;
* `reportName_item`: the archive of a report;
* `names_distinct_iff`: when the archives of two reports have different names.
-/

namespace RRD

open Framework

variable {a b : Byte} {s t : Str} {item p q : Str × Str}

/-! ## Items -/

/-- A byte of a suffix. -/
def isSuffixByte (b : Byte) : Bool := isalnum b || b = ch '_' || b = ch '-'

/-- A byte of a base. -/
def isBaseByte (b : Byte) : Bool := isalnum b || b = ch '.'

/-- A base and a suffix as the event parser makes them. -/
structure Item (item : Str × Str) : Prop where
  base : Clean item.1
  suffix : ∀ b ∈ item.2, isSuffixByte b
  length_suffix : item.2.length ≤ rrdMaxSuffixLen

theorem acceptedTokens_item {mdata : Str} (h : item ∈ acceptedTokens mdata) : Item item := by
  have hsuffix : ∃ underscore, item.2 = suffixOf underscore := by
    obtain ⟨token, -, htoken⟩ := List.mem_filterMap.mp h
    simp only [Option.ite_none_left_eq_some, Option.some.injEq] at htoken
    rw [← htoken.2, splitIssueType_eq]
    exact ⟨_, rfl⟩
  obtain ⟨underscore, hunderscore⟩ := hsuffix
  rw [suffixOf] at hunderscore
  split at hunderscore
  · rename_i hfits
    refine ⟨acceptedTokens_clean h, fun b hb => ?_, ?_⟩
    · rw [hunderscore] at hb
      exact (List.mem_filter.mp hb).2
    · rw [hunderscore]
      exact (List.length_filter_le ..).trans hfits.2
  · refine ⟨acceptedTokens_clean h, ?_, ?_⟩
    · rw [hunderscore]
      exact fun _ hb => absurd hb List.not_mem_nil
    · rw [hunderscore]
      exact Nat.zero_le _

theorem Item.base_bytes (h : Item item) : ∀ b ∈ item.1, isBaseByte b := fun b hb => by
  have := h.base.chars b hb
  simpa [isBaseByte] using this

/-! ## A name, byte by byte -/

/-- A byte of an item, as it is in the name. -/
def nameByte (b : Byte) : Byte := if b = ch '.' then ch '_' else toupper b

theorem convertByte_item (h : isBaseByte b ∨ isSuffixByte b) :
    convertByte (if b = ch '.' then ch '_' else b) = some (nameByte b) :=
  forall_byte (p := fun b => (isBaseByte b ∨ isSuffixByte b) →
    convertByte (if b = ch '.' then ch '_' else b) = some (nameByte b)) (by decide +kernel) b h

theorem nameByte_tolower (b : Byte) : nameByte (tolower b) = nameByte b :=
  forall_byte (p := fun b => nameByte (tolower b) = nameByte b) (by decide +kernel) b

/-- Bytes are told apart in a name, but for their case, where the case is all that a name loses. -/
theorem nameByte_eq_iff {ok : Byte → Bool} {g : Byte → Byte} (hback : ∀ b, ok b → g (nameByte b) = tolower b)
    (ha : ok a) (hb : ok b) : nameByte a = nameByte b ↔ tolower a = tolower b := by
  refine ⟨fun h => ?_, fun h => ?_⟩
  · rw [← hback a ha, ← hback b hb, h]
  · rw [← nameByte_tolower a, ← nameByte_tolower b, h]

theorem nameByte_base (ha : isBaseByte a) (hb : isBaseByte b) : nameByte a = nameByte b ↔ tolower a = tolower b :=
  nameByte_eq_iff (g := fun b => if b = ch '_' then ch '.' else tolower b)
    (forall_byte (by decide +kernel)) ha hb

theorem nameByte_suffix (ha : isSuffixByte a) (hb : isSuffixByte b) : nameByte a = nameByte b ↔ tolower a = tolower b :=
  nameByte_eq_iff (g := tolower) (forall_byte (by decide +kernel)) ha hb

theorem map_eq_map_iff {f g : Byte → Byte} {ok : Byte → Prop} (h : ∀ a b, ok a → ok b → (f a = f b ↔ g a = g b))
    (hs : ∀ b ∈ s, ok b) (ht : ∀ b ∈ t, ok b) : s.map f = t.map f ↔ s.map g = t.map g := by
  induction s generalizing t with
  | nil => simp
  | cons a s ih =>
    cases t with
    | nil => simp
    | cons b t =>
      rw [List.forall_mem_cons] at hs ht
      simp only [List.map_cons, List.cons.injEq, h a b hs.1 ht.1, ih hs.2 ht.2]

/-- The name of an item, where it fits its buffer. -/
theorem convertIssueType_item (h : Item item) : rrdLogprocConvertIssueType (normalizeIssueName (item.1 ++ item.2)) 64 =
    if (item.1 ++ item.2).length < 64 then some ((item.1 ++ item.2).map nameByte) else none := by
  have hbytes : (normalizeIssueName (item.1 ++ item.2)).filterMap convertByte = (item.1 ++ item.2).map nameByte := by
    rw [normalizeIssueName, List.filterMap_map, ← List.filterMap_eq_map]
    refine List.filterMap_congr fun b hb => convertByte_item ?_
    rcases List.mem_append.mp hb with hb | hb
    · exact .inl (h.base_bytes b hb)
    · exact .inr (h.suffix b hb)
  have hlen : (normalizeIssueName (item.1 ++ item.2)).length = (item.1 ++ item.2).length := List.length_map _
  rw [rrdLogprocConvertIssueType, hbytes, hlen]
  by_cases hfits : (item.1 ++ item.2).length < 64
  · rw [if_neg (Nat.not_le.mpr hfits), if_pos hfits, List.take_of_length_le]
    rw [List.length_map]
    exact Nat.le_sub_one_of_lt hfits
  · rw [if_pos (Nat.le_of_not_lt hfits), if_neg hfits]

/-! ## Two items -/

/-- The items are one, but for the case of letters. -/
def SameItem (p q : Str × Str) : Prop := p.1.map tolower = q.1.map tolower ∧ p.2.map tolower = q.2.map tolower

instance : Decidable (SameItem p q) := inferInstanceAs (Decidable (_ ∧ _))

/-- What the base of `q` has beyond that of `p`, with underscores for its dots, is
what the suffix of `p` has before that of `q`. -/
def Absorbs (p q : Str × Str) : Prop :=
  ∃ base r, q.1 = base ++ r ∧ r ≠ [] ∧ base.map tolower = p.1.map tolower ∧
    p.2.map tolower = (normalizeIssueName r ++ q.2).map tolower

/-- A dot and the underscore for it are one byte of a name. -/
theorem map_nameByte_normalize (s : Str) : (normalizeIssueName s).map nameByte = s.map nameByte := by
  rw [normalizeIssueName, List.map_map]
  refine List.map_congr_left fun b _ => ?_
  rw [Function.comp_apply]
  split
  · rename_i hdot
    rw [hdot]
    rfl
  · rfl

theorem normalize_suffix (h : ∀ b ∈ s, isBaseByte b) : ∀ b ∈ normalizeIssueName s, isSuffixByte b := by
  intro b hb
  obtain ⟨c, hc, rfl⟩ := List.mem_map.mp hb
  exact forall_byte (p := fun c => isBaseByte c → isSuffixByte (if c = ch '.' then ch '_' else c)) (by decide +kernel) c
    (h c hc)

theorem absorbs_iff (hp : Item p) (hq : Item q) :
    Absorbs p q ↔ ∃ u, u ≠ [] ∧ q.1.map nameByte = p.1.map nameByte ++ u ∧ p.2.map nameByte = u ++ q.2.map nameByte := by
  have hbase {base : Str} (h : ∀ b ∈ base, isBaseByte b) :
      base.map nameByte = p.1.map nameByte ↔ base.map tolower = p.1.map tolower :=
    map_eq_map_iff (fun a b ha hb => nameByte_base ha hb) h hp.base_bytes
  have hsuffix {r : Str} (h : ∀ b ∈ r, isBaseByte b) : p.2.map nameByte = r.map nameByte ++ q.2.map nameByte ↔
      p.2.map tolower = (normalizeIssueName r ++ q.2).map tolower := by
    rw [← map_nameByte_normalize r, ← List.map_append]
    refine map_eq_map_iff (fun a b ha hb => nameByte_suffix ha hb) hp.suffix fun b hb => ?_
    exact (List.mem_append.mp hb).elim (normalize_suffix h b) (hq.suffix b)
  constructor
  · rintro ⟨base, r, hr, hne, hb, hs⟩
    have hbytes : ∀ b ∈ base ++ r, isBaseByte b := hr ▸ hq.base_bytes
    rw [List.forall_mem_append] at hbytes
    refine ⟨r.map nameByte, by simpa using hne, ?_, (hsuffix hbytes.2).mpr hs⟩
    rw [hr, List.map_append, (hbase hbytes.1).mpr hb]
  · rintro ⟨u, hne, hb, hs⟩
    obtain ⟨base, r, hr, hbase', rfl⟩ := List.map_eq_append_iff.mp hb
    have hbytes : ∀ b ∈ base ++ r, isBaseByte b := hr ▸ hq.base_bytes
    rw [List.forall_mem_append] at hbytes
    exact ⟨base, r, hr, by simpa using hne, (hbase hbytes.1).mp hbase', (hsuffix hbytes.2).mp hs⟩

theorem sameItem_iff (hp : Item p) (hq : Item q) :
    SameItem p q ↔ p.1.map nameByte = q.1.map nameByte ∧ p.2.map nameByte = q.2.map nameByte :=
  and_congr (map_eq_map_iff (fun _ _ ha hb => nameByte_base ha hb) hp.base_bytes hq.base_bytes).symm
    (map_eq_map_iff (fun _ _ ha hb => nameByte_suffix ha hb) hp.suffix hq.suffix).symm

/-- Where one base is the start of the other, what is left of the other is in both. -/
theorem nameBytes_eq_iff (hp : Item p) (hq : Item q) :
    (p.1 ++ p.2).map nameByte = (q.1 ++ q.2).map nameByte ↔ SameItem p q ∨ Absorbs p q ∨ Absorbs q p := by
  rw [sameItem_iff hp hq, absorbs_iff hp hq, absorbs_iff hq hp, List.map_append, List.map_append,
    List.append_eq_append_iff]
  constructor
  · rintro (⟨u, hbase, hsuffix⟩ | ⟨u, hbase, hsuffix⟩)
    · rcases eq_or_ne u [] with rfl | hne
      · exact .inl ⟨by simpa using hbase.symm, by simpa using hsuffix⟩
      · exact .inr (.inl ⟨u, hne, hbase, hsuffix⟩)
    · rcases eq_or_ne u [] with rfl | hne
      · exact .inl ⟨by simpa using hbase, by simpa using hsuffix.symm⟩
      · exact .inr (.inr ⟨u, hne, hbase, hsuffix⟩)
  · rintro (⟨hbase, hsuffix⟩ | ⟨u, -, hbase, hsuffix⟩ | ⟨u, -, hbase, hsuffix⟩)
    · exact .inl ⟨[], by rw [List.append_nil, hbase], hsuffix⟩
    · exact .inl ⟨u, hbase, hsuffix⟩
    · exact .inr ⟨u, hbase, hsuffix⟩

/-! ## Archives -/

/-- The archive of a report under a name, if that fits the buffers. -/
def reportName (mac timestamp issuename : Str) : Option Str := do
  let issueTypeSanitized ← rrdLogprocConvertIssueType (normalizeIssueName issuename) 64
  rrdArchiveGenerateFilename mac issueTypeSanitized timestamp 256

/-- The upload of the report makes that archive. -/
theorem archiveFilename_normalize (env : UploadEnv) (issuename : Str) :
    archiveFilename env (normalizeIssueName issuename) = (rrdSysinfoGetMacAddress env 32).bind fun macAddr =>
      (rrdSysinfoGetTimestamp env 32).bind fun timestamp => reportName macAddr timestamp issuename := rfl

/-- The archive of a report on an item, if it has a node. -/
def archiveName (mac timestamp : Str) (item : Str × Str) : Option Str := do
  let _ ← getIssueInfo item.1
  reportName mac timestamp (item.1 ++ item.2)

/-- The item has a node, and its name fits the buffers. -/
def Named (item : Str × Str) : Prop := (getIssueInfo item.1).isSome ∧ (item.1 ++ item.2).length < 64

instance : Decidable (Named item) := inferInstanceAs (Decidable (_ ∧ _))

/-- The archives of the items, where both are made, have different names. -/
def NamesDiffer (mac timestamp : Str) (p q : Str × Str) : Prop :=
  ∀ n₁ n₂, archiveName mac timestamp p = some n₁ → archiveName mac timestamp q = some n₂ → n₁ ≠ n₂

section

variable {mac timestamp : Str} (hmac : mac.length ≤ 31) (hts : timestamp.length ≤ 31)

include hmac hts

theorem reportName_item (h : Item item) : reportName mac timestamp (item.1 ++ item.2) =
    if (item.1 ++ item.2).length < 64 then
      some (mac ++ str "_" ++ (item.1 ++ item.2).map nameByte ++ str "_" ++ timestamp ++ str "_RRD_DEBUG_LOGS.tgz")
    else none := by
  rw [reportName, convertIssueType_item h]
  split
  · rename_i hfits
    refine generateFilename_eq hmac ?_ hts
    rw [List.length_map]
    exact Nat.le_sub_one_of_lt hfits
  · rfl

theorem archiveName_eq (h : Item item) : archiveName mac timestamp item = if Named item then
    some (mac ++ str "_" ++ (item.1 ++ item.2).map nameByte ++ str "_" ++ timestamp ++ str "_RRD_DEBUG_LOGS.tgz")
    else none := by
  rw [archiveName, reportName_item hmac hts h]
  cases hissue : getIssueInfo item.1 with
  | none => simp [Named, hissue]
  | some issue => simp [Named, hissue]

/-- Two archives have one name where the items have one. -/
theorem namesDiffer_iff (hp : Item p) (hq : Item q) : NamesDiffer mac timestamp p q ↔
    (Named p → Named q → (p.1 ++ p.2).map nameByte ≠ (q.1 ++ q.2).map nameByte) := by
  rw [NamesDiffer, archiveName_eq hmac hts hp, archiveName_eq hmac hts hq]
  constructor
  · intro hdiffer hnp hnq hsame
    refine hdiffer _ _ (if_pos hnp) (if_pos hnq) ?_
    rw [hsame]
  · intro hbytes n₁ n₂ h₁ h₂ hsame
    obtain ⟨hnp, hn₁⟩ := Option.ite_none_right_eq_some.mp h₁
    obtain ⟨hnq, hn₂⟩ := Option.ite_none_right_eq_some.mp h₂
    have hname := hn₁.trans ((congrArg some hsame).trans hn₂.symm)
    rw [Option.some.injEq, List.append_cancel_right_eq, List.append_cancel_right_eq, List.append_cancel_right_eq,
      List.append_cancel_left_eq] at hname
    exact hbytes hnp hnq hname

/-- The archives of two items of messages that are not one item have different names,
unless a suffix has what the other base goes on with. -/
theorem names_distinct_iff {mdata mdata' : Str} (hp : p ∈ acceptedTokens mdata) (hq : q ∈ acceptedTokens mdata')
    (hdiffer : ¬SameItem p q) :
    NamesDiffer mac timestamp p q ↔ (Named p → Named q → ¬(Absorbs p q ∨ Absorbs q p)) := by
  have hp' := acceptedTokens_item hp
  have hq' := acceptedTokens_item hq
  rw [namesDiffer_iff hmac hts hp' hq', ne_eq, nameBytes_eq_iff hp' hq', or_iff_right hdiffer]

end

def sampleMac : Str := str "001122334455"

def sampleTimestamp : Str := str "2024-01-01-10-00-00AM"

theorem names_distinct_suffix : NamesDiffer sampleMac sampleTimestamp (str "A.B", []) (str "A.B", str "_1") := by
  have hp : (str "A.B", []) ∈ acceptedTokens (str "A.B") := by decide +kernel
  have hq : (str "A.B", str "_1") ∈ acceptedTokens (str "A.B_1") := by decide +kernel
  refine (names_distinct_iff (by decide) (by decide) hp hq (by decide +kernel)).mpr fun _ _ => ?_
  rintro (⟨base, r, -, -, -, hsuffix⟩ | ⟨base, r, hr, hne, hbase, -⟩)
  · have := congrArg List.length hsuffix
    simp [str] at this
  · have hlen := congrArg List.length hr
    have hlen' := congrArg List.length hbase
    simp only [List.length_map, List.length_append] at hlen hlen'
    exact hne (List.length_eq_zero_iff.mp (by omega))

/-- Two items of one message with one name. -/
theorem names_not_distinct : (str "A.B", []) ∈ acceptedTokens (str "A.B,A_B") ∧
    (str "A", str "_B") ∈ acceptedTokens (str "A.B,A_B") ∧ ¬SameItem (str "A.B", []) (str "A", str "_B") ∧
    ¬NamesDiffer sampleMac sampleTimestamp (str "A.B", []) (str "A", str "_B") := by
  refine ⟨by decide +kernel, by decide +kernel, by decide +kernel, fun h => ?_⟩
  exact h (str "001122334455_A_B_2024-01-01-10-00-00AM_RRD_DEBUG_LOGS.tgz")
    (str "001122334455_A_B_2024-01-01-10-00-00AM_RRD_DEBUG_LOGS.tgz") (by decide +kernel) (by decide +kernel) rfl

end RRD
