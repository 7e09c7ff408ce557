import RemoteDebugger.Impl.Dispatch
import RemoteDebugger.Impl.RunCommand
import RemoteDebugger.Proof.Upload.Confined

/-!
# The arrays for the names of a command

* `dirnameMem_eq`, `finalOutFileMem_eq`: the directory and the file in it, where they fit;
* `namesFit_iff`: when all names of a command fit;
* `namesFit_token`: those of a label of 127 bytes do.
-/

namespace RRD

open Framework Framework.Prog

variable {rfcvalue : Str} {tid : UInt64} {tm : Tm} {epochTime : Int64} {s : Str}

/-! ## Numbers and times -/

theorem zero_notMem_decimal (w n : Nat) : 0 ∉ decimal w n := fun h => absurd (decimal_stamp w n 0 h) (by decide)

/-- A number of 64 bits has 20 digits at most. -/
theorem length_decimal_le {n : Nat} (h : n < 2 ^ 64) : (decimal 0 n).length ≤ 20 := by
  have hdigits : (Nat.toDigits 10 n).length ≤ 20 :=
    (Nat.length_toDigits_le_iff (by decide) (by decide)).mpr (h.trans (by decide))
  simpa [decimal] using hdigits

theorem length_longText_le (n : Int64) : (longText n).length ≤ 21 := by
  have hlow := n.le_toInt
  have hhigh := n.toInt_lt
  have hdecimal := length_decimal_le (n := n.toInt.natAbs) (by omega)
  rw [longText]
  split
  · rw [List.length_cons]
    omega
  · omega

theorem zero_notMem_longText (n : Int64) : 0 ∉ longText n := by
  rw [longText]
  split
  · rw [List.mem_cons, not_or]
    exact ⟨by decide, zero_notMem_decimal _ _⟩
  · exact zero_notMem_decimal _ _

theorem zero_notMem_timeText (tm : Tm) : 0 ∉ timeText tm := by
  have hdash : 0 ∉ str "-" := by decide
  simp only [timeText, List.mem_append, not_or]
  simp [zero_notMem_decimal, hdash]

theorem zero_notMem_dirText (h : 0 ∉ rfcvalue) (tid : UInt64) : 0 ∉ dirText rfcvalue tid := by
  have hline : 0 ∉ str "_" := by decide
  simp only [dirText, List.mem_append, not_or]
  exact ⟨⟨⟨h, hline⟩, zero_notMem_decimal _ _⟩, hline⟩

theorem length_dirText (rfcvalue : Str) (tid : UInt64) :
    (dirText rfcvalue tid).length = rfcvalue.length + (decimal 0 tid.toNat).length + 2 := by
  have hline : (str "_").length = 1 := rfl
  simp only [dirText, List.length_append, hline]
  omega

/-! ## The arrays -/

theorem length_slash : (str "/").length = 1 := rfl

theorem length_rrdOutputFile : rrdOutputFile.length = 17 := rfl

theorem dirnameMem_eq (junk : Nat → Byte) (h : (dirText rfcvalue tid ++ timeText tm).length < 256) :
    dirnameMem junk rfcvalue tid tm = some (zeroed 256 (dirText rfcvalue tid ++ timeText tm)) := by
  have hlen := h
  rw [List.length_append] at hlen
  have hmax : (UInt64.ofNat bufLen256 - UInt64.ofNat (dirText rfcvalue tid).length).toNat =
      256 - (dirText rfcvalue tid).length := by
    have h256 : (UInt64.ofNat bufLen256).toNat = 256 := rfl
    have hoff : (UInt64.ofNat (dirText rfcvalue tid).length).toNat = (dirText rfcvalue tid).length :=
      UInt64.toNat_ofNat_of_lt' (by show _ < 2 ^ 64; omega)
    rw [UInt64.toNat_sub_of_le _ _ (UInt64.le_iff_toNat_le.mpr (by omega)), h256, hoff]
  have hprint : snprintfTo (calloc bufLen256) bufLen256 (dirText rfcvalue tid) = some (zeroed 256 (dirText rfcvalue tid)) :=
    snprintfTo_zeroed (by show _ < 256; omega) (by show _ < 256; omega)
  have hfits : (timeText tm).length < 256 - (dirText rfcvalue tid).length := by omega
  simp only [dirnameMem, hprint, hmax, Option.bind_eq_bind, Option.bind_some]
  rw [strftimeAt, if_pos hfits, strcpyAt_zeroed h]

theorem finalOutFileMem_eq (hs : 0 ∉ s) (h : (s ++ str "/" ++ rrdOutputFile).length < 256) :
    finalOutFileMem (zeroed 256 s) = some (zeroed 256 (s ++ str "/" ++ rrdOutputFile)) := by
  have hlen : s.length + 1 + 17 < 256 := by
    rwa [List.length_append, List.length_append, length_slash, length_rrdOutputFile] at h
  have hslash : 0 ∉ s ++ str "/" := fun h => (List.mem_append.mp h).elim hs (by decide)
  have htake : (str "/").take (bufLen256 - s.length - 1) = str "/" :=
    List.take_of_length_le (by show 1 ≤ 256 - s.length - 1; omega)
  have hout : rrdOutputFile.take (rrdOutputFile.length + 1) = rrdOutputFile := List.take_of_length_le (Nat.le_succ _)
  have hcopy : strncpy (calloc bufLen256) s (s.length + 1) = some (zeroed 256 s) := by
    rw [show calloc bufLen256 = List.replicate 256 0 from rfl, strncpy_zeroed s (by omega),
      List.take_of_length_le (Nat.le_succ _)]
  simp only [finalOutFileMem, strlen_zeroed hs (by omega : s.length < 256), cstr_zeroed hs, hcopy, Option.bind_eq_bind,
    Option.bind_some]
  rw [strncat_zeroed _ hs (by rw [htake, List.length_append]; exact (by omega : s.length + 1 < 256)), htake,
    Option.bind_some, strncat_zeroed _ hslash (by rw [hout]; exact h), hout]

theorem length_finalOutFileMem {dirname mem : Str} (h : finalOutFileMem dirname = some mem) : mem.length = 256 := by
  obtain ⟨len, -, h⟩ := Option.bind_eq_some_iff.mp h
  obtain ⟨copied, hcopied, h⟩ := Option.bind_eq_some_iff.mp h
  obtain ⟨len', -, h⟩ := Option.bind_eq_some_iff.mp h
  obtain ⟨slash, hslash, h⟩ := Option.bind_eq_some_iff.mp h
  rw [length_strncat h, length_strncat hslash, length_strncpy hcopied]
  exact List.length_replicate

/-! ## The names -/

/-- The names of a command: `snprintf` returns an offset into the array of the
directory, the path of the output file is whole and terminated in its array, and
so is the unit. -/
structure NamesFit (rfcvalue : Str) (tid : UInt64) (tm : Tm) (epochTime : Int64) : Prop where
  offset : (dirText rfcvalue tid).length < bufLen256
  path : ∀ junk, ∃ mem, (dirnameMem junk rfcvalue tid tm).bind finalOutFileMem = some mem ∧ 0 ∈ mem ∧
    cstr mem = dirText rfcvalue tid ++ timeText tm ++ str "/" ++ rrdOutputFile
  unit : ∃ mem, remoteDebuggerServiceMem rfcvalue epochTime = some mem ∧ 0 ∈ mem ∧
    cstr mem = remoteDebuggerPrefix ++ rfcvalue ++ longText epochTime

theorem length_path (rfcvalue : Str) (tid : UInt64) (tm : Tm) :
    (dirText rfcvalue tid ++ timeText tm ++ str "/" ++ rrdOutputFile).length =
      rfcvalue.length + (decimal 0 tid.toNat).length + (timeText tm).length + 20 := by
  simp only [List.length_append, length_dirText, length_slash, length_rrdOutputFile]
  omega

theorem NamesFit.length_le (h : NamesFit rfcvalue tid tm epochTime) :
    rfcvalue.length + (decimal 0 tid.toNat).length + (timeText tm).length ≤ 235 := by
  obtain ⟨mem, hmem, hzero, hcstr⟩ := h.path fun _ => 0
  obtain ⟨dirname, -, hfinal⟩ := Option.bind_eq_some_iff.mp hmem
  have hlt := length_cstr_lt hzero
  rw [hcstr, length_path, length_finalOutFileMem hfinal] at hlt
  omega

theorem NamesFit.of_length_le (hzero : 0 ∉ rfcvalue)
    (h : rfcvalue.length + (decimal 0 tid.toNat).length + (timeText tm).length ≤ 235) :
    NamesFit rfcvalue tid tm epochTime := by
  refine ⟨?_, fun junk => ?_, ?_⟩
  · rw [length_dirText, bufLen256]
    omega
  · have hname : 0 ∉ dirText rfcvalue tid ++ timeText tm := fun h =>
      (List.mem_append.mp h).elim (zero_notMem_dirText hzero tid) (zero_notMem_timeText tm)
    have hpath : (dirText rfcvalue tid ++ timeText tm ++ str "/" ++ rrdOutputFile).length < 256 := by
      rw [length_path]
      omega
    have hdir : (dirText rfcvalue tid ++ timeText tm).length < 256 := by
      rw [List.append_assoc, List.length_append] at hpath
      omega
    refine ⟨_, by rw [dirnameMem_eq junk hdir, Option.bind_some, finalOutFileMem_eq hname hpath],
      zero_mem_zeroed hpath, cstr_zeroed ?_⟩
    simp only [List.mem_append, not_or] at hname ⊢
    exact ⟨⟨hname, by decide⟩, by decide⟩
  · have hlong := length_longText_le epochTime
    have hunit : (remoteDebuggerPrefix ++ rfcvalue ++ longText epochTime).length < 512 := by
      have hunit : remoteDebuggerPrefix.length = 16 := rfl
      simp only [List.length_append, hunit]
      omega
    refine ⟨_, snprintfTo_zeroed hunit hunit, zero_mem_zeroed hunit, cstr_zeroed ?_⟩
    simp only [List.mem_append, not_or]
    exact ⟨⟨by decide, hzero⟩, zero_notMem_longText _⟩

/-- The names fit exactly when the label, the thread and the time have 235 bytes
together. -/
theorem namesFit_iff (hzero : 0 ∉ rfcvalue) (tid : UInt64) (tm : Tm) (epochTime : Int64) :
    NamesFit rfcvalue tid tm epochTime ↔
      rfcvalue.length + (decimal 0 tid.toNat).length + (timeText tm).length ≤ 235 :=
  ⟨NamesFit.length_le, .of_length_le hzero⟩

/-- A label that is a token fits for every thread, and at every time until the
year has 74 digits. -/
theorem namesFit_token (hzero : 0 ∉ rfcvalue) (hlen : rfcvalue.length ≤ 127) (tid : UInt64)
    (htm : (timeText tm).length ≤ 88) (epochTime : Int64) : NamesFit rfcvalue tid tm epochTime := by
  have htid := length_decimal_le tid.toNat_lt
  refine .of_length_le hzero ?_
  omega

/-- A morning, and its text. -/
def sampleTm : Tm := ⟨125, 0, 1, 8, 30, 0⟩

theorem namesFit_ping : NamesFit (str "Network.Ping") 1 sampleTm 1735720200 :=
  (namesFit_iff (by decide) _ _ _).mpr (by decide +kernel)

/-! ## Labels of a profile -/

/-- The label of a command. -/
def Effect.label : Effect → Option Str
  | .executeCommands cmdinfo => some cmdinfo.rfcvalue
  | _ => none

def longName : Str := List.replicate 250 (ch 'A')

/-- A profile with a type of that name. -/
def longNameProfile : CJson := .object [(str "Network", .object [(longName, .object [(str "Commands", .string (str "ping"))])])]

/-- A request for the category of that profile. -/
theorem longName_not_fits :
    str "Network." ++ longName ∈ ((processIssueType (plainConfig true) (.ofFiles fun _ => some longNameProfile)
      (rrdDataBuffInit .eventMsg .deepsleepInvalidDefault (str "Network"))).run 0).events.filterMap Effect.label ∧
    ¬NamesFit (str "Network." ++ longName) 1 sampleTm 1735720200 := by
  refine ⟨by decide +kernel, fun h => ?_⟩
  have hlen := h.length_le
  exact absurd hlen (by decide +kernel)

end RRD
