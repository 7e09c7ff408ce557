import RemoteDebugger.Impl.Profile
import RemoteDebugger.Impl.Upload
import RemoteDebugger.Proof.Dispatch.Token

/-!
# Reports on disk

A report is collected in a directory and packed into an archive, both directly
under `/tmp/rrd`. `ReportDir` is such a directory, and `ArchiveName` the name of
such an archive: one component of a path, without a byte that means something to
a shell.

* `components_under`: what is directly under `/tmp/rrd` has three components;
* `ReportDir.rm_words`: the command that removes a directory is three words;
* `ArchiveName.text_plain`: no byte of an archive's name means something to a shell.
-/

namespace RRD

open Framework

/-- A byte of a date. -/
def isStamp (b : Byte) : Bool := isalnum b || b = ch '-'

theorem isStamp_of_isalnum {b : Byte} (h : isalnum b) : isStamp b := by simp [isStamp, h]

/-- A byte that a shell takes as it is, and that ends no component of a path. -/
def isPlain (b : Byte) : Bool := isStamp b || b = ch '.' || b = ch '_'

theorem isPlain_of_isStamp {b : Byte} (h : isStamp b) : isPlain b := by simp [isPlain, h]

/-- A slash at the start of a component changes nothing. -/
theorem components_slash (s : Str) : components (rrdLogDir ++ ch '/' :: s) = components (rrdLogDir ++ s) := by
  have hrrd (s : Str) : rrdLogDir ++ s = ch '/' :: (str "tmp" ++ ch '/' :: (str "rrd" ++ ch '/' :: s)) := rfl
  simp only [components, hrrd, strtok_cons_self]
  rw [strtok_append (by decide) (by decide), strtok_append (by decide) (by decide),
    strtok_append (by decide) (by decide), strtok_append (by decide) (by decide), strtok_cons_self]

theorem components_under {s : Str} (hs : ch '/' ∉ s) (hne : s ≠ []) :
    components (rrdLogDir ++ s) = [str "tmp", str "rrd", s] := by
  have hrrd : rrdLogDir ++ s = ch '/' :: (str "tmp" ++ ch '/' :: (str "rrd" ++ ch '/' :: s)) := rfl
  rw [components, hrrd, strtok_cons_self, strtok_append (by decide) (by decide), strtok_append (by decide) (by decide),
    strtok_of_notMem hs hne]

/-! ## Directories -/

/-- The directory of a report: of a node, at a time. Their lengths leave room in
the array for the path. -/
structure ReportDir where
  node : Str
  ltime : Str
  node_ne_nil : node ≠ []
  node_alnum : ∀ b ∈ node, isalnum b
  node_length : node.length ≤ 127
  ltime_stamp : ∀ b ∈ ltime, isStamp b
  ltime_length : ltime.length ≤ 106

namespace ReportDir

def path (dir : ReportDir) : Str := rrdOutputDir ++ dir.node ++ str "-DebugReport-" ++ dir.ltime

def name (dir : ReportDir) : Str := dir.node ++ (str "-DebugReport-" ++ dir.ltime)

theorem path_eq (dir : ReportDir) : dir.path = rrdLogDir ++ dir.name := by
  simp only [path, name, List.append_assoc]
  rfl

theorem name_stamp (dir : ReportDir) : ∀ b ∈ dir.name, isStamp b := by
  intro b hb
  rcases List.mem_append.mp hb with hb | hb
  · exact isStamp_of_isalnum (dir.node_alnum b hb)
  rcases List.mem_append.mp hb with hb | hb
  · exact (by decide +kernel : ∀ b ∈ str "-DebugReport-", isStamp b) b hb
  · exact dir.ltime_stamp b hb

theorem name_ne_nil (dir : ReportDir) : dir.name ≠ [] := by simp [name, dir.node_ne_nil]

/-- The name has no other byte than those of a date. -/
theorem notMem_name (dir : ReportDir) {c : Byte} (hc : ¬ isStamp c) : c ∉ dir.name := fun h => hc (dir.name_stamp c h)

theorem components_path (dir : ReportDir) : components dir.path = [str "tmp", str "rrd", dir.name] := by
  rw [path_eq]
  exact components_under (dir.notMem_name (by decide)) dir.name_ne_nil

/-- A file in the directory. -/
theorem components_child (dir : ReportDir) {s : Str} (hs : ch '/' ∉ s) (hne : s ≠ []) :
    components (dir.path ++ ch '/' :: s) = [str "tmp", str "rrd", dir.name, s] := by
  have hrrd : dir.path ++ ch '/' :: s =
      ch '/' :: (str "tmp" ++ ch '/' :: (str "rrd" ++ ch '/' :: (dir.name ++ ch '/' :: s))) := by
    rw [path_eq, List.append_assoc]
    rfl
  rw [components, hrrd, strtok_cons_self, strtok_append (by decide) (by decide), strtok_append (by decide) (by decide),
    strtok_append (dir.notMem_name (by decide)) dir.name_ne_nil, strtok_of_notMem hs hne]

theorem length_path (dir : ReportDir) : dir.path.length < 256 := by
  have hnode := dir.node_length
  have hltime := dir.ltime_length
  simp only [path, List.length_append, show rrdOutputDir.length = 9 from rfl,
    show (str "-DebugReport-").length = 13 from rfl]
  omega

/-- The path that the live logs are moved to. -/
theorem liveLogs_path (dir : ReportDir) :
    snprintf 1024 (dir.path ++ str "/RRD_LIVE_LOGS.tar.gz") = dir.path ++ str "/RRD_LIVE_LOGS.tar.gz" := by
  have hlen := dir.length_path
  refine List.take_of_length_le ?_
  rw [List.length_append, show (str "/RRD_LIVE_LOGS.tar.gz").length = 21 from rfl]
  omega

/-- The command that removes the directory removes nothing else. -/
theorem rm_words (dir : ReportDir) :
    snprintf 1024 (str "rm -rf " ++ dir.path) = str "rm -rf " ++ dir.path ∧
      strtok (ch ' ') (str "rm -rf " ++ dir.path) = [str "rm", str "-rf", dir.path] := by
  constructor
  · have hlen := dir.length_path
    refine List.take_of_length_le ?_
    rw [List.length_append, show (str "rm -rf ").length = 7 from rfl]
    omega
  · have hblank : ch ' ' ∉ dir.path := by
      rw [path_eq]
      intro h
      rcases List.mem_append.mp h with h | h
      · exact absurd h (by decide)
      · exact dir.notMem_name (by decide) h
    have hrm : str "rm -rf " ++ dir.path = str "rm" ++ ch ' ' :: (str "-rf" ++ ch ' ' :: dir.path) := rfl
    rw [hrm, strtok_append (by decide) (by decide), strtok_append (by decide) (by decide),
      strtok_of_notMem hblank (by simp [path, rrdOutputDir, str])]

end ReportDir

/-! ## Archives -/

def isHexDigit (b : Byte) : Bool :=
  ch '0' ≤ b && b ≤ ch '9' || ch 'A' ≤ b && b ≤ ch 'F' || ch 'a' ≤ b && b ≤ ch 'f'

/-- A byte of the issue in the name of an archive. -/
def isArchiveByte (b : Byte) : Bool :=
  ch '0' ≤ b && b ≤ ch '9' || ch 'A' ≤ b && b ≤ ch 'Z' || b = ch '_' || b = ch '-'

/-- The name of an archive. -/
structure ArchiveName where
  mac : Str
  issueType : Str
  timestamp : Str
  mac_hex : ∀ b ∈ mac, isHexDigit b
  issueType_bytes : ∀ b ∈ issueType, isArchiveByte b
  timestamp_stamp : ∀ b ∈ timestamp, isStamp b

theorem isPlain_of_isHexDigit {b : Byte} (h : isHexDigit b) : isPlain b := by
  refine isPlain_of_isStamp (isStamp_of_isalnum ?_)
  simp only [isHexDigit, isalnum, Bool.or_eq_true, Bool.and_eq_true, decide_eq_true_eq] at h ⊢
  rcases h with (h | ⟨h1, h2⟩) | ⟨h1, h2⟩
  · exact .inl (.inl h)
  · exact .inl (.inr ⟨h1, UInt8.le_trans h2 (by decide)⟩)
  · exact .inr ⟨h1, UInt8.le_trans h2 (by decide)⟩

theorem isPlain_of_isArchiveByte {b : Byte} (h : isArchiveByte b) : isPlain b := by
  simp only [isArchiveByte, Bool.or_eq_true, Bool.and_eq_true, decide_eq_true_eq] at h
  rcases h with ((h | h) | h) | h
  · exact isPlain_of_isStamp (isStamp_of_isalnum (by simp [isalnum, h]))
  · exact isPlain_of_isStamp (isStamp_of_isalnum (by simp [isalnum, h]))
  · simp [isPlain, h]
  · simp [isPlain, isStamp, h]

namespace ArchiveName

def text (name : ArchiveName) : Str :=
  name.mac ++ str "_" ++ name.issueType ++ str "_" ++ name.timestamp ++ str "_RRD_DEBUG_LOGS.tgz"

theorem text_plain (name : ArchiveName) : ∀ b ∈ name.text, isPlain b := by
  intro b hb
  simp only [text, List.mem_append] at hb
  rcases hb with ((((hb | hb) | hb) | hb) | hb) | hb
  · exact isPlain_of_isHexDigit (name.mac_hex b hb)
  · exact (by decide +kernel : ∀ b ∈ str "_", isPlain b) b hb
  · exact isPlain_of_isArchiveByte (name.issueType_bytes b hb)
  · exact (by decide +kernel : ∀ b ∈ str "_", isPlain b) b hb
  · exact isPlain_of_isStamp (name.timestamp_stamp b hb)
  · exact (by decide +kernel : ∀ b ∈ str "_RRD_DEBUG_LOGS.tgz", isPlain b) b hb

theorem components_text (name : ArchiveName) : components (rrdLogDir ++ name.text) = [str "tmp", str "rrd", name.text] :=
  components_under (fun h => absurd (name.text_plain _ h) (by decide)) (by simp [text, str])

end ArchiveName

end RRD
