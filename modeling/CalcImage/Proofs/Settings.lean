import CalcImage.Proofs.Fault
import CalcImage.Settings

/-!
# Which settings are accepted

A document has settings that can be used when its table of settings is sound, or when it has no such table
(`Settings.Admissible`), and then they are what the table says (`Settings.Describes`). The other documents are refused as
settings, with one exception: the message that an offset is more than a day shows the offset, and an offset with too many
digits cannot be shown (`Settings.ofDocument_judges`). Only a hexadecimal, octal or binary integer gets so far, since
longer decimal ones are refused with the document.
-/

namespace CalcImage

open CalcImage.Text

namespace Path

/-- The path begins with a name that begins with a tilde. -/
def HasTilde (p : Path) : Prop := p.slashes = 0 ∧ ∃ name rest, p.parts = name :: rest ∧ name.toList.head? = some '~'

/-- The path begins with a tilde and the name of a user. -/
def NamesUser (p : Path) : Prop := p.HasTilde ∧ p.parts.head? ≠ some "~"

/-- What a path is when a tilde stands for the home directory. The homes of other users are not known. -/
inductive Expands (home : Path) : Path → Path → Prop where
  | tilde (rest : List String) : Expands home ⟨0, "~" :: rest⟩ ⟨home.slashes, home.parts ++ rest⟩
  | plain {p : Path} (noTilde : ¬p.HasTilde) : Expands home p p

/-- What a path is when it counts from a directory, which only matters as long as it is relative. -/
inductive Resolves (base : Path) : Path → Path → Prop where
  | absolute {p : Path} (rooted : p.slashes ≠ 0) : Resolves base p p
  | relative {p : Path} (unrooted : p.slashes = 0) : Resolves base p ⟨base.slashes, base.parts ++ p.parts⟩

theorem expands_expandHome {home p : Path} (own : ¬p.NamesUser) : Expands home p (p.expandHome home) := by
  by_cases tilde : p.HasTilde
  · obtain ⟨slashes, parts⟩ := p
    obtain ⟨rfl, name, rest, rfl, head⟩ := tilde
    have home_ : name = "~" := by
      refine Decidable.byContradiction fun other => own ⟨⟨rfl, name, rest, rfl, head⟩, ?_⟩
      simpa using other
    subst home_
    exact .tilde rest
  · have same : p.expandHome home = p := by
      unfold expandHome
      split
      · exact absurd ⟨‹_›, _, _, ‹_›, rfl⟩ tilde
      · rfl
    rw [same]
    exact .plain tilde

theorem resolves_resolve (base p : Path) : Resolves base p (base.resolve p) := by
  unfold resolve isAbsolute
  split
  · exact .absolute (bne_iff_ne.1 ‹_›)
  · rename_i unrooted
    exact .relative (by simpa using unrooted)

end Path

namespace Settings

/-- The keys of the table are known ones. -/
def KnownKeys (t : Toml.Table) : Prop :=
  ∀ k ∈ t.map Prod.fst, k = "log_level" ∨ k = "timezone_offset" ∨ k = "image"

/-- The level of the table, if it has one, is the name of a level in any case. -/
def LevelFits (t : Toml.Table) : Prop :=
  ∀ v, t.lookup "log_level" = some v →
    ∃ raw, v = .text raw ∧ upper raw ∈ ["DEBUG", "INFO", "WARNING", "ERROR", "CRITICAL"]

/-- The table holds nothing but what settings are read from. -/
structure Sound (t : Toml.Table) : Prop where
  keys : KnownKeys t
  level : LevelFits t
  offset : ∀ v, t.lookup "timezone_offset" = some v → ∃ n, v = .integer n ∧ n.natAbs ≤ 86400
  image : ∀ v, t.lookup "image" = some v → ∃ raw, v = .text raw

/-- The document has a sound table of settings or none at all. -/
def Admissible (document : Toml.Table) : Prop :=
  document.lookup "dm41" = none ∨ ∃ t, document.lookup "dm41" = some (.table t) ∧ Sound t

/-- The table of settings of a document, which is empty when the document has none. -/
def HasTable (document t : Toml.Table) : Prop :=
  document.lookup "dm41" = none ∧ t = [] ∨ document.lookup "dm41" = some (.table t)

/-- The settings are what the table says. -/
structure Describes (home base : Path) (t : Toml.Table) (s : Settings) : Prop where
  named : s.logLevel.name ∈ ["DEBUG", "INFO", "WARNING", "ERROR", "CRITICAL"]
  level : t.lookup "log_level" = none ∧ s.logLevel.name = "WARNING" ∨
    ∃ raw, t.lookup "log_level" = some (.text raw) ∧ s.logLevel.name = upper raw
  offset : t.lookup "timezone_offset" = none ∧ s.timezoneOffset = none ∨
    ∃ n, t.lookup "timezone_offset" = some (.integer n) ∧ s.timezoneOffset = some n
  image : t.lookup "image" = none ∧ s.image = none ∨
    ∃ raw given path, t.lookup "image" = some (.text raw) ∧ Path.Expands home (Path.ofString raw) given ∧
      Path.Resolves base given path ∧ s.image = some path

/-- An offset that is judged, since nothing before it is refused, has more digits than a number is shown with. -/
def OverlongOffset (document : Toml.Table) : Prop :=
  ∃ t n, document.lookup "dm41" = some (.table t) ∧ KnownKeys t ∧ LevelFits t ∧
    t.lookup "timezone_offset" = some (.integer n) ∧ Nat.pow 10 mostDigits ≤ n.natAbs

section Parts

theorem table_eq_ok_iff {document t : Toml.Table} : table document = .ok t ↔ HasTable document t := by
  unfold table HasTable tableName
  cases document.lookup "dm41" with
  | none => simp [eq_comm]
  | some v => cases v <;> simp

theorem faults_table (document : Toml.Table) : Faults (fun f => f.kind = .settings) (table document) := by
  unfold table
  split
  · exact .ok _
  · exact .ok _
  · exact .error rfl

theorem unknownKeys_eq_nil_iff {t : Toml.Table} : unknownKeys t = [] ↔ KnownKeys t := by
  unfold unknownKeys KnownKeys
  rw [← List.length_eq_zero_iff, List.length_mergeSort, List.length_eq_zero_iff, List.filter_eq_nil_iff]
  refine forall₂_congr fun k _ => ?_
  simp only [knownKeys, List.contains_eq_mem, List.mem_cons, List.not_mem_nil, or_false, Bool.not_eq_true',
    decide_eq_false_iff_not, Decidable.not_not]

/-- The names of the levels, and no others, are looked up. -/
theorem ofName?_eq_some_iff {s : String} {l : Log.Level} : Log.Level.ofName? s = some l ↔ s = l.name := by
  constructor
  · intro found
    have named := List.find?_some found
    exact (beq_iff_eq.1 named).symm
  · rintro rfl
    exact Log.Level.ofName?_name l

theorem exists_level_iff {s : String} :
    (∃ l : Log.Level, s = l.name) ↔ s ∈ ["DEBUG", "INFO", "WARNING", "ERROR", "CRITICAL"] := by
  constructor
  · rintro ⟨l, rfl⟩
    cases l <;> simp [Log.Level.name]
  · intro member
    simp only [List.mem_cons, List.not_mem_nil, or_false] at member
    rcases member with rfl | rfl | rfl | rfl | rfl
    · exact ⟨.debug, rfl⟩
    · exact ⟨.info, rfl⟩
    · exact ⟨.warning, rfl⟩
    · exact ⟨.error, rfl⟩
    · exact ⟨.critical, rfl⟩

theorem readLevel_eq_ok_iff {v : Option Toml.Value} {l : Log.Level} :
    readLevel v = .ok l ↔ v = none ∧ l = .warning ∨ ∃ raw, v = some (.text raw) ∧ upper raw = l.name := by
  cases v with
  | none => simp [readLevel, eq_comm]
  | some v =>
    cases v with
    | text raw =>
      have named : (∃ raw', some (Toml.Value.text raw) = some (.text raw') ∧ upper raw' = l.name) ↔
          Log.Level.ofName? (upper raw) = some l := by
        simp [ofName?_eq_some_iff]
      rw [named]
      dsimp only [readLevel]
      cases Log.Level.ofName? (upper raw) <;> simp
    | _ => simp [readLevel]

-- The capital of the dotless i is the one of ASCII.
example : readLevel (some (.text "warn\u0131ng")) = .ok .warning := by cbv

theorem faults_readLevel (v : Option Toml.Value) : Faults (fun f => f.kind = .settings) (readLevel v) := by
  unfold readLevel
  split
  · exact .ok _
  · split
    · exact .ok _
    · exact .error rfl
  · exact .error rfl

theorem readOffset_eq_ok_iff {v : Option Toml.Value} {o : Option Int} :
    readOffset v = .ok o ↔ v = none ∧ o = none ∨ ∃ n, v = some (.integer n) ∧ n.natAbs ≤ 86400 ∧ o = some n := by
  cases v with
  | none => simp [readOffset, eq_comm]
  | some v =>
    cases v with
    | integer n =>
      by_cases day : n.natAbs ≤ 86400
      · simp [readOffset, mostOffset, day, eq_comm]
      · simp [readOffset, mostOffset, day]
    | _ => simp [readOffset]

theorem not_isWritable_iff {n : Int} : ¬isWritable n = true ↔ Nat.pow 10 mostDigits ≤ n.natAbs := by
  rw [isWritable, decide_eq_true_eq, Nat.not_lt]

/-- An offset that cannot be read is refused as a setting when it can be shown. -/
theorem faults_readOffset {v : Option Toml.Value} (short : ∀ n, v = some (.integer n) → n.natAbs < Nat.pow 10 mostDigits) :
    Faults (fun f => f.kind = .settings) (readOffset v) := by
  unfold readOffset
  split
  · exact .ok _
  · rename_i n
    split
    · exact .ok _
    · have writable : isWritable n = true := by
        refine Decidable.byContradiction fun long => ?_
        exact absurd (short n rfl) (Nat.not_lt.2 (not_isWritable_iff.1 long))
      rw [offsetFault, if_pos writable]
      exact .error rfl
  · exact .error rfl

/-- The one fault that is no refusal of settings. -/
theorem readOffset_of_long {n : Int} (long : Nat.pow 10 mostDigits ≤ n.natAbs) :
    readOffset (some (.integer n)) = .error .numberWritten := by
  have beyond : ¬n.natAbs ≤ mostOffset := by
    intro day
    have few : n.natAbs < Nat.pow 10 5 := Nat.lt_of_le_of_lt day (by decide)
    exact not_isWritable_iff.2 long (isWritable_of_natAbs_lt few (by decide))
  rw [readOffset, if_neg beyond, offsetFault, if_neg (not_isWritable_iff.2 long)]

theorem readImage_eq_ok_iff {home base : Path} {v : Option Toml.Value} {p : Option Path} :
    readImage home base v = .ok p ↔
      v = none ∧ p = none ∨
        ∃ raw, v = some (.text raw) ∧ p = some (base.resolve ((Path.ofString raw).expandHome home)) := by
  cases v with
  | none => simp [readImage, eq_comm]
  | some v => cases v <;> simp [readImage, eq_comm]

theorem faults_readImage (home base : Path) (v : Option Toml.Value) :
    Faults (fun f => f.kind = .settings) (readImage home base v) := by
  unfold readImage
  split
  · exact .ok _
  · exact .ok _
  · exact .error rfl

end Parts

section Fits

variable {t : Toml.Table}

/-- A value is read when it is missing or fits. -/
theorem exists_read_iff {α : Type} (read : Option Toml.Value → Except Fault α) {fits : Toml.Value → Prop}
    (missing : ∃ r, read none = .ok r) (given : ∀ v, (∃ r, read (some v) = .ok r) ↔ fits v) (o : Option Toml.Value) :
    (∃ r, read o = .ok r) ↔ ∀ v, o = some v → fits v := by
  cases o with
  | none => simp [missing]
  | some v => simp [given]

theorem exists_readLevel_iff : (∃ l, readLevel (t.lookup "log_level") = .ok l) ↔ LevelFits t := by
  refine exists_read_iff readLevel ⟨_, rfl⟩ (fun v => ?_) _
  simp only [readLevel_eq_ok_iff, ← exists_level_iff]
  constructor
  · rintro ⟨l, ⟨absent, -⟩ | ⟨raw, given, named⟩⟩
    · cases absent
    · exact ⟨raw, Option.some.inj given, l, named⟩
  · rintro ⟨raw, rfl, l, named⟩
    exact ⟨l, .inr ⟨raw, rfl, named⟩⟩

theorem exists_readOffset_iff :
    (∃ o, readOffset (t.lookup "timezone_offset") = .ok o) ↔
      ∀ v, t.lookup "timezone_offset" = some v → ∃ n, v = .integer n ∧ n.natAbs ≤ 86400 := by
  refine exists_read_iff readOffset ⟨_, rfl⟩ (fun v => ?_) _
  simp only [readOffset_eq_ok_iff]
  constructor
  · rintro ⟨o, ⟨absent, -⟩ | ⟨n, given, day, -⟩⟩
    · cases absent
    · exact ⟨n, Option.some.inj given, day⟩
  · rintro ⟨n, rfl, day⟩
    exact ⟨some n, .inr ⟨n, rfl, day, rfl⟩⟩

theorem exists_readImage_iff (home base : Path) :
    (∃ p, readImage home base (t.lookup "image") = .ok p) ↔
      ∀ v, t.lookup "image" = some v → ∃ raw, v = .text raw := by
  refine exists_read_iff (readImage home base) ⟨_, rfl⟩ (fun v => ?_) _
  simp only [readImage_eq_ok_iff]
  constructor
  · rintro ⟨p, ⟨absent, -⟩ | ⟨raw, given, -⟩⟩
    · cases absent
    · exact ⟨raw, Option.some.inj given⟩
  · rintro ⟨raw, rfl⟩
    exact ⟨_, .inr ⟨raw, rfl, rfl⟩⟩

theorem sound_nil : Sound [] := by
  constructor <;> simp [KnownKeys, LevelFits]

end Fits

section Document

variable {home base : Path} {document t : Toml.Table} {s : Settings}

/-- The keys of a table are judged before its values, and these one after the other. -/
theorem ofDocument_of_table (found : table document = .ok t) :
    ofDocument home base document =
      if unknownKeys t = [] then do
        let level ← readLevel (t.lookup "log_level")
        let offset ← readOffset (t.lookup "timezone_offset")
        let image ← readImage home base (t.lookup "image")
        return ⟨level, offset, image⟩
      else .error (.settingsKeys (unknownKeys t)) := by
  unfold ofDocument
  rw [found]
  by_cases known : unknownKeys t = []
  -- The test in the definition asks for keys that are not known.
  · rw [if_pos known]
    change (if unknownKeys t ≠ [] then _ else _) = _
    rw [if_neg (not_not_intro known)]
  · rw [if_neg known]
    change (if unknownKeys t ≠ [] then _ else _) = _
    rw [if_pos known]
    rfl

theorem ofDocument_of_no_table {f : Fault} (refused : table document = .error f) :
    ofDocument home base document = .error f := by
  unfold ofDocument
  rw [refused]
  rfl

/-- A document has settings when each part of its table is read. -/
theorem ofDocument_eq_ok_iff :
    ofDocument home base document = .ok s ↔
      ∃ t, HasTable document t ∧ KnownKeys t ∧ readLevel (t.lookup "log_level") = .ok s.logLevel ∧
        readOffset (t.lookup "timezone_offset") = .ok s.timezoneOffset ∧
          readImage home base (t.lookup "image") = .ok s.image := by
  constructor
  · intro read
    cases found : table document with
    | error f =>
      rw [ofDocument_of_no_table found] at read
      cases read
    | ok t =>
      rw [ofDocument_of_table found] at read
      split at read
      case isFalse => cases read
      case isTrue known =>
        simp only [bind_eq_ok_iff] at read
        obtain ⟨l, level, o, offset, p, image, same⟩ := read
        cases same
        exact ⟨t, table_eq_ok_iff.1 found, unknownKeys_eq_nil_iff.1 known, level, offset, image⟩
  · rintro ⟨t, found, known, level, offset, image⟩
    rw [ofDocument_of_table (table_eq_ok_iff.2 found), if_pos (unknownKeys_eq_nil_iff.2 known), level, offset, image]
    rfl

theorem admissible_iff : Admissible document ↔ ∃ t, HasTable document t ∧ Sound t := by
  constructor
  · rintro (absent | ⟨t, given, sound⟩)
    · exact ⟨[], .inl ⟨absent, rfl⟩, sound_nil⟩
    · exact ⟨t, .inr given, sound⟩
  · rintro ⟨t, ⟨absent, -⟩ | given, sound⟩
    · exact .inl absent
    · exact .inr ⟨t, given, sound⟩

theorem exists_ofDocument_iff (home base : Path) (document : Toml.Table) :
    (∃ s, ofDocument home base document = .ok s) ↔ Admissible document := by
  simp only [admissible_iff, ofDocument_eq_ok_iff]
  constructor
  · rintro ⟨s, t, found, keys, level, offset, image⟩
    exact ⟨t, found, keys, exists_readLevel_iff.1 ⟨_, level⟩, exists_readOffset_iff.1 ⟨_, offset⟩,
      (exists_readImage_iff home base).1 ⟨_, image⟩⟩
  · rintro ⟨t, found, keys, level, offset, image⟩
    obtain ⟨l, level⟩ := exists_readLevel_iff.2 level
    obtain ⟨o, offset⟩ := exists_readOffset_iff.2 offset
    obtain ⟨p, image⟩ := (exists_readImage_iff home base).2 image
    exact ⟨⟨l, o, p⟩, t, found, keys, level, offset, image⟩

/-- The document names no other user's home directory. -/
def NamesNoUser (document : Toml.Table) : Prop :=
  ∀ t raw, document.lookup "dm41" = some (.table t) → t.lookup "image" = some (.text raw) →
    ¬(Path.ofString raw).NamesUser

theorem describes_of_ofDocument (own : NamesNoUser document) (read : ofDocument home base document = .ok s) :
    ∃ t, HasTable document t ∧ Describes home base t s := by
  obtain ⟨t, found, keys, level, offset, image⟩ := ofDocument_eq_ok_iff.1 read
  rw [readLevel_eq_ok_iff] at level
  rw [readOffset_eq_ok_iff] at offset
  rw [readImage_eq_ok_iff] at image
  refine ⟨t, found, exists_level_iff.1 ⟨_, rfl⟩, ?_, ?_, ?_⟩
  · rcases level with ⟨absent, level⟩ | ⟨raw, given, named⟩
    · exact .inl ⟨absent, by rw [level]; rfl⟩
    · exact .inr ⟨raw, given, named.symm⟩
  · rcases offset with ⟨absent, offset⟩ | ⟨n, given, -, offset⟩
    · exact .inl ⟨absent, offset⟩
    · exact .inr ⟨n, given, offset⟩
  · rcases image with ⟨absent, image⟩ | ⟨raw, given, image⟩
    · exact .inl ⟨absent, image⟩
    · have named : document.lookup "dm41" = some (.table t) := by
        rcases found with ⟨-, rfl⟩ | found
        · cases given
        · exact found
      exact .inr ⟨raw, _, _, given, Path.expands_expandHome (own t raw named given), Path.resolves_resolve base _, image⟩

/-- A document whose offset is too long to be shown is refused, but not as settings. -/
theorem ofDocument_of_overlong (overlong : OverlongOffset document) :
    ofDocument home base document = .error .numberWritten := by
  obtain ⟨t, n, given, keys, level, offset, long⟩ := overlong
  obtain ⟨l, level⟩ := exists_readLevel_iff.2 level
  rw [ofDocument_of_table (table_eq_ok_iff.2 (.inr given)), if_pos (unknownKeys_eq_nil_iff.2 keys), level, offset,
    readOffset_of_long long]
  rfl

/-- Every other document that is refused is refused as settings. -/
theorem faults_ofDocument (shown : ¬OverlongOffset document) :
    Faults (fun f => f.kind = .settings) (ofDocument home base document) := by
  cases found : table document with
  | error f =>
    rw [ofDocument_of_no_table found]
    exact .error (faults_table document f found)
  | ok t =>
    rw [ofDocument_of_table found]
    split
    case isFalse => exact .error rfl
    case isTrue known =>
      refine (faults_readLevel _).bind fun l level => ?_
      refine (faults_readOffset fun n offset => ?_).bind fun o _ => ?_
      · -- An offset that is judged here and cannot be shown would make the document one of those left out.
        apply Nat.lt_of_not_le
        intro long
        rcases table_eq_ok_iff.1 found with ⟨-, rfl⟩ | given
        · cases offset
        · exact shown ⟨t, n, given, unknownKeys_eq_nil_iff.1 known, exists_readLevel_iff.1 ⟨l, level⟩, offset, long⟩
      · exact (faults_readImage home base _).bind fun p _ => .ok _

theorem ofDocument_congr {other : Toml.Table} (same : other.lookup tableName = document.lookup tableName) :
    ofDocument home base other = ofDocument home base document := by
  have tables : table other = table document := by
    unfold table
    rw [same]
  unfold ofDocument
  rw [tables]

/-- **How a document is judged.** It has settings exactly when its table of settings is sound or missing, and then they are
what the table says. The other documents are refused as settings, unless the offset is too long for the message that
would say so. Nothing outside the table matters, and a file is judged by the document that it holds. -/
theorem ofDocument_judges (home path : Path) (own : NamesNoUser document) :
    ((∃ s, ofDocument home path.parent document = .ok s) ↔ Admissible document) ∧
      (∀ s, ofDocument home path.parent document = .ok s →
        ∃ t, HasTable document t ∧ Describes home path.parent t s) ∧
      ((∀ f, ofDocument home path.parent document = .error f → f.kind = .settings) ↔ ¬OverlongOffset document) ∧
      (∀ other : Toml.Table, other.lookup "dm41" = document.lookup "dm41" →
        ofDocument home path.parent other = ofDocument home path.parent document) ∧
      ∀ bytes text, Utf8.decode? bytes = some text → Toml.parse text = .ok document →
        ofFile home path bytes = ofDocument home path.parent document := by
  refine ⟨exists_ofDocument_iff home path.parent document, fun s => describes_of_ofDocument own, ⟨?_, faults_ofDocument⟩,
    fun other => ofDocument_congr, ?_⟩
  · intro refused overlong
    cases refused _ (ofDocument_of_overlong overlong)
  · intro bytes text decoded parsed
    unfold ofFile
    rw [decoded]
    dsimp only
    rw [parsed]

end Document

section Debug

/-- Settings of all three kinds. -/
def debugTable : Toml.Table :=
  [("log_level", .text "debug"), ("timezone_offset", .integer (-3600)), ("image", .text "~/memory.txt")]

/-- The document that holds nothing else. -/
def debugDocument : Toml.Table := [("dm41", .table debugTable)]

theorem sound_debugTable : Sound debugTable := by
  constructor
  · simp [KnownKeys, debugTable]
  · rintro v ⟨⟩
    exact ⟨"debug", rfl, by decide +kernel⟩
  · rintro v ⟨⟩
    exact ⟨-3600, rfl, by decide⟩
  · rintro v ⟨⟩
    exact ⟨"~/memory.txt", rfl⟩

theorem namesNoUser_debugDocument : NamesNoUser debugDocument := by
  rintro t raw ⟨⟩ ⟨⟩ ⟨-, other⟩
  exact other (by decide +kernel)

/-- These settings are found, and what stands beside their table makes no difference. -/
theorem ofDocument_judges_debug :
    NamesNoUser debugDocument ∧
      ∃ s, ofDocument ⟨1, ["home"]⟩ ⟨0, []⟩ debugDocument = .ok s ∧ Describes ⟨1, ["home"]⟩ ⟨0, []⟩ debugTable s ∧
        ofDocument ⟨1, ["home"]⟩ ⟨0, []⟩ (("image", .truth true) :: debugDocument) = .ok s := by
  obtain ⟨found, described, -, same, -⟩ :=
    ofDocument_judges ⟨1, ["home"]⟩ ⟨0, ["dm41.toml"]⟩ namesNoUser_debugDocument
  obtain ⟨s, read⟩ := found.2 (.inr ⟨debugTable, rfl, sound_debugTable⟩)
  obtain ⟨t, ⟨absent, -⟩ | given, told⟩ := described s read
  · cases absent
  · cases given
    exact ⟨namesNoUser_debugDocument, s, read, told, (same _ rfl).trans read⟩

end Debug

section Overlong

/-- The offset of a one and so many zeros in hexadecimal. -/
def overlongDocument (zeros : Nat) : Toml.Table := [("dm41", .table [("timezone_offset", .integer (Nat.pow 16 zeros))])]

/-- The file that holds this document. -/
def overlongFile (zeros : Nat) : List UInt8 :=
  "[dm41]\ntimezone_offset = 0x1".toUTF8.toList ++ List.replicate zeros 48

theorem overlong_overlongDocument {zeros : Nat} (long : Nat.pow 10 mostDigits ≤ Nat.pow 16 zeros) :
    OverlongOffset (overlongDocument zeros) := by
  refine ⟨_, _, rfl, by simp [KnownKeys], ?_, rfl, ?_⟩
  · rintro v ⟨⟩
  · rw [Int.natAbs_natCast]
    exact long

/-- **An offset that is too long is refused, but not as a setting.** -/
theorem overlong_unshown :
    NamesNoUser (overlongDocument 3572) ∧ ¬Admissible (overlongDocument 3572) ∧
      ¬(∀ f, ofDocument ⟨1, ["home"]⟩ ⟨0, []⟩ (overlongDocument 3572) = .error f → f.kind = .settings) ∧
        ofFile ⟨1, ["home"]⟩ ⟨0, ["dm41.toml"]⟩ (overlongFile 3572) = .error .numberWritten := by
  have refused : ofDocument ⟨1, ["home"]⟩ ⟨0, []⟩ (overlongDocument 3572) = .error .numberWritten :=
    ofDocument_of_overlong (overlong_overlongDocument (by decide +kernel))
  refine ⟨?_, ?_, ?_, ?_⟩
  · rintro t raw ⟨⟩ ⟨⟩
  · intro admissible
    obtain ⟨s, read⟩ := (exists_ofDocument_iff ⟨1, ["home"]⟩ ⟨0, []⟩ _).2 admissible
    rw [refused] at read
    cases read
  · intro settings
    cases settings _ refused
  · have shown :
        (match ofFile ⟨1, ["home"]⟩ ⟨0, ["dm41.toml"]⟩ (overlongFile 3572) with
          | .error .numberWritten => true
          | _ => false) = true := by
      decide +kernel
    split at shown
    case h_1 same => exact same
    case h_2 => cases shown

end Overlong

end Settings

end CalcImage
