import Reply.Proofs.Settings
import Reply.Proofs.Toml.Document

namespace Reply

/-!
# Settings as they are written

A text gives some settings and leaves others out, with its tables and entries in any
order, and each value in any form that says it.  Reading the text comes to the same as
checking the settings that are meant: they are accepted, or refused with what the check
reports.
-/

/-- What a text of settings gives. -/
structure Sheet where
  level : Option String
  ansi : Option Bool
  capacity : Option Nat

namespace Sheet

/-- The settings that are meant: what is not given has its default. -/
def settings (sheet : Sheet) : Settings where
  log := ⟨sheet.level.getD "info", sheet.ansi.getD true⟩
  stream := ⟨sheet.capacity.getD (1024 * 1024)⟩

/-- The entries about the log. -/
def logging (sheet : Sheet) : List (String × Toml.Value) :=
  (sheet.level.map fun level => ("level", .text level)).toList ++
    (sheet.ansi.map fun ansi => ("ansi", .truth ansi)).toList

/-- The entries about streamed replies. -/
def stream (sheet : Sheet) : List (String × Toml.Value) :=
  (sheet.capacity.map fun capacity =>
    ("buffer_capacity", .integer capacity)).toList

/-- Tables that say what is given; one without entries may be left out. -/
structure Arranges (sheet : Sheet) (tables : List Toml.Listing) : Prop where
  distinct : (tables.map Prod.fst).Nodup
  listed :
    ∀ table ∈ tables,
      table.1 = "logging" ∧ table.2.Perm sheet.logging ∨
        table.1 = "stream" ∧ table.2.Perm sheet.stream
  logging : sheet.logging ≠ [] → "logging" ∈ tables.map Prod.fst
  stream : sheet.stream ≠ [] → "stream" ∈ tables.map Prod.fst

/-! ## What is given -/

variable (sheet : Sheet)

theorem nodup_logging : (sheet.logging.map Prod.fst).Nodup := by
  rcases sheet with ⟨_ | level, _ | ansi, capacity⟩ <;> simp [logging]

theorem nodup_stream : (sheet.stream.map Prod.fst).Nodup := by
  rcases sheet with ⟨level, ansi, _ | capacity⟩ <;> simp [stream]

/-- The settings of the log are read from their entries, in whatever order. -/
theorem ofSection?_logging
    {entries : List (String × Toml.Value)}
    (perm : entries.Perm sheet.logging) :
    LogSettings.ofSection? (some (.table entries)) = some sheet.settings.log := by
  have found := Registry.find?_perm sheet.nodup_logging perm.symm
  rcases sheet with ⟨_ | level, _ | ansi, capacity⟩ <;>
    simp only [LogSettings.ofSection?, Toml.Value.field?, ← found] <;>
    rfl

/-- The settings of streamed replies are read from their entry. -/
theorem ofSection?_stream
    {entries : List (String × Toml.Value)}
    (perm : entries.Perm sheet.stream) :
    StreamSettings.ofSection? (some (.table entries)) =
      some sheet.settings.stream := by
  have found := Registry.find?_perm sheet.nodup_stream perm.symm
  rcases sheet with ⟨level, ansi, _ | capacity⟩
  · simp only [StreamSettings.ofSection?, Toml.Value.field?, ← found]
    rfl
  · simp only [StreamSettings.ofSection?, Toml.Value.field?, ← found]
    have natural : Toml.Value.natural? (.integer capacity) = some capacity := by
      rw [Toml.Value.natural?, if_pos (Int.natCast_nonneg _), Int.toNat_natCast]
    exact congrArg (Option.map StreamSettings.mk) natural

/-- The names of sections and fields. -/
def names : List String :=
  ["logging", "stream", "level", "ansi", "buffer_capacity"]

/-- Sections and fields are named without quotes. -/
theorem bare_of_mem_names
    {name : String}
    (listed : name ∈ names) :
    Toml.Bare name.toList := by
  have nonempty : (names.all fun name => !name.toList.isEmpty) = true := by
    decide
  have letters :
      (names.all fun name => name.toList.all Toml.isKeyChar) = true := by
    decide
  simp only [List.all_eq_true, Bool.not_eq_true',
    List.isEmpty_eq_false_iff] at nonempty letters
  exact ⟨nonempty name listed, letters name listed⟩

/-- What is given has a key that needs no quotes, and a value that can be written. -/
theorem written_of_mem
    (fits : ∀ capacity ∈ sheet.capacity, capacity < 2 ^ 63)
    {entry : String × Toml.Value}
    (given : entry ∈ sheet.logging ++ sheet.stream) :
    Toml.Bare entry.1.toList ∧ ∃ form, Toml.Writes entry.2 form := by
  simp only [logging, stream, List.mem_append, Option.mem_toList,
    Option.map_eq_some_iff] at given
  rcases given with
    (⟨level, -, rfl⟩ | ⟨ansi, -, rfl⟩) | ⟨capacity, present, rfl⟩
  · obtain ⟨form, quotes⟩ := Toml.exists_quotes level.toList
    exact ⟨bare_of_mem_names (by simp [names]), _, .text quotes⟩
  · refine ⟨bare_of_mem_names (by simp [names]), ?_⟩
    cases ansi with
    | false => exact ⟨_, .no⟩
    | true => exact ⟨_, .yes⟩
  · exact
      ⟨bare_of_mem_names (by simp [names]), _, .integer (fits capacity present)⟩

/-- Where nothing about the log is given, it has its default. -/
theorem log_of_logging_nil
    (nothing : sheet.logging = []) :
    sheet.settings.log = .default := by
  rcases sheet with ⟨_ | level, _ | ansi, capacity⟩
  case none.none => rfl
  all_goals contradiction

/-- Where nothing about streamed replies is given, they have their default. -/
theorem stream_of_stream_nil
    (nothing : sheet.stream = []) :
    sheet.settings.stream = .default := by
  rcases sheet with ⟨level, ansi, _ | capacity⟩
  case none => rfl
  all_goals contradiction

end Sheet

namespace Sheet.Arranges

variable {sheet : Sheet} {tables : List Toml.Listing}

theorem entriesDistinct (arranges : sheet.Arranges tables) :
    ∀ table ∈ tables, (table.2.map Prod.fst).Nodup := by
  intro table member
  rcases arranges.listed table member with ⟨-, perm⟩ | ⟨-, perm⟩
  · exact (perm.map Prod.fst).nodup_iff.mpr sheet.nodup_logging
  · exact (perm.map Prod.fst).nodup_iff.mpr sheet.nodup_stream

/-- A table of the document is found by its name. -/
theorem find?_table
    (arranges : sheet.Arranges tables)
    (name : String) :
    (∃ entries,
        (name, entries) ∈ tables ∧
          Registry.find? name (Toml.rootOf tables) = some (.table entries)) ∨
      (name ∉ tables.map Prod.fst ∧
        Registry.find? name (Toml.rootOf tables) = none) := by
  have distinct : ((Toml.rootOf tables).map Prod.fst).Nodup := by
    rw [Toml.rootOf, List.map_map]
    exact arranges.distinct
  cases found : Registry.find? name (Toml.rootOf tables) with
  | some value =>
      obtain ⟨⟨present, entries⟩, member, same⟩ :=
        List.mem_map.mp ((Registry.find?_eq_some_iff distinct).mp found)
      obtain ⟨rfl, rfl⟩ := Prod.mk.inj same
      exact Or.inl ⟨entries, member, rfl⟩
  | none =>
      refine Or.inr ⟨?_, rfl⟩
      intro listed
      obtain ⟨table, member, rfl⟩ := List.mem_map.mp listed
      have entry :=
        (Registry.find?_eq_some_iff distinct).mpr
          (List.mem_map_of_mem member)
      rw [found] at entry
      contradiction

/-- The section about the log says what is given about it. -/
theorem ofSection?_logging (arranges : sheet.Arranges tables) :
    LogSettings.ofSection?
        (Registry.find? "logging" (Toml.rootOf tables)) =
      some sheet.settings.log := by
  rcases arranges.find?_table "logging" with
    ⟨entries, member, found⟩ | ⟨absent, found⟩
  · rw [found]
    rcases arranges.listed _ member with ⟨-, perm⟩ | ⟨other, -⟩
    · exact sheet.ofSection?_logging perm
    · exact absurd other (by simp)
  · rw [found, sheet.log_of_logging_nil]
    · rfl
    · exact Classical.not_not.mp fun given => absent (arranges.logging given)

/-- The section about streamed replies says what is given about them. -/
theorem ofSection?_stream (arranges : sheet.Arranges tables) :
    StreamSettings.ofSection?
        (Registry.find? "stream" (Toml.rootOf tables)) =
      some sheet.settings.stream := by
  rcases arranges.find?_table "stream" with
    ⟨entries, member, found⟩ | ⟨absent, found⟩
  · rw [found]
    rcases arranges.listed _ member with ⟨other, -⟩ | ⟨-, perm⟩
    · exact absurd other (by simp)
    · exact sheet.ofSection?_stream perm
  · rw [found, sheet.stream_of_stream_nil]
    · rfl
    · exact Classical.not_not.mp fun given => absent (arranges.stream given)

/-- A text that says what is given is read as the settings that are meant. -/
theorem read_eq
    (arranges : sheet.Arranges tables)
    {text : List Char}
    (lays : Toml.Lays (Toml.linesOf tables) text) :
    Settings.read (String.ofList text) = sheet.settings.accept := by
  have root :=
    Toml.read?_of_lays arranges.distinct arranges.entriesDistinct lays
  have meant :
      Settings.ofDocument? (Toml.rootOf tables) = some sheet.settings := by
    rw [Settings.ofDocument?, arranges.ofSection?_logging,
      arranges.ofSection?_stream]
    rfl
  rw [Settings.read, root, Option.bind_some, meant]

/-- What is given can be written, whatever the level. -/
theorem exists_lays
    (arranges : sheet.Arranges tables)
    (fits : ∀ capacity ∈ sheet.capacity, capacity < 2 ^ 63) :
    ∃ text, Toml.Lays (Toml.linesOf tables) text := by
  have entries :
      ∀ table ∈ tables, ∀ entry ∈ table.2,
        entry ∈ sheet.logging ++ sheet.stream := by
    intro table listed entry entered
    rcases arranges.listed table listed with ⟨-, perm⟩ | ⟨-, perm⟩
    · exact List.mem_append_left _ (perm.mem_iff.mp entered)
    · exact List.mem_append_right _ (perm.mem_iff.mp entered)
  refine Toml.exists_lays ?_ ?_ ?_
  · intro table listed
    rcases arranges.listed table listed with ⟨name, -⟩ | ⟨name, -⟩
    · exact name ▸ Sheet.bare_of_mem_names (by decide)
    · exact name ▸ Sheet.bare_of_mem_names (by decide)
  · intro table listed entry entered
    exact (sheet.written_of_mem fits (entries table listed entry entered)).1
  · intro table listed entry entered
    exact (sheet.written_of_mem fits (entries table listed entry entered)).2

end Sheet.Arranges

/-! ## The law -/

/--
A text may give the level, the colour and the capacity, or any of them, in tables and
with entries in any order, the level in any form that a basic string has.  There is
such a text for every level and every capacity of 63 bits, and reading it gives the
settings that are meant if they break no rule.  If they do, it is refused with what the
check reports of them, in that order and worded one after the other.
-/
theorem settings_read_as_written
    (sheet : Sheet)
    (tables : List Toml.Listing)
    (arranges : sheet.Arranges tables)
    (fits : ∀ capacity ∈ sheet.capacity, capacity < 2 ^ 63) :
    (∃ text, Toml.Lays (Toml.linesOf tables) text) ∧
      ∀ text,
        Toml.Lays (Toml.linesOf tables) text →
          (sheet.settings.violations = [] →
              Settings.read (String.ofList text) = .ok sheet.settings) ∧
            (sheet.settings.violations ≠ [] →
              Settings.read (String.ofList text) =
                  .error (.invalid sheet.settings.violations) ∧
                (SettingsFault.invalid sheet.settings.violations).message =
                  "Validation failed: " ++
                    String.intercalate ", "
                      (sheet.settings.violations.map Violation.message)) := by
  refine ⟨arranges.exists_lays fits, ?_⟩
  intro text lays
  rw [arranges.read_eq lays]
  constructor
  · intro unbroken
    rw [Settings.accept, unbroken]
  · intro broken
    exact ⟨Settings.accept_eq_error_iff.mpr ⟨rfl, broken⟩, rfl⟩

/--
A text with the second table first, its only other entry before the level, a comment, an
idle line, both line breaks and a level in three forms of escapes breaks both rules.  A
text with a table without entries gives a level in mixed case and is accepted.
-/
theorem settings_read_as_written_both_rules :
    (∃ tables text,
      Sheet.Arranges ⟨some "é\n\"", some false, some 9223372036854775807⟩
          tables ∧
        Toml.Lays (Toml.linesOf tables) text ∧
        String.ofList text =
          "[stream] # no room\r\nbuffer_capacity = 9223372036854775807\n\n" ++
            "[logging]\nansi=false\n\tlevel = \"\\u00e9\\n\\\"\"\n" ∧
        Settings.read (String.ofList text) =
          .error
            (.invalid
              [.unknownLevel "é\n\"",
                .capacityTooLarge 9223372036854775807])) ∧
      ∃ tables text,
        Sheet.Arranges ⟨some "DEBUG", none, none⟩ tables ∧
          Toml.Lays (Toml.linesOf tables) text ∧
          String.ofList text = "[stream]\n[logging]\nlevel=\"DEBUG\"\n" ∧
          Settings.read (String.ofList text) =
            .ok ⟨⟨"DEBUG", true⟩, ⟨1048576⟩⟩ := by
  have unspaced : Toml.Blank [] := List.forall_mem_nil _
  have spaced : Toml.Blank [' '] := by simp [Toml.Blank, Toml.isBlank]
  have tabbed : Toml.Blank ['\t'] := by simp [Toml.Blank, Toml.isBlank]
  have feed : Toml.LineEnd ['\n'] := .plain .feed
  have stream : Toml.Bare "stream".toList := Sheet.bare_of_mem_names (by decide)
  have logging : Toml.Bare "logging".toList := Sheet.bare_of_mem_names (by decide)
  have level : Toml.Bare "level".toList := Sheet.bare_of_mem_names (by decide)
  constructor
  · have remark :
        Toml.LineEnd ('#' :: (" no room".toList ++ ['\r', '\n'])) :=
      .comment (List.all_eq_true.mp (by decide)) .carriage
    have space : Toml.isBlank ' ' = true := rfl
    have acute : Toml.Escapes 'é' ('\\' :: 'u' :: "00e9".toList) :=
      .four rfl rfl
    have feeds : Toml.Escapes '\n' ['\\', 'n'] := .short (by decide)
    have quote : Toml.Escapes '"' ['\\', '"'] := .short (by decide)
    have opened : Toml.LineForm (.table ([], "stream")) _ :=
      .table unspaced unspaced stream unspaced (.blank space remark)
    have sized :
        Toml.LineForm
          (.entry ([], "buffer_capacity")
            (.integer (9223372036854775807 : Nat))) _ :=
      .entry unspaced (Sheet.bare_of_mem_names (by decide)) spaced spaced
        (.integer (by decide)) feed
    have coloured : Toml.LineForm (.entry ([], "ansi") (.truth false)) _ :=
      .entry unspaced (Sheet.bare_of_mem_names (by decide)) unspaced unspaced
        .no feed
    have escaped : Toml.Quotes "é\n\"".toList _ :=
      .cons acute (.cons feeds (.cons quote .nil))
    have levelled :
        Toml.LineForm (.entry ([], "level") (.text "é\n\"")) _ :=
      .entry tabbed level spaced spaced (.text escaped) feed
    have lays :
        Toml.Lays
          (Toml.linesOf
            [("stream",
                [("buffer_capacity", .integer (9223372036854775807 : Nat))]),
              ("logging",
                [("ansi", .truth false), ("level", .text "é\n\"")])]) _ :=
      .cons opened
        (.cons sized
          (.idle feed
            (.cons (.table unspaced unspaced logging unspaced feed)
              (.cons coloured (.cons levelled .nil)))))
    have arranges :
        Sheet.Arranges ⟨some "é\n\"", some false, some 9223372036854775807⟩
          [("stream",
              [("buffer_capacity", .integer (9223372036854775807 : Nat))]),
            ("logging", [("ansi", .truth false), ("level", .text "é\n\"")])] :=
      { distinct := by decide
        listed := by
          intro table listed
          rcases List.mem_pair.mp listed with rfl | rfl
          · exact Or.inr ⟨rfl, .refl _⟩
          · exact Or.inl ⟨rfl, .swap _ _ _⟩
        logging := fun _ => by simp
        stream := fun _ => by simp }
    have reported :
        Settings.violations ⟨⟨"é\n\"", false⟩, ⟨9223372036854775807⟩⟩ =
          [.unknownLevel "é\n\"", .capacityTooLarge 9223372036854775807] := by
      decide +kernel
    have refused :=
      ((settings_read_as_written _ _ arranges (by simp)).2 _ lays).2
        (reported.symm ▸ List.cons_ne_nil _ _)
    refine ⟨_, _, arranges, lays, by decide +kernel, ?_⟩
    rw [← reported]
    exact refused.1
  · have letter : ∀ {char : Char}, Toml.Plain char → Toml.Escapes char [char] :=
      .plain
    have spelled : Toml.Quotes "DEBUG".toList _ :=
      .cons (letter (by decide)) (.cons (letter (by decide))
        (.cons (letter (by decide)) (.cons (letter (by decide))
          (.cons (letter (by decide)) .nil))))
    have lays :
        Toml.Lays
          (Toml.linesOf [("stream", []), ("logging", [("level", .text "DEBUG")])])
          _ :=
      .cons (.table unspaced unspaced stream unspaced feed)
        (.cons (.table unspaced unspaced logging unspaced feed)
          (.cons
            (.entry unspaced level unspaced unspaced (.text spelled) feed) .nil))
    have arranges :
        Sheet.Arranges ⟨some "DEBUG", none, none⟩
          [("stream", []), ("logging", [("level", .text "DEBUG")])] :=
      { distinct := by decide
        listed := by
          intro table listed
          rcases List.mem_pair.mp listed with rfl | rfl
          · exact Or.inr ⟨rfl, .refl _⟩
          · exact Or.inl ⟨rfl, .refl _⟩
        logging := fun _ => by simp
        stream := fun _ => by simp }
    have accepted :=
      ((settings_read_as_written _ _ arranges (by simp)).2 _ lays).1
        (by decide +kernel)
    exact ⟨_, _, arranges, lays, by decide +kernel, accepted⟩

end Reply
