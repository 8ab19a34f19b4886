import Mathlib
import Reply.Proofs.Session.StreamedMessage
import Reply.Settings.File

namespace Reply

/-!
# Safe settings

Settings are checked where they are read and used elsewhere: the level ends up in a
filter, the capacity bounds the bodies of streamed replies.  Both rest on the check.
What it reports is exactly which rules are broken, so settings without a report break
none, and these are all that reading a text or a file gives out.
-/

/-! ## Letter case -/

/-- A text that spells a word of small letters, each in either case of ASCII. -/
def Spells (text word : String) : Prop :=
  List.Forall₂ (fun written small => written = small ∨ written = small.toUpper)
    text.toList word.toList

/-- Lowering a character gives a small letter if it is that letter in either case. -/
theorem toLower_eq_iff_of_isLower
    {written small : Char}
    (lower : small.isLower = true) :
    written.toLower = small ↔ written = small ∨ written = small.toUpper := by
  have notCapital : ∀ {char : Char}, char.isUpper = true → ¬char.isLower = true := by
    intro char upper alsoLower
    simp only [Char.isUpper, Char.isLower, Bool.and_eq_true,
      decide_eq_true_eq, ge_iff_le] at upper alsoLower
    exact absurd (UInt32.le_trans alsoLower.1 upper.2) (by decide)
  constructor
  · rintro rfl
    by_cases capital : written.isUpper = true
    · right
      rw [Char.toUpper_toLower_eq_toUpper,
        Char.toUpper_eq_of_not_isLower (notCapital capital)]
    · left
      exact (Char.toLower_eq_of_not_isUpper capital).symm
  · have same : small.toLower = small :=
      Char.toLower_eq_of_not_isUpper fun upper => notCapital upper lower
    rintro (rfl | rfl)
    · exact same
    · rw [Char.toLower_toUpper_eq_toLower, same]

/-- A text in lower case is a word if and only if it spells the word. -/
theorem toLower_eq_iff_spells
    {text word : String}
    (small : ∀ char ∈ word.toList, char.isLower = true) :
    text.toLower = word ↔ Spells text word := by
  have lowered : text.toLower.toList = text.toList.map Char.toLower :=
    String.toList_map
  rw [← String.toList_inj, lowered, Spells]
  generalize text.toList = written
  generalize word.toList = letters at small
  induction written generalizing letters with
  | nil => simp [eq_comm]
  | cons first rest inductionHypothesis =>
      cases letters with
      | nil => simp
      | cons letter others =>
          obtain ⟨here, later⟩ := List.forall_mem_cons.mp small
          rw [List.map_cons, List.cons.injEq, List.forall₂_cons]
          exact
            and_congr (toLower_eq_iff_of_isLower here)
              (inductionHypothesis others later)

/-! ## What is said of a broken rule -/

namespace Violation

/-- Whether a rule is about the level. -/
def isOfLevel : Violation → Bool
  | .unknownLevel _ => true
  | _ => false

/-- What breaks the rule, as it is written; a capacity of nothing is told in words. -/
def given? : Violation → Option String
  | .unknownLevel level => some level
  | .zeroCapacity => none
  | .capacityTooLarge capacity => some (toString capacity)

theorem message_unknownLevel (level : String) :
    (unknownLevel level).message = "unknown log level '" ++ level ++ "'" :=
  rfl

theorem message_capacityTooLarge (capacity : Nat) :
    (capacityTooLarge capacity).message =
      "stream.buffer_capacity " ++ toString capacity ++
        " exceeds maximum " ++ toString StreamSettings.maximum :=
  rfl

/-- A message quotes what breaks the rule. -/
theorem infix_message
    {violation : Violation}
    {given : String}
    (quoted : violation.given? = some given) :
    given.toList <:+: violation.message.toList := by
  cases violation with
  | unknownLevel level =>
      obtain rfl := Option.some.inj quoted
      exact
        ⟨"unknown log level '".toList, "'".toList, by
          rw [message_unknownLevel, String.toList_append, String.toList_append]⟩
  | zeroCapacity => contradiction
  | capacityTooLarge capacity =>
      obtain rfl := Option.some.inj quoted
      exact
        ⟨"stream.buffer_capacity ".toList,
          " exceeds maximum ".toList ++ (toString StreamSettings.maximum).toList, by
          simp only [message_capacityTooLarge, String.toList_append, List.append_assoc]⟩

/-- The message about a capacity begins with another letter than that about a level. -/
theorem head?_message
    (violation : Violation) :
    violation.message.toList.head? =
      some (if violation.isOfLevel then 'u' else 's') := by
  have level : "unknown log level '".toList.head? = some 'u' := by decide +kernel
  have capacity : "stream.buffer_capacity ".toList.head? = some 's' := by
    decide +kernel
  cases violation with
  | unknownLevel =>
      simp only [message_unknownLevel, String.toList_append,
        List.head?_append, level, Option.some_or, isOfLevel, if_true]
  | zeroCapacity => decide +kernel
  | capacityTooLarge =>
      simp only [message_capacityTooLarge, String.toList_append,
        List.head?_append, capacity, Option.some_or, isOfLevel,
        Bool.false_eq_true, if_false]

/-- The message about a large capacity has a digit where the other has a word. -/
theorem message_zeroCapacity_ne
    (capacity : Nat) :
    zeroCapacity.message ≠ (capacityTooLarge capacity).message := by
  intro same
  have worded :
      zeroCapacity.message =
        "stream.buffer_capacity " ++ "must be greater than zero" := by
    decide +kernel
  have letter : "must be greater than zero".toList.head? = some 'm' := by
    decide +kernel
  obtain ⟨digit, rest, digits⟩ :=
    List.exists_cons_of_ne_nil (@Nat.toDigits_ne_nil capacity 10)
  have isDigit : digit.isDigit = true :=
    Nat.isDigit_of_mem_toDigits (by decide) (by decide)
      (digits ▸ List.mem_cons_self : digit ∈ Nat.toDigits 10 capacity)
  rw [worded, message_capacityTooLarge, String.append_assoc,
    String.append_assoc, String.append_right_inj] at same
  have first := congrArg (fun text => text.toList.head?) same
  rw [letter, String.toList_append, Nat.toString_eq_ofList_toDigits,
    String.toList_ofList, digits, List.cons_append, List.head?_cons] at first
  rw [← Option.some.inj first] at isDigit
  contradiction

/-- A message tells which rule is broken, and by which level or capacity. -/
theorem message_injective : Function.Injective message := by
  intro left right same
  have begun : left.isOfLevel = right.isOfLevel := by
    have first := congrArg (fun text => text.toList.head?) same
    rw [head?_message, head?_message] at first
    revert first
    cases left.isOfLevel <;> cases right.isOfLevel <;> decide
  cases left with
  | unknownLevel level =>
      cases right with
      | unknownLevel other =>
          rw [message_unknownLevel, message_unknownLevel,
            String.append_left_inj, String.append_right_inj] at same
          rw [same]
      | _ => contradiction
  | zeroCapacity =>
      cases right with
      | unknownLevel => contradiction
      | zeroCapacity => rfl
      | capacityTooLarge capacity =>
          exact absurd same (message_zeroCapacity_ne capacity)
  | capacityTooLarge capacity =>
      cases right with
      | unknownLevel => contradiction
      | zeroCapacity =>
          exact absurd same.symm (message_zeroCapacity_ne capacity)
      | capacityTooLarge other =>
          rw [message_capacityTooLarge, message_capacityTooLarge,
            String.append_left_inj, String.append_left_inj,
            String.append_right_inj] at same
          rw [Nat.repr_injective same]
end Violation

/-! ## Broken rules -/

/-- A level that is a known one, written in either case. -/
def LogSettings.Known (settings : LogSettings) : Prop :=
  ∃ name ∈ ["trace", "debug", "info", "warn", "error"],
    Spells settings.level name

namespace Settings

/-- The rules that settings break, each with what breaks it. -/
inductive Breaks (settings : Settings) : Violation → Prop
  | level (unknown : ¬settings.log.Known) :
      Breaks settings (.unknownLevel settings.log.level)
  | empty (nothing : settings.stream.capacity = 0) :
      Breaks settings .zeroCapacity
  | large (exceeds : 64 * 1024 * 1024 < settings.stream.capacity) :
      Breaks settings (.capacityTooLarge settings.stream.capacity)

end Settings

/-- The known levels are written in small letters. -/
theorem LogSettings.isLower_of_mem_levels :
    ∀ name ∈ levels, ∀ char ∈ name.toList, char.isLower = true := by
  have small :
      (levels.all fun name => name.toList.all Char.isLower) = true := by
    decide
  simpa only [List.all_eq_true] using small

/-- A level is known if and only if it is one of the levels when it is lowered. -/
theorem LogSettings.known_iff {settings : LogSettings} :
    settings.Known ↔ settings.level.toLower ∈ levels := by
  constructor
  · rintro ⟨name, member, spells⟩
    rw [(toLower_eq_iff_spells (isLower_of_mem_levels name member)).mpr spells]
    exact member
  · intro member
    exact
      ⟨_, member,
        (toLower_eq_iff_spells (isLower_of_mem_levels _ member)).mp rfl⟩

/-- Of the level its being unknown is reported. -/
theorem LogSettings.mem_violations_iff
    {settings : LogSettings}
    {violation : Violation} :
    violation ∈ settings.violations ↔
      ¬settings.Known ∧ violation = .unknownLevel settings.level := by
  rw [violations, known_iff]
  by_cases known : settings.level.toLower ∈ levels
  · rw [if_pos (List.contains_iff_mem.mpr known)]
    simp [known]
  · rw [if_neg (mt List.contains_iff_mem.mp known)]
    simp [known]

/-- Of the capacity its being nothing or too large is reported. -/
theorem StreamSettings.mem_violations_iff
    {settings : StreamSettings}
    {violation : Violation} :
    violation ∈ settings.violations ↔
      settings.capacity = 0 ∧ violation = .zeroCapacity ∨
        maximum < settings.capacity ∧
          violation = .capacityTooLarge settings.capacity := by
  rw [violations]
  split
  · next nothing => simp [nothing]
  · next something =>
      split
      · next beyond => simp [something, beyond]
      · next within => simp [something, within]

namespace Settings

/-- Exactly the broken rules are reported. -/
theorem mem_violations_iff
    (settings : Settings)
    (violation : Violation) :
    violation ∈ settings.violations ↔ settings.Breaks violation := by
  rw [violations, List.mem_append, LogSettings.mem_violations_iff,
    StreamSettings.mem_violations_iff]
  constructor
  · rintro (⟨unknown, rfl⟩ | ⟨nothing, rfl⟩ | ⟨exceeds, rfl⟩)
    · exact .level unknown
    · exact .empty nothing
    · exact .large exceeds
  · rintro (unknown | nothing | exceeds)
    · exact Or.inl ⟨unknown, rfl⟩
    · exact Or.inr (Or.inl ⟨nothing, rfl⟩)
    · exact Or.inr (Or.inr ⟨exceeds, rfl⟩)

/-- A rule about the level is reported before one about the capacity. -/
theorem pairwise_violations (settings : Settings) :
    settings.violations.Pairwise fun former later =>
      former.isOfLevel = true ∧ later.isOfLevel = false := by
  rw [violations, List.pairwise_append]
  refine ⟨?level, ?capacity, ?between⟩
  case level =>
    rw [LogSettings.violations]
    split <;> simp
  case capacity =>
    rw [StreamSettings.violations]
    split
    · exact List.pairwise_singleton ..
    · split <;> simp
  case between =>
    intro former ofLevel later ofCapacity
    obtain ⟨-, rfl⟩ := LogSettings.mem_violations_iff.mp ofLevel
    rcases StreamSettings.mem_violations_iff.mp ofCapacity with
      ⟨-, rfl⟩ | ⟨-, rfl⟩
    · exact ⟨rfl, rfl⟩
    · exact ⟨rfl, rfl⟩

/-- No rule is reported twice. -/
theorem nodup_violations (settings : Settings) :
    settings.violations.Nodup := by
  refine settings.pairwise_violations.imp ?_
  rintro former later ⟨ofLevel, ofCapacity⟩ rfl
  rw [ofLevel] at ofCapacity
  contradiction

/-! ## What the check lets through -/

/-- Settings are refused with what is reported of them, if that is anything. -/
theorem accept_eq_error_iff
    {settings : Settings}
    {violations : List Violation} :
    settings.accept = .error (.invalid violations) ↔
      violations = settings.violations ∧ violations ≠ [] := by
  unfold accept
  cases reported : settings.violations with
  | nil => simp
  | cons first rest =>
      simp only [Except.error.injEq, SettingsFault.invalid.injEq]
      constructor
      · rintro rfl
        exact ⟨rfl, List.cons_ne_nil _ _⟩
      · exact fun both => both.1.symm

/-- Only settings that break no rule are accepted. -/
theorem not_breaks_of_accept
    {settings accepted : Settings}
    (passed : settings.accept = .ok accepted) :
    ∀ violation, ¬accepted.Breaks violation := by
  unfold accept at passed
  split at passed
  · next unbroken =>
      intro violation
      rw [← Except.ok.inj passed, ← mem_violations_iff, unbroken]
      exact List.not_mem_nil
  · contradiction

/-- Settings that were read from a text or a file. -/
def Obtained (settings : Settings) : Prop :=
  (∃ text, read text = .ok settings) ∨ ∃ content, ofFile content = .ok settings

/-- Settings are read from a text only through the check. -/
theorem not_breaks_of_read
    {settings : Settings}
    {text : String}
    (obtained : read text = .ok settings) :
    ∀ violation, ¬settings.Breaks violation := by
  unfold read at obtained
  split at obtained
  · exact not_breaks_of_accept obtained
  · contradiction

/-- Settings that were read break no rule. -/
theorem Obtained.not_breaks
    {settings : Settings}
    (obtained : settings.Obtained) :
    ∀ violation, ¬settings.Breaks violation := by
  rcases obtained with ⟨text, obtained⟩ | ⟨content, obtained⟩
  · exact not_breaks_of_read obtained
  · unfold ofFile at obtained
    split at obtained
    · contradiction
    · split at obtained
      · exact not_breaks_of_read obtained
      · contradiction

section

variable {settings : Settings}

/-- Without a broken rule the filter is one of five. -/
theorem directive_of_not_breaks
    (unbroken : ∀ violation, ¬settings.Breaks violation) :
    ∃ name ∈ ["trace", "debug", "info", "warn", "error"],
      settings.log.directive = "response_lifecycle=" ++ name ∧
        Spells settings.log.level name := by
  have known : settings.log.Known :=
    Classical.not_not.mp fun unknown => unbroken _ (.level unknown)
  obtain ⟨name, member, spells⟩ := known
  have lowered : settings.log.level.toLower = name :=
    (toLower_eq_iff_spells (LogSettings.isLower_of_mem_levels name member)).mpr
      spells
  exact
    ⟨name, member, congrArg ("response_lifecycle=" ++ ·) lowered, spells⟩

/-- Without a broken rule the capacity is within bounds. -/
theorem capacity_of_not_breaks
    (unbroken : ∀ violation, ¬settings.Breaks violation) :
    1 ≤ settings.stream.capacity ∧
      settings.stream.capacity ≤ 64 * 1024 * 1024 := by
  constructor
  · exact Nat.pos_of_ne_zero fun nothing => unbroken _ (.empty nothing)
  · have within : ¬64 * 1024 * 1024 < settings.stream.capacity :=
      fun exceeds => unbroken _ (.large exceeds)
    exact Nat.not_lt.mp within

end

end Settings

/-! ## Where settings are used -/

/-- A body that never holds more than its capacity, which is the one given. -/
structure BoundedBuffer.Bounded (buffer : BoundedBuffer) (capacity : Nat) : Prop where
  capacity_eq : buffer.capacity = capacity
  length_le : buffer.length ≤ capacity

/-- Whatever is done to a new body, it stays within its capacity. -/
theorem BoundedBuffer.bounded_useAll
    (capacity : Nat)
    (uses : List Use) :
    ((ofCapacity capacity).useAll uses).Bounded capacity := by
  obtain ⟨same, fifo⟩ := fifo_useAll capacity uses
  exact ⟨same, Nat.le_trans fifo.length_le (Nat.le_of_eq same)⟩

/--
Settings that were read from a text or a file have a level that spells one of five
names in either case of ASCII, and the filter is made with that name; their capacity is
between one octet and 64 mebibytes, and the body of a streamed reply made with it has
that capacity and holds no more in every run, however it is got at.  Settings that the
check refuses are refused with each rule that they break, once, with the level or the
capacity that breaks it, and the level's rule before the capacity's.
-/
theorem settings_safe :
    (∀ settings : Settings,
      settings.Obtained →
        (∃ name ∈ ["trace", "debug", "info", "warn", "error"],
          settings.log.directive = "response_lifecycle=" ++ name ∧
            Spells settings.log.level name) ∧
          1 ≤ settings.stream.capacity ∧
          settings.stream.capacity ≤ 64 * 1024 * 1024 ∧
          (∀ turns session,
            Streaming.Run settings.stream.capacity turns session →
              session.reply.body.Bounded settings.stream.capacity) ∧
          ∀ (id : Nat) (steps : List Streamed.Access),
            (steps.foldl Streamed.access
              (Streamed.ofCapacity id settings.stream.capacity :
                Streamed Streaming.Handler)).body.Bounded
              settings.stream.capacity) ∧
      ∀ (settings : Settings) violations,
        settings.accept = .error (.invalid violations) →
          violations ≠ [] ∧
            violations.Nodup ∧
            (∀ violation,
              violation ∈ violations ↔ settings.Breaks violation) ∧
            violations.Pairwise fun former later =>
              former.isOfLevel = true ∧ later.isOfLevel = false := by
  constructor
  · intro settings obtained
    have unbroken := obtained.not_breaks
    obtain ⟨lower, upper⟩ := Settings.capacity_of_not_breaks unbroken
    refine
      ⟨Settings.directive_of_not_breaks unbroken, lower, upper, ?runs,
        ?accesses⟩
    case runs =>
      intro turns session run
      rw [run.body_eq]
      exact BoundedBuffer.bounded_useAll ..
    case accesses =>
      intro id steps
      rw [Streamed.body_foldl_access]
      exact BoundedBuffer.bounded_useAll ..
  · intro settings violations refused
    obtain ⟨rfl, present⟩ := Settings.accept_eq_error_iff.mp refused
    exact
      ⟨present, settings.nodup_violations, settings.mem_violations_iff,
        settings.pairwise_violations⟩

/--
A level in mixed case and a capacity of four octets are read and used, and a fifth
octet is refused; a level with a look-alike and a capacity beyond the maximum are both
reported.
-/
theorem settings_safe_mixed_case :
    (∃ settings : Settings,
      settings.Obtained ∧
        settings.log.level = "WaRn" ∧
        settings.stream.capacity = 4 ∧
        (∃ name ∈ ["trace", "debug", "info", "warn", "error"],
          settings.log.directive = "response_lifecycle=" ++ name) ∧
        ∃ turns session,
          Streaming.Run 4 turns session ∧
            session.reply.body.contents = [1, 2, 3] ∧
            session.reply.body.Bounded 4) ∧
      ∃ (settings : Settings) (violations : List Violation),
        settings.accept = .error (.invalid violations) ∧
          violations =
            [.unknownLevel "ınfo", .capacityTooLarge 67108865] ∧
          violations.Nodup := by
  have read :
      Settings.read
          "[logging]\nlevel = \"WaRn\"\n[stream]\nbuffer_capacity = 4\n" =
        .ok ⟨⟨"WaRn", true⟩, ⟨4⟩⟩ := by
    decide +kernel
  have obtained : Settings.Obtained ⟨⟨"WaRn", true⟩, ⟨4⟩⟩ := Or.inl ⟨_, read⟩
  obtain ⟨⟨name, member, directive, -⟩, -, -, bounded, -⟩ :=
    settings_safe.1 _ obtained
  have fresh : Streaming.Run 4 [] (.ofCapacity 4) := .start
  have run := (fresh.step (.write [1, 2, 3])).step (.write [4, 5])
  have refused :
      Settings.accept ⟨⟨"ınfo", true⟩, ⟨67108865⟩⟩ =
        .error
          (.invalid [.unknownLevel "ınfo", .capacityTooLarge 67108865]) := by
    decide +kernel
  exact
    ⟨⟨_, obtained, rfl, rfl, ⟨name, member, directive⟩, _, _, run, rfl,
        bounded _ _ run⟩,
      _, _, refused, rfl, (settings_safe.2 _ _ refused).2.1⟩

end Reply
