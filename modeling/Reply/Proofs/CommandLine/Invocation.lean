import Reply.CommandLine.Arguments
import Mathlib.Data.Nat.Digits.Defs

namespace Reply.CommandLine

/-!
# What can be asked for

A path may be any text but the empty one, a held tag any text at all, and a code any
number up to 65535.  Whatever arguments are read, they settle such options, and all
such options can be settled by arguments.
-/

/-- Options with a path that is not empty and a code of sixteen bits. -/
structure Options.Acceptable (options : Options) : Prop where
  settings : options.settings ≠ some ""
  code : ∀ code, options.code = some code → code ≤ 65535

instance (options : Options) : Decidable options.Acceptable :=
  decidable_of_iff
    (options.settings ≠ some "" ∧ ∀ code ∈ options.code, code ≤ 65535)
    ⟨fun parts => ⟨parts.1, parts.2⟩,
      fun acceptable => ⟨acceptable.settings, acceptable.code⟩⟩

/-! ## Whatever is read is acceptable -/

namespace Options.Acceptable

variable {options next : Options}

theorem assign?
    (acceptable : options.Acceptable)
    {value : List Char}
    {parameter : Parameter}
    (assigned : options.assign? value parameter = some next) :
    next.Acceptable := by
  cases parameter with
  | settings =>
      simp only [Options.assign?] at assigned
      split at assigned
      · contradiction
      · next free =>
          rw [← Option.some.inj assigned]
          refine ⟨?_, acceptable.code⟩
          intro empty
          apply free
          have none : value = [] :=
            String.ofList_eq_empty_iff.mp (Option.some.inj empty)
          rw [none, List.isEmpty_nil, Bool.or_true]
  | held =>
      simp only [Options.assign?] at assigned
      split at assigned
      · contradiction
      · rw [← Option.some.inj assigned]
        exact ⟨acceptable.settings, acceptable.code⟩
  | code =>
      simp only [Options.assign?] at assigned
      split at assigned
      · contradiction
      · obtain ⟨code, known, rfl⟩ := Option.map_eq_some_iff.mp assigned
        refine ⟨acceptable.settings, ?_⟩
        rintro _ ⟨⟩
        exact of_decide_eq_true (Option.filter_eq_some_iff.mp known).2

end Options.Acceptable

/-- An argument ends the reading or settles one parameter, and reading goes on. -/
theorem exists_assign_of_readFrom
    {options next : Options}
    {argument : List Char}
    {rest : List (List Char)}
    (settled : readFrom options (argument :: rest) = .run next) :
    next = options ∨
      ∃ parameter value between later,
        options.assign? value parameter = some between ∧
          later.length ≤ rest.length ∧
          readFrom between later = .run next := by
  simp only [readFrom] at settled
  split at settled
  case h_1 => contradiction
  case h_2 =>
    split at settled
    · exact Or.inl (Invocation.run.inj settled).symm
    · contradiction
  case h_3 =>
    split at settled
    case h_2 =>
      split at settled
      · next between assigned =>
          exact Or.inr ⟨_, _, between, rest, assigned, le_rfl, settled⟩
      · contradiction
    case h_3 =>
      split at settled
      · contradiction
      · split at settled
        · split at settled
          · next between assigned =>
              exact
                Or.inr ⟨_, _, between, _, assigned, Nat.le_succ _, settled⟩
          · contradiction
        · contradiction
    all_goals contradiction
  case h_4 =>
    split at settled
    case h_2 =>
      split at settled
      · split at settled
        · contradiction
        · split at settled
          · split at settled
            · next between assigned =>
                exact
                  Or.inr ⟨_, _, between, _, assigned, Nat.le_succ _, settled⟩
            · contradiction
          · contradiction
      · split at settled
        · next between assigned =>
            exact Or.inr ⟨_, _, between, rest, assigned, le_rfl, settled⟩
        · contradiction
    all_goals contradiction

/-- Reading on from acceptable options ends with acceptable options. -/
theorem acceptable_of_readFrom
    {arguments : List (List Char)}
    {options next : Options}
    (acceptable : options.Acceptable)
    (settled : readFrom options arguments = .run next) :
    next.Acceptable := by
  -- A value that is an argument of its own is read with its option, so reading goes on
  -- one or two arguments further.
  induction size : arguments.length using Nat.strong_induction_on
    generalizing arguments options with
  | h number inductionHypothesis =>
      cases arguments with
      | nil =>
          rw [← Invocation.run.inj settled]
          exact acceptable
      | cons argument rest =>
          rcases exists_assign_of_readFrom settled with
            rfl | ⟨parameter, value, between, later, assigned, fewer, goesOn⟩
          · exact acceptable
          · have less : later.length < number := by
              rw [← size, List.length_cons]
              exact Nat.lt_succ_of_le fewer
            exact
              inductionHypothesis _ less (acceptable.assign? assigned) goesOn
                rfl

/-! ## Everything acceptable can be asked for -/

/-- A long option, its name and what follows it in the same argument. -/
theorem ofText_long
    {name : List Char}
    (nonempty : name ≠ [])
    (unequal : '=' ∉ name)
    (value : List Char) :
    Argument.ofText ('-' :: '-' :: (name ++ '=' :: value)) =
      .long name (some value) := by
  have before : ∀ char ∈ name, decide (char ≠ '=') = true := by
    intro char member
    apply decide_eq_true
    rintro rfl
    exact unequal member
  obtain ⟨first, others, rfl⟩ := List.exists_cons_of_ne_nil nonempty
  rw [List.cons_append, Argument.ofText, ← List.cons_append,
    List.takeWhile_append_of_pos before, List.dropWhile_append_of_pos before]
  · simp
  · simp

/-- An argument that gives a long option its value. -/
def long (name value : String) : String :=
  "--" ++ name ++ "=" ++ value

section

variable
  {name : String}
  {parameter : Parameter}
  (known : ofLong? name.toList = some (.value parameter))
  (nonempty : name.toList ≠ [])
  (unequal : '=' ∉ name.toList)
  {options next : Options}

include known nonempty unequal

/-- A long option that takes a value gets the one that is attached to it. -/
theorem readFrom_long
    {value : String}
    (assigned : options.assign? value.toList parameter = some next)
    (rest : List (List Char)) :
    readFrom options ((long name value).toList :: rest) =
      readFrom next rest := by
  have written :
      (long name value).toList =
        '-' :: '-' :: (name.toList ++ '=' :: value.toList) := by
    simp [long]
  simp only [written, readFrom, ofText_long nonempty unequal, known, assigned]

/-- An option that may be given is read if it is. -/
theorem readFrom_given
    {given : Option String}
    (assigned :
      ∀ value, given = some value →
        options.assign? value.toList parameter = some next)
    (unassigned : given = none → next = options)
    (rest : List (List Char)) :
    readFrom options
        ((given.map (long name)).toList.map String.toList ++ rest) =
      readFrom next rest := by
  cases given with
  | none =>
      rw [unassigned rfl]
      rfl
  | some value =>
      exact readFrom_long known nonempty unequal (assigned value rfl) rest

end

/-- The digits of a number are read as the number. -/
theorem natural?_toDigits (number : Nat) :
    natural? (Nat.toDigits 10 number) = some number := by
  have digits : ∀ digit ∈ Nat.toDigits 10 number, digit.isDigit = true :=
    fun _ member => Nat.isDigit_of_mem_toDigits (by decide) (by decide) member
  have some : (Nat.toDigits 10 number).isEmpty = false := by
    rw [List.isEmpty_eq_false_iff]
    exact Nat.toDigits_ne_nil
  have value := @Nat.ofDigitChars_ten_toDigits number
  rw [natural?, some, List.all_eq_true.mpr digits, Bool.not_true, Bool.or_false,
    if_neg Bool.false_ne_true]
  exact congrArg Option.some value

/-- A code in decimal is read as the code. -/
theorem code?_toDigits
    {code : Nat}
    (bounded : code ≤ 65535) :
    code? (Nat.toDigits 10 code) = some code := by
  have unsigned :
      ∀ sign digits, Nat.toDigits 10 code = sign :: digits →
        sign.isDigit = true := by
    intro sign digits same
    exact
      Nat.isDigit_of_mem_toDigits (by decide) (by decide)
        (same ▸ List.mem_cons_self)
  have number := natural?_toDigits code
  unfold code?
  split
  · next same => exact absurd (unsigned _ _ same) (by decide)
  · next same => exact absurd (unsigned _ _ same) (by decide)
  · rw [number]
    exact Option.filter_eq_some_iff.mpr ⟨rfl, decide_eq_true bounded⟩

/-- The arguments that ask for options, each by its long name. -/
def Options.arguments (options : Options) : List String :=
  (options.settings.map (long "config")).toList ++
    (options.held.map (long "if-none-match")).toList ++
    ((options.code.map toString).map (long "status")).toList

/-- Acceptable options are what the arguments that ask for them settle. -/
theorem read_arguments
    {options : Options}
    (acceptable : options.Acceptable) :
    read options.arguments = .run options := by
  rcases options with ⟨settings, held, code⟩
  have settles :=
    @readFrom_given "config" .settings (by decide) (by decide) (by decide)
      .empty ⟨settings, none, none⟩ settings ?path (by rintro rfl; rfl)
  have holds :=
    @readFrom_given "if-none-match" .held (by decide) (by decide) (by decide)
      ⟨settings, none, none⟩ ⟨settings, held, none⟩ held ?tag
      (by rintro rfl; rfl)
  have codes :=
    @readFrom_given "status" .code (by decide) (by decide) (by decide)
      ⟨settings, held, none⟩ ⟨settings, held, code⟩ (code.map toString) ?code
      ?default
  case path =>
    rintro path rfl
    have present : path.toList.isEmpty = false := by
      rw [List.isEmpty_eq_false_iff, ne_eq, String.toList_eq_nil_iff]
      rintro rfl
      exact acceptable.settings rfl
    simp [Options.assign?, Options.empty, present]
  case tag =>
    rintro tag rfl
    simp [Options.assign?]
  case code =>
    intro text given
    obtain ⟨number, rfl, rfl⟩ := Option.map_eq_some_iff.mp given
    have bounded : number ≤ 65535 := acceptable.code number rfl
    simp [Options.assign?, code?_toDigits bounded]
  case default =>
    intro absent
    rw [Option.map_eq_none_iff.mp absent]
  calc
    read (Options.arguments ⟨settings, held, code⟩)
    _ = readFrom ⟨settings, held, none⟩
          (((code.map toString).map (long "status")).toList.map
              String.toList ++ []) := by
      rw [read, Options.arguments, List.map_append, List.map_append,
        List.append_assoc, settles, holds, List.append_nil]
    _ = .run ⟨settings, held, code⟩ := codes []

/-- Arguments can settle acceptable options and no others. -/
theorem exists_read_iff {options : Options} :
    (∃ arguments, read arguments = .run options) ↔ options.Acceptable := by
  constructor
  · rintro ⟨arguments, settled⟩
    exact acceptable_of_readFrom ⟨by decide, by rintro _ ⟨⟩⟩ settled
  · intro acceptable
    exact ⟨_, read_arguments acceptable⟩

end Reply.CommandLine
