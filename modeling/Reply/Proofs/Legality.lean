import Mathlib
import Reply.Buffered
import Reply.Proofs.Registry
import Reply.Proofs.Text.Ascii
import Reply.Streamed

namespace Reply

/-!
# Legal header sections

A reply cannot be split in transmission when no name and no value in its header
section holds a line break.  Names that are read and values that are accepted or
written here are legal, and every operation edits a header section by setting legal
fields, removing fields or clearing all of it.
-/

namespace Field

/-- A name of one to 65535 token characters in lower case. -/
structure Name.Legal (name : Name) : Prop where
  nonempty : name.text ≠ ""
  length_le : name.text.length ≤ 65535
  tokens :
    ∀ char ∈ name.text.toList, isTokenChar char = true ∧ char.isUpper = false

/-- A value without control octets but tabs. -/
def Value.Legal (value : Value) : Prop :=
  ∀ octet ∈ value.octets, (octet < 0x20 → octet = 0x09) ∧ octet ≠ 0x7f

/-- A name is legal if it is a token without capitals. -/
theorem Name.legal_iff (name : Name) :
    name.Legal ↔
      (isToken name.text.toList &&
        name.text.toList.all fun char => !char.isUpper) = true := by
  simp only [isToken, Bool.and_eq_true, Bool.not_eq_true',
    List.isEmpty_eq_false_iff, decide_eq_true_eq, List.all_eq_true,
    String.length_toList, ne_eq, String.toList_eq_nil_iff]
  constructor
  · intro legal
    exact
      ⟨⟨⟨legal.nonempty, legal.length_le⟩,
          fun char member => (legal.tokens char member).1⟩,
        fun char member => (legal.tokens char member).2⟩
  · rintro ⟨⟨⟨nonempty, within⟩, tokens⟩, lower⟩
    exact
      ⟨nonempty, within,
        fun char member => ⟨tokens char member, lower char member⟩⟩

/-- A value is legal if it would be accepted. -/
theorem Value.legal_iff (value : Value) :
    value.Legal ↔ value.octets.all isValueOctet = true := by
  rw [List.all_eq_true]
  refine forall₂_congr ?_
  intro octet _
  simp only [isValueOctet, Bool.or_eq_true, Bool.and_eq_true,
    decide_eq_true_eq]
  constructor
  · rintro ⟨tab, visible⟩
    by_cases below : octet < 0x20
    · exact Or.inl (tab below)
    · exact Or.inr ⟨UInt8.not_lt.mp below, visible⟩
  · rintro (rfl | ⟨above, visible⟩)
    · exact ⟨fun _ => rfl, by decide⟩
    · exact ⟨fun below => absurd above (UInt8.not_le.mpr below), visible⟩

instance (name : Name) : Decidable name.Legal :=
  decidable_of_iff _ name.legal_iff.symm

instance (value : Value) : Decidable value.Legal :=
  decidable_of_iff _ value.legal_iff.symm

/-! ## Names -/

/-- A token character in lower case is a token character and no capital. -/
theorem isTokenChar_toLower
    {char : Char}
    (token : isTokenChar char = true) :
    isTokenChar char.toLower = true ∧ char.toLower.isUpper = false := by
  refine ⟨?_, char.isUpper_toLower_eq_false⟩
  by_cases capital : char.isUpper = true
  · have letter : char.toLower.isAlpha = true := by
      rw [Char.isAlpha_toLower_eq_isAlpha, Char.isAlpha, capital, Bool.true_or]
    simp only [isTokenChar, Char.isAlphanum, letter, Bool.true_or]
  · rw [Char.toLower_eq_of_not_isUpper capital]
    exact token

/-- Every name that is read is legal. -/
theorem Name.legal_of_ofText?
    {text : String}
    {name : Name}
    (read : Name.ofText? text = some name) :
    name.Legal := by
  unfold ofText? at read
  split at read
  · next token =>
      rw [← Option.some.inj read, legal_iff]
      have lowered : text.toLower.toList = text.toList.map Char.toLower :=
        String.toList_map
      simp only [isToken, Bool.and_eq_true, Bool.not_eq_true',
        List.isEmpty_eq_false_iff, decide_eq_true_eq, List.all_eq_true,
        lowered, List.length_map, List.forall_mem_map, ne_eq,
        List.map_eq_nil_iff] at token ⊢
      obtain ⟨⟨nonempty, within⟩, tokens⟩ := token
      exact
        ⟨⟨⟨nonempty, within⟩,
            fun char member => (isTokenChar_toLower (tokens char member)).1⟩,
          fun char member => (isTokenChar_toLower (tokens char member)).2⟩
  · contradiction

/-! ## Values -/

/-- Every value that is accepted is legal. -/
theorem Value.legal_of_ofOctets?
    {octets : Octets}
    {value : Value}
    (accepted : Value.ofOctets? octets = some value) :
    value.Legal := by
  unfold ofOctets? at accepted
  split at accepted
  · next legal =>
      rw [← Option.some.inj accepted]
      exact (legal_iff _).mpr legal
  · contradiction

theorem Value.legal_applicationJson : Value.applicationJson.Legal := by
  decide

/-- Decimal digits are visible ASCII. -/
theorem isVisible_of_mem_toDigits
    {number : Nat}
    {character : Char}
    (member : character ∈ Nat.toDigits 10 number) :
    IsVisible character := by
  have digit := Nat.isDigit_of_mem_toDigits (by decide) (by decide) member
  simp only [Char.isDigit, ge_iff_le, Bool.and_eq_true,
    decide_eq_true_eq] at digit
  exact
    ⟨UInt32.le_trans (by decide) digit.1,
      UInt32.lt_of_le_of_lt digit.2 (by decide)⟩

/-- A number in decimal is a legal value. -/
theorem Value.legal_ofNat (number : Nat) : (Value.ofNat number).Legal :=
  Value.legal_of_ofOctets?
    (Value.ofText?_of_visible fun _ => isVisible_of_mem_toDigits)

/-- A number in decimal reads back as its digits. -/
theorem Value.text?_ofNat (number : Nat) :
    (Value.ofNat number).text? = some (toString number) :=
  visibleText?_utf8 fun _ => isVisible_of_mem_toDigits

end Field

/-! ## Edits -/

namespace Headers

/-- A header section that results from another by legal edits. -/
inductive Edited (before : Headers) : Headers → Prop
  | refl : Edited before before
  | cleared : Edited before .empty
  | set
      {headers : Headers}
      (edited : Edited before headers)
      {name : Field.Name}
      {value : Field.Value}
      (named : name.Legal)
      (valued : value.Legal) :
      Edited before (headers.set name value)
  | remove
      {headers : Headers}
      (edited : Edited before headers)
      (name : Field.Name) :
      Edited before (headers.remove name)

namespace Edited

variable {before after : Headers}

theorem trans
    {between : Headers}
    (first : Edited before between)
    (second : Edited between after) :
    Edited before after := by
  induction second with
  | refl => exact first
  | cleared => exact .cleared
  | set _ named valued inductionHypothesis =>
      exact inductionHypothesis.set named valued
  | remove _ name inductionHypothesis => exact inductionHypothesis.remove name

/-- What holds of every field and of one legal value holds after edits. -/
theorem forall_entries
    {property : Field.Name × List Field.Value → Prop}
    (edited : Edited before after)
    (given :
      ∀ name value,
        name.Legal → Field.Value.Legal value → property (name, [value]))
    (every : ∀ field ∈ before.entries, property field) :
    ∀ field ∈ after.entries, property field := by
  induction edited with
  | refl => exact every
  | cleared =>
      intro field member
      contradiction
  | set _ named valued inductionHypothesis =>
      intro field member
      rcases Registry.mem_entries_put member with rfl | earlier
      · exact given _ _ named valued
      · exact inductionHypothesis field earlier
  | @remove headers _ name inductionHypothesis =>
      intro field member
      exact
        inductionHypothesis field
          (Registry.entries_erase_subset headers name member)

end Edited

/-- A header section of legal names that occur once, each with legal values. -/
structure WellFormed (headers : Headers) : Prop where
  distinct : (headers.entries.map Prod.fst).Nodup
  named : ∀ field ∈ headers.entries, field.1.Legal
  present : ∀ field ∈ headers.entries, field.2 ≠ []
  valued : ∀ field ∈ headers.entries, ∀ value ∈ field.2, value.Legal

/-- A header section in which each name has exactly one value. -/
def Single (headers : Headers) : Prop :=
  ∀ field ∈ headers.entries, field.2.length = 1

instance (headers : Headers) : Decidable headers.WellFormed :=
  decidable_of_iff
    ((headers.entries.map Prod.fst).Nodup ∧
      (∀ field ∈ headers.entries, field.1.Legal) ∧
      (∀ field ∈ headers.entries, field.2 ≠ []) ∧
      ∀ field ∈ headers.entries, ∀ value ∈ field.2, value.Legal)
    ⟨fun parts => ⟨parts.1, parts.2.1, parts.2.2.1, parts.2.2.2⟩,
      fun formed =>
        ⟨formed.distinct, formed.named, formed.present, formed.valued⟩⟩

instance (headers : Headers) : Decidable headers.Single :=
  inferInstanceAs
    (Decidable (∀ field ∈ headers.entries, field.2.length = 1))

theorem wellFormed_empty : WellFormed .empty where
  distinct := List.nodup_nil
  named _ member := absurd member List.not_mem_nil
  present _ member := absurd member List.not_mem_nil
  valued _ member := absurd member List.not_mem_nil

theorem single_empty : Single .empty :=
  fun _ member => absurd member List.not_mem_nil

/-- Edits keep a header section well formed. -/
theorem Edited.wellFormed
    {before after : Headers}
    (edited : Edited before after)
    (wellFormed : before.WellFormed) :
    after.WellFormed where
  distinct := after.distinct
  named := edited.forall_entries (fun _ _ named _ => named) wellFormed.named
  present :=
    edited.forall_entries (fun _ _ _ _ => List.cons_ne_nil _ _)
      wellFormed.present
  valued :=
    edited.forall_entries
      (fun _ _ _ valued => List.forall_mem_singleton.mpr valued)
      wellFormed.valued

/-- Edits leave each name the one value it has. -/
theorem Edited.single
    {before after : Headers}
    (edited : Edited before after)
    (single : before.Single) :
    after.Single :=
  edited.forall_entries (fun _ _ _ _ => rfl) single

end Headers

/-! ## What edits a message -/

namespace Connection

/-- Stating persistence sets the connection field or removes it. -/
theorem edited_persist
    (version : Version)
    (keep : Bool)
    (headers : Headers) :
    headers.Edited (persist version keep headers) := by
  unfold persist
  split
  · exact .remove .refl _
  · split
    · next value accepted =>
        exact .set .refl (by decide) (Field.Value.legal_of_ofOctets? accepted)
    · exact .remove .refl _

end Connection

namespace Message

variable {β : Type} {message : Message β}

theorem edited_setField
    {changed : Message β}
    {name : String}
    {octets : Octets}
    (accepted : message.setField name octets = .ok changed) :
    message.headers.Edited changed.headers := by
  unfold setField at accepted
  split at accepted
  · contradiction
  · contradiction
  · next field value named valued =>
      rw [← Except.ok.inj accepted]
      exact
        .set .refl (Field.Name.legal_of_ofText? named)
          (Field.Value.legal_of_ofOctets? valued)

theorem edited_setStatus
    {changed : Message β}
    {code : Nat}
    (accepted : message.setStatus code = .ok changed) :
    message.headers.Edited changed.headers := by
  unfold setStatus at accepted
  split at accepted
  · rw [← Except.ok.inj accepted]
    exact .refl
  · contradiction

/-- Framing edits two fields. -/
theorem edited_frame
    [Body β]
    (message : Message β) :
    message.headers.Edited message.frame.headers := by
  simp only [frame]
  split
  · exact .remove (.remove .refl _) _
  · exact .set (.remove .refl _) (by decide) (Field.Value.legal_ofNat _)

end Message

namespace Buffered

variable {η : Type}

/-- One reply's header section results from another's by legal edits. -/
def Edited (before after : Buffered η) : Prop :=
  before.message.headers.Edited after.message.headers

theorem edited_setField
    {reply changed : Buffered η}
    {name : String}
    {octets : Octets}
    (accepted : reply.setField name octets = .ok changed) :
    reply.Edited changed := by
  unfold setField at accepted
  cases outcome : reply.message.setField name octets with
  | error failure =>
      rw [outcome] at accepted
      contradiction
  | ok message =>
      rw [outcome] at accepted
      rw [← Except.ok.inj accepted]
      exact Message.edited_setField outcome

theorem edited_setStatus
    {reply changed : Buffered η}
    {code : Nat}
    (accepted : reply.setStatus code = .ok changed) :
    reply.Edited changed := by
  unfold setStatus at accepted
  cases outcome : reply.message.setStatus code with
  | error failure =>
      rw [outcome] at accepted
      contradiction
  | ok message =>
      rw [outcome] at accepted
      rw [← Except.ok.inj accepted]
      exact Message.edited_setStatus outcome

/-- Rendering names the media type at most. -/
theorem edited_render (reply : Buffered η) : reply.Edited reply.render := by
  unfold Edited render withJsonType
  split
  · simp only
    split
    · exact .refl
    · exact .set .refl (by decide) Field.Value.legal_applicationJson
  · exact .refl

theorem edited_withTag
    (reply : Buffered η)
    (tag : String) :
    reply.Edited (reply.withTag tag) := by
  unfold Edited withTag
  split
  · next value accepted =>
      exact .set .refl (by decide) (Field.Value.legal_of_ofOctets? accepted)
  · exact .refl

theorem edited_tagged (reply : Buffered η) : reply.Edited reply.tagged := by
  unfold tagged
  split
  · exact reply.edited_withTag _
  · exact .refl

/-- Revalidating writes the tag and may drop two fields. -/
theorem edited_revalidate (reply : Buffered η) :
    reply.Edited reply.revalidate.value := by
  unfold revalidate
  split
  · exact .refl
  · next tag current =>
      have tagging := reply.edited_withTag tag
      split
      · exact .remove (.remove tagging _) _
      · exact tagging

/-- Finalizing refreshes the tag at most. -/
theorem edited_finalize (reply : Buffered η) :
    reply.Edited reply.finalize.value.1 := by
  simp only [finalize]
  split <;> exact reply.edited_tagged

/-- What is handed off is rendered and framed. -/
theorem edited_deliver (reply : Buffered η) :
    reply.message.headers.Edited reply.deliver.value.headers := by
  have framed :
      reply.message.headers.Edited reply.render.message.frame.headers :=
    .trans reply.edited_render (Message.edited_frame _)
  simp only [deliver]
  split
  · exact framed
  · exact .remove framed _

end Buffered

end Reply
