import Reply.CommandLine.Demonstration
import Reply.Proofs.Json.Unambiguity
import Reply.Proofs.Legality

namespace Reply.Demonstration

/-!
# What a shown message tells

A message is shown as a page: a line of its status, a line for each value of a field,
an empty line, and the body with a line break after it, if there is a body.  Nothing of
this is ambiguous as long as no line break stands in the first line or in a field and
no colon in a field's name, which is so for every well-formed header section.
-/

/-- The parts of a page, without the line breaks between them. -/
structure Page where
  head : String
  fields : List (String × String)
  rest : String

namespace Page

/-- The line of a field. -/
def line (field : String × String) : List Char :=
  field.1.toList ++ ':' :: ' ' :: (field.2.toList ++ ['\n'])

/-- How a page is written. -/
def text (page : Page) : List Char :=
  page.head.toList ++
    '\n' :: (page.fields.flatMap line ++ '\n' :: page.rest.toList)

/-- A page whose lines end where they are written to end. -/
structure Lawful (page : Page) : Prop where
  head : '\n' ∉ page.head.toList
  names :
    ∀ field ∈ page.fields, ':' ∉ field.1.toList ∧ '\n' ∉ field.1.toList
  values : ∀ field ∈ page.fields, '\n' ∉ field.2.toList

/-! ## Reading a page -/

/-- A text that is cut at the first of its marks is cut in one way. -/
theorem cut_inj
    {mark : Char}
    {before otherBefore after otherAfter : List Char}
    (free : mark ∉ before)
    (otherFree : mark ∉ otherBefore)
    (same : before ++ mark :: after = otherBefore ++ mark :: otherAfter) :
    before = otherBefore ∧ after = otherAfter := by
  have unmarked :
      ∀ {text : List Char}, mark ∉ text →
        ∀ char ∈ text, decide (char ≠ mark) = true := by
    intro text absent char member
    apply decide_eq_true
    rintro rfl
    exact absent member
  have stops :
      ∀ text, Json.Stops (fun char => decide (char ≠ mark)) (mark :: text) :=
    Json.stops_cons (by simp)
  obtain ⟨cut, left⟩ :=
    Json.run_append_inj (unmarked free) (unmarked otherFree) (stops after)
      (stops otherAfter) same
  exact ⟨cut, (List.cons.inj left).2⟩

/-- A field's line does not begin with a line break. -/
theorem line_append_ne
    {field : String × String}
    (free : '\n' ∉ field.1.toList)
    (text more : List Char) :
    line field ++ text ≠ '\n' :: more := by
  intro same
  rw [line, List.append_assoc] at same
  cases named : field.1.toList with
  | nil =>
      rw [named] at same
      exact absurd (List.cons.inj same).1 (by decide)
  | cons first others =>
      rw [named] at same free
      exact free (List.mem_cons.mpr (Or.inl (List.cons.inj same).1.symm))

/-- The lines of fields can be read off what follows them. -/
theorem lines_inj
    {fields others : List (String × String)}
    {rest otherRest : List Char}
    (names : ∀ field ∈ fields, ':' ∉ field.1.toList ∧ '\n' ∉ field.1.toList)
    (values : ∀ field ∈ fields, '\n' ∉ field.2.toList)
    (otherNames :
      ∀ field ∈ others, ':' ∉ field.1.toList ∧ '\n' ∉ field.1.toList)
    (otherValues : ∀ field ∈ others, '\n' ∉ field.2.toList)
    (same :
      fields.flatMap line ++ '\n' :: rest =
        others.flatMap line ++ '\n' :: otherRest) :
    fields = others ∧ rest = otherRest := by
  -- No field's line begins with the line break that comes after the last of them, so
  -- both lists end together.
  induction fields generalizing others with
  | nil =>
      cases others with
      | nil => exact ⟨rfl, (List.cons.inj same).2⟩
      | cons other later =>
          rw [List.flatMap_cons, List.append_assoc] at same
          exact
            absurd same.symm
              (line_append_ne (List.forall_mem_cons.mp otherNames).1.2 _ _)
  | cons field earlier inductionHypothesis =>
      obtain ⟨named, restNamed⟩ := List.forall_mem_cons.mp names
      obtain ⟨valued, restValued⟩ := List.forall_mem_cons.mp values
      cases others with
      | nil =>
          rw [List.flatMap_cons, List.append_assoc] at same
          exact absurd same (line_append_ne named.2 _ _)
      | cons other later =>
          obtain ⟨otherNamed, laterNamed⟩ := List.forall_mem_cons.mp otherNames
          obtain ⟨otherValued, laterValued⟩ :=
            List.forall_mem_cons.mp otherValues
          simp only [List.flatMap_cons, line, List.append_assoc,
            List.cons_append, List.nil_append] at same
          obtain ⟨nameSame, behind⟩ := cut_inj named.1 otherNamed.1 same
          obtain ⟨valueSame, left⟩ :=
            cut_inj valued otherValued (List.cons.inj behind).2
          obtain ⟨fieldsSame, restSame⟩ :=
            inductionHypothesis restNamed restValued laterNamed laterValued
              left
          have fieldSame : field = other :=
            Prod.ext (String.toList_injective nameSame)
              (String.toList_injective valueSame)
          exact ⟨by rw [fieldSame, fieldsSame], restSame⟩

/-- Two lawful pages that are written alike are the same. -/
theorem Lawful.eq_of_text_eq
    {page other : Page}
    (lawful : page.Lawful)
    (otherLawful : other.Lawful)
    (same : page.text = other.text) :
    page = other := by
  obtain ⟨head, behind⟩ := cut_inj lawful.head otherLawful.head same
  obtain ⟨fields, rest⟩ :=
    lines_inj lawful.names lawful.values otherLawful.names otherLawful.values
      behind
  rcases page with ⟨_, _, _⟩
  rcases other with ⟨_, _, _⟩
  obtain rfl := String.toList_injective head
  obtain rfl := fields
  obtain rfl := String.toList_injective rest
  rfl

end Page

/-- A text is a page, and no other page that is lawful. -/
structure Page.IsPageOf (page : Page) (text : String) : Prop where
  lawful : page.Lawful
  written : page.text = text.toList
  only : ∀ other : Page, other.Lawful → other.text = text.toList → other = page

/-! ## The page of a message -/

/-- What a value is shown as. -/
def shownValue (value : Field.Value) : String :=
  value.text?.getD "<binary>"

/-- The page that a message is shown as. -/
def pageOf (message : Message String) : Page where
  head :=
    message.version.text ++ " " ++ toString message.status.code ++ " " ++
      message.status.reason
  fields :=
    message.headers.entries.flatMap fun entry =>
      entry.2.map fun value => (entry.1.text, shownValue value)
  rest := if message.body.isEmpty then "" else message.body ++ "\n"

/-- A message is shown as its page is written. -/
theorem toList_display (message : Message String) :
    (display message).toList = (pageOf message).text := by
  have each :
      ∀ entry : Field.Name × List Field.Value,
        (entry.2.map fun value => fieldLine entry.1 value).flatMap
            String.toList =
          (entry.2.map fun value =>
            (entry.1.text, shownValue value)).flatMap Page.line := by
    intro entry
    rw [List.flatMap_map, List.flatMap_map]
    congr 1
    funext value
    simp only [fieldLine, Page.line, shownValue, String.toList_append,
      List.append_assoc]
    rfl
  simp only [display, pageOf, Page.text, String.toList_append,
    String.toList_join, List.flatMap_assoc, each, List.append_assoc]
  rfl

/-! ## Lawful pages -/

/-- No line break is visible. -/
theorem lineBreak_not_mem
    {text : List Char}
    (visible : ∀ character ∈ text, IsVisible character) :
    '\n' ∉ text :=
  fun member => absurd (visible _ member).1 (by decide)

/-- No reason phrase holds a line break. -/
theorem lineBreak_not_mem_phrase
    {code : Nat}
    {phrase : String}
    (registered : Status.phrase? code = some phrase) :
    '\n' ∉ phrase.toList := by
  unfold Status.phrase? at registered
  split at registered
  all_goals first
    | contradiction
    | obtain rfl := Option.some.inj registered
      simp

/-- A value is shown without a line break. -/
theorem lineBreak_not_mem_shownValue (value : Field.Value) :
    '\n' ∉ (shownValue value).toList := by
  unfold shownValue Field.Value.text? Octets.visibleText?
  split
  · next visible =>
      rw [Option.getD_some, String.toList_ofList]
      intro member
      obtain ⟨octet, present, same⟩ := List.mem_map.mp member
      have shown := List.all_eq_true.mp visible octet present
      have written := utf8EncodeChar_of_isVisible shown
      rw [same] at written
      obtain rfl : 0x0a = octet := List.singleton_inj.mp written
      exact absurd shown (by decide)
  · decide

/-- No name holds a colon or a line break. -/
theorem mark_not_mem_name
    {name : Field.Name}
    (legal : name.Legal) :
    ':' ∉ name.text.toList ∧ '\n' ∉ name.text.toList :=
  ⟨fun colon => absurd (legal.tokens _ colon).1 (by decide),
    fun lineBreak => absurd (legal.tokens _ lineBreak).1 (by decide)⟩

/-- Every message with a well-formed header section is shown as a lawful page. -/
theorem lawful_pageOf
    {message : Message String}
    (wellFormed : message.headers.WellFormed) :
    (pageOf message).Lawful := by
  refine ⟨?head, ?names, ?values⟩
  case head =>
    have version : '\n' ∉ message.version.text.toList := by
      cases message.version <;> decide
    have code : '\n' ∉ (toString message.status.code).toList := by
      rw [Nat.toString_eq_ofList_toDigits, String.toList_ofList]
      exact lineBreak_not_mem fun _ => Field.isVisible_of_mem_toDigits
    have reason : '\n' ∉ message.status.reason.toList := by
      rw [Status.reason]
      cases registered : Status.phrase? message.status.code with
      | none => decide
      | some phrase => exact lineBreak_not_mem_phrase registered
    have blank : '\n' ∉ " ".toList := by decide
    simp only [pageOf, String.toList_append, List.mem_append, version, code,
      reason, blank, or_self, not_false_eq_true]
  case names =>
    intro field member
    obtain ⟨entry, present, listed⟩ := List.mem_flatMap.mp member
    obtain ⟨value, -, rfl⟩ := List.mem_map.mp listed
    exact mark_not_mem_name (wellFormed.named entry present)
  case values =>
    intro field member
    obtain ⟨entry, -, listed⟩ := List.mem_flatMap.mp member
    obtain ⟨value, -, rfl⟩ := List.mem_map.mp listed
    exact lineBreak_not_mem_shownValue value

/-- A message with a well-formed header section is shown as its page and no other. -/
theorem isPageOf_display
    {message : Message String}
    (wellFormed : message.headers.WellFormed) :
    (pageOf message).IsPageOf (display message) where
  lawful := lawful_pageOf wellFormed
  written := (toList_display message).symm
  only _ lawful written :=
    lawful.eq_of_text_eq (lawful_pageOf wellFormed)
      (written.trans (toList_display message))

end Reply.Demonstration
