import Reply.Proofs.Delivery
import Reply.Proofs.Json.Reals
import Reply.Proofs.Json.Unambiguity

namespace Reply

/-!
# Rendered content means the content

What is rendered of a payload is JSON at every depth: its line breaks are gaps between
values, its escapes are those of the characters they are written for, and an item has a
comma after it unless it is the last.  The text is JSON for that payload and for no
other, so two replies with the same rendered body have the same content.
-/

namespace Json

/-! ## Leaves -/

/-- No white space. -/
def Gap.none : Gap where
  text := []
  spaces := fun _ member => absurd member List.not_mem_nil

/-- A single space. -/
def Gap.space : Gap where
  text := [' ']
  spaces := by
    intro char member
    rw [List.mem_singleton.mp member]
    rfl

/-- A line break with its indentation. -/
def Gap.line (depth : Nat) : Gap where
  text := lineAt depth
  spaces := by
    intro char member
    rcases List.mem_cons.mp member with rfl | inside
    · rfl
    · rw [List.eq_of_mem_replicate inside]
      rfl

/-- A control character is written by its code. -/
theorem coded_control
    {char : Char}
    (control : char.toNat < 0x20) :
    Coded char.toNat
      ['0', '0', hexDigit (char.toNat / 16), hexDigit (char.toNat % 16)] := by
  have each :
      ∀ code : Fin 0x20,
        Hex.read? ['0', '0', hexDigit (code / 16), hexDigit (code % 16)] =
          some code.val := by
    decide
  exact ⟨rfl, each ⟨char.toNat, control⟩⟩

/-- A character is written in one of the ways that the grammar has for it. -/
theorem writes_escaped (char : Char) : Writes char (escaped char) := by
  have short :
      ∀ {letter named : Char},
        char = named →
        (letter, named) ∈ shortEscapes →
        Writes char ['\\', letter] := by
    rintro letter named rfl listed
    exact .short listed
  unfold escaped
  split_ifs with quote backslash backspace tab newline feed carriage control
  · exact short quote (by decide)
  · exact short backslash (by decide)
  · exact short backspace (by decide)
  · exact short tab (by decide)
  · exact short newline (by decide)
  · exact short feed (by decide)
  · exact short carriage (by decide)
  · exact .coded (coded_control control)
  · exact .plain (Nat.le_of_not_lt control) quote backslash

theorem literal_escaped (text : List Char) :
    Literal text (text.flatMap escaped) := by
  induction text with
  | nil => exact .nil
  | cons char rest inductionHypothesis =>
      exact .cons (writes_escaped char) inductionHypothesis

/-- A string literal is a string of the grammar. -/
theorem quotes_quoted (text : String) : Quotes text (quoted text.toList) :=
  ⟨_, literal_escaped _, rfl⟩

/-- The numeral of an integer. -/
def Numeral.ofInt (value : Int) : Numeral where
  negative := value < 0
  whole := natural value.natAbs
  fraction := []
  exponent := []
  digits := digits_natural value.natAbs
  noLeadingZero := by
    intro zero
    rcases Decimal.toDigits_cases value.natAbs with
      alone | ⟨first, rest, same, notZero⟩
    · exact alone
    · rw [natural, same] at zero
      exact absurd (Option.some.inj zero) notZero
  isFraction := Or.inl rfl
  isExponent := Or.inl rfl

theorem Numeral.text_ofInt (value : Int) :
    (Numeral.ofInt value).text = integer value := by
  unfold Numeral.text ofInt integer
  simp only [decide_eq_true_eq, List.append_nil]
  split <;> rfl

/-- The numeral of an integer means it. -/
theorem Numeral.integer?_ofInt (value : Int) :
    (Numeral.ofInt value).integer? = some value := by
  have digits : Nat.ofDigitChars 10 (natural value.natAbs) 0 = value.natAbs :=
    Nat.ofDigitChars_ten_toDigits
  have noMinusZero :
      ¬((Numeral.ofInt value).negative = true ∧
        (Numeral.ofInt value).whole = ['0']) := by
    rintro ⟨negative, zero⟩
    have below : value < 0 := of_decide_eq_true negative
    have isZero : natural value.natAbs = ['0'] := zero
    rw [isZero] at digits
    have none : value.natAbs = 0 := digits.symm
    omega
  rw [integer?, if_pos ⟨rfl, rfl, noMinusZero⟩]
  congr 1
  simp only [ofInt, decide_eq_true_eq, digits]
  split <;> omega

/-! ## Containers -/

theorem renderItems_eq_flatMap
    (depth : Nat)
    (items : List Payload) :
    renderItems depth items =
      items.flatMap fun item => ',' :: (lineAt depth ++ render depth item) := by
  induction items with
  | nil => rfl
  | cons item rest inductionHypothesis =>
      rw [renderItems, inductionHypothesis]
      rfl

/-- A key and its value on a line. -/
def renderEntry
    (depth : Nat)
    (entry : String × Payload) :
    List Char :=
  quoted entry.1.toList ++ ':' :: ' ' :: render depth entry.2

theorem renderEntries_eq_flatMap
    (depth : Nat)
    (entries : List (String × Payload)) :
    renderEntries depth entries =
      entries.flatMap fun entry =>
        ',' :: (lineAt depth ++ renderEntry depth entry) := by
  induction entries with
  | nil => rfl
  | cons entry rest inductionHypothesis =>
      rcases entry with ⟨key, value⟩
      simp only [renderEntries, inductionHypothesis, renderEntry,
        List.flatMap_cons, List.cons_append, List.append_assoc]

section

variable {α β : Type}

/-- The parts made of some values, with a gap at the end of the last. -/
def partsOf
    (make : Gap → α → β)
    (closing : Gap) :
    List α → List β
  | [] => []
  | [last] => [make closing last]
  | first :: second :: rest =>
      make .none first :: partsOf make closing (second :: rest)

theorem forall_mem_partsOf
    {make : Gap → α → β}
    {closing : Gap}
    {holds : β → Prop}
    {values : List α}
    (each : ∀ value ∈ values, ∀ gap, holds (make gap value)) :
    ∀ part ∈ partsOf make closing values, holds part := by
  induction values with
  | nil =>
      intro part member
      contradiction
  | cons first rest inductionHypothesis =>
      obtain ⟨here, later⟩ := List.forall_mem_cons.mp each
      cases rest with
      | nil => exact List.forall_mem_singleton.mpr (here closing)
      | cons second rest =>
          exact List.forall_mem_cons.mpr ⟨here .none, inductionHypothesis later⟩

theorem map_partsOf
    {make : Gap → α → β}
    {closing : Gap}
    {value : β → α}
    (values : ∀ gap part, value (make gap part) = part)
    (parts : List α) :
    (partsOf make closing parts).map value = parts := by
  induction parts with
  | nil => rfl
  | cons first rest inductionHypothesis =>
      cases rest with
      | nil => exact congrArg (fun only => [only]) (values closing first)
      | cons second rest =>
          exact congrArg₂ List.cons (values .none first) inductionHypothesis

theorem partsOf_ne_nil
    (make : Gap → α → β)
    (closing : Gap)
    (first : α)
    (rest : List α) :
    partsOf make closing (first :: rest) ≠ [] := by
  cases rest with
  | nil => exact List.cons_ne_nil _ _
  | cons second rest => exact List.cons_ne_nil _ _

/-- Parts are written with commas between them and the gap after the last. -/
theorem lists_partsOf
    {make : Gap → α → β}
    {closing : Gap}
    {text : β → List Char}
    {body : α → List Char}
    (texts : ∀ gap part, text (make gap part) = body part ++ gap.text)
    (first : α)
    (rest : List α) :
    Lists ((partsOf make closing (first :: rest)).map text)
      (body first ++
        (rest.flatMap (fun part => ',' :: body part) ++ closing.text)) := by
  have nonempty :
      ∀ first rest, (partsOf make closing (first :: rest)).map text ≠ [] := by
    intro first rest isEmpty
    exact partsOf_ne_nil make closing first rest (List.map_eq_nil_iff.mp isEmpty)
  have written :
      List.intercalate [','] ((partsOf make closing (first :: rest)).map text) =
        body first ++
          (rest.flatMap (fun part => ',' :: body part) ++ closing.text) := by
    induction rest generalizing first with
    | nil =>
        rw [partsOf, List.map_singleton, List.intercalate_singleton, texts]
        rfl
    | cons second rest inductionHypothesis =>
        have none : (Gap.none).text = [] := rfl
        rw [partsOf, List.map_cons,
          List.intercalate_cons_of_ne_nil (nonempty second rest),
          inductionHypothesis, texts, none]
        simp only [List.flatMap_cons, List.append_assoc, List.cons_append,
          List.nil_append]
  rw [← written]
  obtain ⟨text, texts, same⟩ := List.exists_cons_of_ne_nil (nonempty first rest)
  rw [same]
  exact .some text texts

end

/-- An item after its line break. -/
def itemOf (depth : Nat) (after : Gap) (payload : Payload) : Item where
  before := .line depth
  payload := payload
  form := render depth payload
  after := after

/-- An entry after its line break. -/
def entryOf (depth : Nat) (after : Gap) (entry : String × Payload) : Entry where
  before := .line depth
  key := entry.1
  form := quoted entry.1.toList
  quotes := quotes_quoted entry.1
  after := .none
  item := ⟨.space, entry.2, render depth entry.2, after⟩

/-- What is rendered of a payload at any depth is a form of it. -/
theorem spells_render
    (payload : Payload)
    (depth : Nat) :
    Spells payload (render depth payload) := by
  induction payload generalizing depth with
  | null => exact .null
  | bool value =>
      cases value with
      | true => exact .isTrue
      | false => exact .isFalse
  | whole value =>
      rw [render, ← Numeral.text_ofInt]
      exact .whole (Numeral.integer?_ofInt value.value)
  | real value =>
      obtain ⟨numeral, written, -, noInteger, -⟩ := exists_numeral_real value
      rw [render, ← written]
      refine .real fun whole same => ?_
      rw [noInteger] at same
      contradiction
  | text value => exact .text (quotes_quoted value)
  | array items inductionHypothesis =>
      cases items with
      | nil =>
          have lists : Lists (([] : List Item).map Item.text) [] := .none .none
          exact .array lists fun _ member => absurd member List.not_mem_nil
      | cons first rest =>
          have texts :
              ∀ gap payload,
                (itemOf (depth + 1) gap payload).text =
                  lineAt (depth + 1) ++ render (depth + 1) payload ++ gap.text := by
            intro gap payload
            exact (List.append_assoc ..).symm
          have spelled :
              ∀ item ∈ partsOf (itemOf (depth + 1)) (.line depth) (first :: rest),
                Spells item.payload item.form :=
            forall_mem_partsOf fun payload member _ =>
              inductionHypothesis payload member (depth + 1)
          have form := Spells.array (lists_partsOf texts first rest) spelled
          rw [map_partsOf fun _ _ => rfl] at form
          rw [render, renderItems_eq_flatMap]
          simpa only [Gap.line, List.append_assoc] using form
  | object entries inductionHypothesis =>
      cases entries with
      | nil =>
          have lists : Lists (([] : List Entry).map Entry.text) [] := .none .none
          exact .object lists fun _ member => absurd member List.not_mem_nil
      | cons first rest =>
          have texts :
              ∀ gap entry,
                (entryOf (depth + 1) gap entry).text =
                  lineAt (depth + 1) ++ renderEntry (depth + 1) entry ++
                    gap.text := by
            intro gap entry
            simp only [Entry.text, Item.text, entryOf, renderEntry, Gap.none,
              Gap.space, Gap.line, List.append_assoc, List.cons_append,
              List.nil_append]
          have spelled :
              ∀ entry ∈ partsOf (entryOf (depth + 1)) (.line depth) (first :: rest),
                Spells entry.item.payload entry.item.form :=
            forall_mem_partsOf fun entry member _ =>
              inductionHypothesis entry member (depth + 1)
          have form := Spells.object (lists_partsOf texts first rest) spelled
          rw [map_partsOf fun _ _ => rfl] at form
          rcases first with ⟨key, value⟩
          rw [render, renderEntries_eq_flatMap]
          simpa only [Gap.line, renderEntry, List.append_assoc,
            List.cons_append] using form

/-- The text of a payload is that of an item without gaps around it. -/
theorem toList_toJson (payload : Payload) :
    payload.toJson.toList =
      (⟨.none, payload, render 0 payload, .none⟩ : Item).text := by
  rw [Payload.toJson, String.toList_ofList]
  exact (List.append_nil _).symm

/-- The text of a payload, whatever it holds, means what the payload comes to. -/
theorem means_toJson (payload : Payload) :
    Means payload.toJson payload.built :=
  ⟨_, toList_toJson payload, spells_render payload 0, rfl⟩

/-- Without floating point numbers the text of a payload means nothing else. -/
theorem means_toJson_iff
    {payload : Payload}
    (floatFree : payload.FloatFree)
    {other : Payload} :
    Means payload.toJson other ↔ other = payload.built := by
  constructor
  · exact
      Means.eq_built (toList_toJson payload) (spells_render payload 0) floatFree
  · rintro rfl
    exact means_toJson payload

end Json

/-! ## Rendered replies -/

/--
A reply whose content is written into its body: the body is empty, the status allows
one, and the content is no empty payload, binds each key once and holds no floating
point number.
-/
structure Buffered.RendersExactly {η : Type} (reply : Buffered η) : Prop where
  noBody : reply.message.body = ""
  allowed : ¬reply.message.status.Bodiless
  content : reply.payload.isEmpty = false
  ordered : reply.payload.InStrictOrder
  floatFree : reply.payload.FloatFree

theorem Buffered.RendersExactly.body_eq
    {η : Type}
    {reply : Buffered η}
    (renders : reply.RendersExactly) :
    reply.render.message.body = reply.payload.toJson := by
  rw [message_render,
    if_pos ⟨renders.noBody, renders.content, renders.allowed⟩]

/-- The body means the content and nothing else. -/
theorem Buffered.RendersExactly.means_iff
    {η : Type}
    {reply : Buffered η}
    (renders : reply.RendersExactly)
    {payload : Payload} :
    Json.Means reply.render.message.body payload ↔ payload = reply.payload := by
  rw [renders.body_eq, Json.means_toJson_iff renders.floatFree,
    renders.ordered.built_eq]

/-- No payload is meant by an empty text. -/
theorem Json.Means.ne_empty
    {text : String}
    {payload : Payload}
    (means : Json.Means text payload) :
    text ≠ "" := by
  rintro rfl
  obtain ⟨item, same, spells, -⟩ := means
  obtain ⟨first, tail, form, -⟩ := spells.exists_cons
  have member : first ∈ item.text := by
    simp [Json.Item.text, form]
  rw [← same] at member
  exact absurd member List.not_mem_nil

/--
The rendered body of a reply is a text that is JSON for its content, at whatever depth
and with whatever characters and integers, and for no other payload.  Replies with the
same rendered body therefore have the same content.
-/
theorem rendered_body_means_payload {η : Type} :
    (∀ reply : Buffered η,
      reply.RendersExactly →
        reply.render.message.body ≠ "" ∧
          ∀ payload,
            Json.Means reply.render.message.body payload ↔
              payload = reply.payload) ∧
      (∀ reply other : Buffered η,
        reply.RendersExactly →
        other.RendersExactly →
        reply.render.message.body = other.render.message.body →
        reply.payload = other.payload) := by
  refine ⟨?means, ?distinct⟩
  case means =>
    intro reply renders
    have means := renders.means_iff.mpr rfl
    exact ⟨means.ne_empty, fun _ => renders.means_iff⟩
  case distinct =>
    intro reply other renders otherRenders same
    have means := renders.means_iff.mpr rfl
    rw [same] at means
    exact otherRenders.means_iff.mp means

/--
Integers at both ends of their range, empty containers inside others, a control
character and letters beyond ASCII; and a line break in place of a backslash and an n.
-/
theorem rendered_body_means_payload_escapes :
    let least : Payload := .whole ⟨-0x8000000000000000, by decide, by decide⟩
    let greatest : Payload := .whole ⟨0xffffffffffffffff, by decide, by decide⟩
    let within (text : String) : Payload :=
      .object
        [("\x00\"\\", .array [least, greatest, .array [], .object [], .null]),
          ("é", .text text)]
    let reply (text : String) : Buffered Unit :=
      { Buffered.blank 0 with payload := within text }
    (∀ payload,
      Json.Means (reply "\n").render.message.body payload ↔
        payload = within "\n") ∧
      (reply "\n").render.message.body ≠ (reply "\\n").render.message.body := by
  intro least greatest within reply
  have keys : "\x00\"\\" < "é" := by decide
  have ordered : ∀ text, (within text).InStrictOrder := by
    intro text
    refine .object (List.pairwise_pair.mpr keys) ?_
    refine List.forall_mem_cons.mpr
      ⟨.array ?_, List.forall_mem_singleton.mpr (.text text)⟩
    intro item member
    simp only [List.mem_cons, List.not_mem_nil, or_false] at member
    rcases member with rfl | rfl | rfl | rfl | rfl
    exacts
      [.whole _, .whole _, .array (by simp), .object .nil (by simp), .null]
  have floatFree : ∀ text, (within text).FloatFree := by
    intro text
    refine .object (List.forall_mem_cons.mpr
      ⟨.array ?_, List.forall_mem_singleton.mpr (.text text)⟩)
    intro item member
    simp only [List.mem_cons, List.not_mem_nil, or_false] at member
    rcases member with rfl | rfl | rfl | rfl | rfl
    exacts [.whole _, .whole _, .array (by simp), .object (by simp), .null]
  have allowed : ¬Status.ok.Bodiless := by decide
  have renders : ∀ text, (reply text).RendersExactly := fun text =>
    ⟨rfl, allowed, rfl, ordered text, floatFree text⟩
  obtain ⟨means, distinct⟩ := rendered_body_means_payload (η := Unit)
  refine ⟨(means (reply "\n") (renders "\n")).2, ?_⟩
  intro same
  have payloads := distinct _ _ (renders "\n") (renders "\\n") same
  have entries :=
    (List.cons.inj (List.cons.inj (Payload.object.inj payloads)).2).1
  exact absurd (Payload.text.inj (Prod.mk.inj entries).2) (by decide)

end Reply
