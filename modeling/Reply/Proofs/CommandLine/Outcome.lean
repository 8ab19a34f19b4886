import Reply.CommandLine.Program
import Reply.Proofs.CommandLine.Invocation
import Reply.Proofs.CommandLine.Page
import Reply.Proofs.CommandLine.Schedules

namespace Reply.CommandLine

open Demonstration

/-!
# What comes of an invocation

Whatever code and held tag are asked for, a page is shown unless the code is out of
range.  What stands on the page follows from the two alone, and so it does not matter
in which order the tasks take their turns.
-/

/-! ## From the result to the end of the program -/

/-- How the program ends with the result of the owner of the connection. -/
def Ending.ofResult :
    Except Demonstration.Fault (Message String) → Ending
  | .error fault => .fails (.demonstration fault)
  | .ok message => .shows (display message)

/-- With settings that are in order the program ends with what the stages lead to. -/
theorem run_eq
    {contentOf : String → Except FileFault ByteArray}
    {arguments : List String}
    {options : Options}
    {inForce : Settings}
    (settled : read arguments = .run options)
    (valid : settings contentOf options = .ok inForce) :
    run contentOf arguments =
      .ofResult (serve options.statusCode options.held) := by
  simp only [run, settled, perform, valid]
  cases serve options.statusCode options.held <;> rfl

/-! ## What stands on the page -/

/--
What the page of a reply made with a code tells a client that holds a tag or none: the
status that is printed, the content's tag with a 200 reply, and the content and its
length.
-/
structure Answers
    (code : Nat)
    (held : Option String)
    (tag : String)
    (printed : Status)
    (page : Page) : Prop where
  head :
    page.head =
      "HTTP/1.1 " ++ toString printed.code ++ " " ++ printed.reason
  notModified :
    printed.code = 304 ↔ code = 304 ∨ code = 200 ∧ held = some tag
  otherwise : printed.code ≠ 304 → printed.code = code
  once : (page.fields.map Prod.fst).Nodup
  tagged :
    ∀ value, ("etag", value) ∈ page.fields ↔ code = 200 ∧ value = tag
  length :
    ∀ value,
      ("content-length", value) ∈ page.fields ↔
        ¬printed.Bodiless ∧ value = toString (utf8 content.toJson).length
  body :
    page.rest = if printed.Bodiless then "" else content.toJson ++ "\n"

/-- The fields on the page of the message that is served. -/
theorem fields_pageOf_answer (status : Status) (held : Option String) :
    (pageOf (answer status held)).fields =
      (if status = .ok then
        [("etag", Tag.ofDigest content.digest)]
      else
        []) ++
      (if (answered status held).Bodiless then
        []
      else
        [("content-type", "application/json"),
          ("content-length", toString (utf8 content.toJson).length)]) := by
  have tag :
      shownValue ⟨utf8 (Tag.ofDigest content.digest)⟩ =
        Tag.ofDigest content.digest := by
    rw [shownValue, Tag.text?_ofDigest, Option.getD_some]
  have mediaType : shownValue .applicationJson = "application/json" := by
    decide
  have length :
      ∀ text : String,
        shownValue (.ofNat text.utf8ByteSize) = toString (utf8 text).length := by
    intro text
    rw [shownValue, Field.Value.text?_ofNat, Option.getD_some, length_utf8]
  simp only [pageOf, entries_answer]
  split <;> split <;>
    simp only [List.flatMap_cons, List.flatMap_nil, List.map_cons, List.map_nil,
      List.nil_append, List.cons_append, tag, mediaType, length,
      Field.Name.etag, Field.Name.contentType, Field.Name.contentLength]

theorem mem_fields_pageOf_answer
    {status : Status}
    {held : Option String}
    {field : String × String} :
    field ∈ (pageOf (answer status held)).fields ↔
      status = .ok ∧ field = ("etag", Tag.ofDigest content.digest) ∨
        ¬(answered status held).Bodiless ∧
          (field = ("content-type", "application/json") ∨
            field =
              ("content-length", toString (utf8 content.toJson).length)) := by
  rw [fields_pageOf_answer, List.mem_append]
  refine or_congr ?tag ?body
  case tag =>
    split
    · next ok => simp only [ok, true_and, List.mem_singleton]
    · next other => simp only [other, false_and, List.not_mem_nil]
  case body =>
    split
    · next bodiless =>
        simp only [bodiless, not_true, false_and, List.not_mem_nil]
    · next bodied =>
        simp only [bodied, not_false_eq_true, true_and, List.mem_cons,
          List.not_mem_nil, or_false]

/-- The content has a text. -/
theorem isEmpty_toJson_content : content.toJson.isEmpty = false := by
  decide +kernel

/-- The page of the message that is served answers the client. -/
theorem answers (status : Status) (held : Option String) :
    Answers status.code held (Tag.ofDigest content.digest)
      (answered status held) (pageOf (answer status held)) where
  head := rfl
  notModified := by
    rw [← tag?_content]
    unfold answered
    split
    · next same =>
        rw [Status.eq_ok_iff] at same
        simp [same, Status.notModified]
    · next other =>
        rw [Status.eq_ok_iff] at other
        simp [other]
  otherwise := by
    unfold answered
    split
    · intro other
      contradiction
    · exact fun _ => rfl
  once := by
    rw [fields_pageOf_answer]
    split <;> split <;> simp
  tagged := by
    intro value
    simp [mem_fields_pageOf_answer, ← Status.eq_ok_iff]
  length := by
    intro value
    simp [mem_fields_pageOf_answer]
  body := by
    simp only [pageOf, answer]
    split
    · rfl
    · rw [isEmpty_toJson_content, if_neg Bool.false_ne_true]

/-! ## What the program does -/

/--
Arguments can settle any held tag or none beside a path that is not empty and a code of
at most 65535.  With settings that are in order the program then exits with 1 for an
invalid status if and only if the code is out of range.  With any other code it exits
with 0 and shows a page, to be read in one way, that answers the client: the status is
304 if and only if 304 was asked for, or 200 with the content's tag held, and else the
one that was asked for; the tag stands there if and only if 200 was asked for; and the
content follows, after its length, if and only if the printed status allows a body.
In whatever order the tasks take their turns, they take five at most, and until the
owner of the connection has the result that the program ends with, one of them can go
on.
-/
theorem demonstration_delivers
    {contentOf : String → Except FileFault ByteArray}
    {options : Options}
    {inForce : Settings}
    (acceptable : options.Acceptable)
    (valid : settings contentOf options = .ok inForce) :
    (∃ arguments, read arguments = .run options) ∧
      ∀ arguments, read arguments = .run options →
        let code := options.statusCode
        let ending := run contentOf arguments
        (ending.exitCode = 1 ∧
            ending = .fails (.demonstration (.failed (.invalidStatus code))) ↔
          ¬(100 ≤ code ∧ code ≤ 999)) ∧
        (100 ≤ code ∧ code ≤ 999 →
          ending.exitCode = 0 ∧
            ∃ tag text page printed,
              content.tag? = some tag ∧
                ending = .shows text ∧
                page.IsPageOf text ∧
                Answers code options.held tag printed page) ∧
        ∀ order reached,
          Pipeline.start.follow? code options.held order = some reached →
            order.length ≤ 5 ∧
              ((∃ result,
                  reached.owner = .ended result ∧ ending = .ofResult result) ∨
                ∃ party next,
                  reached.turn? code options.held party = some next) := by
  refine ⟨exists_read_iff.mpr acceptable, ?_⟩
  intro arguments settled code ending
  have outcome : ending = .ofResult (serve code options.held) :=
    run_eq settled valid
  have shows :
      ∀ inRange : 100 ≤ code ∧ code ≤ 999,
        ending =
          .shows (display (answer ⟨code, inRange.1, inRange.2⟩ options.held)) := by
    intro inRange
    have good : Status.ofCode? code = some ⟨code, inRange.1, inRange.2⟩ :=
      dif_pos inRange
    rw [outcome, serve_eq, good]
    rfl
  refine ⟨⟨?accepted, ?refused⟩, ?shown, ?scheduled⟩
  case accepted =>
    rintro ⟨-, fails⟩ inRange
    rw [shows inRange] at fails
    contradiction
  case refused =>
    intro outOfRange
    have bad : Status.ofCode? code = none := dif_neg outOfRange
    rw [outcome, serve_eq, bad]
    exact ⟨rfl, rfl⟩
  case shown =>
    intro inRange
    rw [shows inRange]
    exact
      ⟨rfl, _, _, _, _, tag?_content, rfl,
        isPageOf_display (wellFormed_answer ..),
        answers ⟨code, inRange.1, inRange.2⟩ options.held⟩
  case scheduled =>
    intro order reached followed
    obtain ⟨bounded, ended | going⟩ := Pipeline.follow?_start followed
    · exact ⟨bounded, Or.inl ⟨_, ended, outcome⟩⟩
    · exact ⟨bounded, Or.inr going⟩

/--
A client that holds the tag is told so without a content length or a body, while the
owner that waits for the finisher is not the only one who could go on, and a code of
four digits is refused.
-/
theorem demonstration_delivers_held_tag :
    let contentOf : String → Except FileFault ByteArray :=
      fun _ => .error .notFound
    let options : Options := ⟨none, some "\"6bfdea1f\"", none⟩
    let arguments := ["--if-none-match", "\"6bfdea1f\""]
    let outOfRange : Options := ⟨none, none, some 1000⟩
    (options.Acceptable ∧
      settings contentOf options = .ok .default ∧
      read arguments = .run options ∧
      (∃ (text : String) (page : Page) (printed : Status),
        run contentOf arguments = .shows text ∧
          page.IsPageOf text ∧
          printed.code = 304 ∧
          ("etag", "\"6bfdea1f\"") ∈ page.fields ∧
          (∀ value, ("content-length", value) ∉ page.fields) ∧
          page.rest = "") ∧
      ∃ reached : Pipeline,
        Pipeline.start.follow? 200 options.held [.producer, .owner] =
            some reached ∧
          reached.owner = .awaitsFinisher ∧
          ∃ party next,
            reached.turn? 200 options.held party = some next) ∧
    outOfRange.Acceptable ∧
      settings contentOf outOfRange = .ok .default ∧
      read ["-s1000"] = .run outOfRange ∧
      (run contentOf ["-s1000"]).exitCode = 1 := by
  intro contentOf options arguments outOfRange
  have tag : content.tag? = some "\"6bfdea1f\"" := by cbv
  have acceptable : options.Acceptable := by decide
  have settled : read arguments = .run options := by decide
  obtain ⟨-, delivers⟩ :=
    @demonstration_delivers contentOf options .default acceptable rfl
  obtain ⟨-, shown, scheduled⟩ := delivers arguments settled
  obtain ⟨-, _, text, page, printed, current, shows, isPage, answers⟩ :=
    shown (by decide)
  obtain rfl := Option.some.inj (tag.symm.trans current)
  have notModified : printed.code = 304 :=
    answers.notModified.mpr (Or.inr ⟨rfl, rfl⟩)
  have bodiless : printed.Bodiless := Or.inr (Or.inr notModified)
  have unsized : ∀ value, ("content-length", value) ∉ page.fields :=
    fun value member => ((answers.length value).mp member).1 bodiless
  have waiting :
      ∃ reached : Pipeline,
        Pipeline.start.follow? 200 options.held [.producer, .owner] =
            some reached ∧
          reached.owner = .awaitsFinisher :=
    ⟨_, rfl, rfl⟩
  obtain ⟨reached, followed, waits⟩ := waiting
  obtain ⟨-, ⟨result, ended, -⟩ | going⟩ := scheduled _ reached followed
  case inl =>
    rw [waits] at ended
    contradiction
  case inr =>
    have refusedAcceptable : outOfRange.Acceptable := by decide
    have refusedSettled : read ["-s1000"] = .run outOfRange := by decide
    obtain ⟨-, refuses⟩ :=
      @demonstration_delivers contentOf outOfRange .default refusedAcceptable
        rfl
    obtain ⟨refused, -⟩ := refuses _ refusedSettled
    exact
      ⟨⟨acceptable, rfl, settled,
          ⟨text, page, printed, shows, isPage, notModified,
            (answers.tagged _).mpr ⟨rfl, rfl⟩, unsized,
            answers.body.trans (if_pos bodiless)⟩,
          reached, followed, waits, going⟩,
        refusedAcceptable, rfl, refusedSettled, (refused.mpr (by decide)).1⟩

end Reply.CommandLine
