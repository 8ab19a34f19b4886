import Mathlib.Data.List.DropRight
import Reply.Proofs.Agreement
import Reply.Proofs.Text.Ascii

namespace Reply

/-!
# Stated persistence

Stating whether a connection persists prints a list of options that whoever asks reads
again.  Every option that was read is visible, has no comma in it and no blank at its
ends, and is not empty; such options, listed in one value, are read back one by one.
So what is read afterwards is what was meant: the options that were there without the
markers, and the marker that is needed.
-/

/-! ## Trimmed octets -/

namespace Octets

/-- Trimming only drops octets. -/
theorem trim_sublist (octets : Octets) : octets.trim.Sublist octets :=
  (List.rdropWhile_prefix Octet.isBlank _).sublist.trans
    (List.dropWhile_sublist _)

/-- Trimmed octets have no blanks left at their ends. -/
theorem trim_trim (octets : Octets) : octets.trim.trim = octets.trim := by
  have start : octets.trim.dropWhile Octet.isBlank = octets.trim := by
    rw [List.dropWhile_eq_self_iff]
    intro present
    have same :=
      (List.rdropWhile_prefix Octet.isBlank
        (octets.dropWhile Octet.isBlank)).getElem present
    exact same ▸ List.dropWhile_get_zero_not _ _ _
  calc
    octets.trim.trim
        = (octets.trim.dropWhile Octet.isBlank).rdropWhile Octet.isBlank := rfl
    _ = octets.trim := by
          rw [start]
          exact List.rdropWhile_idempotent ..

/-- Blanks in front go when octets are trimmed. -/
theorem trim_append_of_isBlank_left
    {before : Octets}
    (blank : ∀ octet ∈ before, Octet.isBlank octet = true)
    (octets : Octets) :
    trim (before ++ octets) = octets.trim := by
  rw [trim, List.dropWhile_append_of_pos blank]
  rfl

/-- Blanks at the end go when octets are trimmed. -/
theorem trim_append_of_isBlank_right
    {after : Octets}
    (blank : ∀ octet ∈ after, Octet.isBlank octet = true)
    (octets : Octets) :
    trim (octets ++ after) = octets.trim := by
  have gone : after.dropWhile Octet.isBlank = [] :=
    List.dropWhile_eq_nil_iff.mpr blank
  have goneReversed (front : Octets) :
      (front ++ after).reverse.dropWhile Octet.isBlank =
        front.reverse.dropWhile Octet.isBlank := by
    rw [List.reverse_append]
    exact
      List.dropWhile_append_of_pos fun octet member =>
        blank octet (List.mem_reverse.mp member)
  rw [trim, trim, List.dropWhile_append]
  split
  · next none =>
      rw [gone, List.isEmpty_iff.mp none]
  · rw [goneReversed]

/-- Trimming leaves octets as they are when no blank stands at either end. -/
theorem trim_eq_self_iff
    (octets : Octets) :
    octets.trim = octets ↔
      ∀ present : octets ≠ [],
        Octet.isBlank (octets.head present) = false ∧
          Octet.isBlank (octets.getLast present) = false := by
  have endsBare :
      octets.rdropWhile Octet.isBlank = octets ↔
        ∀ present : octets ≠ [],
          Octet.isBlank (octets.getLast present) = false := by
    simp only [List.rdropWhile_eq_self_iff, Bool.not_eq_true]
  have startsBare :
      octets.dropWhile Octet.isBlank = octets ↔
        ∀ present : octets ≠ [],
          Octet.isBlank (octets.head present) = false := by
    simp only [List.dropWhile_eq_self_iff, Bool.not_eq_true,
      List.length_pos_iff, List.head_eq_getElem]
  constructor
  · intro same
    have within : octets.trim.Sublist (octets.dropWhile Octet.isBlank) :=
      (List.rdropWhile_prefix Octet.isBlank _).sublist
    rw [same] at within
    have kept : octets.dropWhile Octet.isBlank = octets :=
      (List.dropWhile_sublist _).antisymm within
    have keptBehind : octets.rdropWhile Octet.isBlank = octets := by
      calc
        octets.rdropWhile Octet.isBlank
            = (octets.dropWhile Octet.isBlank).rdropWhile Octet.isBlank := by
                rw [kept]
        _ = octets := same
    exact fun present =>
      ⟨startsBare.mp kept present, endsBare.mp keptBehind present⟩
  · intro bare
    have kept := startsBare.mpr fun present => (bare present).1
    have keptBehind := endsBare.mpr fun present => (bare present).2
    calc
      octets.trim
          = (octets.dropWhile Octet.isBlank).rdropWhile Octet.isBlank := rfl
      _ = octets := by rw [kept, keptBehind]

/-- The pieces between separators are all there is but the separators. -/
theorem mem_of_mem_splitOn
    {separator : UInt8}
    {octets piece : Octets}
    (member : piece ∈ octets.splitOn separator) :
    ∀ octet ∈ piece, octet ∈ octets ∧ octet ≠ separator := by
  induction octets generalizing piece with
  | nil =>
      rw [List.splitOn_nil, List.mem_singleton] at member
      rw [member]
      exact List.forall_mem_nil _
  | cons head rest inductionHypothesis =>
      have later :
          ∀ {piece : Octets},
            piece ∈ rest.splitOn separator →
              ∀ octet ∈ piece, octet ∈ head :: rest ∧ octet ≠ separator :=
        fun inRest octet inPiece =>
          (inductionHypothesis inRest octet inPiece).imp_left
            (List.mem_cons_of_mem _)
      rw [List.splitOn_cons_eq_if_modifyHead] at member
      split at member
      · rcases List.mem_cons.mp member with rfl | inRest
        · exact List.forall_mem_nil _
        · exact later inRest
      · next other =>
          obtain ⟨first, others, pieces⟩ :=
            List.exists_cons_of_ne_nil (List.splitOn_ne_nil separator rest)
          rw [pieces] at later
          rw [pieces, List.modifyHead_cons] at member
          rcases List.mem_cons.mp member with rfl | inOthers
          · exact
              List.forall_mem_cons.mpr
                ⟨⟨List.mem_cons_self, fun same => other (beq_iff_eq.mpr same)⟩,
                  later List.mem_cons_self⟩
          · exact later (List.mem_cons_of_mem _ inOthers)

end Octets

namespace Connection

/-! ## Options that can be listed -/

/-- An option that reads back from a list. -/
structure Listable (option : Octets) : Prop where
  nonempty : option ≠ []
  visible : ∀ octet ∈ option, Octet.isVisible octet = true
  whole : Octet.comma ∉ option
  trimmed : option.trim = option

theorem listable_close : Listable close :=
  ⟨by decide +kernel, by decide +kernel, by decide +kernel, by decide +kernel⟩

theorem listable_keepAlive : Listable keepAlive :=
  ⟨by decide +kernel, by decide +kernel, by decide +kernel, by decide +kernel⟩

/-- Every option that is read can be listed. -/
theorem listable_of_mem_optionsOf
    {value : Field.Value}
    {option : Octets}
    (member : option ∈ optionsOf value) :
    Listable option := by
  unfold optionsOf at member
  split at member
  · next visible =>
      obtain ⟨trimmed, present⟩ := List.mem_filter.mp member
      obtain ⟨piece, inPieces, rfl⟩ := List.mem_map.mp trimmed
      have piecewise :
          ∀ octet ∈ piece.trim, octet ∈ value.octets ∧ octet ≠ Octet.comma :=
        fun octet inOption =>
          Octets.mem_of_mem_splitOn inPieces octet
            (piece.trim_sublist.subset inOption)
      exact
        { nonempty := by
            simpa only [Bool.not_eq_true', List.isEmpty_eq_false_iff] using present
          visible := fun octet inOption =>
            List.all_eq_true.mp visible octet (piecewise octet inOption).1
          whole := fun inOption => (piecewise _ inOption).2 rfl
          trimmed := piece.trim_trim }
  · contradiction

theorem listable_of_mem_options
    {headers : Headers}
    {option : Octets}
    (member : option ∈ options headers) :
    Listable option := by
  obtain ⟨value, -, inValue⟩ := List.mem_flatMap.mp member
  exact listable_of_mem_optionsOf inValue

/-! ## What a value lists -/

/-- An item of a list: an option, and the octets before and after it. -/
structure Item where
  before : Octets
  option : Octets
  after : Octets

namespace Item

/-- The item as it is written. -/
def text (item : Item) : Octets :=
  item.before ++ item.option ++ item.after

/-- Only blanks surround the option, which has none at its ends and no comma. -/
structure Proper (item : Item) : Prop where
  before : ∀ octet ∈ item.before, Octet.isBlank octet = true
  after : ∀ octet ∈ item.after, Octet.isBlank octet = true
  whole : Octet.comma ∉ item.option
  bare :
    ∀ present : item.option ≠ [],
      Octet.isBlank (item.option.head present) = false ∧
        Octet.isBlank (item.option.getLast present) = false

theorem Proper.comma_not_mem
    {item : Item}
    (proper : item.Proper) :
    Octet.comma ∉ item.text := by
  have noBlank : ¬ Octet.isBlank Octet.comma = true := by decide
  intro inText
  rcases List.mem_append.mp inText with inFront | inAfter
  · rcases List.mem_append.mp inFront with inBefore | inOption
    · exact noBlank (proper.before _ inBefore)
    · exact proper.whole inOption
  · exact noBlank (proper.after _ inAfter)

/-- Trimming an item leaves its option. -/
theorem Proper.trim_text
    {item : Item}
    (proper : item.Proper) :
    item.text.trim = item.option := by
  calc
    item.text.trim
        = (item.before ++ item.option).trim :=
          Octets.trim_append_of_isBlank_right proper.after _
    _ = item.option.trim :=
          Octets.trim_append_of_isBlank_left proper.before _
    _ = item.option := (Octets.trim_eq_self_iff _).mpr proper.bare

/-- The item that octets are, its option being what is left when they are trimmed. -/
def ofText (octets : Octets) : Item where
  before := octets.takeWhile Octet.isBlank
  option := octets.trim
  after := (octets.dropWhile Octet.isBlank).rtakeWhile Octet.isBlank

theorem text_ofText
    (octets : Octets) :
    (ofText octets).text = octets := by
  have behind :
      octets.trim ++
          (octets.dropWhile Octet.isBlank).rtakeWhile Octet.isBlank =
        octets.dropWhile Octet.isBlank :=
    List.rdropWhile_append_rtakeWhile ..
  rw [text, ofText, List.append_assoc, behind, List.takeWhile_append_dropWhile]

theorem proper_ofText
    {octets : Octets}
    (whole : Octet.comma ∉ octets) :
    (ofText octets).Proper where
  before _ := List.mem_takeWhile_imp
  after _ := List.mem_rtakeWhile_imp
  whole := fun inOption => whole (octets.trim_sublist.subset inOption)
  bare := (Octets.trim_eq_self_iff _).mp octets.trim_trim

end Item

/-- Octets that list items: one at least, with a comma between two of them. -/
structure Lists (octets : Octets) (items : List Item) : Prop where
  nonempty : items ≠ []
  proper : ∀ item ∈ items, item.Proper
  text : octets = [Octet.comma].intercalate (items.map Item.text)

/-- All octets list some items. -/
theorem exists_lists
    (octets : Octets) :
    ∃ items, Lists octets items := by
  let pieces := octets.splitOn Octet.comma
  have texts : (pieces.map Item.ofText).map Item.text = pieces := by
    rw [List.map_map]
    exact
      (List.map_congr_left fun piece _ => Item.text_ofText piece).trans
        (List.map_id pieces)
  refine ⟨pieces.map Item.ofText, ?nonempty, ?proper, ?text⟩
  case nonempty =>
    exact mt List.map_eq_nil_iff.mp (List.splitOn_ne_nil _ _)
  case proper =>
    intro item member
    obtain ⟨piece, inPieces, rfl⟩ := List.mem_map.mp member
    exact
      Item.proper_ofText fun inPiece =>
        (Octets.mem_of_mem_splitOn inPieces _ inPiece).2 rfl
  case text =>
    rw [texts]
    exact (List.intercalate_splitOn Octet.comma).symm

/-- The options of a visible value are those of its items that are not empty. -/
theorem optionsOf_eq_of_lists
    {value : Field.Value}
    {items : List Item}
    (visible : value.octets.all Octet.isVisible = true)
    (lists : Lists value.octets items) :
    optionsOf value =
      (items.map Item.option).filter fun option => !option.isEmpty := by
  have whole : ∀ piece ∈ items.map Item.text, Octet.comma ∉ piece := by
    intro piece inPieces
    obtain ⟨item, member, rfl⟩ := List.mem_map.mp inPieces
    exact (lists.proper item member).comma_not_mem
  have cut : value.octets.splitOn Octet.comma = items.map Item.text := by
    rw [lists.text]
    exact
      List.splitOn_intercalate _ whole
        (mt List.map_eq_nil_iff.mp lists.nonempty)
  have trimmed :
      (items.map Item.text).map Octets.trim = items.map Item.option := by
    rw [List.map_map]
    exact
      List.map_congr_left fun item member =>
        (lists.proper item member).trim_text
  rw [optionsOf, if_pos visible, cut, trimmed]

/-- Values that are not visible add no options. -/
theorem flatMap_optionsOf_filter
    (values : List Field.Value) :
    (values.filter fun value => value.octets.all Octet.isVisible).flatMap
        optionsOf =
      values.flatMap optionsOf := by
  induction values with
  | nil => rfl
  | cons value rest inductionHypothesis =>
      rw [List.filter_cons, List.flatMap_cons, ← inductionHypothesis]
      split
      · rw [List.flatMap_cons]
      · next hidden =>
          rw [optionsOf, if_neg hidden, List.nil_append]

/--
The options read from a header section are those that its visible connection values
list, value after value and item after item, but for the items that are empty.
-/
theorem options_eq_of_lists
    {headers : Headers}
    {lists : List (List Item)}
    (listed :
      List.Forall₂ (fun value items => Lists value.octets items)
        ((headers.values .connection).filter fun value =>
          value.octets.all Octet.isVisible)
        lists) :
    options headers =
      (lists.flatten.map Item.option).filter fun option => !option.isEmpty := by
  rw [options, ← flatMap_optionsOf_filter]
  have visible (value : Field.Value) :
      value ∈
          ((headers.values .connection).filter fun value =>
            value.octets.all Octet.isVisible) →
        value.octets.all Octet.isVisible = true :=
    fun member => (List.mem_filter.mp member).2
  generalize
    ((headers.values .connection).filter fun value =>
      value.octets.all Octet.isVisible) = values at listed visible
  induction listed with
  | nil => rfl
  | cons here _ inductionHypothesis =>
      rw [List.flatMap_cons, List.flatten_cons, List.map_append,
        List.filter_append,
        optionsOf_eq_of_lists (visible _ List.mem_cons_self) here,
        inductionHypothesis fun value member =>
          visible value (List.mem_cons_of_mem _ member)]

/-! ## Lists of options -/

/-- Each option but the first is listed after a comma and a space. -/
theorem listing_cons
    (first : Octets)
    (rest : List Octets) :
    listing (first :: rest) =
      [Octet.comma].intercalate (first :: rest.map (Octet.space :: ·)) := by
  induction rest generalizing first with
  | nil => rfl
  | cons second rest inductionHypothesis =>
      have later := inductionHypothesis second
      rw [listing] at later ⊢
      rw [List.intercalate_cons_cons, later, List.map_cons,
        List.intercalate_cons_cons]
      cases rest with
      | nil => simp
      | cons third rest => simp [List.intercalate_cons_cons]

/-- The items as which options are listed; nothing is one empty item. -/
def listed : List Octets → List Item
  | [] => [⟨[], [], []⟩]
  | first :: rest =>
      ⟨[], first, []⟩ :: rest.map fun option => ⟨[Octet.space], option, []⟩

/-- Options that can be listed are what their list lists. -/
theorem lists_listing
    {options : List Octets}
    (listable : ∀ option ∈ options, Listable option) :
    Lists (listing options) (listed options) := by
  have bare {option : Octets} (member : option ∈ options) :=
    (Octets.trim_eq_self_iff option).mp (listable option member).trimmed
  cases options with
  | nil =>
      exact
        { nonempty := List.cons_ne_nil _ _
          proper := by
            rw [listed, List.forall_mem_singleton]
            exact
              ⟨List.forall_mem_nil _, List.forall_mem_nil _, List.not_mem_nil,
                fun present => absurd rfl present⟩
          text := rfl }
  | cons first rest =>
      refine ⟨List.cons_ne_nil _ _, List.forall_mem_cons.mpr ⟨?first, ?later⟩, ?text⟩
      case first =>
        exact
          ⟨List.forall_mem_nil _, List.forall_mem_nil _,
            (listable first List.mem_cons_self).whole, bare List.mem_cons_self⟩
      case later =>
        intro item member
        obtain ⟨option, inRest, rfl⟩ := List.mem_map.mp member
        have inOptions := List.mem_cons_of_mem first inRest
        exact
          ⟨List.forall_mem_singleton.mpr (by decide), List.forall_mem_nil _,
            (listable option inOptions).whole, bare inOptions⟩
      case text =>
        rw [listing_cons, listed, List.map_cons, List.map_map]
        simp [Item.text, Function.comp_def]

/-- A list of visible options is visible. -/
theorem isVisible_of_mem_listing
    {options : List Octets}
    (listable : ∀ option ∈ options, Listable option) :
    ∀ octet ∈ listing options, Octet.isVisible octet = true := by
  induction options with
  | nil => exact List.forall_mem_nil _
  | cons first rest inductionHypothesis =>
      obtain ⟨here, later⟩ := List.forall_mem_cons.mp listable
      cases rest with
      | nil =>
          rw [listing, List.intercalate_singleton]
          exact here.visible
      | cons second others =>
          rw [listing, List.intercalate_cons_cons]
          have separator :
              ∀ octet ∈ [Octet.comma, Octet.space],
                Octet.isVisible octet = true := by
            decide +kernel
          intro octet member
          rcases List.mem_append.mp member with inFront | inRest
          · rcases List.mem_append.mp inFront with inFirst | between
            · exact here.visible octet inFirst
            · exact separator octet between
          · exact inductionHypothesis later octet inRest

/-- Options that can be listed are read back from their list. -/
theorem optionsOf_listing
    {options : List Octets}
    (listable : ∀ option ∈ options, Listable option) :
    optionsOf ⟨listing options⟩ = options := by
  have visible : (listing options).all Octet.isVisible = true :=
    List.all_eq_true.mpr (isVisible_of_mem_listing listable)
  have present :
      options.filter (fun option => !option.isEmpty) = options := by
    rw [List.filter_eq_self]
    intro option member
    simpa using (listable option member).nonempty
  calc
    optionsOf ⟨listing options⟩
        = ((listed options).map Item.option).filter
            (fun option => !option.isEmpty) :=
          optionsOf_eq_of_lists visible (lists_listing listable)
    _ = options.filter (fun option => !option.isEmpty) := by
          cases options with
          | nil => rfl
          | cons first rest => simp [listed, Function.comp_def]
    _ = options := present

/-! ## What is stated -/

/-- Options that are stated can be listed. -/
theorem listable_of_mem_restated
    {version : Version}
    {keep : Bool}
    {headers : Headers}
    {option : Octets}
    (member : option ∈ restated version keep headers) :
    Listable option := by
  rcases List.mem_append.mp member with kept | marking
  · exact listable_of_mem_options (List.mem_filter.mp kept).1
  · rw [Option.mem_toList] at marking
    unfold marker? at marking
    split at marking
    · rw [← Option.some.inj marking]
      exact listable_keepAlive
    · rw [← Option.some.inj marking]
      exact listable_close
    · contradiction

/-- A list of options that are stated is a field value. -/
theorem ofOctets?_listing_restated
    (version : Version)
    (keep : Bool)
    (headers : Headers) :
    Field.Value.ofOctets? (listing (restated version keep headers)) =
      some ⟨listing (restated version keep headers)⟩ := by
  have legal :
      (listing (restated version keep headers)).all Field.isValueOctet =
        true := by
    rw [List.all_eq_true]
    intro octet member
    exact
      isValueOctet_of_isVisible
        (isVisible_of_mem_listing (fun _ => listable_of_mem_restated)
          octet member)
  rw [Field.Value.ofOctets?, if_pos legal]

/-- The connection field lists what is stated, or goes if that is nothing. -/
theorem persist_eq
    (version : Version)
    (keep : Bool)
    (headers : Headers) :
    persist version keep headers =
      if restated version keep headers = [] then
        headers.remove .connection
      else
        headers.set .connection ⟨listing (restated version keep headers)⟩ := by
  have legal := ofOctets?_listing_restated version keep headers
  unfold persist
  cases stated : restated version keep headers with
  | nil => rfl
  | cons first rest =>
      rw [stated] at legal
      simp only [legal, List.cons_ne_nil, if_false]

theorem get?_persist_connection
    (version : Version)
    (keep : Bool)
    (headers : Headers) :
    (persist version keep headers).get? .connection =
      if restated version keep headers = [] then
        none
      else
        some [⟨listing (restated version keep headers)⟩] := by
  rw [persist_eq]
  split
  · rw [Headers.get?_remove, if_pos rfl]
  · rw [Headers.get?_set, if_pos rfl]

theorem get?_persist_of_ne
    (version : Version)
    (keep : Bool)
    (headers : Headers)
    {name : Field.Name}
    (other : name ≠ .connection) :
    (persist version keep headers).get? name = headers.get? name := by
  rw [persist_eq]
  split
  · rw [Headers.get?_remove, if_neg other]
  · rw [Headers.get?_set, if_neg other]

/-- Nothing changes beside the connection field. -/
theorem agreeBeside_persist
    (version : Version)
    (keep : Bool)
    (headers : Headers) :
    (persist version keep headers).AgreeBeside [.connection] headers :=
  fun _ outside => get?_persist_of_ne _ _ _ (mt List.mem_singleton.mpr outside)

/-- The options read afterwards are the ones stated. -/
theorem options_persist
    (version : Version)
    (keep : Bool)
    (headers : Headers) :
    options (persist version keep headers) =
      restated version keep headers := by
  rw [options, Headers.values, get?_persist_connection]
  split
  · next nothing =>
      rw [nothing]
      rfl
  · rw [Option.getD_some, List.flatMap_singleton]
    exact optionsOf_listing fun _ => listable_of_mem_restated

/-! ## Markers -/

/-- A marker that is needed is all that is stated of persistence. -/
theorem restated_eq
    (version : Version)
    (keep : Bool)
    (headers : Headers) :
    restated version keep headers =
      (options headers).filter (fun option => !isMarker option) ++
        if version.isEarly = keep then
          [if keep then keepAlive else close]
        else
          [] := by
  unfold restated marker?
  cases version.isEarly <;> cases keep <;> rfl

/-- Options that are kept are no markers. -/
theorem any_kept
    (headers : Headers)
    {mark : Octets}
    (marks : mark = close ∨ mark = keepAlive) :
    ((options headers).filter fun option => !isMarker option).any
        (fun option => option.eqIgnoringCase mark) =
      false := by
  rw [List.any_eq_false]
  intro option member same
  have unmarked := (List.mem_filter.mp member).2
  rcases marks with rfl | rfl
  · simp [isMarker, same] at unmarked
  · simp [isMarker, same] at unmarked

/-- Whether a connection persists is read as it was stated. -/
theorem persists_persist
    (version : Version)
    (keep : Bool)
    (headers : Headers) :
    persists version (persist version keep headers) = keep := by
  have closing : close.eqIgnoringCase close = true := by decide +kernel
  have keeping : keepAlive.eqIgnoringCase keepAlive = true := by
    decide +kernel
  rw [persists, options_persist, restated_eq, List.any_append, List.any_append,
    any_kept headers (Or.inl rfl), any_kept headers (Or.inr rfl)]
  cases version.isEarly <;> cases keep <;> simp [closing, keeping]

/-- Of two statements only the later one counts. -/
theorem restated_persist
    (version : Version)
    (former keep : Bool)
    (headers : Headers) :
    restated version keep (persist version former headers) =
      restated version keep headers := by
  have marker :
      isMarker (if former then keepAlive else close) = true := by
    cases former <;> decide +kernel
  have dropped :
      ((if version.isEarly = former then
            [if former then keepAlive else close]
          else
            []).filter
          fun option => !isMarker option) =
        [] := by
    split
    · rw [List.filter_singleton, marker]
      rfl
    · rfl
  rw [restated_eq version keep, options_persist, restated_eq version former,
    restated_eq version keep headers, List.filter_append, dropped,
    List.append_nil, List.filter_filter]
  simp only [Bool.and_self]

/-- Stating persistence twice says what the later statement says alone. -/
theorem agree_persist_persist
    (version : Version)
    (former keep : Bool)
    (headers : Headers) :
    (persist version keep (persist version former headers)).Agree
      (persist version keep headers) := by
  intro name
  by_cases same : name = .connection
  · rw [same, get?_persist_connection, get?_persist_connection,
      restated_persist]
  · rw [get?_persist_of_ne _ _ _ same, get?_persist_of_ne _ _ _ same,
      get?_persist_of_ne _ _ _ same]

end Connection

/--
A message of any version with any header section is told whether its connection
persists, and says so.  The options read from it then are those read from it before
but `close` and `keep-alive` in any letter case, in their order, followed by the one of
the two that the version needs to say so, if it needs one.  Listed in one value, which
is always a field value, they are all of the connection field, which is absent if there
are none; nothing else changes.  What was stated earlier leaves no trace.
-/
theorem persistence_stated
    {β : Type}
    (message : Message β)
    (keep : Bool) :
    let stated := message.keepAlive keep
    let kept :=
      (Connection.options message.headers).filter fun option =>
        !(option.eqIgnoringCase (utf8 "close") ||
          option.eqIgnoringCase (utf8 "keep-alive"))
    let marking :=
      if message.version.isEarly = keep then
        [if keep then utf8 "keep-alive" else utf8 "close"]
      else
        []
    let listed := kept ++ marking
    stated.keepsAlive = keep ∧
      Connection.options stated.headers = listed ∧
      stated.headers.get? .connection =
        (if listed = [] then
          none
        else
          some [⟨Connection.listing listed⟩]) ∧
      Field.Value.ofOctets? (Connection.listing listed) =
        some ⟨Connection.listing listed⟩ ∧
      stated.headers.AgreeBeside [.connection] message.headers ∧
      stated.status = message.status ∧
      stated.version = message.version ∧
      stated.body = message.body ∧
      ∀ former, ((message.keepAlive former).keepAlive keep).Agrees stated := by
  intro stated kept marking listed
  have same :
      listed = Connection.restated message.version keep message.headers :=
    (Connection.restated_eq ..).symm
  rw [same]
  exact
    ⟨Connection.persists_persist .., Connection.options_persist ..,
      Connection.get?_persist_connection ..,
      Connection.ofOctets?_listing_restated ..,
      Connection.agreeBeside_persist _ _ _, rfl, rfl, rfl,
      fun former =>
        ⟨rfl, rfl, Connection.agree_persist_persist _ former keep _, rfl⟩⟩

/-- Two readable values and one that is not become one; the marker moves to the end. -/
example :
    let values : List Field.Value :=
      [⟨utf8 "Upgrade,, CLOSE"⟩, ⟨0x80 :: utf8 "close"⟩, ⟨utf8 "\tte ,"⟩]
    (Connection.persist .http11 false (.put .empty .connection values)).get?
        .connection =
      some [⟨utf8 "Upgrade, te, close"⟩] := by
  decide +kernel

end Reply
