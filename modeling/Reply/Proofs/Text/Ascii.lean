import Reply.Field.Value

namespace Reply

/-!
# Octets of ASCII texts

A text is written character by character, and an ASCII character as one octet
that tells it from all others.  A text of visible ASCII may therefore stand in a
field value, and reads back from its octets; octets of visible ASCII are those of
the text that is read from them.
-/

/-- A text is written character by character. -/
theorem utf8_ofList (characters : List Char) :
    utf8 (String.ofList characters) =
      characters.flatMap String.utf8EncodeChar := by
  rw [utf8, String.toByteArray_ofList, List.utf8Encode,
    List.data_toByteArray, List.toList_toArray]

/-- An ASCII character is written as one octet. -/
theorem utf8EncodeChar_of_ascii
    {character : Char}
    (ascii : character.val ≤ 0x7f) :
    String.utf8EncodeChar character = [character.val.toUInt8] :=
  String.utf8EncodeChar_eq_singleton (Char.utf8Size_eq_one_iff.mpr ascii)

/-- Distinct ASCII characters are written as distinct octets. -/
theorem toUInt8_ne_of_ascii
    {left right : Char}
    (leftAscii : left.val ≤ 0x7f)
    (rightAscii : right.val ≤ 0x7f)
    (different : left ≠ right) :
    left.val.toUInt8 ≠ right.val.toUInt8 := by
  intro same
  have values := congrArg UInt8.toNat same
  simp only [UInt32.toNat_toUInt8] at values
  have leftSmall : left.val.toNat ≤ 0x7f := leftAscii
  have rightSmall : right.val.toNat ≤ 0x7f := rightAscii
  apply different
  apply Char.ext
  apply UInt32.toNat.inj
  omega

/-- Whether a character is visible ASCII. -/
def IsVisible (character : Char) : Prop :=
  0x20 ≤ character.val ∧ character.val < 0x7f

namespace IsVisible

variable {character : Char}

theorem ascii (visible : IsVisible character) : character.val ≤ 0x7f :=
  UInt32.le_of_lt visible.2

/-- The octet of a visible character has the character's number. -/
theorem toNat_toUInt8 (visible : IsVisible character) :
    character.val.toUInt8.toNat = character.toNat := by
  have small : character.val.toNat < 0x7f := visible.2
  rw [UInt32.toNat_toUInt8]
  exact Nat.mod_eq_of_lt (by omega)

/-- Visible characters are written as visible octets. -/
theorem isVisible_octet (visible : IsVisible character) :
    Octet.isVisible character.val.toUInt8 = true := by
  have number := visible.toNat_toUInt8
  have lower : 0x20 ≤ character.toNat := visible.1
  have upper : character.toNat < 0x7f := visible.2
  simp only [Octet.isVisible, Bool.or_eq_true, Bool.and_eq_true,
    decide_eq_true_eq]
  right
  constructor
  · rw [UInt8.le_iff_toNat_le, number]
    exact lower
  · rw [UInt8.lt_iff_toNat_lt, number]
    exact upper

end IsVisible

/-- A visible octet is that of the character with its number. -/
theorem utf8EncodeChar_of_isVisible
    {octet : UInt8}
    (visible : Octet.isVisible octet = true) :
    String.utf8EncodeChar (Char.ofNat octet.toNat) = [octet] := by
  have small : octet.toNat < 0x7f := by
    simp only [Octet.isVisible, Bool.or_eq_true, Bool.and_eq_true,
      decide_eq_true_eq] at visible
    rcases visible with tab | bounds
    · rw [tab]
      decide
    · exact bounds.2
  have number : (Char.ofNat octet.toNat).val.toNat = octet.toNat :=
    congrArg (fun char : Char => char.val.toNat) (dif_pos (Or.inl (by omega)))
  have ascii : (Char.ofNat octet.toNat).val ≤ 0x7f := by
    rw [UInt32.le_iff_toNat_le, number]
    exact Nat.le_of_lt small
  rw [utf8EncodeChar_of_ascii ascii]
  congr 1
  apply UInt8.toNat.inj
  rw [UInt32.toNat_toUInt8, number]
  exact Nat.mod_eq_of_lt (by omega)

/-- A visible octet may stand in a field value. -/
theorem isValueOctet_of_isVisible
    {octet : UInt8}
    (visible : Octet.isVisible octet = true) :
    Field.isValueOctet octet = true := by
  simp only [Octet.isVisible, Bool.or_eq_true, Bool.and_eq_true,
    decide_eq_true_eq] at visible
  simp only [Field.isValueOctet, Bool.or_eq_true, Bool.and_eq_true,
    decide_eq_true_eq]
  refine visible.imp id fun bounds => ⟨bounds.1, ?_⟩
  intro delete
  rw [delete] at bounds
  exact absurd bounds.2 (by decide)

section

variable {characters : List Char}

/-- Visible characters take one octet each. -/
theorem utf8_of_visible
    (visible : ∀ character ∈ characters, IsVisible character) :
    utf8 (String.ofList characters) =
      characters.map fun character => character.val.toUInt8 := by
  rw [utf8_ofList]
  induction characters with
  | nil => rfl
  | cons character rest inductionHypothesis =>
      obtain ⟨first, others⟩ := List.forall_mem_cons.mp visible
      rw [List.flatMap_cons, utf8EncodeChar_of_ascii first.ascii,
        inductionHypothesis others]
      rfl

theorem all_isVisible_utf8
    (visible : ∀ character ∈ characters, IsVisible character) :
    (utf8 (String.ofList characters)).all Octet.isVisible = true := by
  rw [utf8_of_visible visible, List.all_map, List.all_eq_true]
  exact fun character member => (visible character member).isVisible_octet

/-- A visible text reads back from its octets. -/
theorem visibleText?_utf8
    (visible : ∀ character ∈ characters, IsVisible character) :
    Octets.visibleText? (utf8 (String.ofList characters)) =
      some (String.ofList characters) := by
  have back :
      (characters.map fun character => character.val.toUInt8).map
          (fun octet => Char.ofNat octet.toNat) =
        characters := by
    rw [List.map_map]
    refine (List.map_congr_left ?_).trans (List.map_id characters)
    intro character member
    exact
      (congrArg Char.ofNat (visible character member).toNat_toUInt8).trans
        (Char.ofNat_toNat character)
  rw [Octets.visibleText?, if_pos (all_isVisible_utf8 visible),
    utf8_of_visible visible, back]

/-- A visible text is a field value. -/
theorem Field.Value.ofText?_of_visible
    (visible : ∀ character ∈ characters, IsVisible character) :
    Field.Value.ofText? (String.ofList characters) =
      some ⟨utf8 (String.ofList characters)⟩ := by
  have legal :
      (utf8 (String.ofList characters)).all Field.isValueOctet = true := by
    apply List.all_eq_true.mpr
    intro octet member
    exact
      isValueOctet_of_isVisible
        (List.all_eq_true.mp (all_isVisible_utf8 visible) octet member)
  rw [ofText?, ofOctets?, if_pos legal]

end

/-- Visible octets are those of the text that they are read as. -/
theorem utf8_of_visibleText?
    {octets : Octets}
    {text : String}
    (read : octets.visibleText? = some text) :
    utf8 text = octets := by
  unfold Octets.visibleText? at read
  split at read
  · next visible =>
      rw [← Option.some.inj read, utf8_ofList]
      clear read
      induction octets with
      | nil => rfl
      | cons octet rest inductionHypothesis =>
          rw [List.all_cons, Bool.and_eq_true] at visible
          rw [List.map_cons, List.flatMap_cons,
            utf8EncodeChar_of_isVisible visible.1,
            inductionHypothesis visible.2]
          rfl
  · contradiction

end Reply
