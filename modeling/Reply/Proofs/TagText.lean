import Reply.Proofs.Tagging

namespace Reply

/-!
# What a tag looks like

The digits of a word are exact at every width: lower-case hexadecimal, as many as the
width asks for, and they read as the word modulo a power of sixteen.  So a tag has one
form, is told from another by the low halves of the two digests alone, and never fails
to be put into the header section.
-/

/-! ## Words at a width -/

namespace Hex

/-- A text consists of decimal digits and the letters from a to f. -/
def IsText (text : String) : Prop :=
  ∀ character ∈ text.toList, IsDigit character

theorem isText_render
    (width : Nat)
    (word : UInt64) :
    IsText (render width word) := by
  intro character member
  rw [render, String.toList_ofList] at member
  exact isDigit_of_mem_digits member

theorem length_render
    (width : Nat)
    (word : UInt64) :
    (render width word).length = max 1 width := by
  rw [render, String.length_ofList, length_digits]

/-- The text of a word is read as the part that the width keeps. -/
theorem read?_render
    (width : Nat)
    (word : UInt64) :
    read? (render width word).toList =
      some (if width < 16 then word.toNat % 16 ^ width else word.toNat) := by
  rw [render, String.toList_ofList, read?_digits, toNat_low]

end Hex

/-! ## Tags -/

namespace Tag

/-- A tag is the text of the digest's low half between quotes. -/
theorem ofDigest_eq_append (digest : UInt64) :
    ofDigest digest = "\"" ++ Hex.render 8 digest ++ "\"" := by
  apply String.toList_injective
  simp only [ofDigest, Hex.render, String.toList_append, String.toList_ofList]
  rfl

/-- Digests have the same tag if and only if they agree modulo 2 to the 32. -/
theorem ofDigest_eq_iff_mod {left right : UInt64} :
    ofDigest left = ofDigest right ↔
      left.toNat % 2 ^ 32 = right.toNat % 2 ^ 32 := by
  rw [ofDigest_eq_iff, ← UInt32.toNat_inj, UInt64.toNat_toUInt32,
    UInt64.toNat_toUInt32]

end Tag

/--
At every width, a word is written in decimal digits and the letters from a to f, as
many as the width asks for but at least one, which read as the word modulo sixteen to
the power of the width below sixteen and as the word from sixteen on; masking takes no
shift or difference that overflows.  So two digests have the same tag if and only if
they agree modulo 2 to the 32, and a tag is eight such digits between quotes.  It is a
legal field value, so that putting the tag of a reply in sets its field, and finalizing
and revalidating leave the tag there.
-/
theorem tag_text_exact :
    (∀ (width : Nat) (word : UInt64),
      Hex.low? width word = some (Hex.low width word) ∧
        Hex.IsText (Hex.render width word) ∧
        (Hex.render width word).length = max 1 width ∧
        Hex.read? (Hex.render width word).toList =
          some
            (if width < 16 then word.toNat % 16 ^ width else word.toNat)) ∧
      (∀ left right : UInt64,
        Tag.ofDigest left = Tag.ofDigest right ↔
          left.toNat % 2 ^ 32 = right.toNat % 2 ^ 32) ∧
      (∀ digest : UInt64,
        ∃ digits : String,
          Tag.ofDigest digest = "\"" ++ digits ++ "\"" ∧
            digits.length = 8 ∧
            Hex.IsText digits ∧
            Field.Value.ofText? (Tag.ofDigest digest) =
              some ⟨utf8 (Tag.ofDigest digest)⟩) ∧
      ∀ (η : Type) (reply : Buffered η) (tag : String),
        reply.tag? = some tag →
          (∃ digest, tag = Tag.ofDigest digest) ∧
            reply.withTag tag =
              { reply with
                message :=
                  { reply.message with
                    headers :=
                      reply.message.headers.set .etag ⟨utf8 tag⟩ } } ∧
            reply.finalize.value.1.message.headers.values .etag =
              [⟨utf8 tag⟩] ∧
            reply.revalidate.value.message.headers.values .etag =
              [⟨utf8 tag⟩] := by
  refine ⟨?words, fun _ _ => Tag.ofDigest_eq_iff_mod, ?tags, ?replies⟩
  case words =>
    intro width word
    exact
      ⟨Hex.low?_eq width word, Hex.isText_render width word,
        Hex.length_render width word, Hex.read?_render width word⟩
  case tags =>
    intro digest
    exact
      ⟨Hex.render 8 digest, Tag.ofDigest_eq_append digest,
        Hex.length_render 8 digest, Hex.isText_render 8 digest,
        Tag.ofText?_ofDigest digest⟩
  case replies =>
    intro η reply tag current
    exact
      ⟨⟨_, (Buffered.ok_of_tag? current).2⟩, Buffered.withTag_eq current,
        Buffered.values_etag_finalize current,
        Buffered.values_etag_revalidate current⟩

/--
A word with zeros in front loses its highest digit at fifteen places and none at
sixteen, and at no place a single zero is left; two digests that differ in their high
halves only have the same tag.  A reply whose content is the truth value true carries its
tag once it is finalized.
-/
theorem tag_text_exact_leading_zeros :
    let word : UInt64 := 0xa0000000000000bc
    let reply : Buffered Empty :=
      { Buffered.blank 0 with payload := .bool true }
    (Hex.render 0 word = "0" ∧ (Hex.render 0 word).length = 1) ∧
      (Hex.render 15 word = "0000000000000bc" ∧
        Hex.read? (Hex.render 15 word).toList = some 0xbc) ∧
      (Hex.render 16 word).length = 16 ∧
      Hex.read? (Hex.render 16 word).toList = some word.toNat ∧
      Tag.ofDigest word = Tag.ofDigest 0xbc ∧
      reply.tag? = some "\"860202a3\"" ∧
      reply.finalize.value.1.message.headers.values .etag =
        [⟨utf8 "\"860202a3\""⟩] := by
  intro word reply
  obtain ⟨words, tags, -, replies⟩ := tag_text_exact
  have current : reply.tag? = some "\"860202a3\"" := by decide +kernel
  obtain ⟨-, -, finalized, -⟩ := replies Empty reply _ current
  exact
    ⟨⟨by decide +kernel, (words 0 word).2.2.1⟩,
      ⟨by decide +kernel, (words 15 word).2.2.2.trans (by decide)⟩,
      (words 16 word).2.2.1,
      (words 16 word).2.2.2.trans (congrArg some (if_neg (by decide))),
      (tags word 0xbc).mpr (by decide), current, finalized⟩

end Reply
