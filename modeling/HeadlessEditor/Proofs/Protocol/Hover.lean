/-
  HeadlessEditor.Proofs.Protocol.Hover

  Hovers written as JSON and read back.  The forms of hover contents are not
  told apart in writing, and two of them overlap: an array of the name of a
  kind and a text is markup content by position, and it is two parts in
  markdown, the first of which happens to be that name.  Markup content is
  tried first, so such parts come back as markup content
  (`HoverContents.LooksLikeMarkup`).  All other contents are read back.
-/

import HeadlessEditor.Protocol.Markup
import HeadlessEditor.Proofs.Json.Wire

namespace HeadlessEditor.Protocol

open Json

-- ============================================================================
-- What hovers consist of
-- ============================================================================

instance : LawfulWire Position :=
  ⟨fun p => read_pair (by decide) p.line p.character Position.mk⟩

instance : LawfulWire Range :=
  ⟨fun r => read_pair (by decide) r.start r.stop Range.mk⟩

instance : NeverNull Range :=
  ⟨nofun⟩

theorem MarkupKind.ofName?_eq_some_iff {name : String} {kind : MarkupKind} :
    MarkupKind.ofName? name = some kind ↔ name = kind.name := by
  constructor
  · intro h
    rw [MarkupKind.ofName?] at h
    split at h
    · next hname =>
      obtain rfl := Option.some.inj h
      exact hname
    · split at h
      · next hname =>
        obtain rfl := Option.some.inj h
        exact hname
      · cases h
  · intro h
    subst h
    cases kind <;> rfl

instance : LawfulWire MarkupKind :=
  ⟨fun _ => MarkupKind.ofName?_eq_some_iff.mpr rfl⟩

instance : LawfulWire MarkupContent :=
  ⟨fun c => read_pair (by decide) c.kind c.value MarkupContent.mk⟩

instance : LawfulWire CodeBlock :=
  ⟨fun c => read_pair (by decide) c.language c.value CodeBlock.mk⟩

instance : LawfulWire MarkedString where
  decode_encode
    | .markdown _ => rfl
    | .code block => by
      have hcode : (decode (encode block)).map MarkedString.code = some (.code block) := by
        rw [decode_encode, Option.map_some]
      exact hcode

-- ============================================================================
-- Parts that look like markup content
-- ============================================================================

/-- Two parts in markdown, the first of which is the name of a kind of markup. -/
def HoverContents.LooksLikeMarkup (contents : HoverContents) : Prop :=
  ∃ (kind : MarkupKind) (value : String),
    contents = .array [.markdown kind.name, .markdown value]

/-- Two values are read as markup content by position: as its kind and its text. -/
theorem decode_markupContent_pair (i j : Json) :
    (decode (.arr [i, j]) : Option MarkupContent)
      = (decode i).bind fun kind => (decode j).bind fun value => some ⟨kind, value⟩ :=
  rfl

/-- Of the parts, only the name of a kind is read as a kind of markup. -/
theorem decode_markupKind_eq_some_iff {part : MarkedString} {kind : MarkupKind} :
    decode (encode part) = some kind ↔ part = .markdown kind.name := by
  cases part with
  | markdown value =>
    rw [MarkedString.markdown.injEq]
    exact MarkupKind.ofName?_eq_some_iff
  | code block => exact ⟨nofun, nofun⟩

/-- Of the parts, only markdown is read as a text. -/
theorem decode_string_eq_some_iff {part : MarkedString} {value : String} :
    decode (encode part) = some value ↔ part = .markdown value := by
  cases part with
  | markdown text =>
    have hread : decode (encode (MarkedString.markdown text)) = some text := rfl
    rw [MarkedString.markdown.injEq, hread, Option.some.injEq]
  | code block => exact ⟨nofun, nofun⟩

/-- Parts are read as markup content only if they are two, the name of its kind and its text. -/
theorem decode_parts_eq_some_iff {parts : List MarkedString} {c : MarkupContent} :
    decode (encode parts) = some c ↔ parts = [.markdown c.kind.name, .markdown c.value] := by
  match parts with
  | [] => exact ⟨nofun, nofun⟩
  | [x] =>
    have hnone : (decode (encode [x]) : Option MarkupContent) = none := by
      show ((decode (encode x)).bind fun _ => none) = none
      rw [Option.bind_fun_none]
    rw [hnone]
    exact ⟨nofun, nofun⟩
  | [x, y] =>
    have hpair : encode [x, y] = .arr [encode x, encode y] := rfl
    rw [hpair, decode_markupContent_pair, Option.bind_eq_some_iff]
    constructor
    · rintro ⟨kind, hkind, hrest⟩
      obtain ⟨value, hvalue, hc⟩ := Option.bind_eq_some_iff.mp hrest
      obtain rfl := Option.some.inj hc
      rw [decode_markupKind_eq_some_iff.mp hkind, decode_string_eq_some_iff.mp hvalue]
    · intro h
      obtain ⟨hx, hy⟩ : x = .markdown c.kind.name ∧ y = .markdown c.value := by
        simpa using h
      refine ⟨c.kind, decode_markupKind_eq_some_iff.mpr hx, ?_⟩
      rw [decode_string_eq_some_iff.mpr hy, Option.bind_some]
  | x :: y :: z :: rest =>
    have hnone : (decode (encode (x :: y :: z :: rest)) : Option MarkupContent) = none := rfl
    rw [hnone]
    exact ⟨nofun, nofun⟩

-- ============================================================================
-- Hovers
-- ============================================================================

namespace HoverContents

theorem decode_encode_markup (c : MarkupContent) :
    decode (encode (markup c)) = some (markup c) := by
  have hread : (decode (encode c)).map markup = some (markup c) := by
    rw [decode_encode, Option.map_some]
  show ((decode (encode c)).map markup <|> _) = some (markup c)
  rw [hread]
  rfl

theorem decode_encode_scalar (part : MarkedString) :
    decode (encode (scalar part)) = some (scalar part) := by
  have hmarkup : (decode (encode part) : Option MarkupContent) = none := by
    cases part <;> rfl
  have harray : (decode (encode part) : Option (List MarkedString)) = none := by
    cases part <;> rfl
  have hread : (decode (encode part)).map scalar = some (scalar part) := by
    rw [decode_encode, Option.map_some]
  show ((decode (encode part)).map markup <|> (decode (encode part)).map array
    <|> (decode (encode part)).map scalar) = some (scalar part)
  rw [hmarkup, harray, hread]
  rfl

/-- Several parts are read as markup content, if they can be. -/
theorem decode_encode_array (parts : List MarkedString) :
    decode (encode (array parts))
      = ((decode (encode parts)).map markup <|> some (array parts)) := by
  have hread : (decode (encode parts)).map array = some (array parts) := by
    rw [decode_encode, Option.map_some]
  show ((decode (encode parts)).map markup <|> (decode (encode parts)).map array <|> _) = _
  rw [hread]
  rfl

/-- All contents are read back but those that look like markup content. -/
theorem decode_encode_eq_some_iff (v : HoverContents) :
    decode (encode v) = some v ↔ ¬ v.LooksLikeMarkup := by
  cases v with
  | markup c => exact ⟨fun _ => nofun, fun _ => decode_encode_markup c⟩
  | scalar part => exact ⟨fun _ => nofun, fun _ => decode_encode_scalar part⟩
  | array parts =>
    rw [decode_encode_array]
    cases hparts : (decode (encode parts) : Option MarkupContent) with
    | none =>
      refine ⟨?_, fun _ => rfl⟩
      rintro - ⟨kind, value, hlooks⟩
      rw [array.injEq] at hlooks
      have hsome := decode_parts_eq_some_iff (c := ⟨kind, value⟩).mpr hlooks
      rw [hparts] at hsome
      cases hsome
    | some c =>
      have hlooks := decode_parts_eq_some_iff.mp hparts
      exact ⟨nofun, fun h => absurd ⟨c.kind, c.value, congrArg array hlooks⟩ h⟩

end HoverContents

/-- A hover comes back with what its contents come back as. -/
theorem decode_encode_hover (h : Hover) :
    decode (encode h) = (decode (encode h.contents)).map (Hover.mk · h.range) := by
  have hne : "range" ≠ "contents" := by decide
  have hcontents : (member "contents" h.contents ++ (member? "range" h.range ++ [])).required
      "contents" = (decode (encode h.contents) : Option HoverContents) := by
    rw [Members.required, lookup_member_self, Option.bind_some]
  have hrange : (member "contents" h.contents ++ (member? "range" h.range ++ [])).optional "range"
      = some h.range := by
    rw [optional_member_of_ne hne, optional_member?_self rfl]
  calc decode (encode h)
      = ((member "contents" h.contents ++ (member? "range" h.range ++ [])).required
          "contents").bind fun contents =>
        ((member "contents" h.contents ++ (member? "range" h.range ++ [])).optional
          "range").bind fun range => some (Hover.mk contents range) := rfl
    _ = (decode (encode h.contents)).bind fun contents => some (Hover.mk contents h.range) := by
        rw [hcontents, hrange]
        rfl
    _ = (decode (encode h.contents)).map (Hover.mk · h.range) := Option.map_eq_bind.symm

/-- Contents, and a hover with them, are read back from their JSON forms, unless they are two parts
in markdown of which the first is the name of a kind of markup.  Those come back as markup content
of that kind. -/
theorem decode_encode_iff_not_looksLikeMarkup (v : HoverContents) :
    (decode (encode v) = some v ↔ ¬ v.LooksLikeMarkup) ∧
      (∀ range, decode (encode (Hover.mk v range)) = some (Hover.mk v range) ↔
        ¬ v.LooksLikeMarkup) ∧
      ∀ (kind : MarkupKind) (value : String),
        decode (encode (HoverContents.array [.markdown kind.name, .markdown value]))
          = some (HoverContents.markup ⟨kind, value⟩) := by
  refine ⟨v.decode_encode_eq_some_iff, fun range => ?_, fun kind value => ?_⟩
  · rw [← v.decode_encode_eq_some_iff, decode_encode_hover, Option.map_eq_some_iff]
    constructor
    · rintro ⟨contents, hread, hhover⟩
      rw [Hover.mk.injEq] at hhover
      rw [hread, hhover.1]
    · intro hread
      exact ⟨v, hread, rfl⟩
  · have hparts := decode_parts_eq_some_iff (c := ⟨kind, value⟩).mpr rfl
    rw [HoverContents.decode_encode_array, hparts]
    rfl

/-- Two parts in markdown that come back as one text. -/
theorem not_decode_encode_contents :
    ¬ ∀ v : HoverContents, decode (encode v) = some v := by
  intro h
  have hlooks : (HoverContents.array [.markdown "markdown", .markdown "x"]).LooksLikeMarkup :=
    ⟨.markdown, "x", rfl⟩
  exact (HoverContents.decode_encode_eq_some_iff _).mp (h _) hlooks

end HeadlessEditor.Protocol
