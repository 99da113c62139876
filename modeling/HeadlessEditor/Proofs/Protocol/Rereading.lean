/-
  HeadlessEditor.Proofs.Protocol.Rereading

  Hovers that were read from JSON, written and read again.  Of all contents
  only parts that look like markup content do not come back from what they
  are written as.  But such parts are never read in the first place: markdown
  is read from nothing but a bare string (`decode_eq_markdown_iff`), and of two
  such strings the first form that is tried makes markup content.  So what has
  been read from any JSON, in whatever form, stays as it is.
-/

import HeadlessEditor.Proofs.Protocol.Hover

namespace HeadlessEditor

namespace Protocol

open Json

variable {j : Json}

/-- Only a bare string is read as markdown; code has a form of its own. -/
theorem decode_eq_markdown_iff {value : String} :
    decode j = some (MarkedString.markdown value) ↔ j = .str value := by
  constructor
  · intro h
    have hcode : (decode j).map MarkedString.code ≠ some (.markdown value) := by
      intro hread
      obtain ⟨block, -, hblock⟩ := Option.map_eq_some_iff.mp hread
      cases hblock
    cases j with
    | str text =>
      obtain rfl : text = value := by
        cases h
        rfl
      rfl
    | _ => exact absurd h hcode
  · rintro rfl
    rfl

/-- The same for a list of them, which is read in one form only. -/
theorem eq_encode_of_decode_markdowns (values : List String)
    (h : decode j = some (values.map MarkedString.markdown)) :
    j = encode (values.map MarkedString.markdown) := by
  have hpart : ∀ part ∈ values.map MarkedString.markdown, ∀ j, decode j = some part →
      j = encode part := by
    rw [List.forall_mem_map]
    exact fun value _ j hj => decode_eq_markdown_iff.mp hj
  cases j with
  | arr elements => exact congrArg Json.arr (eq_map_encode_of_mapM_decode hpart h)
  | _ => cases h

namespace HoverContents

/-- Parts that look like markup content are read as that. -/
theorem not_looksLikeMarkup_of_decode {v : HoverContents} (h : decode j = some v) :
    ¬ v.LooksLikeMarkup := by
  rintro ⟨kind, value, rfl⟩
  have hforms : ((decode j).map markup <|> (decode j).map array <|> (decode j).map scalar)
      = some (array [.markdown kind.name, .markdown value]) := h
  cases hmarkup : (decode j : Option MarkupContent) with
  | some c =>
    rw [hmarkup] at hforms
    cases hforms
  | none =>
    cases hparts : (decode j : Option (List MarkedString)) with
    | none =>
      rw [hmarkup, hparts] at hforms
      obtain ⟨part, -, hpart⟩ := Option.map_eq_some_iff.mp hforms
      cases hpart
    | some parts =>
      rw [hmarkup, hparts] at hforms
      obtain rfl : parts = [.markdown kind.name, .markdown value] := by
        cases hforms
        rfl
      have hwritten : j = encode [MarkedString.markdown kind.name, .markdown value] :=
        eq_encode_of_decode_markdowns [kind.name, value] hparts
      have hread := decode_parts_eq_some_iff (c := ⟨kind, value⟩).mpr rfl
      rw [← hwritten, hmarkup] at hread
      cases hread

/-- The contents that are read from some JSON are those that are read back from their own. -/
theorem exists_decode_eq_some_iff (v : HoverContents) :
    (∃ j, decode j = some v) ↔ decode (encode v) = some v := by
  refine ⟨?_, fun h => ⟨encode v, h⟩⟩
  rintro ⟨j, h⟩
  exact v.decode_encode_eq_some_iff.mpr (not_looksLikeMarkup_of_decode h)

end HoverContents

/-- The contents of a hover are read from a member of its JSON. -/
theorem exists_decode_contents {h : Hover} (hread : decode j = some h) :
    ∃ j' : Json, decode j' = some h.contents := by
  have hmembers : (members? ["contents", "range"] j).bind (fun m =>
      (m.required "contents").bind fun contents => (m.optional "range").bind fun range =>
        some (Hover.mk contents range)) = some h := hread
  obtain ⟨m, -, hm⟩ := Option.bind_eq_some_iff.mp hmembers
  obtain ⟨contents, hcontents, hrest⟩ := Option.bind_eq_some_iff.mp hm
  obtain ⟨range, -, hhover⟩ := Option.bind_eq_some_iff.mp hrest
  obtain rfl := Option.some.inj hhover
  obtain ⟨j', -, hj'⟩ := Option.bind_eq_some_iff.mp hcontents
  exact ⟨j', hj'⟩

/-- Contents, or a hover, that were read from any JSON are read again from what they are written
as, and stay in their form. -/
theorem decode_encode_of_decode (j : Json) :
    (∀ v : HoverContents, decode j = some v → decode (encode v) = some v) ∧
      ∀ h : Hover, decode j = some h → decode (encode h) = some h := by
  constructor
  · intro v hread
    exact v.exists_decode_eq_some_iff.mp ⟨j, hread⟩
  · intro h hread
    have hcontents := h.contents.exists_decode_eq_some_iff.mp (exists_decode_contents hread)
    rw [decode_encode_hover, hcontents, Option.map_some]

/-- A hover by position, with a kind of markup as an object and a member that means nothing. -/
def hoverByPosition : Json :=
  .arr [.arr [.obj [("markdown", .null)], .str "x"],
    .obj [("end", .arr [.int 0, .int 1]), ("note", .null), ("start", .arr [.int 0, .int 0])]]

/-- Code in a language, with a kind of markup that is none. -/
def codeWithKind : Json :=
  .obj [("kind", .str "rust"), ("value", .str "x"), ("language", .str "rust")]

theorem decode_encode_of_decode_byPosition :
    (decode codeWithKind = some (HoverContents.scalar (.code ⟨"rust", "x"⟩)) ∧
        decode (encode (HoverContents.scalar (.code ⟨"rust", "x"⟩)))
          = some (HoverContents.scalar (.code ⟨"rust", "x"⟩))) ∧
      ∃ h : Hover, h.contents = .markup ⟨.markdown, "x"⟩ ∧ decode hoverByPosition = some h ∧
        decode (encode h) = some h := by
  have hcode : decode codeWithKind = some (HoverContents.scalar (.code ⟨"rust", "x"⟩)) := by
    decide
  have hhover : decode hoverByPosition
      = some (Hover.mk (.markup ⟨.markdown, "x"⟩) (some ⟨⟨0, 0⟩, ⟨0, 1⟩⟩)) := by
    decide
  exact ⟨⟨hcode, (decode_encode_of_decode codeWithKind).1 _ hcode⟩, _, rfl, hhover,
    (decode_encode_of_decode hoverByPosition).2 _ hhover⟩

end Protocol

end HeadlessEditor
