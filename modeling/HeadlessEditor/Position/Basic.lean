/-
  HeadlessEditor.Position.Basic

  Positions in a document: a line and a character within it, both counted
  from zero.  Characters are counted in UTF-16 code units, as the Language
  Server Protocol does.  Positions are ordered line first.
-/

namespace HeadlessEditor

/-- A place in a document, by line and by UTF-16 code unit within the line. -/
structure Position where
  line : UInt32
  character : UInt32
deriving DecidableEq, Repr, Inhabited

/-- The document between two positions; `stop` is not part of it. -/
structure Range where
  start : Position
  stop : Position
deriving DecidableEq, Repr, Inhabited

namespace Position

/-- Line first, then character. -/
instance : LE Position :=
  ⟨fun p q => p.line < q.line ∨ p.line = q.line ∧ p.character ≤ q.character⟩

instance (p q : Position) : Decidable (p ≤ q) :=
  inferInstanceAs (Decidable (p.line < q.line ∨ p.line = q.line ∧ p.character ≤ q.character))

theorem le_total (p q : Position) : p ≤ q ∨ q ≤ p := by
  rcases Nat.lt_trichotomy p.line.toNat q.line.toNat with h | h | h
  · exact Or.inl (Or.inl h)
  · have hl : p.line = q.line := UInt32.toNat_inj.mp h
    rcases Nat.le_total p.character.toNat q.character.toNat with hc | hc
    · exact Or.inl (Or.inr ⟨hl, hc⟩)
    · exact Or.inr (Or.inr ⟨hl.symm, hc⟩)
  · exact Or.inr (Or.inl h)

end Position

end HeadlessEditor
