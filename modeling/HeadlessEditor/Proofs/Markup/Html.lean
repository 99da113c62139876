/-
  HeadlessEditor.Proofs.Markup.Html

  No text can pass for markup: two fragments in normal form with the same
  HTML are the same fragment.

  HTML is read from the left.  Each part of it says where it ends: an escaped
  text ends before the first `<`, an attribute value before the first quote,
  a name before the first character that no name has.  So if two such parts,
  each with something behind it, make up the same HTML, then the parts are
  the same and so is what stands behind them.  The lemmas named `_append_inj`
  say so, from a character up to a list of trees.
-/

import HeadlessEditor.Markup.NormalForm

namespace HeadlessEditor.Markup

open Text (Stops stops_nil stops_cons append_inj_of_stops)

variable {x y : Text}

-- ============================================================================
-- Escapes
-- ============================================================================

/-- The text that was escaped. -/
def unescape : Text → Text
  | '&' :: 'a' :: 'm' :: 'p' :: ';' :: rest => '&' :: unescape rest
  | '&' :: 'l' :: 't' :: ';' :: rest => '<' :: unescape rest
  | '&' :: 'g' :: 't' :: ';' :: rest => '>' :: unescape rest
  | '&' :: 'q' :: 'u' :: 'o' :: 't' :: ';' :: rest => '"' :: unescape rest
  | c :: rest => c :: unescape rest
  | [] => []

theorem unescape_cons {c : Char} (hc : c ≠ '&') (rest : Text) :
    unescape (c :: rest) = c :: unescape rest := by
  simp [unescape, hc]

/-- An escape that can be undone, and in which `stop` does not occur. -/
structure Escapes (f : Char → Text) (stop : Char) : Prop where
  unescape_append : ∀ c rest, unescape (f c ++ rest) = c :: unescape rest
  ne_stop : ∀ c, ∀ d ∈ f c, d ≠ stop

theorem escapes_escapeChar : Escapes escapeChar '<' where
  unescape_append c rest := by
    by_cases hamp : c = '&'
    · subst hamp; rfl
    by_cases hlt : c = '<'
    · subst hlt; rfl
    by_cases hgt : c = '>'
    · subst hgt; rfl
    rw [escapeChar, if_neg hamp, if_neg hlt, if_neg hgt]
    exact unescape_cons hamp rest
  ne_stop c d hd := by
    grind [escapeChar]

theorem escapes_escapeQuotedChar : Escapes escapeQuotedChar '"' where
  unescape_append c rest := by
    by_cases hquote : c = '"'
    · subst hquote; rfl
    rw [escapeQuotedChar, if_neg hquote]
    exact escapes_escapeChar.unescape_append c rest
  ne_stop c d hd := by
    grind [escapeQuotedChar, escapeChar]

namespace Escapes

variable {f : Char → Text} {stop : Char}

theorem unescape_flatMap (hf : Escapes f stop) (s : Text) : unescape (s.flatMap f) = s := by
  induction s with
  | nil => rfl
  | cons c s ih => rw [List.flatMap_cons, hf.unescape_append, ih]

theorem ne_stop_of_mem_flatMap (hf : Escapes f stop) {s : Text} {d : Char}
    (hd : d ∈ s.flatMap f) : d ≠ stop := by
  obtain ⟨c, -, hdc⟩ := List.mem_flatMap.mp hd
  exact hf.ne_stop c d hdc

/-- What was not empty is not empty when escaped. -/
theorem flatMap_eq_cons (hf : Escapes f stop) {s : Text} (hs : s ≠ []) :
    ∃ d rest, s.flatMap f = d :: rest ∧ d ≠ stop := by
  have hne : s.flatMap f ≠ [] := by
    intro hnil
    rw [← hf.unescape_flatMap s, hnil] at hs
    exact hs rfl
  obtain ⟨d, rest, hrest⟩ := List.exists_cons_of_ne_nil hne
  exact ⟨d, rest, hrest, hf.ne_stop_of_mem_flatMap (hrest ▸ List.mem_cons_self)⟩

/-- An escaped text ends before the first `stop`. -/
theorem flatMap_append_inj (hf : Escapes f stop) (hx : Stops (· != stop) x)
    (hy : Stops (· != stop) y) {s t : Text} (h : s.flatMap f ++ x = t.flatMap f ++ y) :
    s = t ∧ x = y := by
  have hstop (s : Text) : ∀ d ∈ s.flatMap f, (d != stop) = true :=
    fun d hd => bne_iff_ne.mpr (hf.ne_stop_of_mem_flatMap hd)
  obtain ⟨hst, hxy⟩ := append_inj_of_stops (hstop s) (hstop t) hx hy h
  refine ⟨?_, hxy⟩
  rw [← hf.unescape_flatMap s, hst, hf.unescape_flatMap t]

end Escapes

-- ============================================================================
-- Tags
-- ============================================================================

def isWordChar (c : Char) : Bool :=
  c.isAlphanum || c == '-'

theorem isWord_iff {name : String} :
    isWord name = true ↔ name ≠ "" ∧ ∀ c ∈ name.toList, isWordChar c = true := by
  simp [isWord, isWordChar]

/-- A name ends before the first character that no name has. -/
theorem word_append_inj {m n : String} (hm : isWord m = true) (hn : isWord n = true)
    (hx : Stops isWordChar x) (hy : Stops isWordChar y) (h : m.toList ++ x = n.toList ++ y) :
    m = n ∧ x = y := by
  obtain ⟨hmn, hxy⟩ := append_inj_of_stops (isWord_iff.mp hm).2 (isWord_iff.mp hn).2 hx hy h
  exact ⟨String.toList_inj.mp hmn, hxy⟩

theorem Attribute.html_append (a : Attribute) (x : Text) :
    a.html ++ x
      = ' ' :: (a.1.toList ++ '=' :: '"' :: (a.2.toList.flatMap escapeQuotedChar ++ '"' :: x)) := by
  simp [Attribute.html]

theorem Attribute.html_append_inj {a b : Attribute} (ha : isWord a.1 = true)
    (hb : isWord b.1 = true) (h : a.html ++ x = b.html ++ y) : a = b ∧ x = y := by
  rw [Attribute.html_append, Attribute.html_append] at h
  obtain ⟨hname, hrest⟩ := word_append_inj ha hb (stops_cons rfl _) (stops_cons rfl _)
    (List.cons.inj h).2
  obtain ⟨hvalue, hxy⟩ := escapes_escapeQuotedChar.flatMap_append_inj (stops_cons rfl _)
    (stops_cons rfl _) (List.cons.inj (List.cons.inj hrest).2).2
  exact ⟨Prod.ext hname (String.toList_inj.mp hvalue), (List.cons.inj hxy).2⟩

/-- Attributes end where no blank follows, before the end of the tag. -/
theorem attributes_append_inj {as bs : List Attribute} (has : as.all (fun a => isWord a.1) = true)
    (hbs : bs.all (fun a => isWord a.1) = true)
    (h : as.flatMap Attribute.html ++ '>' :: x = bs.flatMap Attribute.html ++ '>' :: y) :
    as = bs ∧ x = y := by
  induction as generalizing bs with
  | nil =>
    cases bs with
    | nil => exact ⟨rfl, (List.cons.inj h).2⟩
    | cons b bs => simp [Attribute.html] at h
  | cons a as ih =>
    cases bs with
    | nil => simp [Attribute.html] at h
    | cons b bs =>
      rw [List.all_cons, Bool.and_eq_true] at has hbs
      rw [List.flatMap_cons, List.flatMap_cons, List.append_assoc, List.append_assoc] at h
      obtain ⟨rfl, hrest⟩ := Attribute.html_append_inj has.1 hbs.1 h
      obtain ⟨rfl, hxy⟩ := ih has.2 hbs.2 hrest
      exact ⟨rfl, hxy⟩

theorem openingTag_append (tag : String) (attributes : List Attribute) (x : Text) :
    openingTag tag attributes ++ x
      = '<' :: (tag.toList ++ (attributes.flatMap Attribute.html ++ '>' :: x)) := by
  simp [openingTag]

theorem stops_attributes (attributes : List Attribute) (x : Text) :
    Stops isWordChar (attributes.flatMap Attribute.html ++ '>' :: x) := by
  cases attributes with
  | nil => exact stops_cons rfl x
  | cons a attributes =>
    rw [List.flatMap_cons, List.append_assoc, Attribute.html_append]
    exact stops_cons rfl _

theorem openingTag_append_inj {s t : String} {as bs : List Attribute} (hs : isWord s = true)
    (ht : isWord t = true) (has : as.all (fun a => isWord a.1) = true)
    (hbs : bs.all (fun a => isWord a.1) = true)
    (h : openingTag s as ++ x = openingTag t bs ++ y) : s = t ∧ as = bs ∧ x = y := by
  rw [openingTag_append, openingTag_append] at h
  obtain ⟨hst, hrest⟩ := word_append_inj hs ht (stops_attributes as x) (stops_attributes bs y)
    (List.cons.inj h).2
  exact ⟨hst, attributes_append_inj has hbs hrest⟩

-- ============================================================================
-- Trees
-- ============================================================================

/-- Where a list of trees ends: nothing follows, or a closing tag. -/
inductive Closes : Text → Prop
  | nil : Closes []
  | slash (rest : Text) : Closes ('<' :: '/' :: rest)

theorem closes_closingTag_append (tag : String) (x : Text) : Closes (closingTag tag ++ x) :=
  .slash _

theorem Closes.stops (hx : Closes x) : Stops (· != '<') x := by
  cases hx with
  | nil => exact stops_nil _
  | slash rest => exact stops_cons rfl _

namespace Node

/-- In normal form, a text starts with something else than an element does. -/
theorem html_text_append {content : String} (hcontent : isNormal (.text content) = true)
    (x : Text) : ∃ c rest, html (.text content) ++ x = c :: rest ∧ c ≠ '<' := by
  have hne : content.toList ≠ [] := by
    intro hnil
    simp [isNormal, String.toList_eq_nil_iff.mp hnil] at hcontent
  obtain ⟨c, rest, hrest, hc⟩ := escapes_escapeChar.flatMap_eq_cons hne
  exact ⟨c, rest ++ x, by rw [html, escape, hrest, List.cons_append], hc⟩

theorem html_element_append (tag : String) (attributes : List Attribute) (children : List Node)
    (x : Text) :
    html (.element tag attributes children) ++ x
      = openingTag tag attributes
          ++ ((if tag ∈ voidTags then [] else htmlOfAll children ++ closingTag tag) ++ x) := by
  rw [html, List.append_assoc]

theorem html_text_append_ne {content : String} (hcontent : isNormal (.text content) = true)
    (tag : String) (attributes : List Attribute) (children : List Node) :
    html (.text content) ++ x ≠ html (.element tag attributes children) ++ y := by
  obtain ⟨c, rest, hrest, hc⟩ := html_text_append hcontent x
  rw [hrest, html_element_append, openingTag_append]
  exact fun h => hc (List.cons.inj h).1

/-- A list of trees does not end where another tree comes. -/
theorem not_closes_html_append {node : Node} (hnode : node.isNormal = true) (x : Text) :
    ¬Closes (html node ++ x) := by
  cases node with
  | text content =>
    obtain ⟨c, rest, hrest, hc⟩ := html_text_append hnode x
    rw [hrest]
    intro h
    cases h
    exact hc rfl
  | element tag attributes children =>
    simp only [isNormal, Bool.and_eq_true] at hnode
    obtain ⟨hne, hchars⟩ := isWord_iff.mp hnode.1.1.1
    obtain ⟨c, rest, hrest⟩ :=
      List.exists_cons_of_ne_nil (fun hnil => hne (String.toList_eq_nil_iff.mp hnil))
    rw [html_element_append, openingTag_append, hrest]
    intro h
    cases h
    -- The slash of a closing tag is no character of a name.
    exact absurd (hchars '/' (hrest ▸ List.mem_cons_self)) (by decide)

theorem stops_htmlOfAll_append {node : Node} {rest : List Node} (hnode : node.isText = true)
    (hrest : areNormal (node :: rest) = true) (hx : Closes x) :
    Stops (· != '<') (htmlOfAll rest ++ x) := by
  cases rest with
  | nil => exact hx.stops
  | cons next rest =>
    cases next with
    | text content =>
      have hnext : startsWithText (.text content :: rest) = true := rfl
      rw [areNormal, hnode, hnext] at hrest
      simp at hrest
    | element tag attributes children =>
      rw [htmlOfAll, List.append_assoc, html_element_append, openingTag_append]
      exact stops_cons rfl _

mutual

theorem html_append_inj : (m n : Node) → {x y : Text} → m.isNormal = true → n.isNormal = true →
    (m.isText = true → Stops (· != '<') x) → (n.isText = true → Stops (· != '<') y) →
    html m ++ x = html n ++ y → m = n ∧ x = y
  | .text s, .text t, x, y, _, _, hx, hy, h => by
    obtain ⟨hst, hxy⟩ := escapes_escapeChar.flatMap_append_inj (hx rfl) (hy rfl) h
    exact ⟨congrArg Node.text (String.toList_inj.mp hst), hxy⟩
  | .text _, .element tag attributes children, _, _, hm, _, _, _, h =>
    absurd h (html_text_append_ne hm tag attributes children)
  | .element tag attributes children, .text _, _, _, _, hn, _, _, h =>
    absurd h.symm (html_text_append_ne hn tag attributes children)
  | .element s as children, .element t bs children', x, y, hm, hn, _, _, h => by
    rw [html_element_append, html_element_append] at h
    simp only [isNormal, Bool.and_eq_true] at hm hn
    obtain ⟨⟨⟨hs, has⟩, hvoid⟩, hchildren⟩ := hm
    obtain ⟨⟨⟨ht, hbs⟩, hvoid'⟩, hchildren'⟩ := hn
    obtain ⟨rfl, rfl, hrest⟩ := openingTag_append_inj hs ht has hbs h
    by_cases hmem : s ∈ voidTags
    · rw [if_pos hmem, if_pos hmem] at hrest
      have hnil : children = [] := by simpa [hmem] using hvoid
      have hnil' : children' = [] := by simpa [hmem] using hvoid'
      exact ⟨by rw [hnil, hnil'], hrest⟩
    · rw [if_neg hmem, if_neg hmem, List.append_assoc, List.append_assoc] at hrest
      obtain ⟨rfl, hclosing⟩ := htmlOfAll_append_inj children children' hchildren hchildren'
        (closes_closingTag_append s x) (closes_closingTag_append s y) hrest
      exact ⟨rfl, List.append_cancel_left hclosing⟩

theorem htmlOfAll_append_inj : (f g : List Node) → {x y : Text} → areNormal f = true →
    areNormal g = true → Closes x → Closes y →
    htmlOfAll f ++ x = htmlOfAll g ++ y → f = g ∧ x = y
  | [], [], _, _, _, _, _, _, h => ⟨rfl, h⟩
  | [], n :: g, x, y, _, hg, hx, _, h => by
    simp only [areNormal, Bool.and_eq_true] at hg
    rw [htmlOfAll, htmlOfAll, List.append_assoc, List.nil_append] at h
    exact absurd (h ▸ hx) (not_closes_html_append hg.1.1 _)
  | m :: f, [], x, y, hf, _, _, hy, h => by
    simp only [areNormal, Bool.and_eq_true] at hf
    rw [htmlOfAll, htmlOfAll, List.append_assoc, List.nil_append] at h
    exact absurd (h ▸ hy) (not_closes_html_append hf.1.1 _)
  | m :: f, n :: g, x, y, hf, hg, hx, hy, h => by
    have hstops := fun hm => stops_htmlOfAll_append hm hf hx
    have hstops' := fun hn => stops_htmlOfAll_append hn hg hy
    simp only [areNormal, Bool.and_eq_true] at hf hg
    rw [htmlOfAll, htmlOfAll, List.append_assoc, List.append_assoc] at h
    obtain ⟨rfl, hrest⟩ := html_append_inj m n hf.1.1 hg.1.1 hstops hstops' h
    obtain ⟨rfl, hxy⟩ := htmlOfAll_append_inj f g hf.2 hg.2 hx hy hrest
    exact ⟨rfl, hxy⟩

end

end Node

/-- Fragments in normal form have the same HTML only if they are the same, whatever is written in
their texts and attribute values. -/
theorem Fragment.html_inj {f g : Fragment} (hf : Node.areNormal f = true)
    (hg : Node.areNormal g = true) : Fragment.html f = Fragment.html g ↔ f = g := by
  constructor
  · intro h
    have hall : Node.htmlOfAll f ++ [] = Node.htmlOfAll g ++ [] := by
      rw [List.append_nil, List.append_nil]
      exact String.ofList_injective h
    exact (Node.htmlOfAll_append_inj f g hf hg .nil .nil hall).1
  · exact fun h => congrArg Fragment.html h

/-- A title that looks like its own end and a line break after it. -/
def breakInTitle : Fragment :=
  [.element "p" [("title", "\"><br>")] [.text "&lt;"]]

/-- What it looks like: without escapes the two would have the same HTML. -/
def breakBehindTitle : Fragment :=
  [.element "p" [("title", "")] [.element "br" [] [], .text "\">&lt;"]]

theorem Fragment.html_breakInTitle_ne :
    Node.areNormal breakInTitle = true ∧ Node.areNormal breakBehindTitle = true
      ∧ Fragment.html breakInTitle ≠ Fragment.html breakBehindTitle := by
  have hin : Node.areNormal breakInTitle = true := by decide
  have hbehind : Node.areNormal breakBehindTitle = true := by decide
  refine ⟨hin, hbehind, fun h => ?_⟩
  have hsame := (Fragment.html_inj hin hbehind).mp h
  simp [breakInTitle, breakBehindTitle] at hsame

/-! Beyond normal form it can be the same: neighbouring texts run together. -/

example : Fragment.html [.text "a", .text "b"] = Fragment.html [.text "ab"] := by decide

end HeadlessEditor.Markup
