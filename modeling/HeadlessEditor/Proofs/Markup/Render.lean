/-
  HeadlessEditor.Proofs.Markup.Render

  What rendering leaves to the renderer.  What a hover shows is made of
  pieces: markdown, and trees that the contents alone determine.  A renderer
  may have effects, and it may answer differently each time; all that is
  known of it is that it is asked for the markdown pieces, each once and in
  order, and for nothing else (`render_eq`).  Its answers and the other
  trees, in the order of the pieces, come behind what the parent holds.
-/

import HeadlessEditor.Markup.Render

namespace HeadlessEditor.Markup

open Protocol

-- ============================================================================
-- Pieces
-- ============================================================================

/-- A piece of what a hover shows: markdown, or a tree that the renderer has no part in. -/
inductive Piece where
  | markdown (text : String)
  | ready (node : Node)

def pieceOf : MarkedString → Piece
  | .markdown text => .markdown text
  | .code ⟨language, value⟩ =>
      .ready (.element "pre" []
        [.element "code" [("class", "language-" ++ language)] [.text value]])

def piecesOf : HoverContents → List Piece
  | .markup ⟨.markdown, value⟩ => [.markdown value]
  | .markup ⟨.plainText, value⟩ => [.ready (.element "p" [] [.text value])]
  | .array parts => parts.map pieceOf
  | .scalar part => [pieceOf part]

def Piece.markdown? : Piece → Option String
  | .markdown text => some text
  | .ready _ => none

/-- The texts of the markdown pieces, in order. -/
def markdownsOf (pieces : List Piece) : List String :=
  pieces.filterMap Piece.markdown?

/-- The trees of a piece; `markdown` gives those of markdown. -/
def Piece.nodes (markdown : String → Fragment) : Piece → List Node
  | .markdown text => markdown text
  | .ready node => [node]

/-- The trees of pieces, with the answers to the markdown pieces in their places. -/
def assemble : List Piece → List Fragment → List Node
  | .markdown _ :: rest, answer :: answers => answer ++ assemble rest answers
  | .ready node :: rest, answers => node :: assemble rest answers
  | _, _ => []

variable {pieces : List Piece}

theorem markdownsOf_markdown (text : String) :
    markdownsOf (.markdown text :: pieces) = text :: markdownsOf pieces :=
  rfl

theorem markdownsOf_ready (node : Node) :
    markdownsOf (.ready node :: pieces) = markdownsOf pieces :=
  rfl

/-- Answers that depend on the texts only. -/
theorem assemble_map (markdown : String → Fragment) (pieces : List Piece) :
    assemble pieces ((markdownsOf pieces).map markdown)
      = pieces.flatMap (Piece.nodes markdown) := by
  induction pieces with
  | nil => rfl
  | cons piece rest ih =>
    cases piece with
    | markdown text =>
      rw [markdownsOf_markdown, List.map_cons, assemble, ih, List.flatMap_cons]
      rfl
    | ready node =>
      rw [markdownsOf_ready, assemble, ih, List.flatMap_cons]
      rfl

-- ============================================================================
-- What the renderer is asked
-- ============================================================================

section Asking

variable {m : Type → Type} [Monad m] (renderer : Renderer m)

/-- The trees of pieces from a renderer that is asked for the markdown pieces, each once and in
order, and for nothing else. -/
def answered (pieces : List Piece) : m Fragment :=
  assemble pieces <$> (markdownsOf pieces).mapM renderer

variable [LawfulMonad m]

theorem answered_nil : answered renderer [] = pure [] := by
  simp [answered, markdownsOf, assemble]

theorem answered_markdown (text : String) :
    answered renderer (.markdown text :: pieces)
      = renderer text >>= fun answer => (answer ++ ·) <$> answered renderer pieces := by
  simp [answered, markdownsOf_markdown, assemble]

theorem answered_ready (node : Node) :
    answered renderer (.ready node :: pieces) = (node :: ·) <$> answered renderer pieces := by
  rw [answered, markdownsOf_ready, answered, Functor.map_map]
  rfl

theorem answered_append (others : List Piece) :
    answered renderer (pieces ++ others)
      = answered renderer pieces >>= fun first => (first ++ ·) <$> answered renderer others := by
  induction pieces with
  | nil => simp [answered_nil]
  | cons piece rest ih =>
    cases piece with
    | markdown text => simp [answered_markdown, ih]
    | ready node => simp [answered_ready, ih]

theorem renderMarked_eq (part : MarkedString) :
    renderMarked renderer part = answered renderer [pieceOf part] := by
  cases part with
  | markdown text => simp [renderMarked, pieceOf, answered_markdown, answered_nil]
  | code block => simp [renderMarked, pieceOf, answered_ready, answered_nil, codeBlock]

theorem renderContent_eq (content : MarkupContent) :
    renderContent renderer content = answered renderer (piecesOf (.markup content)) := by
  obtain ⟨kind, value⟩ := content
  cases kind with
  | markdown => simp [renderContent, piecesOf, answered_markdown, answered_nil]
  | plainText => simp [renderContent, piecesOf, answered_ready, answered_nil, paragraph]

theorem renderParts_eq (parts : List MarkedString) :
    renderParts renderer parts = answered renderer (parts.map pieceOf) := by
  induction parts with
  | nil => exact (answered_nil renderer).symm
  | cons part rest ih =>
    calc renderParts renderer (part :: rest)
        = answered renderer [pieceOf part]
            >>= fun first => (first ++ ·) <$> answered renderer (rest.map pieceOf) := by
          simp [renderParts, renderMarked_eq, ih]
      _ = answered renderer ((part :: rest).map pieceOf) :=
          (answered_append renderer (rest.map pieceOf)).symm

theorem render_eq (contents : HoverContents) :
    render renderer contents = answered renderer (piecesOf contents) := by
  cases contents with
  | markup content => exact renderContent_eq renderer content
  | array parts => exact renderParts_eq renderer parts
  | scalar part => exact renderMarked_eq renderer part

/-- What the renderer would do with any other text does not matter. -/
theorem answered_congr {other : Renderer m}
    (h : ∀ text ∈ markdownsOf pieces, renderer text = other text) :
    answered renderer pieces = answered other pieces := by
  induction pieces with
  | nil => rw [answered_nil, answered_nil]
  | cons piece rest ih =>
    cases piece with
    | markdown text =>
      rw [markdownsOf_markdown, List.forall_mem_cons] at h
      rw [answered_markdown, answered_markdown, h.1, ih h.2]
    | ready node =>
      rw [markdownsOf_ready] at h
      rw [answered_ready, answered_ready, ih h]

end Asking

/-- A renderer that notes what it is asked. -/
def noting (markdown : String → Fragment) : Renderer (StateM (List String)) :=
  fun text => do
    modify (· ++ [text])
    return markdown text

theorem run_mapM_noting (markdown : String → Fragment) (texts asked : List String) :
    (texts.mapM (noting markdown)).run asked = (texts.map markdown, asked ++ texts) := by
  induction texts generalizing asked with
  | nil =>
    rw [List.mapM_nil, List.append_nil]
    rfl
  | cons text rest ih =>
    calc ((text :: rest).mapM (noting markdown)).run asked
        = (fun p => (markdown text :: p.1, p.2))
            ((rest.mapM (noting markdown)).run (asked ++ [text])) := by
          rw [List.mapM_cons]
          rfl
      _ = ((text :: rest).map markdown, asked ++ (text :: rest)) := by
          rw [ih, List.append_assoc, List.singleton_append, List.map_cons]

theorem run_answered_noting (markdown : String → Fragment) (pieces : List Piece)
    (asked : List String) :
    (answered (noting markdown) pieces).run asked
      = (pieces.flatMap (Piece.nodes markdown), asked ++ markdownsOf pieces) := by
  rw [answered, StateT.run_map, run_mapM_noting, ← assemble_map]
  rfl

-- ============================================================================
-- Rendering into a parent
-- ============================================================================

/-- How rendering into a parent goes, where `append` says what becomes of the parent. -/
structure RendersBehind (m : Type → Type) [Monad m] {π : Type} [Parent π]
    (append : π → List Node → π) : Prop where
  /-- The renderer is asked for the markdown pieces, each once and in order, and for nothing
  else. -/
  renderInto_eq : ∀ (renderer : Renderer m) (contents : HoverContents) (parent : π),
    renderInto renderer contents parent
      = (fun answers => append parent (assemble (piecesOf contents) answers))
          <$> (markdownsOf (piecesOf contents)).mapM renderer
  /-- A renderer that does nothing but note the texts. -/
  run_noting : ∀ (markdown : String → Fragment) (contents : HoverContents) (parent : π)
    (asked : List String),
    (renderInto (noting markdown) contents parent).run asked
      = (append parent ((piecesOf contents).flatMap (Piece.nodes markdown)),
          asked ++ markdownsOf (piecesOf contents))
  /-- Parts can be rendered one list after the other. -/
  renderInto_append : ∀ (renderer : Renderer m) (xs ys : List MarkedString) (parent : π),
    renderInto renderer (.array (xs ++ ys)) parent
      = renderInto renderer (.array xs) parent >>= renderInto renderer (.array ys)
  /-- Renderers that agree on the markdown pieces cannot be told apart. -/
  renderInto_congr : ∀ (renderer other : Renderer m) (contents : HoverContents) (parent : π),
    (∀ text ∈ markdownsOf (piecesOf contents), renderer text = other text) →
    renderInto renderer contents parent = renderInto other contents parent

section Parents

variable {m : Type → Type} [Monad m] [LawfulMonad m] {π : Type} [Parent π]

theorem renderInto_eq_answered (renderer : Renderer m) (contents : HoverContents) (parent : π) :
    renderInto renderer contents parent
      = Parent.append parent <$> answered renderer (piecesOf contents) := by
  rw [renderInto, render_eq, bind_pure_comp]

theorem rendersBehind_append
    (happend : ∀ (parent : π) (f g : List Node),
      Parent.append (Parent.append parent f) g = Parent.append parent (f ++ g)) :
    RendersBehind m (Parent.append : π → List Node → π) where
  renderInto_eq renderer contents parent := by
    rw [renderInto_eq_answered, answered, Functor.map_map]
  run_noting markdown contents parent asked := by
    rw [renderInto_eq_answered, StateT.run_map, run_answered_noting]
    rfl
  renderInto_append renderer xs ys parent := by
    have hboth : ∀ first, Parent.append (Parent.append parent first)
        = fun others => Parent.append parent (first ++ others) :=
      fun first => funext (happend parent first)
    simp [renderInto_eq_answered, piecesOf, answered_append, hboth]
  renderInto_congr renderer other contents parent h := by
    rw [renderInto_eq_answered, renderInto_eq_answered, answered_congr renderer h]

end Parents

/-- Rendered trees come behind the children of an element, of which nothing else changes, and
behind the trees of a fragment. -/
theorem rendersBehind_children (m : Type → Type) [Monad m] [LawfulMonad m] :
    RendersBehind m (fun (e : Element) nodes => { e with children := e.children ++ nodes }) ∧
      RendersBehind m (fun (f : Fragment) nodes => f ++ nodes) := by
  constructor
  · refine rendersBehind_append fun e f g => ?_
    simp only [Parent.append, List.append_assoc]
  · exact rendersBehind_append List.append_assoc

/-- A renderer that answers with one tree more each time. -/
def growing : Renderer (StateM Nat) :=
  fun text => do
    let count ← get
    set (count + 1)
    return List.replicate count (.text text)

def panel : Element where
  tag := "div"
  attributes := [("class", "panel")]
  children := [.text "old"]

/-- Code between two pieces of markdown. -/
theorem rendersBehind_children_growing :
    (renderInto growing (.array [.markdown "a", .code ⟨"rust", "fn"⟩, .markdown "b"]) panel).run 1
      = ({ panel with
            children := [.text "old", .text "a",
              .element "pre" [] [.element "code" [("class", "language-rust")] [.text "fn"]],
              .text "b", .text "b"] }, 3) := by
  rw [(rendersBehind_children (StateM Nat)).1.renderInto_eq]
  rfl

end HeadlessEditor.Markup
