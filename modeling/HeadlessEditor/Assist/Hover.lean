/-
  HeadlessEditor.Assist.Hover

  Hover tooltips: asking a provider what there is to say about a place in
  the document.  A tooltip spans the range that the answer is about; its
  body is rendered when it is shown.
-/

import HeadlessEditor.Assist.Exchange
import HeadlessEditor.Markup.Render

namespace HeadlessEditor

open Protocol

/-- A tooltip at an offset, over the text up to `stop` if it has one. -/
structure Tooltip where
  pos : Nat
  stop : Option Nat
  contents : HoverContents
deriving DecidableEq, Repr

def Tooltip.body {m : Type → Type} [Monad m] (renderer : Markup.Renderer m) (t : Tooltip) :
    m Markup.Element :=
  Markup.renderInto renderer t.contents ({ tag := "div" } : Markup.Element)

structure HoverRequest where
  document : TextDocument
  position : Position
deriving DecidableEq, Repr

namespace Hover

/-- The tooltip of an answer.  Without a range it is shown at the offset that was asked about. -/
def tooltip (document : TextDocument) (pos : Nat) (hover : Protocol.Hover) : Tooltip :=
  match hover.range with
  | some range =>
      ⟨document.offsetAt range.start, some (document.offsetAt range.stop), hover.contents⟩
  | none => ⟨pos, none, hover.contents⟩

def ask {κ : Type} [FieldSignature κ] [DecidableEq κ] [HostFields κ]
    (provider : HoverRequest → Reply (WithDocument κ) Protocol.Hover)
    (view : State (WithDocument κ)) (pos : Nat) :
    Exchange (WithDocument κ) HoverRequest (Option Tooltip) :=
  match view.document? with
  | none => .unasked view (.error .documentNotInstalled)
  | some document =>
      (Exchange.ask provider ⟨document, document.positionAt pos⟩ document view none).map
        fun hover => hover.map (tooltip document pos)

end Hover

end HeadlessEditor
