/-
  HeadlessEditor.Protocol.Range

  The JSON form of positions and ranges.
-/

import HeadlessEditor.Json.Wire
import HeadlessEditor.Position.Basic

namespace HeadlessEditor.Protocol

open Json

instance : Wire Position where
  encode p := record [member "line" p.line, member "character" p.character]
  decode j := do
    let m ← members? ["line", "character"] j
    return ⟨← m.required "line", ← m.required "character"⟩

instance : Wire Range where
  encode r := record [member "start" r.start, member "end" r.stop]
  decode j := do
    let m ← members? ["start", "end"] j
    return ⟨← m.required "start", ← m.required "end"⟩

end HeadlessEditor.Protocol
