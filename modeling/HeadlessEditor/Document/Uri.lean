/-
  HeadlessEditor.Document.Uri

  URIs for documents that have none.  An allocator numbers them from 1 and
  never hands out the same one twice.
-/

namespace HeadlessEditor

/-- The number of the last URI handed out. -/
structure UriAllocator where
  last : Nat := 0
deriving DecidableEq, Repr, Inhabited

namespace UriAllocator

/-- A new URI, and the allocator after it. -/
def allocate (a : UriAllocator) : String × UriAllocator :=
  ("inmemory://" ++ toString (a.last + 1), ⟨a.last + 1⟩)

/-- The given URI, or a new one if it is missing or empty. -/
def resolve (a : UriAllocator) (uri : Option String) : String × UriAllocator :=
  match uri with
  | none => a.allocate
  | some uri => if uri.isEmpty then a.allocate else (uri, a)

end UriAllocator

end HeadlessEditor
