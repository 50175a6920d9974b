/-!
# Ranges

The shapes of value that a parameter accepts.
-/

namespace Wiring

inductive Range where
  | wildcard
  | undefined
  | literal (datatype : String)
  | type (iri : String)
  | generic (name : String)
  | union (members : List Range)
  | intersection (members : List Range)
  | tuple (members : List Range)
  | array (inner : Range)
  /-- The remaining items of a tuple. -/
  | rest (inner : Range)
  /-- The keys of a record type. -/
  | keyof (inner : Range)
  deriving Inhabited, Repr

namespace Range

mutual

def text : Range → String
  | wildcard => "*"
  | undefined => "undefined"
  | literal datatype => datatype
  | type iri => iri
  | generic name => "<" ++ name ++ ">"
  | union members => joinTexts " | " members
  | intersection members => joinTexts " & " members
  | tuple members => "[" ++ joinTexts ", " members ++ "]"
  | array inner => text inner ++ "[]"
  | rest inner => "..." ++ text inner
  | keyof inner => "keyof " ++ text inner

def joinTexts (separator : String) : List Range → String
  | [] => ""
  | [r] => text r
  | r :: rs => text r ++ separator ++ joinTexts separator rs

end

end Range
end Wiring
