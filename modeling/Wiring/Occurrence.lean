import Wiring.Observed
import Wiring.Scalar

/-!
# Occurrences of values

One node can be the value of many parameters.  What holds of it in one place only
is kept in a note, and the place refers to the note by its position.  Notes are
added and never changed, so a reference keeps its meaning.
-/

namespace Wiring

structure Note where
  literal : Option Literal
  cast : Option Scalar
  lazy : Bool
  unique : Bool
  deriving Repr

def Note.blank : Note :=
  ⟨none, none, false, false⟩

structure Occurrence where
  source : NodeId
  note : Option Nat
  deriving DecidableEq, Repr

def Occurrence.ofNode (source : NodeId) : Occurrence :=
  ⟨source, none⟩

abbrev Notes := Array Note

namespace Notes

def of? (notes : Notes) (v : Occurrence) : Option Note :=
  v.note.bind fun i => notes[i]?

def get (notes : Notes) (v : Occurrence) : Note :=
  (notes.of? v).getD .blank

def annotate (notes : Notes) (v : Occurrence) (edit : Note → Note) :
    Occurrence × Notes :=
  (⟨v.source, some notes.size⟩, notes.push (edit (notes.get v)))

def isUnique (notes : Notes) (v : Occurrence) : Bool :=
  (notes.get v).unique

def isLazy (notes : Notes) (v : Occurrence) : Bool :=
  (notes.get v).lazy

/-- The value as a range sees it: the literal that a variable stands for comes before the node. -/
def observe (notes : Notes) (g : Graph) (v : Occurrence) : Observed :=
  match (notes.get v).literal with
  | some l => .literal l
  | none => Observed.ofNode g v.source

end Notes
end Wiring
