import Wiring.Json.Draft
import Wiring.Scalar
import Wiring.Term

/-!
# Datatypes

The families of literal datatypes, and the native value that a literal has under
a datatype.

The families are flat: every numeric datatype is directly below `xsd:number` and
every string-like one directly below `xsd:string`.
-/

namespace Wiring
namespace Datatype

open Vocabulary

def integerTypes : List String :=
  [Xsd.integer, Xsd.nonPositiveInteger, Xsd.negativeInteger, Xsd.nonNegativeInteger,
   Xsd.positiveInteger, Xsd.long, Xsd.int, Xsd.short, Xsd.byte, Xsd.unsignedLong,
   Xsd.unsignedInt, Xsd.unsignedShort, Xsd.unsignedByte]

def floatTypes : List String :=
  [Xsd.decimal, Xsd.float, Xsd.double, Xsd.number]

def stringTypes : List String :=
  [Xsd.normalizedString, Xsd.anyUri, Xsd.base64Binary, Xsd.language, Xsd.name, Xsd.ncName,
   Xsd.nmtoken, Xsd.token, Xsd.hexBinary, Rdf.langString]

def isDatatype (iri : String) : Bool :=
  Xsd.base.toList.isPrefixOf iri.toList || iri = Rdf.json || iri = Rdf.langString

def isNumeric (iri : String) : Bool :=
  integerTypes.contains iri || floatTypes.contains iri

def isSubtype (sub sup : String) : Bool :=
  sub = sup || (sup = Xsd.number && isNumeric sub) || (sup = Xsd.string && stringTypes.contains sub)

def narrower? (a b : String) : Option String :=
  if isSubtype a b then some a
  else if isSubtype b a then some b
  else none

/-!
# Native values
-/

inductive Fault where
  | notBoolean (lexical : String)
  | notInteger (lexical : String)
  | tooLarge (lexical : String)
  | outOfBounds (lexical datatype : String)
  | notNumber (lexical : String)
  | invalidJson
  deriving DecidableEq, Repr

def Fault.text : Fault → String
  | notBoolean lexical => s!"\"{lexical}\" is not a boolean"
  | notInteger lexical => s!"\"{lexical}\" is not an integer"
  | tooLarge lexical => s!"\"{lexical}\" is out of range"
  | outOfBounds lexical datatype => s!"\"{lexical}\" is out of range for {datatype}"
  | notNumber lexical => s!"\"{lexical}\" is not a number"
  | invalidJson => "invalid JSON"

def minInteger : Int := -9223372036854775808

def maxInteger : Int := 9223372036854775807

def integerBounds (datatype : String) : Int × Int :=
  if datatype = Xsd.nonPositiveInteger then (minInteger, 0)
  else if datatype = Xsd.negativeInteger then (minInteger, -1)
  else if datatype = Xsd.nonNegativeInteger ∨ datatype = Xsd.unsignedLong then (0, maxInteger)
  else if datatype = Xsd.positiveInteger then (1, maxInteger)
  else if datatype = Xsd.int then (-2147483648, 2147483647)
  else if datatype = Xsd.short then (-32768, 32767)
  else if datatype = Xsd.byte then (-128, 127)
  else if datatype = Xsd.unsignedInt then (0, 4294967295)
  else if datatype = Xsd.unsignedShort then (0, 65535)
  else if datatype = Xsd.unsignedByte then (0, 255)
  else (minInteger, maxInteger)

def castInteger (lexical datatype : String) : Except Fault Int :=
  match Decimal.readInt? lexical.toList with
  | none => .error (.notInteger lexical)
  | some n =>
    let bounds := integerBounds datatype
    if n < minInteger ∨ maxInteger < n then .error (.tooLarge lexical)
    else if n < bounds.1 ∨ bounds.2 < n then .error (.outOfBounds lexical datatype)
    else .ok n

def castFloat (lexical : String) : Except Fault Binary64 :=
  if lexical = "INF" ∨ lexical = "+INF" then .ok (.infinite false)
  else if lexical = "-INF" then .ok (.infinite true)
  else if lexical = "NaN" then .ok .nan
  else
    match Decimal.read? lexical.toList with
    | some d => .ok d.toBinary64
    | none => .error (.notNumber lexical)

def castBoolean (lexical : String) : Except Fault Bool :=
  if lexical = "true" then .ok true
  else if lexical = "false" then .ok false
  else .error (.notBoolean lexical)

def castJson (lexical : String) : Except Fault Json :=
  match Json.parse? lexical with
  | some value => .ok value
  | none => .error .invalidJson

/-- The native value of a lexical form under a datatype. Strings and unknown datatypes leave the
lexical form as it is. -/
def cast (lexical datatype : String) : Except Fault (Option Scalar) :=
  if datatype = Xsd.boolean then (castBoolean lexical).map fun b => some (.bool b)
  else if integerTypes.contains datatype then
    (castInteger lexical datatype).map fun n => some (.int n)
  else if floatTypes.contains datatype then
    (castFloat lexical).map fun x => some (.double x)
  else if datatype = Rdf.json then (castJson lexical).map fun value => some (.json value)
  else .ok none

end Datatype
end Wiring
