import Wiring.Generics

/-!
# Checking values against ranges

A literal range casts the literal to its native value; every other range lets the
value through untouched or refuses it.
-/

namespace Wiring
namespace Range

def mismatch (g : Graph) (value : Observed) (r : Range) (reason : String) : Report :=
  (((Report.ofText s!"The value \"{value.text g}\" is not of range \"{r.text}\"").withText
    "value" (value.text g)).withText "range" r.text).withText "reason" reason

def partMismatch (g : Graph) (value : Observed) (r : Range) (reason : String) (cause : Report) :
    Report :=
  (mismatch g value r reason).withCause cause

def positionMismatch (g : Graph) (value : Observed) (r : Range) (position : Nat)
    (cause : Report) : Report :=
  (partMismatch g value r "a tuple element is rejected" cause).withCount "position" position

def surplusMismatch (g : Graph) (value : Observed) (r : Range) (expected actual : Nat) : Report :=
  ((mismatch g value r "too many tuple elements").withCount "expected" expected).withCount
    "actual" actual

def refuse (g : Graph) (value : Observed) (r : Range) (reason : String) :
    Checking (Option Scalar) :=
  Checking.refuse (mismatch g value r reason)

/-!
# Ranges without parts
-/

def checkUndefined (g : Graph) (value : Observed) : Checking (Option Scalar) :=
  match value with
  | .absent => return none
  | _ => refuse g value undefined "value must be undefined"

def checkLiteral (g : Graph) (value : Observed) (datatype : String) : Checking (Option Scalar) :=
  match value with
  | .literal l =>
    match Datatype.cast l.value datatype with
    | .ok cast => return cast
    | .error fault => refuse g value (literal datatype) fault.text
  | _ => refuse g value (literal datatype) "value is not a literal"

def checkType (g : Graph) (value : Observed) (iri : String) : Checking (Option Scalar) :=
  match value with
  | .node id =>
    if g.isA id iri then return none
    else refuse g value (type iri) "value is not of this type"
  | _ => refuse g value (type iri) "value is not a node"

def checkKey (g : Graph) (value : Observed) (r : Range) : Checking (Option Scalar) :=
  match value with
  | .literal _ => return none
  | _ => refuse g value r "a key must be a literal"

def itemsOf (g : Graph) (value : Observed) (r : Range) : Checking (List Observed) :=
  match value.items? g with
  | some items => return items
  | none => Checking.refuse (mismatch g value r "value is not a list")

/-!
# Ranges with parts

The check is by recursion on the range, given the check `onGeneric` of a value
against a generic type parameter.
-/

mutual

def checkWith (g : Graph) (onGeneric : String → Observed → Checking (Option Scalar))
    (value : Observed) : Range → Checking (Option Scalar)
  | wildcard => return none
  | undefined => checkUndefined g value
  | literal datatype => checkLiteral g value datatype
  | type iri => checkType g value iri
  | generic name => onGeneric name value
  | union members => do
    match ← checkAny g onGeneric value members with
    | .ok cast => return cast
    | .error causes =>
      Checking.refuse ((mismatch g value (union members)
        "no union member accepts the value").withCauses causes)
  | intersection members =>
    (checkAll g onGeneric value members).within
      (partMismatch g value (intersection members) "an intersection member rejects the value")
  | tuple members => do
    let items ← itemsOf g value (tuple members)
    checkPositions g onGeneric value (tuple members) 0 items members
    return none
  | array inner => do
    let items ← itemsOf g value (array inner)
    items.forM fun item => do
      let _ ← (checkWith g onGeneric item inner).within
        (partMismatch g value (array inner) "an array element is rejected")
    return none
  | rest inner => checkWith g onGeneric value inner
  | keyof inner => checkKey g value (keyof inner)

def checkAny (g : Graph) (onGeneric : String → Observed → Checking (Option Scalar))
    (value : Observed) : List Range → Checking (Except (List Report) (Option Scalar))
  | [] => return .error []
  | r :: rs => do
    match ← (checkWith g onGeneric value r).outcome with
    | .ok cast => return .ok cast
    | .error cause =>
      match ← checkAny g onGeneric value rs with
      | .ok cast => return .ok cast
      | .error causes => return .error (cause :: causes)

def checkAll (g : Graph) (onGeneric : String → Observed → Checking (Option Scalar))
    (value : Observed) : List Range → Checking (Option Scalar)
  | [] => return none
  | r :: rs => do
    let first ← checkWith g onGeneric value r
    let others ← checkAll g onGeneric value rs
    return first.or others

/-- Checks the items from `position` on against the members of the tuple `whole`. A missing item is
absent, and a rest takes all items that are left. -/
def checkPositions (g : Graph) (onGeneric : String → Observed → Checking (Option Scalar))
    (value : Observed) (whole : Range) (position : Nat) (items : List Observed) :
    List Range → Checking Unit
  | [] =>
    if items.isEmpty then return ()
    else Checking.refuse (surplusMismatch g value whole position (position + items.length))
  | rest inner :: _ =>
    items.forM fun item => do
      let _ ← (checkWith g onGeneric item inner).within
        (partMismatch g value whole "a rest element is rejected")
  | r :: rs => do
    let _ ← (checkWith g onGeneric (items.headD .absent) r).within
      (positionMismatch g value whole position)
    checkPositions g onGeneric value whole (position + 1) items.tail rs

end

/-!
# Generic type parameters

A generic type parameter is checked by checking what it is bound to, which may
refer to others in turn.  No bound is known for how many follow each other in a check
that ends: bindings narrow while it runs, so a chain may even come back to a name with
the same value and end all the same.  A check is therefore made on chains that are cut
at some length, and made again on longer ones as long as it is cut.
-/

/-- Checks a value against a generic type parameter, given the check of a value against what it is
bound to. A value that creates the binding is cast by it. -/
def checkGeneric (g : Graph) (onBinding : Observed → Range → Checking (Option Scalar))
    (name : String) (value : Observed) : Checking (Option Scalar) :=
  Checking.within (partMismatch g value (generic name) "generic type binding failed") do
    match ← Generics.bindValue g name value (onBinding value) with
    | some cast => return cast
    | none =>
      match (← get).binding? name with
      | some bound => onBinding value bound
      | none => return none

/-- Checks a value against a range. The check is cut where more than `links` generic type parameters
follow each other. -/
def checkWithin (g : Graph) : Nat → Observed → Range → Checking (Option Scalar)
  | 0, value, r =>
    checkWith g (fun name => checkGeneric g (fun _ _ => throw (.endless name)) name) value r
  | links + 1, value, r => checkWith g (checkGeneric g (checkWithin g links)) value r

def isCut {α : Type} : Except Rejection α × Generics → Bool
  | (.ok _, _) | (.error (.mismatch _), _) => false
  | (.error (.endless _), _) => true

/-- The first length of chains, from `links` on, on which the check is not cut. -/
def lengthFrom (g : Graph) (value : Observed) (r : Range) (c : Generics) (links : Nat) :
    Option Nat :=
  repeatM (fun links =>
    if isCut ((checkWithin g links value r).run.run c) then some (.inl (links + 1))
    else some (.inr links)) links

/-- A length of chains on which the check is not cut, if there is one. There is no need for longer
chains than there are names in scope if none of them leads back to itself. -/
def chainLength (g : Graph) (value : Observed) (r : Range) (c : Generics) : Nat :=
  if isCut ((checkWithin g c.scope.length value r).run.run c) then
    (lengthFrom g value r c (c.scope.length + 1)).getD 0
  else c.scope.length

/-- Checks a value against a range. The answer is the cast value, if the range casts it, and
`.endless` only if the check is cut on all chains, so that it does not end. -/
def check (g : Graph) (value : Observed) (r : Range) : Checking (Option Scalar) := do
  checkWithin g (chainLength g value r (← get)) value r

end Range
end Wiring
