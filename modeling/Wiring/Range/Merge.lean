import Wiring.Datatype
import Wiring.Range.Basic
import Wiring.Report

/-!
# Merging ranges

The narrower of two ranges, or a report of why neither contains the other.

Wildcards and generic references give way to any range.  Compositions of one
kind merge position by position, ranges around others merge inside, and a union
meets any other range by keeping the members that merge with it.
-/

namespace Wiring
namespace Range

def conflict (a b : Range) : Report :=
  ((Report.ofText s!"Unable to merge ranges \"{a.text}\" and \"{b.text}\"").withText
    "left" a.text).withText "right" b.text

def lengthConflict (a b : Range) (kind : String) (m n : Nat) : Report :=
  (conflict a b).withText "reason" s!"{kind} lengths differ: {m} and {n}"

def lift {α : Type} (a b : Range) (build : α → Range) : Except Report α → Except Report Range
  | .ok inner => .ok (build inner)
  | .error cause => .error ((conflict a b).withCause cause)

def keepMerged (a b : Range) (results : List Range × List Report) : Except Report Range :=
  if results.1.isEmpty then .error ((conflict a b).withCauses results.2)
  else .ok (union results.1)

def addResult : Except Report Range → List Range × List Report → List Range × List Report
  | .ok r, others => (r :: others.1, others.2)
  | .error cause, others => (others.1, cause :: others.2)

mutual

/-- The narrower of two ranges, with `isSubtype` deciding between types of nodes. -/
def merge (isSubtype : String → String → Bool) (a b : Range) : Except Report Range :=
  match a, b with
  | wildcard, b => .ok b
  | generic _, b => .ok b
  | a, wildcard => .ok a
  | a, generic _ => .ok a
  | undefined, undefined => .ok undefined
  | literal x, literal y =>
    match Datatype.narrower? x y with
    | some narrower => .ok (literal narrower)
    | none => .error (conflict (literal x) (literal y))
  | type x, type y =>
    if isSubtype x y then .ok (type x)
    else if isSubtype y x then .ok (type y)
    else .error (conflict (type x) (type y))
  | union xs, union ys =>
    if xs.length = ys.length then
      lift (union xs) (union ys) union (mergePairs isSubtype xs ys)
    else .error (lengthConflict (union xs) (union ys) "union" xs.length ys.length)
  | intersection xs, intersection ys =>
    if xs.length = ys.length then
      lift (intersection xs) (intersection ys) intersection (mergePairs isSubtype xs ys)
    else
      .error
        (lengthConflict (intersection xs) (intersection ys) "intersection" xs.length ys.length)
  | tuple xs, tuple ys =>
    if xs.length = ys.length then
      lift (tuple xs) (tuple ys) tuple (mergePairs isSubtype xs ys)
    else .error (lengthConflict (tuple xs) (tuple ys) "tuple" xs.length ys.length)
  | array x, array y => lift (array x) (array y) array (merge isSubtype x y)
  | rest x, rest y => lift (rest x) (rest y) rest (merge isSubtype x y)
  | keyof x, keyof y => lift (keyof x) (keyof y) keyof (merge isSubtype x y)
  | union xs, b => keepMerged (union xs) b (mergeLeft isSubtype xs b)
  | a, union ys => keepMerged a (union ys) (mergeRight isSubtype a ys)
  | a, b => .error (conflict a b)
termination_by sizeOf a + sizeOf b

def mergePairs (isSubtype : String → String → Bool) (xs ys : List Range) :
    Except Report (List Range) :=
  match xs, ys with
  | x :: xs, y :: ys =>
    match merge isSubtype x y with
    | .error cause => .error cause
    | .ok r =>
      match mergePairs isSubtype xs ys with
      | .error cause => .error cause
      | .ok rs => .ok (r :: rs)
  | _, _ => .ok []
termination_by sizeOf xs + sizeOf ys

def mergeLeft (isSubtype : String → String → Bool) (xs : List Range) (b : Range) :
    List Range × List Report :=
  match xs with
  | [] => ([], [])
  | x :: xs => addResult (merge isSubtype x b) (mergeLeft isSubtype xs b)
termination_by sizeOf xs + sizeOf b

def mergeRight (isSubtype : String → String → Bool) (a : Range) (ys : List Range) :
    List Range × List Report :=
  match ys with
  | [] => ([], [])
  | y :: ys => addResult (merge isSubtype a y) (mergeRight isSubtype a ys)
termination_by sizeOf a + sizeOf ys

end

def sameType (sub sup : String) : Bool :=
  sub = sup

end Range
end Wiring
