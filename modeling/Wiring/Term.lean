import Std.Data.TreeMap
import Wiring.Vocabulary

/-!
# Terms

The three kinds of terms a graph is made of, their text and their order.
-/

namespace Wiring

open Vocabulary

/-- The number of a term in its graph. Terms are numbered from zero in order of first insertion. -/
abbrev NodeId := Nat

/-- A value with its datatype. Only strings with a language tag have a language. -/
structure Literal where
  value : String
  datatype : String
  language : Option String
  deriving DecidableEq, Repr, Inhabited

namespace Literal

def typed (value datatype : String) : Literal :=
  ⟨value, datatype, none⟩

def plain (value : String) : Literal :=
  typed value Xsd.string

def text (l : Literal) : String :=
  match l.language with
  | some language => "\"" ++ l.value ++ "\"@" ++ language
  | none => "\"" ++ l.value ++ "\"^^<" ++ l.datatype ++ ">"

end Literal

inductive Term where
  | named (iri : String)
  | blank (label : String)
  | literal (l : Literal)
  deriving DecidableEq, Repr, Inhabited

namespace Term

def iri? : Term → Option String
  | named iri => some iri
  | _ => none

def literal? : Term → Option Literal
  | literal l => some l
  | _ => none

def text : Term → String
  | named iri => iri
  | blank label => "_:" ++ label
  | literal l => l.text

/-!
# Order

Terms are ordered by a list of texts that determines them.
-/

def key : Term → List String
  | named iri => ["named", iri]
  | blank label => ["blank", label]
  | literal l => ["literal", l.value, l.datatype] ++ l.language.toList

theorem key_injective {a b : Term} (h : a.key = b.key) : a = b := by
  cases a <;> cases b <;> simp_all [key]
  rename_i l m
  obtain ⟨_, _, x⟩ := l
  obtain ⟨_, _, y⟩ := m
  cases x <;> cases y <;> simp_all

instance : Ord Term := ⟨compareOn key⟩

instance : Std.TransOrd Term :=
  inferInstanceAs (Std.TransCmp (compareOn key))

theorem compare_eq (a b : Term) : compare a b = compare a.key b.key :=
  rfl

instance : Std.LawfulEqOrd Term where
  compare_self := by simp
  eq_of_compare h := key_injective (Std.LawfulEqOrd.eq_of_compare (compare_eq _ _ ▸ h))

end Term
end Wiring
