import Wiring.Proofs.Graph.Operation
import Wiring.Proofs.Range.Unfolding

/-!
# Checks end

A check follows a generic type parameter to what it is bound to, which may be larger
than the range it comes from.  If no generic type parameter leads back to itself, a
chain of them is no longer than there are names in scope, whatever the values are.
Longer chains need not be followed then, and a check is what its parts make of it.
-/

namespace Wiring
namespace Range

/-!
# What stands in a range
-/

mutual

/-- The generic type parameter stands somewhere in the range, and be it among what keys are of. -/
def Contains (name : String) : Range → Prop
  | wildcard | undefined | literal _ | type _ => False
  | generic n => n = name
  | union members | intersection members | tuple members => AnyContains name members
  | array inner | rest inner | keyof inner => Contains name inner

def AnyContains (name : String) : List Range → Prop
  | [] => False
  | r :: rs => Contains name r ∨ AnyContains name rs

end

theorem anyContains_iff {name : String} {rs : List Range} :
    AnyContains name rs <-> exists r, r ∈ rs ∧ Contains name r := by
  induction rs with
  | nil => exact ⟨fun h => h.elim, fun ⟨r, hr, _⟩ => absurd hr List.not_mem_nil⟩
  | cons r rs ih => simp [AnyContains, ih]

theorem fromParts_contains (name : String) : FromParts (Contains name) where
  undefined := id
  literal _ := id
  type _ := id
  union := anyContains_iff
  intersection := anyContains_iff
  tuple := anyContains_iff
  array := Iff.rfl
  rest := Iff.rfl
  keyof := id

mutual

theorem Mentions.contains {name : String} {r : Range} (h : r.Mentions name) : r.Contains name := by
  cases r with
  | generic n => exact h
  | union members => exact AnyMentions.anyContains h
  | intersection members => exact AnyMentions.anyContains h
  | tuple members => exact AnyMentions.anyContains h
  | array inner => exact Mentions.contains (r := inner) h
  | rest inner => exact Mentions.contains (r := inner) h
  | _ => exact h.elim

theorem AnyMentions.anyContains {name : String} {rs : List Range} (h : AnyMentions name rs) :
    AnyContains name rs := by
  cases rs with
  | nil => exact h
  | cons r rs => exact h.imp Mentions.contains AnyMentions.anyContains

end

end Range

namespace Generics

/-- The first generic type parameter is bound to a range in which the other one stands. -/
def Involves (c : Generics) (name other : String) : Prop :=
  exists r, c.binding? name = some r ∧ r.Contains other

def Loopless (c : Generics) : Prop :=
  forall name, ¬ Relation.TransGen c.Involves name name

variable {c c' : Generics}

theorem Refers.involves {name other : String} : c.Refers name other -> c.Involves name other
  | ⟨r, hr, hmentions⟩ => ⟨r, hr, hmentions.contains⟩

theorem Loopless.acyclic (h : c.Loopless) : c.Acyclic :=
  fun name hpath => h name (Relation.TransGen.mono (fun _ _ => Refers.involves) name name hpath)

theorem Loopless.of_involves (h : c.Loopless)
    (hinvolves : forall name other, c'.Involves name other -> c.Involves name other) : c'.Loopless :=
  fun name hpath => h name (Relation.TransGen.mono hinvolves name name hpath)

end Generics

namespace Range

open Checking (Agree Matches)

variable {g : Graph} {c : Generics}

theorem confines_check {P : Range → Prop} (hP : FromParts P) {holders : String → Prop}
    (h : c.Confines P holders) (v : Observed) (r : Range) :
    (outcome (check g v r) c).2.Confines P holders := by
  have hkeeps : Checking.Keeps True (fun d => d.Confines P holders) (check g v r) :=
    keeps_check (fun name v _ _ hd _ => hd.inferFrom hP name v)
      (fun name v _ _ existing _ hd _ hbound he => he.narrowBy hP (hd name existing hbound) v)
      (fun _ _ _ _ _ _ => trivial) v r fun _ _ => trivial
  exact (hkeeps c h).1

theorem loopless_check (hc : c.Loopless) (v : Observed) (r : Range) :
    (outcome (check g v r) c).2.Loopless := by
  apply hc.of_involves
  rintro name other ⟨r', hr', hother⟩
  have hconfines : c.Confines (Contains other) fun name => c.Involves name other :=
    fun name r hr h => ⟨r, hr, h⟩
  exact confines_check (fromParts_contains other) hconfines v r name r' hr' hother

/-!
# Checks that end
-/

theorem outcome_checkWithin_of_acyclic (hc : c.Acyclic) {links : Nat}
    (hlinks : c.scope.length ≤ links) (v : Observed) (r : Range) :
    outcome (checkWithin g links v r) c = outcome (check g v r) c := by
  have hruns := runs_checkWithin_of_scope (g := g) hc hlinks v r c (.refl c)
  exact (outcome_check_of_links (not_isCut_iff.mpr hruns.2)).symm

def kindred : List Graph.Operation :=
  [.freshBlank, .freshBlank, .addType 0 "C", .addType 1 "D",
    .addNamed 3 Vocabulary.Rdfs.subClassOf "C", .freshList [0, 1]]

/-- `S` comes back to itself with the same list until `B` is narrowed to what only one item is. -/
def returning : Generics :=
  ⟨["S", "B"], [
    ("S", union [intersection [tuple [generic "B", generic "B"], generic "S"], wildcard]),
    ("B", type "C")]⟩

-- Chains as long as there are names in scope do not suffice for every check that ends.
example : isCut (outcome (checkWithin (Graph.empty.runAll kindred).2 2 (.node 4) (generic "S"))
      returning) = true ∧
    isCut (outcome (checkWithin (Graph.empty.runAll kindred).2 3 (.node 4) (generic "S"))
      returning) = false := by
  decide +kernel

/-- The check comes to an end: its answer is not that a chain is endless, it is the same on all
chains that are as long as there are names in scope, and it is made of the answers of its parts. -/
structure Ends (g : Graph) (c : Generics) (v : Observed) (r : Range) : Prop where
  answers (name : String) : (outcome (check g v r) c).1 ≠ .error (.endless name)
  within (links : Nat) (h : c.scope.length ≤ links) :
    outcome (checkWithin g links v r) c = outcome (check g v r) c
  unfold : outcome (check g v r) c = outcome (checkWith g (checkGeneric g (check g)) v r) c

theorem ends_of_acyclic (hc : c.Acyclic) (v : Observed) (r : Range) : Ends g c v r where
  answers := (runs_check_of_acyclic hc v r).2
  within _ h := outcome_checkWithin_of_acyclic hc h v r
  unfold := outcome_check_unfold (.inl (not_isCut_iff.mpr (runs_check_of_acyclic hc v r).2))

/-- Checks end on every graph if no generic type parameter leads back to itself, and none does
afterwards.  This is so for those that a check may meet and for all that stand in a range. -/
theorem check_terminates (g : Graph) (c : Generics) (v : Observed) (r : Range) :
    (c.Loopless -> Ends g c v r ∧ (outcome (check g v r) c).2.Loopless) ∧
    (c.Acyclic -> Ends g c v r ∧ (outcome (check g v r) c).2.Acyclic) := by
  constructor
  · intro hc
    exact ⟨ends_of_acyclic hc.acyclic v r, loopless_check hc v r⟩
  · intro hc
    exact ⟨ends_of_acyclic hc v r, (settles_check v r c).acyclic hc⟩

def whirl : List Graph.Operation :=
  [.freshBlank, .setList 0 [0], .addType 0 "Loop"]

def layers : Generics :=
  ⟨["T", "U", "S"],
    [("T", array (generic "U")), ("U", tuple [generic "S", rest (keyof (generic "S"))])]⟩

theorem loopless_layers : layers.Loopless := by
  apply not_transGen_of_rank fun name => if name = "T" then 2 else if name = "U" then 1 else 0
  rintro name other ⟨r, hr, hother⟩
  simp only [layers, Generics.binding?, List.lookup_cons] at hr
  split at hr
  · next heq =>
      cases hr
      cases hother
      rw [eq_of_beq heq]
      decide
  · split at hr
    · next heq =>
        cases hr
        rw [eq_of_beq heq]
        rcases hother with h | h | h
        · cases h
          decide
        · cases h
          decide
        · exact h.elim
    · cases hr

theorem check_terminates_whirl :
    Ends (Graph.empty.runAll whirl).2 layers (.node 0) (generic "T") ∧
    (outcome (check (Graph.empty.runAll whirl).2 (.node 0) (generic "T")) layers).2.Loopless ∧
    (outcome (check (Graph.empty.runAll whirl).2 (.node 0) (generic "T")) layers).1 =
      .ok none ∧
    ((outcome (check (Graph.empty.runAll whirl).2 (.node 0) (generic "T")) layers).2.binding?
      "S").isSome := by
  have hends := (check_terminates (Graph.empty.runAll whirl).2 layers (.node 0) (generic "T")).1
    loopless_layers
  exact ⟨hends.1, hends.2, rfl, by decide +kernel⟩

end Range
end Wiring
