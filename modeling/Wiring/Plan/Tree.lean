import Wiring.Plan.Construction

/-!
# The tree of a plan

The root of a plan as one JSON value, in which every instance stands with its
component and its arguments wherever it is used.
-/

namespace Wiring
namespace Plan

mutual

/-- An argument as JSON. In a map the last value of a key counts, at its first place. -/
def argumentTree : Constructed Json → Json
  | .undefined => .null
  | .literal value => value.toJson
  | .iri s => .obj [("iri", .str s)]
  | .built object => object
  | .lazy inner => .obj [("lazy", inner.toJson)]
  | .list items => .arr (itemTrees items)
  | .map entries => .ofFields (entryTrees entries)

def itemTrees : List (Constructed Json) → List Json
  | [] => []
  | a :: rest => argumentTree a :: itemTrees rest

def entryTrees : List (String × Constructed Json) → List (String × Json)
  | [] => []
  | (key, a) :: rest => (key, argumentTree a) :: entryTrees rest

end

def treeBuilder : Builder Unit Json := fun x arguments =>
  return .obj [
    ("config", .str x.config),
    ("component", .str x.component),
    ("arguments", .arr (itemTrees arguments))]

def tree (p : Plan) : Except Failure Json :=
  ((p.construct treeBuilder).run.run ()).1

end Plan
end Wiring
