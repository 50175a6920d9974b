import Wiring.Failure
import Wiring.Graph.Basic

/-!
# Canonical documents

A document lists the terms of a graph under numbers of its own, then the edges
and the lists in terms of these numbers.  The document of a graph is determined
by the graph, so equal graphs have equal documents.
-/

namespace Wiring
namespace Document

structure Node where
  id : Nat
  term : Term
  deriving DecidableEq, Repr

structure Triple where
  subject : Nat
  predicate : String
  object : Nat
  deriving DecidableEq, Repr

structure Entry where
  node : Nat
  items : List Nat
  deriving DecidableEq, Repr

inductive Fault where
  | unsupportedVersion (version : Nat)
  | tooManyNodes (count limit : Nat)
  | tooManyTriples (count limit : Nat)
  | duplicateNode (id : Nat)
  | danglingReference (id : Nat)
  deriving DecidableEq, Repr

def Fault.text : Fault → String
  | unsupportedVersion version => s!"Unsupported graph version {version}"
  | tooManyNodes count limit => s!"Node count {count} exceeds maximum allowed {limit}"
  | tooManyTriples count limit => s!"Triple count {count} exceeds maximum allowed {limit}"
  | duplicateNode id => s!"Duplicate node id {id}"
  | danglingReference id => s!"Dangling node reference {id}"

end Document

structure Document where
  version : Nat
  nodes : List Document.Node
  triples : List Document.Triple
  lists : List Document.Entry
  deriving DecidableEq, Repr

namespace Document

def currentVersion : Nat := 1

def maxNodes : Nat := 1000000

def maxTriples : Nat := 10000000

/-!
# From graphs to documents
-/

def ofGraph (g : Graph) : Document where
  version := currentVersion
  nodes := g.terms.toList.zipIdx.map fun t => ⟨t.2, t.1⟩
  triples := g.triples.map fun t => ⟨t.1, t.2.predicate, t.2.object⟩
  lists := g.lists.toList.map fun l => ⟨l.1, l.2⟩

/-!
# From documents to graphs
-/

abbrev Numbering := Std.TreeMap Nat NodeId

/-- Adds a node. Document numbers need not be dense, but each is given once; a term that comes
again keeps its first number in the graph. -/
def addNode (state : Numbering × Graph) (node : Node) : Except Fault (Numbering × Graph) :=
  if state.1.contains node.id then .error (.duplicateNode node.id)
  else
    let r := state.2.intern node.term
    .ok (state.1.insert node.id r.1, r.2)

def resolve (numbering : Numbering) (id : Nat) : Except Fault NodeId :=
  match numbering[id]? with
  | some n => .ok n
  | none => .error (.danglingReference id)

def addTriple (numbering : Numbering) (g : Graph) (t : Triple) : Except Fault Graph := do
  let subject ← resolve numbering t.subject
  let object ← resolve numbering t.object
  return g.addEdge subject t.predicate object

def addEntry (numbering : Numbering) (g : Graph) (entry : Entry) : Except Fault Graph := do
  let node ← resolve numbering entry.node
  let items ← entry.items.mapM (resolve numbering)
  return g.setList node items

def toGraph (d : Document) : Except Fault Graph := do
  if d.version ≠ currentVersion then throw (.unsupportedVersion d.version)
  if maxNodes < d.nodes.length then throw (.tooManyNodes d.nodes.length maxNodes)
  if maxTriples < d.triples.length then throw (.tooManyTriples d.triples.length maxTriples)
  let (numbering, g) ← d.nodes.foldlM addNode (∅, Graph.empty)
  let g ← d.triples.foldlM (addTriple numbering) g
  d.lists.foldlM (addEntry numbering) g

/-!
# JSON form
-/

def termFields : Term → List (String × Json)
  | .named iri => [("kind", .str "named"), ("iri", .str iri)]
  | .blank label => [("kind", .str "blank"), ("label", .str label)]
  | .literal l =>
    [("kind", .str "literal"), ("value", .str l.value), ("datatype", .str l.datatype)] ++
      l.language.toList.map fun language => ("language", .str language)

def Node.toJson (n : Node) : Json :=
  .obj (("id", .int n.id) :: termFields n.term)

def Triple.toJson (t : Triple) : Json :=
  .obj [("subject", .int t.subject), ("predicate", .str t.predicate), ("object", .int t.object)]

def Entry.toJson (e : Entry) : Json :=
  .obj [("node", .int e.node), ("items", .arr (e.items.map fun (i : Nat) => .int i))]

def toJson (d : Document) : Json :=
  .obj [
    ("version", .int d.version),
    ("nodes", .arr (d.nodes.map Node.toJson)),
    ("triples", .arr (d.triples.map Triple.toJson)),
    ("lists", .arr (d.lists.map Entry.toJson))]

end Document

namespace Graph

def exportText (g : Graph) : String :=
  (Document.ofGraph g).toJson.pretty

end Graph
end Wiring
