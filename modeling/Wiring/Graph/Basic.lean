import Wiring.Term

/-!
# Graphs

A graph numbers its terms in order of first insertion, and keeps for each node
the edges that leave it and, if it is a list, its items.
-/

namespace Wiring

structure Edge where
  predicate : String
  object : NodeId
  deriving DecidableEq, Repr

structure Graph where
  terms : Array Term
  index : Std.TreeMap Term NodeId
  edges : Std.TreeMap NodeId (Array Edge)
  lists : Std.TreeMap NodeId (List NodeId)
  nextLabel : Nat
  deriving Inhabited

namespace Graph

def empty : Graph :=
  ⟨#[], ∅, ∅, ∅, 0⟩

/-!
# Insertion
-/

def intern (g : Graph) (t : Term) : NodeId × Graph :=
  match g.index[t]? with
  | some id => (id, g)
  | none => (g.terms.size, { g with
      terms := g.terms.push t
      index := g.index.insert t g.terms.size })

def blankLabel (n : Nat) : String :=
  "b" ++ toString n

def unusedLabel (g : Graph) : Nat → Nat → Nat
  | 0, n => n
  | steps + 1, n =>
    if g.index.contains (.blank (blankLabel n)) then g.unusedLabel steps (n + 1) else n

/-- A new blank node. Among one more label than there are terms, one is unused. -/
def freshBlank (g : Graph) : NodeId × Graph :=
  let n := g.unusedLabel (g.terms.size + 1) g.nextLabel
  { g with nextLabel := n + 1 }.intern (.blank (blankLabel n))

def outgoing (g : Graph) (subject : NodeId) : Array Edge :=
  g.edges.getD subject #[]

def addEdge (g : Graph) (subject : NodeId) (predicate : String) (object : NodeId) : Graph :=
  { g with edges := g.edges.insert subject ((g.outgoing subject).push ⟨predicate, object⟩) }

def addNamed (g : Graph) (subject : NodeId) (predicate iri : String) : Graph :=
  let r := g.intern (.named iri)
  r.2.addEdge subject predicate r.1

def addType (g : Graph) (subject : NodeId) (iri : String) : Graph :=
  g.addNamed subject Vocabulary.Rdf.type iri

def setList (g : Graph) (node : NodeId) (items : List NodeId) : Graph :=
  { g with lists := g.lists.insert node items }

def freshList (g : Graph) (items : List NodeId) : NodeId × Graph :=
  let r := g.freshBlank
  (r.1, r.2.setList r.1 items)

/-!
# Questions
-/

def size (g : Graph) : Nat :=
  g.terms.size

def term? (g : Graph) (id : NodeId) : Option Term :=
  g.terms[id]?

def lookup? (g : Graph) (t : Term) : Option NodeId :=
  g.index[t]?

def lookupNamed? (g : Graph) (iri : String) : Option NodeId :=
  g.lookup? (.named iri)

def objects (g : Graph) (subject : NodeId) (predicate : String) : List NodeId :=
  (g.outgoing subject).toList.filterMap fun e =>
    if e.predicate = predicate then some e.object else none

def object? (g : Graph) (subject : NodeId) (predicate : String) : Option NodeId :=
  (g.objects subject predicate).head?

def has (g : Graph) (subject : NodeId) (predicate : String) : Bool :=
  !(g.objects subject predicate).isEmpty

def list? (g : Graph) (id : NodeId) : Option (List NodeId) :=
  g.lists[id]?

def iri? (g : Graph) (id : NodeId) : Option String :=
  (g.term? id).bind Term.iri?

def literal? (g : Graph) (id : NodeId) : Option Literal :=
  (g.term? id).bind Term.literal?

/-- Whether some value of the predicate is the literal `true`, of whatever datatype. -/
def flag (g : Graph) (subject : NodeId) (predicate : String) : Bool :=
  (g.objects subject predicate).any fun o =>
    match g.literal? o with
    | some l => l.value = "true"
    | none => false

/-- The values of a predicate, where a list that is the only value stands for its items. -/
def ordered (g : Graph) (subject : NodeId) (predicate : String) : List NodeId :=
  match g.objects subject predicate with
  | [single] => (g.list? single).getD [single]
  | values => values

def types (g : Graph) (id : NodeId) : List String :=
  (g.objects id Vocabulary.Rdf.type).filterMap g.iri?

def display (g : Graph) (id : NodeId) : String :=
  match g.term? id with
  | some t => t.text
  | none => "<unknown node " ++ toString id ++ ">"

/-!
# Contents
-/

/-- The edges of a node sorted by predicate; edges of one predicate keep their order. -/
def sortedOutgoing (g : Graph) (subject : NodeId) : List Edge :=
  (g.outgoing subject).toList.mergeSort fun a b => (compare a.predicate b.predicate).isLE

def triples (g : Graph) : List (NodeId × Edge) :=
  g.edges.keys.flatMap fun s => (g.sortedOutgoing s).map fun e => (s, e)

def tripleCount (g : Graph) : Nat :=
  g.edges.foldl (fun n _ edges => n + edges.size) 0

end Graph
end Wiring
