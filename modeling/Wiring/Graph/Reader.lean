import Wiring.Graph.Document

/-!
# Reading documents

Which JSON texts are documents.  Known fields stand once, and fields that are not
known do not count.  The document, its triples and its lists may also be written
as arrays of their fields in order.
-/

namespace Wiring
namespace Document

open Json (Draft)

abbrev Fields := List (String × Draft)

def keyed? (fields : List (Option String × Draft)) : Option Fields :=
  fields.mapM fun f => f.1.map fun key => (key, f.2)

def optional? (fields : Fields) (key : String) : Option (Option Draft) :=
  match fields.filter fun f => f.1 = key with
  | [] => some none
  | [f] => some (some f.2)
  | _ => none

def required? (fields : Fields) (key : String) : Option Draft :=
  (optional? fields key).bind id

def natOf? : Draft → Option Nat
  | .number (some (.int n)) => if 0 ≤ n ∧ n < 4294967296 then some n.toNat else none
  | _ => none

def textOf? : Draft → Option String
  | .string text => text
  | _ => none

def listOf? {α : Type} (read : Draft → Option α) : Draft → Option (List α)
  | .array items => items.mapM read
  | _ => none

/-!
# Nodes
-/

def kindOf? : Draft → Option String
  | .string text => text
  | .number (some (.int 0)) => some "named"
  | .number (some (.int 1)) => some "blank"
  | .number (some (.int 2)) => some "literal"
  | _ => none

def datatypeOf? : Option Draft → Option String
  | none => some Vocabulary.Xsd.string
  | some d => textOf? d

def languageOf? : Option Draft → Option (Option String)
  | none => some none
  | some .null => some none
  | some d => (textOf? d).map some

def literalOf? (fields : Fields) : Option Literal := do
  let value ← (required? fields "value").bind textOf?
  let datatype ← (optional? fields "datatype").bind datatypeOf?
  let language ← (optional? fields "language").bind languageOf?
  return ⟨value, datatype, language⟩

def termOf? (fields : Fields) : Option Term := do
  let kind ← (required? fields "kind").bind kindOf?
  if kind = "named" then ((required? fields "iri").bind textOf?).map .named
  else if kind = "blank" then ((required? fields "label").bind textOf?).map .blank
  else if kind = "literal" then (literalOf? fields).map .literal
  else none

/-- How deep the value of a field of a node may be nested: a node is three deep in its document. -/
def nodeNesting : Nat := Draft.maxNesting - 3

/-- A node. Every field besides the number has to be a proper value, whether it counts or not. -/
def nodeOf? : Draft → Option Node
  | .object fields => do
    let fields ← keyed? fields
    let id ← (required? fields "id").bind natOf?
    let others := fields.filter fun f => f.1 ≠ "id"
    if others.all fun f => (f.2.toJson? nodeNesting).isSome then
      (termOf? others).map fun t => ⟨id, t⟩
    else none
  | _ => none

/-!
# Triples and lists
-/

def tripleOf? : Draft → Option Triple
  | .object fields => do
    let fields ← keyed? fields
    let subject ← (required? fields "subject").bind natOf?
    let predicate ← (required? fields "predicate").bind textOf?
    let object ← (required? fields "object").bind natOf?
    return ⟨subject, predicate, object⟩
  | .array [subject, predicate, object] => do
    let subject ← natOf? subject
    let predicate ← textOf? predicate
    let object ← natOf? object
    return ⟨subject, predicate, object⟩
  | _ => none

def entryOf? : Draft → Option Entry
  | .object fields => do
    let fields ← keyed? fields
    let node ← (required? fields "node").bind natOf?
    let items ← (required? fields "items").bind (listOf? natOf?)
    return ⟨node, items⟩
  | .array [node, items] => do
    let node ← natOf? node
    let items ← listOf? natOf? items
    return ⟨node, items⟩
  | _ => none

/-!
# Documents
-/

def ofParts? (version nodes : Draft) (triples lists : Option Draft) : Option Document := do
  let version ← natOf? version
  let nodes ← listOf? nodeOf? nodes
  let triples ← listOf? tripleOf? (triples.getD (.array []))
  let lists ← listOf? entryOf? (lists.getD (.array []))
  return ⟨version, nodes, triples, lists⟩

def ofDraft? : Draft → Option Document
  | .object fields => do
    let fields ← keyed? fields
    let version ← required? fields "version"
    let nodes ← required? fields "nodes"
    let triples ← optional? fields "triples"
    let lists ← optional? fields "lists"
    ofParts? version nodes triples lists
  | .array (version :: nodes :: rest) =>
    if rest.length ≤ 2 then ofParts? version nodes rest[0]? rest[1]? else none
  | _ => none

def ofText? (text : String) : Option Document :=
  (Draft.ofText? text).bind ofDraft?

end Document

namespace Graph

def importText (text : String) : Except Failure Graph :=
  match Document.ofText? text with
  | none => .error (.deserialization "the text is not a graph document")
  | some d =>
    match d.toGraph with
    | .ok g => .ok g
    | .error fault => .error (.deserialization fault.text)

end Graph
end Wiring
