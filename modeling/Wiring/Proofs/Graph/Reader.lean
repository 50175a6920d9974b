import Wiring.Graph.Reader
import Wiring.Proofs.Json.Reading

/-!
# Documents are read as they were written
-/

namespace Wiring
namespace Document

open Json (Draft)

structure Narrow (d : Document) : Prop where
  version : d.version < 4294967296
  nodes {n : Node} : n ∈ d.nodes -> n.id < 4294967296
  triples {t : Triple} : t ∈ d.triples -> t.subject < 4294967296 ∧ t.object < 4294967296
  lists {e : Entry} : e ∈ d.lists -> e.node < 4294967296 ∧ forall i, i ∈ e.items -> i < 4294967296

theorem natOf?_draft {n : Nat} (h : n < 4294967296) : natOf? (Json.draft (.int n)) = some n := by
  have hbounds : (0 : Int) ≤ n ∧ (n : Int) < 4294967296 := by omega
  rw [Json.draft, natOf?, if_pos hbounds, Int.toNat_natCast]

theorem plain_nat {n : Nat} (h : n < 4294967296) : Json.Plain (.int n) :=
  .nat (Nat.le_trans (Nat.le_of_lt h) (by decide))

theorem listOf?_draft {α : Type} {read : Draft → Option α} {write : α → Json} {as : List α}
    (h : forall a, a ∈ as -> read (Json.draft (write a)) = some a) :
    listOf? read (Json.draft (.arr (as.map write))) = some as := by
  rw [Json.draft, listOf?, Json.draftItems_eq]
  induction as with
  | nil => rfl
  | cons a as ih =>
      rw [List.map_cons, List.map_cons, List.mapM_cons, h a List.mem_cons_self,
        ih fun b hb => h b (List.mem_cons_of_mem _ hb)]
      rfl

def written (fields : List (String × Json)) : Fields :=
  fields.map fun f => (f.1, Json.draft f.2)

theorem keyed?_draft (fields : List (String × Json)) :
    keyed? (Json.draftFields fields) = some (written fields) := by
  rw [Json.draftFields_eq, keyed?, written]
  induction fields with
  | nil => rfl
  | cons field rest ih =>
      rw [List.map_cons, List.map_cons, List.mapM_cons, ih]
      rfl

/-!
# Parts of a document
-/

theorem filter_written_of_ne {fields : List (String × Json)} {key : String}
    (h : forall f, f ∈ fields -> f.1 ≠ key) :
    (written fields).filter (fun f => f.1 = key) = [] := by
  rw [List.filter_eq_nil_iff]
  intro f hf
  rcases List.mem_map.mp hf with ⟨field, hfield, rfl⟩
  simpa using h field hfield

theorem filter_written_of_eq {fields : List (String × Json)} {key : String}
    (h : forall f, f ∈ fields -> f.1 ≠ key) :
    (written fields).filter (fun f => f.1 ≠ key) = written fields := by
  rw [List.filter_eq_self]
  intro f hf
  rcases List.mem_map.mp hf with ⟨field, hfield, rfl⟩
  simpa using h field hfield

theorem isSome_toJson?_string (depth : Nat) (s : String) :
    ((Draft.string (some s)).toJson? depth).isSome = true := by
  rw [Draft.toJson?]
  rfl

theorem nodeOf?_of_fields {id : Nat} {fields : List (String × Json)} {t : Term}
    (hid : id < 4294967296) (hkeys : forall f, f ∈ fields -> f.1 ≠ "id")
    (htexts : forall f, f ∈ fields -> exists s, f.2 = .str s)
    (hterm : termOf? (written fields) = some t) :
    nodeOf? (Json.draft (.obj (("id", .int id) :: fields))) = some ⟨id, t⟩ := by
  have hfields : keyed? (Json.draftFields (("id", .int id) :: fields)) =
      some (("id", Json.draft (.int id)) :: written fields) := keyed?_draft _
  have hrequired : required? (("id", Json.draft (.int id)) :: written fields) "id" =
      some (Json.draft (.int id)) := by
    rw [required?, optional?, List.filter_cons_of_pos (by simp), filter_written_of_ne hkeys]
    rfl
  have hothers : (("id", Json.draft (.int id)) :: written fields).filter
      (fun f => f.1 ≠ "id") = written fields := by
    rw [List.filter_cons_of_neg (by simp), filter_written_of_eq hkeys]
  have hall : (written fields).all (fun f => (f.2.toJson? nodeNesting).isSome) = true := by
    rw [List.all_eq_true]
    intro f hf
    rcases List.mem_map.mp hf with ⟨field, hfield, rfl⟩
    rcases htexts field hfield with ⟨s, hs⟩
    dsimp only
    rw [hs]
    exact isSome_toJson?_string nodeNesting s
  rw [Json.draft, nodeOf?, hfields, Option.bind_eq_bind, Option.bind_some, hrequired,
    Option.bind_some, natOf?_draft hid, Option.bind_eq_bind, Option.bind_some]
  dsimp only
  rw [hothers, if_pos hall, hterm]
  rfl

theorem exists_str_of_mem_termFields {t : Term} {field : String × Json}
    (h : field ∈ termFields t) : field.1 ≠ "id" ∧ exists s, field.2 = .str s := by
  cases t with
  | named iri =>
      simp only [termFields, List.mem_cons, List.not_mem_nil, or_false] at h
      rcases h with rfl | rfl <;> exact ⟨by simp, _, rfl⟩
  | blank label =>
      simp only [termFields, List.mem_cons, List.not_mem_nil, or_false] at h
      rcases h with rfl | rfl <;> exact ⟨by simp, _, rfl⟩
  | literal l =>
      simp only [termFields, List.mem_append, List.mem_cons, List.not_mem_nil, or_false,
        List.mem_map] at h
      rcases h with (rfl | rfl | rfl) | ⟨language, -, rfl⟩ <;> exact ⟨by simp, _, rfl⟩

theorem termOf?_written (t : Term) : termOf? (written (termFields t)) = some t := by
  cases t with
  | named iri => rfl
  | blank label => rfl
  | literal l =>
      rcases l with ⟨value, datatype, language⟩
      cases language <;> rfl

theorem nodeOf?_draft {n : Node} (h : n.id < 4294967296) :
    nodeOf? (Json.draft n.toJson) = some n :=
  nodeOf?_of_fields h (fun _ hfield => (exists_str_of_mem_termFields hfield).1)
    (fun _ hfield => (exists_str_of_mem_termFields hfield).2) (termOf?_written n.term)

theorem plain_node {n : Node} (h : n.id < 4294967296) : n.toJson.Plain := by
  refine .obj fun field hfield => ?_
  rcases List.mem_cons.mp hfield with rfl | hterm
  · exact plain_nat h
  · rcases (exists_str_of_mem_termFields hterm).2 with ⟨s, hs⟩
    rw [hs]
    exact .str s

theorem tripleOf?_draft {t : Triple} (hsubject : t.subject < 4294967296)
    (hobject : t.object < 4294967296) : tripleOf? (Json.draft t.toJson) = some t := by
  have hfields : keyed? (Json.draftFields [("subject", .int t.subject),
      ("predicate", .str t.predicate), ("object", .int t.object)]) =
      some [("subject", Json.draft (.int t.subject)), ("predicate", .string (some t.predicate)),
        ("object", Json.draft (.int t.object))] := keyed?_draft _
  have hrequired (a b c : Draft) :
      required? [("subject", a), ("predicate", b), ("object", c)] "subject" = some a ∧
      required? [("subject", a), ("predicate", b), ("object", c)] "predicate" = some b ∧
      required? [("subject", a), ("predicate", b), ("object", c)] "object" = some c :=
    ⟨rfl, rfl, rfl⟩
  rw [Triple.toJson, Json.draft, tripleOf?, hfields, Option.bind_eq_bind, Option.bind_some,
    (hrequired _ _ _).1, (hrequired _ _ _).2.1, (hrequired _ _ _).2.2, Option.bind_some,
    Option.bind_some, Option.bind_some, natOf?_draft hsubject, natOf?_draft hobject]
  rfl

theorem entryOf?_draft {e : Entry} (hnode : e.node < 4294967296)
    (hitems : forall i, i ∈ e.items -> i < 4294967296) :
    entryOf? (Json.draft e.toJson) = some e := by
  have hfields : keyed? (Json.draftFields [("node", .int e.node),
      ("items", .arr (e.items.map fun (i : Nat) => .int i))]) =
      some [("node", Json.draft (.int e.node)),
        ("items", Json.draft (.arr (e.items.map fun (i : Nat) => .int i)))] := keyed?_draft _
  have hrequired (a b : Draft) :
      required? [("node", a), ("items", b)] "node" = some a ∧
      required? [("node", a), ("items", b)] "items" = some b := ⟨rfl, rfl⟩
  rw [Entry.toJson, Json.draft, entryOf?, hfields, Option.bind_eq_bind, Option.bind_some,
    (hrequired _ _).1, (hrequired _ _).2, Option.bind_some, Option.bind_some,
    natOf?_draft hnode, listOf?_draft fun i hi => natOf?_draft (hitems i hi)]
  rfl

/-!
# The whole document
-/

theorem ofDraft?_draft {d : Document} (h : d.Narrow) :
    ofDraft? (Json.draft d.toJson) = some d := by
  have hfields (a b c e : Json) :
      keyed? (Json.draftFields [("version", a), ("nodes", b), ("triples", c), ("lists", e)]) =
        some [("version", Json.draft a), ("nodes", Json.draft b), ("triples", Json.draft c),
          ("lists", Json.draft e)] := keyed?_draft _
  have hfound (a b c e : Draft) :
      required? [("version", a), ("nodes", b), ("triples", c), ("lists", e)] "version" = some a ∧
      required? [("version", a), ("nodes", b), ("triples", c), ("lists", e)] "nodes" = some b ∧
      optional? [("version", a), ("nodes", b), ("triples", c), ("lists", e)] "triples" =
        some (some c) ∧
      optional? [("version", a), ("nodes", b), ("triples", c), ("lists", e)] "lists" =
        some (some e) := ⟨rfl, rfl, rfl, rfl⟩
  rw [toJson, Json.draft, ofDraft?, hfields, Option.bind_eq_bind, Option.bind_some,
    (hfound _ _ _ _).1, (hfound _ _ _ _).2.1, (hfound _ _ _ _).2.2.1, (hfound _ _ _ _).2.2.2,
    Option.bind_eq_bind, Option.bind_some, Option.bind_eq_bind, Option.bind_some,
    Option.bind_some, Option.bind_some, ofParts?,
    Option.getD_some, Option.getD_some, natOf?_draft h.version,
    listOf?_draft fun n hn => nodeOf?_draft (h.nodes hn),
    listOf?_draft fun t ht => tripleOf?_draft (h.triples ht).1 (h.triples ht).2,
    listOf?_draft fun e he => entryOf?_draft (h.lists he).1 (h.lists he).2]
  rfl

theorem plain_triple {t : Triple} (hsubject : t.subject < 4294967296)
    (hobject : t.object < 4294967296) : t.toJson.Plain := by
  refine .obj fun field hfield => ?_
  simp only [List.mem_cons, List.not_mem_nil, or_false] at hfield
  rcases hfield with rfl | rfl | rfl
  · exact plain_nat hsubject
  · exact .str _
  · exact plain_nat hobject

theorem plain_entry {e : Entry} (hnode : e.node < 4294967296)
    (hitems : forall i, i ∈ e.items -> i < 4294967296) : e.toJson.Plain := by
  refine .obj fun field hfield => ?_
  simp only [List.mem_cons, List.not_mem_nil, or_false] at hfield
  rcases hfield with rfl | rfl
  · exact plain_nat hnode
  · refine .arr fun value hvalue => ?_
    rcases List.mem_map.mp hvalue with ⟨i, hi, rfl⟩
    exact plain_nat (hitems i hi)

theorem plain_toJson {d : Document} (h : d.Narrow) : d.toJson.Plain := by
  refine .obj fun field hfield => ?_
  simp only [List.mem_cons, List.not_mem_nil, or_false] at hfield
  rcases hfield with rfl | rfl | rfl | rfl
  · exact plain_nat h.version
  · refine .arr fun value hvalue => ?_
    rcases List.mem_map.mp hvalue with ⟨n, hn, rfl⟩
    exact plain_node (h.nodes hn)
  · refine .arr fun value hvalue => ?_
    rcases List.mem_map.mp hvalue with ⟨t, ht, rfl⟩
    exact plain_triple (h.triples ht).1 (h.triples ht).2
  · refine .arr fun value hvalue => ?_
    rcases List.mem_map.mp hvalue with ⟨e, he, rfl⟩
    exact plain_entry (h.lists he).1 (h.lists he).2

theorem ofText?_pretty {d : Document} (h : d.Narrow) : ofText? d.toJson.pretty = some d := by
  rw [ofText?, Draft.ofText?_pretty (plain_toJson h), Option.bind_some, ofDraft?_draft h]

end Document
end Wiring
