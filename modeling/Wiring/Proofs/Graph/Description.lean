import Wiring.Graph.Document
import Wiring.Proofs.Graph.Store
import Wiring.Proofs.Lockstep

/-!
# What documents describe

A document numbers its nodes in a way of its own, and may give the same term
under several numbers.  Its graph has one node for each term, numbered by first
appearance, and this node has what the document says about any of its numbers.
-/

namespace Wiring
namespace Document

variable {d : Document} {g h : Graph} {m : Numbering} {f : Nat -> NodeId}

/-!
# Documents and their graphs
-/

/-- A document of the current version in which every number that is used is the number of one
node. -/
structure WellFormed (d : Document) : Prop where
  version : d.version = currentVersion
  distinct : (d.nodes.map Node.id).Nodup
  triples {t : Triple} : t ∈ d.triples ->
    t.subject ∈ d.nodes.map Node.id ∧ t.object ∈ d.nodes.map Node.id
  lists {e : Entry} : e ∈ d.lists ->
    e.node ∈ d.nodes.map Node.id ∧ forall i, i ∈ e.items -> i ∈ d.nodes.map Node.id

/-- A document describes a graph in which its number `i` stands for the node `f i`. -/
structure Describes (d : Document) (f : Nat -> NodeId) (g : Graph) : Prop where
  same {a b : Node} : a ∈ d.nodes -> b ∈ d.nodes -> (f a.id = f b.id <-> a.term = b.term)
  term {a : Node} : a ∈ d.nodes -> g.term? (f a.id) = some a.term
  terms : g.terms.toList = (d.nodes.map Node.term).eraseDups
  objects (n : NodeId) (p : String) : g.objects n p =
    (d.triples.filter fun t => f t.subject = n ∧ t.predicate = p).map fun t => f t.object
  list? (n : NodeId) : g.list? n =
    (d.lists.filter fun e => f e.node = n).getLast?.map fun e => e.items.map f

/-!
# Nodes
-/

structure Read (nodes : List Node) (state : Numbering × Graph) : Prop where
  sound : state.2.Sound
  distinct : (nodes.map Node.id).Nodup
  known {a : Node} : a ∈ nodes ->
    exists n, state.1[a.id]? = some n ∧ state.2.index[a.term]? = some n
  declared {i : Nat} : i ∈ state.1 -> i ∈ nodes.map Node.id
  terms : state.2.terms.toList = (nodes.map Node.term).eraseDups
  objects (n : NodeId) (p : String) : state.2.objects n p = []
  list? (n : NodeId) : state.2.list? n = none

variable {nodes rest : List Node} {state state' : Numbering × Graph} {a : Node}

theorem read_nil : Read [] (∅, Graph.empty) where
  sound := Graph.sound_empty
  distinct := List.nodup_nil
  known ha := absurd ha List.not_mem_nil
  declared hi := absurd hi Std.TreeMap.not_mem_emptyc
  terms := rfl
  objects n p := by simp [Graph.objects, Graph.outgoing, Graph.empty]
  list? n := by simp [Graph.list?, Graph.empty]

theorem Read.mem_iff (hread : Read nodes state) {i : Nat} :
    i ∈ state.1 <-> i ∈ nodes.map Node.id := by
  constructor
  · exact hread.declared
  · intro hi
    rcases List.mem_map.mp hi with ⟨a, ha, rfl⟩
    rcases hread.known ha with ⟨n, hn, -⟩
    rw [Std.TreeMap.mem_iff_isSome_getElem?, hn]
    rfl

theorem toList_terms_intern (hread : Read nodes state) (t : Term) :
    (state.2.intern t).2.terms.toList = (nodes.map Node.term ++ [t]).eraseDups := by
  rw [List.eraseDups_append, ← hread.terms]
  cases hindex : state.2.index[t]? with
  | some n =>
      have hterm := hread.sound.index.mp hindex
      have hmem : t ∈ nodes.map Node.term := by
        rw [← List.mem_eraseDups, ← hread.terms]
        exact Array.mem_toList_iff.mpr (Array.mem_of_getElem? hterm)
      have hremove : [t].removeAll (nodes.map Node.term) = [] :=
        List.filter_cons_of_neg (by simpa using hmem)
      rw [Graph.intern_found hindex, hremove, List.eraseDups_nil, List.append_nil]
  | none =>
      have hmem : t ∉ nodes.map Node.term := by
        intro hmem
        rcases List.mem_map.mp hmem with ⟨a, ha, rfl⟩
        rcases hread.known ha with ⟨n, -, hn⟩
        rw [hindex] at hn
        cases hn
      have hremove : [t].removeAll (nodes.map Node.term) = [t] :=
        List.filter_cons_of_pos (by simpa using hmem)
      rw [Graph.intern_new hindex, Array.toList_push, hremove]
      rfl

theorem Read.addNode (hread : Read nodes state) (hadd : addNode state a = .ok state') :
    Read (nodes ++ [a]) state' := by
  unfold Document.addNode at hadd
  split at hadd
  · cases hadd
  · next hfresh =>
      cases hadd
      have hnew : a.id ∉ nodes.map Node.id := by
        rw [← hread.mem_iff, Std.TreeMap.mem_iff_contains]
        exact hfresh
      constructor
      · exact hread.sound.intern _
      · rw [List.map_append, List.map_singleton]
        exact List.nodup_append.mpr ⟨hread.distinct, List.nodup_singleton _,
          fun i hi j hj heq => hnew (List.mem_singleton.mp hj ▸ heq ▸ hi)⟩
      · intro b hb
        rw [Table.getElem?_insert, Graph.index_intern]
        rcases List.mem_append.mp hb with hold | hlast
        · have hne : b.id ≠ a.id := fun heq => hnew (heq ▸ List.mem_map_of_mem hold)
          rcases hread.known hold with ⟨n, hn, hindex⟩
          refine ⟨n, by rw [if_neg hne, hn], ?_⟩
          split
          · next hterm => rw [Graph.intern_found (hterm ▸ hindex)]
          · exact hindex
        · rw [List.mem_singleton.mp hlast]
          exact ⟨_, if_pos rfl, if_pos rfl⟩
      · intro i hi
        rw [List.map_append, List.mem_append]
        rcases Std.TreeMap.mem_insert.mp hi with heq | hold
        · exact Or.inr (List.mem_singleton.mpr (Std.LawfulEqOrd.eq_of_compare heq).symm)
        · exact Or.inl (hread.declared hold)
      · rw [toList_terms_intern hread, List.map_append, List.map_singleton]
      · intro n p
        rw [Graph.objects_intern]
        exact hread.objects n p
      · intro n
        rw [Graph.list?_intern]
        exact hread.list? n

theorem read_nodes (hread : Read nodes state)
    (hrun : rest.foldlM Document.addNode state = .ok state') : Read (nodes ++ rest) state' := by
  induction rest generalizing nodes state with
  | nil =>
      cases hrun
      rw [List.append_nil]
      exact hread
  | cons a rest ih =>
      rw [List.foldlM_cons] at hrun
      rcases bind_eq_ok.mp hrun with ⟨t, hadd, hrest⟩
      rw [List.append_cons]
      exact ih (hread.addNode hadd) hrest

theorem exists_read_nodes (rest : List Node) (hread : Read nodes state)
    (hdistinct : ((nodes ++ rest).map Node.id).Nodup) :
    exists state', rest.foldlM Document.addNode state = .ok state' := by
  induction rest generalizing nodes state with
  | nil => exact ⟨state, rfl⟩
  | cons a rest ih =>
      have hnew : a.id ∉ nodes.map Node.id := by
        rw [List.map_append] at hdistinct
        intro ha
        exact (List.nodup_append.mp hdistinct).2.2 a.id ha a.id List.mem_cons_self rfl
      have hfresh : ¬ state.1.contains a.id := by
        rw [← Std.TreeMap.mem_iff_contains, hread.mem_iff]
        exact hnew
      have hadd : addNode state a = .ok
          (state.1.insert a.id (state.2.intern a.term).1, (state.2.intern a.term).2) := by
        rw [addNode, if_neg hfresh]
      rw [List.append_cons] at hdistinct
      rw [List.foldlM_cons, hadd]
      exact ih (hread.addNode hadd) hdistinct

/-!
# Numbers
-/

def nodeOf (m : Numbering) (i : Nat) : NodeId :=
  m.getD i 0

def Triple.renumber (f : Nat -> NodeId) (t : Triple) : Triple :=
  ⟨f t.subject, t.predicate, f t.object⟩

def Entry.renumber (f : Nat -> NodeId) (e : Entry) : Entry :=
  ⟨f e.node, e.items.map f⟩

theorem Triple.renumber_id : Triple.renumber id = id := rfl

theorem Entry.renumber_id : Entry.renumber id = id := by
  funext e
  rw [Entry.renumber, List.map_id]
  rfl

theorem resolve_eq_ok {i : Nat} {n : NodeId} : resolve m i = .ok n <-> m[i]? = some n := by
  unfold resolve
  cases m[i]? with
  | none => simp
  | some u => simp

theorem getElem?_of_mem {i : Nat} (hi : i ∈ m) : m[i]? = some (nodeOf m i) := by
  rw [nodeOf, Std.TreeMap.getD_eq_getD_getElem?]
  cases hm : m[i]? with
  | none =>
      rw [Std.TreeMap.mem_iff_isSome_getElem?, hm] at hi
      cases hi
  | some n => rfl

theorem mem_of_resolve {i : Nat} {n : NodeId} (hi : resolve m i = .ok n) : i ∈ m := by
  rw [Std.TreeMap.mem_iff_isSome_getElem?, resolve_eq_ok.mp hi]
  rfl

theorem Read.nodeOf (hread : Read nodes state) (ha : a ∈ nodes) :
    state.2.index[a.term]? = some (nodeOf state.1 a.id) := by
  rcases hread.known ha with ⟨n, hn, hindex⟩
  have hsame := getElem?_of_mem (hread.mem_iff.mpr (List.mem_map_of_mem ha))
  rw [hn] at hsame
  rw [hindex, hsame]

theorem forall_of_foldlM {σ α : Type} {step : σ → α → Except Fault σ} {P : α -> Prop}
    (hstep : forall s a s', step s a = .ok s' -> P a) {l : List α} {s s' : σ}
    (hrun : l.foldlM step s = .ok s') : forall a, a ∈ l -> P a := by
  induction l generalizing s with
  | nil => exact fun a ha => absurd ha List.not_mem_nil
  | cons a l ih =>
      rw [List.foldlM_cons] at hrun
      rcases bind_eq_ok.mp hrun with ⟨t, hfirst, hrest⟩
      intro b hb
      rcases List.mem_cons.mp hb with rfl | hmem
      · exact hstep s b t hfirst
      · exact ih hrest b hmem

/-!
# Triples
-/

def addAll (g : Graph) (ts : List Triple) : Graph :=
  ts.foldl (fun g t => g.addEdge t.subject t.predicate t.object) g

theorem foldlM_addTriple {ts : List Triple}
    (hts : forall t, t ∈ ts ->
      m[t.subject]? = some (f t.subject) ∧ m[t.object]? = some (f t.object)) :
    ts.foldlM (addTriple m) h = .ok (addAll h (ts.map (Triple.renumber f))) := by
  induction ts generalizing h with
  | nil => rfl
  | cons t ts ih =>
      have ht := hts t List.mem_cons_self
      have hadd : addTriple m h t = .ok (h.addEdge (f t.subject) t.predicate (f t.object)) := by
        rw [addTriple, resolve_eq_ok.mpr ht.1, resolve_eq_ok.mpr ht.2]
        rfl
      rw [List.foldlM_cons, hadd]
      exact ih fun t' ht' => hts t' (List.mem_cons_of_mem _ ht')

theorem mem_of_addTriple {t : Triple} (hadd : addTriple m h t = .ok g) :
    t.subject ∈ m ∧ t.object ∈ m := by
  rcases bind_eq_ok.mp hadd with ⟨s, hsubject, hrest⟩
  rcases bind_eq_ok.mp hrest with ⟨o, hobject, -⟩
  exact ⟨mem_of_resolve hsubject, mem_of_resolve hobject⟩

theorem sound_addAll (hh : h.Sound) (ts : List Triple) : (addAll h ts).Sound := by
  induction ts generalizing h with
  | nil => exact hh
  | cons t ts ih => exact ih (hh.addEdge _ _ _)

theorem terms_addAll (h : Graph) (ts : List Triple) : (addAll h ts).terms = h.terms := by
  induction ts generalizing h with
  | nil => rfl
  | cons t ts ih => exact ih _

theorem list?_addAll (h : Graph) (ts : List Triple) (i : NodeId) :
    (addAll h ts).list? i = h.list? i := by
  induction ts generalizing h with
  | nil => rfl
  | cons t ts ih => exact ih _

def values (ts : List Triple) (s : NodeId) (p : String) : List NodeId :=
  (ts.filter fun t => t.subject = s ∧ t.predicate = p).map Triple.object

theorem objects_addAll (h : Graph) (ts : List Triple) (s : NodeId) (p : String) :
    (addAll h ts).objects s p = h.objects s p ++ values ts s p := by
  unfold values
  induction ts generalizing h with
  | nil => simp [addAll]
  | cons t ts ih =>
      have hstep : addAll h (t :: ts) =
          addAll (h.addEdge t.subject t.predicate t.object) ts := rfl
      rw [hstep, ih, Graph.objects_addEdge]
      by_cases ht : t.subject = s ∧ t.predicate = p
      · rcases ht with ⟨rfl, rfl⟩
        simp
      · have hne : ¬ (s = t.subject ∧ p = t.predicate) := fun h => ht ⟨h.1.symm, h.2.symm⟩
        rw [if_neg hne, List.filter_cons_of_neg (by simpa using ht)]

/-!
# Lists
-/

def setAll (g : Graph) (es : List Entry) : Graph :=
  es.foldl (fun g e => g.setList e.node e.items) g

theorem setAll_cons (e : Entry) (es : List Entry) :
    setAll h (e :: es) = setAll (h.setList e.node e.items) es := rfl

theorem mapM_resolve {items : List Nat} (hitems : forall i, i ∈ items -> m[i]? = some (f i)) :
    items.mapM (resolve m) = .ok (items.map f) := by
  induction items with
  | nil => rfl
  | cons i items ih =>
      rw [List.mapM_cons, resolve_eq_ok.mpr (hitems i List.mem_cons_self),
        ih fun j hj => hitems j (List.mem_cons_of_mem _ hj)]
      rfl

theorem foldlM_addEntry {es : List Entry} (hes : forall e, e ∈ es ->
      m[e.node]? = some (f e.node) ∧ forall i, i ∈ e.items -> m[i]? = some (f i)) :
    es.foldlM (addEntry m) h = .ok (setAll h (es.map (Entry.renumber f))) := by
  induction es generalizing h with
  | nil => rfl
  | cons e es ih =>
      have he := hes e List.mem_cons_self
      have hadd : addEntry m h e = .ok (h.setList (f e.node) (e.items.map f)) := by
        rw [addEntry, resolve_eq_ok.mpr he.1, mapM_resolve he.2]
        rfl
      rw [List.foldlM_cons, hadd]
      exact ih fun e' he' => hes e' (List.mem_cons_of_mem _ he')

theorem mem_of_mapM_resolve {items : List Nat} {ns : List NodeId}
    (hitems : items.mapM (resolve m) = .ok ns) : forall i, i ∈ items -> i ∈ m := by
  induction items generalizing ns with
  | nil => exact fun i hi => absurd hi List.not_mem_nil
  | cons i items ih =>
      rw [List.mapM_cons] at hitems
      rcases bind_eq_ok.mp hitems with ⟨n, hfirst, hmap⟩
      rcases bind_eq_ok.mp hmap with ⟨rest, hrest, -⟩
      intro j hj
      rcases List.mem_cons.mp hj with rfl | hmem
      · exact mem_of_resolve hfirst
      · exact ih hrest j hmem

theorem mem_of_addEntry {e : Entry} (hadd : addEntry m h e = .ok g) :
    e.node ∈ m ∧ forall i, i ∈ e.items -> i ∈ m := by
  rcases bind_eq_ok.mp hadd with ⟨n, hnode, hrest⟩
  rcases bind_eq_ok.mp hrest with ⟨items, hitems, -⟩
  exact ⟨mem_of_resolve hnode, mem_of_mapM_resolve hitems⟩

theorem sound_setAll (hh : h.Sound) (es : List Entry) : (setAll h es).Sound := by
  induction es generalizing h with
  | nil => exact hh
  | cons e es ih => exact ih (hh.setList _ _)

theorem terms_setAll (h : Graph) (es : List Entry) : (setAll h es).terms = h.terms := by
  induction es generalizing h with
  | nil => rfl
  | cons e es ih => exact ih _

theorem objects_setAll (h : Graph) (es : List Entry) (s : NodeId) (p : String) :
    (setAll h es).objects s p = h.objects s p := by
  induction es generalizing h with
  | nil => rfl
  | cons e es ih => exact ih _

theorem list?_setAll (h : Graph) (es : List Entry) (n : NodeId) : (setAll h es).list? n =
    ((es.filter fun e => e.node = n).getLast?.map Entry.items).or (h.list? n) := by
  induction es generalizing h with
  | nil => rfl
  | cons e es ih =>
      rw [setAll_cons, ih, Graph.list?_setList]
      by_cases he : e.node = n
      · rw [if_pos he.symm, List.filter_cons_of_pos (by simpa using he), List.getLast?_cons]
        cases (es.filter fun e => e.node = n).getLast? with
        | none => rfl
        | some last => rfl
      · rw [if_neg (Ne.symm he), List.filter_cons_of_neg (by simpa using he)]

/-!
# The whole document
-/

theorem toGraph_ok_iff {d : Document} : d.toGraph = .ok g <->
    d.version = currentVersion ∧ d.nodes.length ≤ maxNodes ∧ d.triples.length ≤ maxTriples ∧
      exists state h, d.nodes.foldlM addNode (∅, Graph.empty) = .ok state ∧
        d.triples.foldlM (addTriple state.1) state.2 = .ok h ∧
        d.lists.foldlM (addEntry state.1) h = .ok g := by
  unfold toGraph
  constructor
  · intro hok
    have hversion : d.version = currentVersion := by
      by_contra hne
      rw [if_pos hne] at hok
      cases hok
    rw [if_neg (not_not.mpr hversion)] at hok
    have hnodes : d.nodes.length ≤ maxNodes := by
      by_contra hgt
      rw [if_pos (Nat.not_le.mp hgt)] at hok
      cases hok
    rw [if_neg (Nat.not_lt.mpr hnodes)] at hok
    have htriples : d.triples.length ≤ maxTriples := by
      by_contra hgt
      rw [if_pos (Nat.not_le.mp hgt)] at hok
      cases hok
    rw [if_neg (Nat.not_lt.mpr htriples)] at hok
    rcases bind_eq_ok.mp hok with ⟨state, hfold, hrest⟩
    rcases bind_eq_ok.mp hrest with ⟨h, hadd, hset⟩
    exact ⟨hversion, hnodes, htriples, state, h, hfold, hadd, hset⟩
  · rintro ⟨hversion, hnodes, htriples, state, h, hfold, hadd, hset⟩
    rw [if_neg (not_not.mpr hversion), if_neg (Nat.not_lt.mpr hnodes),
      if_neg (Nat.not_lt.mpr htriples)]
    exact bind_eq_ok.mpr ⟨state, hfold, bind_eq_ok.mpr ⟨h, hadd, hset⟩⟩

theorem Read.known_triples (hread : Read d.nodes state) (hd : d.WellFormed) {t : Triple}
    (ht : t ∈ d.triples) : state.1[t.subject]? = some (Document.nodeOf state.1 t.subject) ∧
      state.1[t.object]? = some (Document.nodeOf state.1 t.object) :=
  ⟨getElem?_of_mem (hread.mem_iff.mpr (hd.triples ht).1),
    getElem?_of_mem (hread.mem_iff.mpr (hd.triples ht).2)⟩

theorem Read.known_lists (hread : Read d.nodes state) (hd : d.WellFormed) {e : Entry}
    (he : e ∈ d.lists) : state.1[e.node]? = some (Document.nodeOf state.1 e.node) ∧
      forall i, i ∈ e.items -> state.1[i]? = some (Document.nodeOf state.1 i) :=
  ⟨getElem?_of_mem (hread.mem_iff.mpr (hd.lists he).1),
    fun i hi => getElem?_of_mem (hread.mem_iff.mpr ((hd.lists he).2 i hi))⟩

theorem wellFormed_of_toGraph (hgraph : d.toGraph = .ok g) : d.WellFormed := by
  rcases toGraph_ok_iff.mp hgraph with ⟨hversion, -, -, state, h, hfold, hadd, hset⟩
  have hread : Read d.nodes state := read_nodes read_nil hfold
  refine ⟨hversion, hread.distinct, fun {t} ht => ?_, fun {e} he => ?_⟩
  · have hknown := forall_of_foldlM (P := fun t => t.subject ∈ state.1 ∧ t.object ∈ state.1)
      (fun _ _ _ => mem_of_addTriple) hadd t ht
    exact ⟨hread.declared hknown.1, hread.declared hknown.2⟩
  · have hknown := forall_of_foldlM
      (P := fun e => e.node ∈ state.1 ∧ forall i, i ∈ e.items -> i ∈ state.1)
      (fun _ _ _ => mem_of_addEntry) hset e he
    exact ⟨hread.declared hknown.1, fun i hi => hread.declared (hknown.2 i hi)⟩

theorem exists_toGraph (hd : d.WellFormed) (hnodes : d.nodes.length ≤ maxNodes)
    (htriples : d.triples.length ≤ maxTriples) : exists g, d.toGraph = .ok g := by
  rcases exists_read_nodes d.nodes read_nil hd.distinct with ⟨state, hfold⟩
  have hread : Read d.nodes state := read_nodes read_nil hfold
  exact ⟨_, toGraph_ok_iff.mpr ⟨hd.version, hnodes, htriples, state, _, hfold,
    foldlM_addTriple fun _ => hread.known_triples hd,
    foldlM_addEntry fun _ => hread.known_lists hd⟩⟩

theorem describes_of_toGraph (hgraph : d.toGraph = .ok g) : exists f, d.Describes f g := by
  have hd := wellFormed_of_toGraph hgraph
  rcases toGraph_ok_iff.mp hgraph with ⟨-, -, -, state, h, hfold, hadd, hset⟩
  have hread : Read d.nodes state := read_nodes read_nil hfold
  rw [foldlM_addTriple fun _ => hread.known_triples hd] at hadd
  cases hadd
  rw [foldlM_addEntry fun _ => hread.known_lists hd] at hset
  cases hset
  have hterm {a : Node} (ha : a ∈ d.nodes) :
      state.2.terms[Document.nodeOf state.1 a.id]? = some a.term :=
    hread.sound.index.mp (hread.nodeOf ha)
  refine ⟨Document.nodeOf state.1, ?_, ?_, ?_, ?_, ?_⟩
  · intro a b ha hb
    constructor
    · intro hsame
      have hfirst := hterm ha
      rw [hsame, hterm hb] at hfirst
      exact (Option.some.inj hfirst).symm
    · intro hsame
      have hfirst := hread.nodeOf ha
      rw [hsame, hread.nodeOf hb] at hfirst
      exact (Option.some.inj hfirst).symm
  · intro a ha
    rw [Graph.term?, terms_setAll, terms_addAll]
    exact hterm ha
  · rw [terms_setAll, terms_addAll]
    exact hread.terms
  · intro n p
    rw [objects_setAll, objects_addAll, hread.objects, List.nil_append, values, List.filter_map,
      List.map_map]
    rfl
  · intro n
    rw [list?_setAll, list?_addAll, hread.list?, Option.or_none, List.filter_map,
      List.getLast?_map, Option.map_map]
    rfl

/-- Within the limits, the documents that can be read are the well-formed ones, and each describes
the graph that is read from it. -/
theorem toGraph_describes (hnodes : d.nodes.length ≤ maxNodes)
    (htriples : d.triples.length ≤ maxTriples) :
    ((exists g, d.toGraph = .ok g) <-> d.WellFormed) ∧
      forall g, d.toGraph = .ok g -> exists f, d.Describes f g :=
  ⟨⟨fun ⟨_, hgraph⟩ => wellFormed_of_toGraph hgraph,
    fun hd => exists_toGraph hd hnodes htriples⟩, fun _ hgraph => describes_of_toGraph hgraph⟩

def renumbered : Document where
  version := 1
  nodes := [⟨7, .named "a"⟩, ⟨2, .named "b"⟩, ⟨40, .named "a"⟩, ⟨3, .blank "l"⟩]
  triples := [⟨7, "p", 2⟩, ⟨40, "q", 3⟩, ⟨40, "p", 7⟩]
  lists := [⟨3, [7]⟩, ⟨3, [40, 2, 2]⟩]

theorem toGraph_describes_renumbered : exists g f, renumbered.toGraph = .ok g ∧
    renumbered.Describes f g ∧ f 7 = f 40 ∧ f 7 ≠ f 2 ∧
    g.terms.toList = [.named "a", .named "b", .blank "l"] ∧
    g.objects (f 7) "p" = [f 2, f 7] ∧ g.list? (f 3) = some [f 7, f 2, f 2] := by
  have hnodes : renumbered.nodes.length ≤ maxNodes := by decide
  have htriples : renumbered.triples.length ≤ maxTriples := by decide
  have hd : renumbered.WellFormed := by
    refine ⟨rfl, by decide, fun {t} ht => ?_, fun {e} he => ?_⟩
    · revert t
      decide
    · revert e
      decide
  have hmain := toGraph_describes hnodes htriples
  rcases hmain.1.mpr hd with ⟨g, hgraph⟩
  rcases hmain.2 g hgraph with ⟨f, hf⟩
  have hsame : f 7 = f 40 := (hf.same (a := ⟨7, .named "a"⟩) (b := ⟨40, .named "a"⟩)
    (by decide) (by decide)).mpr rfl
  have hother : f 7 ≠ f 2 := fun heq => absurd ((hf.same (a := ⟨7, .named "a"⟩)
    (b := ⟨2, .named "b"⟩) (by decide) (by decide)).mp heq) (by decide)
  refine ⟨g, f, hgraph, hf, hsame, hother, ?_, ?_, ?_⟩
  · rw [hf.terms]
    decide
  · rw [hf.objects]
    simp [renumbered, hsame]
  · rw [hf.list?]
    simp [renumbered, hsame]

end Document
end Wiring
