import Wiring.Proofs.Graph.Contents
import Wiring.Proofs.Graph.Description
import Wiring.Proofs.Graph.Reader
import Wiring.Proofs.Lockstep
import Wiring.Proofs.Table

/-!
# The graph of a document

The document of a graph describes a graph that gives the same answers.
-/

namespace Wiring
namespace Document

variable {g h : Graph} {m : Numbering}

/-!
# Nodes
-/

theorem eraseDups_of_nodup {l : List Term} (hl : l.Nodup) : l.eraseDups = l := by
  induction l with
  | nil => rfl
  | cons t l ih =>
      rcases List.nodup_cons.mp hl with ⟨ht, hrest⟩
      have hfilter : l.filter (fun u => !u == t) = l :=
        List.filter_eq_self.mpr fun u hu => by simp [ne_of_mem_of_not_mem hu ht]
      rw [List.eraseDups_cons, hfilter, ih hrest]

theorem nodup_terms (hg : g.Sound) : g.terms.toList.Nodup := by
  rw [List.nodup_iff_getElem?_ne_getElem?]
  intro i j hij hj heq
  rw [Array.length_toList] at hj
  rw [Array.getElem?_toList, Array.getElem?_toList, Array.getElem?_eq_getElem hj] at heq
  have hindex := hg.index.mpr heq
  rw [hg.index.mpr (Array.getElem?_eq_getElem hj)] at hindex
  exact Nat.ne_of_gt hij (Option.some.inj hindex)

theorem mem_nodes_ofGraph {n : Node} :
    n ∈ (ofGraph g).nodes <-> g.terms[n.id]? = some n.term := by
  rw [← Array.getElem?_toList, ← List.mk_mem_zipIdx_iff_getElem?]
  constructor
  · intro hn
    rcases List.mem_map.mp hn with ⟨⟨t, i⟩, ht, rfl⟩
    exact ht
  · intro hn
    exact List.mem_map.mpr ⟨(n.term, n.id), hn, rfl⟩

theorem read_ofGraph (hg : g.Sound) : exists state,
    (ofGraph g).nodes.foldlM addNode (∅, Graph.empty) = .ok state ∧
      Read (ofGraph g).nodes state ∧ state.2.terms = g.terms ∧
      forall i, i < g.size -> state.1[i]? = some i := by
  have hids : (ofGraph g).nodes.map Node.id = List.range g.terms.toList.length := by
    rw [List.range_eq_range', ← List.zipIdx_map_snd 0 g.terms.toList]
    simp [ofGraph, Function.comp_def]
  have hterms : (ofGraph g).nodes.map Node.term = g.terms.toList := by
    simp [ofGraph, Function.comp_def, List.zipIdx_map_fst]
  rcases exists_read_nodes (ofGraph g).nodes read_nil
    (hids ▸ List.nodup_range : (([] ++ (ofGraph g).nodes).map Node.id).Nodup) with ⟨state, hfold⟩
  have hread : Read (ofGraph g).nodes state := read_nodes read_nil hfold
  have hsame : state.2.terms = g.terms := by
    apply Array.toList_inj.mp
    rw [hread.terms, hterms, eraseDups_of_nodup (nodup_terms hg)]
  refine ⟨state, hfold, hread, hsame, fun i hi => ?_⟩
  have hterm : g.terms[i]? = some g.terms[i] := Array.getElem?_eq_getElem hi
  rcases hread.known (mem_nodes_ofGraph.mpr hterm : Node.mk i g.terms[i] ∈ _) with
    ⟨n, hn, hindex⟩
  rw [hread.sound.index, hsame, ← hg.index, hg.index.mpr hterm] at hindex
  rw [hn, Option.some.inj hindex]

/-!
# Triples
-/

def triplesOf (g : Graph) (s : NodeId) : List Triple :=
  (g.sortedOutgoing s).map fun e => ⟨s, e.predicate, e.object⟩

theorem values_triplesOf (g : Graph) (u s : NodeId) (p : String) :
    values (triplesOf g u) s p = if u = s then g.objects s p else [] := by
  unfold values triplesOf
  rw [List.filter_map, List.map_map]
  by_cases hu : u = s
  · subst hu
    have hfilter := congrArg (List.map Edge.object) (Graph.filter_sortedOutgoing g u p)
    rw [List.map_map] at hfilter
    have hvalues : (g.objects u p).map (Edge.object ∘ Edge.mk p) = g.objects u p := List.map_id' _
    rw [hvalues] at hfilter
    rw [if_pos rfl, ← hfilter]
    simp [Function.comp_def]
  · simp [Function.comp_def, hu]

theorem values_flatMap (g : Graph) {ks : List NodeId} (hks : ks.Nodup) (s : NodeId) (p : String) :
    values (ks.flatMap (triplesOf g)) s p = if s ∈ ks then g.objects s p else [] := by
  induction ks with
  | nil => rfl
  | cons u ks ih =>
      rcases List.nodup_cons.mp hks with ⟨hu, hrest⟩
      have happend : values ((u :: ks).flatMap (triplesOf g)) s p =
          values (triplesOf g u) s p ++ values (ks.flatMap (triplesOf g)) s p := by
        simp [values]
      rw [happend, ih hrest, values_triplesOf]
      by_cases hs : u = s
      · subst hs
        simp [hu]
      · have hne : ¬ s = u := fun h => hs h.symm
        simp [hs, hne]

theorem triples_ofGraph (g : Graph) :
    (ofGraph g).triples = g.edges.keys.flatMap (triplesOf g) := by
  simp only [ofGraph, Graph.triples, List.map_flatMap, List.map_map]
  rfl

theorem values_ofGraph (hg : g.Sound) (s : NodeId) (p : String) :
    values (ofGraph g).triples s p = g.objects s p := by
  rw [triples_ofGraph, values_flatMap g Std.TreeMap.nodup_keys]
  split
  · rfl
  · next hs =>
      rw [hg.mem_keys_iff] at hs
      refine (List.eq_nil_iff_forall_not_mem.mpr fun o ho => ?_).symm
      exact hs ⟨p, o, ho⟩

/-!
# Lists
-/

theorem list?_setAll_of_ne {es : List Entry} {i : NodeId} (hi : forall e, e ∈ es -> e.node ≠ i) :
    (setAll h es).list? i = h.list? i := by
  induction es generalizing h with
  | nil => rfl
  | cons e es ih =>
      rw [setAll_cons, ih fun e' he' => hi e' (List.mem_cons_of_mem _ he'), Graph.list?_setList,
        if_neg fun heq => hi e List.mem_cons_self heq.symm]

theorem list?_setAll_of_mem {es : List Entry} (hes : es.Pairwise fun a b => a.node ≠ b.node)
    {e : Entry} (he : e ∈ es) : (setAll h es).list? e.node = some e.items := by
  induction es generalizing h with
  | nil => cases he
  | cons a es ih =>
      rcases List.pairwise_cons.mp hes with ⟨hhead, htail⟩
      rw [setAll_cons]
      rcases List.mem_cons.mp he with rfl | hmem
      · rw [list?_setAll_of_ne fun e' he' => (hhead e' he').symm, Graph.list?_setList, if_pos rfl]
      · exact ih htail hmem

theorem list?_setAll_lists (hh : forall i, h.list? i = none) (i : NodeId) :
    (setAll h (ofGraph g).lists).list? i = g.list? i := by
  have hdistinct : (ofGraph g).lists.Pairwise fun a b => a.node ≠ b.node := by
    refine List.pairwise_map.mpr (Std.TreeMap.distinct_keys_toList.imp ?_)
    intro a b hne heq
    have hkey : a.1 = b.1 := heq
    apply hne
    rw [hkey]
    exact Std.ReflOrd.compare_self
  cases hi : g.list? i with
  | some items =>
      have hmem : Entry.mk i items ∈ (ofGraph g).lists :=
        List.mem_map.mpr ⟨(i, items), Std.TreeMap.mem_toList_iff_getElem?_eq_some.mpr hi, rfl⟩
      exact list?_setAll_of_mem hdistinct hmem
  | none =>
      rw [list?_setAll_of_ne, hh]
      intro e he heq
      rcases List.mem_map.mp he with ⟨⟨j, items⟩, hj, rfl⟩
      have hlist : g.list? j = some items := Std.TreeMap.mem_toList_iff_getElem?_eq_some.mp hj
      dsimp only at heq
      rw [heq, hi] at hlist
      cases hlist

/-!
# The whole document
-/

theorem within_triples (hg : g.Closed) {t : Triple} (ht : t ∈ (ofGraph g).triples) :
    t.subject < g.size ∧ t.object < g.size := by
  rw [triples_ofGraph] at ht
  rcases List.mem_flatMap.mp ht with ⟨s, hs, htriple⟩
  rcases List.mem_map.mp htriple with ⟨e, he, rfl⟩
  rw [Graph.sortedOutgoing_eq_mergeSort, List.mem_mergeSort, Array.mem_toList_iff,
    Graph.outgoing_eq] at he
  rw [Std.TreeMap.mem_keys, Std.TreeMap.mem_iff_isSome_getElem?] at hs
  rcases Option.isSome_iff_exists.mp hs with ⟨es, hes⟩
  rw [hes] at he
  exact ⟨(hg.edges hes).1, (hg.edges hes).2 e he⟩

theorem within_lists (hg : g.Closed) {e : Entry} (he : e ∈ (ofGraph g).lists) :
    e.node < g.size ∧ forall i, i ∈ e.items -> i < g.size := by
  rcases List.mem_map.mp he with ⟨⟨i, items⟩, hi, rfl⟩
  exact hg.lists (Std.TreeMap.mem_toList_iff_getElem?_eq_some.mp hi)

theorem toGraph_ofGraph (hg : g.Sound) (hclosed : g.Closed) (hnodes : g.size ≤ maxNodes)
    (htriples : g.tripleCount ≤ maxTriples) :
    exists g', (ofGraph g).toGraph = .ok g' ∧ g'.Sound ∧ g.Agrees g' := by
  rcases read_ofGraph hg with ⟨⟨m, h⟩, hfold, hread, hterms, hm⟩
  have hcount : (ofGraph g).nodes.length = g.size := by
    simp [ofGraph, Graph.size]
  have hlength : (ofGraph g).triples.length = g.tripleCount := by
    rw [← Graph.length_triples]
    simp [ofGraph]
  have hadd := foldlM_addTriple (f := id) (h := h) fun t ht =>
    ⟨hm _ (within_triples hclosed ht).1, hm _ (within_triples hclosed ht).2⟩
  have hset := foldlM_addEntry (f := id) (h := addAll h (ofGraph g).triples) fun e he =>
    ⟨hm _ (within_lists hclosed he).1, fun i hi => hm _ ((within_lists hclosed he).2 i hi)⟩
  rw [Triple.renumber_id, List.map_id] at hadd
  rw [Entry.renumber_id, List.map_id] at hset
  refine ⟨setAll (addAll h (ofGraph g).triples) (ofGraph g).lists, ?_, ?_, ?_⟩
  · exact toGraph_ok_iff.mpr ⟨rfl, hcount ▸ hnodes, hlength ▸ htriples, (m, h),
      addAll h (ofGraph g).triples, hfold, hadd, hset⟩
  · exact sound_setAll (sound_addAll hread.sound _) _
  · apply Graph.agrees_of_terms hg (sound_setAll (sound_addAll hread.sound _) _)
    · rw [terms_setAll, terms_addAll, hterms]
    · intro s p
      rw [objects_setAll, objects_addAll, hread.objects, values_ofGraph hg, List.nil_append]
    · intro i
      rw [list?_setAll_lists fun j => by rw [list?_addAll, hread.list?]]

theorem narrow_ofGraph (hclosed : g.Closed) (hnodes : g.size ≤ maxNodes) :
    (ofGraph g).Narrow := by
  have hbound {i : Nat} (hi : i < g.size) : i < 4294967296 := by
    have hmax : maxNodes = 1000000 := rfl
    omega
  constructor
  · exact Nat.lt_of_le_of_lt (Nat.le_refl 1) (by omega)
  · intro n hn
    rcases List.mem_map.mp hn with ⟨⟨t, i⟩, ht, rfl⟩
    have hi := (List.mem_zipIdx' ht).1
    exact hbound hi
  · intro t ht
    exact ⟨hbound (within_triples hclosed ht).1, hbound (within_triples hclosed ht).2⟩
  · intro e he
    exact ⟨hbound (within_lists hclosed he).1,
      fun i hi => hbound ((within_lists hclosed he).2 i hi)⟩

/-!
# Graphs of documents
-/

/-- What holds of a graph while a document is read: how many nodes and triples have been added, and
that the numbering leads to nodes of the graph. -/
structure Admitted (m : Numbering) (nodes triples : Nat) (g : Graph) : Prop where
  sound : g.Sound
  closed : g.Closed
  known {i : Nat} {n : NodeId} : m[i]? = some n -> n < g.size
  size : g.size ≤ nodes
  triples : g.tripleCount ≤ triples

variable {nodes triples : Nat} {g' : Graph}

theorem admitted_empty : Admitted ∅ 0 0 Graph.empty where
  sound := Graph.sound_empty
  closed := Graph.closed_empty
  known h := by simp at h
  size := Nat.le_refl 0
  triples := Nat.le_refl 0

theorem Admitted.addNode {state state' : Numbering × Graph} {n : Node}
    (h : Admitted state.1 nodes triples state.2) (hadd : addNode state n = .ok state') :
    Admitted state'.1 (nodes + 1) triples state'.2 := by
  unfold Document.addNode at hadd
  split at hadd
  · cases hadd
  · cases hadd
    have hsize : (state.2.intern n.term).2.size ≤ state.2.size + 1 := by
      unfold Graph.intern
      split
      · exact Nat.le_succ _
      · simp [Graph.size]
    refine ⟨h.sound.intern _, h.closed.intern _, fun {i u} hu => ?_,
      Nat.le_trans hsize (Nat.succ_le_succ h.size), ?_⟩
    · dsimp only at hu
      rw [Table.getElem?_insert] at hu
      split at hu
      · cases hu
        exact h.sound.intern_lt _
      · exact Nat.lt_of_lt_of_le (h.known hu) (Graph.size_le_intern _ _)
    · rw [Graph.tripleCount, Graph.edges_intern]
      exact h.triples

theorem resolve_lt (h : Admitted m nodes triples g) {i : Nat} {n : NodeId}
    (hi : resolve m i = .ok n) : n < g.size := by
  unfold resolve at hi
  split at hi
  · next hfound =>
      cases hi
      exact h.known hfound
  · cases hi

theorem Admitted.addTriple {t : Triple} (h : Admitted m nodes triples g)
    (hadd : addTriple m g t = .ok g') : Admitted m nodes (triples + 1) g' := by
  rcases bind_eq_ok.mp hadd with ⟨s, hsubject, hrest⟩
  rcases bind_eq_ok.mp hrest with ⟨o, hobject, heq⟩
  cases heq
  refine ⟨h.sound.addEdge _ _ _, h.closed.addEdge (resolve_lt h hsubject) _
    (resolve_lt h hobject), h.known, h.size, ?_⟩
  rw [Graph.tripleCount_addEdge]
  exact Nat.succ_le_succ h.triples

theorem mapM_resolve_lt (h : Admitted m nodes triples g) {is : List Nat} {items : List NodeId}
    (hitems : is.mapM (resolve m) = .ok items) : forall n, n ∈ items -> n < g.size := by
  induction is generalizing items with
  | nil =>
      cases hitems
      exact fun n hn => absurd hn List.not_mem_nil
  | cons i is ih =>
      rw [List.mapM_cons] at hitems
      rcases bind_eq_ok.mp hitems with ⟨n, hi, hmap⟩
      rcases bind_eq_ok.mp hmap with ⟨rest, hrest, heq⟩
      cases heq
      intro u hu
      rcases List.mem_cons.mp hu with rfl | hmem
      · exact resolve_lt h hi
      · exact ih hrest u hmem

theorem Admitted.addEntry {e : Entry} (h : Admitted m nodes triples g)
    (hadd : addEntry m g e = .ok g') : Admitted m nodes triples g' := by
  rcases bind_eq_ok.mp hadd with ⟨n, hnode, hrest⟩
  rcases bind_eq_ok.mp hrest with ⟨items, hitems, heq⟩
  cases heq
  exact ⟨h.sound.setList _ _, h.closed.setList (resolve_lt h hnode)
    (mapM_resolve_lt h hitems), h.known, h.size, h.triples⟩

theorem foldlM_induction {σ α : Type} {f : σ → α → Except Fault σ} {P : Nat → σ → Prop}
    (hstep : forall n s a s', P n s -> f s a = .ok s' -> P (n + 1) s') {l : List α} (n : Nat)
    {s s' : σ} (hs : P n s) (hrun : l.foldlM f s = .ok s') : P (n + l.length) s' := by
  induction l generalizing n s with
  | nil =>
      cases hrun
      exact hs
  | cons a l ih =>
      rw [List.foldlM_cons] at hrun
      rcases bind_eq_ok.mp hrun with ⟨t, hfirst, hrest⟩
      have hend := ih (n + 1) (hstep n s a t hs hfirst) hrest
      rw [List.length_cons, Nat.add_comm l.length 1, ← Nat.add_assoc]
      exact hend

theorem admitted_toGraph {d : Document} (hgraph : d.toGraph = .ok g) :
    g.Sound ∧ g.Closed ∧ g.size ≤ maxNodes ∧ g.tripleCount ≤ maxTriples := by
  rcases toGraph_ok_iff.mp hgraph with
    ⟨-, hnodes, htriples, state, h, hfold, hadd, hset⟩
  have hstate : Admitted state.1 (0 + d.nodes.length) 0 state.2 :=
    foldlM_induction (P := fun n (state : Numbering × Graph) => Admitted state.1 n 0 state.2)
      (fun _ _ _ _ hs hstep => hs.addNode hstep) 0 admitted_empty hfold
  have hh : Admitted state.1 (0 + d.nodes.length) (0 + d.triples.length) h :=
    foldlM_induction (P := fun n g => Admitted state.1 (0 + d.nodes.length) n g)
      (fun _ _ _ _ hs hstep => hs.addTriple hstep) 0 hstate hadd
  have hg : Admitted state.1 (0 + d.nodes.length) (0 + d.triples.length) g :=
    foldlM_induction
      (P := fun _ g => Admitted state.1 (0 + d.nodes.length) (0 + d.triples.length) g)
      (fun _ _ _ _ hs hstep => hs.addEntry hstep) 0 hh hset
  have hsize := hg.size
  have hcount := hg.triples
  exact ⟨hg.sound, hg.closed, by omega, by omega⟩

end Document

namespace Graph

open Document (maxNodes maxTriples)

variable {g : Graph}

theorem importText_eq (text : String) : importText text = .ok g <->
    exists d, Document.ofText? text = some d ∧ d.toGraph = .ok g := by
  unfold importText
  cases hd : Document.ofText? text with
  | none =>
      constructor
      · intro h
        cases h
      · rintro ⟨d, hd, -⟩
        cases hd
  | some d =>
      constructor
      · intro h
        refine ⟨d, rfl, ?_⟩
        cases hgraph : d.toGraph with
        | error fault =>
            simp only [hgraph] at h
            cases h
        | ok g' =>
            simp only [hgraph] at h
            cases h
            rfl
      · rintro ⟨d, hd, hgraph⟩
        cases hd
        simp only [hgraph]

/-- The graph is empty or what a text describes, with operations on it after that. -/
def Built (g : Graph) : Prop :=
  exists start ops, (start = empty ∨ exists text, importText text = .ok start) ∧
    g = (start.runAll ops).2

theorem Built.sound (h : g.Built) : g.Sound := by
  rcases h with ⟨start, ops, rfl | ⟨text, htext⟩, rfl⟩
  · exact sound_runAll sound_empty ops
  · rcases (importText_eq text).mp htext with ⟨d, -, hgraph⟩
    exact sound_runAll (Document.admitted_toGraph hgraph).1 ops

theorem importText_exportText (hg : g.Sound) (hclosed : g.Closed) (hnodes : g.size ≤ maxNodes)
    (htriples : g.tripleCount ≤ maxTriples) : exists g', importText g.exportText = .ok g' ∧
      g'.Sound ∧ g.Agrees g' ∧ g'.exportText = g.exportText := by
  rcases Document.toGraph_ofGraph hg hclosed hnodes htriples with ⟨g', hgraph, hg', hagrees⟩
  refine ⟨g', (importText_eq _).mpr ⟨_, ?_, hgraph⟩, hg', hagrees,
    (hagrees.exportText_eq hg hg').symm⟩
  exact Document.ofText?_pretty (Document.narrow_ofGraph hclosed hnodes)

/-- A graph that operations have built survives as a text, also for later operations. So does what
any text describes. -/
theorem export_import :
    (forall ops, empty.AllWithin ops -> (empty.runAll ops).2.size ≤ maxNodes ->
      (empty.runAll ops).2.tripleCount ≤ maxTriples ->
      exists g', importText (empty.runAll ops).2.exportText = .ok g' ∧
        (empty.runAll ops).2.Agrees g' ∧ g'.exportText = (empty.runAll ops).2.exportText ∧
        forall later, ((empty.runAll ops).2.runAll later).1 = (g'.runAll later).1 ∧
          ((empty.runAll ops).2.runAll later).2.Agrees (g'.runAll later).2) ∧
    forall text g, importText text = .ok g -> exists g', importText g.exportText = .ok g' ∧
      g'.exportText = g.exportText := by
  constructor
  · intro ops hops hnodes htriples
    have hsound : (empty.runAll ops).2.Sound := sound_runAll sound_empty ops
    have hclosed : (empty.runAll ops).2.Closed := closed_runAll closed_empty sound_empty hops
    rcases importText_exportText hsound hclosed hnodes htriples with
      ⟨g', himport, hsound', hagrees, hexport⟩
    exact ⟨g', himport, hagrees, hexport, hagrees.runAll hsound hsound'⟩
  · intro text g himport
    rcases (importText_eq text).mp himport with ⟨d, -, hgraph⟩
    rcases Document.admitted_toGraph hgraph with ⟨hsound, hclosed, hnodes, htriples⟩
    rcases importText_exportText hsound hclosed hnodes htriples with
      ⟨g', himport', -, -, hexport⟩
    exact ⟨g', himport', hexport⟩

def sample : List Operation :=
  [.intern (.named "a"), .intern (.blank "b0"), .addEdge 0 "p" 1, .addType 0 "A",
    .freshList [0, 1], .setList 1 []]

theorem export_import_sample : exists g' g'',
    importText (empty.runAll sample).2.exportText = .ok g' ∧
    (empty.runAll sample).2.Agrees g' ∧ importText g'.exportText = .ok g'' ∧
    g''.exportText = g'.exportText ∧
    ((empty.runAll sample).2.runAll [.freshBlank]).1 = (g'.runAll [.freshBlank]).1 := by
  have hwithin : empty.AllWithin sample := by
    refine ⟨trivial, trivial, ⟨by decide +kernel, by decide +kernel⟩, ?_, ?_, ?_, trivial⟩
    · show 0 < _
      decide +kernel
    · intro i hi
      simp only [List.mem_cons, List.not_mem_nil, or_false] at hi
      rcases hi with rfl | rfl <;> decide +kernel
    · exact ⟨by decide +kernel, fun i hi => absurd hi List.not_mem_nil⟩
  have hnodes : (empty.runAll sample).2.size ≤ maxNodes := by decide +kernel
  have htriples : (empty.runAll sample).2.tripleCount ≤ maxTriples := by decide +kernel
  rcases export_import.1 sample hwithin hnodes htriples with ⟨g', himport, hagrees, -, hlater⟩
  rcases export_import.2 _ g' himport with ⟨g'', himport', hexport⟩
  exact ⟨g', g'', himport, hagrees, himport', hexport, (hlater [.freshBlank]).1⟩

end Graph
end Wiring
