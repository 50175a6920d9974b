import Wiring.Graph.Document
import Wiring.Proofs.Graph.Operation
import Wiring.Proofs.Table

/-!
# Contents

Graphs that give the same answers have the same document.
-/

namespace Wiring

namespace Edge

def le (a b : Edge) : Bool :=
  (compare a.predicate b.predicate).isLE

theorem le_trans (a b c : Edge) (hab : le a b) (hbc : le b c) : le a c :=
  Std.TransCmp.isLE_trans hab hbc

theorem le_total (a b : Edge) : (le a b || le b a) = true := by
  have hswap : compare b.predicate a.predicate = (compare a.predicate b.predicate).swap :=
    Std.OrientedCmp.eq_swap
  unfold le
  rw [hswap]
  cases compare a.predicate b.predicate <;> rfl

theorem le_of_eq {a b : Edge} (h : a.predicate = b.predicate) : le a b = true := by
  have hself : compare b.predicate b.predicate = .eq := Std.ReflOrd.compare_self
  rw [le, h, hself]
  rfl

theorem eq_of_le_le {a b : Edge} (hab : le a b) (hba : le b a) : a.predicate = b.predicate :=
  Std.LawfulEqOrd.eq_of_compare (Std.OrientedCmp.isLE_antisymm hab hba)

theorem head_le {a b : Edge} {l l' : List Edge} (hl : (a :: l).Pairwise fun a b => le a b)
    (h : (a :: l).filter (fun e => e.predicate = b.predicate) =
      (b :: l').filter (fun e => e.predicate = b.predicate)) : le a b = true := by
  have hmem : b ∈ (a :: l).filter (fun e => e.predicate = b.predicate) := by
    rw [h, List.filter_cons_of_pos (by simp)]
    exact List.mem_cons_self
  rcases List.mem_cons.mp (List.mem_of_mem_filter hmem) with rfl | hb
  · exact le_of_eq rfl
  · exact (List.pairwise_cons.mp hl).1 b hb

theorem eq_of_filter_eq {l l' : List Edge} (hl : l.Pairwise fun a b => le a b)
    (hl' : l'.Pairwise fun a b => le a b)
    (h : forall p, l.filter (fun e => e.predicate = p) = l'.filter (fun e => e.predicate = p)) :
    l = l' := by
  induction l generalizing l' with
  | nil =>
      cases l' with
      | nil => rfl
      | cons b l' =>
          have hfilter := h b.predicate
          rw [List.filter_cons_of_pos (by simp)] at hfilter
          cases hfilter
  | cons a l ih =>
      cases l' with
      | nil =>
          have hfilter := h a.predicate
          rw [List.filter_cons_of_pos (by simp)] at hfilter
          cases hfilter
      | cons b l' =>
          have hpredicate : a.predicate = b.predicate :=
            eq_of_le_le (head_le hl (h b.predicate)) (head_le hl' (h a.predicate).symm)
          have hheads := h a.predicate
          rw [List.filter_cons_of_pos (by simp), List.filter_cons_of_pos (by simp [hpredicate])]
            at hheads
          obtain rfl : a = b := (List.cons.inj hheads).1
          congr 1
          refine ih (List.pairwise_cons.mp hl).2 (List.pairwise_cons.mp hl').2 fun p => ?_
          have htails := h p
          by_cases hp : a.predicate = p
          · rw [List.filter_cons_of_pos (by simp [hp]), List.filter_cons_of_pos (by simp [hp])]
              at htails
            exact (List.cons.inj htails).2
          · rw [List.filter_cons_of_neg (by simp [hp]), List.filter_cons_of_neg (by simp [hp])]
              at htails
            exact htails

theorem filter_mergeSort (l : List Edge) (p : String) :
    (l.mergeSort le).filter (fun e => e.predicate = p) = l.filter (fun e => e.predicate = p) := by
  have hsame : (l.filter fun e => e.predicate = p).Pairwise fun a b => le a b := by
    refine List.pairwise_of_forall_mem_list fun a ha b hb => le_of_eq ?_
    rw [of_decide_eq_true (List.mem_filter.mp ha).2, of_decide_eq_true (List.mem_filter.mp hb).2]
  -- They are in order whatever order they stand in, so a stable sort leaves them where they are.
  have hsublist := List.sublist_mergeSort le_trans le_total hsame List.filter_sublist
  have hfilter := hsublist.filter fun e => e.predicate = p
  rw [List.filter_filter] at hfilter
  simp only [Bool.and_self] at hfilter
  have hlength := ((List.mergeSort_perm l le).filter fun e => decide (e.predicate = p)).length_eq
  exact (hfilter.eq_of_length hlength.symm).symm

end Edge

namespace Graph

variable {g g' : Graph}

theorem sortedOutgoing_eq_mergeSort (g : Graph) (s : NodeId) :
    g.sortedOutgoing s = (g.outgoing s).toList.mergeSort Edge.le := rfl

theorem filter_outgoing (g : Graph) (s : NodeId) (p : String) :
    (g.outgoing s).toList.filter (fun e => e.predicate = p) =
      (g.objects s p).map (Edge.mk p) := by
  unfold objects
  generalize (g.outgoing s).toList = l
  induction l with
  | nil => rfl
  | cons e l ih =>
      rcases e with ⟨q, o⟩
      by_cases hq : q = p
      · subst hq
        simp [ih]
      · simp [hq, ih]

theorem filter_sortedOutgoing (g : Graph) (s : NodeId) (p : String) :
    (g.sortedOutgoing s).filter (fun e => e.predicate = p) = (g.objects s p).map (Edge.mk p) := by
  rw [sortedOutgoing_eq_mergeSort, Edge.filter_mergeSort, filter_outgoing]

theorem sortedOutgoing_eq {s : NodeId} (h : forall p, g.objects s p = g'.objects s p) :
    g.sortedOutgoing s = g'.sortedOutgoing s := by
  refine Edge.eq_of_filter_eq (List.pairwise_mergeSort Edge.le_trans Edge.le_total _)
    (List.pairwise_mergeSort Edge.le_trans Edge.le_total _) fun p => ?_
  have hfilter := filter_sortedOutgoing g s p
  rw [h, ← filter_sortedOutgoing g' s p] at hfilter
  exact hfilter

theorem mem_objects (s : NodeId) (p : String) (o : NodeId) :
    o ∈ g.objects s p <-> ⟨p, o⟩ ∈ g.outgoing s := by
  unfold objects
  rw [List.mem_filterMap]
  constructor
  · rintro ⟨⟨q, o'⟩, he, hsome⟩
    split at hsome
    · next hq =>
        cases hsome
        cases hq
        exact Array.mem_toList_iff.mp he
    · cases hsome
  · intro he
    exact ⟨_, Array.mem_toList_iff.mpr he, if_pos rfl⟩

theorem mem_keys_of_mem_objects {s : NodeId} {p : String} {o : NodeId} (h : o ∈ g.objects s p) :
    s ∈ g.edges.keys := by
  have he := (mem_objects s p o).mp h
  rw [outgoing_eq] at he
  rw [Std.TreeMap.mem_keys, Std.TreeMap.mem_iff_isSome_getElem?]
  cases hes : g.edges[s]? with
  | none =>
      rw [hes] at he
      simp at he
  | some es => rfl

theorem Sound.mem_keys_iff (h : g.Sound) (s : NodeId) :
    s ∈ g.edges.keys <-> exists p o, o ∈ g.objects s p := by
  constructor
  · intro hs
    rw [Std.TreeMap.mem_keys, Std.TreeMap.mem_iff_isSome_getElem?] at hs
    rcases Option.isSome_iff_exists.mp hs with ⟨es, hes⟩
    rcases Array.exists_mem_of_ne_empty es (h.edges hes) with ⟨⟨p, o⟩, he⟩
    refine ⟨p, o, (mem_objects s p o).mpr ?_⟩
    rw [outgoing_eq, hes]
    exact he
  · rintro ⟨p, o, ho⟩
    exact mem_keys_of_mem_objects ho

/-!
# Counting edges
-/

theorem tripleCount_eq (g : Graph) :
    g.tripleCount = (g.edges.toList.flatMap fun e => e.2.toList).length := by
  have hfold (l : List (NodeId × Array Edge)) (n : Nat) :
      l.foldl (fun n e => n + e.2.size) n = n + (l.flatMap fun e => e.2.toList).length := by
    induction l generalizing n with
    | nil => rfl
    | cons e l ih =>
        rw [List.foldl_cons, ih, List.flatMap_cons, List.length_append, Nat.add_assoc]
        rfl
  rw [tripleCount, Std.TreeMap.foldl_eq_foldl_toList, hfold, Nat.zero_add]

theorem length_triples (g : Graph) : g.triples.length = g.tripleCount := by
  rw [tripleCount_eq, triples, List.length_flatMap, List.length_flatMap,
    ← Std.TreeMap.map_fst_toList_eq_keys, List.map_map]
  congr 1
  apply List.map_congr_left
  rintro ⟨s, es⟩ he
  have hes := Std.TreeMap.mem_toList_iff_getElem?_eq_some.mp he
  simp [sortedOutgoing, outgoing_eq, hes]

theorem tripleCount_addEdge (g : Graph) (s : NodeId) (p : String) (o : NodeId) :
    (g.addEdge s p o).tripleCount = g.tripleCount + 1 := by
  have hinsert (es : Array Edge) :
      ((g.edges.insert s es).toList.flatMap fun e => e.2.toList).length = es.size +
        ((g.edges.toList.filter fun e => ¬ s == e.1).flatMap fun e => e.2.toList).length := by
    have hperm : (g.edges.insert s es).toList.Perm
        ((s, es) :: g.edges.toList.filter fun e => ¬ s == e.1) :=
      Std.TreeMap.toList_insert_perm
    rw [(hperm.flatMap_right fun e => e.2.toList).length_eq, List.flatMap_cons,
      List.length_append, Array.length_toList]
  have hold : (g.edges.toList.flatMap fun e => e.2.toList).length = (g.outgoing s).size +
      ((g.edges.toList.filter fun e => ¬ s == e.1).flatMap fun e => e.2.toList).length := by
    cases hs : g.edges[s]? with
    | some es =>
        have hsame : g.edges.toList = (g.edges.insert s es).toList := by
          refine Table.toList_eq_of_getElem?_eq fun k => ?_
          rw [Table.getElem?_insert]
          split
          · next hk => rw [hk, hs]
          · rfl
        rw [outgoing_eq, hs, Option.getD_some, ← hinsert es, ← hsame]
    | none =>
        have hfilter : g.edges.toList.filter (fun e => ¬ s == e.1) = g.edges.toList := by
          rw [List.filter_eq_self]
          rintro ⟨k, es⟩ he
          have hes := Std.TreeMap.mem_toList_iff_getElem?_eq_some.mp he
          have hne : ¬ s = k := by
            rintro rfl
            rw [hs] at hes
            cases hes
          simpa using hne
        rw [hfilter, outgoing_eq, hs]
        simp
  rw [tripleCount_eq, tripleCount_eq, hold]
  unfold addEdge
  dsimp only
  rw [hinsert, Array.size_push]
  omega

/-!
# The document
-/

theorem Agrees.ofGraph_eq (h : g.Agrees g') (hg : g.Sound) (hg' : g'.Sound) :
    Document.ofGraph g = Document.ofGraph g' := by
  have hkeys : g.edges.keys = g'.edges.keys := by
    refine Table.keys_eq_of_mem_iff fun s => ?_
    rw [hg.mem_keys_iff, hg'.mem_keys_iff]
    simp only [h.objects]
  have htriples : g.triples = g'.triples := by
    unfold triples
    rw [hkeys]
    congr 1
    funext s
    rw [sortedOutgoing_eq (h.objects s)]
  have hlists : g.lists.toList = g'.lists.toList := Table.toList_eq_of_getElem?_eq h.list?
  rw [Document.ofGraph, Document.ofGraph, h.terms, htriples, hlists]

theorem Agrees.exportText_eq (h : g.Agrees g') (hg : g.Sound) (hg' : g'.Sound) :
    g.exportText = g'.exportText := by
  rw [exportText, exportText, h.ofGraph_eq hg hg']

end Graph
end Wiring
