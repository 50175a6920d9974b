import Mathlib.Logic.Relation
import Wiring.Graph.Reach
import Wiring.Proofs.Graph.Contents

/-!
# The hierarchy of classes

The superclasses of a class are all that steps along `rdfs:subClassOf` lead to:
there are enough layers, since each one enters a node that some edge leads to.
So being a subclass is transitive.
-/

namespace Wiring

theorem mem_unseen {seen nodes : List NodeId} {n : NodeId} :
    n ∈ unseen seen nodes <-> n ∈ nodes ∧ n ∉ seen := by
  unfold unseen
  rw [List.mem_eraseDups, List.mem_filter, Bool.not_eq_true', ← Bool.not_eq_true,
    List.contains_iff_mem]

theorem mem_append_unseen {seen nodes : List NodeId} {n : NodeId} :
    n ∈ seen ++ unseen seen nodes <-> n ∈ seen ∨ n ∈ nodes := by
  rw [List.mem_append, mem_unseen]
  tauto

section Layers

variable {next : NodeId → List NodeId}

theorem reachLayers_sound (layers : Nat) (seen frontier : List NodeId) {n : NodeId}
    (h : n ∈ reachLayers next layers seen frontier) :
    exists f, f ∈ frontier ∧ Relation.ReflTransGen (fun a b => b ∈ next a) f n := by
  induction layers generalizing seen frontier with
  | zero => cases h
  | succ layers ih =>
      rw [reachLayers] at h
      split at h
      · cases h
      · next layer hlayer =>
          rcases List.mem_append.mp h with hn | hn
          · exact ⟨n, (mem_unseen.mp hn).1, .refl⟩
          · rcases ih _ _ hn with ⟨f, hf, hpath⟩
            rcases List.mem_flatMap.mp hf with ⟨a, ha, hfa⟩
            exact ⟨a, (mem_unseen.mp ha).1, .head hfa hpath⟩

theorem mem_of_closed {nodes : List NodeId}
    (hclosed : forall a, a ∈ nodes -> forall b, b ∈ next a -> b ∈ nodes) {a n : NodeId}
    (ha : a ∈ nodes) (h : Relation.ReflTransGen (fun a b => b ∈ next a) a n) : n ∈ nodes := by
  induction h with
  | refl => exact ha
  | tail _ hstep ih => exact hclosed _ ih _ hstep

theorem length_missing_lt {all seen layer : List NodeId} {x : NodeId} (hall : x ∈ all)
    (hseen : x ∉ seen) (hlayer : x ∈ layer) :
    (all.filter fun n => !(seen ++ layer).contains n).length <
      (all.filter fun n => !seen.contains n).length := by
  have hsplit : (all.filter fun n => !(seen ++ layer).contains n) =
      (all.filter fun n => !seen.contains n).filter fun n => !layer.contains n := by
    rw [List.filter_filter]
    apply List.filter_congr
    intro n _
    rw [List.contains_append, Bool.not_or, Bool.and_comm]
  rw [hsplit, List.length_filter_lt_length_iff_exists]
  refine ⟨x, List.mem_filter.mpr ⟨hall, ?_⟩, ?_⟩
  · rwa [Bool.not_eq_true', ← Bool.not_eq_true, List.contains_iff_mem]
  · rwa [Bool.not_eq_true', ← Bool.not_eq_true, not_not, List.contains_iff_mem]

theorem unseen_eq_nil {all seen frontier : List NodeId} (hfrontier : frontier ⊆ all)
    (hnone : (all.filter fun n => !seen.contains n).length ≤ 0) : unseen seen frontier = [] := by
  have hempty := List.eq_nil_of_length_eq_zero (Nat.le_zero.mp hnone)
  refine List.eq_nil_iff_forall_not_mem.mpr fun n hn => ?_
  rcases mem_unseen.mp hn with ⟨hfront, hseen⟩
  refine List.filter_eq_nil_iff.mp hempty n (hfrontier hfront) ?_
  rwa [Bool.not_eq_true', ← Bool.not_eq_true, List.contains_iff_mem]

theorem missing_lt_of_layer {all seen frontier : List NodeId} {x : NodeId} {rest : List NodeId}
    (hfrontier : frontier ⊆ all) (hlayer : unseen seen frontier = x :: rest) :
    (all.filter fun n => !(seen ++ x :: rest).contains n).length <
      (all.filter fun n => !seen.contains n).length := by
  have hx : x ∈ frontier ∧ x ∉ seen := by
    rw [← mem_unseen, hlayer]
    exact List.mem_cons_self
  exact length_missing_lt (hfrontier hx.1) hx.2 List.mem_cons_self

theorem flatMap_next_subset {all : List NodeId} (hnext : forall a, next a ⊆ all)
    (layer : List NodeId) : layer.flatMap next ⊆ all := by
  intro n hn
  rcases List.mem_flatMap.mp hn with ⟨a, -, ha⟩
  exact hnext a ha

theorem closed_layer {seen frontier : List NodeId}
    (hclosed : forall a, a ∈ seen -> forall b, b ∈ next a -> b ∈ seen ∨ b ∈ frontier) (a : NodeId)
    (ha : a ∈ seen ++ unseen seen frontier) (b : NodeId) (hb : b ∈ next a) :
    b ∈ seen ++ unseen seen frontier ∨ b ∈ (unseen seen frontier).flatMap next := by
  rcases List.mem_append.mp ha with ha | ha
  · exact Or.inl (mem_append_unseen.mpr (hclosed a ha b hb))
  · exact Or.inr (List.mem_flatMap.mpr ⟨a, ha, hb⟩)

theorem mem_seen_of_unseen_eq_nil {seen frontier : List NodeId} (h : unseen seen frontier = [])
    (hclosed : forall a, a ∈ seen -> forall b, b ∈ next a -> b ∈ seen ∨ b ∈ frontier)
    {a n : NodeId} (ha : a ∈ seen ∨ a ∈ frontier)
    (hpath : Relation.ReflTransGen (fun a b => b ∈ next a) a n) : n ∈ seen := by
  have hall {f : NodeId} (hf : f ∈ seen ∨ f ∈ frontier) : f ∈ seen := by
    rwa [← mem_append_unseen, h, List.append_nil] at hf
  exact mem_of_closed (fun a ha b hb => hall (hclosed a ha b hb)) (hall ha) hpath

theorem reachLayers_complete {all : List NodeId} (hnext : forall a, next a ⊆ all) (layers : Nat)
    (seen frontier : List NodeId) (hfrontier : frontier ⊆ all)
    (hlayers : (all.filter fun n => !seen.contains n).length ≤ layers)
    (hclosed : forall a, a ∈ seen -> forall b, b ∈ next a -> b ∈ seen ∨ b ∈ frontier)
    {a n : NodeId} (ha : a ∈ seen ∨ a ∈ frontier)
    (h : Relation.ReflTransGen (fun a b => b ∈ next a) a n) :
    n ∈ seen ∨ n ∈ reachLayers next layers seen frontier := by
  induction layers generalizing seen frontier with
  | zero => exact Or.inl (mem_seen_of_unseen_eq_nil (unseen_eq_nil hfrontier hlayers) hclosed ha h)
  | succ layers ih =>
      rw [reachLayers]
      have hclosed' := closed_layer hclosed
      have ha' := mem_append_unseen.mpr ha
      cases hlayer : unseen seen frontier with
      | nil => exact Or.inl (mem_seen_of_unseen_eq_nil hlayer hclosed ha h)
      | cons x rest =>
          have hless := missing_lt_of_layer hfrontier hlayer
          have hfrontier' := flatMap_next_subset hnext (x :: rest)
          rw [hlayer] at hclosed' ha'
          rcases ih _ _ hfrontier' (by omega) hclosed' (Or.inl ha') with hn | hn
          · rcases List.mem_append.mp hn with hn | hn
            · exact Or.inl hn
            · exact Or.inr (List.mem_append_left _ hn)
          · exact Or.inr (List.mem_append_right _ hn)

theorem reachLayers_stable {all : List NodeId} (hnext : forall a, next a ⊆ all)
    {layers layers' : Nat} (hle : layers ≤ layers') (seen frontier : List NodeId)
    (hfrontier : frontier ⊆ all)
    (hlayers : (all.filter fun n => !seen.contains n).length ≤ layers) :
    reachLayers next layers' seen frontier = reachLayers next layers seen frontier := by
  induction layers generalizing layers' seen frontier with
  | zero =>
      have hunseen := unseen_eq_nil hfrontier hlayers
      cases layers' with
      | zero => rfl
      | succ layers' =>
          change reachLayers next (layers' + 1) seen frontier = []
          rw [reachLayers, hunseen]
  | succ layers ih =>
      cases layers' with
      | zero => exact absurd hle (Nat.not_succ_le_zero layers)
      | succ layers' =>
          rw [reachLayers, reachLayers]
          cases hlayer : unseen seen frontier with
          | nil => rfl
          | cons x rest =>
              have hless := missing_lt_of_layer hfrontier hlayer
              have hfrontier' := flatMap_next_subset hnext (x :: rest)
              dsimp only
              rw [ih (Nat.le_of_succ_le_succ hle) _ _ hfrontier' (by omega)]

end Layers

namespace Graph

variable {g : Graph}

/-!
# Superclasses
-/

theorem mem_triples_of_mem_objects {s : NodeId} {p : String} {o : NodeId}
    (h : o ∈ g.objects s p) : (s, ⟨p, o⟩) ∈ g.triples := by
  have hedge : ⟨p, o⟩ ∈ g.sortedOutgoing s := by
    rw [sortedOutgoing_eq_mergeSort, List.mem_mergeSort, Array.mem_toList_iff]
    exact (mem_objects s p o).mp h
  exact List.mem_flatMap.mpr ⟨s, mem_keys_of_mem_objects h,
    List.mem_map_of_mem (f := fun e => (s, e)) hedge⟩

theorem directSuperclasses_subset (g : Graph) (a : NodeId) :
    g.directSuperclasses a ⊆ g.triples.map fun t => t.2.object := by
  intro o ho
  exact List.mem_map_of_mem (f := fun t : NodeId × Edge => t.2.object)
    (mem_triples_of_mem_objects ho)

theorem length_objects_le (g : Graph) :
    ((g.triples.map fun t => t.2.object).filter fun n => !([] : List NodeId).contains n).length ≤
      g.tripleCount := by
  have hlength : (g.triples.map fun t => t.2.object).length = g.triples.length :=
    List.length_map _
  rw [← length_triples, ← hlength]
  exact List.length_filter_le _ _

theorem superclasses_stable (g : Graph) (node : NodeId) {layers : Nat}
    (h : g.tripleCount ≤ layers) :
    reachLayers g.directSuperclasses layers [] (g.directSuperclasses node) =
      g.superclasses node :=
  reachLayers_stable g.directSuperclasses_subset h [] (g.directSuperclasses node)
    (g.directSuperclasses_subset node) g.length_objects_le

theorem mem_superclasses (g : Graph) (start n : NodeId) :
    n ∈ g.superclasses start <->
      Relation.TransGen (fun a b => b ∈ g.directSuperclasses a) start n := by
  rw [Relation.TransGen.head'_iff]
  constructor
  · exact reachLayers_sound g.tripleCount [] (g.directSuperclasses start)
  · rintro ⟨f, hf, hpath⟩
    exact (reachLayers_complete g.directSuperclasses_subset g.tripleCount []
      (g.directSuperclasses start) (g.directSuperclasses_subset start) g.length_objects_le
      (fun a ha => absurd ha List.not_mem_nil) (Or.inr hf) hpath).resolve_left List.not_mem_nil

theorem Sound.lookupNamed?_eq_some (hg : g.Sound) {n : NodeId} {iri : String} :
    g.lookupNamed? iri = some n <-> g.iri? n = some iri := by
  unfold lookupNamed? lookup? iri? term?
  rw [hg.index, Option.bind_eq_some_iff]
  constructor
  · intro h
    exact ⟨.named iri, h, rfl⟩
  · rintro ⟨t, ht, hiri⟩
    cases t with
    | named s =>
        cases hiri
        exact ht
    | _ => cases hiri

theorem Sound.isSubclassOf_iff (hg : g.Sound) {sub sup : String} :
    g.isSubclassOf sub sup = true <-> sub = sup ∨
      exists m n, g.lookupNamed? sub = some m ∧ g.lookupNamed? sup = some n ∧
        Relation.TransGen (fun a b => b ∈ g.directSuperclasses a) m n := by
  unfold isSubclassOf
  rw [Bool.or_eq_true, decide_eq_true_iff]
  refine or_congr_right ?_
  cases hm : g.lookupNamed? sub with
  | none => simp
  | some m =>
      dsimp only
      rw [List.any_eq_true]
      constructor
      · rintro ⟨n, hn, hiri⟩
        exact ⟨m, n, rfl, hg.lookupNamed?_eq_some.mpr (of_decide_eq_true hiri),
          (g.mem_superclasses m n).mp hn⟩
      · rintro ⟨m', n, hm', hn, hpath⟩
        cases hm'
        exact ⟨n, (g.mem_superclasses m n).mpr hpath,
          decide_eq_true (hg.lookupNamed?_eq_some.mp hn)⟩

theorem Sound.isSubclassOf_trans (hg : g.Sound) {a b c : String} (hab : g.isSubclassOf a b = true)
    (hbc : g.isSubclassOf b c = true) : g.isSubclassOf a c = true := by
  rcases hg.isSubclassOf_iff.mp hab with rfl | ⟨m, n, hm, hn, hmn⟩
  · exact hbc
  rcases hg.isSubclassOf_iff.mp hbc with rfl | ⟨n', o, hn', ho, hno⟩
  · exact hab
  -- The name in the middle leads to one node only.
  rw [hn] at hn'
  cases hn'
  exact hg.isSubclassOf_iff.mpr (Or.inr ⟨m, o, hm, ho, hmn.trans hno⟩)

theorem Sound.isA_of_isSubclassOf (hg : g.Sound) {id : NodeId} {sub sup : String}
    (h : g.isA id sub = true) (hsub : g.isSubclassOf sub sup = true) : g.isA id sup = true := by
  rcases List.any_eq_true.mp h with ⟨t, ht, htsub⟩
  exact List.any_eq_true.mpr ⟨t, ht, hg.isSubclassOf_trans htsub hsub⟩

end Graph
end Wiring
