import Wiring.Proofs.Graph.Hierarchy
import Wiring.Proofs.Graph.Import

/-!
# Breadth-first search

The superclasses of a class are what a search with a queue enters before the queue
runs empty, and they come in the order of their distance.
-/

namespace Wiring

/-!
# Unseen nodes
-/

theorem unseen_append (seen xs ys : List NodeId) :
    unseen seen (xs ++ ys) = unseen seen xs ++ unseen (seen ++ xs) ys := by
  unfold unseen
  rw [List.filter_append, List.eraseDups_append, List.removeAll, List.filter_filter]
  congr 2
  apply List.filter_congr
  intro n _
  by_cases hseen : n ∈ seen <;> simp [hseen]

theorem unseen_cons_of_mem {seen : List NodeId} {n : NodeId} (h : n ∈ seen) (ns : List NodeId) :
    unseen seen (n :: ns) = unseen seen ns := by
  simp [unseen, h]

theorem unseen_cons_of_not_mem {seen : List NodeId} {n : NodeId} (h : n ∉ seen)
    (ns : List NodeId) : unseen seen (n :: ns) = n :: unseen (seen ++ [n]) ns := by
  have hsingle : unseen seen [n] = [n] := by
    simp [unseen, h, List.eraseDups_cons]
  rw [← List.singleton_append, unseen_append, hsingle, List.singleton_append]

theorem unseen_congr {seen seen' : List NodeId} (h : forall n, n ∈ seen <-> n ∈ seen')
    (nodes : List NodeId) : unseen seen nodes = unseen seen' nodes := by
  unfold unseen
  congr 1
  apply List.filter_congr
  intro n _
  simp [h n]

theorem nodup_unseen (seen nodes : List NodeId) : (unseen seen nodes).Nodup := by
  induction nodes generalizing seen with
  | nil => exact List.nodup_nil
  | cons n rest ih =>
      by_cases hn : n ∈ seen
      · rw [unseen_cons_of_mem hn]
        exact ih seen
      · rw [unseen_cons_of_not_mem hn]
        refine List.nodup_cons.mpr ⟨fun hmem => ?_, ih (seen ++ [n])⟩
        exact (mem_unseen.mp hmem).2 (List.mem_append_right seen List.mem_cons_self)

/-!
# Search with a queue
-/

section Search

variable {next : NodeId → List NodeId} {start : NodeId}

/-- A search takes a node from the front of the queue and, unless it has seen the node, enters it and
puts what is next to it at the back of the queue, until the queue is empty. -/
inductive Searches (next : NodeId → List NodeId) :
    List NodeId → List NodeId → List NodeId → Prop where
  | finished (seen : List NodeId) : Searches next seen [] []
  | pass {seen queue entered : List NodeId} {n : NodeId} (h : n ∈ seen)
      (hrest : Searches next seen queue entered) : Searches next seen (n :: queue) entered
  | enter {seen queue entered : List NodeId} {n : NodeId} (h : n ∉ seen)
      (hrest : Searches next (seen ++ [n]) (queue ++ next n) entered) :
      Searches next seen (n :: queue) (n :: entered)

theorem Searches.layer {seen frontier pending entered : List NodeId}
    (h : Searches next (seen ++ unseen seen frontier)
      (pending ++ (unseen seen frontier).flatMap next) entered) :
    Searches next seen (frontier ++ pending) (unseen seen frontier ++ entered) := by
  induction frontier generalizing seen pending with
  | nil =>
      have hnil : unseen seen [] = [] := rfl
      rw [hnil, List.append_nil, List.flatMap_nil, List.append_nil] at h
      exact h
  | cons n rest ih =>
      by_cases hn : n ∈ seen
      · rw [unseen_cons_of_mem hn] at h ⊢
        exact .pass hn (ih h)
      · rw [unseen_cons_of_not_mem hn] at h ⊢
        have hrest : Searches next (seen ++ [n]) (rest ++ (pending ++ next n))
            (unseen (seen ++ [n]) rest ++ entered) := by
          apply ih
          rwa [List.append_assoc, List.append_assoc, ← List.flatMap_cons, List.singleton_append]
        rw [← List.append_assoc] at hrest
        exact .enter hn hrest

theorem Searches.queue {seen frontier entered : List NodeId}
    (h : Searches next (seen ++ unseen seen frontier) ((unseen seen frontier).flatMap next)
      entered) : Searches next seen frontier (unseen seen frontier ++ entered) := by
  have hlayer : Searches next seen (frontier ++ []) (unseen seen frontier ++ entered) := h.layer
  rwa [List.append_nil] at hlayer

theorem searches_of_unseen_eq_nil {seen frontier : List NodeId} (h : unseen seen frontier = []) :
    Searches next seen frontier [] := by
  have hqueue : Searches next seen frontier (unseen seen frontier ++ []) := by
    apply Searches.queue
    rw [h]
    exact .finished _
  rwa [h, List.append_nil] at hqueue

theorem searches_reachLayers {all : List NodeId} (hnext : forall a, next a ⊆ all) (layers : Nat)
    (seen frontier : List NodeId) (hfrontier : frontier ⊆ all)
    (hlayers : (all.filter fun n => !seen.contains n).length ≤ layers) :
    Searches next seen frontier (reachLayers next layers seen frontier) := by
  induction layers generalizing seen frontier with
  | zero => exact searches_of_unseen_eq_nil (unseen_eq_nil hfrontier hlayers)
  | succ layers ih =>
      rw [reachLayers]
      cases hlayer : unseen seen frontier with
      | nil => exact searches_of_unseen_eq_nil hlayer
      | cons x rest =>
          have hless := missing_lt_of_layer hfrontier hlayer
          have hrest := ih (seen ++ x :: rest) _ (flatMap_next_subset hnext (x :: rest)) (by omega)
          rw [← hlayer] at hrest
          have hqueue := hrest.queue
          rwa [hlayer] at hqueue

/-!
# Distances
-/

inductive StepsTo (next : NodeId → List NodeId) (start : NodeId) : Nat → NodeId → Prop where
  | start : StepsTo next start 0 start
  | step {steps : Nat} {a b : NodeId} (h : StepsTo next start steps a) (hb : b ∈ next a) :
      StepsTo next start (steps + 1) b

def NoFarther (next : NodeId → List NodeId) (start a b : NodeId) : Prop :=
  forall steps, StepsTo next start steps b ->
    exists steps', steps' ≤ steps ∧ StepsTo next start steps' a

theorem NoFarther.refl (a : NodeId) : NoFarther next start a a :=
  fun steps h => ⟨steps, Nat.le_refl steps, h⟩

/-- The search has entered what it reaches in one up to `depth` steps, and is about to enter what it
reaches in one more. -/
structure Layered (next : NodeId → List NodeId) (start : NodeId) (depth : Nat)
    (seen frontier : List NodeId) : Prop where
  closed : forall a, a ∈ seen -> forall b, b ∈ next a -> b ∈ seen ∨ b ∈ frontier
  front : forall n, n ∈ frontier -> StepsTo next start (depth + 1) n
  entered : forall steps n, steps < depth -> StepsTo next start (steps + 1) n -> n ∈ seen
  reached : forall n, StepsTo next start (depth + 1) n -> n ∈ seen ∨ n ∈ frontier

theorem layered_start : Layered next start 0 [] (next start) where
  closed a ha := absurd ha List.not_mem_nil
  front n hn := .step .start hn
  entered steps n h := absurd h (Nat.not_lt_zero steps)
  reached n h := by
    cases h with
    | step h hn =>
        cases h
        exact Or.inr hn

theorem Layered.layer {depth : Nat} {seen frontier : List NodeId}
    (h : Layered next start depth seen frontier) :
    Layered next start (depth + 1) (seen ++ unseen seen frontier)
      ((unseen seen frontier).flatMap next) where
  closed := closed_layer h.closed
  front n hn := by
    rcases List.mem_flatMap.mp hn with ⟨a, ha, hstep⟩
    exact .step (h.front a (mem_unseen.mp ha).1) hstep
  entered steps n hlt hn := by
    rw [mem_append_unseen]
    rcases Nat.lt_succ_iff_lt_or_eq.mp hlt with hlt | rfl
    · exact Or.inl (h.entered steps n hlt hn)
    · exact h.reached n hn
  reached n hn := by
    cases hn with
    | @step _ a _ ha hstep =>
        exact closed_layer h.closed a (mem_append_unseen.mpr (h.reached a ha)) n hstep

theorem not_mem_of_mem_reachLayers {layers : Nat} {seen frontier : List NodeId} {n : NodeId}
    (h : n ∈ reachLayers next layers seen frontier) : n ∉ seen := by
  induction layers generalizing seen frontier with
  | zero => cases h
  | succ layers ih =>
      rw [reachLayers] at h
      split at h
      · cases h
      · rcases List.mem_append.mp h with hn | hn
        · exact (mem_unseen.mp hn).2
        · exact fun hseen => ih hn (List.mem_append_left _ hseen)

theorem Layered.pairwise {depth : Nat} {seen frontier : List NodeId}
    (h : Layered next start depth seen frontier) (layers : Nat) :
    (reachLayers next layers seen frontier).Pairwise fun a b =>
      forall steps, StepsTo next start (steps + 1) b ->
        exists steps', steps' ≤ steps ∧ StepsTo next start (steps' + 1) a := by
  induction layers generalizing depth seen frontier with
  | zero => exact .nil
  | succ layers ih =>
      have hnear (a : NodeId) (ha : a ∈ unseen seen frontier) (b : NodeId) (hb : b ∉ seen)
          (steps : Nat) (hsteps : StepsTo next start (steps + 1) b) :
          exists steps', steps' ≤ steps ∧ StepsTo next start (steps' + 1) a := by
        refine ⟨depth, ?_, h.front a (mem_unseen.mp ha).1⟩
        by_contra hlt
        exact hb (h.entered steps b (Nat.lt_of_not_le hlt) hsteps)
      have hrest := ih h.layer
      rw [reachLayers]
      cases hlayer : unseen seen frontier with
      | nil => exact .nil
      | cons x rest =>
          rw [hlayer] at hnear hrest
          refine List.pairwise_append.mpr ⟨?_, hrest, ?_⟩
          · refine List.pairwise_of_forall_mem_list fun a ha b hb => hnear a ha b ?_
            rw [← hlayer] at hb
            exact (mem_unseen.mp hb).2
          · intro a ha b hb
            apply hnear a ha b
            exact fun hseen => not_mem_of_mem_reachLayers hb (List.mem_append_left _ hseen)

end Search

namespace Graph

variable {g : Graph}

/-!
# Superclasses
-/

theorem searches_superclasses (g : Graph) (node : NodeId) :
    Searches g.directSuperclasses [] (g.directSuperclasses node) (g.superclasses node) :=
  searches_reachLayers g.directSuperclasses_subset g.tripleCount [] (g.directSuperclasses node)
    (g.directSuperclasses_subset node) g.length_objects_le

theorem pairwise_superclasses {node : NodeId} {nodes : List NodeId}
    (h : nodes.Sublist (g.superclasses node)) (hnode : node ∉ nodes) :
    nodes.Pairwise (NoFarther g.directSuperclasses node) := by
  have hstart : Layered g.directSuperclasses node 0 [] (g.directSuperclasses node) := layered_start
  refine ((hstart.pairwise g.tripleCount).sublist h).imp_of_mem ?_
  intro a b _ hb hnear steps hway
  cases hway with
  | start => exact absurd hb hnode
  | @step steps c _ hc hstep =>
      rcases hnear steps (.step hc hstep) with ⟨steps', hle, hway'⟩
      exact ⟨steps' + 1, Nat.succ_le_succ hle, hway'⟩

/-- The search for the superclasses of a node comes to an end, whatever cycles lead back to it.  A
class is a subclass exactly of itself and of what it finds, which is what steps along
`rdfs:subClassOf` lead to.  So being a subclass is transitive, and what is of a class is of the
classes above it. -/
theorem subclasses_reached (g : Graph) (hg : g.Built) :
    (forall node, Searches g.directSuperclasses [] (g.directSuperclasses node)
      (g.superclasses node)) ∧
    (forall sub sup, g.isSubclassOf sub sup = true <-> sub = sup ∨
      exists m n, g.lookupNamed? sub = some m ∧ g.lookupNamed? sup = some n ∧
        Relation.TransGen (fun a b => b ∈ g.objects a Vocabulary.Rdfs.subClassOf) m n) ∧
    (forall a b c, g.isSubclassOf a b = true -> g.isSubclassOf b c = true ->
      g.isSubclassOf a c = true) ∧
    (forall id sub sup, g.isA id sub = true -> g.isSubclassOf sub sup = true ->
      g.isA id sup = true) :=
  ⟨g.searches_superclasses, fun _ _ => hg.sound.isSubclassOf_iff,
    fun _ _ _ => hg.sound.isSubclassOf_trans, fun _ _ _ => hg.sound.isA_of_isSubclassOf⟩

/-- Cats are animals by way of a blank node, and a cycle leads back to them. -/
def menagerie : List Operation :=
  [.intern (.named "Cat"), .freshBlank, .addEdge 0 Vocabulary.Rdfs.subClassOf 1,
   .addNamed 1 Vocabulary.Rdfs.subClassOf "Animal", .addEdge 2 Vocabulary.Rdfs.subClassOf 0,
   .intern (.named "tom"), .addType 3 "Cat"]

theorem subclasses_reached_menagerie :
    (empty.runAll menagerie).2.superclasses 0 = [1, 2, 0] ∧
    Searches (empty.runAll menagerie).2.directSuperclasses [] [1] [1, 2, 0] ∧
    (empty.runAll menagerie).2.isSubclassOf "Cat" "Animal" = true ∧
    (empty.runAll menagerie).2.isA 3 "Animal" = true := by
  have hbuilt : (empty.runAll menagerie).2.Built := ⟨empty, menagerie, Or.inl rfl, rfl⟩
  have hsuperclasses : (empty.runAll menagerie).2.superclasses 0 = [1, 2, 0] := by decide +kernel
  have hdirect : (empty.runAll menagerie).2.directSuperclasses 0 = [1] := by decide +kernel
  have hfirst : 1 ∈ (empty.runAll menagerie).2.directSuperclasses 0 := by decide +kernel
  have hstep : 2 ∈ (empty.runAll menagerie).2.directSuperclasses 1 := by decide +kernel
  have hcat : (empty.runAll menagerie).2.lookupNamed? "Cat" = some 0 := by decide +kernel
  have hanimal : (empty.runAll menagerie).2.lookupNamed? "Animal" = some 2 := by decide +kernel
  have htom : (empty.runAll menagerie).2.isA 3 "Cat" = true := by decide +kernel
  rcases subclasses_reached _ hbuilt with ⟨hsearch, hiff, -, hisA⟩
  have hsub := (hiff "Cat" "Animal").mpr (Or.inr ⟨0, 2, hcat, hanimal,
    .tail (.single hfirst) hstep⟩)
  have hrun := hsearch 0
  rw [hdirect, hsuperclasses] at hrun
  exact ⟨hsuperclasses, hrun, hsub, hisA 3 "Cat" "Animal" htom hsub⟩

end Graph
end Wiring
