import Wiring.Component
import Wiring.Proofs.Graph.Search

/-!
# Inheritance

What a component takes from its ancestors: all of their parameters, each once and nearest
first, and the nearest definition of constructor arguments and of generic type parameters
where it has none of its own.
-/

namespace Wiring
namespace Component

open Vocabulary

variable {g : Graph} {node : NodeId}

/-!
# Ancestors
-/

structure IsAncestor (g : Graph) (node a : NodeId) : Prop where
  ne : a ≠ node
  component : isComponent g a = true
  reached : Relation.TransGen (fun a b => b ∈ g.directSuperclasses a) node a

theorem mem_ancestors {a : NodeId} : a ∈ ancestors g node <-> IsAncestor g node a := by
  unfold ancestors
  rw [List.mem_filter, Graph.mem_superclasses, Bool.and_eq_true, decide_eq_true_iff]
  constructor
  · rintro ⟨hreached, hne, hcomponent⟩
    exact ⟨hne, hcomponent, hreached⟩
  · intro h
    exact ⟨h.reached, h.ne, h.component⟩

theorem pairwise_ancestors (g : Graph) (node : NodeId) :
    (ancestors g node).Pairwise (NoFarther g.directSuperclasses node) :=
  Graph.pairwise_superclasses List.filter_sublist fun hmem => (mem_ancestors.mp hmem).ne rfl

theorem isAncestor_iff (hg : g.Sound) {a : NodeId} {sub sup : String}
    (hnode : g.iri? node = some sub) (ha : g.iri? a = some sup) :
    IsAncestor g node a <-> a ≠ node ∧ isComponent g a = true ∧ g.isSubclassOf sub sup = true := by
  have hsub := hg.lookupNamed?_eq_some.mpr hnode
  have hsup := hg.lookupNamed?_eq_some.mpr ha
  rw [hg.isSubclassOf_iff]
  constructor
  · intro h
    exact ⟨h.ne, h.component, Or.inr ⟨node, a, hsub, hsup, h.reached⟩⟩
  · rintro ⟨hne, hcomponent, rfl | ⟨m, n, hm, hn, hpath⟩⟩
    · rw [hsub] at hsup
      cases hsup
      exact absurd rfl hne
    · rw [hsub] at hm
      rw [hsup] at hn
      cases hm
      cases hn
      exact ⟨hne, hcomponent, hpath⟩

/-!
# The nearest declaration
-/

/-- The node has what it declares itself, else what one of the nearest ancestors declares that declare
something, and nothing if no ancestor does. -/
inductive Inherits {α : Type} (g : Graph) (node : NodeId) (declared : NodeId → α) (nothing : α) :
    α → Prop where
  | own (h : declared node ≠ nothing) : Inherits g node declared nothing (declared node)
  | nearest {a : NodeId} (hown : declared node = nothing) (ha : IsAncestor g node a)
      (hdeclared : declared a ≠ nothing)
      (hnearest : forall b, IsAncestor g node b -> declared b ≠ nothing ->
        NoFarther g.directSuperclasses node a b) :
      Inherits g node declared nothing (declared a)
  | nothing (hown : declared node = nothing)
      (h : forall b, IsAncestor g node b -> declared b = nothing) :
      Inherits g node declared nothing nothing

section Nearest

variable {α : Type} {declared : NodeId → α} {nothing : α}

theorem inherits_of_first {before after : List NodeId} {a : NodeId}
    (hsplit : node :: ancestors g node = before ++ a :: after)
    (hbefore : forall b, b ∈ before -> declared b = nothing) (ha : declared a ≠ nothing) :
    Inherits g node declared nothing (declared a) := by
  cases before with
  | nil =>
      cases hsplit
      exact .own ha
  | cons c before =>
      rw [List.cons_append] at hsplit
      rcases List.cons.inj hsplit with ⟨rfl, hancestors⟩
      have hmem : a ∈ ancestors g node := by
        rw [hancestors]
        exact List.mem_append_right before List.mem_cons_self
      have hpairwise := pairwise_ancestors g node
      rw [hancestors] at hpairwise
      have hafter := (List.pairwise_cons.mp (List.pairwise_append.mp hpairwise).2.1).1
      refine .nearest (hbefore node List.mem_cons_self) (mem_ancestors.mp hmem) ha ?_
      intro b hb hdeclared
      rw [← mem_ancestors, hancestors, List.mem_append, List.mem_cons] at hb
      rcases hb with hb | rfl | hb
      · exact absurd (hbefore b (List.mem_cons_of_mem node hb)) hdeclared
      · exact .refl b
      · exact hafter b hb

theorem inherits_of_none (h : forall b, b ∈ node :: ancestors g node -> declared b = nothing) :
    Inherits g node declared nothing nothing :=
  .nothing (h node List.mem_cons_self) fun b hb =>
    h b (List.mem_cons_of_mem node (mem_ancestors.mpr hb))

end Nearest

theorem inherits_arguments (g : Graph) (node : NodeId) :
    Inherits g node (declaredArguments g) none
      (inheritedArguments g node (ancestors g node)) := by
  unfold inheritedArguments
  cases hfound : (node :: ancestors g node).findSome? (declaredArguments g) with
  | none => exact inherits_of_none (List.findSome?_eq_none_iff.mp hfound)
  | some arguments =>
      rcases List.findSome?_eq_some_iff.mp hfound with ⟨before, a, after, hsplit, ha, hbefore⟩
      have hfirst := inherits_of_first hsplit hbefore (ha ▸ Option.some_ne_none arguments)
      rwa [ha] at hfirst

theorem inherits_generics (g : Graph) (node : NodeId) :
    Inherits g node (declaredGenerics g) [] (inheritedGenerics g node (ancestors g node)) := by
  unfold inheritedGenerics
  rw [List.find?_map]
  cases hfound : (node :: ancestors g node).find?
      ((fun names => !names.isEmpty) ∘ declaredGenerics g) with
  | none =>
      apply inherits_of_none
      intro b hb
      simpa using List.find?_eq_none.mp hfound b hb
  | some a =>
      rcases List.find?_eq_some_iff_append.mp hfound with ⟨ha, before, after, hsplit, hbefore⟩
      apply inherits_of_first hsplit
      · intro b hb
        simpa using hbefore b hb
      · simpa using ha

/-!
# Parameters
-/

/-- The parameters behind those of the node itself are those of all ancestors, each once and in the
order of the distance of the ancestors that declare them. -/
structure InheritsAll (g : Graph) (node : NodeId) (inherited : List NodeId) : Prop where
  nodup : inherited.Nodup
  mem_iff (p : NodeId) : p ∈ inherited <-> p ∉ declaredParameters g node ∧
    exists a, IsAncestor g node a ∧ p ∈ declaredParameters g a
  nearest : inherited.Pairwise fun p q =>
    forall b, IsAncestor g node b -> q ∈ declaredParameters g b ->
      exists a, IsAncestor g node a ∧ p ∈ declaredParameters g a ∧
        NoFarther g.directSuperclasses node a b

theorem inherit_eq (parameters inherited : List NodeId) :
    inherit parameters inherited = parameters ++ unseen parameters inherited := by
  induction inherited generalizing parameters with
  | nil => exact (List.append_nil parameters).symm
  | cons p rest ih =>
      unfold inherit at ih ⊢
      rw [List.foldl_cons, ih]
      by_cases hp : p ∈ parameters
      · rw [if_pos (List.contains_iff_mem.mpr hp), unseen_cons_of_mem hp]
      · rw [if_neg (fun h => hp (List.contains_iff_mem.mp h)), unseen_cons_of_not_mem hp,
          List.append_assoc, List.singleton_append]

theorem foldl_inherit (parameters : List NodeId) (lists : List (List NodeId)) :
    lists.foldl inherit parameters = parameters ++ unseen parameters lists.flatten := by
  induction lists generalizing parameters with
  | nil => exact (List.append_nil parameters).symm
  | cons list rest ih =>
      have hseen : forall n, n ∈ parameters ++ unseen parameters list <-> n ∈ parameters ++ list := by
        intro n
        rw [mem_append_unseen, List.mem_append]
      rw [List.foldl_cons, inherit_eq, ih, List.flatten_cons, unseen_append, List.append_assoc,
        unseen_congr hseen]

theorem inheritedParameters_eq (g : Graph) (node : NodeId) (nodes : List NodeId) :
    inheritedParameters g node nodes = declaredParameters g node ++
      unseen (declaredParameters g node) (nodes.flatMap (declaredParameters g)) := by
  rw [inheritedParameters, foldl_inherit, List.flatMap_def]

theorem pairwise_unseen {nearer : NodeId → NodeId → Prop} (hrefl : forall a, nearer a a)
    (declared : NodeId → List NodeId) {nodes : List NodeId} (h : nodes.Pairwise nearer)
    (seen : List NodeId) :
    (unseen seen (nodes.flatMap declared)).Pairwise fun p q =>
      forall b, b ∈ nodes -> q ∈ declared b ->
        exists a, a ∈ nodes ∧ p ∈ declared a ∧ nearer a b := by
  induction nodes generalizing seen with
  | nil => exact .nil
  | cons a rest ih =>
      rcases List.pairwise_cons.mp h with ⟨ha, hrest⟩
      have hfirst (p : NodeId) (hp : p ∈ unseen seen (declared a)) (b : NodeId)
          (hb : b ∈ a :: rest) :
          exists a', a' ∈ a :: rest ∧ p ∈ declared a' ∧ nearer a' b := by
        refine ⟨a, List.mem_cons_self, (mem_unseen.mp hp).1, ?_⟩
        rcases List.mem_cons.mp hb with rfl | hb
        · exact hrefl b
        · exact ha b hb
      rw [List.flatMap_cons, unseen_append, List.pairwise_append]
      refine ⟨?_, ?_, fun p hp q _ b hb _ => hfirst p hp b hb⟩
      · exact List.pairwise_of_forall_mem_list fun p hp q _ b hb _ => hfirst p hp b hb
      · refine (ih hrest (seen ++ declared a)).imp_of_mem ?_
        intro p q _ hq hnearer b hb hqb
        rcases List.mem_cons.mp hb with rfl | hb
        · exact absurd (List.mem_append_right seen hqb) (mem_unseen.mp hq).2
        · rcases hnearer b hb hqb with ⟨a', ha', hp, hle⟩
          exact ⟨a', List.mem_cons_of_mem a ha', hp, hle⟩

theorem inheritsAll_ancestors (g : Graph) (node : NodeId) :
    InheritsAll g node (unseen (declaredParameters g node)
      ((ancestors g node).flatMap (declaredParameters g))) where
  nodup := nodup_unseen _ _
  mem_iff p := by
    rw [mem_unseen, List.mem_flatMap, and_comm]
    simp only [mem_ancestors]
  nearest := by
    have hpairwise := pairwise_unseen NoFarther.refl (declaredParameters g)
      (pairwise_ancestors g node) (declaredParameters g node)
    simpa only [mem_ancestors] using hpairwise

/-!
# Loading
-/

theorem load_eq {kind : ComponentKind} (h : ComponentKind.of? g node = some kind) :
    load g node = .ok {
      node := node
      id := g.display node
      kind := kind
      generics := inheritedGenerics g node (ancestors g node)
      parameters := inheritedParameters g node (ancestors g node)
      arguments := inheritedArguments g node (ancestors g node) } := by
  rw [load, h]

/-- A component can be loaded, whatever cycles the hierarchy has.  Behind its own parameters stand those
of its ancestors, and its constructor arguments and generic type parameters are its own or those of a
nearest ancestor that has some.  Ancestors with a name are the other components that it is a subclass
of. -/
theorem load_inherits (g : Graph) (node : NodeId) (h : isComponent g node = true) :
    Searches g.directSuperclasses [] (g.directSuperclasses node) (g.superclasses node) ∧
    (exists component inherited, load g node = .ok component ∧ component.node = node ∧
      component.parameters = declaredParameters g node ++ inherited ∧
      InheritsAll g node inherited ∧
      Inherits g node (declaredArguments g) none component.arguments ∧
      Inherits g node (declaredGenerics g) [] component.generics) ∧
    (g.Built -> forall a sub sup, g.iri? node = some sub -> g.iri? a = some sup ->
      (IsAncestor g node a <->
        a ≠ node ∧ isComponent g a = true ∧ g.isSubclassOf sub sup = true)) := by
  refine ⟨g.searches_superclasses node, ?_, ?_⟩
  · rcases Option.isSome_iff_exists.mp h with ⟨kind, hkind⟩
    exact ⟨_, _, load_eq hkind, rfl, inheritedParameters_eq g node _, inheritsAll_ancestors g node,
      inherits_arguments g node, inherits_generics g node⟩
  · intro hg a sub sup hsub hsup
    exact isAncestor_iff hg.sound hsub hsup

/-- The class `C` is below `A` and, by way of a blank node, below `B`.  A cycle leads from `A` back to
`C`.  Both ancestors declare the parameter `q`, and `A` declares the own parameter `p` of `C`. -/
def family : List Graph.Operation :=
  [.intern (.named "C"), .addType 0 Oo.classType, .addNamed 0 Rdfs.subClassOf "A",
   .addType 2 Oo.abstractClass, .freshBlank, .addEdge 0 Rdfs.subClassOf 4,
   .addNamed 4 Rdfs.subClassOf "B", .addType 5 Oo.classType, .addEdge 2 Rdfs.subClassOf 0,
   .addNamed 0 Oo.parameter "p", .addNamed 2 Oo.parameter "q", .addEdge 2 Oo.parameter 6,
   .addNamed 5 Oo.parameter "r", .addEdge 5 Oo.parameter 7, .freshList [6, 8],
   .addEdge 5 Oo.constructorArguments 9, .addNamed 5 Oo.genericTypeParameters "T"]

theorem load_inherits_family :
    isComponent (Graph.empty.runAll family).2 0 = true ∧
    (exists component, load (Graph.empty.runAll family).2 0 = .ok component ∧
      component.parameters = [6, 7, 8] ∧ component.arguments = some 9 ∧
      component.generics = ["T"]) ∧
    InheritsAll (Graph.empty.runAll family).2 0 [7, 8] ∧
    Inherits (Graph.empty.runAll family).2 0 (declaredArguments (Graph.empty.runAll family).2) none
      (some 9) ∧
    IsAncestor (Graph.empty.runAll family).2 0 5 := by
  have hbuilt : (Graph.empty.runAll family).2.Built := ⟨Graph.empty, family, Or.inl rfl, rfl⟩
  have hfacts : isComponent (Graph.empty.runAll family).2 0 = true ∧
      declaredParameters (Graph.empty.runAll family).2 0 = [6] ∧
      (Graph.empty.runAll family).2.iri? 0 = some "C" ∧
      (Graph.empty.runAll family).2.iri? 5 = some "B" ∧
      (5 ≠ 0 ∧ isComponent (Graph.empty.runAll family).2 5 = true ∧
        (Graph.empty.runAll family).2.isSubclassOf "C" "B" = true) ∧
      (load (Graph.empty.runAll family).2 0).toOption.map (fun component =>
        (component.parameters, component.arguments, component.generics)) =
          some ([6, 7, 8], some 9, ["T"]) := by decide +kernel
  rcases hfacts with ⟨hcomponent, hown, hC, hB, hancestor, hfields⟩
  rcases load_inherits _ 0 hcomponent with
    ⟨-, ⟨component, inherited, hload, -, hparameters, hall, harguments, -⟩, hnamed⟩
  rw [hload] at hfields
  simp only [Except.toOption, Option.map_some, Option.some.injEq, Prod.mk.injEq] at hfields
  rcases hfields with ⟨hps, has, hgs⟩
  rw [hown, hps, List.singleton_append] at hparameters
  rw [← (List.cons.inj hparameters).2] at hall
  rw [has] at harguments
  exact ⟨hcomponent, ⟨component, hload, hps, has, hgs⟩, hall, harguments,
    (hnamed hbuilt 5 "C" "B" hC hB).mpr hancestor⟩

end Component
end Wiring
