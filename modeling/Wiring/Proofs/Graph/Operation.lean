import Wiring.Proofs.Graph.Store

/-!
# Operations

What can be done to a graph.  Graphs that give the same answers still do so after
the same operations.
-/

namespace Wiring
namespace Graph

/-- Graphs that cannot be told apart by questions. -/
structure Agrees (g g' : Graph) : Prop where
  size : g.size = g'.size
  term? (i : NodeId) : g.term? i = g'.term? i
  lookupNamed? (iri : String) : g.lookupNamed? iri = g'.lookupNamed? iri
  objects (s : NodeId) (p : String) : g.objects s p = g'.objects s p
  list? (i : NodeId) : g.list? i = g'.list? i

inductive Operation where
  | intern (t : Term)
  | freshBlank
  | addEdge (subject : NodeId) (predicate : String) (object : NodeId)
  | addNamed (subject : NodeId) (predicate iri : String)
  | addType (subject : NodeId) (iri : String)
  | setList (node : NodeId) (items : List NodeId)
  | freshList (items : List NodeId)
  deriving Repr

namespace Operation

def run (g : Graph) : Operation → Option NodeId × Graph
  | intern t => (some (g.intern t).1, (g.intern t).2)
  | freshBlank => (some g.freshBlank.1, g.freshBlank.2)
  | addEdge subject predicate object => (none, g.addEdge subject predicate object)
  | addNamed subject predicate iri => (none, g.addNamed subject predicate iri)
  | addType subject iri => (none, g.addType subject iri)
  | setList node items => (none, g.setList node items)
  | freshList items => (some (g.freshList items).1, (g.freshList items).2)

def Within (g : Graph) : Operation → Prop
  | intern _ => True
  | freshBlank => True
  | addEdge subject _ object => subject < g.size ∧ object < g.size
  | addNamed subject _ _ => subject < g.size
  | addType subject _ => subject < g.size
  | setList node items => node < g.size ∧ ∀ i, i ∈ items → i < g.size
  | freshList items => ∀ i, i ∈ items → i < g.size

end Operation

def runAll (g : Graph) : List Operation → List (Option NodeId) × Graph
  | [] => ([], g)
  | op :: rest =>
    let (node, g) := op.run g
    let (nodes, g) := g.runAll rest
    (node :: nodes, g)

def AllWithin (g : Graph) : List Operation → Prop
  | [] => True
  | op :: rest => op.Within g ∧ (op.run g).2.AllWithin rest

/-!
# Operations keep the store
-/

variable {g g' : Graph}

theorem Sound.run (h : g.Sound) (op : Operation) : (op.run g).2.Sound := by
  cases op with
  | intern t => exact h.intern t
  | freshBlank => exact h.freshBlank
  | addEdge subject predicate object => exact h.addEdge subject predicate object
  | addNamed subject predicate iri => exact (h.intern _).addEdge _ _ _
  | addType subject iri => exact (h.intern _).addEdge _ _ _
  | setList node items => exact h.setList node items
  | freshList items => exact h.freshBlank.setList _ _

theorem Closed.addNamed (h : g.Closed) (hsound : g.Sound) {s : NodeId} (hs : s < g.size)
    (p iri : String) : (g.addNamed s p iri).Closed :=
  (h.intern (.named iri)).addEdge (Nat.lt_of_lt_of_le hs (size_le_intern g _)) p
    (hsound.intern_lt _)

theorem Closed.run (h : g.Closed) (hsound : g.Sound) {op : Operation} (hop : op.Within g) :
    (op.run g).2.Closed := by
  cases op with
  | intern t => exact h.intern t
  | freshBlank => exact h.freshBlank hsound
  | addEdge subject predicate object => exact h.addEdge hop.1 predicate hop.2
  | addNamed subject predicate iri => exact h.addNamed hsound hop predicate iri
  | addType subject iri => exact h.addNamed hsound hop _ iri
  | setList node items => exact h.setList hop.1 hop.2
  | freshList items =>
      exact (h.freshBlank hsound).setList hsound.freshBlank_lt fun i hi =>
        Nat.lt_of_lt_of_le (hop i hi) hsound.size_le_freshBlank

theorem sound_runAll (h : g.Sound) (ops : List Operation) : (g.runAll ops).2.Sound := by
  induction ops generalizing g with
  | nil => exact h
  | cons op rest ih => exact ih (h.run op)

theorem closed_runAll (h : g.Closed) (hsound : g.Sound) {ops : List Operation}
    (hops : g.AllWithin ops) : (g.runAll ops).2.Closed := by
  induction ops generalizing g with
  | nil => exact h
  | cons op rest ih => exact ih (h.run hsound hops.1) (hsound.run op) hops.2

/-!
# Operations keep agreement
-/

theorem index_eq (hg : g.Sound) (hg' : g'.Sound) (hterms : g.terms = g'.terms) (t : Term) :
    g.index[t]? = g'.index[t]? := by
  refine Option.ext fun i => ?_
  rw [hg.index, hg'.index, hterms]

theorem agrees_of_terms (hg : g.Sound) (hg' : g'.Sound) (hterms : g.terms = g'.terms)
    (hobjects : forall s p, g.objects s p = g'.objects s p)
    (hlists : forall i, g.list? i = g'.list? i) : g.Agrees g' where
  size := congrArg Array.size hterms
  term? i := by rw [Graph.term?, Graph.term?, hterms]
  lookupNamed? iri := index_eq hg hg' hterms (.named iri)
  objects := hobjects
  list? := hlists

theorem Agrees.refl (g : Graph) : g.Agrees g :=
  ⟨rfl, fun _ => rfl, fun _ => rfl, fun _ _ => rfl, fun _ => rfl⟩

theorem Agrees.terms (h : g.Agrees g') : g.terms = g'.terms :=
  Array.ext_getElem? h.term?

section Agrees

variable (h : g.Agrees g') (hg : g.Sound) (hg' : g'.Sound)

include h hg hg'

theorem Agrees.intern (t : Term) :
    (g.intern t).1 = (g'.intern t).1 ∧ (g.intern t).2.Agrees (g'.intern t).2 := by
  have hterms := h.terms
  have hindex := index_eq hg hg' hterms t
  cases hfound : g.index[t]? with
  | some i =>
      rw [intern_found hfound, intern_found (hindex ▸ hfound)]
      exact ⟨rfl, h⟩
  | none =>
      have hterms' : (g.intern t).2.terms = (g'.intern t).2.terms := by
        rw [intern_new hfound, intern_new (hindex ▸ hfound), hterms]
      refine ⟨?_, agrees_of_terms (hg.intern t) (hg'.intern t) hterms' ?_ ?_⟩
      · rw [intern_new hfound, intern_new (hindex ▸ hfound), hterms]
      · intro s p
        rw [objects_intern, objects_intern]
        exact h.objects s p
      · intro i
        rw [list?_intern, list?_intern]
        exact h.list? i

theorem Agrees.firstUnused {n : Nat} (hn : g.FirstUnused n) : g'.FirstUnused n := by
  have htaken (k : Nat) : g.Taken k <-> g'.Taken k := by
    unfold Taken
    rw [index_eq hg hg' h.terms]
  exact ⟨fun hk => hn.1 ((htaken n).mpr hk), fun k hk => (htaken k).mp (hn.2 k hk)⟩

theorem Agrees.freshBlank :
    g.freshBlank.1 = g'.freshBlank.1 ∧ g.freshBlank.2.Agrees g'.freshBlank.2 := by
  rcases hg.freshBlank_eq with ⟨n, hn, heq⟩
  rcases hg'.freshBlank_eq with ⟨m, hm, heq'⟩
  obtain rfl := (h.firstUnused hg hg' hn).unique hm
  rw [heq, heq']
  rcases h.intern hg hg' (.blank (blankLabel n)) with ⟨hnode, hagrees⟩
  exact ⟨hnode, hagrees.size, hagrees.term?, hagrees.lookupNamed?, hagrees.objects, hagrees.list?⟩

omit hg hg' in
theorem Agrees.addEdge (s : NodeId) (p : String) (o : NodeId) :
    (g.addEdge s p o).Agrees (g'.addEdge s p o) where
  size := h.size
  term? := h.term?
  lookupNamed? := h.lookupNamed?
  objects u q := by rw [objects_addEdge, objects_addEdge, h.objects]
  list? := h.list?

omit hg hg' in
theorem Agrees.setList (i : NodeId) (items : List NodeId) :
    (g.setList i items).Agrees (g'.setList i items) where
  size := h.size
  term? := h.term?
  lookupNamed? := h.lookupNamed?
  objects := h.objects
  list? u := by rw [list?_setList, list?_setList, h.list?]

theorem Agrees.addNamed (s : NodeId) (p iri : String) :
    (g.addNamed s p iri).Agrees (g'.addNamed s p iri) := by
  rcases h.intern hg hg' (.named iri) with ⟨hnode, hagrees⟩
  unfold Graph.addNamed
  dsimp only
  rw [hnode]
  exact hagrees.addEdge s p _

theorem Agrees.run (op : Operation) :
    (op.run g).1 = (op.run g').1 ∧ (op.run g).2.Agrees (op.run g').2 := by
  cases op with
  | intern t =>
      rcases h.intern hg hg' t with ⟨hnode, hagrees⟩
      exact ⟨congrArg some hnode, hagrees⟩
  | freshBlank =>
      rcases h.freshBlank hg hg' with ⟨hnode, hagrees⟩
      exact ⟨congrArg some hnode, hagrees⟩
  | addEdge subject predicate object => exact ⟨rfl, h.addEdge subject predicate object⟩
  | addNamed subject predicate iri => exact ⟨rfl, h.addNamed hg hg' subject predicate iri⟩
  | addType subject iri => exact ⟨rfl, h.addNamed hg hg' subject _ iri⟩
  | setList node items => exact ⟨rfl, h.setList node items⟩
  | freshList items =>
      rcases h.freshBlank hg hg' with ⟨hnode, hagrees⟩
      unfold Operation.run Graph.freshList
      dsimp only
      rw [hnode]
      exact ⟨rfl, hagrees.setList _ items⟩

theorem Agrees.runAll (ops : List Operation) :
    (g.runAll ops).1 = (g'.runAll ops).1 ∧ (g.runAll ops).2.Agrees (g'.runAll ops).2 := by
  induction ops generalizing g g' with
  | nil => exact ⟨rfl, h⟩
  | cons op rest ih =>
      rcases h.run hg hg' op with ⟨hnode, hagrees⟩
      rcases ih hagrees (hg.run op) (hg'.run op) with ⟨hnodes, hagrees'⟩
      unfold Graph.runAll
      exact ⟨congrArg₂ List.cons hnode hnodes, hagrees'⟩

end Agrees

end Graph
end Wiring
