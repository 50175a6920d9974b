import Mathlib.Data.Fintype.Card
import Std.Data.String.ToNat
import Std.Data.TreeMap.Lemmas
import Wiring.Graph.Basic
import Wiring.Proofs.Table

/-!
# The store of a graph

The index holds exactly the terms, each under its number, and every blank label
below the counter is taken.  So the label of the next blank node is the first
one that no term has, wherever the search for it starts.
-/

namespace Wiring
namespace Graph

variable {g : Graph}

structure Sound (g : Graph) : Prop where
  index {t : Term} {i : NodeId} : g.index[t]? = some i <-> g.terms[i]? = some t
  labels {n : Nat} : n < g.nextLabel -> g.index[Term.blank (blankLabel n)]? ≠ none
  edges {s : NodeId} {es : Array Edge} : g.edges[s]? = some es -> es ≠ #[]

structure Closed (g : Graph) : Prop where
  edges {s : NodeId} {es : Array Edge} : g.edges[s]? = some es ->
    s < g.size ∧ forall e, e ∈ es -> e.object < g.size
  lists {i : NodeId} {items : List NodeId} : g.lists[i]? = some items ->
    i < g.size ∧ forall j, j ∈ items -> j < g.size

theorem sound_empty : Sound empty where
  index := by simp [empty]
  labels h := absurd h (Nat.not_lt_zero _)
  edges h := by simp [empty] at h

theorem closed_empty : Closed empty where
  edges h := by simp [empty] at h
  lists h := by simp [empty] at h

/-!
# Terms
-/

theorem intern_found {t : Term} {i : NodeId} (h : g.index[t]? = some i) :
    g.intern t = (i, g) := by
  rw [intern, h]

theorem intern_new {t : Term} (h : g.index[t]? = none) :
    g.intern t = (g.terms.size, { g with
      terms := g.terms.push t
      index := g.index.insert t g.terms.size }) := by
  rw [intern, h]

theorem index_intern (g : Graph) (t : Term) (u : Term) :
    (g.intern t).2.index[u]? = if u = t then some (g.intern t).1 else g.index[u]? := by
  cases h : g.index[t]? with
  | some i =>
      rw [intern_found h]
      split
      · next hu => rw [hu, h]
      · rfl
  | none =>
      rw [intern_new h, Table.getElem?_insert]

theorem edges_intern (g : Graph) (t : Term) : (g.intern t).2.edges = g.edges := by
  unfold intern
  split <;> rfl

theorem lists_intern (g : Graph) (t : Term) : (g.intern t).2.lists = g.lists := by
  unfold intern
  split <;> rfl

theorem nextLabel_intern (g : Graph) (t : Term) : (g.intern t).2.nextLabel = g.nextLabel := by
  unfold intern
  split <;> rfl

theorem objects_intern (g : Graph) (t : Term) (s : NodeId) (p : String) :
    (g.intern t).2.objects s p = g.objects s p := by
  rw [objects, objects, outgoing, outgoing, edges_intern]

theorem list?_intern (g : Graph) (t : Term) (i : NodeId) :
    (g.intern t).2.list? i = g.list? i := by
  rw [list?, list?, lists_intern]

theorem size_le_intern (g : Graph) (t : Term) : g.size ≤ (g.intern t).2.size := by
  unfold intern
  split
  · exact Nat.le_refl _
  · simp [size]

theorem Sound.intern (h : g.Sound) (t : Term) : (g.intern t).2.Sound where
  index {u i} := by
    cases ht : g.index[t]? with
    | some j =>
        rw [intern_found ht]
        exact h.index
    | none =>
        have hnew : i = g.terms.size -> g.terms[i]? = none := by
          rintro rfl
          simp
        rw [index_intern, intern_new ht, Array.getElem?_push]
        split
        · next hu =>
            subst hu
            split
            · next hi => simp [hi]
            · next hi =>
                rw [← h.index, ht]
                simp [Ne.symm hi]
        · next hu =>
            split
            · next hi =>
                rw [h.index, hnew hi]
                simp [Ne.symm hu]
            · exact h.index
  labels {n} hn := by
    rw [nextLabel_intern] at hn
    rw [index_intern]
    split
    · exact Option.some_ne_none _
    · exact h.labels hn
  edges hs := by
    rw [edges_intern] at hs
    exact h.edges hs

theorem Sound.intern_lt (h : g.Sound) (t : Term) : (g.intern t).1 < (g.intern t).2.size := by
  have hindex : (g.intern t).2.index[t]? = some (g.intern t).1 := by
    rw [index_intern, if_pos rfl]
  exact (Array.getElem?_eq_some_iff.mp ((h.intern t).index.mp hindex)).1

theorem Closed.intern (h : g.Closed) (t : Term) : (g.intern t).2.Closed where
  edges hs := by
    rw [edges_intern] at hs
    have hle := size_le_intern g t
    exact ⟨Nat.lt_of_lt_of_le (h.edges hs).1 hle,
      fun e he => Nat.lt_of_lt_of_le ((h.edges hs).2 e he) hle⟩
  lists hi := by
    rw [lists_intern] at hi
    have hle := size_le_intern g t
    exact ⟨Nat.lt_of_lt_of_le (h.lists hi).1 hle,
      fun j hj => Nat.lt_of_lt_of_le ((h.lists hi).2 j hj) hle⟩

/-!
# Blank labels
-/

theorem blankLabel_inj {n m : Nat} (h : blankLabel n = blankLabel m) : n = m := by
  have hlists : 'b' :: n.repr.toList = 'b' :: m.repr.toList := by
    have htext := congrArg String.toList h
    simpa [blankLabel] using htext
  exact Nat.repr_injective (String.toList_inj.mp (List.cons.inj hlists).2)

def Taken (g : Graph) (n : Nat) : Prop :=
  g.index[Term.blank (blankLabel n)]? ≠ none

theorem contains_iff_taken (n : Nat) :
    g.index.contains (.blank (blankLabel n)) = true <-> g.Taken n := by
  rw [Std.TreeMap.contains_eq_isSome_getElem?, Option.isSome_iff_ne_none, Taken]

theorem unusedLabel_spec (g : Graph) (steps n : Nat) :
    (forall k, n ≤ k -> k < g.unusedLabel steps n -> g.Taken k) ∧
      n ≤ g.unusedLabel steps n ∧
      (g.unusedLabel steps n = n + steps ∨ ¬ g.Taken (g.unusedLabel steps n)) := by
  induction steps generalizing n with
  | zero =>
      rw [unusedLabel]
      exact ⟨fun k hk hlt => absurd hk (Nat.not_le.mpr hlt), Nat.le_refl n, Or.inl rfl⟩
  | succ steps ih =>
      rw [unusedLabel]
      split
      · next htaken =>
          rcases ih (n + 1) with ⟨hbelow, hle, hend⟩
          refine ⟨fun k hk hlt => ?_, by omega, hend.imp_left fun h => by omega⟩
          by_cases hkn : k = n
          · subst hkn
            exact (contains_iff_taken k).mp htaken
          · exact hbelow k (by omega) hlt
      · next htaken =>
          refine ⟨fun k hk hlt => absurd hk (Nat.not_le.mpr hlt), Nat.le_refl n, Or.inr ?_⟩
          exact fun h => htaken ((contains_iff_taken n).mpr h)

theorem Sound.exists_unused (h : g.Sound) (n : Nat) :
    exists k, n ≤ k ∧ k < n + (g.terms.size + 1) ∧ ¬ g.Taken k := by
  -- Otherwise different labels, one more than there are terms, would belong to different terms.
  by_contra hnone
  have htaken (k : Fin (g.terms.size + 1)) :
      exists i : Fin g.terms.size, g.terms[i.1]? = some (.blank (blankLabel (n + k.1))) := by
    have hk : g.Taken (n + k.1) := by
      by_contra hfree
      exact hnone ⟨n + k.1, by omega, by omega, hfree⟩
    rcases Option.ne_none_iff_exists'.mp hk with ⟨i, hi⟩
    have hterm := h.index.mp hi
    exact ⟨⟨i, (Array.getElem?_eq_some_iff.mp hterm).1⟩, hterm⟩
  choose f hf using htaken
  have hinjective : Function.Injective f := by
    intro k m hkm
    have hterm := hf k
    rw [hkm, hf m] at hterm
    have hlabel : n + m.1 = n + k.1 := blankLabel_inj (Term.blank.inj (Option.some.inj hterm))
    exact Fin.ext (by omega)
  have hcard := Fintype.card_le_of_injective f hinjective
  rw [Fintype.card_fin, Fintype.card_fin] at hcard
  omega

def FirstUnused (g : Graph) (n : Nat) : Prop :=
  ¬ g.Taken n ∧ forall k, k < n -> g.Taken k

theorem FirstUnused.unique {n m : Nat} (hn : g.FirstUnused n) (hm : g.FirstUnused m) : n = m := by
  rcases Nat.lt_trichotomy n m with hlt | heq | hlt
  · exact absurd (hm.2 n hlt) hn.1
  · exact heq
  · exact absurd (hn.2 m hlt) hm.1

theorem Sound.firstUnused (h : g.Sound) :
    g.FirstUnused (g.unusedLabel (g.terms.size + 1) g.nextLabel) := by
  rcases unusedLabel_spec g (g.terms.size + 1) g.nextLabel with ⟨hbelow, hle, hend⟩
  constructor
  · rcases hend with hlast | hunused
    · rcases h.exists_unused g.nextLabel with ⟨k, hk, hlt, hfree⟩
      exact absurd (hbelow k hk (by omega)) hfree
    · exact hunused
  · intro k hk
    by_cases hcounter : k < g.nextLabel
    · exact h.labels hcounter
    · exact hbelow k (Nat.not_lt.mp hcounter) hk

theorem Sound.freshBlank_eq (h : g.Sound) : exists n, g.FirstUnused n ∧
    g.freshBlank = ((g.intern (.blank (blankLabel n))).1,
      { (g.intern (.blank (blankLabel n))).2 with nextLabel := n + 1 }) := by
  refine ⟨_, h.firstUnused, ?_⟩
  unfold Graph.freshBlank Graph.intern
  dsimp only
  split <;> rfl

theorem Sound.freshBlank (h : g.Sound) : g.freshBlank.2.Sound := by
  rcases h.freshBlank_eq with ⟨n, hn, heq⟩
  rw [heq]
  have hintern := h.intern (.blank (blankLabel n))
  refine ⟨hintern.index, fun {m} hm => ?_, hintern.edges⟩
  show (g.intern (.blank (blankLabel n))).2.index[Term.blank (blankLabel m)]? ≠ none
  rw [index_intern g (.blank (blankLabel n)) (.blank (blankLabel m))]
  split
  · exact Option.some_ne_none _
  · next hne =>
      have hmn : m ≠ n := by
        rintro rfl
        exact hne rfl
      exact hn.2 m (by dsimp only at hm; omega)

theorem Sound.freshBlank_lt (h : g.Sound) : g.freshBlank.1 < g.freshBlank.2.size := by
  rcases h.freshBlank_eq with ⟨n, -, heq⟩
  rw [heq]
  exact h.intern_lt _

theorem Sound.size_le_freshBlank (h : g.Sound) : g.size ≤ g.freshBlank.2.size := by
  rcases h.freshBlank_eq with ⟨n, -, heq⟩
  rw [heq]
  exact size_le_intern g _

theorem Closed.freshBlank (h : g.Closed) (hsound : g.Sound) : g.freshBlank.2.Closed := by
  rcases hsound.freshBlank_eq with ⟨n, -, heq⟩
  rw [heq]
  exact ⟨(h.intern _).edges, (h.intern _).lists⟩

/-!
# Edges and lists
-/

theorem outgoing_eq (g : Graph) (s : NodeId) : g.outgoing s = (g.edges[s]?).getD #[] :=
  Std.TreeMap.getD_eq_getD_getElem?

theorem getElem?_edges_addEdge (g : Graph) (s : NodeId) (p : String) (o u : NodeId) :
    (g.addEdge s p o).edges[u]? =
      if u = s then some ((g.outgoing s).push ⟨p, o⟩) else g.edges[u]? := by
  unfold addEdge
  dsimp only
  rw [Table.getElem?_insert]

theorem outgoing_addEdge (g : Graph) (s : NodeId) (p : String) (o u : NodeId) :
    (g.addEdge s p o).outgoing u =
      if u = s then (g.outgoing s).push ⟨p, o⟩ else g.outgoing u := by
  rw [outgoing_eq, getElem?_edges_addEdge]
  split
  · rfl
  · exact (outgoing_eq g u).symm

theorem objects_addEdge (g : Graph) (s : NodeId) (p : String) (o u : NodeId) (q : String) :
    (g.addEdge s p o).objects u q =
      if u = s ∧ q = p then g.objects u q ++ [o] else g.objects u q := by
  unfold objects
  rw [outgoing_addEdge]
  by_cases hu : u = s
  · subst hu
    by_cases hq : q = p
    · subst hq
      simp
    · have hne : ¬ p = q := fun h => hq h.symm
      simp [hq, hne]
  · simp [hu]

theorem Sound.addEdge (h : g.Sound) (s : NodeId) (p : String) (o : NodeId) :
    (g.addEdge s p o).Sound where
  index := h.index
  labels := h.labels
  edges {u es} hu := by
    rw [getElem?_edges_addEdge] at hu
    split at hu
    · cases hu
      exact Array.push_ne_empty
    · exact h.edges hu

theorem Closed.addEdge (h : g.Closed) {s : NodeId} (hs : s < g.size) (p : String) {o : NodeId}
    (ho : o < g.size) : (g.addEdge s p o).Closed where
  edges {u es} hu := by
    rw [getElem?_edges_addEdge] at hu
    split at hu
    · next heq =>
        subst heq
        cases hu
        refine ⟨hs, fun e he => ?_⟩
        rcases Array.mem_push.mp he with hold | rfl
        · rw [outgoing_eq] at hold
          cases hes : g.edges[u]? with
          | none =>
              rw [hes] at hold
              simp at hold
          | some es =>
              rw [hes] at hold
              exact (h.edges hes).2 e hold
        · exact ho
    · exact h.edges hu
  lists := h.lists

theorem list?_setList (g : Graph) (i : NodeId) (items : List NodeId) (u : NodeId) :
    (g.setList i items).list? u = if u = i then some items else g.list? u := by
  unfold setList list?
  dsimp only
  rw [Table.getElem?_insert]

theorem Sound.setList (h : g.Sound) (i : NodeId) (items : List NodeId) :
    (g.setList i items).Sound :=
  ⟨h.index, h.labels, h.edges⟩

theorem Closed.setList (h : g.Closed) {i : NodeId} (hi : i < g.size) {items : List NodeId}
    (hitems : forall j, j ∈ items -> j < g.size) : (g.setList i items).Closed where
  edges := h.edges
  lists {u items'} hu := by
    have hlist : (g.setList i items).list? u = some items' := hu
    rw [list?_setList] at hlist
    split at hlist
    · next heq =>
        subst heq
        cases hlist
        exact ⟨hi, hitems⟩
    · exact h.lists hlist

end Graph
end Wiring
