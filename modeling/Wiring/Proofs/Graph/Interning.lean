import Wiring.Proofs.Graph.Import

/-!
# Numbers of terms

A term has one number, which it keeps whatever is done to the graph.  Inserting it
again changes nothing, and a new blank node has a label that no term has had.
-/

namespace Wiring
namespace Graph

variable {g : Graph}

/-!
# Insertion
-/

theorem Sound.intern_present (h : g.Sound) {t : Term} {i : NodeId} (ht : g.term? i = some t) :
    g.intern t = (i, g) :=
  intern_found (h.index.mpr ht)

theorem Sound.intern_absent (h : g.Sound) {t : Term} (ht : forall i, g.term? i ≠ some t) :
    (g.intern t).1 = g.size ∧ (g.intern t).2.terms = g.terms.push t := by
  have hnone : g.index[t]? = none := by
    cases hindex : g.index[t]? with
    | none => rfl
    | some i => exact absurd (h.index.mp hindex) (ht i)
  rw [intern_new hnone]
  exact ⟨rfl, rfl⟩

/-!
# Blank labels
-/

/-- The search for an unused label goes from number to number and ends with the last one here. -/
inductive SearchEnds (g : Graph) : Nat → Nat → Prop where
  | unused {n : Nat} (h : ¬ g.Taken n) : SearchEnds g n n
  | taken {n last : Nat} (h : g.Taken n) (rest : SearchEnds g (n + 1) last) : SearchEnds g n last

theorem searchEnds_unusedLabel {steps n : Nat} (h : ¬ g.Taken (g.unusedLabel steps n)) :
    g.SearchEnds n (g.unusedLabel steps n) := by
  induction steps generalizing n with
  | zero => exact .unused h
  | succ steps ih =>
      rw [unusedLabel] at h ⊢
      split
      · next htaken =>
          rw [if_pos htaken] at h
          exact .taken ((contains_iff_taken n).mp htaken) (ih h)
      · next hfree =>
          exact .unused fun htaken => hfree ((contains_iff_taken n).mpr htaken)

theorem Sound.absent_of_not_taken (h : g.Sound) {n : Nat} (hn : ¬ g.Taken n) (i : NodeId) :
    g.term? i ≠ some (.blank (blankLabel n)) := by
  intro hterm
  apply hn
  unfold Taken
  rw [h.index.mpr hterm]
  exact Option.some_ne_none i

theorem Sound.freshBlank_terms (h : g.Sound) :
    exists n, g.SearchEnds g.nextLabel n ∧ (forall i, g.term? i ≠ some (.blank (blankLabel n))) ∧
      g.freshBlank.1 = g.size ∧ g.freshBlank.2.terms = g.terms.push (.blank (blankLabel n)) := by
  have hunused := h.firstUnused
  have habsent := h.absent_of_not_taken hunused.1
  rcases h.freshBlank_eq with ⟨n, hn, heq⟩
  rw [heq, hn.unique hunused]
  exact ⟨_, searchEnds_unusedLabel hunused.1, habsent, h.intern_absent habsent⟩

/-!
# Operations
-/

theorem Sound.run_terms (h : g.Sound) (op : Operation) : (op.run g).2.terms = g.terms ∨
    exists t, (forall i, g.term? i ≠ some t) ∧ (op.run g).2.terms = g.terms.push t := by
  have hintern (t : Term) : (g.intern t).2.terms = g.terms ∨
      exists t', (forall i, g.term? i ≠ some t') ∧ (g.intern t).2.terms = g.terms.push t' := by
    by_cases ht : exists i, g.term? i = some t
    · rcases ht with ⟨i, hi⟩
      rw [h.intern_present hi]
      exact Or.inl rfl
    · have habsent : forall i, g.term? i ≠ some t := fun i hi => ht ⟨i, hi⟩
      exact Or.inr ⟨t, habsent, (h.intern_absent habsent).2⟩
  have hfresh : exists t, (forall i, g.term? i ≠ some t) ∧
      g.freshBlank.2.terms = g.terms.push t := by
    rcases h.freshBlank_terms with ⟨n, -, habsent, -, hterms⟩
    exact ⟨_, habsent, hterms⟩
  cases op with
  | intern t => exact hintern t
  | freshBlank => exact Or.inr hfresh
  | addEdge subject predicate object => exact Or.inl rfl
  | addNamed subject predicate iri => exact hintern (.named iri)
  | addType subject iri => exact hintern (.named iri)
  | setList node items => exact Or.inl rfl
  | freshList items => exact Or.inr hfresh

theorem Sound.run_term? (h : g.Sound) (op : Operation) {i : NodeId} {t : Term}
    (hi : g.term? i = some t) : (op.run g).2.term? i = some t := by
  have hlt : i < g.terms.size := (Array.getElem?_eq_some_iff.mp hi).1
  unfold term? at hi ⊢
  rcases h.run_terms op with hsame | ⟨t', -, hpush⟩
  · rw [hsame, hi]
  · rw [hpush, Array.getElem?_push, if_neg (Nat.ne_of_lt hlt), hi]

theorem Sound.runAll_term? (h : g.Sound) (ops : List Operation) {i : NodeId} {t : Term}
    (hi : g.term? i = some t) : (g.runAll ops).2.term? i = some t := by
  induction ops generalizing g with
  | nil => exact hi
  | cons op rest ih => exact ih (h.run op) (h.run_term? op hi)

/-- After any operations no term is there twice, each one is found under its number, and it keeps the
number in all operations to come.  An operation adds at most one term.  A term that is there is not
inserted again, and one that is not gets the next number.  The search for the label of a new blank node
ends with one that no term has, so that the node is new. -/
theorem terms_interned (g : Graph) (h : g.Built) :
    g.terms.toList.Nodup ∧
    (forall t i, g.lookup? t = some i <-> g.term? i = some t) ∧
    (forall ops i t, g.term? i = some t -> (g.runAll ops).2.term? i = some t) ∧
    (forall op, (Operation.run g op).2.terms = g.terms ∨
      exists t, (forall i, g.term? i ≠ some t) ∧ (op.run g).2.terms = g.terms.push t) ∧
    (forall t i, g.term? i = some t -> g.intern t = (i, g)) ∧
    (forall t, (forall i, g.term? i ≠ some t) ->
      (g.intern t).1 = g.size ∧ (g.intern t).2.terms = g.terms.push t) ∧
    exists n, g.SearchEnds g.nextLabel n ∧
      (forall i, g.term? i ≠ some (.blank (blankLabel n))) ∧
      g.freshBlank.1 = g.size ∧ g.freshBlank.2.terms = g.terms.push (.blank (blankLabel n)) := by
  have hg := h.sound
  exact ⟨Document.nodup_terms hg, fun t i => hg.index, fun ops i t => hg.runAll_term? ops, hg.run_terms,
    fun t i => hg.intern_present, fun t => hg.intern_absent, hg.freshBlank_terms⟩

/-- Labels that are given by hand, before and after the first one that is not: it is `b1`, and the next
one cannot be `b2` or `b3`. -/
def labelled : List Operation :=
  [.intern (.blank "b0"), .intern (.named "b1"), .freshBlank, .intern (.blank "b3"),
   .intern (.blank "b2")]

theorem terms_interned_labelled :
    (empty.runAll labelled).2.Built ∧
    (empty.runAll labelled).2.intern (.blank "b0") = (0, (empty.runAll labelled).2) ∧
    ((empty.runAll labelled).2.intern (.named "b4")).1 = 5 ∧
    ((empty.runAll labelled).2.runAll [.freshList [2], .intern (.blank "b5")]).2.term? 2 =
      some (.blank "b1") ∧
    exists n, (empty.runAll labelled).2.SearchEnds 2 n ∧
      (empty.runAll labelled).2.freshBlank.2.term? 5 = some (.blank (blankLabel n)) := by
  have hbuilt : (empty.runAll labelled).2.Built := ⟨empty, labelled, Or.inl rfl, rfl⟩
  have hterms : (empty.runAll labelled).2.terms = #[.blank "b0", .named "b1", .blank "b1",
      .blank "b3", .blank "b2"] := by decide +kernel
  have hcounter : (empty.runAll labelled).2.nextLabel = 2 := by decide +kernel
  have hsize : (empty.runAll labelled).2.size = 5 := congrArg Array.size hterms
  have hterm (i : NodeId) : (empty.runAll labelled).2.term? i =
      #[.blank "b0", .named "b1", .blank "b1", .blank "b3", .blank "b2"][i]? := by
    rw [term?, hterms]
  have habsent (i : NodeId) : (empty.runAll labelled).2.term? i ≠ some (.named "b4") := by
    rw [hterm]
    intro h
    have hmem := Array.mem_of_getElem? h
    simp at hmem
  rcases terms_interned _ hbuilt with ⟨-, -, hkept, -, hpresent, hnew, n, hsearch, -, -, hfresh⟩
  refine ⟨hbuilt, hpresent _ 0 (hterm 0), ?_, hkept _ 2 _ (hterm 2), n, hcounter ▸ hsearch, ?_⟩
  · rw [(hnew _ habsent).1, hsize]
  · rw [term?, hfresh, hterms]
    rfl

end Graph
end Wiring
