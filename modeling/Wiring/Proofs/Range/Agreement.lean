import Wiring.Proofs.Generics.References

/-!
# Checks on two contexts

Two runs of a check give the same answer if their contexts are related in a way that
checks keep up.  What a check reads of a context, and how many generic type
parameters it has to follow, are questions about two such runs.
-/

namespace Wiring
namespace Checking

/-- The runs of two checks give one answer and leave related contexts, or the first one does not end
and may be endless. -/
inductive Matches {α : Type} (endless : Prop) (rel : Generics → Generics → Prop) :
    Except Rejection α × Generics → Except Rejection α × Generics → Prop where
  | same (answer : Except Rejection α) {c d : Generics} (h : rel c d) :
      Matches endless rel (answer, c) (answer, d)
  | lost (h : endless) (name : String) (c : Generics) (other : Except Rejection α × Generics) :
      Matches endless rel (.error (.endless name), c) other

def Agree {α : Type} (endless : Prop) (rel : Generics → Generics → Prop) (x y : Checking α) : Prop :=
  forall c d, rel c d -> Matches endless rel (Wiring.outcome x c) (Wiring.outcome y d)

variable {α β : Type} {endless : Prop} {rel : Generics → Generics → Prop}

theorem Matches.of_ends {p q : Except Rejection α × Generics} (h : Matches endless rel p q)
    (hends : endless -> forall name, p.1 ≠ .error (.endless name)) : p.1 = q.1 ∧ rel p.2 q.2 := by
  cases h with
  | same answer h => exact ⟨rfl, h⟩
  | lost h name c other => exact absurd rfl (hends h name)

namespace Agree

theorem pure (a : α) : Agree endless rel (Pure.pure a) (Pure.pure a) :=
  fun _ _ h => .same _ h

theorem refuse (report : Report) :
    Agree endless rel (refuse report : Checking α) (Checking.refuse report) :=
  fun _ _ h => .same _ h

theorem lost (h : endless) (name : String) (y : Checking α) :
    Agree endless rel (throw (.endless name)) y :=
  fun c _ _ => .lost h name c _

theorem bind {x y : Checking α} {k l : α -> Checking β} (h : Agree endless rel x y)
    (hk : forall a, Agree endless rel (k a) (l a)) : Agree endless rel (x >>= k) (y >>= l) := by
  intro c d hcd
  have hfirst := h c d hcd
  rw [outcome_bind, outcome_bind]
  generalize Wiring.outcome x c = p at hfirst
  generalize Wiring.outcome y d = q at hfirst
  cases hfirst with
  | lost h name c other => exact .lost h name c _
  | same answer h =>
      cases answer with
      | error e => exact .same _ h
      | ok a => exact hk a _ _ h

theorem within {x y : Checking α} (h : Agree endless rel x y) (wrap : Report → Report) :
    Agree endless rel (x.within wrap) (y.within wrap) := by
  intro c d hcd
  have hfirst := h c d hcd
  rw [outcome_within, outcome_within]
  generalize Wiring.outcome x c = p at hfirst
  generalize Wiring.outcome y d = q at hfirst
  cases hfirst with
  | lost h name c other => exact .lost h name c _
  | same answer h =>
      cases answer with
      | error e => exact .same _ h
      | ok a => exact .same _ h

theorem outcome {x y : Checking α} (h : Agree endless rel x y) :
    Agree endless rel x.outcome y.outcome := by
  intro c d hcd
  have hfirst := h c d hcd
  rw [outcome_outcome, outcome_outcome]
  generalize Wiring.outcome x c = p at hfirst
  generalize Wiring.outcome y d = q at hfirst
  cases hfirst with
  | lost h name c other => exact .lost h name c _
  | same answer h =>
      rcases answer with (report | name) | a
      · exact .same _ h
      · exact .same _ h
      · exact .same _ h

theorem compatible : Compatible (ι := Unit) fun x y => Agree endless rel (x ()) y where
  pure := pure
  refuse := refuse
  bind := bind
  within wrap h := h.within wrap
  outcome := outcome

end Agree

end Checking

namespace Range

open Checking (Agree Matches)

variable {g : Graph} {v : Observed} {r : Range} {c : Generics} {endless : Prop}
  {rel : Generics → Generics → Prop}

variable {onGeneric onGeneric' : String → Observed → Checking (Option Scalar)}

theorem agree_checkWith (r : Range)
    (hgeneric : forall name, r.Mentions name ->
      forall v, Agree endless rel (onGeneric name v) (onGeneric' name v)) (v : Observed) :
    Agree endless rel (checkWith g onGeneric v r) (checkWith g onGeneric' v r) :=
  @compatible_checkWith Unit (fun x y => Agree endless rel (x ()) y) g (fun _ => onGeneric) onGeneric'
    Agree.compatible r hgeneric v

/-!
# Ranges without generic type parameters
-/

mutual

theorem not_mentions_of_concrete (r : Range) (hr : r.Concrete) (name : String) :
    ¬ r.Mentions name := by
  cases r with
  | generic n => exact hr.elim
  | union members => exact not_anyMentions_of_allConcrete members hr name
  | intersection members => exact not_anyMentions_of_allConcrete members hr name
  | tuple members => exact not_anyMentions_of_allConcrete members hr name
  | array inner => exact not_mentions_of_concrete inner hr name
  | rest inner => exact not_mentions_of_concrete inner hr name
  | _ => exact id

theorem not_anyMentions_of_allConcrete (rs : List Range) (hrs : AllConcrete rs) (name : String) :
    ¬ AnyMentions name rs := by
  cases rs with
  | nil => exact id
  | cons r rs =>
      intro h
      rcases h with h | h
      · exact not_mentions_of_concrete r hrs.1 name h
      · exact not_anyMentions_of_allConcrete rs hrs.2 name h

end

theorem outcome_check_concrete {r : Range} (hr : r.Concrete) (v : Observed) :
    exists answer, forall c, outcome (check g v r) c = (answer, c) := by
  exists (outcome (check g v r) (.ofScope [])).1
  intro c
  rcases exists_links g v r (.ofScope []) with ⟨links, hrun⟩
  rcases exists_links g v r c with ⟨links', hrun'⟩
  have hagree : Agree False (fun _ _ => True) (checkWith g (genericWithin g links) v r)
      (checkWith g (genericWithin g links') v r) :=
    agree_checkWith r (fun name h => (not_mentions_of_concrete r hr name h).elim) v
  have hanswer := ((hagree (.ofScope []) c trivial).of_ends fun h => h.elim).1
  rw [← checkWithin_eq, ← checkWithin_eq, ← hrun, ← hrun'] at hanswer
  exact Prod.ext hanswer.symm ((decides_check hr v).still c)

/-!
# Generic type parameters
-/

theorem agree_checkGeneric {onBinding onBinding' : Observed → Range → Checking (Option Scalar)}
    {name : String} {v : Observed}
    (hsame : forall c d, rel c d -> d.scope = c.scope ∧ d.binding? name = c.binding? name)
    (hinfer : forall c d, rel c d -> name ∈ c.scope -> c.binding? name = none ->
      rel (c.inferFrom g name v) (d.inferFrom g name v))
    (hnarrow : forall c d c' d' existing, rel c d -> name ∈ c.scope ->
      c.binding? name = some existing -> rel c' d' ->
      rel (c'.narrowBy g name existing v) (d'.narrowBy g name existing v))
    (hbinding : forall c d r, rel c d -> name ∈ c.scope -> c.binding? name = some r ->
      Agree endless rel (onBinding v r) (onBinding' v r)) :
    Agree endless rel (checkGeneric g onBinding name v) (checkGeneric g onBinding' name v) := by
  intro c d hcd
  have hrequirement : d.requirement? name = c.requirement? name := by
    unfold Generics.requirement? Generics.inScope
    rw [(hsame c d hcd).1, (hsame c d hcd).2]
  rw [outcome_checkGeneric, outcome_checkGeneric, hrequirement]
  dsimp only
  cases hrequired : c.requirement? name with
  | error report => exact .same _ hcd
  | ok required =>
      rcases Generics.requirement?_eq_ok hrequired with ⟨hscope, hbound⟩
      have hmem : name ∈ c.scope := List.contains_iff_mem.mp hscope
      cases required with
      | none =>
          have hinferred := hinfer c d hcd hmem hbound
          have hmem' : name ∈ (c.inferFrom g name v).scope := by
            rw [Generics.scope_inferFrom]
            exact hmem
          dsimp only
          rw [(hsame _ _ hinferred).2]
          cases hbinding' : (c.inferFrom g name v).binding? name with
          | none => exact .same _ hinferred
          | some bound =>
              exact (hbinding _ _ bound hinferred hmem' hbinding').within _ _ _ hinferred
      | some existing =>
          have hfirst := hbinding c d existing hcd hmem hbound c d hcd
          dsimp only
          generalize outcome (onBinding v existing) c = p at hfirst
          generalize outcome (onBinding' v existing) d = q at hfirst
          cases hfirst with
          | lost h name c other => exact .lost h name c _
          | same answer h =>
              cases answer with
              | error e => exact .same _ h
              | ok cast => exact .same _ (hnarrow c d _ _ existing hcd hmem hbound h)

end Range
end Wiring
