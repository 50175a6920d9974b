import Mathlib.Logic.Relation
import Wiring.Proofs.Range.Compatibility
import Wiring.Proofs.Range.Merging
import Wiring.Proofs.Table

/-!
# Adjustments of bindings

A check changes bindings in two ways only: an unbound generic type parameter is
bound to the range of a value, and a bound one is narrowed by it.  So a check
leads along a path of such adjustments, whether it accepts the value or not.
-/

namespace Wiring

/-!
# Ranges of values
-/

namespace Range

def Plain : Range → Prop
  | undefined | literal _ | type _ => True
  | union members => forall r, r ∈ members -> exists iri, r = type iri
  | _ => False

theorem Plain.concrete {r : Range} (h : r.Plain) : r.Concrete := by
  cases r with
  | undefined => trivial
  | literal datatype => trivial
  | type iri => trivial
  | union members =>
      refine allConcrete_iff.mpr fun r hr => ?_
      rcases h r hr with ⟨iri, rfl⟩
      trivial
  | _ => exact h.elim

end Range

theorem Observed.plain_inferredRange? {g : Graph} {v : Observed} {r : Range}
    (h : v.inferredRange? g = some r) : r.Plain := by
  cases v with
  | absent =>
      cases h
      trivial
  | literal l =>
      cases h
      trivial
  | node id =>
      unfold inferredRange? at h
      dsimp only at h
      split at h
      · cases h
      · cases h
        trivial
      · cases h
        intro r hr
        rcases List.mem_map.mp hr with ⟨iri, -, rfl⟩
        exact ⟨iri, rfl⟩

namespace Generics

/-!
# Bindings as a table
-/

theorem lookup_setEntry (name : String) (r : Range) (entries : List (String × Range))
    (k : String) :
    (setEntry name r entries).lookup k = if k = name then some r else entries.lookup k := by
  induction entries with
  | nil => rw [setEntry, Entries.lookup_cons]
  | cons entry others ih =>
      rcases entry with ⟨name', r'⟩
      rw [setEntry]
      by_cases hname : name' = name
      · rw [if_pos hname, Entries.lookup_cons, Entries.lookup_cons]
        by_cases hk : k = name'
        · rw [if_pos hk, if_pos (hk.trans hname)]
        · rw [if_neg hk, if_neg (hname ▸ hk), if_neg hk]
      · rw [if_neg hname, Entries.lookup_cons, Entries.lookup_cons, ih]
        by_cases hk : k = name'
        · rw [if_pos hk, if_neg (hk ▸ hname), if_pos hk]
        · rw [if_neg hk, if_neg hk]

theorem binding?_assign (c : Generics) (name : String) (r : Range) (k : String) :
    (c.assign name r).binding? k = if k = name then some r else c.binding? k :=
  lookup_setEntry name r c.bindings k

theorem requirement?_eq_ok {c : Generics} {name : String} {required : Option Range}
    (h : c.requirement? name = .ok required) :
    c.inScope name = true ∧ c.binding? name = required := by
  unfold requirement? at h
  split at h
  · next hscope =>
      cases h
      exact ⟨hscope, rfl⟩
  · cases h

def Concrete (c : Generics) : Prop :=
  forall name r, c.binding? name = some r -> r.Concrete

theorem concrete_ofScope (scope : List String) : (ofScope scope).Concrete :=
  fun _ _ h => nomatch h

theorem Concrete.assign {c : Generics} (hc : c.Concrete) (name : String) {r : Range}
    (hr : r.Concrete) : (c.assign name r).Concrete := by
  intro k s hs
  rw [binding?_assign] at hs
  split at hs
  · cases hs
    exact hr
  · exact hc k s hs

/-!
# Adjustments
-/

inductive Adjustment (g : Graph) (c : Generics) : Generics → Prop where
  | infer {name : String} {v : Observed} {r : Range} (hscope : c.inScope name = true)
      (hunbound : c.binding? name = none) (hr : v.inferredRange? g = some r) :
      Adjustment g c (c.assign name r)
  | narrow {name : String} {v : Observed} {existing r narrowed : Range}
      (hscope : c.inScope name = true) (hbound : c.binding? name = some existing)
      (hr : v.inferredRange? g = some r)
      (hmerge : Range.merge g.isSubclassOf existing r = .ok narrowed) :
      Adjustment g c (c.assign name narrowed)

abbrev Adjusts (g : Graph) : Generics → Generics → Prop :=
  Relation.ReflTransGen (Adjustment g)

variable {g : Graph} {c c' : Generics}

theorem Adjustment.concrete (h : Adjustment g c c') (hc : c.Concrete) : c'.Concrete := by
  cases h with
  | infer hscope hunbound hr => exact hc.assign _ (Observed.plain_inferredRange? hr).concrete
  | narrow hscope hbound hr hmerge =>
      refine hc.assign _ ((Range.merges_of_merge _ _ hmerge).concrete (hc _ _ hbound) ?_)
      exact (Observed.plain_inferredRange? hr).concrete

theorem Adjusts.concrete (h : Adjusts g c c') (hc : c.Concrete) : c'.Concrete := by
  induction h with
  | refl => exact hc
  | tail _ hstep ih => exact hstep.concrete ih

theorem adjusts_inferFrom {name : String} (hscope : c.inScope name = true)
    (hunbound : c.binding? name = none) (v : Observed) : Adjusts g c (c.inferFrom g name v) := by
  unfold inferFrom
  split
  · next r hr => exact .single (.infer hscope hunbound hr)
  · exact .refl

theorem adjusts_narrowBy {name : String} {existing : Range} (hscope : c.inScope name = true)
    (hbound : c.binding? name = some existing) (v : Observed) :
    Adjusts g c (c.narrowBy g name existing v) := by
  unfold narrowBy
  split
  · exact .refl
  · next r hr =>
      split
      · next narrowed hmerge => exact .single (.narrow hscope hbound hr hmerge)
      · exact .refl

end Generics

/-!
# Steps of checks
-/

namespace Checking

variable {α β : Type} {g : Graph}

def Still (x : Checking α) : Prop :=
  forall c, (Wiring.outcome x c).2 = c

def Adjusts (g : Graph) (x : Checking α) : Prop :=
  forall c : Generics, c.Concrete -> Generics.Adjusts g c (Wiring.outcome x c).2

theorem Decides.still {x : Checking α} {p : Prop} (h : x.Decides p) : x.Still := by
  intro c
  rcases h c with ⟨-, a, hx⟩ | ⟨-, report, hx⟩
  · rw [hx]
  · rw [hx]

theorem Still.throw (e : Rejection) : Still (throw e : Checking α) :=
  fun _ => rfl

namespace Adjusts

theorem pure (a : α) : Adjusts g (Pure.pure a : Checking α) :=
  fun _ _ => .refl

theorem refuse (report : Report) : Adjusts g (refuse report : Checking α) :=
  fun _ _ => .refl

theorem bind {x : Checking α} {k : α -> Checking β} (hx : Adjusts g x)
    (hk : forall a, Adjusts g (k a)) : Adjusts g (x >>= k) := by
  intro c hc
  have hpath := hx c hc
  rw [outcome_bind]
  rcases hrun : Wiring.outcome x c with ⟨e | a, c'⟩
  · rw [hrun] at hpath
    exact hpath
  · rw [hrun] at hpath
    exact hpath.trans (hk a c' (hpath.concrete hc))

theorem within {x : Checking α} (hx : Adjusts g x) (wrap : Report → Report) :
    Adjusts g (x.within wrap) := by
  intro c hc
  have hpath := hx c hc
  rw [outcome_within]
  rcases hrun : Wiring.outcome x c with ⟨e | a, c'⟩ <;> rw [hrun] at hpath <;> exact hpath

theorem outcome {x : Checking α} (hx : Adjusts g x) : Adjusts g (Checking.outcome x) := by
  intro c hc
  have hpath := hx c hc
  rw [outcome_outcome]
  rcases hrun : Wiring.outcome x c with ⟨(report | generic) | a, c'⟩ <;> rw [hrun] at hpath <;>
    exact hpath

theorem compatible : Compatible (ι := Unit) fun _ x => Adjusts g x where
  pure := pure
  refuse := refuse
  bind := bind
  within wrap h := h.within wrap
  outcome := outcome

end Adjusts
end Checking

namespace Range

variable {g : Graph} {onGeneric : String → Observed → Checking (Option Scalar)}

open Checking (Adjusts Still)

theorem adjusts_checkWith (hgeneric : forall name v, Adjusts g (onGeneric name v)) (r : Range)
    (v : Observed) : Adjusts g (checkWith g onGeneric v r) :=
  @compatible_checkWith Unit (fun _ x => Adjusts g x) g (fun _ => onGeneric) onGeneric
    Adjusts.compatible r (fun name _ => hgeneric name) v

/-!
# Checks against generic type parameters
-/

theorem adjusts_bindValue {α : Type} {name : String} {v : Observed} {validate : Range → Checking α}
    (hvalidate : forall r, r.Concrete -> (validate r).Still) :
    Adjusts g (Generics.bindValue g name v validate) := by
  intro c hc
  unfold Generics.bindValue
  rw [outcome_bind_ok (outcome_get c)]
  cases hrequired : c.requirement? name with
  | error report => exact .refl
  | ok required =>
      rcases Generics.requirement?_eq_ok hrequired with ⟨hscope, hbinding⟩
      cases required with
      | none => exact Generics.adjusts_inferFrom hscope hbinding v
      | some existing =>
          have hstill := hvalidate existing (hc name existing hbinding) c
          dsimp only
          rw [outcome_bind, Checking.outcome_within]
          rcases hrun : outcome (validate existing) c with ⟨e | answer, c'⟩
          · rw [hrun] at hstill
            cases hstill
            exact .refl
          · rw [hrun] at hstill
            cases hstill
            exact Generics.adjusts_narrowBy hscope hbinding v

theorem adjusts_checkGeneric {onBinding : Observed → Range → Checking (Option Scalar)}
    (hbinding : forall v r, r.Concrete -> (onBinding v r).Still) (name : String) (v : Observed) :
    Adjusts g (checkGeneric g onBinding name v) := by
  refine .within (.bind (adjusts_bindValue (hbinding v)) fun answer => ?_) _
  cases answer with
  | some cast => exact .pure cast
  | none =>
      intro c hc
      dsimp only
      rw [outcome_bind_ok (outcome_get c)]
      cases hbound : c.binding? name with
      | none => exact .refl
      | some bound =>
          dsimp only
          rw [hbinding v bound (hc name bound hbound) c]

theorem still_checkWithin (links : Nat) (v : Observed) {r : Range} (hr : r.Concrete) :
    Still (checkWithin g links v r) := by
  cases links with
  | zero =>
      rw [checkWithin]
      exact (decides_checkWith r hr v).still
  | succ links =>
      rw [checkWithin]
      exact (decides_checkWith r hr v).still

theorem adjusts_checkWithin (links : Nat) (v : Observed) (r : Range) :
    Adjusts g (checkWithin g links v r) := by
  cases links with
  | zero =>
      rw [checkWithin]
      refine adjusts_checkWith (fun name v => ?_) r v
      exact adjusts_checkGeneric (fun _ _ _ => .throw (.endless name)) name v
  | succ links =>
      rw [checkWithin]
      exact adjusts_checkWith (adjusts_checkGeneric fun v r hr => still_checkWithin links v hr) r v

theorem adjusts_check (v : Observed) (r : Range) : Adjusts g (check g v r) := by
  intro c hc
  rcases exists_links g v r c with ⟨links, hrun⟩
  rw [hrun]
  exact adjusts_checkWithin links v r c hc

end Range
end Wiring
