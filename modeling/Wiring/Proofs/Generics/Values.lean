import Wiring.Proofs.Generics.Termination
import Wiring.Proofs.Range.Alternatives
import Wiring.Proofs.Range.Parts

/-!
# Values of generic type parameters

A value that is accepted for a generic type parameter leaves a binding there: the range
that it has of itself, or what that range narrows the old binding to.  Both say nothing
of other generic type parameters.
-/

namespace Wiring
namespace Range

variable {g : Graph} {v : Observed} {r s m : Range}

/-!
# What values narrow
-/

def NarrowsTo (g : Graph) (v : Observed) (r m : Range) : Prop :=
  exists s, v.inferredRange? g = some s ∧ merge g.isSubclassOf r s = .ok m

theorem NarrowsTo.eq {m' : Range} (h : NarrowsTo g v r m) (h' : NarrowsTo g v r m') : m = m' := by
  rcases h with ⟨s, hs, hmerge⟩
  rcases h' with ⟨s', hs', hmerge'⟩
  rw [hs] at hs'
  cases hs'
  rw [hmerge] at hmerge'
  cases hmerge'
  rfl

theorem narrowBy_of_narrowsTo (h : NarrowsTo g v r m) (c : Generics) (name : String) :
    c.narrowBy g name r v = c.assign name m := by
  rcases h with ⟨s, hs, hmerge⟩
  unfold Generics.narrowBy
  rw [hs]
  dsimp only
  rw [hmerge]

theorem narrowBy_of_not_narrowsTo (h : forall m, ¬ NarrowsTo g v r m) (c : Generics)
    (name : String) : c.narrowBy g name r v = c := by
  unfold Generics.narrowBy
  cases hs : v.inferredRange? g with
  | none => rfl
  | some s =>
      dsimp only
      cases hmerge : merge g.isSubclassOf r s with
      | error cause => rfl
      | ok m => exact absurd ⟨s, hs, hmerge⟩ (h m)

theorem Merges.concrete_of_plain {isSubtype : String → String → Bool} (h : Merges isSubtype r s m)
    (hs : s.Plain) : m.Concrete := by
  induction h with
  | wildcardLeft b => exact hs.concrete
  | wildcardRight a => exact hs.elim
  | genericLeft name b => exact hs.concrete
  | genericRight a name => exact hs.elim
  | undefined => trivial
  | literalLeft h => trivial
  | literalRight h => trivial
  | typeLeft h => trivial
  | typeRight h => trivial
  | union hleft hright h ih =>
      apply allConcrete_iff.mpr
      intro m hm
      rcases getElem?_of_mem_merged hleft hright hm with ⟨i, x, y, hx, hy, hi⟩
      apply ih i x y m hx hy hi
      rcases hs y (List.mem_of_getElem? hy) with ⟨iri, rfl⟩
      trivial
  | intersection hleft hright h ih => exact hs.elim
  | tuple hleft hright h ih => exact hs.elim
  | array h ih => exact hs.elim
  | rest h ih => exact hs.elim
  | keyof h ih => exact hs.elim
  | left hb hms source hsource h ih => exact allConcrete_iff.mpr fun m hm => ih m hm hs
  | right ha hms source hsource h ih =>
      apply allConcrete_iff.mpr
      intro m hm
      apply ih m hm
      rcases hs _ (hsource m hm) with ⟨iri, hiri⟩
      rw [hiri]
      trivial

theorem NarrowsTo.concrete (h : NarrowsTo g v r m) : m.Concrete := by
  rcases h with ⟨s, hs, hmerge⟩
  exact (merges_of_merge r s hmerge).concrete_of_plain (Observed.plain_inferredRange? hs)

theorem Merges.eq_or_eq {isSubtype : String → String → Bool} (h : Merges isSubtype r s m)
    (hs : s.Plain) (hr : forall members, r ≠ Range.union members)
    (hs' : forall members, s ≠ Range.union members) : m = s ∨ m = r ∧ r.Concrete := by
  cases h with
  | wildcardLeft b => exact Or.inl rfl
  | wildcardRight a => exact hs.elim
  | genericLeft name b => exact Or.inl rfl
  | genericRight a name => exact hs.elim
  | undefined => exact Or.inl rfl
  | literalLeft h => exact Or.inr ⟨rfl, trivial⟩
  | literalRight h => exact Or.inl rfl
  | typeLeft h => exact Or.inr ⟨rfl, trivial⟩
  | typeRight h => exact Or.inl rfl
  | union hleft hright h => exact absurd rfl (hr _)
  | intersection hleft hright h => exact hs.elim
  | tuple hleft hright h => exact hs.elim
  | array h => exact hs.elim
  | rest h => exact hs.elim
  | keyof h => exact hs.elim
  | left hb hms source hsource h => exact absurd rfl (hr _)
  | right ha hms source hsource h => exact absurd rfl (hs' _)

theorem admits_of_mem_inferred {members : List Range}
    (h : v.inferredRange? g = some (union members)) (hr : r ∈ members) : r.Admits g v := by
  cases v with
  | absent => cases h
  | literal l => cases h
  | node id =>
      unfold Observed.inferredRange? at h
      dsimp only at h
      split at h
      · cases h
      · cases h
      · cases h
        rcases List.mem_map.mp hr with ⟨iri, hiri, rfl⟩
        exact ⟨id, rfl, isA_of_mem_types hiri⟩

theorem NarrowsTo.admits (h : NarrowsTo g v r m) (hlegal : v.Legal)
    (hr : forall members, r ≠ union members) (hv : r.Concrete -> r.Admits g v) : m.Admits g v := by
  rcases h with ⟨s, hs, hmerge⟩
  have hmerges := merges_of_merge r s hmerge
  have hplain := Observed.plain_inferredRange? hs
  by_cases hunion : exists members, s = union members
  · rcases hunion with ⟨members, rfl⟩
    cases hmerges with
    | wildcardLeft b => exact admits_inferredRange hlegal hs
    | genericLeft name b => exact admits_inferredRange hlegal hs
    | union hleft hright h => exact absurd rfl (hr _)
    | left hb hms source hsource h => exact absurd rfl (hb _)
    | right ha hms source hsource h =>
        rcases List.exists_mem_of_ne_nil _ hms with ⟨m, hm⟩
        apply admitsAny_iff.mpr
        exists m
        constructor
        · exact hm
        · rcases hplain _ (hsource m hm) with ⟨iri, hiri⟩
          have hmember := admits_of_mem_inferred hs (hsource m hm)
          have hone := h m hm
          rw [hiri] at hone hmember
          rcases hone.eq_or_eq trivial hr (fun _ h => nomatch h) with rfl | ⟨rfl, hconcrete⟩
          · exact hmember
          · exact hv hconcrete
  · rcases hmerges.eq_or_eq hplain hr (fun members h => hunion ⟨members, h⟩) with
      rfl | ⟨rfl, hconcrete⟩
    · exact admits_inferredRange hlegal hs
    · exact hv hconcrete

/-!
# Checks against generic type parameters
-/

variable {c c' : Generics} {name : String}

theorem inScope_of_leads (h : (check g v (generic name)).Leads c c') : c.inScope name = true := by
  rcases leads_check_unfold.mp h with ⟨cast, hrun⟩
  rw [checkWith, outcome_checkGeneric] at hrun
  cases hscope : c.inScope name with
  | true => rfl
  | false =>
      have hunknown : c.requirement? name = .error (Generics.outOfScope name) :=
        if_neg (by rw [hscope]; exact Bool.false_ne_true)
      rw [hunknown] at hrun
      cases hrun

theorem leads_generic_unbound (hscope : c.inScope name = true) (hunbound : c.binding? name = none) :
    (check g v (generic name)).Leads c c' <->
      (forall s, v.inferredRange? g = some s -> s.Admits g v) ∧ c' = c.inferFrom g name v := by
  rw [leads_check_unfold]
  unfold Checking.Leads Generics.inferFrom
  rw [checkWith, outcome_checkGeneric, requirement?_of_inScope hscope, hunbound]
  dsimp only [Generics.inferFrom]
  cases hs : v.inferredRange? g with
  | none =>
      dsimp only
      rw [hunbound]
      constructor
      · rintro ⟨cast, hrun⟩
        cases hrun
        constructor
        · intro s h
          cases h
        · rfl
      · rintro ⟨-, rfl⟩
        exact ⟨none, rfl⟩
  | some s =>
      dsimp only
      rw [Generics.binding?_assign, if_pos rfl]
      dsimp only
      have hadmits : (forall s', some s = some s' -> s'.Admits g v) <-> s.Admits g v := by simp
      have hdecides := (decides_check (g := g) (Observed.plain_inferredRange? hs).concrete v).within
        (partMismatch g v (generic name) "generic type binding failed") (c.assign name s)
      rw [hadmits]
      rcases hdecides with ⟨hv, cast, hrun⟩ | ⟨hv, report, hrun⟩
      · rw [hrun]
        constructor
        · rintro ⟨_, h⟩
          cases h
          exact ⟨hv, rfl⟩
        · rintro ⟨-, rfl⟩
          exact ⟨cast, rfl⟩
      · rw [hrun]
        constructor
        · rintro ⟨cast, h⟩
          cases h
        · exact fun h => absurd h.1 hv

theorem leads_generic_bound (hscope : c.inScope name = true) (hbound : c.binding? name = some r) :
    (check g v (generic name)).Leads c c' <->
      exists d, (check g v r).Leads c d ∧ c' = d.narrowBy g name r v := by
  rw [leads_check_unfold]
  unfold Checking.Leads
  rw [checkWith, outcome_checkGeneric, requirement?_of_inScope hscope, hbound]
  dsimp only
  rcases hrun : outcome (check g v r) c with ⟨e | cast, d⟩
  · constructor
    · rintro ⟨cast, h⟩
      cases h
    · rintro ⟨d, ⟨cast, h⟩, -⟩
      cases h
  · constructor
    · rintro ⟨_, h⟩
      cases h
      exact ⟨d, ⟨cast, rfl⟩, rfl⟩
    · rintro ⟨_, ⟨_, h⟩, rfl⟩
      cases h
      exact ⟨cast, rfl⟩

theorem accepts_iff_leads : Accepts g c v r <-> exists c', (check g v r).Leads c c' := by
  constructor
  · rintro ⟨cast, c', hrun⟩
    exact ⟨c', cast, hrun⟩
  · rintro ⟨c', cast, hrun⟩
    exact ⟨cast, c', hrun⟩

theorem accepts_generic_bound (hscope : c.inScope name = true) (hbound : c.binding? name = some r) :
    Accepts g c v (generic name) <-> Accepts g c v r := by
  rw [accepts_iff_leads, accepts_iff_leads]
  simp only [leads_generic_bound hscope hbound]
  constructor
  · rintro ⟨c', d, hd, -⟩
    exact ⟨d, hd⟩
  · rintro ⟨d, hd⟩
    exact ⟨_, d, hd, rfl⟩

end Range
end Wiring
