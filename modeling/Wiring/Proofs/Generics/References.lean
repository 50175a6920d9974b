import Mathlib.Data.List.Perm.Subperm
import Wiring.Proofs.Generics.Adjustment

/-!
# References between generic type parameters

A generic type parameter refers to those that stand in the range it is bound to.
Checks bind values only, whose ranges refer to nothing.  So they may take away
references but never add any, whether they accept a value or not.
-/

namespace Wiring

theorem length_lt_of_not_mem {α : Type} {chain all : List α} (hchain : chain.Nodup)
    (hall : chain ⊆ all) {a : α} (ha : a ∈ all) (hnew : a ∉ chain) : chain.length < all.length :=
  ((List.nodup_cons.mpr ⟨hnew, hchain⟩).subperm (List.cons_subset.mpr ⟨ha, hall⟩)).length_le

theorem not_transGen_of_rank {α : Type} {R : α → α → Prop} (rank : α → Nat)
    (h : forall a b, R a b -> rank b < rank a) (a : α) : ¬ Relation.TransGen R a a := by
  have hpath {a b : α} (hab : Relation.TransGen R a b) : rank b < rank a := by
    induction hab with
    | single hlast => exact h _ _ hlast
    | tail _ hlast ih => exact Nat.lt_trans (h _ _ hlast) ih
  exact fun ha => Nat.lt_irrefl _ (hpath ha)

/-!
# References of ranges
-/

namespace Range

theorem Plain.not_of_fromParts {P : Range → Prop} (hP : FromParts P) {r : Range} (h : r.Plain) :
    ¬ P r := by
  cases r with
  | union members =>
      intro hmembers
      rcases hP.union.mp hmembers with ⟨r, hr, hp⟩
      rcases h r hr with ⟨iri, rfl⟩
      exact hP.type iri hp
  | undefined => exact hP.undefined
  | literal datatype => exact hP.literal datatype
  | type iri => exact hP.type iri
  | _ => exact h.elim

theorem fromParts_mentions (name : String) : FromParts (Mentions name) where
  undefined := id
  literal _ := id
  type _ := id
  union := anyMentions_iff
  intersection := anyMentions_iff
  tuple := anyMentions_iff
  array := Iff.rfl
  rest := Iff.rfl
  keyof _ h := h.elim

end Range

/-!
# References of bindings
-/

namespace Generics

def Confines (c : Generics) (P : Range → Prop) (holders : String → Prop) : Prop :=
  forall name r, c.binding? name = some r -> P r -> holders name

section Confines

variable {P : Range → Prop} {holders : String → Prop} {g : Graph} {c : Generics} {name : String}

theorem Confines.assign (h : c.Confines P holders) {r : Range} (hr : P r -> holders name) :
    (c.assign name r).Confines P holders := by
  intro name' s hs hp
  rw [binding?_assign] at hs
  split at hs
  · next heq =>
      cases hs
      rw [heq]
      exact hr hp
  · exact h name' s hs hp

theorem Confines.inferFrom (hP : Range.FromParts P) (h : c.Confines P holders) (name : String)
    (v : Observed) : (c.inferFrom g name v).Confines P holders := by
  unfold Generics.inferFrom
  split
  · next r hr =>
      exact h.assign fun hp => ((Observed.plain_inferredRange? hr).not_of_fromParts hP hp).elim
  · exact h

theorem Confines.narrowBy (hP : Range.FromParts P) (h : c.Confines P holders) {existing : Range}
    (hexisting : P existing -> holders name) (v : Observed) :
    (c.narrowBy g name existing v).Confines P holders := by
  unfold Generics.narrowBy
  split
  · exact h
  · next r hr =>
      split
      · next narrowed hmerge =>
          apply h.assign
          intro hp
          rcases (Range.merges_of_merge _ _ hmerge).fromParts hP hp with hp | hp
          · exact hexisting hp
          · exact ((Observed.plain_inferredRange? hr).not_of_fromParts hP hp).elim
      · exact h

end Confines

/-- A check against the first generic type parameter may meet the other one. -/
def Refers (c : Generics) (name other : String) : Prop :=
  exists r, c.binding? name = some r ∧ r.Mentions other

def Acyclic (c : Generics) : Prop :=
  forall name, ¬ Relation.TransGen c.Refers name name

/-- The second context has the scope of the first one, and none but its references. -/
structure Settles (c c' : Generics) : Prop where
  scope : c'.scope = c.scope
  refers {name other : String} : c'.Refers name other -> c.Refers name other

variable {g : Graph} {c c' c'' : Generics} {name : String}

theorem Settles.refl (c : Generics) : c.Settles c :=
  ⟨rfl, id⟩

theorem Settles.trans (h : c.Settles c') (h' : c'.Settles c'') : c.Settles c'' :=
  ⟨h'.scope.trans h.scope, fun hr => h.refers (h'.refers hr)⟩

theorem Settles.acyclic (h : c.Settles c') (hc : c.Acyclic) : c'.Acyclic :=
  fun name hpath => hc name (Relation.TransGen.mono (fun _ _ => h.refers) name name hpath)

theorem acyclic_ofScope (scope : List String) : (ofScope scope).Acyclic := by
  intro name h
  rcases Relation.TransGen.head'_iff.mp h with ⟨_, ⟨_, hbound, _⟩, _⟩
  cases hbound

theorem Settles.confines (h : c.Settles c') (other : String) :
    c'.Confines (Range.Mentions other) fun name => c.Refers name other :=
  fun _ r hr hother => h.refers ⟨r, hr, hother⟩

theorem Settles.of_confines (hscope : c'.scope = c.scope)
    (h : forall other, c'.Confines (Range.Mentions other) fun name => c.Refers name other) :
    c.Settles c' :=
  ⟨hscope, fun ⟨r, hr, hother⟩ => h _ _ r hr hother⟩

theorem scope_inferFrom (g : Graph) (c : Generics) (name : String) (v : Observed) :
    (c.inferFrom g name v).scope = c.scope := by
  unfold Generics.inferFrom
  split <;> rfl

theorem scope_narrowBy (g : Graph) (c : Generics) (name : String) (existing : Range)
    (v : Observed) : (c.narrowBy g name existing v).scope = c.scope := by
  unfold Generics.narrowBy
  split
  · rfl
  · split <;> rfl

theorem Settles.inferFrom (h : c.Settles c') (name : String) (v : Observed) :
    c.Settles (c'.inferFrom g name v) :=
  .of_confines ((scope_inferFrom g c' name v).trans h.scope) fun other =>
    (h.confines other).inferFrom (Range.fromParts_mentions other) name v

theorem Settles.narrowBy (h : c.Settles c') {existing : Range}
    (hexisting : forall other, existing.Mentions other -> c.Refers name other) (v : Observed) :
    c.Settles (c'.narrowBy g name existing v) :=
  .of_confines ((scope_narrowBy g c' name existing v).trans h.scope) fun other =>
    (h.confines other).narrowBy (Range.fromParts_mentions other) (hexisting other) v

end Generics

/-!
# Checks
-/

namespace Checking

variable {α β : Type} {endless : Prop} {inv : Generics → Prop}

/-- The check keeps what holds of the context, and does not end only if it may be endless. -/
def Keeps (endless : Prop) (inv : Generics → Prop) (x : Checking α) : Prop :=
  forall c, inv c ->
    inv (Wiring.outcome x c).2 ∧
      forall name, (Wiring.outcome x c).1 = .error (.endless name) -> endless

abbrev Runs (endless : Prop) (c₀ : Generics) (x : Checking α) : Prop :=
  Keeps endless c₀.Settles x

namespace Keeps

theorem pure (a : α) : Keeps endless inv (Pure.pure a : Checking α) :=
  fun _ hc => ⟨hc, fun _ h => nomatch h⟩

theorem refuse (report : Report) : Keeps endless inv (refuse report : Checking α) :=
  fun _ hc => ⟨hc, fun _ h => nomatch h⟩

theorem throw (h : endless) (e : Rejection) : Keeps endless inv (throw e : Checking α) :=
  fun _ hc => ⟨hc, fun _ _ => h⟩

theorem bind {x : Checking α} {k : α -> Checking β} (hx : Keeps endless inv x)
    (hk : forall a, Keeps endless inv (k a)) : Keeps endless inv (x >>= k) := by
  intro c hc
  have hfirst := hx c hc
  rw [outcome_bind]
  rcases hrun : Wiring.outcome x c with ⟨e | a, c'⟩
  · rw [hrun] at hfirst
    exact ⟨hfirst.1, fun name h => hfirst.2 name (by cases h; rfl)⟩
  · rw [hrun] at hfirst
    exact hk a c' hfirst.1

theorem within {x : Checking α} (hx : Keeps endless inv x) (wrap : Report → Report) :
    Keeps endless inv (x.within wrap) := by
  intro c hc
  have hfirst := hx c hc
  rw [outcome_within]
  rcases hrun : Wiring.outcome x c with ⟨(report | name) | a, c'⟩
  · rw [hrun] at hfirst
    exact ⟨hfirst.1, fun _ h => nomatch h⟩
  · rw [hrun] at hfirst
    exact ⟨hfirst.1, fun _ _ => hfirst.2 name rfl⟩
  · rw [hrun] at hfirst
    exact ⟨hfirst.1, fun _ h => nomatch h⟩

theorem outcome {x : Checking α} (hx : Keeps endless inv x) :
    Keeps endless inv (Checking.outcome x) := by
  intro c hc
  have hfirst := hx c hc
  rw [outcome_outcome]
  rcases hrun : Wiring.outcome x c with ⟨(report | name) | a, c'⟩
  · rw [hrun] at hfirst
    exact ⟨hfirst.1, fun _ h => nomatch h⟩
  · rw [hrun] at hfirst
    exact ⟨hfirst.1, fun _ _ => hfirst.2 name rfl⟩
  · rw [hrun] at hfirst
    exact ⟨hfirst.1, fun _ h => nomatch h⟩

theorem compatible : Compatible (ι := Unit) fun _ x => Keeps endless inv x where
  pure := pure
  refuse := refuse
  bind := bind
  within wrap h := h.within wrap
  outcome := outcome

end Keeps
end Checking

namespace Range

variable {g : Graph} {onGeneric : String → Observed → Checking (Option Scalar)}
  {endless : Prop} {inv : Generics → Prop} {c₀ : Generics}

open Checking (Keeps Runs)

theorem keeps_checkWith (r : Range)
    (hgeneric : forall name, r.Mentions name -> forall v, Keeps endless inv (onGeneric name v))
    (v : Observed) : Keeps endless inv (checkWith g onGeneric v r) :=
  @compatible_checkWith Unit (fun _ x => Keeps endless inv x) g (fun _ => onGeneric) onGeneric
    Keeps.compatible r hgeneric v

/-!
# Checks against generic type parameters
-/

theorem outcome_bindValue {α : Type} (name : String) (v : Observed) (validate : Range → Checking α)
    (c : Generics) : outcome (Generics.bindValue g name v validate) c =
      match c.requirement? name with
      | .error report => (.error (.mismatch report), c)
      | .ok none => (.ok none, c.inferFrom g name v)
      | .ok (some existing) =>
        match outcome (validate existing) c with
        | (.ok answer, d) => (.ok (some answer), d.narrowBy g name existing v)
        | (.error e, d) =>
          (.error (e.within (Generics.valueConflict name existing (v.text g))), d) := by
  unfold Generics.bindValue
  rw [outcome_bind_ok (outcome_get c)]
  cases c.requirement? name with
  | error report => rfl
  | ok required =>
      cases required with
      | none => rfl
      | some existing =>
          dsimp only
          rw [outcome_bind, Checking.outcome_within]
          rcases outcome (validate existing) c with ⟨e | answer, d⟩ <;> rfl

theorem outcome_checkGeneric (onBinding : Observed → Range → Checking (Option Scalar))
    (name : String) (v : Observed) (c : Generics) :
    outcome (checkGeneric g onBinding name v) c =
      let wrap := partMismatch g v (generic name) "generic type binding failed"
      match c.requirement? name with
      | .error report => (.error (.mismatch (wrap report)), c)
      | .ok none =>
        match (c.inferFrom g name v).binding? name with
        | none => (.ok none, c.inferFrom g name v)
        | some bound => outcome ((onBinding v bound).within wrap) (c.inferFrom g name v)
      | .ok (some existing) =>
        match outcome (onBinding v existing) c with
        | (.ok cast, d) => (.ok cast, d.narrowBy g name existing v)
        | (.error e, d) =>
          (.error ((e.within (Generics.valueConflict name existing (v.text g))).within wrap), d) := by
  unfold checkGeneric
  rw [Checking.outcome_within, outcome_bind, outcome_bindValue]
  cases c.requirement? name with
  | error report => rfl
  | ok required =>
      cases required with
      | none =>
          dsimp only
          rw [outcome_bind_ok (outcome_get _)]
          cases (c.inferFrom g name v).binding? name with
          | none => rfl
          | some bound => exact (Checking.outcome_within _ _ _).symm
      | some existing =>
          dsimp only
          rcases outcome (onBinding v existing) c with ⟨e | cast, d⟩ <;> rfl

theorem keeps_checkGeneric {onBinding : Observed → Range → Checking (Option Scalar)} {name : String}
    {v : Observed} (hinfer : forall c, inv c -> name ∈ c.scope -> inv (c.inferFrom g name v))
    (hnarrow : forall c d existing, inv c -> name ∈ c.scope -> c.binding? name = some existing ->
      inv d -> inv (d.narrowBy g name existing v))
    (hbinding : forall c r, inv c -> name ∈ c.scope -> c.binding? name = some r ->
      Keeps endless inv (onBinding v r)) : Keeps endless inv (checkGeneric g onBinding name v) := by
  intro c hc
  rw [outcome_checkGeneric]
  dsimp only
  cases hrequired : c.requirement? name with
  | error report => exact ⟨hc, fun _ h => nomatch h⟩
  | ok required =>
      rcases Generics.requirement?_eq_ok hrequired with ⟨hscope, hbound⟩
      have hmem : name ∈ c.scope := List.contains_iff_mem.mp hscope
      cases required with
      | none =>
          have hinferred := hinfer c hc hmem
          dsimp only
          cases hbinding' : (c.inferFrom g name v).binding? name with
          | none => exact ⟨hinferred, fun _ h => nomatch h⟩
          | some bound =>
              have hmem' : name ∈ (c.inferFrom g name v).scope := by
                rw [Generics.scope_inferFrom]
                exact hmem
              exact (hbinding _ bound hinferred hmem' hbinding').within _ _ hinferred
      | some existing =>
          have hkeeps := hbinding c existing hc hmem hbound c hc
          dsimp only
          rcases hrun : outcome (onBinding v existing) c with ⟨(report | other) | cast, d⟩
          · rw [hrun] at hkeeps
            exact ⟨hkeeps.1, fun _ h => nomatch h⟩
          · rw [hrun] at hkeeps
            exact ⟨hkeeps.1, fun _ _ => hkeeps.2 other rfl⟩
          · rw [hrun] at hkeeps
            exact ⟨hnarrow c d existing hc hmem hbound hkeeps.1, fun _ h => nomatch h⟩

theorem runs_checkGeneric {onBinding : Observed → Range → Checking (Option Scalar)} {name : String}
    (hbinding : name ∈ c₀.scope -> forall r,
      (forall other, r.Mentions other -> c₀.Refers name other) ->
      forall v, Runs endless c₀ (onBinding v r)) (v : Observed) :
    Runs endless c₀ (checkGeneric g onBinding name v) := by
  refine keeps_checkGeneric (fun c hc _ => hc.inferFrom name v)
    (fun c d existing hc _ hbound hd => ?_) (fun c r hc hmem hbound => ?_)
  · exact hd.narrowBy (fun other h => hc.refers ⟨existing, hbound, h⟩) v
  · exact hbinding (hc.scope ▸ hmem) r (fun other h => hc.refers ⟨r, hbound, h⟩) v

theorem keeps_checkWithin {met : String → Prop}
    (hinfer : forall name v c, met name -> inv c -> name ∈ c.scope -> inv (c.inferFrom g name v))
    (hnarrow : forall name v c d existing, met name -> inv c -> name ∈ c.scope ->
      c.binding? name = some existing -> inv d -> inv (d.narrowBy g name existing v))
    (hmet : forall name other c, met name -> inv c -> c.Refers name other -> met other)
    (links : Nat) (v : Observed) (r : Range) (hr : forall name, r.Mentions name -> met name) :
    Keeps True inv (checkWithin g links v r) := by
  rw [checkWithin_eq]
  induction links generalizing v r with
  | zero =>
      refine keeps_checkWith r (fun name hname v => ?_) v
      rw [genericWithin]
      refine keeps_checkGeneric (fun c hc hmem => ?_) (fun c d existing hc hmem hbound hd => ?_)
        fun _ _ _ _ _ => ?_
      · exact hinfer name v c (hr name hname) hc hmem
      · exact hnarrow name v c d existing (hr name hname) hc hmem hbound hd
      · exact .throw trivial _
  | succ links ih =>
      refine keeps_checkWith r (fun name hname v => ?_) v
      rw [genericWithin]
      refine keeps_checkGeneric (fun c hc hmem => ?_) (fun c d existing hc hmem hbound hd => ?_)
        fun c r' hc _ hbound => ?_
      · exact hinfer name v c (hr name hname) hc hmem
      · exact hnarrow name v c d existing (hr name hname) hc hmem hbound hd
      · rw [checkWithin_eq]
        exact ih v r' fun other hother => hmet name other c (hr name hname) hc ⟨r', hbound, hother⟩

theorem keeps_check {met : String → Prop}
    (hinfer : forall name v c, met name -> inv c -> name ∈ c.scope -> inv (c.inferFrom g name v))
    (hnarrow : forall name v c d existing, met name -> inv c -> name ∈ c.scope ->
      c.binding? name = some existing -> inv d -> inv (d.narrowBy g name existing v))
    (hmet : forall name other c, met name -> inv c -> c.Refers name other -> met other)
    (v : Observed) (r : Range) (hr : forall name, r.Mentions name -> met name) :
    Keeps True inv (check g v r) := by
  intro c hc
  rcases exists_links g v r c with ⟨links, hrun⟩
  rw [hrun]
  exact keeps_checkWithin hinfer hnarrow hmet links v r hr c hc

theorem settles_check (v : Observed) (r : Range) (c : Generics) :
    c.Settles (outcome (check g v r) c).2 := by
  have hruns : Runs True c (check g v r) :=
    keeps_check (fun name v _ _ hd _ => hd.inferFrom name v)
      (fun _ v _ _ existing _ hc _ hbound hd =>
        hd.narrowBy (fun _ h => hc.refers ⟨existing, hbound, h⟩) v)
      (fun _ _ _ _ _ _ => trivial) v r fun _ _ => trivial
  exact (hruns c (.refl c)).1

/-!
# Chains of generic type parameters
-/

/-- A check on chains that are long enough ends, if no generic type parameter leads back to
itself.  The chain that has led to the range is one of different names, so it gets no longer than
there are names in scope. -/
theorem runs_checkWithin_of_acyclic (hacyclic : c₀.Acyclic) (links : Nat) (chain : List String)
    (hchain : chain.Nodup) (hscope : chain ⊆ c₀.scope)
    (hlength : c₀.scope.length ≤ chain.length + links) (r : Range)
    (hr : forall name, r.Mentions name -> forall n, n ∈ chain -> Relation.TransGen c₀.Refers n name)
    (v : Observed) : Runs False c₀ (checkWithin g links v r) := by
  rw [checkWithin_eq]
  induction links generalizing chain r v with
  | zero =>
      refine keeps_checkWith r (fun name hname => ?_) v
      refine runs_checkGeneric fun hmem _ _ _ => ?_
      have hnew : name ∉ chain := fun h => hacyclic name (hr name hname name h)
      exact absurd (length_lt_of_not_mem hchain hscope hmem hnew) (Nat.not_lt.mpr hlength)
  | succ links ih =>
      refine keeps_checkWith r (fun name hname => ?_) v
      refine runs_checkGeneric fun hmem r' hr' v => ?_
      rw [checkWithin_eq]
      have hnew : name ∉ chain := fun h => hacyclic name (hr name hname name h)
      refine ih (name :: chain) (List.nodup_cons.mpr ⟨hnew, hchain⟩)
        (List.cons_subset.mpr ⟨hmem, hscope⟩) ?_ r' (fun other hother n hn => ?_) v
      · rw [List.length_cons]
        omega
      · rcases List.mem_cons.mp hn with rfl | hn
        · exact .single (hr' other hother)
        · exact (hr name hname n hn).tail (hr' other hother)

theorem runs_checkWithin_of_scope {c : Generics} (hacyclic : c.Acyclic) {links : Nat}
    (hlinks : c.scope.length ≤ links) (v : Observed) (r : Range) :
    Runs False c (checkWithin g links v r) := by
  refine runs_checkWithin_of_acyclic hacyclic links [] .nil (List.nil_subset _) ?_ r
    (fun _ _ _ hn => absurd hn List.not_mem_nil) v
  rw [List.length_nil, Nat.zero_add]
  exact hlinks

theorem runs_check_of_acyclic {c : Generics} (hacyclic : c.Acyclic) (v : Observed) (r : Range) :
    c.Settles (outcome (check g v r) c).2 ∧
      forall name, (outcome (check g v r) c).1 ≠ .error (.endless name) := by
  have hruns := runs_checkWithin_of_scope (g := g) hacyclic (Nat.le_refl _) v r c (.refl c)
  rw [outcome_check_eq, chainLength_eq, not_isCut_iff.mpr hruns.2]
  exact hruns

end Range
end Wiring
