import Wiring.Proofs.Range.Chains

/-!
# Admitted values

Whether a value is accepted by a range without generic type parameters depends on
the value and the graph alone: the check reads no binding and changes none.
-/

namespace Wiring

/-- A check that changes no binding, and accepts exactly if the proposition holds. -/
def Checking.Decides {α : Type} (x : Checking α) (p : Prop) : Prop :=
  forall c, (p ∧ exists a, Wiring.outcome x c = (.ok a, c)) ∨
    ¬ p ∧ exists report, Wiring.outcome x c = (.error (.mismatch report), c)

namespace Checking

variable {α β : Type} {x : Checking α} {p q : Prop}

/-!
# Parts of checks
-/

theorem outcome_within (wrap : Report → Report) (x : Checking α) (c : Generics) :
    Wiring.outcome (x.within wrap) c =
      match Wiring.outcome x c with
      | (.ok a, c') => (.ok a, c')
      | (.error e, c') => (.error (e.within wrap), c') := by
  change (fun r : Except Rejection α × Generics => (r.1.mapError (Rejection.within wrap), r.2))
    (Wiring.outcome x c) = _
  rcases Wiring.outcome x c with ⟨e | a, c'⟩ <;> rfl

theorem outcome_tryCatch (x : Checking α) (handle : Rejection → Checking α) (c : Generics) :
    Wiring.outcome (tryCatch x handle) c =
      match Wiring.outcome x c with
      | (.ok a, c') => (.ok a, c')
      | (.error e, c') => Wiring.outcome (handle e) c' := by
  rcases hx : Wiring.outcome x c with ⟨e | a, c'⟩
  all_goals
    have hrun : StateT.run x c = _ := hx
    unfold Wiring.outcome tryCatch instMonadExceptOfMonadExceptOf
    simp only [tryCatchThe, MonadExceptOf.tryCatch, ExceptT.tryCatch, ExceptT.run_mk,
      StateT.run_bind, hrun]
    rfl

theorem outcome_outcome (x : Checking α) (c : Generics) :
    Wiring.outcome (Checking.outcome x) c =
      match Wiring.outcome x c with
      | (.ok a, c') => (.ok (.ok a), c')
      | (.error (.mismatch report), c') => (.ok (.error report), c')
      | (.error (.endless generic), c') => (.error (.endless generic), c') := by
  unfold Checking.outcome
  rw [outcome_tryCatch, outcome_bind]
  rcases Wiring.outcome x c with ⟨(report | generic) | a, c'⟩ <;> rfl

namespace Decides

theorem pure (a : α) (h : p) : Decides (Pure.pure a) p :=
  fun _ => Or.inl ⟨h, a, rfl⟩

theorem refuse (report : Report) (h : ¬ p) : Decides (refuse report : Checking α) p :=
  fun _ => Or.inr ⟨h, report, rfl⟩

theorem congr (h : Decides x p) (hpq : p <-> q) : Decides x q := by
  rw [← propext hpq]
  exact h

theorem bind {k : α -> Checking β} (h : Decides x p)
    (hk : forall a c, Wiring.outcome x c = (.ok a, c) -> p -> Decides (k a) q) :
    Decides (x >>= k) (p ∧ q) := by
  intro c
  rcases h c with ⟨hp, a, hx⟩ | ⟨hp, report, hx⟩
  · rw [outcome_bind_ok hx]
    rcases hk a c hx hp c with ⟨hq, hb⟩ | ⟨hq, hreport⟩
    · exact Or.inl ⟨⟨hp, hq⟩, hb⟩
    · exact Or.inr ⟨fun h => hq h.2, hreport⟩
  · exact Or.inr ⟨fun h => hp h.1, report, outcome_bind_error hx⟩

theorem within (h : Decides x p) (wrap : Report → Report) : Decides (x.within wrap) p := by
  intro c
  rw [outcome_within]
  rcases h c with ⟨hp, a, hx⟩ | ⟨hp, report, hx⟩
  · rw [hx]
    exact Or.inl ⟨hp, a, rfl⟩
  · rw [hx]
    exact Or.inr ⟨hp, wrap report, rfl⟩

theorem forM {f : α -> Checking PUnit} {P : α -> Prop} (h : forall a, Decides (f a) (P a))
    (as : List α) : Decides (as.forM f) (forall a, a ∈ as -> P a) := by
  induction as with
  | nil => exact pure _ fun a ha => absurd ha List.not_mem_nil
  | cons a rest ih =>
      change Decides (f a >>= fun _ => rest.forM f) _
      exact congr (bind (h a) fun _ _ _ _ => ih) List.forall_mem_cons.symm

end Decides
end Checking

namespace Range

/-!
# Ranges without generic type parameters
-/

mutual

def Concrete : Range → Prop
  | wildcard | undefined | literal _ | type _ => True
  | generic _ => False
  | union members | intersection members | tuple members => AllConcrete members
  | array inner | rest inner | keyof inner => Concrete inner

def AllConcrete : List Range → Prop
  | [] => True
  | r :: rs => Concrete r ∧ AllConcrete rs

end

theorem allConcrete_iff {rs : List Range} : AllConcrete rs <-> forall r, r ∈ rs -> Concrete r := by
  induction rs with
  | nil => exact ⟨fun _ r hr => absurd hr List.not_mem_nil, fun _ => trivial⟩
  | cons r rs ih => rw [AllConcrete, ih, List.forall_mem_cons]

mutual

/-- The values that a range admits, without those that generic type parameters add. -/
def Admits (g : Graph) : Range → Observed → Prop
  | wildcard, _ => True
  | undefined, v => v = .absent
  | literal datatype, v => exists l cast, v = .literal l ∧ Datatype.cast l.value datatype = .ok cast
  | type iri, v => exists id, v = .node id ∧ g.isA id iri = true
  | generic _, _ => False
  | union members, v => AdmitsAny g members v
  | intersection members, v => AdmitsAll g members v
  | tuple members, v => exists items, v.items? g = some items ∧ AdmitsItems g members items
  | array inner, v =>
    exists items, v.items? g = some items ∧ forall item, item ∈ items -> Admits g inner item
  | rest inner, v => Admits g inner v
  | keyof _, v => exists l, v = .literal l

def AdmitsAny (g : Graph) : List Range → Observed → Prop
  | [], _ => False
  | r :: rs, v => Admits g r v ∨ AdmitsAny g rs v

def AdmitsAll (g : Graph) : List Range → Observed → Prop
  | [], _ => True
  | r :: rs, v => Admits g r v ∧ AdmitsAll g rs v

def AdmitsItems (g : Graph) : List Range → List Observed → Prop
  | [], items => items = []
  | rest inner :: _, items => forall item, item ∈ items -> Admits g inner item
  | r :: rs, items => Admits g r (items.headD .absent) ∧ AdmitsItems g rs items.tail

end

variable {g : Graph}

theorem admitsAny_iff {rs : List Range} {v : Observed} :
    AdmitsAny g rs v <-> exists r, r ∈ rs ∧ Admits g r v := by
  induction rs with
  | nil => exact ⟨fun h => h.elim, fun ⟨r, hr, _⟩ => absurd hr List.not_mem_nil⟩
  | cons r rs ih => simp [AdmitsAny, ih]

theorem admitsAll_iff {rs : List Range} {v : Observed} :
    AdmitsAll g rs v <-> forall r, r ∈ rs -> Admits g r v := by
  induction rs with
  | nil => exact ⟨fun _ r hr => absurd hr List.not_mem_nil, fun _ => trivial⟩
  | cons r rs ih => rw [AdmitsAll, ih, List.forall_mem_cons]

theorem admitsItems_cons {r : Range} (hr : forall inner, r ≠ rest inner) (rs : List Range)
    (items : List Observed) :
    AdmitsItems g (r :: rs) items <->
      Admits g r (items.headD .absent) ∧ AdmitsItems g rs items.tail := by
  cases r with
  | rest inner => exact absurd rfl (hr inner)
  | _ => rw [AdmitsItems]; exact fun inner => hr inner

/-!
# Checks decide what is admitted
-/

variable {onGeneric : String → Observed → Checking (Option Scalar)}

theorem checkPositions_cons {r : Range} (hr : forall inner, r ≠ rest inner) (v : Observed)
    (whole : Range) (position : Nat) (items : List Observed) (rs : List Range) :
    checkPositions g onGeneric v whole position items (r :: rs) = (do
      let _ ← (checkWith g onGeneric (items.headD .absent) r).within
        (positionMismatch g v whole position)
      checkPositions g onGeneric v whole (position + 1) items.tail rs) := by
  cases r with
  | rest inner => exact absurd rfl (hr inner)
  | _ => rw [checkPositions]; exact fun inner => hr inner

theorem decides_items {α : Type} {v : Observed} {r : Range} {k : List Observed → Checking α}
    {P : List Observed → Prop} (hk : forall items, (k items).Decides (P items)) :
    (itemsOf g v r >>= k).Decides (exists items, v.items? g = some items ∧ P items) := by
  unfold itemsOf
  cases v.items? g with
  | none =>
      intro c
      exact Or.inr ⟨fun ⟨_, h, _⟩ => (nomatch h), _, rfl⟩
  | some items =>
      refine Checking.Decides.congr (hk items) ⟨fun h => ⟨items, rfl, h⟩, ?_⟩
      rintro ⟨_, heq, h⟩
      cases heq
      exact h

theorem decides_discard {α : Type} {x : Checking α} {p : Prop} (h : x.Decides p) :
    (x >>= fun _ => pure none : Checking (Option Scalar)).Decides p :=
  (h.bind fun _ _ _ _ => .pure none trivial).congr (and_iff_left trivial)

theorem decides_checkUndefined (v : Observed) : (checkUndefined g v).Decides (v = .absent) := by
  cases v with
  | absent => exact .pure none rfl
  | literal l => exact .refuse _ fun h => nomatch h
  | node id => exact .refuse _ fun h => nomatch h

theorem decides_checkLiteral (v : Observed) (datatype : String) :
    (checkLiteral g v datatype).Decides (Admits g (literal datatype) v) := by
  unfold checkLiteral
  cases v with
  | absent => exact .refuse _ fun ⟨_, _, h, _⟩ => nomatch h
  | node id => exact .refuse _ fun ⟨_, _, h, _⟩ => nomatch h
  | literal l =>
      dsimp only
      cases hcast : Datatype.cast l.value datatype with
      | ok cast => exact .pure cast ⟨l, cast, rfl, hcast⟩
      | error fault =>
          refine .refuse _ fun ⟨_, cast, h, hok⟩ => ?_
          cases h
          rw [hcast] at hok
          cases hok

theorem decides_checkType (v : Observed) (iri : String) :
    (checkType g v iri).Decides (Admits g (type iri) v) := by
  unfold checkType
  cases v with
  | absent => exact .refuse _ fun ⟨_, h, _⟩ => nomatch h
  | literal l => exact .refuse _ fun ⟨_, h, _⟩ => nomatch h
  | node id =>
      dsimp only
      split
      · next hisA => exact .pure none ⟨id, rfl, hisA⟩
      · next hisA =>
          refine .refuse _ fun ⟨_, h, hok⟩ => hisA ?_
          cases h
          exact hok

theorem decides_checkKey (v : Observed) (r inner : Range) :
    (checkKey g v r).Decides (Admits g (keyof inner) v) := by
  cases v with
  | absent => exact .refuse _ fun ⟨_, h⟩ => nomatch h
  | literal l => exact .pure none ⟨l, rfl⟩
  | node id => exact .refuse _ fun ⟨_, h⟩ => nomatch h

def FindsAny (x : Checking (Except (List Report) (Option Scalar))) (p : Prop) : Prop :=
  forall c, (p ∧ exists cast, outcome x c = (.ok (.ok cast), c)) ∨
    ¬ p ∧ exists causes, outcome x c = (.ok (.error causes), c)

theorem decides_union {x : Checking (Except (List Report) (Option Scalar))} {p : Prop}
    (h : FindsAny x p) (report : List Report → Report) :
    (do
      match ← x with
      | .ok cast => return cast
      | .error causes => Checking.refuse (report causes) : Checking (Option Scalar)).Decides p := by
  intro c
  rcases h c with ⟨hp, cast, hx⟩ | ⟨hp, causes, hx⟩
  · rw [outcome_bind_ok hx]
    exact Or.inl ⟨hp, cast, rfl⟩
  · rw [outcome_bind_ok hx]
    exact Or.inr ⟨hp, report causes, rfl⟩

theorem findsAny_cons {x : Checking (Option Scalar)}
    {y : Checking (Except (List Report) (Option Scalar))} {p q : Prop} (hx : x.Decides p)
    (hy : FindsAny y q) :
    FindsAny (do
      match ← x.outcome with
      | .ok cast => return .ok cast
      | .error cause =>
        match ← y with
        | .ok cast => return .ok cast
        | .error causes => return .error (cause :: causes)) (p ∨ q) := by
  intro c
  rcases hx c with ⟨hp, cast, hrun⟩ | ⟨hp, report, hrun⟩
  · have htried : outcome x.outcome c = (.ok (.ok cast), c) := by
      rw [Checking.outcome_outcome, hrun]
    rw [outcome_bind_ok htried]
    exact Or.inl ⟨Or.inl hp, cast, rfl⟩
  · have htried : outcome x.outcome c = (.ok (.error report), c) := by
      rw [Checking.outcome_outcome, hrun]
    rw [outcome_bind_ok htried]
    dsimp only
    rcases hy c with ⟨hq, cast, hrun'⟩ | ⟨hq, causes, hrun'⟩
    · rw [outcome_bind_ok hrun']
      exact Or.inl ⟨Or.inr hq, cast, rfl⟩
    · rw [outcome_bind_ok hrun']
      exact Or.inr ⟨not_or.mpr ⟨hp, hq⟩, report :: causes, rfl⟩

theorem decides_position {r : Range} (hr : forall inner, r ≠ rest inner) {rs : List Range}
    {v : Observed} {whole : Range} {position : Nat} {items : List Observed}
    (hhead : (checkWith g onGeneric (items.headD .absent) r).Decides
      (r.Admits g (items.headD .absent)))
    (htail : (checkPositions g onGeneric v whole (position + 1) items.tail rs).Decides
      (AdmitsItems g rs items.tail)) :
    (checkPositions g onGeneric v whole position items (r :: rs)).Decides
      (AdmitsItems g (r :: rs) items) := by
  rw [checkPositions_cons hr]
  exact ((hhead.within _).bind fun _ _ _ _ => htail).congr (admitsItems_cons hr rs items).symm

mutual

theorem decides_checkWith (r : Range) (hr : r.Concrete) (v : Observed) :
    (checkWith g onGeneric v r).Decides (r.Admits g v) := by
  cases r with
  | wildcard => exact .pure none trivial
  | undefined => exact decides_checkUndefined v
  | literal datatype => exact decides_checkLiteral v datatype
  | type iri => exact decides_checkType v iri
  | generic name => exact hr.elim
  | union members => exact decides_union (findsAny_checkAny members hr v) _
  | intersection members => exact (decides_checkAll members hr v).within _
  | tuple members =>
      exact decides_items fun items =>
        decides_discard (decides_checkPositions members hr v _ 0 items)
  | array inner =>
      refine decides_items fun items => decides_discard (.forM (fun item => ?_) items)
      exact (((decides_checkWith inner hr item).within _).bind fun _ _ _ _ =>
        .pure _ trivial).congr (and_iff_left trivial)
  | rest inner => exact decides_checkWith inner hr v
  | keyof inner => exact decides_checkKey v (keyof inner) inner

theorem findsAny_checkAny (rs : List Range) (hrs : AllConcrete rs) (v : Observed) :
    FindsAny (checkAny g onGeneric v rs) (AdmitsAny g rs v) := by
  cases rs with
  | nil => exact fun c => Or.inr ⟨id, [], rfl⟩
  | cons r rs =>
      exact findsAny_cons (decides_checkWith r hrs.1 v) (findsAny_checkAny rs hrs.2 v)

theorem decides_checkAll (rs : List Range) (hrs : AllConcrete rs) (v : Observed) :
    (checkAll g onGeneric v rs).Decides (AdmitsAll g rs v) := by
  cases rs with
  | nil => exact .pure none trivial
  | cons r rs =>
      refine (decides_checkWith r hrs.1 v).bind fun first _ _ _ => ?_
      exact ((decides_checkAll rs hrs.2 v).bind fun others _ _ _ => .pure _ trivial).congr
        (and_iff_left trivial)

theorem decides_checkPositions (rs : List Range) (hrs : AllConcrete rs) (v : Observed)
    (whole : Range) (position : Nat) (items : List Observed) :
    (checkPositions g onGeneric v whole position items rs).Decides (AdmitsItems g rs items) := by
  cases rs with
  | nil =>
      rw [checkPositions]
      split
      · next hempty => exact .pure _ (List.isEmpty_iff.mp hempty)
      · next hempty => exact .refuse _ fun h => hempty (List.isEmpty_iff.mpr h)
  | cons r rs =>
      cases r with
      | rest inner =>
          refine .forM (fun item => ?_) items
          exact (((decides_checkWith inner hrs.1 item).within _).bind fun _ _ _ _ =>
            .pure _ trivial).congr (and_iff_left trivial)
      | _ =>
          refine decides_position ?_ (decides_checkWith _ hrs.1 _)
            (decides_checkPositions rs hrs.2 v whole (position + 1) items.tail)
          intro inner h
          cases h

end

def Accepts (g : Graph) (c : Generics) (v : Observed) (r : Range) : Prop :=
  exists cast c', outcome (check g v r) c = (.ok cast, c')

theorem decides_check {r : Range} (hr : r.Concrete) (v : Observed) :
    (check g v r).Decides (r.Admits g v) := by
  intro c
  rcases exists_links g v r c with ⟨links, hrun⟩
  rw [hrun, checkWithin_eq]
  exact decides_checkWith r hr v c

theorem accepts_iff {r : Range} (hr : r.Concrete) (c : Generics) (v : Observed) :
    Accepts g c v r <-> r.Admits g v := by
  constructor
  · rintro ⟨cast, c', hrun⟩
    rcases decides_check hr v c with ⟨hadmits, -⟩ | ⟨-, report, hrun'⟩
    · exact hadmits
    · rw [hrun] at hrun'
      cases hrun'
  · intro hadmits
    rcases decides_check hr v c with ⟨-, cast, hrun⟩ | ⟨hnot, -⟩
    · exact ⟨cast, c, hrun⟩
    · exact absurd hadmits hnot

end Range
end Wiring
