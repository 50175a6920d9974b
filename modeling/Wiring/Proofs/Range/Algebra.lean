import Wiring.Proofs.Range.Symmetry

/-!
# Merges as an operation

A range merged with itself is itself, and merges of ranges without unions may be
grouped in either way.  For the grouping the types have to form a forest, as the
datatypes do: two types above a third one are comparable.
-/

namespace Wiring
namespace Range

variable {isSubtype : String → String → Bool}

/-!
# A range with itself
-/

mutual

theorem merge_same (hrefl : forall x, isSubtype x x = true) (r : Range) :
    merge isSubtype r r = .ok r := by
  cases r with
  | wildcard => rw [merge]
  | generic name => rw [merge]
  | undefined => rw [merge]
  | literal datatype =>
      have hnarrower : Datatype.narrower? datatype datatype = some datatype := by
        simp [Datatype.narrower?, Datatype.isSubtype]
      rw [merge, hnarrower]
  | type iri => rw [merge, if_pos (hrefl iri)]
  | union members =>
      rw [merge, if_pos rfl, mergePairs_same hrefl members]
      rfl
  | intersection members =>
      rw [merge, if_pos rfl, mergePairs_same hrefl members]
      rfl
  | tuple members =>
      rw [merge, if_pos rfl, mergePairs_same hrefl members]
      rfl
  | array inner =>
      rw [merge, merge_same hrefl inner]
      rfl
  | rest inner =>
      rw [merge, merge_same hrefl inner]
      rfl
  | keyof inner =>
      rw [merge, merge_same hrefl inner]
      rfl

theorem mergePairs_same (hrefl : forall x, isSubtype x x = true) (rs : List Range) :
    mergePairs isSubtype rs rs = .ok rs := by
  cases rs with
  | nil => simp [mergePairs]
  | cons r rs => rw [mergePairs, merge_same hrefl r, mergePairs_same hrefl rs]

end

/-- A merge of a range with itself succeeds and leaves it as it is, for all ranges exactly if every
type is a subtype of itself. -/
theorem merge_idempotent (isSubtype : String → String → Bool) :
    (forall r, merge isSubtype r r = .ok r) <-> forall x, isSubtype x x = true := by
  constructor
  · intro h x
    have hx := h (type x)
    rw [merge] at hx
    by_contra hne
    rw [if_neg hne, if_neg hne] at hx
    cases hx
  · exact merge_same

/-!
# Forests of types
-/

/-- Being a subtype is a partial order, and the types above one type are comparable. -/
structure Forest (isSubtype : String → String → Bool) : Prop where
  refl (x : String) : isSubtype x x = true
  trans {x y z : String} (hxy : isSubtype x y = true) (hyz : isSubtype y z = true) :
    isSubtype x z = true
  antisymm : Antisymmetric isSubtype
  above {x y z : String} (hxy : isSubtype x y = true) (hxz : isSubtype x z = true) :
    isSubtype y z = true ∨ isSubtype z y = true

theorem forest_datatypes : Forest Datatype.isSubtype where
  refl x := by simp [Datatype.isSubtype]
  trans hxy hyz := by
    rcases Datatype.eq_or_eq_of_isSubtype hxy hyz with rfl | rfl
    · exact hyz
    · exact hxy
  antisymm _ _ := Datatype.isSubtype_antisymm
  above {x y z} hxy hxz := by
    by_cases hy : x = y
    · subst hy
      exact Or.inl hxz
    by_cases hz : x = z
    · subst hz
      exact Or.inr hxy
    rw [Datatype.eq_of_isSubtype_of_ne hxy hxz hy hz]
    exact Or.inl (by simp [Datatype.isSubtype])

def lower? (isSubtype : String → String → Bool) (x y : String) : Option String :=
  if isSubtype x y then some x
  else if isSubtype y x then some y
  else none

theorem lower?_of_below {x y : String} (h : isSubtype x y = true) :
    lower? isSubtype x y = some x :=
  if_pos h

theorem Forest.lower?_of_above (hforest : Forest isSubtype) {x y : String}
    (h : isSubtype y x = true) : lower? isSubtype x y = some y := by
  unfold lower?
  split
  · next hxy => rw [hforest.antisymm x y hxy h]
  · rfl

theorem lower?_of_apart {x y : String} (hxy : ¬ isSubtype x y = true)
    (hyx : ¬ isSubtype y x = true) : lower? isSubtype x y = none := by
  rw [lower?, if_neg hxy, if_neg hyx]

/-- A partial operation gives the same for three operands whichever two of them it takes first. -/
def Associate {α : Type} (op : α → α → Option α) (x y z : α) : Prop :=
  (op x y).bind (fun xy => op xy z) = (op y z).bind (fun yz => op x yz)

theorem associate_of_unlike {α : Type} {op : α → α → Option α} {valid : α → Prop}
    (like : α → α → Prop) (hsymm : forall {x y}, like x y -> like y x)
    (htrans : forall {x y z}, like x y -> like y z -> like x z)
    (hop : forall {x y m}, valid x -> valid y -> op x y = some m ->
      valid m ∧ like x y ∧ like x m)
    {x y z : α} (hx : valid x) (hy : valid y) (hz : valid z) (h : ¬ (like x y ∧ like y z)) :
    Associate op x y z := by
  have hleft : (op x y).bind (fun xy => op xy z) = none := by
    rw [Option.bind_eq_none_iff]
    intro xy hxy
    rw [Option.eq_none_iff_forall_ne_some]
    intro m hm
    rcases hop hx hy hxy with ⟨hvalid, halike, hmerged⟩
    have hlast := (hop hvalid hz hm).2.1
    exact h ⟨halike, htrans (hsymm halike) (htrans hmerged hlast)⟩
  have hright : (op y z).bind (fun yz => op x yz) = none := by
    rw [Option.bind_eq_none_iff]
    intro yz hyz
    rw [Option.eq_none_iff_forall_ne_some]
    intro m hm
    rcases hop hy hz hyz with ⟨hvalid, halike, hmerged⟩
    have hfirst := (hop hx hvalid hm).2.1
    exact h ⟨htrans hfirst (hsymm hmerged), halike⟩
  rw [Associate, hleft, hright]

theorem Forest.associate_lower? (hforest : Forest isSubtype) (x y z : String) :
    Associate (lower? isSubtype) x y z := by
  unfold Associate
  by_cases hxy : isSubtype x y = true
  · rw [lower?_of_below hxy, Option.bind_some]
    by_cases hyz : isSubtype y z = true
    · rw [lower?_of_below hyz, lower?_of_below (hforest.trans hxy hyz), Option.bind_some,
        lower?_of_below hxy]
    by_cases hzy : isSubtype z y = true
    · rw [hforest.lower?_of_above hzy, Option.bind_some]
    · -- The types above the first one are comparable, so the third one is not among them.
      rw [lower?_of_apart hyz hzy, Option.bind_none]
      apply lower?_of_apart
      · intro hxz
        exact (hforest.above hxy hxz).elim hyz hzy
      · intro hzx
        exact hzy (hforest.trans hzx hxy)
  by_cases hyx : isSubtype y x = true
  · rw [hforest.lower?_of_above hyx, Option.bind_some]
    by_cases hyz : isSubtype y z = true
    · rw [lower?_of_below hyz, Option.bind_some, hforest.lower?_of_above hyx]
    by_cases hzy : isSubtype z y = true
    · rw [hforest.lower?_of_above hzy, Option.bind_some,
        hforest.lower?_of_above (hforest.trans hzy hyx)]
    · rw [lower?_of_apart hyz hzy, Option.bind_none]
  · rw [lower?_of_apart hxy hyx, Option.bind_none]
    by_cases hyz : isSubtype y z = true
    · rw [lower?_of_below hyz, Option.bind_some, lower?_of_apart hxy hyx]
    by_cases hzy : isSubtype z y = true
    · rw [hforest.lower?_of_above hzy, Option.bind_some]
      symm
      apply lower?_of_apart
      · intro hxz
        exact hxy (hforest.trans hxz hzy)
      · intro hzx
        exact (hforest.above hzx hzy).elim hxy hyx
    · rw [lower?_of_apart hyz hzy, Option.bind_none]

/-!
# Results without reports
-/

def narrower? (isSubtype : String → String → Bool) (a b : Range) : Option Range :=
  (merge isSubtype a b).toOption

def narrowerPairs? (isSubtype : String → String → Bool) (xs ys : List Range) :
    Option (List Range) :=
  if xs.length = ys.length then (mergePairs isSubtype xs ys).toOption else none

theorem narrower?_eq_some {a b m : Range} :
    narrower? isSubtype a b = some m <-> merge isSubtype a b = .ok m := by
  unfold narrower?
  cases merge isSubtype a b with
  | error cause => simp [Except.toOption]
  | ok r => simp [Except.toOption]

theorem toOption_bind {α : Type} (result : Except Report α) (f : α → Except Report α) :
    (result.bind f).toOption = result.toOption.bind fun x => (f x).toOption := by
  cases result with
  | error cause => rfl
  | ok x => rfl

theorem both_of_toOption_eq {α : Type} {x y : Except Report α} (h : x.toOption = y.toOption) :
    (exists m, x = .ok m ∧ y = .ok m) ∨ exists cause cause', x = .error cause ∧ y = .error cause' := by
  cases x with
  | ok m =>
      cases y with
      | ok m' =>
          cases h
          exact Or.inl ⟨m, rfl, rfl⟩
      | error cause' => cases h
  | error cause =>
      cases y with
      | ok m' => cases h
      | error cause' => exact Or.inr ⟨cause, cause', rfl, rfl⟩

theorem toOption_lift {α : Type} (a b : Range) (build : α → Range) (result : Except Report α) :
    (lift a b build result).toOption = result.toOption.map build := by
  cases result with
  | error cause => rfl
  | ok inner => rfl

theorem toOption_pairs {xs ys : List Range} (a b : Range) (build : List Range → Range)
    (cause : Report) :
    (if xs.length = ys.length then lift a b build (mergePairs isSubtype xs ys)
      else .error cause).toOption = (narrowerPairs? isSubtype xs ys).map build := by
  unfold narrowerPairs?
  split
  · exact toOption_lift a b build _
  · rfl

theorem narrower?_literal (x y : String) :
    narrower? isSubtype (literal x) (literal y) =
      (lower? Datatype.isSubtype x y).map literal := by
  have hlower : lower? Datatype.isSubtype x y = Datatype.narrower? x y := rfl
  rw [narrower?, merge, hlower]
  cases Datatype.narrower? x y with
  | none => rfl
  | some narrower => rfl

theorem narrower?_type (x y : String) :
    narrower? isSubtype (type x) (type y) = (lower? isSubtype x y).map type := by
  rw [narrower?, merge, lower?]
  split
  · rfl
  split
  · rfl
  · rfl

theorem narrower?_intersection (xs ys : List Range) :
    narrower? isSubtype (intersection xs) (intersection ys) =
      (narrowerPairs? isSubtype xs ys).map intersection := by
  rw [narrower?, merge]
  exact toOption_pairs _ _ _ _

theorem narrower?_tuple (xs ys : List Range) :
    narrower? isSubtype (tuple xs) (tuple ys) = (narrowerPairs? isSubtype xs ys).map tuple := by
  rw [narrower?, merge]
  exact toOption_pairs _ _ _ _

theorem narrower?_array (x y : Range) :
    narrower? isSubtype (array x) (array y) = (narrower? isSubtype x y).map array := by
  rw [narrower?, merge]
  exact toOption_lift _ _ _ _

theorem narrower?_rest (x y : Range) :
    narrower? isSubtype (rest x) (rest y) = (narrower? isSubtype x y).map rest := by
  rw [narrower?, merge]
  exact toOption_lift _ _ _ _

theorem narrower?_keyof (x y : Range) :
    narrower? isSubtype (keyof x) (keyof y) = (narrower? isSubtype x y).map keyof := by
  rw [narrower?, merge]
  exact toOption_lift _ _ _ _

theorem narrowerPairs?_cons (x y : Range) (xs ys : List Range) :
    narrowerPairs? isSubtype (x :: xs) (y :: ys) =
      (narrower? isSubtype x y).bind fun m =>
        (narrowerPairs? isSubtype xs ys).map fun ms => m :: ms := by
  unfold narrowerPairs? narrower?
  rw [mergePairs]
  by_cases hlength : xs.length = ys.length
  · have hsucc : (x :: xs).length = (y :: ys).length := congrArg Nat.succ hlength
    rw [if_pos hsucc, if_pos hlength]
    cases merge isSubtype x y with
    | error cause => rfl
    | ok m =>
        cases mergePairs isSubtype xs ys with
        | error cause => rfl
        | ok ms => rfl
  · have hsucc : ¬ (x :: xs).length = (y :: ys).length := fun h => hlength (Nat.succ.inj h)
    rw [if_neg hsucc, if_neg hlength]
    cases merge isSubtype x y with
    | error cause => rfl
    | ok m => rfl

theorem length_of_narrowerPairs? {xs ys ms : List Range}
    (h : narrowerPairs? isSubtype xs ys = some ms) :
    xs.length = ys.length ∧ xs.length = ms.length := by
  unfold narrowerPairs? at h
  split at h
  · next hlength =>
      refine ⟨hlength, ?_⟩
      cases hms : mergePairs isSubtype xs ys with
      | error cause =>
          rw [hms] at h
          cases h
      | ok rs =>
          rw [hms] at h
          cases h
          exact (merges_of_mergePairs xs ys hlength hms).1.symm
  · cases h

/-!
# Kinds of ranges
-/

mutual

def UnionFree : Range → Prop
  | wildcard | undefined | literal _ | type _ | generic _ => True
  | union _ => False
  | intersection members | tuple members => AllUnionFree members
  | array inner | rest inner | keyof inner => UnionFree inner

def AllUnionFree : List Range → Prop
  | [] => True
  | r :: rs => UnionFree r ∧ AllUnionFree rs

end

def Yields : Range → Prop
  | wildcard | generic _ => True
  | _ => False

/-- The range neither gives way to others nor chooses among members. -/
def Rigid : Range → Prop
  | wildcard | generic _ | union _ => False
  | _ => True

theorem UnionFree.yields_or_rigid {r : Range} (h : r.UnionFree) : r.Yields ∨ r.Rigid := by
  cases r with
  | wildcard => exact Or.inl trivial
  | generic name => exact Or.inl trivial
  | union members => exact h.elim
  | _ => exact Or.inr trivial

inductive SameKind : Range → Range → Prop where
  | undefined : SameKind undefined undefined
  | literal (x y : String) : SameKind (literal x) (literal y)
  | type (x y : String) : SameKind (type x) (type y)
  | intersection (xs ys : List Range) : SameKind (intersection xs) (intersection ys)
  | tuple (xs ys : List Range) : SameKind (tuple xs) (tuple ys)
  | array (x y : Range) : SameKind (array x) (array y)
  | rest (x y : Range) : SameKind (rest x) (rest y)
  | keyof (x y : Range) : SameKind (keyof x) (keyof y)

theorem SameKind.symm {a b : Range} (h : SameKind a b) : SameKind b a := by
  cases h <;> constructor

theorem SameKind.trans {a b c : Range} (hab : SameKind a b) (hbc : SameKind b c) :
    SameKind a c := by
  cases hab <;> cases hbc <;> constructor

theorem narrower?_of_yields {a : Range} (h : a.Yields) (b : Range) :
    narrower? isSubtype a b = some b := by
  rw [narrower?_eq_some]
  cases a with
  | wildcard => rw [merge]
  | generic name => rw [merge]
  | _ => cases h

theorem narrower?_yields {a b : Range} (ha : a.Rigid) (hb : b.Yields) :
    narrower? isSubtype a b = some a := by
  rw [narrower?_eq_some]
  cases b with
  | wildcard => cases a <;> simp_all [merge, Rigid]
  | generic name => cases a <;> simp_all [merge, Rigid]
  | _ => cases hb

theorem sameKind_of_narrower? {a b m : Range} (ha : a.Rigid) (hb : b.Rigid)
    (h : narrower? isSubtype a b = some m) : m.Rigid ∧ SameKind a b ∧ SameKind a m := by
  cases merges_of_merge a b (narrower?_eq_some.mp h) with
  | wildcardLeft b => cases ha
  | wildcardRight a => cases hb
  | genericLeft name b => cases ha
  | genericRight a name => cases hb
  | union hleft hright h => cases ha
  | left hb hms source hsource h => cases ha
  | right ha hms source hsource h => cases hb
  | _ => exact ⟨trivial, by constructor, by constructor⟩

/-!
# Groupings
-/

theorem associate_of_yields_left {a : Range} (h : a.Yields) (b c : Range) :
    Associate (narrower? isSubtype) a b c := by
  have hright : (fun bc => narrower? isSubtype a bc) = some := by
    funext bc
    exact narrower?_of_yields h bc
  rw [Associate, narrower?_of_yields h, Option.bind_some, hright, Option.bind_fun_some]

theorem associate_of_yields_middle {a b : Range} (ha : a.Rigid) (h : b.Yields) (c : Range) :
    Associate (narrower? isSubtype) a b c := by
  rw [Associate, narrower?_yields ha h, narrower?_of_yields h, Option.bind_some, Option.bind_some]

theorem associate_of_yields_right {a b c : Range} (ha : a.Rigid) (hb : b.Rigid) (h : c.Yields) :
    Associate (narrower? isSubtype) a b c := by
  rw [Associate, narrower?_yields hb h, Option.bind_some]
  cases hab : narrower? isSubtype a b with
  | none => rfl
  | some ab =>
      rw [Option.bind_some, narrower?_yields (sameKind_of_narrower? ha hb hab).1 h]

theorem Associate.build {α : Type} {op : α → α → Option α} {build : α → Range}
    (hbuild : forall x y, narrower? isSubtype (build x) (build y) = (op x y).map build)
    {x y z : α} (h : Associate op x y z) :
    Associate (narrower? isSubtype) (build x) (build y) (build z) := by
  have hmap := congrArg (Option.map build) h
  simp only [Associate, hbuild, Option.bind_map, Option.map_bind, Function.comp_def] at hmap ⊢
  exact hmap

theorem Associate.cons {x y z : Range} {xs ys zs : List Range}
    (h : Associate (narrower? isSubtype) x y z)
    (hrest : Associate (narrowerPairs? isSubtype) xs ys zs) :
    Associate (narrowerPairs? isSubtype) (x :: xs) (y :: ys) (z :: zs) := by
  have hleft : (narrowerPairs? isSubtype (x :: xs) (y :: ys)).bind
        (fun xys => narrowerPairs? isSubtype xys (z :: zs)) =
      ((narrower? isSubtype x y).bind fun xy => narrower? isSubtype xy z).bind fun m =>
        ((narrowerPairs? isSubtype xs ys).bind fun xys => narrowerPairs? isSubtype xys zs).map
          fun ms => m :: ms := by
    cases hfirst : narrower? isSubtype x y <;>
      cases hfollow : narrowerPairs? isSubtype xs ys <;> simp [narrowerPairs?_cons, hfirst, hfollow]
  have hright : (narrowerPairs? isSubtype (y :: ys) (z :: zs)).bind
        (fun yzs => narrowerPairs? isSubtype (x :: xs) yzs) =
      ((narrower? isSubtype y z).bind fun yz => narrower? isSubtype x yz).bind fun m =>
        ((narrowerPairs? isSubtype ys zs).bind fun yzs => narrowerPairs? isSubtype xs yzs).map
          fun ms => m :: ms := by
    cases hfirst : narrower? isSubtype y z <;>
      cases hfollow : narrowerPairs? isSubtype ys zs <;> simp [narrowerPairs?_cons, hfirst, hfollow]
  rw [Associate, hleft, hright, h, hrest]

theorem associate_undefined :
    Associate (narrower? isSubtype) undefined undefined undefined := by
  have hself : narrower? isSubtype undefined undefined = some undefined := by
    rw [narrower?_eq_some, merge]
  rw [Associate, hself, Option.bind_some, Option.bind_some]

theorem associate_nil : Associate (narrowerPairs? isSubtype) [] [] [] := by
  have hnil : narrowerPairs? isSubtype [] [] = some [] := by
    simp [narrowerPairs?, mergePairs, Except.toOption]
  rw [Associate, hnil, Option.bind_some, Option.bind_some]

theorem associate_of_lengths {xs ys zs : List Range}
    (h : ¬ (xs.length = ys.length ∧ ys.length = zs.length)) :
    Associate (narrowerPairs? isSubtype) xs ys zs :=
  associate_of_unlike (fun xs ys => xs.length = ys.length) Eq.symm Eq.trans
    (fun _ _ hm => ⟨trivial, length_of_narrowerPairs? hm⟩) trivial trivial trivial h

mutual

theorem associate_narrower? (hforest : Forest isSubtype) (a b c : Range) (ha : a.UnionFree)
    (hb : b.UnionFree) (hc : c.UnionFree) : Associate (narrower? isSubtype) a b c := by
  rcases ha.yields_or_rigid with hya | hra
  · exact associate_of_yields_left hya b c
  rcases hb.yields_or_rigid with hyb | hrb
  · exact associate_of_yields_middle hra hyb c
  rcases hc.yields_or_rigid with hyc | hrc
  · exact associate_of_yields_right hra hrb hyc
  by_cases hkind : SameKind a b ∧ SameKind b c
  · rcases hkind with ⟨hab, hbc⟩
    cases a with
    | undefined =>
        cases hab
        cases hbc
        exact associate_undefined
    | literal x =>
        cases hab with
        | literal _ y =>
            cases hbc with
            | literal _ z => exact (forest_datatypes.associate_lower? x y z).build narrower?_literal
    | type x =>
        cases hab with
        | type _ y =>
            cases hbc with
            | type _ z => exact (hforest.associate_lower? x y z).build narrower?_type
    | intersection xs =>
        cases hab with
        | intersection _ ys =>
            cases hbc with
            | intersection _ zs =>
                exact (associate_narrowerPairs? hforest xs ys zs ha hb hc).build
                  narrower?_intersection
    | tuple xs =>
        cases hab with
        | tuple _ ys =>
            cases hbc with
            | tuple _ zs =>
                exact (associate_narrowerPairs? hforest xs ys zs ha hb hc).build narrower?_tuple
    | array x =>
        cases hab with
        | array _ y =>
            cases hbc with
            | array _ z => exact (associate_narrower? hforest x y z ha hb hc).build narrower?_array
    | rest x =>
        cases hab with
        | rest _ y =>
            cases hbc with
            | rest _ z => exact (associate_narrower? hforest x y z ha hb hc).build narrower?_rest
    | keyof x =>
        cases hab with
        | keyof _ y =>
            cases hbc with
            | keyof _ z => exact (associate_narrower? hforest x y z ha hb hc).build narrower?_keyof
    | _ => cases hra
  · exact associate_of_unlike SameKind SameKind.symm SameKind.trans sameKind_of_narrower? hra hrb hrc
      hkind

theorem associate_narrowerPairs? (hforest : Forest isSubtype) (xs ys zs : List Range)
    (hxs : AllUnionFree xs) (hys : AllUnionFree ys) (hzs : AllUnionFree zs) :
    Associate (narrowerPairs? isSubtype) xs ys zs := by
  cases xs with
  | nil =>
      cases ys with
      | nil =>
          cases zs with
          | nil => exact associate_nil
          | cons z zs => exact associate_of_lengths fun h => nomatch h.2
      | cons y ys => exact associate_of_lengths fun h => nomatch h.1
  | cons x xs =>
      cases ys with
      | nil => exact associate_of_lengths fun h => nomatch h.1
      | cons y ys =>
          cases zs with
          | nil => exact associate_of_lengths fun h => nomatch h.2
          | cons z zs =>
              have hfirst := associate_narrower? hforest x y z hxs.1 hys.1 hzs.1
              have hrest := associate_narrowerPairs? hforest xs ys zs hxs.2 hys.2 hzs.2
              exact hfirst.cons hrest

end

/-- Three ranges without unions merge in both groupings and into the same range, or in neither, if
the types form a forest. -/
theorem merge_associative (hforest : Forest isSubtype) {a b c : Range} (ha : a.UnionFree)
    (hb : b.UnionFree) (hc : c.UnionFree) :
    (exists m,
      (merge isSubtype a b).bind (fun ab => merge isSubtype ab c) = .ok m ∧
      (merge isSubtype b c).bind (fun bc => merge isSubtype a bc) = .ok m) ∨
    exists cause cause',
      (merge isSubtype a b).bind (fun ab => merge isSubtype ab c) = .error cause ∧
      (merge isSubtype b c).bind (fun bc => merge isSubtype a bc) = .error cause' := by
  have hassociate := associate_narrower? hforest a b c ha hb hc
  apply both_of_toOption_eq
  rw [toOption_bind, toOption_bind]
  exact hassociate

theorem forest_dogsAreAnimals : Forest dogsAreAnimals where
  refl x := by simp [dogsAreAnimals]
  trans hxy hyz := by
    simp only [dogsAreAnimals, Bool.or_eq_true, Bool.and_eq_true, decide_eq_true_eq] at *
    grind
  antisymm := antisymmetric_dogsAreAnimals
  above hxy hxz := by
    simp only [dogsAreAnimals, Bool.or_eq_true, Bool.and_eq_true, decide_eq_true_eq] at *
    grind

def looseKennel : Range :=
  tuple [generic "T", array (type "Animal"), intersection [keyof wildcard]]

def numberedKennel : Range :=
  tuple [literal Vocabulary.Xsd.number, wildcard, generic "U"]

def dogKennel : Range :=
  tuple [wildcard, array (type "Dog"), intersection [keyof (rest undefined)]]

theorem merge_associative_kennels :
    (merge dogsAreAnimals looseKennel numberedKennel).bind
        (fun ab => merge dogsAreAnimals ab dogKennel) =
      .ok (tuple [literal Vocabulary.Xsd.number, array (type "Dog"),
        intersection [keyof (rest undefined)]]) ∧
    (merge dogsAreAnimals numberedKennel dogKennel).bind
        (fun bc => merge dogsAreAnimals looseKennel bc) =
      .ok (tuple [literal Vocabulary.Xsd.number, array (type "Dog"),
        intersection [keyof (rest undefined)]]) := by
  have hleft : (merge dogsAreAnimals looseKennel numberedKennel).bind
        (fun ab => merge dogsAreAnimals ab dogKennel) =
      .ok (tuple [literal Vocabulary.Xsd.number, array (type "Dog"),
        intersection [keyof (rest undefined)]]) := by
    simp [looseKennel, numberedKennel, dogKennel, merge, mergePairs, lift, Except.bind,
      dogsAreAnimals]
  rcases merge_associative forest_dogsAreAnimals
    (show looseKennel.UnionFree from ⟨trivial, trivial, ⟨trivial, trivial⟩, trivial⟩)
    (show numberedKennel.UnionFree from ⟨trivial, trivial, trivial, trivial⟩)
    (show dogKennel.UnionFree from ⟨trivial, trivial, ⟨trivial, trivial⟩, trivial⟩)
    with ⟨m, hm, hm'⟩ | ⟨cause, cause', hfail, -⟩
  · rw [hleft] at hm
    cases hm
    exact ⟨hleft, hm'⟩
  · rw [hleft] at hfail
    cases hfail

end Range
end Wiring
