import Wiring.Proofs.Range.Unfolding

/-!
# Members of a union

The members of a union are tried in order, each one on the bindings that the ones
before it have left.  A member that refuses a value may have bound generic type
parameters before it comes to the part of the value that it refuses.  Members
that bind nothing before they refuse leave no trace.
-/

namespace Wiring
namespace Range

variable {g : Graph} {v : Observed} {c c' : Generics} {cast : Option Scalar} {ms : List Range}

/-!
# The member that is chosen
-/

/-- The first range that accepts the value, each one being checked on what those before it have
left. -/
inductive Chooses (x : Range → Checking (Option Scalar)) :
    List Range → Generics → Option Scalar → Generics → Prop where
  | here {r : Range} {rs : List Range} {c c' : Generics} {cast : Option Scalar}
      (head : outcome (x r) c = (.ok cast, c')) : Chooses x (r :: rs) c cast c'
  | there {r : Range} {rs : List Range} {c d c' : Generics} {cast : Option Scalar} {report : Report}
      (head : outcome (x r) c = (.error (.mismatch report), d)) (tail : Chooses x rs d cast c') :
      Chooses x (r :: rs) c cast c'

theorem Chooses.congr {x y : Range → Checking (Option Scalar)} (h : Chooses x ms c cast c')
    (hsame : forall r d, isCut (outcome (x r) d) = false -> outcome (y r) d = outcome (x r) d) :
    Chooses y ms c cast c' := by
  induction h with
  | @here r _ c _ _ head => exact .here ((hsame r c (by rw [head]; rfl)).trans head)
  | @there r _ c _ _ _ _ head tail ih =>
      exact .there ((hsame r c (by rw [head]; rfl)).trans head) ih

section Members

variable {onGeneric : String → Observed → Checking (Option Scalar)} {r : Range} {rs : List Range}
  {d : Generics}

theorem outcome_checkAny_accepted {a : Option Scalar}
    (h : outcome (checkWith g onGeneric v r) c = (.ok a, d)) :
    outcome (checkAny g onGeneric v (r :: rs)) c = (.ok (.ok a), d) := by
  rw [checkAny, outcome_bind, Checking.outcome_outcome, h]
  rfl

theorem outcome_checkAny_endless {name : String}
    (h : outcome (checkWith g onGeneric v r) c = (.error (.endless name), d)) :
    outcome (checkAny g onGeneric v (r :: rs)) c = (.error (.endless name), d) := by
  rw [checkAny, outcome_bind, Checking.outcome_outcome, h]

theorem outcome_checkAny_refused {report : Report}
    (h : outcome (checkWith g onGeneric v r) c = (.error (.mismatch report), d)) :
    outcome (checkAny g onGeneric v (r :: rs)) c =
      outcome (Except.mapError (report :: ·) <$> checkAny g onGeneric v rs) d := by
  rw [checkAny, outcome_bind, Checking.outcome_outcome, h]
  dsimp only
  rw [outcome_bind, outcome_map]
  rcases outcome (checkAny g onGeneric v rs) d with ⟨e | (causes | a), d'⟩ <;> rfl

theorem outcome_checkAny_ok :
    outcome (checkAny g onGeneric v ms) c = (.ok (.ok cast), c') <->
      Chooses (checkWith g onGeneric v) ms c cast c' := by
  induction ms generalizing c with
  | nil => exact ⟨fun h => (nomatch h), fun h => nomatch h⟩
  | cons r rs ih =>
      rcases hrun : outcome (checkWith g onGeneric v r) c with ⟨(report | name) | a, d⟩
      · have hrest : outcome (Except.mapError (report :: ·) <$> checkAny g onGeneric v rs) d =
            (.ok (.ok cast), c') <-> Chooses (checkWith g onGeneric v) rs d cast c' := by
          rw [← ih, outcome_map]
          rcases outcome (checkAny g onGeneric v rs) d with ⟨e | (causes | a), d'⟩
          · exact ⟨fun h => (nomatch h), fun h => nomatch h⟩
          · exact ⟨fun h => (nomatch h), fun h => nomatch h⟩
          · rfl
        rw [outcome_checkAny_refused hrun, hrest]
        refine ⟨.there hrun, fun h => ?_⟩
        cases h with
        | here head =>
            rw [hrun] at head
            cases head
        | there head tail =>
            rw [hrun] at head
            cases head
            exact tail
      · rw [outcome_checkAny_endless hrun]
        refine ⟨fun h => (nomatch h), fun h => ?_⟩
        cases h with
        | here head =>
            rw [hrun] at head
            cases head
        | there head tail =>
            rw [hrun] at head
            cases head
      · rw [outcome_checkAny_accepted hrun]
        refine ⟨fun h => .here ?_, fun h => ?_⟩
        · cases h
          exact hrun
        · cases h with
          | here head =>
              rw [hrun] at head
              cases head
              rfl
          | there head tail =>
              rw [hrun] at head
              cases head

end Members

theorem outcome_checkWith_union {onGeneric : String → Observed → Checking (Option Scalar)} :
    outcome (checkWith g onGeneric v (union ms)) c = (.ok cast, c') <->
      outcome (checkAny g onGeneric v ms) c = (.ok (.ok cast), c') := by
  rw [checkWith, outcome_bind]
  rcases outcome (checkAny g onGeneric v ms) c with ⟨e | (causes | a), d⟩
  · exact ⟨fun h => (nomatch h), fun h => nomatch h⟩
  · exact ⟨fun h => (nomatch h), fun h => nomatch h⟩
  · constructor <;> intro h <;> cases h <;> rfl

theorem outcome_check_union :
    outcome (check g v (union ms)) c = (.ok cast, c') <-> Chooses (check g v) ms c cast c' := by
  rw [outcome_check_eq_ok, outcome_checkWith_union, outcome_checkAny_ok]
  constructor
  · intro h
    exact h.congr fun r d hends => outcome_check_unfold (.inr hends)
  · intro h
    exact h.congr fun r d hends => (outcome_check_unfold (.inl hends)).symm

theorem Chooses.exists_accepts (h : Chooses (check g v) ms c cast c') :
    exists r, r ∈ ms ∧ exists d, c.Settles d ∧ Accepts g d v r := by
  induction h with
  | @here r _ c c' cast head => exact ⟨r, List.mem_cons_self, c, .refl c, cast, c', head⟩
  | @there r _ c d _ _ _ head tail ih =>
      rcases ih with ⟨r', hr', e, he, haccepts⟩
      have hd := settles_check (g := g) v r c
      rw [head] at hd
      exact ⟨r', List.mem_cons_of_mem r hr', e, hd.trans he, haccepts⟩

/-!
# Members that leave no trace
-/

end Range

/-- A literal has a value under its own datatype. -/
def Observed.Legal (v : Observed) : Prop :=
  forall l, v = .literal l -> exists cast, Datatype.cast l.value l.datatype = .ok cast

namespace Range

/-- A range that leaves the bindings as they are if it refuses the value.  The last one of its parts
may refer to generic type parameters: an unbound one accepts a value that is legal, and a bound one
binds nothing before the range it is bound to does. -/
inductive Discreet (g : Graph) (c : Generics) : Range → Observed → Prop where
  | concrete {r : Range} {v : Observed} (h : r.Concrete) : Discreet g c r v
  | unknown {name : String} {v : Observed} (h : c.inScope name = false) :
      Discreet g c (generic name) v
  | unbound {name : String} {v : Observed} (h : c.binding? name = none) (hv : v.Legal) :
      Discreet g c (generic name) v
  | bound {name : String} {r : Range} {v : Observed} (h : c.binding? name = some r)
      (hr : Discreet g c r v) : Discreet g c (generic name) v
  | union {members : List Range} {v : Observed} (h : forall r, r ∈ members -> Discreet g c r v) :
      Discreet g c (union members) v
  | intersection {members : List Range} {last : Range} {v : Observed} (h : AllConcrete members)
      (hlast : Discreet g c last v) : Discreet g c (intersection (members ++ [last])) v
  | tuple {members : List Range} {last : Range} {v : Observed} {items : List Observed}
      (h : AllConcrete members) (hrest : forall inner, rest inner ∉ members ++ [last])
      (hitems : v.items? g = some items) (hlength : items.length ≤ members.length + 1)
      (hlast : Discreet g c last ((items.drop members.length).headD .absent)) :
      Discreet g c (tuple (members ++ [last])) v
  | rest {r : Range} {v : Observed} (hr : Discreet g c r v) : Discreet g c (rest r) v
  | tupleOfItems {members : List Range} {v : Observed} (h : v.items? g = none) :
      Discreet g c (tuple members) v
  | arrayOfItems {inner : Range} {v : Observed} (h : v.items? g = none) :
      Discreet g c (array inner) v

end Range

namespace Checking

def Traceless {α : Type} (x : Checking α) (c : Generics) : Prop :=
  forall report d, Wiring.outcome x c = (.error (.mismatch report), d) -> d = c

variable {α β : Type} {x : Checking α} {c : Generics}

theorem Still.traceless (h : x.Still) (c : Generics) : x.Traceless c := by
  intro report d hrun
  have hstill := h c
  rw [hrun] at hstill
  exact hstill

namespace Traceless

theorem within (h : x.Traceless c) (wrap : Report → Report) : (x.within wrap).Traceless c := by
  intro report d hrun
  rw [outcome_within] at hrun
  rcases hx : Wiring.outcome x c with ⟨(cause | name) | a, c'⟩
  · rw [hx] at hrun
    cases hrun
    exact h cause _ hx
  · rw [hx] at hrun
    cases hrun
  · rw [hx] at hrun
    cases hrun

theorem bind {k : α -> Checking β} (h : x.Traceless c)
    (hk : forall a d, Wiring.outcome x c = (.ok a, d) -> d = c ∧ (k a).Traceless c) :
    (x >>= k).Traceless c := by
  intro report d hrun
  rw [outcome_bind] at hrun
  rcases hx : Wiring.outcome x c with ⟨e | a, c'⟩
  · rw [hx] at hrun
    cases hrun
    exact h report _ hx
  · rw [hx] at hrun
    rcases hk a c' hx with ⟨rfl, htraceless⟩
    exact htraceless report d hrun

theorem bind_still {k : α -> Checking β} (h : x.Still) (hk : forall a, (k a).Traceless c) :
    (x >>= k).Traceless c := by
  refine (h.traceless c).bind fun a d hrun => ⟨?_, hk a⟩
  have hstill := h c
  rw [hrun] at hstill
  exact hstill

theorem bind_pure (h : x.Traceless c) (f : α -> β) : (x >>= fun a => Pure.pure (f a)).Traceless c := by
  intro report d hrun
  rw [outcome_bind] at hrun
  rcases hx : Wiring.outcome x c with ⟨e | a, c'⟩
  · rw [hx] at hrun
    cases hrun
    exact h report _ hx
  · rw [hx] at hrun
    cases hrun

end Traceless
end Checking

namespace Range

variable {g : Graph} {v : Observed} {c c' : Generics} {cast : Option Scalar} {ms : List Range}

/-!
# Values of unbound generic type parameters
-/

theorem isA_of_mem_types {id : NodeId} {iri : String} (h : iri ∈ g.types id) :
    g.isA id iri = true := by
  unfold Graph.isA Graph.isSubclassOf
  exact List.any_eq_true.mpr ⟨iri, h, by simp⟩

theorem admits_inferredRange {r : Range} (hlegal : v.Legal) (h : v.inferredRange? g = some r) :
    r.Admits g v := by
  cases v with
  | absent =>
      cases h
      rfl
  | literal l =>
      cases h
      rcases hlegal l rfl with ⟨cast, hcast⟩
      exact ⟨l, cast, rfl, hcast⟩
  | node id =>
      unfold Observed.inferredRange? at h
      dsimp only at h
      split at h
      · cases h
      · next iri htypes =>
          cases h
          exact ⟨id, rfl, isA_of_mem_types (by rw [htypes]; exact List.mem_cons_self)⟩
      · next iris hne _ =>
          cases h
          rcases List.exists_mem_of_ne_nil (g.types id) hne with ⟨iri, hiri⟩
          exact admitsAny_iff.mpr
            ⟨.type iri, List.mem_map_of_mem hiri, id, rfl, isA_of_mem_types hiri⟩

theorem outcome_checkWithin_inferred {r : Range} (hlegal : v.Legal)
    (h : v.inferredRange? g = some r) (links : Nat) (c : Generics) :
    exists cast, outcome (checkWithin g links v r) c = (.ok cast, c) := by
  rw [checkWithin_eq]
  have hdecides : (checkWith g (genericWithin g links) v r).Decides (r.Admits g v) :=
    decides_checkWith r (Observed.plain_inferredRange? h).concrete v
  rcases hdecides c with ⟨-, hok⟩ | ⟨hnot, -⟩
  · exact hok
  · exact absurd (admits_inferredRange hlegal h) hnot

theorem requirement?_of_inScope {name : String} (h : c.inScope name = true) :
    c.requirement? name = .ok (c.binding? name) :=
  if_pos h

/-!
# Checks that leave no trace
-/

theorem traceless_checkGeneric {onBinding : Observed → Range → Checking (Option Scalar)}
    {name : String}
    (hunbound : c.inScope name = true -> c.binding? name = none ->
      forall r, v.inferredRange? g = some r ->
      forall d report d', outcome (onBinding v r) d ≠ (.error (.mismatch report), d'))
    (hbound : c.inScope name = true -> forall r, c.binding? name = some r ->
      (onBinding v r).Traceless c) :
    (checkGeneric g onBinding name v).Traceless c := by
  intro report d hrun
  rw [outcome_checkGeneric] at hrun
  dsimp only at hrun
  by_cases hscope : c.inScope name = true
  · rw [requirement?_of_inScope hscope] at hrun
    cases hbinding : c.binding? name with
    | none =>
        rw [hbinding] at hrun
        dsimp only [Generics.inferFrom] at hrun
        cases hinferred : v.inferredRange? g with
        | none =>
            rw [hinferred] at hrun
            dsimp only at hrun
            rw [hbinding] at hrun
            cases hrun
        | some r =>
            rw [hinferred] at hrun
            dsimp only at hrun
            rw [Generics.binding?_assign, if_pos rfl] at hrun
            dsimp only at hrun
            rw [Checking.outcome_within] at hrun
            rcases hown : outcome (onBinding v r) (c.assign name r) with ⟨(cause | other) | a, d'⟩
            · exact absurd hown (hunbound hscope hbinding r hinferred _ _ _)
            · rw [hown] at hrun
              cases hrun
            · rw [hown] at hrun
              cases hrun
    | some existing =>
        rw [hbinding] at hrun
        dsimp only at hrun
        rcases hexisting : outcome (onBinding v existing) c with ⟨(cause | other) | a, d'⟩
        · rw [hexisting] at hrun
          cases hrun
          exact hbound hscope existing hbinding cause _ hexisting
        · rw [hexisting] at hrun
          cases hrun
        · rw [hexisting] at hrun
          cases hrun
  · have hunknown : c.requirement? name = .error (Generics.outOfScope name) := if_neg hscope
    rw [hunknown] at hrun
    cases hrun
    rfl

theorem traceless_genericWithin {name : String} (links : Nat)
    (hunbound : c.inScope name = true -> c.binding? name = none -> v.Legal)
    (hbound : c.inScope name = true -> forall r, c.binding? name = some r -> forall links,
      (checkWithin g links v r).Traceless c) :
    (genericWithin g links name v).Traceless c := by
  cases links with
  | zero =>
      rw [genericWithin]
      refine traceless_checkGeneric ?_ ?_
      · rintro - - r - d report d' hrun
        cases hrun
      · rintro - r - report d hrun
        cases hrun
  | succ links =>
      refine traceless_checkGeneric (fun hscope hnone r hr d report d' hrun => ?_)
        fun hscope r hr => hbound hscope r hr links
      rcases outcome_checkWithin_inferred (hunbound hscope hnone) hr links d with ⟨cast, hok⟩
      rw [hok] at hrun
      cases hrun

variable {onGeneric : String → Observed → Checking (Option Scalar)}

theorem traceless_checkAny (h : forall r, r ∈ ms -> (checkWith g onGeneric v r).Traceless c)
    {answer : Except Rejection (Except (List Report) (Option Scalar))} {d : Generics}
    (hrun : outcome (checkAny g onGeneric v ms) c = (answer, d)) :
    (forall cast, answer ≠ .ok (.ok cast)) -> (forall name, answer ≠ .error (.endless name)) ->
      d = c := by
  induction ms generalizing answer with
  | nil =>
      cases hrun
      exact fun _ _ => rfl
  | cons r rs ih =>
      intro haccepted hendless
      rcases hr : outcome (checkWith g onGeneric v r) c with ⟨(report | name) | a, d'⟩
      · obtain rfl : d' = c := h r List.mem_cons_self report d' hr
        have hrs (r : Range) (hr : r ∈ rs) := h r (List.mem_cons_of_mem _ hr)
        rw [outcome_checkAny_refused hr, outcome_map] at hrun
        rcases hrest : outcome (checkAny g onGeneric v rs) d' with ⟨e | (causes | a), d''⟩
        · rw [hrest] at hrun
          cases hrun
          refine ih hrs hrest (fun _ h => (nomatch h)) fun name heq => hendless name ?_
          cases heq
          rfl
        · rw [hrest] at hrun
          cases hrun
          exact ih hrs hrest (fun _ h => (nomatch h)) fun _ h => nomatch h
        · rw [hrest] at hrun
          cases hrun
          exact absurd rfl (haccepted a)
      · rw [outcome_checkAny_endless hr] at hrun
        cases hrun
        exact absurd rfl (hendless name)
      · rw [outcome_checkAny_accepted hr] at hrun
        cases hrun
        exact absurd rfl (haccepted a)

theorem traceless_union (h : forall r, r ∈ ms -> (checkWith g onGeneric v r).Traceless c) :
    (checkWith g onGeneric v (union ms)).Traceless c := by
  intro report d hrun
  rw [checkWith, outcome_bind] at hrun
  rcases hany : outcome (checkAny g onGeneric v ms) c with ⟨e | (causes | a), d'⟩
  · rw [hany] at hrun
    cases hrun
    exact traceless_checkAny h hany (fun _ h => (nomatch h)) fun _ h => nomatch h
  · rw [hany] at hrun
    cases hrun
    exact traceless_checkAny h hany (fun _ h => (nomatch h)) fun _ h => nomatch h
  · rw [hany] at hrun
    cases hrun

theorem traceless_itemsOf {α : Type} {r : Range} {k : List Observed → Checking α}
    (h : v.items? g = none) : (itemsOf g v r >>= k).Traceless c := by
  unfold itemsOf
  rw [h]
  exact (Checking.Still.throw _).traceless c

theorem traceless_checkAll {last : Range} (hms : AllConcrete ms)
    (hlast : (checkWith g onGeneric v last).Traceless c) :
    (checkAll g onGeneric v (ms ++ [last])).Traceless c := by
  induction ms with
  | nil =>
      rw [List.nil_append, checkAll]
      refine hlast.bind_pure (Option.or · none)
  | cons r rs ih =>
      rw [List.cons_append, checkAll]
      have hr : (checkWith g onGeneric v r).Still := (decides_checkWith r hms.1 v).still
      exact .bind_still hr fun first => (ih hms.2).bind_pure first.or

theorem traceless_checkPositions {last whole : Range} {items : List Observed} {position : Nat}
    (hms : AllConcrete ms) (hrest : forall inner, rest inner ∉ ms ++ [last])
    (hlength : items.length ≤ ms.length + 1)
    (hlast : (checkWith g onGeneric ((items.drop ms.length).headD .absent) last).Traceless c) :
    (checkPositions g onGeneric v whole position items (ms ++ [last])).Traceless c := by
  induction ms generalizing items position with
  | nil =>
      have hnone : checkPositions g onGeneric v whole (position + 1) items.tail [] = pure () := by
        rw [checkPositions, if_pos]
        refine List.isEmpty_iff.mpr (List.eq_nil_of_length_eq_zero ?_)
        rw [List.length_tail]
        exact Nat.sub_eq_zero_of_le hlength
      rw [List.nil_append, checkPositions_cons fun inner h => hrest inner (by simp [h]), hnone]
      exact (hlast.within _).bind_pure fun _ => ()
  | cons r rs ih =>
      have hr : (Checking.within (positionMismatch g v whole position)
          (checkWith g onGeneric (items.headD .absent) r)).Still :=
        ((decides_checkWith r hms.1 (items.headD .absent)).within _).still
      rw [List.cons_append, checkPositions_cons fun inner h => hrest inner (by simp [h])]
      refine .bind_still hr fun _ => ih hms.2 (fun inner h => ?_) ?_ ?_
      · exact hrest inner (List.mem_cons_of_mem _ h)
      · simp at hlength ⊢
        omega
      · rw [List.drop_tail]
        exact hlast

theorem Discreet.traceless {r : Range} (h : Discreet g c r v) (links : Nat) :
    (checkWithin g links v r).Traceless c := by
  induction h generalizing links with
  | concrete h => exact (still_checkWithin links _ h).traceless c
  | @unknown name v h =>
      rw [checkWithin_eq, checkWith]
      refine traceless_genericWithin links (fun hscope => ?_) fun hscope => ?_
      · rw [h] at hscope
        cases hscope
      · rw [h] at hscope
        cases hscope
  | @unbound name v h hv =>
      rw [checkWithin_eq, checkWith]
      refine traceless_genericWithin links (fun _ _ => hv) fun _ r hr => ?_
      rw [h] at hr
      cases hr
  | @bound name r v h hr ih =>
      rw [checkWithin_eq, checkWith]
      refine traceless_genericWithin links (fun _ hnone => ?_) fun _ r' hr' => ?_
      · rw [h] at hnone
        cases hnone
      · rw [h] at hr'
        cases hr'
        exact ih
  | union h ih =>
      rw [checkWithin_eq]
      refine traceless_union fun r hr => ?_
      rw [← checkWithin_eq]
      exact ih r hr links
  | intersection h hlast ih =>
      rw [checkWithin_eq, checkWith]
      refine (traceless_checkAll h ?_).within _
      rw [← checkWithin_eq]
      exact ih links
  | tuple h hrest hitems hlength hlast ih =>
      rw [checkWithin_eq, checkWith, itemsOf, hitems]
      refine (traceless_checkPositions h hrest hlength ?_).bind_pure fun _ => none
      rw [← checkWithin_eq]
      exact ih links
  | rest hr ih =>
      rw [checkWithin_eq, checkWith, ← checkWithin_eq]
      exact ih links
  | tupleOfItems h =>
      rw [checkWithin_eq, checkWith]
      exact traceless_itemsOf h
  | arrayOfItems h =>
      rw [checkWithin_eq, checkWith]
      exact traceless_itemsOf h

/-!
# The first member that accepts
-/

theorem not_accepts_of_refused {r : Range} {e : Rejection} {d : Generics}
    (h : outcome (check g v r) c = (.error e, d)) : ¬ Accepts g c v r := by
  rintro ⟨cast, c', hok⟩
  rw [h] at hok
  cases hok

theorem Chooses.first (h : Chooses (check g v) ms c cast c')
    (hdiscreet : forall before r after, ms = before ++ r :: after ->
      (forall b, b ∈ before -> ¬ Accepts g c v b) -> ¬ Accepts g c v r -> Discreet g c r v) :
    exists before r after, ms = before ++ r :: after ∧
      (forall b, b ∈ before -> ¬ Accepts g c v b) ∧
      outcome (check g v r) c = (.ok cast, c') := by
  induction h with
  | @here r rs _ _ _ head =>
      exact ⟨[], r, rs, rfl, fun b hb => absurd hb List.not_mem_nil, head⟩
  | @there r rs c d _ _ report head tail ih =>
      have hrefused : ¬ Accepts g c v r := not_accepts_of_refused head
      rcases Range.exists_links g v r c with ⟨links, hrun⟩
      have htraceless := (hdiscreet [] r rs rfl (fun b hb => absurd hb List.not_mem_nil)
        hrefused).traceless links
      rw [hrun] at head
      obtain rfl : d = c := htraceless report d head
      rcases ih fun before r' after hrs hbefore =>
        hdiscreet (r :: before) r' after (by rw [hrs]; rfl) (List.forall_mem_cons.mpr
          ⟨hrefused, hbefore⟩) with ⟨before, r', after, hrs, hbefore, hrun⟩
      exact ⟨r :: before, r', after, by rw [hrs]; rfl,
        List.forall_mem_cons.mpr ⟨hrefused, hbefore⟩, hrun⟩

/-- A union that accepts a value does what its first member does that accepts it on what the members
before it have left.  That is the first member that accepts it on the original bindings, and it is
checked on them, if no member before that one may leave a trace of the value. -/
theorem check_union_first (g : Graph) (c : Generics) (v : Observed) (ms : List Range)
    (cast : Option Scalar) (c' : Generics) :
    (outcome (check g v (union ms)) c = (.ok cast, c') <-> Chooses (check g v) ms c cast c') ∧
    (outcome (check g v (union ms)) c = (.ok cast, c') ->
      (forall before r after, ms = before ++ r :: after ->
        (forall b, b ∈ before -> ¬ Accepts g c v b) -> ¬ Accepts g c v r -> Discreet g c r v) ->
      exists before r after, ms = before ++ r :: after ∧
        (forall b, b ∈ before -> ¬ Accepts g c v b) ∧
        outcome (check g v r) c = (.ok cast, c')) :=
  ⟨outcome_check_union, fun h hdiscreet => (outcome_check_union.mp h).first hdiscreet⟩

theorem check_union_first_word : exists before r after,
    [tuple [generic "T"], literal Vocabulary.Xsd.integer, generic "T", wildcard] =
      before ++ r :: after ∧
    (forall b, b ∈ before ->
      ¬ Accepts Graph.empty (.ofScope ["T"]) (.literal (.plain "word")) b) ∧
    outcome (check Graph.empty (.literal (.plain "word")) r) (.ofScope ["T"]) =
      (.ok none, ⟨["T"], [("T", literal Vocabulary.Xsd.string)]⟩) := by
  have hlegal : (Observed.literal (.plain "word")).Legal := by
    rintro l hl
    cases hl
    exact ⟨none, rfl⟩
  have hdiscreet (r : Range)
      (hr : r ∈ [tuple [generic "T"], literal Vocabulary.Xsd.integer, generic "T", wildcard]) :
      Discreet Graph.empty (.ofScope ["T"]) r (.literal (.plain "word")) := by
    simp only [List.mem_cons, List.not_mem_nil, or_false] at hr
    rcases hr with rfl | rfl | rfl | rfl
    · exact .tupleOfItems rfl
    · exact .concrete trivial
    · exact .unbound rfl hlegal
    · exact .concrete trivial
  refine (check_union_first Graph.empty (.ofScope ["T"]) (.literal (.plain "word"))
    [tuple [generic "T"], literal Vocabulary.Xsd.integer, generic "T", wildcard] none _).2 rfl ?_
  intro before r after heq _ _
  exact hdiscreet r (by rw [heq]; simp)

def mixedList : Graph :=
  let (five, g) := Graph.empty.intern (.literal (.typed "5" Vocabulary.Xsd.integer))
  let (word, g) := g.intern (.literal (.plain "word"))
  (g.freshList [five, word]).2

/-- A member may leave a trace of a value that it refuses, so that another member refuses the value
as well which would accept it. -/
theorem not_check_union_first :
    ¬ forall (g : Graph) (c : Generics) (v : Observed) (ms : List Range) (cast : Option Scalar)
      (c' : Generics), c.Acyclic -> outcome (check g v (union ms)) c = (.ok cast, c') ->
      exists before r after, ms = before ++ r :: after ∧
        (forall b, b ∈ before -> ¬ Accepts g c v b) ∧
        outcome (check g v r) c = (.ok cast, c') := by
  intro hall
  have hfirst : (outcome (check mixedList (.node 2)
      (tuple [generic "T", literal Vocabulary.Xsd.boolean])) (.ofScope ["T"])).1.isOk = false := by
    decide +kernel
  have hsecond : outcome (check mixedList (.node 2)
      (tuple [literal Vocabulary.Xsd.integer, generic "T"])) (.ofScope ["T"]) =
        (.ok none, ⟨["T"], [("T", literal Vocabulary.Xsd.string)]⟩) := rfl
  rcases hall mixedList (.ofScope ["T"]) (.node 2)
    [tuple [generic "T", literal Vocabulary.Xsd.boolean],
      tuple [literal Vocabulary.Xsd.integer, generic "T"], wildcard] none
    ⟨["T"], [("T", literal Vocabulary.Xsd.integer)]⟩ (Generics.acyclic_ofScope ["T"]) rfl with
    ⟨before, r, after, hms, hbefore, hrun⟩
  rcases before with _ | ⟨b, _ | ⟨b', before⟩⟩
  · cases hms
    rw [hrun] at hfirst
    cases hfirst
  · cases hms
    rw [hsecond] at hrun
    have htexts := congrArg (fun r => r.2.bindings.map fun entry => entry.2.text) hrun
    exact absurd htexts (by decide +kernel)
  · rcases List.cons.inj (List.cons.inj hms).2 with ⟨rfl, -⟩
    exact hbefore _ (List.mem_cons_of_mem _ List.mem_cons_self) ⟨_, _, hsecond⟩

end Range
end Wiring
