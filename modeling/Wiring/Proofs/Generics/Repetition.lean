import Wiring.Proofs.Generics.Scope
import Wiring.Proofs.Generics.Values

/-!
# Values that come again

Whether a value is of the range that it has of itself is asked of values that create a
binding only.  One that narrows a binding may be refused when it comes again, which is
decided by the range that it has left.  Where nothing is narrowed, a value may only be
refused the second time because of what its own parts have bound.
-/

namespace Wiring
namespace Range

open Checking (LeadAll)

variable {g : Graph} {v : Observed} {r r' : Range} {c c' d e f : Generics} {name : String}

/-!
# Ranges that meet different generic type parameters
-/

/-- The last two contexts bind all that the range may come to in the first one to the same ranges. -/
def Same (c : Generics) (r : Range) (d e : Generics) : Prop :=
  forall name, c.Reaches r name -> e.binding? name = d.binding? name

def Apart (c : Generics) (r r' : Range) : Prop :=
  forall name, c.Reaches r name -> ¬ c.Reaches r' name

theorem Same.trans (h : Same c r d e) (h' : Same c r e f) : Same c r d f :=
  fun name hname => (h' name hname).trans (h name hname)

theorem Apart.symm (h : Apart c r r') : Apart c r' r :=
  fun name hname hname' => h name hname' hname

theorem Apart.same (h : Apart c r r') (hd : c.Settles d) (v : Observed) :
    Same c r d (outcome (check g v r') d).2 := by
  intro name hname
  apply Generics.binding?_of_not_reaches
  exact fun hreaches => h name hname (hreaches.of_settles hd)

theorem Apart.same_of_leads (h : Apart c r r') (hd : c.Settles d)
    (hleads : (check g v r').Leads d e) : Same c r d e := by
  have hsame := h.same (g := g) hd v
  rcases hleads with ⟨cast, hrun⟩
  rw [hrun] at hsame
  exact hsame

theorem same_of_leadAll {parts : List (Range × Observed)}
    (h : LeadAll (fun part => check g part.2 part.1) parts d e) (hd : c.Settles d)
    (hapart : forall part, part ∈ parts -> Apart c r part.1) : Same c r d e := by
  induction h with
  | nil c => exact fun _ _ => rfl
  | @cons part parts d d' e head tail ih =>
      rw [List.forall_mem_cons] at hapart
      exact (hapart.1.same_of_leads hd head).trans (ih (hd.trans (settles_of_leads head)) hapart.2)

/-!
# Ranges that accept a value again
-/

def Lasts (g : Graph) (c : Generics) (r : Range) (v : Observed) : Prop :=
  forall d e f, c.Settles d -> Same c r c d -> (check g v r).Leads d e -> c.Settles f ->
    Same c r e f -> Accepts g f v r

/-- A range that accepts the value again.  What its parts may come to is different, and generic type
parameters are unbound, or not narrowed by the value, or narrowed to a range that admits it. -/
inductive Steady (g : Graph) (c : Generics) : Range → Observed → Prop where
  | concrete {r : Range} {v : Observed} (h : r.Concrete) : Steady g c r v
  | refused {r : Range} {v : Observed} (h : forall d, ¬ Accepts g d v r) : Steady g c r v
  | unbound {name : String} {v : Observed} (h : c.binding? name = none) :
      Steady g c (generic name) v
  | narrowed {name : String} {r m : Range} {v : Observed} (h : c.binding? name = some r)
      (hm : NarrowsTo g v r m) (hv : m.Admits g v) : Steady g c (generic name) v
  | kept {name : String} {r : Range} {v : Observed} (h : c.binding? name = some r)
      (hkept : forall m, ¬ NarrowsTo g v r m) (hr : Steady g c r v) : Steady g c (generic name) v
  | union {members : List Range} {v : Observed} (h : forall r, r ∈ members -> Steady g c r v)
      (hapart : members.Pairwise (Apart c)) : Steady g c (union members) v
  | parts {r : Range} {v : Observed} {parts : List (Range × Observed)} (h : Demands g r v parts)
      (hparts : forall part, part ∈ parts -> Steady g c part.1 part.2)
      (hapart : parts.Pairwise fun part other => Apart c part.1 other.1) : Steady g c r v

theorem lasts_concrete (hr : r.Concrete) : Lasts g c r v := by
  rintro d e f - - ⟨cast, hrun⟩ - -
  exact (accepts_iff hr f v).mpr ((accepts_iff hr d v).mp ⟨cast, e, hrun⟩)

theorem reaches_generic : c.Reaches (generic name) name :=
  ⟨name, rfl, .refl⟩

theorem inScope_of_settles (h : c.Settles d) : d.inScope name = c.inScope name := by
  unfold Generics.inScope
  rw [h.scope]

theorem lasts_unbound (hunbound : c.binding? name = none) : Lasts g c (generic name) v := by
  intro d e f hd hsame hleads hf hsame'
  have hscope := inScope_of_leads hleads
  have hnone : d.binding? name = none := (hsame name reaches_generic).trans hunbound
  rcases (leads_generic_unbound hscope hnone).mp hleads with ⟨hown, rfl⟩
  have hbinding := hsame' name reaches_generic
  have hscope' : f.inScope name = true := by
    rw [inScope_of_settles hf, ← inScope_of_settles hd]
    exact hscope
  unfold Generics.inferFrom at hbinding
  cases hs : v.inferredRange? g with
  | none =>
      rw [hs] at hbinding
      have hleads' := (leads_generic_unbound hscope' (hbinding.trans hnone)).mpr
        ⟨hown, rfl⟩
      exact accepts_iff_leads.mpr ⟨_, hleads'⟩
  | some s =>
      rw [hs] at hbinding
      dsimp only at hbinding
      rw [Generics.binding?_assign, if_pos rfl] at hbinding
      rw [accepts_generic_bound hscope' hbinding,
        accepts_iff (Observed.plain_inferredRange? hs).concrete]
      exact hown s hs

theorem lasts_bound (hc : c.Acyclic) (hbound : c.binding? name = some r)
    (hnarrowed : forall m, NarrowsTo g v r m -> m.Admits g v)
    (hkept : (forall m, ¬ NarrowsTo g v r m) -> Lasts g c r v) : Lasts g c (generic name) v := by
  intro d e f hd hsame hleads hf hsame'
  have hscope := inScope_of_leads hleads
  have hbound' : d.binding? name = some r := (hsame name reaches_generic).trans hbound
  rcases (leads_generic_bound hscope hbound').mp hleads with ⟨e', hleads', rfl⟩
  have hbinding := hsame' name reaches_generic
  have hscope' : f.inScope name = true := by
    rw [inScope_of_settles hf, ← inScope_of_settles hd]
    exact hscope
  by_cases hm : exists m, NarrowsTo g v r m
  · rcases hm with ⟨m, hm⟩
    rw [narrowBy_of_narrowsTo hm, Generics.binding?_assign, if_pos rfl] at hbinding
    rw [accepts_generic_bound hscope' hbinding, accepts_iff hm.concrete]
    exact hnarrowed m hm
  · have hnot : forall m, ¬ NarrowsTo g v r m := fun m h => hm ⟨m, h⟩
    rw [narrowBy_of_not_narrowsTo hnot] at hbinding hsame'
    have hreaches {next : String} (h : c.Reaches r next) : c.Reaches (generic name) next := by
      rcases h with ⟨first, hfirst, hpath⟩
      exact ⟨name, rfl, .head ⟨r, hbound, hfirst⟩ hpath⟩
    have hkeeps : e'.binding? name = d.binding? name := by
      have hcheck := Generics.binding?_check (g := g) (hd.acyclic hc) hbound' v
      rcases hleads' with ⟨cast, hrun⟩
      rw [hrun] at hcheck
      exact hcheck
    rw [accepts_generic_bound hscope' (hbinding.trans (hkeeps.trans hbound'))]
    exact hkept hnot d e' f hd (fun next h => hsame next (hreaches h)) hleads' hf
      fun next h => hsame' next (hreaches h)

theorem Same.mono (hreaches : forall first, r'.Mentions first -> r.Mentions first)
    (h : Same c r d e) : Same c r' d e := by
  rintro name ⟨first, hfirst, hpath⟩
  exact h name ⟨first, hreaches first hfirst, hpath⟩

theorem exists_chooses {members : List Range} {cast : Option Scalar} (hc : c.Acyclic)
    (h : Chooses (check g v) members d cast e)
    (hlasts : forall r, r ∈ members -> Lasts g c r v) (hapart : members.Pairwise (Apart c))
    (hd : c.Settles d) (hsame : forall r, r ∈ members -> Same c r c d) (hf : c.Settles f)
    (hsame' : forall r, r ∈ members -> Same c r e f) :
    exists cast' f', Chooses (check g v) members f cast' f' := by
  induction h generalizing f with
  | @here r rs d e cast head =>
      rcases hlasts r List.mem_cons_self d e f hd (hsame r List.mem_cons_self) ⟨cast, head⟩ hf
        (hsame' r List.mem_cons_self) with ⟨cast', f', hrun⟩
      exact ⟨cast', f', .here hrun⟩
  | @there r rs d d' e cast report head tail ih =>
      rw [List.forall_mem_cons] at hlasts hsame hsame'
      rw [List.pairwise_cons] at hapart
      rcases hrun : outcome (check g v r) f with ⟨(report' | name) | cast', f'⟩
      · have hd' := settles_check (g := g) v r d
        have hf' := settles_check (g := g) v r f
        have hleft (r' : Range) (hr' : r' ∈ rs) := (hapart.1 r' hr').symm.same (g := g) hd v
        have hleft' (r' : Range) (hr' : r' ∈ rs) := (hapart.1 r' hr').symm.same (g := g) hf v
        rw [head] at hd' hleft
        rw [hrun] at hf' hleft'
        rcases ih hlasts.2 hapart.2 (hd.trans hd')
          (fun r' hr' => (hsame.2 r' hr').trans (hleft r' hr')) (hf.trans hf')
          (fun r' hr' => (hsame'.2 r' hr').trans (hleft' r' hr')) with ⟨cast', e', htail⟩
        exact ⟨cast', e', .there hrun htail⟩
      · have hends := (runs_check_of_acyclic (g := g) (hf.acyclic hc) v r).2 name
        rw [hrun] at hends
        exact absurd rfl hends
      · exact ⟨cast', f', .here hrun⟩

theorem lasts_union {members : List Range} (hc : c.Acyclic)
    (hlasts : forall r, r ∈ members -> Lasts g c r v) (hapart : members.Pairwise (Apart c)) :
    Lasts g c (union members) v := by
  rintro d e f hd hsame ⟨cast, hrun⟩ hf hsame'
  have hmentions (r : Range) (hr : r ∈ members) (first : String) (h : r.Mentions first) :
      (union members).Mentions first := anyMentions_iff.mpr ⟨r, hr, h⟩
  rcases exists_chooses hc (outcome_check_union.mp hrun) hlasts hapart hd
    (fun r hr => hsame.mono (hmentions r hr)) hf (fun r hr => hsame'.mono (hmentions r hr)) with
    ⟨cast', f', hchooses⟩
  exact ⟨cast', f', outcome_check_union.mpr hchooses⟩

theorem exists_leadAll {parts : List (Range × Observed)}
    (h : LeadAll (fun part => check g part.2 part.1) parts d e)
    (hlasts : forall part, part ∈ parts -> Lasts g c part.1 part.2)
    (hapart : parts.Pairwise fun part other => Apart c part.1 other.1) (hd : c.Settles d)
    (hsame : forall part, part ∈ parts -> Same c part.1 c d) (hf : c.Settles f)
    (hsame' : forall part, part ∈ parts -> Same c part.1 e f) :
    exists f', LeadAll (fun part => check g part.2 part.1) parts f f' := by
  induction h generalizing f with
  | nil e => exact ⟨f, .nil f⟩
  | @cons part parts d d' e head tail ih =>
      rw [List.forall_mem_cons] at hlasts hsame hsame'
      rw [List.pairwise_cons] at hapart
      have hd' := hd.trans (settles_of_leads head)
      have hfirst : Same c part.1 d' f :=
        (same_of_leadAll tail hd' hapart.1).trans hsame'.1
      rcases accepts_iff_leads.mp (hlasts.1 d d' f hd hsame.1 head hf hfirst) with ⟨f', head'⟩
      have hleft (other : Range × Observed) (hother : other ∈ parts) : Same c other.1 d d' :=
        (hapart.1 other hother).symm.same_of_leads hd head
      have hleft' (other : Range × Observed) (hother : other ∈ parts) : Same c other.1 f f' :=
        (hapart.1 other hother).symm.same_of_leads hf head'
      rcases ih hlasts.2 hapart.2 hd'
        (fun other hother => (hsame.2 other hother).trans (hleft other hother))
        (hf.trans (settles_of_leads head'))
        (fun other hother => (hsame'.2 other hother).trans (hleft' other hother)) with ⟨e', tail'⟩
      exact ⟨e', .cons head' tail'⟩

theorem lasts_parts {parts : List (Range × Observed)} (h : Demands g r v parts)
    (hlasts : forall part, part ∈ parts -> Lasts g c part.1 part.2)
    (hapart : parts.Pairwise fun part other => Apart c part.1 other.1) : Lasts g c r v := by
  intro d e f hd hsame hleads hf hsame'
  have hmentions (part : Range × Observed) (hpart : part ∈ parts) (first : String)
      (hfirst : part.1.Mentions first) : r.Mentions first := h.mentions hpart hfirst
  rcases exists_leadAll ((leads_check h).mp hleads) hlasts hapart hd
    (fun part hpart => hsame.mono (hmentions part hpart)) hf
    (fun part hpart => hsame'.mono (hmentions part hpart)) with ⟨f', hparts⟩
  exact accepts_iff_leads.mpr ⟨f', (leads_check h).mpr hparts⟩

theorem Steady.lasts (hc : c.Acyclic) (h : Steady g c r v) : Lasts g c r v := by
  induction h with
  | concrete h => exact lasts_concrete h
  | refused h =>
      rintro d e f - - ⟨cast, hrun⟩ - -
      exact absurd ⟨cast, e, hrun⟩ (h d)
  | unbound h => exact lasts_unbound h
  | @narrowed name r m v h hm hv =>
      apply lasts_bound hc h
      · intro m' hm'
        rw [hm'.eq hm]
        exact hv
      · intro hnot
        exact absurd hm (hnot m)
  | kept h hkept hr ih => exact lasts_bound hc h (fun m hm => absurd hm (hkept m)) fun _ => ih
  | union h hapart ih => exact lasts_union hc ih hapart
  | parts h hparts hapart ih => exact lasts_parts h ih hapart

/-!
# The same value again
-/

/-- A value that has been accepted for a generic type parameter is accepted again if it has created
the binding, and otherwise exactly if the range admits it that it has narrowed the binding to.  That
is so for a legal value and a range that is no union.  If it has narrowed nothing, the range that
has accepted it does so again as long as its parts come to different generic type parameters. -/
theorem check_generic_again (g : Graph) (c : Generics) (name : String) (v : Observed)
    (cast : Option Scalar) (c' : Generics) (hc : c.Acyclic)
    (hfirst : outcome (check g v (generic name)) c = (.ok cast, c')) :
    (c.binding? name = none -> Accepts g c' v (generic name)) ∧
    forall r, c.binding? name = some r ->
      (forall m, NarrowsTo g v r m -> (Accepts g c' v (generic name) <-> m.Admits g v)) ∧
      (Steady g c r v ->
        (forall m, ¬ NarrowsTo g v r m) ∨ v.Legal ∧ (forall members, r ≠ union members) ->
        Accepts g c' v (generic name)) := by
  have hleads : (check g v (generic name)).Leads c c' := ⟨cast, hfirst⟩
  have hscope := inScope_of_leads hleads
  have hsettles := settles_of_leads hleads
  have hsteady (h : Steady g c (generic name) v) : Accepts g c' v (generic name) :=
    h.lasts hc c c' c' (.refl c) (fun _ _ => rfl) hleads hsettles fun _ _ => rfl
  constructor
  · intro hunbound
    exact hsteady (.unbound hunbound)
  · intro r hbound
    rcases (leads_generic_bound hscope hbound).mp hleads with ⟨d, hd, heq⟩
    constructor
    · intro m hm
      have hbinding : c'.binding? name = some m := by
        rw [heq, narrowBy_of_narrowsTo hm, Generics.binding?_assign, if_pos rfl]
      have hscope' : c'.inScope name = true := (inScope_of_settles hsettles).trans hscope
      rw [accepts_generic_bound hscope' hbinding, accepts_iff hm.concrete]
    · intro hr hlegal
      by_cases hm : exists m, NarrowsTo g v r m
      · rcases hm with ⟨m, hm⟩
        rcases hlegal with hnot | ⟨hlegal, hunion⟩
        · exact absurd hm (hnot m)
        · apply hsteady
          apply Steady.narrowed hbound hm
          apply hm.admits hlegal hunion
          exact fun hconcrete => (accepts_iff hconcrete c v).mp (accepts_iff_leads.mpr ⟨d, hd⟩)
      · exact hsteady (.kept hbound (fun m h => hm ⟨m, h⟩) hr)

def couple : List Graph.Operation :=
  [.intern (.literal ⟨"7", Vocabulary.Xsd.integer, none⟩),
   .intern (.literal ⟨"x", Vocabulary.Xsd.string, none⟩), .freshList [0, 1]]

def coupled : Generics :=
  ⟨["T", "U", "S"],
    [("T", tuple [generic "U", generic "S"]), ("U", literal Vocabulary.Xsd.number)]⟩

theorem refers_coupled {other : String} (h : coupled.Refers name other) :
    name = "T" ∧ other ≠ "T" := by
  rcases h with ⟨r, hr, hother⟩
  simp only [coupled, Generics.binding?, List.lookup_cons] at hr
  split at hr
  · next heq =>
      cases hr
      constructor
      · exact eq_of_beq heq
      · rcases hother with h | h | h
        · cases h
          decide
        · cases h
          decide
        · exact h.elim
  · split at hr
    · cases hr
      exact hother.elim
    · cases hr

theorem acyclic_coupled : coupled.Acyclic := by
  apply not_transGen_of_rank fun name => if name = "T" then 1 else 0
  intro name other h
  rw [if_pos (refers_coupled h).1, if_neg (refers_coupled h).2]
  exact Nat.one_pos

theorem eq_of_reaches_coupled {first next : String} (hne : first ≠ "T")
    (h : coupled.Reaches (generic first) next) : next = first := by
  rcases h with ⟨_, rfl, hpath⟩
  rcases Relation.ReflTransGen.cases_head hpath with heq | ⟨other, hother, -⟩
  · exact heq.symm
  · exact absurd (refers_coupled hother).1 hne

theorem steady_coupled : Steady (Graph.empty.runAll couple).2 coupled
    (tuple [generic "U", generic "S"]) (.node 2) := by
  have hitems : (Observed.node 2).items? (Graph.empty.runAll couple).2 =
      some [.literal ⟨"7", Vocabulary.Xsd.integer, none⟩,
        .literal ⟨"x", Vocabulary.Xsd.string, none⟩] := by decide +kernel
  have hdemands : Demands (Graph.empty.runAll couple).2 (tuple [generic "U", generic "S"]) (.node 2)
      (positions [generic "U", generic "S"] [.literal ⟨"7", Vocabulary.Xsd.integer, none⟩,
        .literal ⟨"x", Vocabulary.Xsd.string, none⟩]) := .tuple hitems rfl
  apply Steady.parts hdemands
  · intro part hpart
    simp only [positions, List.headD_cons, List.tail_cons, List.mem_cons, List.not_mem_nil,
      or_false] at hpart
    rcases hpart with rfl | rfl
    · have hnumber : Datatype.narrower? Vocabulary.Xsd.number Vocabulary.Xsd.integer =
          some Vocabulary.Xsd.integer := by decide +kernel
      have hnarrows : NarrowsTo (Graph.empty.runAll couple).2
          (.literal ⟨"7", Vocabulary.Xsd.integer, none⟩) (literal Vocabulary.Xsd.number)
          (literal Vocabulary.Xsd.integer) := ⟨_, rfl, by simp [merge, hnumber]⟩
      exact .narrowed rfl hnarrows ⟨_, _, rfl, rfl⟩
    · exact .unbound rfl
  · have hapart : Apart coupled (generic "U") (generic "S") := by
      intro name hname hname'
      rw [eq_of_reaches_coupled (by decide) hname] at hname'
      exact absurd (eq_of_reaches_coupled (by decide) hname') (by decide)
    exact List.pairwise_pair.mpr hapart

theorem check_generic_again_couple : exists cast c',
    outcome (check (Graph.empty.runAll couple).2 (.node 2) (generic "T")) coupled =
      (.ok cast, c') ∧
    Accepts (Graph.empty.runAll couple).2 c' (.node 2) (generic "T") := by
  have haccepts : (outcome (check (Graph.empty.runAll couple).2 (.node 2) (generic "T"))
      coupled).1.isOk = true := by decide +kernel
  rcases hrun : outcome (check (Graph.empty.runAll couple).2 (.node 2) (generic "T")) coupled with
    ⟨e | cast, c'⟩
  · rw [hrun] at haccepts
    cases haccepts
  · exists cast, c'
    constructor
    · rfl
    · have hagain := check_generic_again (Graph.empty.runAll couple).2 coupled "T" (.node 2) cast c'
        acyclic_coupled hrun
      apply (hagain.2 _ rfl).2 steady_coupled
      exact Or.inl fun m ⟨s, hs, _⟩ => nomatch hs

/-- A word that is said to be an integer is accepted by the wildcard, and leaves the integers, which
refuse it. -/
theorem not_check_generic_again :
    ¬ forall (g : Graph) (c : Generics) (name : String) (v : Observed) (cast : Option Scalar)
      (c' : Generics), c.Acyclic -> outcome (check g v (generic name)) c = (.ok cast, c') ->
      Accepts g c' v (generic name) := by
  intro hall
  have hacyclic : (⟨["T"], [("T", wildcard)]⟩ : Generics).Acyclic := by
    apply not_transGen_of_rank fun _ => 0
    rintro name other ⟨r, hr, hother⟩
    rw [Generics.binding?, List.lookup_cons] at hr
    split at hr
    · cases hr
      exact hother.elim
    · cases hr
  have hagain : (outcome (check Graph.empty (.literal (.typed "abc" Vocabulary.Xsd.integer))
      (generic "T")) ⟨["T"], [("T", literal Vocabulary.Xsd.integer)]⟩).1.isOk = false := by
    decide +kernel
  have hnarrows : NarrowsTo Graph.empty (.literal (.typed "abc" Vocabulary.Xsd.integer)) wildcard
      (literal Vocabulary.Xsd.integer) := ⟨literal Vocabulary.Xsd.integer, rfl, by simp [merge]⟩
  have hleads : (check Graph.empty (.literal (.typed "abc" Vocabulary.Xsd.integer))
      (generic "T")).Leads ⟨["T"], [("T", wildcard)]⟩
        ⟨["T"], [("T", literal Vocabulary.Xsd.integer)]⟩ :=
    (leads_generic_bound rfl rfl).mpr
      ⟨_, ⟨none, rfl⟩, (narrowBy_of_narrowsTo hnarrows ⟨["T"], [("T", wildcard)]⟩ "T").symm⟩
  rcases hleads with ⟨cast, hfirst⟩
  rcases hall _ _ _ _ _ _ hacyclic hfirst with ⟨cast', c', hrun⟩
  rw [hrun] at hagain
  cases hagain

end Range
end Wiring
