import Wiring.Proofs.Resolution.Cutoff

/-!
# Bare references and keyless entries

The items of a list definition or of an elements definition may refer to a
parameter by its name, or by an entry that has this name as its value and no key.
Both spellings mean the same.  In a list an entry is one level deeper than a name,
so that the depth limit can tell them apart.
-/

namespace Wiring

open Vocabulary

namespace Graph

/-- A named node without a definition of its own. -/
structure IsBare (g : Graph) (p : NodeId) : Prop where
  named : (g.iri? p).isSome = true
  noFields : g.has p Oo.fields = false
  noElements : g.has p Oo.elements = false
  noEntries : g.has p Oo.collectEntries = false

/-- A blank node that is no list, and of which nothing is said but that its value is `p`. -/
structure IsKeyless (g : Graph) (b p : NodeId) : Prop where
  blank : exists label, g.term? b = some (.blank label)
  noList : g.list? b = none
  value (predicate : String) (o : NodeId) :
    o ∈ g.objects b predicate <-> predicate = Rdf.value ∧ o = p

/-- The second item is the first one, or an entry for the parameter that the first one names. -/
inductive Spells (g : Graph) : NodeId → NodeId → Prop where
  | same (item : NodeId) : Spells g item item
  | keyless {p b : NodeId} : g.IsBare p → g.IsKeyless b p → Spells g p b

inductive Respelled (g : Graph) : NodeId → NodeId → Prop where
  | list {d d' : NodeId} {items items' : List NodeId} :
      Shape.of g d = .list → Shape.of g d' = .list →
      g.list? d = some items → g.list? d' = some items' →
      List.Forall₂ g.Spells items items' → Respelled g d d'
  | elements {d d' l l' : NodeId} {items items' : List NodeId} :
      g.objects d Oo.elements = [l] → g.objects d' Oo.elements = [l'] →
      g.list? l = some items → g.list? l' = some items' →
      List.Forall₂ g.Spells items items' → Respelled g d d'

variable {g : Graph} {b p : NodeId}

namespace IsKeyless

theorem objects_eq_nil (h : g.IsKeyless b p) {predicate : String} (hne : predicate ≠ Rdf.value) :
    g.objects b predicate = [] :=
  List.eq_nil_iff_forall_not_mem.mpr fun _ ho => hne ((h.value _ _).mp ho).1

theorem has_eq_false (h : g.IsKeyless b p) {predicate : String} (hne : predicate ≠ Rdf.value) :
    g.has b predicate = false := by
  rw [has, h.objects_eq_nil hne]
  rfl

theorem object?_eq_none (h : g.IsKeyless b p) {predicate : String} (hne : predicate ≠ Rdf.value) :
    g.object? b predicate = none := by
  rw [object?, h.objects_eq_nil hne]
  rfl

theorem object?_value (h : g.IsKeyless b p) : g.object? b Rdf.value = some p := by
  have hp : p ∈ g.objects b Rdf.value := (h.value _ _).mpr ⟨rfl, rfl⟩
  unfold object?
  cases hvalues : g.objects b Rdf.value with
  | nil =>
      rw [hvalues] at hp
      cases hp
  | cons o rest =>
      have ho : o ∈ g.objects b Rdf.value := hvalues ▸ List.mem_cons_self
      exact congrArg some ((h.value _ _).mp ho).2

theorem iri?_eq_none (h : g.IsKeyless b p) : g.iri? b = none := by
  rcases h.blank with ⟨label, hlabel⟩
  rw [iri?, hlabel]
  rfl

theorem shape_eq (h : g.IsKeyless b p) : Shape.of g b = .keyValue := by
  have helements : g.has b Oo.elements = false := h.has_eq_false (by decide)
  have hfields : g.has b Oo.fields = false := h.has_eq_false (by decide)
  simp [Shape.of, Shape.all, Shape.fits, helements, hfields, h.noList]

end IsKeyless
end Graph

namespace Environment

variable {env : Environment} {b p : NodeId}

abbrev below (env : Environment) (levels : Nat) : Descent :=
  ⟨env.assembleWithin levels, env.instantiateWithin levels⟩

theorem isNested_of_isBare (h : env.graph.IsBare p) : env.isNested p = false := by
  rw [isNested, h.noFields, h.noElements]
  rfl

theorem isNested_of_isKeyless (h : env.graph.IsKeyless b p) : env.isNested b = false := by
  have helements : env.graph.has b Oo.elements = false := h.has_eq_false (by decide)
  have hfields : env.graph.has b Oo.fields = false := h.has_eq_false (by decide)
  rw [isNested, helements, hfields]
  rfl

/-!
# Elements
-/

theorem elementValues_eq_of_spells {item item' : NodeId} (h : env.graph.Spells item item')
    (down : Descent) (place : Place) :
    env.elementValues down place item = env.elementValues down place item' := by
  cases h with
  | same => rfl
  | keyless hbare hkeyless =>
      have hentries : env.graph.has item' Oo.collectEntries = false :=
        hkeyless.has_eq_false (by decide)
      unfold elementValues
      simp only [isNested_of_isBare hbare, hbare.noEntries, hbare.named,
        isNested_of_isKeyless hkeyless, hentries, hkeyless.iri?_eq_none, hkeyless.object?_value,
        Bool.or_self, Bool.false_eq_true, if_false, if_true, Option.isSome_none]

theorem elementsValues_eq_of_spells {items items' : List NodeId}
    (h : List.Forall₂ env.graph.Spells items items') (down : Descent) (place : Place) :
    items.mapM (env.elementValues down place) = items'.mapM (env.elementValues down place) := by
  induction h with
  | nil => rfl
  | cons hitem _ ih =>
      rw [List.mapM_cons, List.mapM_cons, elementValues_eq_of_spells hitem, ih]

theorem shape_eq_elements {g : Graph} {d l : NodeId} (h : g.objects d Oo.elements = [l]) :
    Shape.of g d = .elements := by
  have helements : g.has d Oo.elements = true := by
    rw [Graph.has, h]
    rfl
  simp [Shape.of, Shape.all, Shape.fits, helements]

theorem assembleShape_eq_of_elements {d d' l l' : NodeId} {items items' : List NodeId}
    (hd : env.graph.objects d Oo.elements = [l]) (hd' : env.graph.objects d' Oo.elements = [l'])
    (hl : env.graph.list? l = some items) (hl' : env.graph.list? l' = some items')
    (h : List.Forall₂ env.graph.Spells items items') (down : Descent) (place : Place) :
    env.assembleShape down place d = env.assembleShape down place d' := by
  have hentries : env.elementEntries? d = some items := by
    rw [elementEntries?, hd]
    exact hl
  have hentries' : env.elementEntries? d' = some items' := by
    rw [elementEntries?, hd']
    exact hl'
  unfold assembleShape
  rw [shape_eq_elements hd, shape_eq_elements hd']
  dsimp only
  unfold assembleElements
  rw [hentries, hentries']
  dsimp only
  rw [elementsValues_eq_of_spells h]

/-!
# Lists
-/

def IsCutoff (e : Failure) : Prop :=
  exists bound node, e = .depthExceeded bound node

theorem joins_below {levels levels' : Nat} (h : levels ≤ levels') (active : List NodeId) :
    (cutoff IsCutoff).Joins env.supplied env.supplied active active (env.below levels)
      (env.below levels') :=
  @cutoff_joins env IsCutoff env.supplied env.depthLimit (.refl _ _) (.inl rfl) levels levels'
    (.inr ⟨h, fun bound node => ⟨bound, node, rfl⟩⟩) active

theorem assembleShape_of_isKeyless (h : env.graph.IsKeyless b p) (down : Descent)
    (place : Place) : env.assembleShape down place b =
      (do
        let r ← env.referenceValues down place p false
        return .resolved r) := by
  have hentries : env.graph.object? b Oo.collectEntries = none := h.object?_eq_none (by decide)
  have hkey : env.literalKey? b = .ok none := by
    rw [literalKey?, h.object?_eq_none (by decide)]
  have hvalue : env.valueReference? b = some (p, false) := by
    rw [valueReference?, h.object?_value]
  unfold assembleShape
  rw [h.shape_eq]
  dsimp only
  unfold assembleKeyValue
  rw [hentries, hkey, hvalue]
  rfl

theorem positionalArgument_of_isBare (h : env.graph.IsBare p) (down : Descent) (place : Place) :
    env.positionalArgument down place p =
      (do return (← env.referenceValues down place p false).collapse) := by
  unfold positionalArgument
  rw [h.named, isNested_of_isBare h]
  rfl

theorem positionalArgument_of_isKeyless (h : env.graph.IsKeyless b p) (down : Descent)
    (place : Place) : env.positionalArgument down place b =
      (do return (← down.assemble place b).toArgument) := by
  unfold positionalArgument
  rw [h.iri?_eq_none]
  rfl

theorem walks_positionalArgument_of_spells {item item' : NodeId}
    (h : env.graph.Spells item item') (levels : Nat) (root element : NodeId)
    (active : List NodeId) (f g : Frame) :
    (cutoff IsCutoff).Walks f g
      (env.positionalArgument (env.below levels) ⟨root, element, active⟩ item')
      (env.positionalArgument (env.below levels) ⟨root, element, active⟩ item)
      fun w => Argument.Fits ((cutoff IsCutoff).answers w) false := by
  cases h with
  | same => exact walks_positionalArgument (joins_below (Nat.le_refl levels) active) item
  | keyless hbare hkeyless =>
      rw [positionalArgument_of_isKeyless hkeyless, positionalArgument_of_isBare hbare]
      -- Assembling the entry takes a level, so its values are found with one level less.
      cases levels with
      | zero => exact Bond.Keeps.throw_excused ⟨_, _, rfl⟩
      | succ levels =>
          have hassemble : (env.below (levels + 1)).assemble ⟨root, element, active⟩ item' =
              env.assembleShape (env.below levels) ⟨root, element, active⟩ item' := rfl
          rw [hassemble, assembleShape_of_isKeyless hkeyless, bind_assoc]
          have hreference : (cutoff IsCutoff).Walks f g
              (env.referenceValues (env.below levels) ⟨root, element, active⟩ item false)
              (env.referenceValues (env.below (levels + 1)) ⟨root, element, active⟩ item false)
              fun w => Resolved.Fits ((cutoff IsCutoff).answers w) :=
            walks_referenceValues (joins_below (Nat.le_succ levels) active) item false
          apply Bond.Keeps.bind hreference
          intro f' g' r r' _ hr
          exact Bond.Keeps.pure hr.collapse

theorem walks_positionalArguments_of_spells {items items' : List NodeId}
    (h : List.Forall₂ env.graph.Spells items items') (levels : Nat) (root element : NodeId)
    (active : List NodeId) (f g : Frame) :
    (cutoff IsCutoff).Walks f g
      (items'.mapM (env.positionalArgument (env.below levels) ⟨root, element, active⟩))
      (items.mapM (env.positionalArgument (env.below levels) ⟨root, element, active⟩))
      fun w => List.Forall₂ (Argument.Fits ((cutoff IsCutoff).answers w) false) :=
  Bond.Keeps.mapM (B := cutoff IsCutoff) (R := fun _ item' item => env.graph.Spells item item')
    (E := fun w => Argument.Fits ((cutoff IsCutoff).answers w) false)
    (fun _ _ _ _ _ hitem => hitem) (fun _ _ _ _ => stable_fits)
    (fun f g _ _ hitem => walks_positionalArgument_of_spells hitem levels root element active f g)
    h.flip

theorem walks_assembleShape_of_lists {d d' : NodeId} {items items' : List NodeId}
    (hd : Shape.of env.graph d = .list) (hd' : Shape.of env.graph d' = .list)
    (hitems : env.graph.list? d = some items) (hitems' : env.graph.list? d' = some items')
    (h : List.Forall₂ env.graph.Spells items items') (levels : Nat) (root element : NodeId)
    (active : List NodeId) (f g : Frame) :
    (cutoff IsCutoff).Walks f g
      (env.assembleShape (env.below levels) ⟨root, element, active⟩ d')
      (env.assembleShape (env.below levels) ⟨root, element, active⟩ d)
      fun _ x y => x = y := by
  unfold assembleShape
  rw [hd, hd']
  dsimp only
  unfold assembleList
  rw [hitems, hitems']
  apply Bond.Keeps.bind (walks_positionalArguments_of_spells h levels root element active f g)
  intro f' g' as bs _ hfits
  have hequal : as = bs := List.forall₂_eq_eq_eq ▸ hfits.imp fun _ _ hfit =>
    eq_of_fits (w := (f'.session, g'.session)) (hfit.mono fun _ _ _ _ _ hsame => hsame)
  exact Bond.Keeps.pure (congrArg Assembled.positional hequal)

/-!
# Definitions
-/

/-- Definitions that differ in the spelling of their items only are assembled with the same answer, be
it a failure or not, and leave the same session behind, and also the same generic type parameters
unless they fail.  This holds in every session and with any number of levels, as long as no level is
missing for the definition with the keyless entries. -/
theorem assembleWithin_respelled (env : Environment) (levels : Nat) (place : Place) (f : Frame)
    {d d' : NodeId} (h : env.graph.Respelled d d')
    (hdepth : forall bound node,
      (outcome (env.assembleWithin levels place d') f).1 ≠ .error (.depthExceeded bound node)) :
    (outcome (env.assembleWithin levels place d) f).1 =
        (outcome (env.assembleWithin levels place d') f).1 ∧
      (outcome (env.assembleWithin levels place d) f).2.session =
        (outcome (env.assembleWithin levels place d') f).2.session ∧
      ((outcome (env.assembleWithin levels place d') f).1.isOk = true ->
        (outcome (env.assembleWithin levels place d) f).2.generics =
          (outcome (env.assembleWithin levels place d') f).2.generics) := by
  rcases place with ⟨root, element, active⟩
  cases levels with
  | zero => exact absurd rfl (hdepth _ _)
  | succ levels =>
      have hshape (node : NodeId) : env.assembleWithin (levels + 1) ⟨root, element, active⟩ node =
          env.assembleShape (env.below levels) ⟨root, element, active⟩ node := rfl
      rw [hshape, hshape] at *
      cases h with
      | elements hd hd' hl hl' hitems =>
          rw [assembleShape_eq_of_elements hd hd' hl hl' hitems]
          exact ⟨rfl, rfl, fun _ => rfl⟩
      | list hd hd' hl hl' hitems =>
          have hwalks := walks_assembleShape_of_lists hd hd' hl hl' hitems levels root element active
            f f rfl rfl
          rcases hrun : outcome (env.assembleShape (env.below levels) ⟨root, element, active⟩ d') f
            with ⟨e | assembled, f'⟩
          · rcases hwalks.error hrun with ⟨bound, node, rfl⟩ | ⟨t, hother, hsession⟩
            · exact absurd (congrArg Prod.fst hrun) (hdepth bound node)
            · rw [hother]
              exact ⟨rfl, hsession.symm, fun hok => by cases hok⟩
          · rcases hwalks.ok hrun with ⟨assembled', t, hother, hgenerics, hsession, -, rfl⟩
            rw [hother]
            exact ⟨rfl, hsession.symm, fun _ => hgenerics.symm⟩

/-- The configuration `c` has for `p` the literal `one` and the configuration `d`, whose component needs
no arguments, and nothing for `q`.  Node 6 is an entry for `p` and node 7 one for `q`.  The lists 8 and
9 and the elements definitions 10 and 11 are spelled with names and with entries. -/
def twins : Environment :=
  let (x, g) := Graph.empty.intern (.named "X")
  let (p, g) := g.intern (.named "p")
  let (q, g) := g.intern (.named "q")
  let (c, g) := g.intern (.named "c")
  let (d, g) := g.intern (.named "d")
  let (one, g) := g.intern (.literal (.typed "one" Xsd.string))
  let (entry, g) := g.freshBlank
  let (other, g) := g.freshBlank
  let (names, g) := g.freshList [p, q, p]
  let (entries, g) := g.freshList [entry, other, p]
  let (elements, g) := g.freshBlank
  let (elements', g) := g.freshBlank
  let g := ((g.addEdge entry Rdf.value p).addEdge other Rdf.value q).addType x Oo.classType
  let g := ((g.addType c "X").addType d "X").addEdge elements Oo.elements names
  ⟨((g.addEdge elements' Oo.elements entries).addEdge c "p" one).addEdge c "p" d, ∅, 16⟩

theorem isBare_twins {p : NodeId} (h : p ∈ [1, 2]) : twins.graph.IsBare p := by
  have hbare : forall p, p ∈ [1, 2] -> (twins.graph.iri? p).isSome = true ∧
      twins.graph.has p Oo.fields = false ∧ twins.graph.has p Oo.elements = false ∧
      twins.graph.has p Oo.collectEntries = false := by decide +kernel
  rcases hbare p h with ⟨hnamed, hfields, helements, hentries⟩
  exact ⟨hnamed, hfields, helements, hentries⟩

theorem isKeyless_twins : twins.graph.IsKeyless 6 1 ∧ twins.graph.IsKeyless 7 2 := by
  have hentries : (twins.graph.term? 6 = some (.blank "b0") ∧ twins.graph.list? 6 = none ∧
      twins.graph.outgoing 6 = #[⟨Rdf.value, 1⟩]) ∧
      twins.graph.term? 7 = some (.blank "b1") ∧ twins.graph.list? 7 = none ∧
      twins.graph.outgoing 7 = #[⟨Rdf.value, 2⟩] := by decide +kernel
  rcases hentries with ⟨⟨hentry, hlist, hedges⟩, hother, hlist', hedges'⟩
  refine ⟨⟨⟨_, hentry⟩, hlist, fun predicate o => ?_⟩, ⟨_, hother⟩, hlist', fun predicate o => ?_⟩
  · simp [Graph.objects, hedges, eq_comm]
  · simp [Graph.objects, hedges', eq_comm]

theorem respelled_twins : twins.graph.Respelled 8 9 ∧ twins.graph.Respelled 10 11 := by
  have hspells : List.Forall₂ twins.graph.Spells [1, 2, 1] [6, 7, 1] :=
    .cons (.keyless (isBare_twins (by simp)) isKeyless_twins.1)
      (.cons (.keyless (isBare_twins (by simp)) isKeyless_twins.2) (.cons (.same 1) .nil))
  have hdefinitions : (Shape.of twins.graph 8 = .list ∧ Shape.of twins.graph 9 = .list) ∧
      (twins.graph.objects 10 Oo.elements = [8] ∧ twins.graph.objects 11 Oo.elements = [9]) ∧
      twins.graph.list? 8 = some [1, 2, 1] ∧ twins.graph.list? 9 = some [6, 7, 1] := by
    decide +kernel
  rcases hdefinitions with ⟨⟨hshape, hshape'⟩, ⟨helements, helements'⟩, hitems, hitems'⟩
  exact ⟨.list hshape hshape' hitems hitems' hspells,
    .elements helements helements' hitems hitems' hspells⟩

theorem assembleWithin_respelled_twins :
    (outcome (twins.assembleWithin 3 ⟨3, 3, [3]⟩ 8) ⟨Session.empty, .ofScope []⟩).1 =
      (outcome (twins.assembleWithin 3 ⟨3, 3, [3]⟩ 9) ⟨Session.empty, .ofScope []⟩).1 ∧
    (match (outcome (twins.assembleWithin 3 ⟨3, 3, [3]⟩ 8) ⟨Session.empty, .ofScope []⟩).1 with
      | .ok (.positional [.list [.literal (.str "one"), .reference 0], .undefined,
          .list [.literal (.str "one"), .reference 0]]) => true
      | _ => false) = true ∧
    (outcome (twins.assembleWithin 3 ⟨3, 3, [3]⟩ 10) ⟨Session.empty, .ofScope []⟩).1 =
      (outcome (twins.assembleWithin 3 ⟨3, 3, [3]⟩ 11) ⟨Session.empty, .ofScope []⟩).1 := by
  have hok : (outcome (twins.assembleWithin 3 ⟨3, 3, [3]⟩ 9)
      ⟨Session.empty, .ofScope []⟩).1.isOk = true := by decide +kernel
  have hok' : (outcome (twins.assembleWithin 3 ⟨3, 3, [3]⟩ 11)
      ⟨Session.empty, .ofScope []⟩).1.isOk = true := by decide +kernel
  refine ⟨(assembleWithin_respelled twins 3 ⟨3, 3, [3]⟩ _ respelled_twins.1 ?_).1,
    by decide +kernel,
    (assembleWithin_respelled twins 3 ⟨3, 3, [3]⟩ _ respelled_twins.2 ?_).1⟩
  · intro bound node hcut
    rw [hcut] at hok
    cases hok
  · intro bound node hcut
    rw [hcut] at hok'
    cases hok'

end Environment
end Wiring
