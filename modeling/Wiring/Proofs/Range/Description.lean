import Mathlib.Data.List.Forall2
import Mathlib.Logic.Relation
import Wiring.Proofs.Graph.Operation
import Wiring.Proofs.Lockstep
import Wiring.Range.Description

/-!
# Reading descriptions of ranges

A description is read exactly if it unfolds to a finite tree that is nested no deeper
than the limit, and the range that is read is this tree.  Every other description,
in particular one that leads back to itself, is refused as malformed.
-/

namespace Wiring
namespace Range

open Vocabulary

/-!
# Kinds of ranges
-/

inductive Composition where
  | union
  | intersection
  | tuple
  deriving DecidableEq

inductive Enclosure where
  | array
  | rest
  | keyof
  deriving DecidableEq

inductive Kind where
  | wildcard
  | undefined
  | generic
  | composed (c : Composition)
  | around (e : Enclosure)
  deriving DecidableEq

def Composition.build : Composition → List Range → Range
  | union => Range.union
  | intersection => Range.intersection
  | tuple => Range.tuple

def Enclosure.build : Enclosure → Range → Range
  | array => Range.array
  | rest => Range.rest
  | keyof => Range.keyof

namespace Kind

def iri : Kind → String
  | wildcard => Oo.rangeWildcard
  | undefined => Oo.rangeUndefined
  | generic => Oo.rangeGeneric
  | composed .union => Oo.rangeUnion
  | composed .intersection => Oo.rangeIntersection
  | composed .tuple => Oo.rangeTuple
  | around .array => Oo.rangeArray
  | around .rest => Oo.rangeRest
  | around .keyof => Oo.rangeKeyof

/-- All kinds. Of several kinds that a node is declared to be of, the first one here counts. -/
def all : List Kind :=
  [wildcard, undefined, generic, composed .union, composed .intersection, composed .tuple,
    around .array, around .rest, around .keyof]

end Kind

section Unfolding

variable (g : Graph)

def Declares (node : NodeId) (iri : String) : Prop :=
  exists t, t ∈ g.objects node Rdf.type ∧ g.iri? t = some iri

def HasKind (node : NodeId) (k : Kind) : Prop :=
  exists before after, Kind.all = before ++ k :: after ∧ Declares g node k.iri ∧
    forall k', k' ∈ before -> ¬ Declares g node k'.iri

def Kindless (node : NodeId) : Prop :=
  forall k, k ∈ Kind.all -> ¬ Declares g node k.iri

/-- The nodes that describe the members of a range: the items of the one list that is named for them,
or else all values in order. -/
inductive Members (node : NodeId) : List NodeId → Prop where
  | list {value : NodeId} {items : List NodeId}
      (single : g.objects node Oo.rangeElements = [value])
      (found : g.list? value = some items) : Members node items
  | values
      (nolist : ∀ value, g.objects node Oo.rangeElements = [value] → g.list? value = none) :
      Members node (g.objects node Oo.rangeElements)

/-- The description at a node unfolds to a tree. -/
inductive Unfolds : NodeId → Range → Prop where
  | wildcard {node : NodeId} (kind : HasKind g node .wildcard) : Unfolds node .wildcard
  | undefined {node : NodeId} (kind : HasKind g node .undefined) : Unfolds node .undefined
  | generic {node value : NodeId} {name : String} (kind : HasKind g node .generic)
      (found : g.object? node Oo.rangeGenericType = some value)
      (named : g.iri? value = some name) : Unfolds node (.generic name)
  | composed {node : NodeId} {c : Composition} {nodes : List NodeId} {ranges : List Range}
      (kind : HasKind g node (.composed c)) (members : Members g node nodes)
      (length : nodes.length = ranges.length)
      (each : ∀ n r, (n, r) ∈ nodes.zip ranges → Unfolds n r) : Unfolds node (c.build ranges)
  | around {node value : NodeId} {e : Enclosure} {r : Range}
      (kind : HasKind g node (.around e)) (found : g.object? node Oo.rangeValue = some value)
      (inner : Unfolds value r) : Unfolds node (e.build r)
  | literal {node : NodeId} {name : String} (kind : Kindless g node)
      (named : g.iri? node = some name) (datatype : Datatype.isDatatype name = true) :
      Unfolds node (.literal name)
  | type {node : NodeId} {name : String} (kind : Kindless g node)
      (named : g.iri? node = some name) (other : Datatype.isDatatype name = false) :
      Unfolds node (.type name)

inductive HasPart : NodeId → NodeId → Prop where
  | member {node part : NodeId} {c : Composition} {nodes : List NodeId}
      (kind : HasKind g node (.composed c)) (members : Members g node nodes)
      (mem : part ∈ nodes) : HasPart node part
  | inner {node part : NodeId} {e : Enclosure} (kind : HasKind g node (.around e))
      (found : g.object? node Oo.rangeValue = some part) : HasPart node part

end Unfolding

mutual

def nesting : Range → Nat
  | wildcard | undefined | literal _ | type _ | generic _ => 0
  | union members | intersection members | tuple members => nestingBelow members
  | array inner | rest inner | keyof inner => nesting inner + 1

def nestingBelow : List Range → Nat
  | [] => 0
  | r :: rs => max (nesting r + 1) (nestingBelow rs)

end

theorem nesting_composed (c : Composition) (members : List Range) :
    (c.build members).nesting = nestingBelow members := by
  cases c <;> rfl

theorem nesting_around (e : Enclosure) (inner : Range) :
    (e.build inner).nesting = inner.nesting + 1 := by
  cases e <;> rfl

theorem nestingBelow_lt_succ {members : List Range} {levels : Nat} :
    nestingBelow members < levels + 1 <-> forall r, r ∈ members -> r.nesting < levels := by
  induction members with
  | nil => simp [nestingBelow]
  | cons r rs ih =>
      rw [nestingBelow, Nat.max_lt, Nat.add_lt_add_iff_right, ih, List.forall_mem_cons]

/-!
# What a description says
-/

variable {g : Graph} {node : NodeId}

theorem declares_iff {iri : String} :
    Declares g node iri <-> (g.types node).contains iri = true := by
  rw [List.contains_iff_mem]
  unfold Graph.types
  rw [List.mem_filterMap]
  rfl

def firstKind? (g : Graph) (node : NodeId) : Option Kind :=
  Kind.all.find? fun k => (g.types node).contains k.iri

theorem hasKind_iff {k : Kind} : HasKind g node k <-> firstKind? g node = some k := by
  unfold HasKind firstKind?
  simp only [declares_iff, Bool.not_eq_true]
  rw [List.find?_eq_some_iff_append]
  constructor
  · rintro ⟨before, after, hsplit, hk, hbefore⟩
    exact ⟨hk, before, after, hsplit, fun k' hk' => by rw [hbefore k' hk']; rfl⟩
  · rintro ⟨hk, before, after, hsplit, hbefore⟩
    exact ⟨before, after, hsplit, hk, fun k' hk' => by simpa using hbefore k' hk'⟩

theorem kindless_iff : Kindless g node <-> firstKind? g node = none := by
  unfold Kindless firstKind?
  simp only [declares_iff]
  rw [List.find?_eq_none]

theorem describe_eq (g : Graph) (node : NodeId) : describe g node =
    match firstKind? g node with
    | some .wildcard => .done wildcard
    | some .undefined => .done undefined
    | some .generic => describeGeneric g node
    | some (.composed c) => describeComposed g node c.build
    | some (.around e) => describeAround g node e.build
    | none => describeLeaf g node := by
  unfold describe firstKind? Kind.all
  simp only [List.find?_cons, Kind.iri]
  cases (g.types node).contains Oo.rangeWildcard
  case true => rfl
  cases (g.types node).contains Oo.rangeUndefined
  case true => rfl
  cases (g.types node).contains Oo.rangeGeneric
  case true => rfl
  cases (g.types node).contains Oo.rangeUnion
  case true => rfl
  cases (g.types node).contains Oo.rangeIntersection
  case true => rfl
  cases (g.types node).contains Oo.rangeTuple
  case true => rfl
  cases (g.types node).contains Oo.rangeArray
  case true => rfl
  cases (g.types node).contains Oo.rangeRest
  case true => rfl
  cases (g.types node).contains Oo.rangeKeyof
  case true => rfl
  rfl

theorem members_iff {nodes : List NodeId} :
    Members g node nodes <-> g.ordered node Oo.rangeElements = nodes := by
  unfold Graph.ordered
  constructor
  · intro h
    cases h with
    | list single found => simp only [single, found, Option.getD_some]
    | values nolist =>
        split
        · next value single => rw [nolist value single, Option.getD_none, single]
        · rfl
  · rintro rfl
    split
    · next value single =>
        cases hlist : g.list? value with
        | some items => exact .list single hlist
        | none =>
            rw [Option.getD_none, ← single]
            refine .values fun value' hvalue' => ?_
            rw [single, List.cons.injEq] at hvalue'
            rw [← hvalue'.1, hlist]
    · next hmany => exact .values fun value single => absurd single (hmany value)

theorem unfolds_iff {r : Range} : Unfolds g node r <->
    match firstKind? g node with
    | some .wildcard => r = wildcard
    | some .undefined => r = undefined
    | some .generic => exists value name, g.object? node Oo.rangeGenericType = some value ∧
        g.iri? value = some name ∧ r = generic name
    | some (.composed c) => exists ranges,
        List.Forall₂ (Unfolds g) (g.ordered node Oo.rangeElements) ranges ∧ r = c.build ranges
    | some (.around e) => exists value inner, g.object? node Oo.rangeValue = some value ∧
        Unfolds g value inner ∧ r = e.build inner
    | none => exists name, g.iri? node = some name ∧
        r = if Datatype.isDatatype name then literal name else type name := by
  constructor
  · intro h
    cases h with
    | wildcard kind => rw [hasKind_iff.mp kind]
    | undefined kind => rw [hasKind_iff.mp kind]
    | generic kind found named =>
        rw [hasKind_iff.mp kind]
        exact ⟨_, _, found, named, rfl⟩
    | @composed _ c nodes ranges kind members length each =>
        rw [hasKind_iff.mp kind]
        refine ⟨ranges, ?_, rfl⟩
        rw [members_iff.mp members, List.forall₂_iff_zip]
        exact ⟨length, fun {n r} hmem => each n r hmem⟩
    | around kind found inner =>
        rw [hasKind_iff.mp kind]
        exact ⟨_, _, found, inner, rfl⟩
    | literal kind named datatype =>
        rw [kindless_iff.mp kind]
        exact ⟨_, named, (if_pos datatype).symm⟩
    | type kind named other =>
        rw [kindless_iff.mp kind]
        exact ⟨_, named, (if_neg (Bool.eq_false_iff.mp other)).symm⟩
  · intro h
    cases hkind : firstKind? g node with
    | none =>
        rw [hkind] at h
        rcases h with ⟨name, named, rfl⟩
        split
        · next datatype => exact .literal (kindless_iff.mpr hkind) named datatype
        · next other =>
            exact .type (kindless_iff.mpr hkind) named (Bool.eq_false_iff.mpr other)
    | some k =>
        rw [hkind] at h
        have kind := hasKind_iff.mpr hkind
        cases k with
        | wildcard =>
            cases h
            exact .wildcard kind
        | undefined =>
            cases h
            exact .undefined kind
        | generic =>
            rcases h with ⟨value, name, found, named, rfl⟩
            exact .generic kind found named
        | composed c =>
            rcases h with ⟨ranges, hranges, rfl⟩
            rcases List.forall₂_iff_zip.mp hranges with ⟨length, each⟩
            exact .composed kind (members_iff.mpr rfl) length fun _ _ hmem => each hmem
        | around e =>
            rcases h with ⟨value, inner, found, hinner, rfl⟩
            exact .around kind found hinner

theorem hasPart_iff {part : NodeId} : HasPart g node part <->
    match firstKind? g node with
    | some (.composed _) => part ∈ g.ordered node Oo.rangeElements
    | some (.around _) => g.object? node Oo.rangeValue = some part
    | _ => False := by
  constructor
  · intro h
    cases h with
    | member kind members mem =>
        rw [hasKind_iff.mp kind]
        rwa [← members_iff.mp members] at mem
    | inner kind found =>
        rw [hasKind_iff.mp kind]
        exact found
  · intro h
    split at h
    · next hkind => exact .member (hasKind_iff.mpr hkind) (members_iff.mpr rfl) h
    · next hkind => exact .inner (hasKind_iff.mpr hkind) h
    · exact h.elim

/-- What a node says about its range decides to which trees its description unfolds. -/
inductive Says (g : Graph) (node : NodeId) : Description → Prop where
  | done {r : Range} (flat : r.nesting = 0) (unfolds : ∀ r', Unfolds g node r' ↔ r' = r) :
      Says g node (.done r)
  | composed {c : Composition} {nodes : List NodeId}
      (parts : ∀ part, HasPart g node part ↔ part ∈ nodes)
      (unfolds : ∀ r, Unfolds g node r ↔
        ∃ ranges, List.Forall₂ (Unfolds g) nodes ranges ∧ r = c.build ranges) :
      Says g node (.composed c.build nodes)
  | around {e : Enclosure} {value : NodeId} (parts : ∀ part, HasPart g node part ↔ part = value)
      (unfolds : ∀ r, Unfolds g node r ↔ ∃ inner, Unfolds g value inner ∧ r = e.build inner) :
      Says g node (.around e.build value)
  | malformed {message : String} (unfolds : ∀ r, ¬ Unfolds g node r) :
      Says g node (.malformed message)

theorem says_describe (g : Graph) (node : NodeId) : Says g node (describe g node) := by
  rw [describe_eq]
  cases hkind : firstKind? g node with
  | none =>
      dsimp only
      unfold describeLeaf
      cases hname : g.iri? node with
      | none =>
          refine .malformed fun r => ?_
          rw [unfolds_iff, hkind]
          simp [hname]
      | some name =>
          refine .done ?_ fun r => ?_
          · split <;> rfl
          · rw [unfolds_iff, hkind]
            simp [hname]
  | some k =>
      cases k with
      | wildcard => exact .done rfl fun r => by rw [unfolds_iff, hkind]
      | undefined => exact .done rfl fun r => by rw [unfolds_iff, hkind]
      | generic =>
          dsimp only
          unfold describeGeneric
          cases hname : (g.object? node Oo.rangeGenericType).bind g.iri? with
          | none =>
              refine .malformed fun r h => ?_
              rw [unfolds_iff, hkind] at h
              rcases h with ⟨value, name, found, named, -⟩
              rw [found, Option.bind_some, named] at hname
              cases hname
          | some name =>
              refine .done rfl fun r => ?_
              rcases Option.bind_eq_some_iff.mp hname with ⟨value, found, named⟩
              rw [unfolds_iff, hkind]
              simp [found, named]
      | composed c =>
          exact .composed (fun part => by rw [hasPart_iff, hkind])
            fun r => by rw [unfolds_iff, hkind]
      | around e =>
          dsimp only
          unfold describeAround
          cases hvalue : g.object? node Oo.rangeValue with
          | none =>
              refine .malformed fun r => ?_
              rw [unfolds_iff, hkind]
              simp [hvalue]
          | some value =>
              refine .around (fun part => ?_) fun r => ?_
              · rw [hasPart_iff, hkind]
                simp [hvalue, eq_comm]
              · rw [unfolds_iff, hkind]
                simp [hvalue]

/-!
# Reading
-/

theorem mapM_eq_ok {ε α β : Type} {f : α -> Except ε β} {as : List α} {bs : List β} :
    as.mapM f = .ok bs <-> List.Forall₂ (fun a b => f a = .ok b) as bs := by
  induction as generalizing bs with
  | nil =>
      rw [List.mapM_nil, List.forall₂_nil_left_iff]
      constructor
      · intro h
        cases h
        rfl
      · rintro rfl
        rfl
  | cons a as ih =>
      rw [List.mapM_cons, bind_eq_ok, List.forall₂_cons_left_iff]
      constructor
      · rintro ⟨b, ha, h⟩
        rcases bind_eq_ok.mp h with ⟨bs', has, hbs⟩
        cases hbs
        exact ⟨b, bs', ha, ih.mp has, rfl⟩
      · rintro ⟨b, bs', ha, has, rfl⟩
        exact ⟨b, ha, bind_eq_ok.mpr ⟨bs', ih.mpr has, rfl⟩⟩

theorem forall₂_and_right {α β : Type} {R : α -> β -> Prop} {P : β -> Prop} {as : List α}
    {bs : List β} : List.Forall₂ (fun a b => R a b ∧ P b) as bs <->
      List.Forall₂ R as bs ∧ forall b, b ∈ bs -> P b := by
  constructor
  · intro h
    induction h with
    | nil => exact ⟨.nil, fun b hb => absurd hb List.not_mem_nil⟩
    | cons hab _ ih => exact ⟨.cons hab.1 ih.1, List.forall_mem_cons.mpr ⟨hab.2, ih.2⟩⟩
  · rintro ⟨h, hall⟩
    induction h with
    | nil => exact .nil
    | cons hab _ ih =>
        rw [List.forall_mem_cons] at hall
        exact .cons ⟨hab, hall.1⟩ (ih hall.2)

theorem readWithin_eq_ok {levels : Nat} {r : Range} :
    readWithin g levels node = .ok r <-> Unfolds g node r ∧ r.nesting < levels := by
  induction levels generalizing node r with
  | zero =>
      constructor
      · intro h
        cases h
      · intro h
        exact absurd h.2 (Nat.not_lt_zero _)
  | succ levels ih =>
      have hsays := says_describe g node
      rw [readWithin]
      cases hdescribe : describe g node with
      | done r' =>
          rw [hdescribe] at hsays
          cases hsays with
          | done flat unfolds =>
              rw [unfolds, Except.ok.injEq]
              constructor
              · rintro rfl
                exact ⟨rfl, by omega⟩
              · intro h
                exact h.1.symm
      | composed build nodes =>
          rw [hdescribe] at hsays
          cases hsays with
          | @composed c _ parts unfolds =>
              have hranges (ranges : List Range) : nodes.mapM (readWithin g levels) = .ok ranges <->
                  List.Forall₂ (Unfolds g) nodes ranges ∧ (c.build ranges).nesting < levels + 1 := by
                rw [mapM_eq_ok, nesting_composed, nestingBelow_lt_succ, ← forall₂_and_right]
                simp only [ih]
              rw [unfolds, bind_eq_ok]
              constructor
              · rintro ⟨ranges, hread, hr⟩
                cases hr
                rcases (hranges ranges).mp hread with ⟨hunfold, hnesting⟩
                exact ⟨⟨ranges, hunfold, rfl⟩, hnesting⟩
              · rintro ⟨⟨ranges, hunfold, rfl⟩, hnesting⟩
                exact ⟨ranges, (hranges ranges).mpr ⟨hunfold, hnesting⟩, rfl⟩
      | around build value =>
          rw [hdescribe] at hsays
          cases hsays with
          | @around e _ parts unfolds =>
              rw [unfolds, bind_eq_ok]
              constructor
              · rintro ⟨inner, hread, hr⟩
                cases hr
                rcases ih.mp hread with ⟨hunfold, hnesting⟩
                rw [nesting_around]
                exact ⟨⟨inner, hunfold, rfl⟩, Nat.succ_lt_succ hnesting⟩
              · rintro ⟨⟨inner, hunfold, rfl⟩, hnesting⟩
                rw [nesting_around] at hnesting
                exact ⟨inner, ih.mpr ⟨hunfold, Nat.lt_of_succ_lt_succ hnesting⟩, rfl⟩
      | malformed message =>
          rw [hdescribe] at hsays
          cases hsays with
          | malformed unfolds =>
              constructor
              · intro h
                cases h
              · intro h
                exact absurd h.1 (unfolds r)

theorem Unfolds.unique {r r' : Range} (h : Unfolds g node r) (h' : Unfolds g node r') : r = r' := by
  have hread := readWithin_eq_ok.mpr ⟨h, Nat.lt_succ_of_le (Nat.le_max_left _ r'.nesting)⟩
  have hread' := readWithin_eq_ok.mpr ⟨h', Nat.lt_succ_of_le (Nat.le_max_right r.nesting _)⟩
  exact Except.ok.inj (hread.symm.trans hread')

theorem readWithin_eq_error {levels : Nat} {e : Failure}
    (h : readWithin g levels node = .error e) :
    exists part message, Relation.ReflTransGen (HasPart g) node part ∧
      e = malformedAt g part message := by
  induction levels generalizing node e with
  | zero =>
      cases h
      exact ⟨node, _, .refl, rfl⟩
  | succ levels ih =>
      have hinner {part : NodeId} (hpart : HasPart g node part)
          (hread : readWithin g levels part = .error e) :
          exists part' message, Relation.ReflTransGen (HasPart g) node part' ∧
            e = malformedAt g part' message := by
        rcases ih hread with ⟨part', message, hpath, he⟩
        exact ⟨part', message, .head hpart hpath, he⟩
      have hsays := says_describe g node
      rw [readWithin] at h
      cases hdescribe : describe g node with
      | done r =>
          rw [hdescribe] at h
          cases h
      | composed build nodes =>
          rw [hdescribe] at hsays h
          cases hsays with
          | composed parts unfolds =>
              rcases bind_eq_error.mp h with hmembers | ⟨ranges, -, hpure⟩
              · rcases exists_error_of_mapM hmembers with ⟨part, hmem, hread⟩
                exact hinner ((parts part).mpr hmem) hread
              · cases hpure
      | around build value =>
          rw [hdescribe] at hsays h
          cases hsays with
          | around parts unfolds =>
              rcases bind_eq_error.mp h with hread | ⟨inner, -, hpure⟩
              · exact hinner ((parts value).mpr rfl) hread
              · cases hpure
      | malformed message =>
          rw [hdescribe] at h
          cases h
          exact ⟨node, message, .refl, rfl⟩

/-!
# Loops
-/

theorem Unfolds.of_hasPart {r : Range} {part : NodeId} (h : Unfolds g node r)
    (hpart : HasPart g node part) : exists s, Unfolds g part s ∧ s.nesting < r.nesting := by
  rw [unfolds_iff] at h
  rw [hasPart_iff] at hpart
  split at hpart
  · next c hkind =>
      rw [hkind] at h
      rcases h with ⟨ranges, hranges, rfl⟩
      rcases List.forall₂_iff_get.mp hranges with ⟨hlength, heach⟩
      rcases List.mem_iff_get.mp hpart with ⟨⟨i, hi⟩, rfl⟩
      have hi' : i < ranges.length := hlength ▸ hi
      rw [nesting_composed]
      exact ⟨_, heach i hi hi', nestingBelow_lt_succ.mp (Nat.lt_succ_self _) _ (List.get_mem _ _)⟩
  · next e hkind =>
      rw [hkind] at h
      rcases h with ⟨value, inner, hvalue, hinner, rfl⟩
      rw [hpart] at hvalue
      cases hvalue
      rw [nesting_around]
      exact ⟨inner, hinner, Nat.lt_succ_self _⟩
  · exact hpart.elim

theorem Unfolds.of_transGen {r : Range} {part : NodeId} (h : Unfolds g node r)
    (hpart : Relation.TransGen (HasPart g) node part) :
    exists s, Unfolds g part s ∧ s.nesting < r.nesting := by
  induction hpart with
  | single hstep => exact h.of_hasPart hstep
  | tail _ hstep ih =>
      rcases ih with ⟨s, hs, hlt⟩
      rcases hs.of_hasPart hstep with ⟨t, ht, hlt'⟩
      exact ⟨t, ht, Nat.lt_trans hlt' hlt⟩

theorem Unfolds.of_reflTransGen {r : Range} {part : NodeId} (h : Unfolds g node r)
    (hpart : Relation.ReflTransGen (HasPart g) node part) : exists s, Unfolds g part s := by
  rcases Relation.reflTransGen_iff_eq_or_transGen.mp hpart with rfl | hpart
  · exact ⟨r, h⟩
  · rcases h.of_transGen hpart with ⟨s, hs, -⟩
    exact ⟨s, hs⟩

theorem not_unfolds_of_loop (hloop : Relation.TransGen (HasPart g) node node) (r : Range) :
    ¬ Unfolds g node r := by
  induction hn : r.nesting using Nat.strongRecOn generalizing r with
  | ind n ih =>
      intro h
      rcases h.of_transGen hloop with ⟨s, hs, hlt⟩
      exact ih s.nesting (hn ▸ hlt) s rfl hs

/-!
# The limit
-/

/-- Reads as the limit is written, with the nesting counted from the root. More than so many readings
inside each other are a violation. -/
def readCounted (g : Graph) (violation : Failure) : (readings nesting : Nat) → NodeId →
    Except Failure Range
  | 0, _, _ => .error violation
  | readings + 1, nesting, node =>
    if maxNesting < nesting then .error (malformedAt g node "range nesting is too deep")
    else
      match describe g node with
      | .done r => .ok r
      | .composed build members => do
        let members ← members.mapM (readCounted g violation readings (nesting + 1))
        return build members
      | .around build inner => do
        let inner ← readCounted g violation readings (nesting + 1) inner
        return build inner
      | .malformed message => .error (malformedAt g node message)

theorem readCounted_eq {violation : Failure} {levels nesting readings : Nat}
    (hlevels : nesting + levels = maxNesting + 1) (hreadings : levels < readings) :
    readCounted g violation readings nesting = readWithin g levels := by
  induction levels generalizing nesting readings with
  | zero =>
      funext node
      cases readings with
      | zero => exact absurd hreadings (Nat.not_lt_zero _)
      | succ readings =>
          rw [readCounted, if_pos (by omega), readWithin]
  | succ levels ih =>
      funext node
      cases readings with
      | zero => exact absurd hreadings (Nat.not_lt_zero _)
      | succ readings =>
          have hinner := ih (by omega : nesting + 1 + levels = maxNesting + 1)
            (Nat.lt_of_succ_lt_succ hreadings)
          rw [readCounted, if_neg (by omega), readWithin]
          cases describe g node <;> simp only [hinner]

/-- Reading ends, with at most 66 readings inside each other.  A description unfolds to at most one tree,
and what is read is exactly this tree, if it is nested at most 64 deep.  Otherwise the description or a
part of it is refused as malformed, so always if one of the parts leads back to itself. -/
theorem read_unfolds (g : Graph) (node : NodeId) :
    (forall violation readings, 65 < readings ->
      readCounted g violation readings 0 node = read g node) ∧
    (forall r r', Unfolds g node r -> Unfolds g node r' -> r = r') ∧
    (forall r, read g node = .ok r <-> Unfolds g node r ∧ r.nesting ≤ 64) ∧
    ((¬ exists r, Unfolds g node r ∧ r.nesting ≤ 64) ->
      exists part message, Relation.ReflTransGen (HasPart g) node part ∧
        read g node = .error (malformedAt g part message)) ∧
    forall loop, Relation.ReflTransGen (HasPart g) node loop ->
      Relation.TransGen (HasPart g) loop loop ->
      exists part message, read g node = .error (malformedAt g part message) := by
  have hok (r : Range) : read g node = .ok r <-> Unfolds g node r ∧ r.nesting ≤ 64 := by
    rw [read, readWithin_eq_ok, ← Nat.lt_succ_iff]
    rfl
  have herror (h : ¬ exists r, Unfolds g node r ∧ r.nesting ≤ 64) :
      exists part message, Relation.ReflTransGen (HasPart g) node part ∧
        read g node = .error (malformedAt g part message) := by
    cases hread : read g node with
    | ok r => exact absurd ⟨r, (hok r).mp hread⟩ h
    | error e =>
        rcases readWithin_eq_error hread with ⟨part, message, hpath, rfl⟩
        exact ⟨part, message, hpath, rfl⟩
  refine ⟨fun violation readings h => ?_, fun r r' h h' => h.unique h', hok, herror,
    fun loop hpath hloop => ?_⟩
  · exact congrFun (readCounted_eq (Nat.zero_add _) h) node
  · have hnone : ¬ exists r, Unfolds g node r ∧ r.nesting ≤ 64 := by
      rintro ⟨r, hr, -⟩
      rcases hr.of_reflTransGen hpath with ⟨s, hs⟩
      exact not_unfolds_of_loop hloop s hs
    rcases herror hnone with ⟨part, message, -, hread⟩
    exact ⟨part, message, hread⟩

/-- Node 4 is declared to be a union and a tuple, and names the list of a datatype and of node 2, an
array of values of a type.  Node 8 is around itself. -/
def sketches : List Graph.Operation :=
  [.intern (.named Xsd.boolean), .intern (.named "Dog"), .freshBlank, .addType 2 Oo.rangeArray,
   .addEdge 2 Oo.rangeValue 1, .freshBlank, .addType 4 Oo.rangeTuple, .addType 4 Oo.rangeUnion,
   .freshList [0, 2], .addEdge 4 Oo.rangeElements 7, .freshBlank, .addType 8 Oo.rangeRest,
   .addEdge 8 Oo.rangeValue 8]

theorem read_unfolds_sketches :
    read (Graph.empty.runAll sketches).2 4 =
      .ok (union [literal Xsd.boolean, array (type "Dog")]) ∧
    exists part message, read (Graph.empty.runAll sketches).2 8 =
      .error (malformedAt (Graph.empty.runAll sketches).2 part message) := by
  have hkinds : firstKind? (Graph.empty.runAll sketches).2 0 = none ∧
      firstKind? (Graph.empty.runAll sketches).2 1 = none ∧
      firstKind? (Graph.empty.runAll sketches).2 2 = some (.around .array) ∧
      firstKind? (Graph.empty.runAll sketches).2 4 = some (.composed .union) ∧
      firstKind? (Graph.empty.runAll sketches).2 8 = some (.around .rest) := by decide +kernel
  have hvalues : (Graph.empty.runAll sketches).2.iri? 0 = some Xsd.boolean ∧
      (Graph.empty.runAll sketches).2.iri? 1 = some "Dog" ∧
      Datatype.isDatatype Xsd.boolean = true ∧ Datatype.isDatatype "Dog" = false ∧
      (Graph.empty.runAll sketches).2.object? 2 Oo.rangeValue = some 1 ∧
      (Graph.empty.runAll sketches).2.ordered 4 Oo.rangeElements = [0, 2] ∧
      (Graph.empty.runAll sketches).2.object? 8 Oo.rangeValue = some 8 := by decide +kernel
  rcases hkinds with ⟨hboolean, hdog, harray, hunion, hrest⟩
  rcases hvalues with ⟨hbooleanIri, hdogIri, hdatatype, hother, hinner, hmembers, hloop⟩
  have hdogs : Unfolds (Graph.empty.runAll sketches).2 2 (array (type "Dog")) :=
    .around (e := .array) (hasKind_iff.mpr harray) hinner
      (.type (kindless_iff.mpr hdog) hdogIri hother)
  have hunfolds : Unfolds (Graph.empty.runAll sketches).2 4
      (union [literal Xsd.boolean, array (type "Dog")]) := by
    refine .composed (c := .union) (hasKind_iff.mpr hunion) (members_iff.mpr hmembers) rfl ?_
    intro n r hmem
    rcases List.mem_cons.mp hmem with h | hmem
    · cases h
      exact .literal (kindless_iff.mpr hboolean) hbooleanIri hdatatype
    · cases List.mem_singleton.mp hmem
      exact hdogs
  have hpart : HasPart (Graph.empty.runAll sketches).2 8 8 := .inner (hasKind_iff.mpr hrest) hloop
  rcases read_unfolds (Graph.empty.runAll sketches).2 4 with ⟨-, -, hread, -, -⟩
  rcases read_unfolds (Graph.empty.runAll sketches).2 8 with ⟨-, -, -, -, hrefused⟩
  exact ⟨(hread _).mpr ⟨hunfolds, by decide⟩, hrefused 8 .refl (.single hpart)⟩

end Range
end Wiring
