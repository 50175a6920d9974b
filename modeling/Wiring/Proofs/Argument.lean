import Mathlib.Data.List.Forall2
import Wiring.Shape

/-!
# Arguments that fit each other

Two arguments fit each other if they differ in the instances they refer to only,
and those are known to belong together.  What comes out of shapes fits if what
goes in does.
-/

namespace Wiring
namespace Argument

/-!
# References
-/

mutual

/-- The instances that an argument refers to, those that a lazy argument holds only `withLazy`. -/
def references (withLazy : Bool) : Argument → List InstanceId
  | undefined | literal _ | iri _ => []
  | reference id => [id]
  | lazy inner => if withLazy then references withLazy inner else []
  | list items => itemReferences withLazy items
  | map entries => entryReferences withLazy entries

def itemReferences (withLazy : Bool) : List Argument → List InstanceId
  | [] => []
  | a :: rest => references withLazy a ++ itemReferences withLazy rest

def entryReferences (withLazy : Bool) : List (String × Argument) → List InstanceId
  | [] => []
  | (_, a) :: rest => references withLazy a ++ entryReferences withLazy rest

end

theorem mem_itemReferences {withLazy : Bool} {items : List Argument} {id : InstanceId} :
    id ∈ itemReferences withLazy items <->
      exists a, a ∈ items ∧ id ∈ references withLazy a := by
  induction items with
  | nil => simp [itemReferences]
  | cons a rest ih => simp [itemReferences, ih]

theorem mem_entryReferences {withLazy : Bool} {entries : List (String × Argument)}
    {id : InstanceId} :
    id ∈ entryReferences withLazy entries <->
      exists e, e ∈ entries ∧ id ∈ references withLazy e.2 := by
  induction entries with
  | nil => simp [entryReferences]
  | cons e rest ih => simp [entryReferences, ih]

mutual

theorem references_subset (a : Argument) : a.references false ⊆ a.references true := by
  cases a with
  | undefined | literal value | iri text | reference id => simp [references]
  | lazy inner => simp [references]
  | list items =>
      rw [references, references]
      exact itemReferences_subset items
  | map entries =>
      rw [references, references]
      exact entryReferences_subset entries

theorem itemReferences_subset (items : List Argument) :
    itemReferences false items ⊆ itemReferences true items := by
  cases items with
  | nil => exact List.Subset.refl _
  | cons a rest =>
      rw [itemReferences, itemReferences]
      exact List.append_subset.mpr
        ⟨List.subset_append_of_subset_left _ (references_subset a),
          List.subset_append_of_subset_right _ (itemReferences_subset rest)⟩

theorem entryReferences_subset (entries : List (String × Argument)) :
    entryReferences false entries ⊆ entryReferences true entries := by
  cases entries with
  | nil => exact List.Subset.refl _
  | cons e rest =>
      rcases e with ⟨key, a⟩
      rw [entryReferences, entryReferences]
      exact List.append_subset.mpr
        ⟨List.subset_append_of_subset_left _ (references_subset a),
          List.subset_append_of_subset_right _ (entryReferences_subset rest)⟩

end

/-!
# Fitting arguments
-/

def ofAnswer : Option InstanceId → Argument
  | some id => reference id
  | none => undefined

/-- What is known of two answers to the same request: the configuration that is asked for, whether
for an instance of its own, and whether lazily. -/
abbrev Answers := NodeId → (unique lazy : Bool) → Option InstanceId → Option InstanceId → Prop

/-- Two arguments that differ in the answers they were made of only. Answers to lazy requests stand
inside lazy arguments, which `inLazy` tells of. -/
inductive Fits (P : Answers) : (inLazy : Bool) → Argument → Argument → Prop where
  | answer {inLazy : Bool} {a b : Argument} {config : NodeId} {unique lazy : Bool}
      {i j : Option InstanceId} (known : P config unique lazy i j)
      (place : lazy = true → inLazy = true) (left : a = ofAnswer i) (right : b = ofAnswer j) :
      Fits P inLazy a b
  | undefined {inLazy : Bool} : Fits P inLazy .undefined .undefined
  | literal {inLazy : Bool} (value : Scalar) : Fits P inLazy (.literal value) (.literal value)
  | iri {inLazy : Bool} (text : String) : Fits P inLazy (.iri text) (.iri text)
  | lazy {inLazy : Bool} {a b : Argument} (inner : Fits P true a b) :
      Fits P inLazy (.lazy a) (.lazy b)
  | list {inLazy : Bool} {as bs : List Argument} (length : as.length = bs.length)
      (items : ∀ a b, (a, b) ∈ as.zip bs → Fits P inLazy a b) :
      Fits P inLazy (.list as) (.list bs)
  | map {inLazy : Bool} {es fs : List (String × Argument)} (length : es.length = fs.length)
      (keys : ∀ e f, (e, f) ∈ es.zip fs → e.1 = f.1)
      (values : ∀ e f, (e, f) ∈ es.zip fs → Fits P inLazy e.2 f.2) :
      Fits P inLazy (.map es) (.map fs)

def EntriesFit (P : Answers) (inLazy : Bool) (es fs : List (String × Argument)) : Prop :=
  List.Forall₂ (fun e f => e.1 = f.1 ∧ Fits P inLazy e.2 f.2) es fs

namespace Fits

variable {P Q : Answers} {inLazy : Bool} {a b : Argument} {as bs : List Argument}
  {es fs : List (String × Argument)}

theorem list_iff :
    Fits P inLazy (.list as) (.list bs) <-> List.Forall₂ (Fits P inLazy) as bs := by
  rw [List.forall₂_iff_zip]
  constructor
  · intro h
    cases h with
    | answer known place left right => rename_i i _; cases i <;> cases left
    | list length items => exact ⟨length, fun {a b} => items a b⟩
  · rintro ⟨length, items⟩
    exact .list length fun _ _ => items

theorem map_iff : Fits P inLazy (.map es) (.map fs) <-> EntriesFit P inLazy es fs := by
  unfold EntriesFit
  rw [List.forall₂_iff_zip]
  constructor
  · intro h
    cases h with
    | answer known place left right => rename_i i _; cases i <;> cases left
    | map length keys values => exact ⟨length, fun hmem => ⟨keys _ _ hmem, values _ _ hmem⟩⟩
  · rintro ⟨length, entries⟩
    exact .map length (fun _ _ hmem => (entries hmem).1) fun _ _ hmem => (entries hmem).2

theorem mono (h : Fits P inLazy a b)
    (himp : forall config unique lazy i j, P config unique lazy i j -> Q config unique lazy i j) :
    Fits Q inLazy a b := by
  induction h with
  | answer known place left right => exact .answer (himp _ _ _ _ _ known) place left right
  | undefined => exact .undefined
  | literal value => exact .literal value
  | iri text => exact .iri text
  | lazy _ ih => exact .lazy ih
  | list length _ ih => exact .list length ih
  | map length keys _ ih => exact .map length keys ih

theorem intoLazy (h : Fits P inLazy a b) : Fits P true a b := by
  induction h with
  | answer known place left right => exact .answer known (fun _ => rfl) left right
  | undefined => exact .undefined
  | literal value => exact .literal value
  | iri text => exact .iri text
  | lazy inner _ => exact .lazy inner
  | list length _ ih => exact .list length ih
  | map length keys _ ih => exact .map length keys ih

theorem weaken (h : Fits P false a b) : Fits P inLazy a b := by
  cases inLazy with
  | false => exact h
  | true => exact h.intoLazy

/-- Every reference is an answer; without those that lazy arguments hold, to a request that is not
lazy itself. -/
theorem answer_of_mem_references (h : Fits P inLazy a b) {withLazy : Bool} {id : InstanceId}
    (hid : id ∈ a.references withLazy) :
    exists config unique lazy j, P config unique lazy (some id) j ∧
      (lazy = true -> inLazy = true ∨ withLazy = true) := by
  induction h with
  | @answer _ _ _ config unique lazy i j known place left right =>
      subst left
      cases i with
      | none => simp [ofAnswer, references] at hid
      | some i =>
          have hi : id = i := by simpa [ofAnswer, references] using hid
          subst hi
          exact ⟨config, unique, lazy, j, known, fun hlazy => Or.inl (place hlazy)⟩
  | undefined => simp [references] at hid
  | literal value => simp [references] at hid
  | iri text => simp [references] at hid
  | lazy _ ih =>
      cases withLazy with
      | false => simp [references] at hid
      | true =>
          rcases ih (by simpa [references] using hid) with ⟨config, unique, lazy, j, known, _⟩
          exact ⟨config, unique, lazy, j, known, fun _ => Or.inr rfl⟩
  | @list _ as bs length _ ih =>
      rw [references, mem_itemReferences] at hid
      rcases hid with ⟨a, ha, hid⟩
      rw [← List.map_fst_zip (Nat.le_of_eq length), List.mem_map] at ha
      rcases ha with ⟨⟨a, b⟩, hmem, rfl⟩
      exact ih a b hmem hid
  | @map _ es fs length keys _ ih =>
      rw [references, mem_entryReferences] at hid
      rcases hid with ⟨e, he, hid⟩
      rw [← List.map_fst_zip (Nat.le_of_eq length), List.mem_map] at he
      rcases he with ⟨⟨e, f⟩, hmem, rfl⟩
      exact ih e f hmem hid

theorem entries? (h : Fits P inLazy a b) :
    Option.Rel (EntriesFit P inLazy) a.entries? b.entries? := by
  cases h with
  | answer known place left right =>
      rename_i i j
      subst left right
      cases i <;> cases j <;> exact .none
  | undefined => exact .none
  | literal value => exact .none
  | iri text => exact .none
  | lazy inner => exact .none
  | list length items => exact .none
  | map length keys values => exact .some (map_iff.mp (.map length keys values))

end Fits

theorem EntriesFit.mono {P Q : Answers} {inLazy : Bool} {es fs : List (String × Argument)}
    (h : EntriesFit P inLazy es fs)
    (himp : forall config unique lazy i j, P config unique lazy i j -> Q config unique lazy i j) :
    EntriesFit Q inLazy es fs :=
  List.Forall₂.imp (fun _ _ hef => ⟨hef.1, hef.2.mono himp⟩) h

theorem flatten_fits {P : Answers} {inLazy : Bool} {ass bss : List (List Argument)}
    (h : List.Forall₂ (List.Forall₂ (Fits P inLazy)) ass bss) :
    List.Forall₂ (Fits P inLazy) ass.flatten bss.flatten := by
  induction h with
  | nil => exact .nil
  | cons h _ ih => exact List.rel_append h ih

theorem EntriesFit.flatten {P : Answers} {inLazy : Bool}
    {ess fss : List (List (String × Argument))}
    (h : List.Forall₂ (EntriesFit P inLazy) ess fss) :
    EntriesFit P inLazy ess.flatten fss.flatten := by
  induction h with
  | nil => exact .nil
  | cons h _ ih => exact List.rel_append h ih

end Argument

/-!
# Fitting outcomes of shapes
-/

open Argument

structure Resolved.Fits (P : Answers) (r r' : Resolved) : Prop where
  values : List.Forall₂ (Argument.Fits P false) r.values r'.values
  unique : r.unique = r'.unique

namespace Resolved.Fits

variable {P : Answers} {r r' : Resolved}

theorem single {a b : Argument} (h : Argument.Fits P false a b) :
    Resolved.Fits P (.single a) (.single b) :=
  ⟨.cons h .nil, rfl⟩

theorem collapse (h : Resolved.Fits P r r') : Argument.Fits P false r.collapse r'.collapse := by
  rcases r with ⟨values, unique⟩
  rcases r' with ⟨values', unique'⟩
  rcases h with ⟨hvalues, hunique⟩
  simp only at hvalues hunique
  subst hunique
  cases hvalues with
  | nil => exact .undefined
  | cons ha hrest =>
      cases unique with
      | true => exact ha
      | false => exact Argument.Fits.list_iff.mpr (.cons ha hrest)

end Resolved.Fits

inductive Assembled.Fits (P : Answers) : Assembled → Assembled → Prop where
  | positional {as bs : List Argument} (h : List.Forall₂ (Argument.Fits P false) as bs) :
      Assembled.Fits P (.positional as) (.positional bs)
  | value {a b : Argument} (h : Argument.Fits P false a b) :
      Assembled.Fits P (.value a) (.value b)
  | entries {es fs : List (String × Argument)} (h : EntriesFit P false es fs) :
      Assembled.Fits P (.entries es) (.entries fs)
  | resolved {r r' : Resolved} (h : Resolved.Fits P r r') :
      Assembled.Fits P (.resolved r) (.resolved r')
  | values {as bs : List Argument} (h : List.Forall₂ (Argument.Fits P false) as bs) :
      Assembled.Fits P (.values as) (.values bs)

namespace Assembled.Fits

variable {P : Answers} {x y : Assembled}

theorem toArgument (h : Assembled.Fits P x y) :
    Argument.Fits P false x.toArgument y.toArgument := by
  cases h with
  | positional h => exact Argument.Fits.list_iff.mpr h
  | value h => exact h
  | entries h => exact Argument.Fits.map_iff.mpr h
  | resolved h => exact h.collapse
  | values h => exact Argument.Fits.list_iff.mpr h

theorem toPositional (h : Assembled.Fits P x y) :
    List.Forall₂ (Argument.Fits P false) x.toPositional y.toPositional := by
  cases h with
  | positional h => exact h
  | value h => exact .cons h .nil
  | entries h => exact .cons (Argument.Fits.map_iff.mpr h) .nil
  | resolved h => exact h.values
  | values h => exact h

end Assembled.Fits
end Wiring
