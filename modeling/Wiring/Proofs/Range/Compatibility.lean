import Wiring.Proofs.Range.Admission

/-!
# Relations between checks

A check of a range is put together from those of its parts and of generic type
parameters, always in the same few ways.  A relation that is compatible with these
ways holds between checks of a range if it holds between the ways of checking the
generic type parameters that the range mentions.  On its first side the relation has
any number of checks at once: one for two checks side by side, and a sequence for
checks that come closer and closer to another one.  What holds of a single check is
the case in which the relation looks at one side only.
-/

namespace Wiring
namespace Checking

/-- The relation passes from the parts of checks to the whole. -/
structure Compatible {ι : Type} (R : {α : Type} → (ι → Checking α) → Checking α → Prop) : Prop where
  pure {α : Type} (a : α) : R (fun _ => Pure.pure a) (Pure.pure a)
  refuse {α : Type} (report : Report) :
    R (fun _ => (Checking.refuse report : Checking α)) (Checking.refuse report)
  bind {α β : Type} {x : ι → Checking α} {y : Checking α} {k : ι → α → Checking β}
      {l : α → Checking β} :
    R x y -> (forall a, R (fun i => k i a) (l a)) -> R (fun i => x i >>= k i) (y >>= l)
  within {α : Type} {x : ι → Checking α} {y : Checking α} (wrap : Report → Report) :
    R x y -> R (fun i => (x i).within wrap) (y.within wrap)
  outcome {α : Type} {x : ι → Checking α} {y : Checking α} :
    R x y -> R (fun i => (x i).outcome) y.outcome

variable {ι : Type} {R : {α : Type} → (ι → Checking α) → Checking α → Prop}

theorem Compatible.forM {α : Type} (hR : Compatible R) {f : ι → α → Checking PUnit}
    {f' : α → Checking PUnit} (h : forall a, R (fun i => f i a) (f' a)) (as : List α) :
    R (fun i => as.forM (f i)) (as.forM f') := by
  induction as with
  | nil => exact hR.pure _
  | cons a rest ih =>
      change R (fun i => f i a >>= fun _ => rest.forM (f i)) (f' a >>= fun _ => rest.forM f')
      exact hR.bind (h a) fun _ => ih

end Checking

namespace Range

open Checking (Compatible)

variable {ι : Type} {R : {α : Type} → (ι → Checking α) → Checking α → Prop} {g : Graph}

/-!
# Ranges without parts
-/

theorem compatible_checkUndefined (hR : Compatible R) (v : Observed) :
    R (fun _ => checkUndefined g v) (checkUndefined g v) := by
  cases v with
  | absent => exact hR.pure none
  | literal l => exact hR.refuse _
  | node id => exact hR.refuse _

theorem compatible_checkLiteral (hR : Compatible R) (v : Observed) (datatype : String) :
    R (fun _ => checkLiteral g v datatype) (checkLiteral g v datatype) := by
  unfold checkLiteral
  cases v with
  | absent => exact hR.refuse _
  | node id => exact hR.refuse _
  | literal l =>
      dsimp only
      cases Datatype.cast l.value datatype with
      | ok cast => exact hR.pure cast
      | error fault => exact hR.refuse _

theorem compatible_checkType (hR : Compatible R) (v : Observed) (iri : String) :
    R (fun _ => checkType g v iri) (checkType g v iri) := by
  unfold checkType
  cases v with
  | absent => exact hR.refuse _
  | literal l => exact hR.refuse _
  | node id =>
      dsimp only
      split
      · exact hR.pure none
      · exact hR.refuse _

theorem compatible_checkKey (hR : Compatible R) (v : Observed) (r : Range) :
    R (fun _ => checkKey g v r) (checkKey g v r) := by
  cases v with
  | absent => exact hR.refuse _
  | literal l => exact hR.pure none
  | node id => exact hR.refuse _

theorem compatible_itemsOf (hR : Compatible R) (v : Observed) (r : Range) :
    R (fun _ => itemsOf g v r) (itemsOf g v r) := by
  unfold itemsOf
  cases v.items? g with
  | none => exact hR.refuse _
  | some items => exact hR.pure items

/-!
# Ranges with parts
-/

mutual

/-- A check against the range may meet the generic type parameter. Keys are not checked against the
range that they are the keys of. -/
def Mentions (name : String) : Range → Prop
  | wildcard | undefined | literal _ | type _ | keyof _ => False
  | generic n => n = name
  | union members | intersection members | tuple members => AnyMentions name members
  | array inner | rest inner => Mentions name inner

def AnyMentions (name : String) : List Range → Prop
  | [] => False
  | r :: rs => Mentions name r ∨ AnyMentions name rs

end

theorem anyMentions_iff {name : String} {rs : List Range} :
    AnyMentions name rs <-> exists r, r ∈ rs ∧ Mentions name r := by
  induction rs with
  | nil => exact ⟨fun h => h.elim, fun ⟨r, hr, _⟩ => absurd hr List.not_mem_nil⟩
  | cons r rs ih => simp [AnyMentions, ih]

variable {onGeneric : ι → String → Observed → Checking (Option Scalar)}
  {onGeneric' : String → Observed → Checking (Option Scalar)}

mutual

theorem compatible_checkWith (hR : Compatible R) (r : Range)
    (hgeneric : forall name, r.Mentions name ->
      forall v, R (fun i => onGeneric i name v) (onGeneric' name v)) (v : Observed) :
    R (fun i => checkWith g (onGeneric i) v r) (checkWith g onGeneric' v r) := by
  cases r with
  | wildcard => exact hR.pure none
  | undefined => exact compatible_checkUndefined hR v
  | literal datatype => exact compatible_checkLiteral hR v datatype
  | type iri => exact compatible_checkType hR v iri
  | generic name => exact hgeneric name rfl v
  | union members =>
      apply hR.bind (compatible_checkAny hR members hgeneric v)
      intro answer
      cases answer with
      | ok cast => exact hR.pure cast
      | error causes => exact hR.refuse _
  | intersection members => exact hR.within _ (compatible_checkAll hR members hgeneric v)
  | tuple members =>
      apply hR.bind (compatible_itemsOf hR v _)
      intro items
      exact hR.bind (compatible_checkPositions hR members hgeneric v _ 0 items) fun _ => hR.pure none
  | array inner =>
      apply hR.bind (compatible_itemsOf hR v _)
      intro items
      apply hR.bind _ fun _ => hR.pure none
      apply hR.forM
      intro item
      exact hR.bind (hR.within _ (compatible_checkWith hR inner hgeneric item)) fun _ => hR.pure _
  | rest inner => exact compatible_checkWith hR inner hgeneric v
  | keyof inner => exact compatible_checkKey hR v _

theorem compatible_checkAny (hR : Compatible R) (rs : List Range)
    (hgeneric : forall name, AnyMentions name rs ->
      forall v, R (fun i => onGeneric i name v) (onGeneric' name v)) (v : Observed) :
    R (fun i => checkAny g (onGeneric i) v rs) (checkAny g onGeneric' v rs) := by
  cases rs with
  | nil => exact hR.pure _
  | cons r rs =>
      have hr := compatible_checkWith hR r (fun name h => hgeneric name (Or.inl h)) v
      have hrs := compatible_checkAny hR rs (fun name h => hgeneric name (Or.inr h)) v
      apply hR.bind (hR.outcome hr)
      intro answer
      cases answer with
      | ok cast => exact hR.pure _
      | error cause =>
          apply hR.bind hrs
          intro answer
          cases answer with
          | ok cast => exact hR.pure _
          | error causes => exact hR.pure _

theorem compatible_checkAll (hR : Compatible R) (rs : List Range)
    (hgeneric : forall name, AnyMentions name rs ->
      forall v, R (fun i => onGeneric i name v) (onGeneric' name v)) (v : Observed) :
    R (fun i => checkAll g (onGeneric i) v rs) (checkAll g onGeneric' v rs) := by
  cases rs with
  | nil => exact hR.pure none
  | cons r rs =>
      apply hR.bind (compatible_checkWith hR r (fun name h => hgeneric name (Or.inl h)) v)
      intro first
      exact hR.bind (compatible_checkAll hR rs (fun name h => hgeneric name (Or.inr h)) v)
        fun others => hR.pure _

theorem compatible_checkPositions (hR : Compatible R) (rs : List Range)
    (hgeneric : forall name, AnyMentions name rs ->
      forall v, R (fun i => onGeneric i name v) (onGeneric' name v)) (v : Observed) (whole : Range)
    (position : Nat) (items : List Observed) :
    R (fun i => checkPositions g (onGeneric i) v whole position items rs)
      (checkPositions g onGeneric' v whole position items rs) := by
  cases rs with
  | nil =>
      simp only [checkPositions]
      split
      · exact hR.pure _
      · exact hR.refuse _
  | cons r rs =>
      have hr (item : Observed) :=
        compatible_checkWith hR r (fun name h => hgeneric name (Or.inl h)) item
      by_cases hrest : exists inner, r = rest inner
      · rcases hrest with ⟨inner, rfl⟩
        apply hR.forM
        intro item
        exact hR.bind (hR.within _ (hr item)) fun _ => hR.pure _
      · have hne (inner : Range) : r ≠ rest inner := fun h => hrest ⟨inner, h⟩
        simp only [checkPositions_cons hne]
        apply hR.bind (hR.within _ (hr _))
        intro _
        exact compatible_checkPositions hR rs (fun name h => hgeneric name (Or.inr h)) v whole
          (position + 1) items.tail

end

end Range
end Wiring
