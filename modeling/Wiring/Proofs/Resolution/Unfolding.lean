import Mathlib.Tactic.Choose
import Wiring.Plan.Basic
import Wiring.Proofs.Argument

/-!
# Argument trees

An argument tree has, in place of every reference, the instance itself with its
configuration, its component and the trees of its arguments.  Numbers of
instances do not occur in it.
-/

namespace Wiring

inductive Tree where
  | undefined
  | literal (value : Scalar)
  | iri (text : String)
  | lazy (inner : Tree)
  | list (items : List Tree)
  | map (entries : List (String × Tree))
  | object (config component : String) (arguments : List Tree)

/-- What an argument becomes when every reference is replaced by the instance that `look` finds. -/
inductive Unfolds (look : InstanceId → Option Plan.Instance) : Argument → Tree → Prop where
  | undefined : Unfolds look .undefined .undefined
  | literal (value : Scalar) : Unfolds look (.literal value) (.literal value)
  | iri (text : String) : Unfolds look (.iri text) (.iri text)
  | lazy {a : Argument} {t : Tree} (inner : Unfolds look a t) :
      Unfolds look (.lazy a) (.lazy t)
  | list {as : List Argument} {ts : List Tree} (length : as.length = ts.length)
      (items : ∀ i (hi : i < as.length) (hi' : i < ts.length), Unfolds look as[i] ts[i]) :
      Unfolds look (.list as) (.list ts)
  | map {es : List (String × Argument)} {us : List (String × Tree)}
      (length : es.length = us.length)
      (keys : ∀ i (hi : i < es.length) (hi' : i < us.length), es[i].1 = us[i].1)
      (values : ∀ i (hi : i < es.length) (hi' : i < us.length), Unfolds look es[i].2 us[i].2) :
      Unfolds look (.map es) (.map us)
  | reference {id : InstanceId} {x : Plan.Instance} {ts : List Tree} (found : look id = some x)
      (length : x.arguments.length = ts.length)
      (arguments : ∀ i (hi : i < x.arguments.length) (hi' : i < ts.length),
        Unfolds look x.arguments[i] ts[i]) :
      Unfolds look (.reference id) (.object x.config x.component ts)

theorem getElem_mem_zip {α β : Type} {as : List α} {bs : List β} {i : Nat} (hi : i < as.length)
    (hi' : i < bs.length) : (as[i], bs[i]) ∈ as.zip bs := by
  rw [List.mem_iff_getElem]
  exact ⟨i, by rw [List.length_zip]; omega, List.getElem_zip⟩

theorem exists_pointwise {α β : Type} (R : α -> β -> Prop) {as : List α}
    (h : forall i (hi : i < as.length), exists b, R as[i] b) :
    exists bs : List β, as.length = bs.length ∧
      forall i (hi : i < as.length) (hi' : i < bs.length), R as[i] bs[i] := by
  choose f hf using h
  refine ⟨List.ofFn fun i : Fin as.length => f i i.isLt, by simp, fun i hi hi' => ?_⟩
  rw [List.getElem_ofFn]
  exact hf i hi

namespace Unfolds

variable {look look' : InstanceId → Option Plan.Instance} {a b : Argument} {t t' : Tree}

theorem unique (h : Unfolds look a t) (h' : Unfolds look a t') : t = t' := by
  induction h generalizing t' with
  | undefined =>
      cases h'
      rfl
  | literal value =>
      cases h'
      rfl
  | iri text =>
      cases h'
      rfl
  | lazy _ ih =>
      cases h' with
      | lazy inner => rw [ih inner]
  | list length _ ih =>
      cases h' with
      | list length' items' =>
          congr 1
          refine List.ext_getElem (length.symm.trans length') fun i hi hi' => ?_
          have hi₀ := Nat.lt_of_lt_of_eq hi length.symm
          exact ih i hi₀ hi (items' i hi₀ hi')
  | map length keys _ ih =>
      cases h' with
      | map length' keys' values' =>
          congr 1
          refine List.ext_getElem (length.symm.trans length') fun i hi hi' => ?_
          have hi₀ := Nat.lt_of_lt_of_eq hi length.symm
          exact Prod.ext ((keys i hi₀ hi).symm.trans (keys' i hi₀ hi'))
            (ih i hi₀ hi (values' i hi₀ hi'))
  | reference found length _ ih =>
      cases h' with
      | reference found' length' arguments' =>
          rw [found] at found'
          cases found'
          congr 1
          refine List.ext_getElem (length.symm.trans length') fun i hi hi' => ?_
          have hi₀ := Nat.lt_of_lt_of_eq hi length.symm
          exact ih i hi₀ hi (arguments' i hi₀ hi')

theorem mono (h : Unfolds look a t)
    (hlook : forall id x, look id = some x -> look' id = some x) : Unfolds look' a t := by
  induction h with
  | undefined => exact .undefined
  | literal value => exact .literal value
  | iri text => exact .iri text
  | lazy _ ih => exact .lazy ih
  | list length _ ih => exact .list length ih
  | map length keys _ ih => exact .map length keys ih
  | reference found length _ ih => exact .reference (hlook _ _ found) length ih

/-!
# Arguments that fit each other
-/

theorem of_fits {P : Argument.Answers} {inLazy : Bool} (hfits : Argument.Fits P inLazy a b)
    (hanswers : forall config unique lazy i j t, P config unique lazy i j ->
      Unfolds look' (.ofAnswer j) t -> Unfolds look (.ofAnswer i) t)
    (h : Unfolds look' b t) : Unfolds look a t := by
  induction hfits generalizing t with
  | answer known place left right =>
      subst left right
      exact hanswers _ _ _ _ _ _ known h
  | undefined =>
      cases h
      exact .undefined
  | literal value =>
      cases h
      exact .literal value
  | iri text =>
      cases h
      exact .iri text
  | lazy _ ih =>
      cases h with
      | lazy inner => exact .lazy (ih inner)
  | @list _ as bs length _ ih =>
      cases h with
      | list length' items =>
          refine .list (length.trans length') fun i hi hi' => ?_
          have hi₀ := Nat.lt_of_lt_of_eq hi length
          exact ih _ _ (getElem_mem_zip hi hi₀)
            (items i hi₀ hi')
  | @map _ es fs length keys _ ih =>
      cases h with
      | map length' keys' values =>
          refine .map (length.trans length') (fun i hi hi' => ?_) fun i hi hi' => ?_
          · have hi₀ := Nat.lt_of_lt_of_eq hi length
            exact (keys _ _ (getElem_mem_zip hi hi₀)).trans (keys' i hi₀ hi')
          · have hi₀ := Nat.lt_of_lt_of_eq hi length
            exact ih _ _ (getElem_mem_zip hi hi₀) (values i hi₀ hi')

theorem exists_of_fits {P : Argument.Answers} {inLazy : Bool} (hfits : Argument.Fits P inLazy a b)
    (hanswers : forall config unique lazy i j, P config unique lazy i j ->
      exists t, Unfolds look (.ofAnswer j) t) :
    exists t, Unfolds look b t := by
  induction hfits with
  | answer known place left right =>
      subst left right
      exact hanswers _ _ _ _ _ known
  | undefined => exact ⟨_, .undefined⟩
  | literal value => exact ⟨_, .literal value⟩
  | iri text => exact ⟨_, .iri text⟩
  | lazy _ ih =>
      rcases ih with ⟨t, h⟩
      exact ⟨_, .lazy h⟩
  | @list _ as bs length _ ih =>
      have hitems (i : Nat) (hi : i < bs.length) : exists t, Unfolds look bs[i] t :=
        ih _ _ (getElem_mem_zip (Nat.lt_of_lt_of_eq hi length.symm) hi)
      rcases exists_pointwise (Unfolds look) hitems with ⟨ts, hlength, hts⟩
      exact ⟨_, .list hlength hts⟩
  | @map _ es fs length keys _ ih =>
      have hvalues (i : Nat) (hi : i < fs.length) :
          exists u : String × Tree, fs[i].1 = u.1 ∧ Unfolds look fs[i].2 u.2 := by
        rcases ih _ _ (getElem_mem_zip (Nat.lt_of_lt_of_eq hi length.symm) hi) with ⟨t, h⟩
        exact ⟨(fs[i].1, t), rfl, h⟩
      rcases exists_pointwise (fun (e : String × Argument) (u : String × Tree) =>
        e.1 = u.1 ∧ Unfolds look e.2 u.2) hvalues with ⟨us, hlength, hus⟩
      exact ⟨_, .map hlength (fun i hi hi' => (hus i hi hi').1) fun i hi hi' => (hus i hi hi').2⟩

end Unfolds
end Wiring
