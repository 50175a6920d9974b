import Wiring.Proofs.Resolution.Cutoff

/-!
# Limits of depth

How many levels are left decides whether a walk goes deeper, and nothing else.  So
a walk under a higher limit does the same, unless the lower limit cuts it off.
-/

namespace Wiring
namespace Environment

def withLimit (env : Environment) (limit : Nat) : Environment :=
  { env with depthLimit := limit }

variable {limit limit' : Nat}

/-- A limit only decides whether resolution is cut off: under a higher one each configuration has the
same plan, and each failure for another reason is the same. -/
theorem plan_under_higher_limit (env : Environment) (config : NodeId) (h : limit ≤ limit') :
    (forall p, (env.withLimit limit).plan config = .ok p ->
      (env.withLimit limit').plan config = .ok p) ∧
    forall e, (env.withLimit limit).plan config = .error e ->
      (forall bound node, e ≠ .depthExceeded bound node) ->
      (env.withLimit limit').plan config = .error e := by
  have hsame := plan_given (env.withLimit limit)
    (.refl (fun e => exists bound node, e = .depthExceeded bound node) env.supplied) limit'
    (.inr ⟨h, fun bound node => ⟨bound, node, rfl⟩⟩) config
  have hgiven : (env.withLimit limit).given env.supplied limit' = env.withLimit limit' := rfl
  rw [hgiven] at hsame
  refine ⟨fun p hp => ?_, fun e he hdepth => ?_⟩
  · rcases hsame with hsame | ⟨e, he, -⟩
    · rw [hsame, hp]
    · rw [hp] at he
      cases he
  · rcases hsame with hsame | ⟨e', he', bound, node, hcut⟩
    · rw [hsame, he]
    · rw [he] at he'
      cases he'
      exact absurd hcut (hdepth bound node)

/-- Configurations `a` and `b` of a component whose only parameter is required: `a` refers to `a`
through `c`, and `b` has no value. -/
def unequal : Environment :=
  let (x, g) := Graph.empty.intern (.named "X")
  let (p, g) := g.intern (.named "p")
  let (arguments, g) := g.freshList [p]
  let (yes, g) := g.intern (.literal (.typed "true" Vocabulary.Xsd.boolean))
  let (a, g) := g.intern (.named "a")
  let (b, g) := g.intern (.named "b")
  let (c, g) := g.intern (.named "c")
  let g := (g.addType x Vocabulary.Oo.classType).addEdge x Vocabulary.Oo.constructorArguments
    arguments
  let g := ((g.addEdge p Vocabulary.Oo.required yes).addType a "X").addType b "X"
  ⟨((g.addType c "X").addNamed a "p" "c").addNamed c "p" "a", ∅, 16⟩

theorem plan_under_higher_limit_unequal :
    (exists p, (unequal.withLimit 6).plan 4 = .ok p ∧ (unequal.withLimit 20).plan 4 = .ok p) ∧
    exists e, (unequal.withLimit 6).plan 5 = .error e ∧ (unequal.withLimit 20).plan 5 = .error e ∧
      forall bound node, e ≠ .depthExceeded bound node := by
  have hplan : ((unequal.withLimit 6).plan 4).isOk = true := by decide +kernel
  have hfailure : (match (unequal.withLimit 6).plan 5 with
      | .error (.missingValue _ _) => true
      | _ => false) = true := by decide +kernel
  constructor
  · cases hp : (unequal.withLimit 6).plan 4 with
    | error e =>
        rw [hp] at hplan
        cases hplan
    | ok p => exact ⟨p, rfl, (plan_under_higher_limit unequal 4 (by decide : 6 ≤ 20)).1 p hp⟩
  · cases he : (unequal.withLimit 6).plan 5 with
    | ok p =>
        rw [he] at hfailure
        cases hfailure
    | error e =>
        have hdepth : forall bound node, e ≠ .depthExceeded bound node := by
          rintro bound node rfl
          rw [he] at hfailure
          cases hfailure
        exact ⟨e, rfl, (plan_under_higher_limit unequal 5 (by decide : 6 ≤ 20)).2 e he hdepth,
          hdepth⟩

end Environment
end Wiring
