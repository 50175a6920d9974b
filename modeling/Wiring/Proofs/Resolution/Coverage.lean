import Wiring.Proofs.Resolution.Account
import Wiring.Proofs.Resolution.Acyclicity

/-!
# Plans hold what their root needs

All instances of a plan are referred to, directly or not, by its root: what a
resolution adds to a session hangs together with its answer.
-/

namespace Wiring

def Plan.Refers (p : Plan) (i j : InstanceId) : Prop :=
  exists x, p.get? i = some x ∧ exists a, a ∈ x.arguments ∧ j ∈ a.references true

namespace Session

def Refers (s : Session) (i j : InstanceId) : Prop :=
  exists x, s.instances[i]? = some x ∧ exists a, a ∈ x.arguments ∧ j ∈ a.references true

variable {s s' s'' : Session}

theorem refers_later (h : Continues s.instances s'.instances) : s.Refers ≤ s'.Refers := by
  rintro i j ⟨x, hx, hj⟩
  exact ⟨x, h.getElem?_some hx, hj⟩

/-- All instances that a later session has in addition hang together with the given ones. -/
structure Covers (s : Session) (ids : List InstanceId) (s' : Session) : Prop where
  grows : s.Grows s'
  reached (i : InstanceId) : s.instances.size ≤ i -> i < s'.instances.size ->
    exists id, id ∈ ids ∧ Relation.ReflTransGen s'.Refers id i

namespace Covers

theorem of_size {ids : List InstanceId} (h : s.Grows s')
    (hsize : s'.instances.size = s.instances.size) : s.Covers ids s' where
  grows := h
  reached i hle hlt := by
    rw [hsize] at hlt
    exact absurd hlt (Nat.not_lt.mpr hle)

theorem trans {ids ids' : List InstanceId} (h : s.Covers ids s') (h' : s'.Covers ids' s'') :
    s.Covers (ids ++ ids') s'' where
  grows := h.grows.trans h'.grows
  reached i hle hlt := by
    rcases Nat.lt_or_ge i s'.instances.size with hold | hnew
    · rcases h.reached i hle hold with ⟨id, hid, hpath⟩
      exact ⟨id, List.mem_append_left _ hid,
        Relation.ReflTransGen.mono (refers_later h'.grows.instances) _ _ hpath⟩
    · rcases h'.reached i hnew hlt with ⟨id, hid, hpath⟩
      exact ⟨id, List.mem_append_right _ hid, hpath⟩

theorem made {env : Environment} {config : NodeId} {component : Component} {unique : Bool}
    {resolved : List Argument} (hnew : unique = true ∨ s.shared[config]? = none)
    (hgrows : (env.opened s config component unique).Grows s')
    (h : (env.opened s config component unique).Covers (Argument.itemReferences true resolved)
      s') :
    s.Covers [s.instances.size] (s'.setArguments s.instances.size resolved) where
  grows := ((Environment.grows_opened hnew).trans hgrows).setArguments (Nat.le_refl _) resolved
  reached i hle hlt := by
    have hsize : (env.opened s config component unique).instances.size = s.instances.size + 1 :=
      Environment.size_opened
    have hreserved := Environment.getElem?_reserved hgrows
    -- The new instance had no arguments yet, so what was referred to is still.
    have hkept : s'.Refers ≤ (s'.setArguments s.instances.size resolved).Refers := by
      rintro j k ⟨x, hx, a, ha, hk⟩
      refine ⟨x, ?_, a, ha, hk⟩
      rw [getElem?_setArguments, if_neg]
      · exact hx
      · rintro rfl
        rw [hreserved] at hx
        cases hx
        cases ha
    refine ⟨s.instances.size, List.mem_singleton.mpr rfl, ?_⟩
    rcases Nat.eq_or_lt_of_le hle with rfl | hlater
    · exact .refl
    · rw [size_setArguments] at hlt
      rw [← Nat.succ_le_iff, ← Nat.add_one, ← hsize] at hlater
      rcases h.reached i hlater hlt with ⟨id, hid, hpath⟩
      rcases Argument.mem_itemReferences.mp hid with ⟨a, ha, hida⟩
      have hstep : (s'.setArguments s.instances.size resolved).Refers s.instances.size id := by
        refine ⟨⟨env.graph.display config, component.id, resolved⟩, ?_, a, ha, hida⟩
        rw [getElem?_setArguments, if_pos rfl, hreserved]
        rfl
      exact .head hstep (Relation.ReflTransGen.mono hkept _ _ hpath)

end Covers
end Session

def Account.coverage (env : Environment) : Account env where
  moves := Session.Covers
  refl s := .of_size (Session.Grows.refl s) rfl
  trans := Session.Covers.trans
  noted hn := .of_size (Session.Grows.noted hn) rfl
  known _ := .of_size (Session.Grows.refl _) rfl
  made := Session.Covers.made

namespace Environment

variable {env : Environment}

theorem covers_resolve {config : NodeId} {id : InstanceId} {t : Session}
    (h : outcome (env.resolve config) Session.empty = (.ok id, t)) :
    id = 0 ∧ Session.empty.Covers [id] t := by
  rcases resolve_cases h with ⟨i, hinner, heq⟩ | ⟨-, heq⟩ | ⟨e, -, heq⟩
  · cases heq
    refine ⟨?_, (Account.coverage env).moves_instantiateWithin env.depthLimit hinner⟩
    rw [instantiateWithin_eq] at hinner
    rcases instantiateWith_new_ok List.not_mem_nil (Or.inr (by simp [Session.empty])) hinner with
      ⟨_, _, _, -, -, heq, -⟩
    exact Option.some.inj heq
  · cases heq
  · cases heq

/-- The instances of a plan are exactly those that its root, which comes first, refers to directly or
through others, be it within lists, maps or lazy arguments. -/
theorem plan_covered (env : Environment) (config : NodeId) (p : Plan)
    (h : env.plan config = .ok p) :
    p.root = 0 ∧ forall i, i < p.instances.size <-> Relation.ReflTransGen p.Refers p.root i := by
  rcases hrun : outcome (env.resolve config) Session.empty with ⟨answer, t⟩
  have hplan : env.plan config = answer.map t.toPlan := by
    unfold plan
    change (fun r : Except Failure InstanceId × Session => r.1.map r.2.toPlan)
      (outcome (env.resolve config) Session.empty) = _
    rw [hrun]
  rw [hplan] at h
  cases answer with
  | error e => cases h
  | ok id =>
      cases h
      rcases covers_resolve hrun with ⟨hroot, hcovers⟩
      rcases sound_resolve Context.sound_empty hrun with ⟨hsound, hanswer⟩
      refine ⟨hroot, fun i => ⟨fun hi => ?_, fun hpath => ?_⟩⟩
      · rcases hcovers.reached i (Nat.zero_le i) hi with ⟨id', hid', hpath⟩
        cases List.mem_singleton.mp hid'
        exact hpath
      · induction hpath with
        | refl => exact hanswer id rfl
        | tail _ hstep _ =>
            rcases hstep with ⟨x, hx, a, ha, hj⟩
            exact hsound.closed _ x hx a ha _ hj

/-- Configuration `a` refers to a list of `b` and `c` and to a copy of `b`, and `b` lazily to
`a`. -/
def household : Environment :=
  let (x, g) := Graph.empty.intern (.named "X")
  let (p, g) := g.intern (.named "p")
  let (q, g) := g.intern (.named "q")
  let (r, g) := g.intern (.named "r")
  let (arguments, g) := g.freshList [p, q, r]
  let (yes, g) := g.intern (.literal (.typed "true" Vocabulary.Xsd.boolean))
  let g := (((g.addType x Vocabulary.Oo.classType).addEdge x Vocabulary.Oo.constructorArguments
    arguments).addEdge q Vocabulary.Oo.lazy yes).addEdge r Vocabulary.Oo.uniqueValue yes
  let (a, g) := g.intern (.named "a")
  let (b, g) := g.intern (.named "b")
  let (c, g) := g.intern (.named "c")
  let (both, g) := g.freshList [b, c]
  let g := ((g.addType a "X").addType b "X").addType c "X"
  ⟨((g.addEdge a "p" both).addEdge a "r" b).addEdge b "q" a, ∅, 16⟩

theorem plan_covered_household :
    exists p, household.plan 7 = .ok p ∧ p.instances.size = 4 ∧ p.root = 0 ∧
      forall i, i < 4 <-> Relation.ReflTransGen p.Refers p.root i := by
  have hsize : ((household.plan 7).toOption.map fun p => p.instances.size) = some 4 := by
    decide +kernel
  cases hplan : household.plan 7 with
  | error e =>
      rw [hplan] at hsize
      cases hsize
  | ok p =>
      rw [hplan] at hsize
      have hfour : p.instances.size = 4 := Option.some.inj hsize
      rcases plan_covered household 7 p hplan with ⟨hroot, hcovered⟩
      rw [hfour] at hcovered
      exact ⟨p, rfl, hfour, hroot, hcovered⟩

end Environment
end Wiring
