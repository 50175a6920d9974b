import Wiring.Proofs.Resolution.Growth

/-!
# Histories

A session answers one request after the other.  A request that fails leaves
behind what it has added, and the next one goes on from there.
-/

namespace Wiring

inductive Request where
  | config (node : NodeId)
  | iri (text : String)
  deriving DecidableEq, Repr

def Request.config? (g : Graph) : Request → Option NodeId
  | config node => some node
  | iri text => g.lookupNamed? text

namespace Environment

def answer (env : Environment) : Request → Resolving InstanceId
  | .config node => env.resolve node
  | .iri text => env.resolveIri text

def serve (env : Environment) (s : Session) :
    List Request → List (Except Failure InstanceId) × Session
  | [] => ([], s)
  | request :: rest =>
    let (answer, s) := outcome (env.answer request) s
    let (answers, s) := env.serve s rest
    (answer :: answers, s)

/-- The answers to requests in a session of their own, and the session that they leave. -/
def history (env : Environment) (requests : List Request) :
    List (Except Failure InstanceId) × Session :=
  env.serve Session.empty requests

variable {env : Environment}

/-!
# One request
-/

theorem outcome_resolve (s : Session) (config : NodeId) :
    outcome (env.resolve config) s =
      match outcome (env.instantiateWithin env.depthLimit [] config false false) s with
      | (.ok (some id), s') => (.ok id, s')
      | (.ok none, s') => (.error (.cyclicReference (env.graph.display config)), s')
      | (.error e, s') => (.error e, s') := by
  unfold resolve
  rw [outcome_bind]
  have hdown : env.descent.instantiate = env.instantiateWithin env.depthLimit := rfl
  rw [hdown]
  rcases outcome (env.instantiateWithin env.depthLimit [] config false false) s with
    ⟨e | i, s'⟩
  · rfl
  · cases i <;> rfl

theorem resolve_cases {config : NodeId} {s t : Session} {answer : Except Failure InstanceId}
    (h : outcome (env.resolve config) s = (answer, t)) :
    (exists id, outcome (env.instantiateWithin env.depthLimit [] config false false) s =
        (.ok (some id), t) ∧ answer = .ok id) ∨
      (outcome (env.instantiateWithin env.depthLimit [] config false false) s = (.ok none, t) ∧
        answer = .error (.cyclicReference (env.graph.display config))) ∨
      exists e, outcome (env.instantiateWithin env.depthLimit [] config false false) s =
        (.error e, t) ∧ answer = .error e := by
  rw [outcome_resolve] at h
  rcases hinner : outcome (env.instantiateWithin env.depthLimit [] config false false) s with
    ⟨e | i, s'⟩
  · rw [hinner] at h
    cases h
    exact Or.inr (Or.inr ⟨e, rfl, rfl⟩)
  · rw [hinner] at h
    cases i with
    | none =>
        cases h
        exact Or.inr (Or.inl ⟨rfl, rfl⟩)
    | some id =>
        cases h
        exact Or.inl ⟨id, rfl, rfl⟩

theorem answer_cases {request : Request} {s t : Session} {answer : Except Failure InstanceId}
    (h : outcome (env.answer request) s = (answer, t)) :
    (request.config? env.graph = none ∧ (exists e, answer = .error e) ∧ t = s) ∨
      exists config, request.config? env.graph = some config ∧
        outcome (env.resolve config) s = (answer, t) := by
  cases request with
  | config node => exact Or.inr ⟨node, rfl, h⟩
  | iri text =>
      have hiri : outcome (env.resolveIri text) s = (answer, t) := h
      unfold resolveIri at hiri
      cases hnode : env.graph.lookupNamed? text with
      | none =>
          rw [hnode] at hiri
          cases hiri
          exact Or.inl ⟨hnode, ⟨_, rfl⟩, rfl⟩
      | some node =>
          rw [hnode] at hiri
          exact Or.inr ⟨node, hnode, hiri⟩

theorem grows_resolve {config : NodeId} {s t : Session} {answer : Except Failure InstanceId}
    (h : outcome (env.resolve config) s = (answer, t)) : s.Grows t := by
  rcases resolve_cases h with ⟨_, hinner, -⟩ | ⟨hinner, -⟩ | ⟨_, hinner, -⟩
  all_goals exact grows_instantiateWithin env.depthLimit hinner

theorem grows_answer {request : Request} {s t : Session} {answer : Except Failure InstanceId}
    (h : outcome (env.answer request) s = (answer, t)) : s.Grows t := by
  rcases answer_cases h with ⟨-, -, rfl⟩ | ⟨config, -, hresolve⟩
  · exact Session.Grows.refl t
  · exact grows_resolve hresolve

theorem grows_serve (s : Session) (requests : List Request) :
    s.Grows (env.serve s requests).2 := by
  induction requests generalizing s with
  | nil => exact Session.Grows.refl s
  | cons request rest ih => exact (grows_answer rfl).trans (ih _)

theorem serve_induction (valid : Session -> Prop) (known : Session -> InstanceId -> Prop)
    (hstable : forall s s' id, s.Grows s' -> known s id -> known s' id)
    (hstep : forall s config answer t, valid s ->
      outcome (env.resolve config) s = (answer, t) ->
      valid t ∧ forall id, answer = .ok id -> known t id)
    {s : Session} (hs : valid s) (requests : List Request) :
    valid (env.serve s requests).2 ∧
      forall id, .ok id ∈ (env.serve s requests).1 -> known (env.serve s requests).2 id := by
  induction requests generalizing s with
  | nil => exact ⟨hs, fun id hid => absurd hid List.not_mem_nil⟩
  | cons request rest ih =>
      rcases hanswer : outcome (env.answer request) s with ⟨answer, t⟩
      have hrequest : valid t ∧ forall id, answer = .ok id -> known t id := by
        rcases answer_cases hanswer with ⟨-, ⟨e, rfl⟩, rfl⟩ | ⟨config, -, hresolve⟩
        · exact ⟨hs, fun id hid => nomatch hid⟩
        · exact hstep s config answer t hs hresolve
      rcases hrequest with ⟨ht, hknown⟩
      rcases ih ht with ⟨hvalid, hrest⟩
      simp only [serve, hanswer]
      refine ⟨hvalid, fun id hid => ?_⟩
      rcases List.mem_cons.mp hid with heq | hmem
      · exact hstable _ _ _ (grows_serve t rest) (hknown id heq.symm)
      · exact hrest id hmem

end Environment
end Wiring
