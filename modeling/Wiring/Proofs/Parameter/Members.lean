import Wiring.Proofs.Parameter.Substitution

/-!
# The values of a parameter

Which values a parameter has, said without the stages: those that are given, or
else those of the scoped defaults that count, or else the defaults, and always the
fixed ones.  The first three stages gather exactly these.
-/

namespace Wiring

open Vocabulary

namespace Stage

variable {site : Site} {b : Workbench}

def inScope (site : Site) (entry : NodeId) : Bool :=
  (site.graph.objects entry Oo.defaultScope).any fun scope =>
    (site.graph.iri? scope).any fun name => site.graph.isA site.root name

def defect? (g : Graph) (entry : NodeId) : Option String :=
  if (g.objects entry Oo.defaultScope).isEmpty then
    some "Invalid defaultScoped value: missing defaultScope"
  else if (g.objects entry Oo.defaultScopedValue).isEmpty then
    some "Invalid defaultScoped value: missing defaultScopedValue"
  else none

def scopedNodes (site : Site) : List NodeId :=
  (site.parameter.scopedDefaults.filter (inScope site)).flatMap fun entry =>
    site.graph.objects entry Oo.defaultScopedValue

def base (site : Site) (vs : List Occurrence) : List Occurrence :=
  if vs ≠ [] then vs
  else if scopedNodes site ≠ [] then (scopedNodes site).map .ofNode
  else site.parameter.defaults.map .ofNode

def members (site : Site) (vs : List Occurrence) : List Occurrence :=
  base site vs ++ site.parameter.fixed.map .ofNode

/-- What is left of the values of a parameter: only the first one, if they have to be unique. -/
def kept (p : Parameter) (vs : List Occurrence) : List Occurrence :=
  if p.unique = true then vs.take 1 else vs

def firstDefect? (site : Site) (vs : List Occurrence) : Option String :=
  if vs ≠ [] then none else site.parameter.scopedDefaults.findSome? (defect? site.graph)

theorem scopedValues_eq (entry : NodeId) :
    scopedValues site entry =
      match defect? site.graph entry with
      | some message => .error (.definition site.parameter.id message)
      | none =>
        .ok (if inScope site entry then site.graph.objects entry Oo.defaultScopedValue else []) := by
  have hscope : ((site.graph.objects entry Oo.defaultScope).filterMap site.graph.iri?).any
      (site.graph.isA site.root) = inScope site entry := by
    rw [List.any_filterMap]
    rfl
  unfold scopedValues defect?
  dsimp only
  rw [hscope]
  split
  · rfl
  split
  · rfl
  split <;> rfl

theorem mapM_scopedValues (entries : List NodeId) :
    entries.mapM (scopedValues site) =
      match entries.findSome? (defect? site.graph) with
      | some message => .error (.definition site.parameter.id message)
      | none => .ok (entries.map fun entry =>
          if inScope site entry then site.graph.objects entry Oo.defaultScopedValue else []) := by
  induction entries with
  | nil => rfl
  | cons entry rest ih =>
      rw [List.mapM_cons, scopedValues_eq, List.findSome?_cons, ih]
      cases defect? site.graph entry with
      | some message => rfl
      | none => cases rest.findSome? (defect? site.graph) <;> rfl

theorem flatten_scopedValues (entries : List NodeId) :
    (entries.map fun entry =>
      if inScope site entry then site.graph.objects entry Oo.defaultScopedValue else []).flatten =
      (entries.filter (inScope site)).flatMap fun entry =>
        site.graph.objects entry Oo.defaultScopedValue := by
  induction entries with
  | nil => rfl
  | cons entry rest ih =>
      rw [List.map_cons, List.flatten_cons, ih, List.filter_cons]
      split <;> rfl

theorem configured_nil :
    configured site [] =
      match site.parameter.scopedDefaults.findSome? (defect? site.graph) with
      | some message => .error (.definition site.parameter.id message)
      | none => .ok (scopedNodes site) := by
  rw [configured, if_pos List.isEmpty_nil, mapM_scopedValues]
  cases site.parameter.scopedDefaults.findSome? (defect? site.graph) with
  | some message => rfl
  | none => exact congrArg Except.ok (flatten_scopedValues _)

theorem outcome_gather_members (vs : List Occurrence) :
    outcome ([scopedDefaults, defaults, fixed].foldlM (step site) vs) b =
      match firstDefect? site vs with
      | some message => (.error (.definition site.parameter.id message), b)
      | none => (.ok (members site vs), b) := by
  cases vs with
  | nil =>
      have hgather := @outcome_gather site b []
      rw [List.map_nil] at hgather
      rw [hgather, gathered, configured_nil, firstDefect?, if_neg (not_not_intro rfl)]
      cases site.parameter.scopedDefaults.findSome? (defect? site.graph) with
      | some message => rfl
      | none =>
          unfold members base
          cases hscoped : scopedNodes site <;> simp [Except.map]
  | cons v rest =>
      have hskipped : outcome (step site (v :: rest) scopedDefaults) b = (.ok (v :: rest), b) ∧
          outcome (step site (v :: rest) defaults) b = (.ok (v :: rest), b) := ⟨rfl, rfl⟩
      rw [List.foldlM_cons, outcome_bind_ok hskipped.1, List.foldlM_cons,
        outcome_bind_ok hskipped.2, List.foldlM_cons]
      unfold step applies members base
      cases hfixed : site.parameter.fixed <;> simp [firstDefect?, hfixed, apply]

end Stage
end Wiring
