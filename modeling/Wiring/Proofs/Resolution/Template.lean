import Mathlib.Logic.Relation
import Wiring.Proofs.Resolution.Growth
import Wiring.Proofs.Resolution.Unfolding
import Wiring.Proofs.Table

/-!
# Templates

What a configuration asks for, and what becomes of the answers, does not depend
on the answers.  The template of a configuration has in place of every answer a
ticket, which tells what was asked for.
-/

namespace Wiring

namespace Environment

/-- A number for the request for a configuration, as a unique instance or as the shared one. -/
def ticket (config : NodeId) (unique : Bool) : InstanceId :=
  2 * config + unique.toNat

theorem ticket_div (config : NodeId) (unique : Bool) : ticket config unique / 2 = config := by
  have hdiv (n m : Nat) (h : m < 2) : (2 * n + m) / 2 = n := by omega
  exact hdiv config unique.toNat (Bool.toNat_lt unique)

theorem ticket_inj {c d : NodeId} {unique unique' : Bool} (h : ticket c unique = ticket d unique') :
    c = d ∧ unique = unique' := by
  have hnode : c = d := by
    rw [← ticket_div c unique, h, ticket_div]
  subst hnode
  cases unique <;> cases unique' <;> simp [ticket] at h ⊢

/-- Answers every request with its ticket, which is also put on record. -/
def oracle : Strategy := fun _ _ config unique _ => do
  modify fun s => s.share (ticket config unique) (ticket config unique)
  return some (ticket config unique)

theorem outcome_oracle (arguments : List NodeId → NodeId → Component → Resolving (List Argument))
    (active : List NodeId) (config : NodeId) (unique lazy : Bool) (s : Session) :
    outcome (oracle arguments active config unique lazy) s =
      (.ok (some (ticket config unique)),
        s.share (ticket config unique) (ticket config unique)) := rfl

def Asked (s : Session) (config : NodeId) (unique : Bool) : Prop :=
  s.shared[ticket config unique]? ≠ none

theorem asked_share {s : Session} {c d : NodeId} {unique unique' : Bool} :
    Asked (s.share (ticket c unique) (ticket c unique)) d unique' <->
      (d = c ∧ unique' = unique) ∨ Asked s d unique' := by
  unfold Asked
  have hinsert : (s.share (ticket c unique) (ticket c unique)).shared =
      s.shared.insert (ticket c unique) (ticket c unique) := rfl
  rw [hinsert, Table.getElem?_insert]
  by_cases hsame : ticket d unique' = ticket c unique
  · rcases ticket_inj hsame with ⟨rfl, rfl⟩
    simp
  · have hne : ¬ (d = c ∧ unique' = unique) := by
      rintro ⟨rfl, rfl⟩
      exact hsame rfl
    simp [hsame, hne]

def template (env : Environment) (config : NodeId) (component : Component) :
    Except Failure (List Argument) × Session :=
  outcome (env.argumentsBy oracle env.depthLimit [] config component) Session.empty

def templateInstance (env : Environment) (config : NodeId) : Option Plan.Instance :=
  match Component.forConfig env.graph config with
  | .error _ => none
  | .ok component =>
    match (env.template config component).1 with
    | .error _ => none
    | .ok resolved => some ⟨env.graph.display config, component.id, resolved⟩

def book (env : Environment) (id : InstanceId) : Option Plan.Instance :=
  env.templateInstance (id / 2)

def Asks (env : Environment) (c d : NodeId) (unique : Bool) : Prop :=
  exists component, Component.forConfig env.graph c = .ok component ∧
    Asked (env.template c component).2 d unique

def Reaches (env : Environment) : NodeId → NodeId → Prop :=
  Relation.ReflTransGen fun c d => exists unique, env.Asks c d unique

/-- A configuration cannot be resolved without the shared instance of another one. -/
def Requires (env : Environment) (c d : NodeId) : Prop :=
  exists m, env.Reaches c m ∧ env.Asks m d false

/-- All that a configuration leads to has a template, and none of it leads back. -/
inductive Grounded (env : Environment) : NodeId → Prop where
  | intro {c : NodeId} (hasTemplate : env.templateInstance c ≠ none)
      (asked : ∀ d unique, env.Asks c d unique → Grounded env d) : Grounded env c

variable {env : Environment} {c d : NodeId} {unique : Bool}

theorem Requires.of_asks (h : env.Asks c d unique) {m : NodeId} (hm : env.Requires d m) :
    env.Requires c m := by
  rcases hm with ⟨n, hreaches, hasks⟩
  exact ⟨n, Relation.ReflTransGen.head ⟨unique, h⟩ hreaches, hasks⟩

theorem Requires.cases (h : env.Requires c d) :
    env.Asks c d false ∨ exists m unique, env.Asks c m unique ∧ env.Requires m d := by
  rcases h with ⟨n, hreaches, hasks⟩
  rcases Relation.ReflTransGen.cases_head hreaches with rfl | ⟨m, ⟨unique, hm⟩, hrest⟩
  · exact Or.inl hasks
  · exact Or.inr ⟨m, unique, hm, n, hrest, hasks⟩

theorem Grounded.of_reaches (h : env.Grounded c) (hreaches : env.Reaches c d) :
    env.Grounded d := by
  induction hreaches with
  | refl => exact h
  | tail _ hstep ih =>
      rcases hstep with ⟨unique, hasks⟩
      cases ih with
      | intro _ asked => exact asked _ _ hasks

theorem Grounded.no_return (h : env.Grounded c) (hasks : env.Asks c d unique) :
    ¬ env.Reaches d c := by
  induction h generalizing d unique with
  | @intro c _ _ ih =>
      intro hback
      rcases Relation.ReflTransGen.cases_head hback with rfl | ⟨m, ⟨unique', hm⟩, hrest⟩
      · exact ih d unique hasks hasks .refl
      · exact ih d unique hasks hm (hrest.tail ⟨unique, hasks⟩)

/-!
# The tree of a template
-/

def ticketing : Habit where
  valid _ := True
  later s s' := Continues s.notes s'.notes ∧
    forall config unique, Asked s config unique -> Asked s' config unique
  falls _ _ := True
  answers s config unique _ i := i = some (ticket config unique) ∧ Asked s config unique
  refl _ := ⟨Continues.refl _, fun _ _ h => h⟩
  trans h h' := ⟨h.1.trans h'.1, fun _ _ hs => h'.2 _ _ (h.2 _ _ hs)⟩
  falls_refl _ := trivial
  falls_trans _ _ := trivial
  noted _ hn := ⟨trivial, hn, fun _ _ h => h⟩
  notes h := h.1
  stable h h' := ⟨h'.1, h.2 _ _ h'.2⟩

theorem oracle_follows (env : Environment) :
    Habit.StrategyFollows env oracle (fun _ : Unit => ticketing) fun _ => [] := by
  intro levels _ k s config unique lazy
  constructor
  · intro i t _ hrun
    rw [outcome_oracle] at hrun
    cases hrun
    exact ⟨trivial, ⟨Continues.refl _, fun _ _ hs => asked_share.mpr (Or.inr hs)⟩, rfl,
      asked_share.mpr (Or.inl ⟨rfl, rfl⟩)⟩
  · intro e t _ hrun
    rw [outcome_oracle] at hrun
    cases hrun

theorem templateInstance_eq {component : Component} {resolved : List Argument} {t : Session}
    (hcomponent : Component.forConfig env.graph c = .ok component)
    (hrun : env.template c component = (.ok resolved, t)) :
    env.templateInstance c = some ⟨env.graph.display c, component.id, resolved⟩ := by
  rw [templateInstance, hcomponent]
  dsimp only
  rw [hrun]

theorem exists_of_templateInstance (h : env.templateInstance c ≠ none) :
    exists component resolved t, Component.forConfig env.graph c = .ok component ∧
      env.template c component = (.ok resolved, t) := by
  rw [templateInstance] at h
  cases hcomponent : Component.forConfig env.graph c with
  | error e =>
      rw [hcomponent] at h
      exact absurd rfl h
  | ok component =>
      rw [hcomponent] at h
      dsimp only at h
      rcases hrun : env.template c component with ⟨e | resolved, t⟩
      · rw [hrun] at h
        exact absurd rfl h
      · exact ⟨component, resolved, t, rfl, hrun⟩

theorem book_ticket (c : NodeId) (unique : Bool) :
    env.book (ticket c unique) = env.templateInstance c := by
  rw [book, ticket_div]

theorem Grounded.exists_tree (h : env.Grounded c) (unique : Bool) :
    exists t, Unfolds env.book (.reference (ticket c unique)) t := by
  induction h generalizing unique with
  | @intro c hasTemplate asked ih =>
      rcases exists_of_templateInstance hasTemplate with
        ⟨component, resolved, t, hcomponent, hrun⟩
      have hknows := ((Habit.follows_argumentsBy (oracle_follows env) env.depthLimit () _ c
        component).ok trivial hrun).2.2
      have htrees (i : Nat) (hi : i < resolved.length) :
          exists t, Unfolds env.book resolved[i] t := by
        apply Unfolds.exists_of_fits (hknows _ (List.getElem_mem hi))
        rintro d unique' lazy i _ ⟨rfl, rfl, hasked⟩
        exact ih d unique' ⟨component, hcomponent, by rw [hrun]; exact hasked⟩ unique'
      rcases exists_pointwise (Unfolds env.book) htrees with ⟨ts, hlength, hts⟩
      have hbook : env.book (ticket c unique) =
          some ⟨env.graph.display c, component.id, resolved⟩ := by
        rw [book_ticket, templateInstance_eq hcomponent hrun]
      exact ⟨_, .reference hbook hlength hts⟩

end Environment
end Wiring
