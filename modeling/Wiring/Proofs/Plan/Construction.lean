import Mathlib.Data.List.Perm.Subperm
import Mathlib.Logic.Relation
import Wiring.Plan.Construction
import Wiring.Proofs.Argument
import Wiring.Proofs.Lockstep

/-!
# Construction succeeds

A plan is constructed by every builder that does not fail itself if all that its
root needs exists and does not need itself, in particular if its references are
closed and acyclic.
-/

namespace Wiring

/-!
# Steps that succeed
-/

def Succeeds {ε σ α : Type} (x : ExceptT ε (StateM σ) α) : Prop :=
  forall s, exists a s', outcome x s = (.ok a, s')

namespace Succeeds

variable {ε σ α β : Type}

theorem pure (a : α) : Succeeds (Pure.pure a : ExceptT ε (StateM σ) α) :=
  fun s => ⟨a, s, rfl⟩

theorem bind {x : ExceptT ε (StateM σ) α} {k : α -> ExceptT ε (StateM σ) β} (h : Succeeds x)
    (hk : forall a, Succeeds (k a)) : Succeeds (x >>= k) := by
  intro s
  rcases h s with ⟨a, s', hx⟩
  rw [outcome_bind_ok hx]
  exact hk a s'

theorem modify (f : σ -> σ) : Succeeds (modify f : ExceptT ε (StateM σ) PUnit) :=
  fun s => ⟨⟨⟩, f s, rfl⟩

end Succeeds

namespace Plan

variable {σ ι : Type} {builder : Builder σ ι}

def NeverFails (builder : Builder σ ι) : Prop :=
  forall x arguments, Succeeds (builder x arguments)

theorem succeeds_buildInstance (h : NeverFails builder) (x : Instance)
    (arguments : List (Constructed ι)) : Succeeds (buildInstance builder x arguments) := by
  intro shop
  rcases h x arguments shop.world with ⟨object, world, hx⟩
  refine ⟨object, { shop with world := world }, ?_⟩
  have hrun : (builder x arguments).run shop.world = (.ok object, world) := hx
  unfold buildInstance
  rw [outcome_bind_ok (outcome_get shop)]
  simp only [hrun]
  rfl

/-!
# Arguments
-/

mutual

theorem succeeds_constructWith {onReference : InstanceId → Building σ ι ι} (a : Argument)
    (h : forall id, id ∈ a.references false -> Succeeds (onReference id)) :
    Succeeds (constructWith onReference a) := by
  cases a with
  | undefined | literal value | iri text | lazy inner =>
      rw [constructWith]
      exact Succeeds.pure _
  | reference id =>
      rw [constructWith]
      exact Succeeds.bind (h id (by simp [Argument.references])) fun _ => Succeeds.pure _
  | list items =>
      rw [constructWith]
      rw [Argument.references] at h
      exact Succeeds.bind (succeeds_constructAll items h) fun _ => Succeeds.pure _
  | map entries =>
      rw [constructWith]
      rw [Argument.references] at h
      exact Succeeds.bind (succeeds_constructEntries entries h) fun _ => Succeeds.pure _

theorem succeeds_constructAll {onReference : InstanceId → Building σ ι ι}
    (items : List Argument)
    (h : forall id, id ∈ Argument.itemReferences false items -> Succeeds (onReference id)) :
    Succeeds (constructAll onReference items) := by
  cases items with
  | nil =>
      rw [constructAll]
      exact Succeeds.pure _
  | cons a rest =>
      rw [constructAll]
      simp only [Argument.itemReferences, List.mem_append] at h
      refine Succeeds.bind (succeeds_constructWith a fun id hid => h id (Or.inl hid)) fun _ => ?_
      exact Succeeds.bind (succeeds_constructAll rest fun id hid => h id (Or.inr hid))
        fun _ => Succeeds.pure _

theorem succeeds_constructEntries {onReference : InstanceId → Building σ ι ι}
    (entries : List (String × Argument))
    (h : forall id, id ∈ Argument.entryReferences false entries -> Succeeds (onReference id)) :
    Succeeds (constructEntries onReference entries) := by
  cases entries with
  | nil =>
      rw [constructEntries]
      exact Succeeds.pure _
  | cons e rest =>
      rcases e with ⟨key, a⟩
      rw [constructEntries]
      simp only [Argument.entryReferences, List.mem_append] at h
      refine Succeeds.bind (succeeds_constructWith a fun id hid => h id (Or.inl hid)) fun _ => ?_
      exact Succeeds.bind (succeeds_constructEntries rest fun id hid => h id (Or.inr hid))
        fun _ => Succeeds.pure _

end

/-!
# Instances
-/

/-- An instance refers to another one, or to itself, outside lazy arguments. -/
def Mentions (p : Plan) (i j : InstanceId) : Prop :=
  exists x, p.get? i = some x ∧ exists a, a ∈ x.arguments ∧ j ∈ a.references false

def Closed (p : Plan) : Prop :=
  forall (i : InstanceId) (x : Instance), p.get? i = some x -> forall a, a ∈ x.arguments ->
    forall j, j ∈ a.references true -> j < p.instances.size

def Acyclic (p : Plan) : Prop :=
  forall i, ¬ Relation.TransGen p.Mentions i i

/-- All that an instance needs outside lazy arguments exists, and nothing of it needs itself. -/
def Constructible (p : Plan) (id : InstanceId) : Prop :=
  forall i, Relation.ReflTransGen p.Mentions id i ->
    i < p.instances.size ∧ ¬ Relation.TransGen p.Mentions i i

theorem Constructible.step {p : Plan} {i j : InstanceId} (h : p.Constructible i)
    (hstep : p.Mentions i j) : p.Constructible j :=
  fun k hk => h k (.head hstep hk)

structure Path (p : Plan) (path : List InstanceId) : Prop where
  nodup : path.Nodup
  lt_size {q : InstanceId} : q ∈ path -> q < p.instances.size

theorem Path.nil (p : Plan) : p.Path [] :=
  ⟨List.nodup_nil, fun hq => absurd hq List.not_mem_nil⟩

theorem Path.cons {p : Plan} {path : List InstanceId} {id : InstanceId} (h : p.Path path)
    (hfree : ¬ (id ∈ path ∨ p.instances.size ≤ id)) : p.Path (id :: path) where
  nodup := List.nodup_cons.mpr ⟨fun hmem => hfree (Or.inl hmem), h.nodup⟩
  lt_size hq := by
    rcases List.mem_cons.mp hq with rfl | hq
    · exact Nat.not_le.mp fun hle => hfree (Or.inr hle)
    · exact h.lt_size hq

theorem Path.length_le {p : Plan} {path : List InstanceId} (h : p.Path path) :
    path.length ≤ p.instances.size := by
  have hsubset : path ⊆ List.range p.instances.size := fun q hq =>
    List.mem_range.mpr (h.lt_size hq)
  have hle := (h.nodup.subperm hsubset).length_le
  rwa [List.length_range] at hle

theorem succeeds_constructInstance {p : Plan} (hbuilder : NeverFails builder) (room : Nat)
    (path : List InstanceId) (id : InstanceId) (hid : p.Constructible id) (hpath : p.Path path)
    (hneeded : forall q, q ∈ path -> Relation.TransGen p.Mentions q id)
    (hroom : p.instances.size < room + path.length) :
    Succeeds (constructInstance p builder room path id) := by
  induction room generalizing path id with
  | zero =>
      have hle := hpath.length_le
      omega
  | succ room ih =>
      rcases hid id .refl with ⟨hlt, hloop⟩
      have hfresh : id ∉ path := fun hmem => hloop (hneeded id hmem)
      have hget : p.get? id = some p.instances[id] := Array.getElem?_eq_getElem hlt
      have harguments : Succeeds (constructAll (constructInstance p builder room (id :: path))
          p.instances[id].arguments) := by
        refine succeeds_constructAll _ fun j hj => ?_
        rcases Argument.mem_itemReferences.mp hj with ⟨a, ha, hja⟩
        have hstep : p.Mentions id j := ⟨_, hget, a, ha, hja⟩
        refine ih (id :: path) j (hid.step hstep) (hpath.cons ?_) ?_ ?_
        · exact fun hblocked => hblocked.elim hfresh (Nat.not_le.mpr hlt)
        · intro q hq
          rcases List.mem_cons.mp hq with rfl | hq
          · exact .single hstep
          · exact (hneeded q hq).tail hstep
        · rw [List.length_cons]
          omega
      intro shop
      rw [constructInstance, outcome_bind_ok (outcome_get shop)]
      cases shop.built[id]? with
      | some object => exact ⟨object, shop, rfl⟩
      | none =>
          simp only [hget, List.contains_iff_mem, hfresh, if_false]
          refine Succeeds.bind harguments (fun arguments => ?_) shop
          refine Succeeds.bind (succeeds_buildInstance hbuilder _ arguments) fun object => ?_
          exact Succeeds.bind (Succeeds.modify _) fun _ => Succeeds.pure object

theorem outcome_startingFrom {α : Type} (x : Building σ ι α) (world : σ) :
    outcome (startingFrom x) world = Prod.map id Workshop.world (outcome x ⟨world, ∅⟩) :=
  rfl

theorem succeeds_of_constructible {p : Plan} (hroot : p.Constructible p.root)
    (hbuilder : NeverFails builder) : Succeeds (p.construct builder) := by
  have hinstance : Succeeds (constructInstance p builder (p.instances.size + 1) [] p.root) :=
    succeeds_constructInstance hbuilder _ [] p.root hroot (Path.nil p)
      (fun q hq => absurd hq List.not_mem_nil) (by simp)
  intro world
  rcases hinstance ⟨world, ∅⟩ with ⟨object, shop, hrun⟩
  refine ⟨object, shop.world, ?_⟩
  rw [construct, outcome_startingFrom, hrun]
  rfl

theorem constructible_of_acyclic {p : Plan} (hclosed : p.Closed) (hacyclic : p.Acyclic)
    {id : InstanceId} (hid : id < p.instances.size) : p.Constructible id := by
  intro i hi
  refine ⟨?_, hacyclic i⟩
  induction hi with
  | refl => exact hid
  | tail _ hstep _ =>
      rcases hstep with ⟨x, hx, a, ha, hj⟩
      exact hclosed _ x hx a ha _ (Argument.references_subset a hj)

theorem succeeds_construct {p : Plan} (hclosed : p.Closed) (hacyclic : p.Acyclic)
    (hroot : p.root < p.instances.size) (hbuilder : NeverFails builder) :
    Succeeds (p.construct builder) :=
  succeeds_of_constructible (constructible_of_acyclic hclosed hacyclic hroot) hbuilder

end Plan
end Wiring
