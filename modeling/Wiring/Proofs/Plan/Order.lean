import Wiring.Plan.Tree
import Wiring.Proofs.Plan.Construction
import Wiring.Proofs.Table

/-!
# The order of construction

Construction makes the instances that the root needs one after the other, each
when all that it needs outside lazy arguments is made.  So it succeeds exactly if
they exist and none of them needs itself, and the builder is called once for each.
-/

namespace Wiring

/-!
# Arguments with their instances
-/

namespace Argument

variable {ι : Type}

mutual

/-- An argument with objects in place of its references. What a lazy argument holds stays as it
is. -/
def fill (objects : InstanceId → ι) : Argument → Constructed ι
  | .undefined => .undefined
  | .literal value => .literal value
  | .iri text => .iri text
  | .reference id => .built (objects id)
  | .lazy inner => .lazy inner
  | .list items => .list (fillAll objects items)
  | .map entries => .map (fillEntries objects entries)

def fillAll (objects : InstanceId → ι) : List Argument → List (Constructed ι)
  | [] => []
  | a :: rest => fill objects a :: fillAll objects rest

def fillEntries (objects : InstanceId → ι) :
    List (String × Argument) → List (String × Constructed ι)
  | [] => []
  | (key, a) :: rest => (key, fill objects a) :: fillEntries objects rest

end

end Argument

namespace Plan

open Argument (fill fillAll fillEntries)

variable {σ ι : Type}

/-!
# Calls of the builder
-/

/-- A call of the builder: the instance that it was asked for, and what it made of which arguments. -/
structure Call (ι : Type) where
  id : InstanceId
  plan : Instance
  arguments : List (Constructed ι)
  object : ι

/-- A call asks for an instance of the plan, with arguments that have the structure of those in the
plan and hold the given objects. -/
structure Call.Follows (p : Plan) (objects : InstanceId → ι) (c : Call ι) : Prop where
  plan : p.get? c.id = some c.plan
  arguments : c.arguments = fillAll objects c.plan.arguments
  object : c.object = objects c.id

inductive Performs (builder : Builder σ ι) : σ → List (Call ι) → σ → Prop where
  | nil (world : σ) : Performs builder world [] world
  | cons {world world' world'' : σ} {c : Call ι} {calls : List (Call ι)}
      (call : outcome (builder c.plan c.arguments) world = (.ok c.object, world'))
      (rest : Performs builder world' calls world'') :
      Performs builder world (c :: calls) world''

/-!
# Steps of a construction
-/

def Serves (objects : InstanceId → ι) (built : Std.TreeMap InstanceId ι) : Prop :=
  forall j object, built[j]? = some object -> objects j = object

structure Makes (p : Plan) (builder : Builder σ ι) (s : Workshop σ ι) (c : Call ι)
    (s' : Workshop σ ι) : Prop where
  fresh : s.built[c.id]? = none
  plan : p.get? c.id = some c.plan
  needs : forall j, p.Mentions c.id j -> s.built[j]? ≠ none
  arguments : forall objects, Serves objects s.built ->
    fillAll objects c.plan.arguments = c.arguments
  call : outcome (builder c.plan c.arguments) s.world = (.ok c.object, s'.world)
  built : s'.built = s.built.insert c.id c.object

inductive Builds (p : Plan) (builder : Builder σ ι) :
    Workshop σ ι → List (Call ι) → Workshop σ ι → Prop where
  | done (s : Workshop σ ι) : Builds p builder s [] s
  | next {s s' s'' : Workshop σ ι} {c : Call ι} {calls : List (Call ι)}
      (make : Makes p builder s c s') (rest : Builds p builder s' calls s'') :
      Builds p builder s (c :: calls) s''

variable {p : Plan} {builder : Builder σ ι} {s s' s'' : Workshop σ ι}

theorem Makes.getElem? {c : Call ι} (h : Makes p builder s c s') (i : InstanceId) :
    s'.built[i]? = if i = c.id then some c.object else s.built[i]? := by
  rw [h.built, Table.getElem?_insert]

theorem Makes.kept {c : Call ι} (h : Makes p builder s c s') {i : InstanceId} {object : ι}
    (hi : s.built[i]? = some object) : s'.built[i]? = some object := by
  rw [h.getElem?, if_neg]
  · exact hi
  · rintro rfl
    rw [h.fresh] at hi
    cases hi

namespace Builds

variable {calls calls' : List (Call ι)}

theorem append (h : Builds p builder s calls s') (h' : Builds p builder s' calls' s'') :
    Builds p builder s (calls ++ calls') s'' := by
  induction h with
  | done => exact h'
  | next make _ ih => exact .next make (ih h')

theorem kept (h : Builds p builder s calls s') {i : InstanceId} {object : ι}
    (hi : s.built[i]? = some object) : s'.built[i]? = some object := by
  induction h with
  | done => exact hi
  | next make _ ih => exact ih (make.kept hi)

theorem serves (h : Builds p builder s calls s') {objects : InstanceId → ι}
    (hobjects : Serves objects s'.built) : Serves objects s.built :=
  fun j _ hj => hobjects j _ (h.kept hj)

theorem built_iff (h : Builds p builder s calls s') (i : InstanceId) :
    s'.built[i]? ≠ none <-> s.built[i]? ≠ none ∨ i ∈ calls.map Call.id := by
  induction h with
  | done => simp
  | @next s s' _ c calls make _ ih =>
      rw [ih, make.getElem?, List.map_cons, List.mem_cons]
      by_cases hi : i = c.id
      · simp [hi]
      · simp [hi]

theorem fresh (h : Builds p builder s calls s') {i : InstanceId} (hi : i ∈ calls.map Call.id) :
    s.built[i]? = none := by
  induction h with
  | done => cases hi
  | @next s s' _ c calls make _ ih =>
      rw [List.map_cons, List.mem_cons] at hi
      rcases hi with rfl | hi
      · exact make.fresh
      · have hnone := ih hi
        rw [make.getElem?] at hnone
        split at hnone
        · cases hnone
        · exact hnone

theorem nodup (h : Builds p builder s calls s') : (calls.map Call.id).Nodup := by
  induction h with
  | done => exact List.nodup_nil
  | @next s s' _ c calls make rest ih =>
      refine List.nodup_cons.mpr ⟨fun hmem => ?_, ih⟩
      have hnone := rest.fresh hmem
      rw [make.getElem?, if_pos rfl] at hnone
      cases hnone

theorem needs_before (h : Builds p builder s calls s') {before after : List (Call ι)}
    {c : Call ι} (hcalls : calls = before ++ c :: after) {j : InstanceId}
    (hj : p.Mentions c.id j) : s.built[j]? ≠ none ∨ j ∈ before.map Call.id := by
  induction h generalizing before with
  | done => simp at hcalls
  | @next s s' _ d calls make _ ih =>
      cases before with
      | nil =>
          cases hcalls
          exact Or.inl (make.needs j hj)
      | cons d' before =>
          cases hcalls
          have hbuilt := ih rfl
          rw [make.getElem?] at hbuilt
          rw [List.map_cons, List.mem_cons]
          by_cases hid : j = d.id
          · exact Or.inr (Or.inl hid)
          · rw [if_neg hid] at hbuilt
            exact hbuilt.imp_right Or.inr

theorem plan (h : Builds p builder s calls s') {c : Call ι} (hc : c ∈ calls) :
    p.get? c.id = some c.plan := by
  induction h with
  | done => cases hc
  | next make _ ih => exact (List.mem_cons.mp hc).elim (fun heq => heq ▸ make.plan) ih

theorem performs (h : Builds p builder s calls s') : Performs builder s.world calls s'.world := by
  induction h with
  | done => exact .nil _
  | next make _ ih => exact .cons make.call ih

theorem follows (h : Builds p builder s calls s') {objects : InstanceId → ι}
    (hobjects : Serves objects s'.built) {c : Call ι} (hc : c ∈ calls) :
    c.Follows p objects := by
  induction h with
  | done => cases hc
  | @next s s' _ d calls make rest ih =>
      rcases List.mem_cons.mp hc with rfl | hc
      · have hserves := rest.serves hobjects
        refine ⟨make.plan, (make.arguments objects fun j object hj => ?_).symm, ?_⟩
        · exact hserves j object (make.kept hj)
        · refine (hserves c.id c.object ?_).symm
          rw [make.getElem?, if_pos rfl]
      · exact ih hobjects hc

end Builds

/-!
# Constructing is building in order
-/

def Constructs (p : Plan) (builder : Builder σ ι) (allowed : InstanceId → Prop)
    (s : Workshop σ ι) {α : Type} (x : Building σ ι α) (ends : Workshop σ ι → α → Prop) : Prop :=
  forall a s', outcome x s = (.ok a, s') -> exists calls, Builds p builder s calls s' ∧
    (forall i, i ∈ calls.map Call.id -> allowed i) ∧ ends s' a

namespace Constructs

variable {allowed : InstanceId → Prop} {α β : Type} {x : Building σ ι α}
  {ends : Workshop σ ι → α → Prop}

theorem pure {a : α} (h : ends s a) : Constructs p builder allowed s (Pure.pure a) ends := by
  intro a' s' hx
  cases hx
  exact ⟨[], .done _, fun i hi => absurd hi List.not_mem_nil, h⟩

theorem bind {k : α → Building σ ι β} {ends' : Workshop σ ι → β → Prop}
    (h : Constructs p builder allowed s x ends)
    (hk : forall calls s' a, Builds p builder s calls s' -> ends s' a ->
      Constructs p builder allowed s' (k a) ends') :
    Constructs p builder allowed s (x >>= k) ends' := by
  intro b s' hx
  rcases outcome_bind_eq_ok hx with ⟨a, s₁, ha, hb⟩
  rcases h a s₁ ha with ⟨calls, hbuilds, hallowed, hends⟩
  rcases hk calls s₁ a hbuilds hends b s' hb with ⟨calls', hbuilds', hallowed', hends'⟩
  refine ⟨calls ++ calls', hbuilds.append hbuilds', fun i hi => ?_, hends'⟩
  rw [List.map_append, List.mem_append] at hi
  exact hi.elim (hallowed i) (hallowed' i)

end Constructs

structure Filled (s : Workshop σ ι) (references : List InstanceId) {α : Type}
    (filled : (InstanceId → ι) → α) (a : α) : Prop where
  built : forall j, j ∈ references -> s.built[j]? ≠ none
  eq : forall objects, Serves objects s.built -> filled objects = a

section Arguments

variable {α β : Type} {references : List InstanceId} {filled : (InstanceId → ι) → α} {a : α}

theorem Filled.later {calls : List (Call ι)} (h : Filled s references filled a)
    (hbuilds : Builds p builder s calls s') : Filled s' references filled a where
  built j hj := (hbuilds.built_iff j).mpr (Or.inl (h.built j hj))
  eq objects hobjects := h.eq objects (hbuilds.serves hobjects)

theorem Filled.none (s : Workshop σ ι) (a : α) : Filled s [] (fun _ => a) a :=
  ⟨fun _ hj => absurd hj List.not_mem_nil, fun _ _ => rfl⟩

theorem Filled.map (h : Filled s references filled a) (f : α → β) :
    Filled s references (fun objects => f (filled objects)) (f a) :=
  ⟨h.built, fun objects hobjects => congrArg f (h.eq objects hobjects)⟩

theorem Filled.append {γ : Type} {references' : List InstanceId} {filled' : (InstanceId → ι) → β}
    {b : β} (h : Filled s references filled a) (h' : Filled s references' filled' b)
    (f : α → β → γ) :
    Filled s (references ++ references') (fun objects => f (filled objects) (filled' objects))
      (f a b) where
  built j hj := (List.mem_append.mp hj).elim (h.built j) (h'.built j)
  eq objects hobjects := by rw [h.eq objects hobjects, h'.eq objects hobjects]

variable {allowed : InstanceId → Prop} {onReference : InstanceId → Building σ ι ι}

def ConstructsReference (p : Plan) (builder : Builder σ ι) (allowed : InstanceId → Prop)
    (onReference : InstanceId → Building σ ι ι) (id : InstanceId) : Prop :=
  forall s, Constructs p builder allowed s (onReference id) fun s' object =>
    s'.built[id]? = some object

mutual

theorem constructs_constructWith (s : Workshop σ ι) (a : Argument)
    (h : forall id, id ∈ a.references false ->
      ConstructsReference p builder allowed onReference id) :
    Constructs p builder allowed s (constructWith onReference a) fun s' c =>
      Filled s' (a.references false) (a.fill ·) c := by
  cases a with
  | undefined | literal value | iri text | lazy inner =>
      rw [constructWith]
      exact Constructs.pure (Filled.none s _)
  | reference id =>
      rw [constructWith]
      refine Constructs.bind (h id (by simp [Argument.references]) s) ?_
      intro calls s' object _ hbuilt
      refine Constructs.pure ⟨fun j hj => ?_, fun objects hobjects => ?_⟩
      · rw [Argument.references, List.mem_singleton] at hj
        rw [hj, hbuilt]
        exact Option.some_ne_none _
      · rw [fill, hobjects id object hbuilt]
  | list items =>
      rw [constructWith]
      rw [Argument.references] at h
      refine Constructs.bind (constructs_constructAll _ items h) ?_
      intro calls s' cs _ hcs
      exact Constructs.pure (hcs.map Constructed.list)
  | map entries =>
      rw [constructWith]
      rw [Argument.references] at h
      refine Constructs.bind (constructs_constructEntries _ entries h) ?_
      intro calls s' cs _ hcs
      exact Constructs.pure (hcs.map Constructed.map)

theorem constructs_constructAll (s : Workshop σ ι) (items : List Argument)
    (h : forall id, id ∈ Argument.itemReferences false items ->
      ConstructsReference p builder allowed onReference id) :
    Constructs p builder allowed s (constructAll onReference items) fun s' cs =>
      Filled s' (Argument.itemReferences false items) (fillAll · items) cs := by
  cases items with
  | nil =>
      rw [constructAll]
      exact Constructs.pure (Filled.none s _)
  | cons a rest =>
      rw [constructAll]
      simp only [Argument.itemReferences, List.mem_append] at h
      refine Constructs.bind (constructs_constructWith _ a fun id hid => h id (Or.inl hid)) ?_
      intro _ s' c _ hc
      refine Constructs.bind (constructs_constructAll _ rest fun id hid => h id (Or.inr hid)) ?_
      intro _ s'' cs hbuilds hcs
      exact Constructs.pure ((hc.later hbuilds).append hcs List.cons)

theorem constructs_constructEntries (s : Workshop σ ι) (entries : List (String × Argument))
    (h : forall id, id ∈ Argument.entryReferences false entries ->
      ConstructsReference p builder allowed onReference id) :
    Constructs p builder allowed s (constructEntries onReference entries) fun s' cs =>
      Filled s' (Argument.entryReferences false entries) (fillEntries · entries) cs := by
  cases entries with
  | nil =>
      rw [constructEntries]
      exact Constructs.pure (Filled.none s _)
  | cons e rest =>
      rcases e with ⟨key, a⟩
      rw [constructEntries]
      simp only [Argument.entryReferences, List.mem_append] at h
      refine Constructs.bind (constructs_constructWith _ a fun id hid => h id (Or.inl hid)) ?_
      intro _ s' c _ hc
      refine Constructs.bind (constructs_constructEntries _ rest fun id hid => h id (Or.inr hid)) ?_
      intro _ s'' cs hbuilds hcs
      exact Constructs.pure ((hc.later hbuilds).append hcs fun c cs => (key, c) :: cs)

end

end Arguments

/-!
# Instances
-/

theorem buildInstance_eq_ok {x : Instance} {arguments : List (Constructed ι)} {object : ι}
    (h : outcome (buildInstance builder x arguments) s = (.ok object, s')) :
    outcome (builder x arguments) s.world = (.ok object, s'.world) ∧ s'.built = s.built := by
  unfold buildInstance at h
  rw [outcome_bind_ok (outcome_get s)] at h
  rcases hrun : outcome (builder x arguments) s.world with ⟨e | made, world⟩
  · have hrun' : (builder x arguments).run s.world = (.error e, world) := hrun
    simp only [hrun'] at h
    cases h
  · have hrun' : (builder x arguments).run s.world = (.ok made, world) := hrun
    simp only [hrun'] at h
    cases h
    exact ⟨rfl, rfl⟩

theorem constructInstance_eq_ok {room : Nat} {path : List InstanceId} {id : InstanceId}
    {object : ι} (h : outcome (constructInstance p builder room path id) s = (.ok object, s')) :
    (s.built[id]? = some object ∧ s' = s) ∨
      exists x room' arguments s₁ s₂, room = room' + 1 ∧ s.built[id]? = none ∧
        p.get? id = some x ∧ id ∉ path ∧
        outcome (constructAll (constructInstance p builder room' (id :: path)) x.arguments) s =
          (.ok arguments, s₁) ∧
        outcome (buildInstance builder x arguments) s₁ = (.ok object, s₂) ∧
        s' = { s₂ with built := s₂.built.insert id object } := by
  rw [constructInstance, outcome_bind_ok (outcome_get s)] at h
  cases hbuilt : s.built[id]? with
  | some made =>
      rw [hbuilt] at h
      cases h
      exact Or.inl ⟨rfl, rfl⟩
  | none =>
      rw [hbuilt] at h
      cases hx : p.get? id with
      | none =>
          rw [hx] at h
          cases h
      | some x =>
          rw [hx] at h
          cases room with
          | zero => cases h
          | succ room =>
              dsimp only at h
              by_cases hpath : path.contains id = true
              · rw [if_pos hpath] at h
                cases h
              · rw [if_neg hpath] at h
                rcases outcome_bind_eq_ok h with ⟨arguments, s₁, harguments, h⟩
                rcases outcome_bind_eq_ok h with ⟨made, s₂, hmade, h⟩
                cases h
                rw [List.contains_iff_mem] at hpath
                exact Or.inr ⟨x, room, arguments, s₁, s₂, rfl, rfl, rfl, hpath, harguments,
                  hmade, rfl⟩

theorem Builds.make {calls : List (Call ι)} {c : Call ι} {s₂ : Workshop σ ι}
    (h : Builds p builder s calls s') (hplan : p.get? c.id = some c.plan)
    (hfresh : s.built[c.id]? = none) (hcalls : c.id ∉ calls.map Call.id)
    (hfilled : Filled s' (Argument.itemReferences false c.plan.arguments)
      (fillAll · c.plan.arguments) c.arguments)
    (hmade : outcome (buildInstance builder c.plan c.arguments) s' = (.ok c.object, s₂)) :
    Builds p builder s (calls ++ [c]) { s₂ with built := s₂.built.insert c.id c.object } := by
  rcases buildInstance_eq_ok hmade with ⟨hcall, hsame⟩
  refine h.append (.next ?_ (.done { s₂ with built := s₂.built.insert c.id c.object }))
  refine ⟨?_, hplan, fun j hj => ?_, hfilled.eq, hcall, ?_⟩
  · by_contra hne
    exact ((h.built_iff c.id).mp hne).elim (fun hold => hold hfresh) hcalls
  · rcases hj with ⟨y, hy, a, ha, hja⟩
    rw [hplan] at hy
    cases hy
    exact hfilled.built j (Argument.mem_itemReferences.mpr ⟨a, ha, hja⟩)
  · rw [hsame]

theorem constructs_constructInstance (p : Plan) (builder : Builder σ ι) (room : Nat)
    (path : List InstanceId) (id : InstanceId) :
    ConstructsReference p builder
      (fun i => i ∉ path ∧ Relation.ReflTransGen p.Mentions id i)
      (constructInstance p builder room path) id := by
  induction room generalizing path id with
  | zero =>
      intro s object s' h
      rcases constructInstance_eq_ok h with ⟨hbuilt, rfl⟩ | ⟨_, _, _, _, _, hroom, -⟩
      · exact ⟨[], .done _, fun i hi => absurd hi List.not_mem_nil, hbuilt⟩
      · cases hroom
  | succ room ih =>
      intro s object s' h
      rcases constructInstance_eq_ok h with ⟨hbuilt, rfl⟩ |
        ⟨x, room', arguments, s₁, s₂, hroom, hfresh, hx, hpath, harguments, hmade, rfl⟩
      · exact ⟨[], .done _, fun i hi => absurd hi List.not_mem_nil, hbuilt⟩
      · cases hroom
        have hreference (j : InstanceId) (hj : j ∈ Argument.itemReferences false x.arguments) :
            ConstructsReference p builder
              (fun i => i ∉ id :: path ∧ Relation.ReflTransGen p.Mentions id i)
              (constructInstance p builder room (id :: path)) j := by
          rcases Argument.mem_itemReferences.mp hj with ⟨a, ha, hja⟩
          have hstep : p.Mentions id j := ⟨x, hx, a, ha, hja⟩
          intro t made t' hrun
          rcases ih (id :: path) j t made t' hrun with ⟨calls, hbuilds, hallowed, hbuilt⟩
          exact ⟨calls, hbuilds,
            fun i hi => ⟨(hallowed i hi).1, .head hstep (hallowed i hi).2⟩, hbuilt⟩
        rcases constructs_constructAll s x.arguments hreference arguments s₁ harguments with
          ⟨calls, hbuilds, hallowed, hfilled⟩
        have hcalls : id ∉ calls.map Call.id := fun hmem =>
          (hallowed id hmem).1 List.mem_cons_self
        have hmake : Builds p builder s (calls ++ [⟨id, x, arguments, object⟩])
            { s₂ with built := s₂.built.insert id object } :=
          Builds.make (c := ⟨id, x, arguments, object⟩) hbuilds hx hfresh hcalls hfilled hmade
        refine ⟨_, hmake, fun i hi => ?_, ?_⟩
        · rw [List.map_append, List.map_singleton, List.mem_append, List.mem_singleton] at hi
          rcases hi with hi | rfl
          · rcases hallowed i hi with ⟨hfree, hneeds⟩
            exact ⟨fun hmem => hfree (List.mem_cons_of_mem _ hmem), hneeds⟩
          · exact ⟨hpath, .refl⟩
        · show (s₂.built.insert id object)[id]? = some object
          rw [Table.getElem?_insert, if_pos rfl]

/-!
# Room
-/

theorem constructInstance_blocked {path : List InstanceId} {id : InstanceId}
    (h : id ∈ path ∨ p.instances.size ≤ id) (room : Nat) :
    constructInstance p builder room path id = constructInstance p builder 0 path id := by
  cases room with
  | zero => rfl
  | succ room =>
      unfold constructInstance
      congr 1
      funext shop
      cases shop.built[id]? with
      | some object => rfl
      | none =>
          rcases h with hpath | hmissing
          · cases p.get? id with
            | none => rfl
            | some x =>
                dsimp only
                rw [if_pos (List.contains_iff_mem.mpr hpath)]
                rfl
          · rw [get?, Array.getElem?_eq_none hmissing]

theorem constructInstance_succ (p : Plan) (builder : Builder σ ι) (room : Nat)
    {path : List InstanceId} (hpath : p.Path path)
    (hroom : p.instances.size ≤ room + path.length) (id : InstanceId) :
    constructInstance p builder (room + 1) path id = constructInstance p builder room path id := by
  induction room generalizing path id with
  | zero =>
      refine constructInstance_blocked ?_ 1
      -- All instances are under construction, so the one that is asked for is.
      by_contra hfree
      have hle := (hpath.cons hfree).length_le
      rw [List.length_cons] at hle
      omega
  | succ room ih =>
      by_cases hblocked : id ∈ path ∨ p.instances.size ≤ id
      · rw [constructInstance_blocked hblocked, constructInstance_blocked hblocked (room + 1)]
      · have hinner : constructInstance p builder (room + 1) (id :: path) =
            constructInstance p builder room (id :: path) := by
          funext j
          refine ih (hpath.cons hblocked) ?_ j
          rw [List.length_cons]
          omega
        unfold constructInstance
        dsimp only
        rw [hinner]

theorem constructInstance_room (p : Plan) (builder : Builder σ ι) {room : Nat}
    (h : p.instances.size ≤ room) (id : InstanceId) :
    constructInstance p builder room [] id =
      constructInstance p builder p.instances.size [] id := by
  induction h with
  | refl => rfl
  | step hle ih => rw [constructInstance_succ p builder _ (Path.nil p) hle, ih]

/-!
# The root
-/

theorem Builds.all_before {world : σ} {calls before after : List (Call ι)} {c : Call ι}
    (h : Builds p builder ⟨world, ∅⟩ calls s) (hcalls : calls = before ++ c :: after)
    {j : InstanceId} (hj : Relation.TransGen p.Mentions c.id j) : j ∈ before.map Call.id := by
  have hdirect {before after : List (Call ι)} {c : Call ι} (hcalls : calls = before ++ c :: after)
      {j : InstanceId} (hj : p.Mentions c.id j) : j ∈ before.map Call.id :=
    (h.needs_before hcalls hj).resolve_left fun hne => hne (by simp)
  induction hj with
  | single hstep => exact hdirect hcalls hstep
  | tail _ hstep ih =>
      rcases List.mem_map.mp ih with ⟨d, hd, rfl⟩
      rcases List.append_of_mem hd with ⟨before', after', rfl⟩
      have hsplit : calls = before' ++ d :: (after' ++ c :: after) := by
        rw [hcalls, List.append_assoc, List.cons_append]
      rw [List.map_append, List.mem_append]
      exact Or.inl (hdirect hsplit hstep)

theorem Builds.constructible {world : σ} {calls : List (Call ι)}
    (h : Builds p builder ⟨world, ∅⟩ calls s) {id : InstanceId} (hid : id ∈ calls.map Call.id) :
    p.Constructible id ∧ forall i, Relation.ReflTransGen p.Mentions id i ->
      i ∈ calls.map Call.id := by
  have hneeds (i : InstanceId) (hi : Relation.ReflTransGen p.Mentions id i) :
      i ∈ calls.map Call.id := by
    rcases Relation.reflTransGen_iff_eq_or_transGen.mp hi with rfl | hi
    · exact hid
    · rcases List.mem_map.mp hid with ⟨c, hc, rfl⟩
      rcases List.append_of_mem hc with ⟨before, after, hcalls⟩
      rw [hcalls, List.map_append, List.mem_append]
      exact Or.inl (h.all_before hcalls hi)
  refine ⟨fun i hi => ?_, hneeds⟩
  rcases List.mem_map.mp (hneeds i hi) with ⟨c, hc, rfl⟩
  constructor
  · exact (Array.getElem?_eq_some_iff.mp (h.plan hc)).1
  · intro hloop
    rcases List.append_of_mem hc with ⟨before, after, hcalls⟩
    have hnodup := h.nodup
    rw [hcalls, List.map_append, List.map_cons] at hnodup
    exact (List.nodup_append.mp hnodup).2.2 _ (h.all_before hcalls hloop) _ List.mem_cons_self rfl

theorem construct_eq_ok {world world' : σ} {object : ι}
    (h : outcome (p.construct builder) world = (.ok object, world')) :
    exists calls shop, Builds p builder ⟨world, ∅⟩ calls shop ∧ shop.world = world' ∧
      (forall i, i ∈ calls.map Call.id -> Relation.ReflTransGen p.Mentions p.root i) ∧
      p.root ∈ calls.map Call.id ∧ shop.built[p.root]? = some object := by
  rw [construct, outcome_startingFrom] at h
  rcases hrun : outcome (constructInstance p builder (p.instances.size + 1) [] p.root)
    ⟨world, ∅⟩ with ⟨answer, shop⟩
  rw [hrun] at h
  cases h
  rcases constructs_constructInstance p builder _ [] p.root _ _ _ hrun with
    ⟨calls, hbuilds, hallowed, hbuilt⟩
  refine ⟨calls, shop, hbuilds, rfl, fun i hi => (hallowed i hi).2, ?_, hbuilt⟩
  have hsome : shop.built[p.root]? ≠ none := by
    rw [hbuilt]
    exact Option.some_ne_none _
  exact ((hbuilds.built_iff p.root).mp hsome).resolve_left fun hne => hne (by simp)

/-- A builder that never fails constructs the root exactly if all that it needs outside lazy
arguments exists and nothing of it needs itself; there is no need for more room than there are
instances. The builder is called once for the root and for each instance that it needs, in an order
in which all that an instance needs comes first, with the arguments of the plan in which the objects
made so far stand for references. -/
theorem construct_in_order (p : Plan) (builder : Builder σ ι) (hbuilder : NeverFails builder) :
    (forall room, p.instances.size ≤ room ->
      startingFrom (constructInstance p builder room [] p.root) = p.construct builder) ∧
    forall world,
      ((exists object world', outcome (p.construct builder) world = (.ok object, world')) <->
        p.Constructible p.root) ∧
      forall object world', outcome (p.construct builder) world = (.ok object, world') ->
        exists (calls : List (Call ι)) (objects : InstanceId -> ι),
          Performs builder world calls world' ∧ (calls.map Call.id).Nodup ∧
          (forall i, i ∈ calls.map Call.id <-> Relation.ReflTransGen p.Mentions p.root i) ∧
          (forall before c after, calls = before ++ c :: after ->
            forall j, p.Mentions c.id j -> j ∈ before.map Call.id) ∧
          (forall c, c ∈ calls -> c.Follows p objects) ∧ object = objects p.root := by
  refine ⟨fun room hroom => ?_, fun world => ⟨⟨?_, ?_⟩, ?_⟩⟩
  · rw [construct, constructInstance_room p builder hroom,
      constructInstance_room p builder (Nat.le_succ _)]
  · rintro ⟨object, world', hrun⟩
    rcases construct_eq_ok hrun with ⟨calls, shop, hbuilds, -, -, hroot, -⟩
    exact (hbuilds.constructible hroot).1
  · exact fun hroot => succeeds_of_constructible hroot hbuilder world
  · intro object world' hrun
    rcases construct_eq_ok hrun with ⟨calls, shop, hbuilds, rfl, hneeded, hroot, hobject⟩
    have hserves : Serves (fun i => (shop.built[i]?).getD object) shop.built := by
      intro i made hi
      dsimp only
      rw [hi]
      rfl
    refine ⟨calls, _, hbuilds.performs, hbuilds.nodup,
      fun i => ⟨hneeded i, (hbuilds.constructible hroot).2 i⟩, ?_,
      fun c hc => hbuilds.follows hserves hc, (hserves _ _ hobject).symm⟩
    intro before c after hcalls j hj
    exact hbuilds.all_before hcalls (.single hj)

/-- A plan whose root needs an instance twice and itself lazily, beside an instance that nothing
needs and that could not be constructed. -/
def entwined : Plan :=
  ⟨0, #[
    ⟨"a", "X", [.reference 1, .list [.reference 1, .lazy (.reference 0)]]⟩,
    ⟨"b", "X", [.map [("key", .reference 2)]]⟩,
    ⟨"c", "X", []⟩,
    ⟨"d", "X", [.reference 3, .reference 9]⟩]⟩

theorem construct_in_order_entwined :
    NeverFails treeBuilder ∧ entwined.Constructible 0 ∧
      exists (object : Json) (calls : List (Call Json)) (objects : InstanceId -> Json),
        outcome (entwined.construct treeBuilder) () = (.ok object, ()) ∧
        Performs treeBuilder () calls () ∧ (calls.map Call.id).Nodup ∧
        (forall i, i ∈ calls.map Call.id <-> Relation.ReflTransGen entwined.Mentions 0 i) ∧
        (forall c, c ∈ calls -> c.Follows entwined objects) ∧ object = objects 0 := by
  have hbuilder : NeverFails treeBuilder := fun _ _ s => ⟨_, s, rfl⟩
  have hok : (outcome (entwined.construct treeBuilder) ()).1.toBool = true := by decide +kernel
  rcases hrun : outcome (entwined.construct treeBuilder) () with ⟨e | object, world⟩
  · rw [hrun] at hok
    cases hok
  · rcases (construct_in_order entwined treeBuilder hbuilder).2 () with ⟨hiff, hcalls⟩
    rcases hcalls object world hrun with
      ⟨calls, objects, hperforms, hnodup, hneeded, -, hfollows, hobject⟩
    exact ⟨hbuilder, hiff.mp ⟨object, world, hrun⟩, object, calls, objects, rfl, hperforms, hnodup,
      hneeded, hfollows, hobject⟩

end Plan
end Wiring
