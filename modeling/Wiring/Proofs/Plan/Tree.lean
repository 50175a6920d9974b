import Wiring.Plan.Tree
import Wiring.Proofs.Json.Object
import Wiring.Proofs.Plan.Order

/-!
# What the tree has for the parts of a plan

The tree has an object for each instance that the root needs, and in it one for each
map in the arguments.  The object for a map keeps of several entries with one key
the last one.
-/

namespace Wiring

/-!
# Arguments in the tree
-/

namespace Plan

theorem itemTrees_eq_map (items : List (Constructed Json)) :
    itemTrees items = items.map argumentTree := by
  induction items with
  | nil => rfl
  | cons a rest ih => rw [itemTrees, ih, List.map_cons]

theorem entryTrees_eq_map (entries : List (String × Constructed Json)) :
    entryTrees entries = entries.map (Prod.map id argumentTree) := by
  induction entries with
  | nil => rfl
  | cons entry rest ih =>
      rw [entryTrees, ih]
      rfl

end Plan

namespace Argument

variable {objects : InstanceId → Json}

theorem fillAll_eq_map {ι : Type} (objects : InstanceId → ι) (items : List Argument) :
    fillAll objects items = items.map (fill objects) := by
  induction items with
  | nil => rfl
  | cons a rest ih => rw [fillAll, ih, List.map_cons]

theorem fillEntries_eq_map {ι : Type} (objects : InstanceId → ι)
    (entries : List (String × Argument)) :
    fillEntries objects entries = entries.map (Prod.map id (fill objects)) := by
  induction entries with
  | nil => rfl
  | cons entry rest ih =>
      rw [fillEntries, ih]
      rfl

def tree (objects : InstanceId → Json) (a : Argument) : Json :=
  Plan.argumentTree (a.fill objects)

theorem itemTrees_fillAll (objects : InstanceId → Json) (items : List Argument) :
    Plan.itemTrees (fillAll objects items) = items.map (tree objects) := by
  rw [Plan.itemTrees_eq_map, fillAll_eq_map, List.map_map]
  rfl

theorem tree_list (objects : InstanceId → Json) (items : List Argument) :
    (list items).tree objects = .arr (items.map (tree objects)) := by
  rw [tree, fill, Plan.argumentTree, itemTrees_fillAll]

theorem tree_map (objects : InstanceId → Json) (entries : List (String × Argument)) :
    (map entries).tree objects = .ofFields (entries.map (Prod.map id (tree objects))) := by
  rw [tree, fill, Plan.argumentTree, Plan.entryTrees_eq_map, fillEntries_eq_map, List.map_map]
  rfl

/-- What a key finds in the object that the tree has for a map, beside what it finds in the map. -/
structure Shows (objects : InstanceId → Json) (entries : List (String × Argument))
    (fields : List (String × Json)) (key : String) : Prop where
  found : (fields.lookup key).isSome = ((map entries).get? key).isSome
  last : fields.lookup key = (entries.reverse.lookup key).map (tree objects)
  agrees : fields.lookup key = ((map entries).get? key).map (tree objects) <->
    forall a b, entries.lookup key = some a -> entries.reverse.lookup key = some b ->
      a.tree objects = b.tree objects
  once : (entries.map Prod.fst).count key ≤ 1 ->
    fields.lookup key = ((map entries).get? key).map (tree objects)

theorem shows_of_last {entries : List (String × Argument)} {fields : List (String × Json)}
    {key : String} (h : fields.lookup key = (entries.reverse.lookup key).map (tree objects)) :
    Shows objects entries fields key where
  found := by
    rw [h, Option.isSome_map, Entries.isSome_lookup_reverse]
    rfl
  last := h
  agrees := by
    show _ = (entries.lookup key).map (tree objects) <-> _
    have hfound := Entries.isSome_lookup_reverse entries key
    rw [h]
    cases hfirst : entries.lookup key with
    | none =>
        rw [hfirst, Option.isSome_none, Option.isSome_eq_false_iff, Option.isNone_iff_eq_none]
          at hfound
        simp [hfound]
    | some a =>
        rw [hfirst, Option.isSome_some, Option.isSome_iff_exists] at hfound
        rcases hfound with ⟨b, hlast⟩
        simp [hlast, eq_comm]
  once hcount := by
    rw [h, Entries.lookup_reverse_of_count_le_one hcount]
    rfl

theorem exists_of_tree_map (objects : InstanceId → Json) (entries : List (String × Argument)) :
    exists fields, (map entries).tree objects = .obj fields ∧ (fields.map Prod.fst).Nodup ∧
      forall key, Shows objects entries fields key := by
  rcases Json.exists_of_ofFields (entries.map (Prod.map id (tree objects))) with
    ⟨fields, hfields, hnodup, hlookup⟩
  rw [tree_map]
  refine ⟨fields, hfields, hnodup, fun key => shows_of_last ?_⟩
  rw [hlookup, ← List.map_reverse, Entries.lookup_map]

/-- An argument is another one or stands in it where it is seen: not in a lazy argument, and of
several entries of a map with one key, in the last one. -/
inductive Seen (a : Argument) : Argument → Prop where
  | self : Seen a a
  | item {b : Argument} {items : List Argument} (mem : b ∈ items) (inner : Seen a b) :
      Seen a (.list items)
  | value {key : String} {b : Argument} {entries : List (String × Argument)}
      (last : entries.reverse.lookup key = some b) (inner : Seen a b) : Seen a (.map entries)

theorem Seen.within {a b : Argument} (h : Seen a b) (objects : InstanceId → Json) :
    (a.tree objects).Within (b.tree objects) := by
  induction h with
  | self => exact .self
  | item mem _ ih =>
      rw [tree_list]
      exact .item (List.mem_map_of_mem mem) ih
  | @value key b entries last _ ih =>
      rcases exists_of_tree_map objects entries with ⟨fields, hfields, -, hshows⟩
      have hfield : fields.lookup key = some (b.tree objects) := by
        rw [(hshows key).last, last, Option.map_some]
      rcases List.lookup_eq_some_iff.mp hfield with ⟨before, after, rfl, -⟩
      rw [hfields]
      exact .field (List.mem_append_right before List.mem_cons_self) ih

end Argument

/-!
# Instances in the tree
-/

namespace Plan

variable {objects : InstanceId → Json}

def Instance.tree (objects : InstanceId → Json) (x : Instance) : Json :=
  .obj [
    ("config", .str x.config),
    ("component", .str x.component),
    ("arguments", .arr (x.arguments.map (Argument.tree objects)))]

theorem Instance.within_tree {x : Instance} {a b : Argument} (hb : b ∈ x.arguments)
    (h : a.Seen b) : (a.tree objects).Within (x.tree objects) :=
  .field (List.mem_cons_of_mem _ (List.mem_cons_of_mem _ List.mem_cons_self))
    (.item (List.mem_map_of_mem hb) (h.within objects))

theorem Performs.object_eq_tree {p : Plan} {world world' : Unit} {calls : List (Call Json)}
    (h : Performs treeBuilder world calls world') {c : Call Json} (hc : c ∈ calls)
    (hfollows : c.Follows p objects) : c.object = c.plan.tree objects := by
  induction h with
  | nil => cases hc
  | cons call _ ih =>
      rcases List.mem_cons.mp hc with rfl | hc
      · have hobject := Except.ok.inj (congrArg Prod.fst call)
        rw [← hobject, Instance.tree, hfollows.arguments, Argument.itemTrees_fillAll]
      · exact ih hc

theorem exists_of_construct_tree {p : Plan} {object : Json}
    (h : outcome (p.construct treeBuilder) () = (.ok object, ())) :
    exists (calls : List (Call Json)) (objects : InstanceId -> Json),
      object = objects p.root ∧
      (forall i, i ∈ calls.map Call.id <-> Relation.ReflTransGen p.Mentions p.root i) ∧
      forall c, c ∈ calls -> c.Follows p objects ∧ c.object = c.plan.tree objects := by
  rcases construct_eq_ok h with ⟨calls, shop, hbuilds, -, hneeded, hroot, hobject⟩
  have hserves : Serves (fun i => (shop.built[i]?).getD object) shop.built := by
    intro i made hi
    show (shop.built[i]?).getD object = made
    rw [hi]
    rfl
  refine ⟨calls, fun i => (shop.built[i]?).getD object, (hserves _ _ hobject).symm,
    fun i => ?_, fun c hc => ?_⟩
  · exact ⟨hneeded i, (hbuilds.constructible hroot).2 i⟩
  · have hfollows := hbuilds.follows hserves hc
    exact ⟨hfollows, hbuilds.performs.object_eq_tree hc hfollows⟩

end Plan

end Wiring
