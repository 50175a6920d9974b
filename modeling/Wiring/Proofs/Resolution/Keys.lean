import Wiring.Proofs.Plan.Tree
import Wiring.Proofs.Resolution.Acyclicity

/-!
# Keys of maps in plans

The fields of a definition are strung together into a map, whether or not a key stands
in it already.  A look-up in the map finds the first entry with a key and the tree of
the plan has the last one, so they are sure to agree only if the keys are distinct.
-/

namespace Wiring

open Vocabulary

namespace Environment

variable {env : Environment}

/-!
# Keys of fields
-/

/-- The fields that a definition strings together have these literal keys. -/
inductive HasKeys (env : Environment) : NodeId → List String → Prop where
  | entry {node key : NodeId} {l : Literal} (shape : Shape.of env.graph node = .keyValue)
      (single : env.graph.object? node Oo.collectEntries = none)
      (named : env.graph.object? node Oo.key = some key)
      (literal : env.graph.literal? key = some l) : HasKeys env node [l.value]
  | fields {node : NodeId} {fields : List NodeId} {keys : List (List String)}
      (shape : Shape.of env.graph node = .fields) (nodes : env.fieldNodes? node = some fields)
      (each : List.Forall₂ (HasKeys env) fields keys) : HasKeys env node keys.flatten

def IsEntries (x : Assembled) (entries : List (String × Argument)) : Prop :=
  x = .entries entries ∨ x = .value (.map entries)

theorem IsEntries.toArgument {x : Assembled} {entries : List (String × Argument)}
    (h : IsEntries x entries) : x.toArgument = .map entries := by
  rcases h with rfl | rfl
  · rfl
  · rfl

def MakesEntries (step : Walking Assembled) (keys : List String) : Prop :=
  forall f x f', outcome step f = (.ok x, f') ->
    exists entries, IsEntries x entries ∧ (entries.map Prod.fst).Sublist keys

section Definitions

variable {down : Descent} {place : Place}

theorem keys_keyedEntry (key : String) (r : Resolved) :
    ((keyedEntry key r).map Prod.fst).Sublist [key] := by
  unfold keyedEntry
  split
  · exact List.nil_sublist [key]
  · exact List.Sublist.refl [key]

theorem makesEntries_assembleKeyValue {node key : NodeId} {l : Literal}
    (hsingle : env.graph.object? node Oo.collectEntries = none)
    (hkey : env.graph.object? node Oo.key = some key) (hl : env.graph.literal? key = some l) :
    MakesEntries (env.assembleKeyValue down place node) [l.value] := by
  intro f x f' h
  have hliteral : env.literalKey? node = .ok (some l.value) := by
    unfold literalKey?
    rw [hkey]
    dsimp only
    rw [hl]
  unfold assembleKeyValue at h
  rw [hsingle, hliteral] at h
  dsimp only at h
  rcases outcome_bind_eq_ok h with ⟨name, f₁, hname, h⟩
  cases hname
  cases hvalue : env.valueReference? node with
  | none =>
      rw [hvalue] at h
      cases h
  | some reference =>
      rw [hvalue] at h
      rcases outcome_bind_eq_ok h with ⟨r, f₂, -, h⟩
      cases h
      exact ⟨_, Or.inl rfl, keys_keyedEntry l.value r⟩

theorem keys_fieldEntries {field : NodeId} {keys : List String}
    (hdown : MakesEntries (down.assemble place field) keys) {f f' : Frame}
    {entries : List (String × Argument)}
    (h : outcome (env.fieldEntries down place field) f = (.ok entries, f')) :
    (entries.map Prod.fst).Sublist keys := by
  unfold fieldEntries at h
  dsimp only at h
  rcases outcome_bind_eq_ok h with ⟨x, f₁, hx, h⟩
  rcases hdown f x f₁ hx with ⟨made, rfl | rfl, hkeys⟩
  · cases h
    exact hkeys
  · cases h
    exact hkeys

theorem keys_of_fields {fields : List NodeId} {keys : List (List String)}
    (hdown : List.Forall₂ (fun field => MakesEntries (down.assemble place field)) fields keys)
    {f f' : Frame} {made : List (List (String × Argument))}
    (h : outcome (fields.mapM (env.fieldEntries down place)) f = (.ok made, f')) :
    (made.flatten.map Prod.fst).Sublist keys.flatten := by
  induction hdown generalizing f made with
  | nil =>
      cases h
      exact List.Sublist.refl []
  | cons hfield _ ih =>
      rw [List.mapM_cons] at h
      rcases outcome_bind_eq_ok h with ⟨entries, f₁, hentries, h⟩
      rcases outcome_bind_eq_ok h with ⟨rest, f₂, hrest, h⟩
      cases h
      rw [List.flatten_cons, List.flatten_cons, List.map_append]
      exact (keys_fieldEntries hfield hentries).append (ih hrest)

theorem makesEntries_assembleFields {node : NodeId} {fields : List NodeId}
    {keys : List (List String)} (hnodes : env.fieldNodes? node = some fields)
    (hdown : List.Forall₂ (fun field => MakesEntries (down.assemble place field)) fields keys) :
    MakesEntries (env.assembleFields down place node) keys.flatten := by
  intro f x f' h
  unfold assembleFields at h
  rw [hnodes] at h
  rcases outcome_bind_eq_ok h with ⟨made, f₁, hmade, h⟩
  cases h
  exact ⟨made.flatten, Or.inr rfl, keys_of_fields hdown hmade⟩

end Definitions

theorem makesEntries_assembleWithin {levels : Nat} {place : Place} {node : NodeId}
    {keys : List String} (h : env.HasKeys node keys) :
    MakesEntries (env.assembleWithin levels place node) keys := by
  induction levels generalizing node keys with
  | zero =>
      intro f x f' hrun
      cases hrun
  | succ levels ih =>
      show MakesEntries (env.assembleShape _ place node) keys
      unfold assembleShape
      cases h with
      | entry shape single named literal =>
          rw [shape]
          exact makesEntries_assembleKeyValue single named literal
      | fields shape nodes each =>
          rw [shape]
          exact makesEntries_assembleFields nodes (each.imp fun _ _ hfield => ih hfield)

/-!
# Maps in plans
-/

/-- The tree is made of every instance that was the answer to a request, whether or not others
failed.  It has an object for each instance that this one needs, and in that what is made of each
part of its arguments that is seen.  Every map becomes an object with each key of the map once, which
has under the key what is made of the last entry with it.  That is what is made of the entry that a
look-up finds exactly if the same is made of the first and the last entry, as for a key that stands
once.  So it is for every key if a map comes out of fields with distinct literal keys. -/
theorem history_maps_shown (env : Environment) (requests : List Request) {id : InstanceId}
    (h : .ok id ∈ (env.history requests).1) :
    exists (calls : List (Plan.Call Json)) (objects : InstanceId -> Json),
      outcome (((env.history requests).2.toPlan id).construct Plan.treeBuilder) () =
        (.ok (objects id), ()) ∧
      (forall i, i ∈ calls.map Plan.Call.id <->
        Relation.ReflTransGen ((env.history requests).2.toPlan id).Mentions id i) ∧
      (forall c, c ∈ calls -> c.Follows ((env.history requests).2.toPlan id) objects ∧
        c.object = c.plan.tree objects ∧
        forall a, a ∈ c.plan.arguments -> forall b : Argument, b.Seen a ->
          (b.tree objects).Within c.object) ∧
      (forall entries, exists fields, (Argument.map entries).tree objects = .obj fields ∧
        (fields.map Prod.fst).Nodup ∧ forall key, Argument.Shows objects entries fields key) ∧
      forall levels place node keys f x f', env.HasKeys node keys -> keys.Nodup ->
        outcome (env.assembleWithin levels place node) f = (.ok x, f') ->
        forall key, (x.toArgument.tree objects).field? key =
          (x.toArgument.get? key).map (Argument.tree objects) := by
  rcases serve_induction (Context.Sound ⟨[], []⟩) (fun s id => id < s.instances.size)
    (fun _ _ _ hgrows hid => Nat.lt_of_lt_of_le hid hgrows.instances.size_le)
    (fun _ _ _ _ => sound_resolve) Context.sound_empty requests with ⟨hsound, hanswers⟩
  have hbuilder : Plan.NeverFails Plan.treeBuilder := fun _ _ world => ⟨_, world, rfl⟩
  rcases Plan.succeeds_construct (p := (env.history requests).2.toPlan id) hsound.closed
    hsound.acyclic (hanswers id h) hbuilder () with ⟨object, world, hrun⟩
  rcases Plan.exists_of_construct_tree hrun with ⟨calls, objects, hobject, hneeded, hcalls⟩
  refine ⟨calls, objects, hobject ▸ hrun, hneeded, fun c hc => ?_,
    Argument.exists_of_tree_map objects, ?_⟩
  · rcases hcalls c hc with ⟨hfollows, htree⟩
    refine ⟨hfollows, htree, fun a ha b hb => ?_⟩
    rw [htree]
    exact Plan.Instance.within_tree ha hb
  · intro levels place node keys f x f' hkeys hnodup hx key
    rcases makesEntries_assembleWithin hkeys f x f' hx with ⟨entries, hentries, hsublist⟩
    rcases Argument.exists_of_tree_map objects entries with ⟨fields, hfields, -, hshows⟩
    rw [hentries.toArgument, hfields]
    exact (hshows key).once (List.nodup_iff_count_le_one.mp (hnodup.sublist hsublist) key)

/-- The argument of the component is a map with two fields for the key `k`, which have the values of
`p` and `q`, and one for the key `l`.  The configuration `c` has `1` for `p` and `2` for `q`.  Node 15
has the first and the last field only. -/
def labels : Environment :=
  let (x, g) := Graph.empty.intern (.named "X")
  let (p, g) := g.intern (.named "p")
  let (q, g) := g.intern (.named "q")
  let (c, g) := g.intern (.named "c")
  let (k, g) := g.intern (.literal (.typed "k" Xsd.string))
  let (l, g) := g.intern (.literal (.typed "l" Xsd.string))
  let (one, g) := g.intern (.literal (.typed "1" Xsd.string))
  let (two, g) := g.intern (.literal (.typed "2" Xsd.string))
  let (first, g) := g.freshBlank
  let (second, g) := g.freshBlank
  let (third, g) := g.freshBlank
  let (fields, g) := g.freshList [first, second, third]
  let (definition, g) := g.freshBlank
  let (arguments, g) := g.freshList [definition]
  let (pair, g) := g.freshList [first, third]
  let (distinct, g) := g.freshBlank
  let g := g.addEdge distinct Oo.fields pair
  let g := ((g.addEdge first Oo.key k).addEdge first Rdf.value p).addEdge second Oo.key k
  let g := ((g.addEdge second Rdf.value q).addEdge third Oo.key l).addEdge third Rdf.value q
  let g := ((g.addEdge definition Oo.fields fields).addType x Oo.classType).addEdge x
    Oo.constructorArguments arguments
  ⟨((g.addType c "X").addEdge c "p" one).addEdge c "q" two, ∅, 16⟩

def labelled : List (String × Argument) :=
  [("k", .list [.string "1"]), ("k", .list [.string "2"]), ("l", .list [.string "2"])]

theorem history_labels :
    (labels.history [.config 3]).1 = [.ok 0] ∧
      (labels.history [.config 3]).2.toPlan 0 = ⟨0, #[⟨"c", "X", [.map labelled]⟩]⟩ := by
  constructor
  · rfl
  · rfl

theorem hasKeys_labels : labels.HasKeys 15 ["k", "l"] := by
  have hshapes : Shape.of labels.graph 15 = .fields ∧ labels.fieldNodes? 15 = some [8, 10] ∧
      Shape.of labels.graph 8 = .keyValue ∧ Shape.of labels.graph 10 = .keyValue := by
    decide +kernel
  have hentries : (labels.graph.object? 8 Oo.collectEntries = none ∧
      labels.graph.object? 8 Oo.key = some 4 ∧
      labels.graph.literal? 4 = some (.typed "k" Xsd.string)) ∧
      labels.graph.object? 10 Oo.collectEntries = none ∧
      labels.graph.object? 10 Oo.key = some 5 ∧
      labels.graph.literal? 5 = some (.typed "l" Xsd.string) := by decide +kernel
  rcases hshapes with ⟨hshape, hnodes, hfirst, hlast⟩
  rcases hentries with ⟨⟨hsingle, hkey, hk⟩, hsingle', hkey', hl⟩
  exact .fields hshape hnodes (.cons (.entry hfirst hsingle hkey hk)
    (.cons (.entry hlast hsingle' hkey' hl) .nil))

theorem history_maps_shown_labels :
    .ok 0 ∈ (labels.history [.config 3]).1 ∧ labels.HasKeys 15 ["k", "l"] ∧
      exists (objects : InstanceId -> Json) (fields : List (String × Json)),
        outcome (((labels.history [.config 3]).2.toPlan 0).construct Plan.treeBuilder) () =
          (.ok (objects 0), ()) ∧
        (Json.obj fields).Within (objects 0) ∧
        fields.lookup "k" = some (.arr [.str "2"]) ∧
        fields.lookup "l" = ((Argument.map labelled).get? "l").map (Argument.tree objects) ∧
        exists x f', outcome (labels.assembleWithin 3 ⟨3, 3, []⟩ 15)
            ⟨Session.empty, .ofScope []⟩ = (.ok x, f') ∧
          (x.toArgument.tree objects).field? "k" =
            (x.toArgument.get? "k").map (Argument.tree objects) := by
  rcases history_labels with ⟨hanswers, hplan⟩
  have hmem : .ok 0 ∈ (labels.history [.config 3]).1 := by
    rw [hanswers]
    exact List.mem_cons_self
  rcases history_maps_shown labels [.config 3] hmem with
    ⟨calls, objects, hrun, hneeded, hcalls, hmaps, hdistinct⟩
  rcases hmaps labelled with ⟨fields, hfields, -, hshows⟩
  refine ⟨hmem, hasKeys_labels, objects, fields, hrun, ?_, ?_, ?_, ?_⟩
  · rcases List.mem_map.mp ((hneeded 0).mpr .refl) with ⟨c, hc, hid⟩
    rcases hcalls c hc with ⟨hfollows, -, hseen⟩
    have hinstance := hfollows.plan
    rw [hplan, hid] at hinstance
    have harguments : c.plan.arguments = [.map labelled] :=
      congrArg Plan.Instance.arguments (Option.some.inj hinstance).symm
    rw [← hfields, ← hid, ← hfollows.object]
    refine hseen (.map labelled) ?_ _ .self
    rw [harguments]
    exact List.mem_cons_self
  · rw [(hshows "k").last]
    rfl
  · exact (hshows "l").once (by decide)
  · have hok : (outcome (labels.assembleWithin 3 ⟨3, 3, []⟩ 15)
        ⟨Session.empty, .ofScope []⟩).1.isOk = true := by decide +kernel
    rcases hx : outcome (labels.assembleWithin 3 ⟨3, 3, []⟩ 15) ⟨Session.empty, .ofScope []⟩ with
      ⟨e | x, f'⟩
    · rw [hx] at hok
      cases hok
    · exact ⟨x, f', rfl, hdistinct _ _ _ _ _ x f' hasKeys_labels (by decide) hx "k"⟩

/-- A look-up of `k` in the argument finds `["1"]`, where the tree has `["2"]`. -/
theorem not_history_maps_shown_labels :
    .ok 0 ∈ (labels.history [.config 3]).1 ∧
    (exists x, ((labels.history [.config 3]).2.toPlan 0).get? 0 = some x ∧
      x.arguments = [.map labelled]) ∧
    ((labels.history [.config 3]).2.toPlan 0).tree.toOption.map Json.compact =
      some ("\x7b\"config\":\"c\",\"component\":\"X\",\"arguments\":" ++
        "[\x7b\"k\":[\"2\"],\"l\":[\"2\"]\x7d]\x7d") ∧
    forall objects,
      ((Argument.map labelled).get? "k").map (Argument.tree objects) =
        some (.arr [.str "1"]) ∧
      ((Argument.map labelled).tree objects).field? "k" = some (.arr [.str "2"]) := by
  rcases history_labels with ⟨hanswers, hplan⟩
  rw [hanswers, hplan]
  refine ⟨List.mem_cons_self, ⟨_, rfl, rfl⟩, ?_, fun objects => ⟨rfl, rfl⟩⟩
  decide +kernel

end Environment
end Wiring
