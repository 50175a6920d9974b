import Wiring.Proofs.Resolution.Bond

/-!
# Assembling side by side

Definitions are assembled from answers to requests.  Two descents whose answers
belong together, whichever request they get, assemble arguments that fit each
other out of every definition.  They may be given different variables, as long as
failures are excused for those that only the second one has.
-/

namespace Wiring

open Vocabulary

def Environment.given (env : Environment) (supplied : Variables) (limit : Nat) : Environment :=
  ⟨env.graph, supplied, limit⟩

/-- Two descents keep a bond, whatever they are asked for while the given configurations are active
and with the given variables. -/
structure Bond.Joins (B : Bond) (supplied supplied' : Variables) (active active' : List NodeId)
    (down down' : Descent) : Prop where
  supplied : supplied.Beside B.excused supplied'
  assemble (f g : Frame) (root element node : NodeId) :
    B.Walks f g (down.assemble ⟨root, element, active⟩ node)
      (down'.assemble ⟨root, element, active'⟩ node) fun w => Assembled.Fits (B.answers w)
  instantiate (s t : Session) (config : NodeId) (unique lazy : Bool) :
    B.Resolves s t (down.instantiate active config unique lazy)
      (down'.instantiate active' config unique lazy)
      fun w => B.answers w config unique lazy

namespace Environment

variable {env : Environment} {supplied : Variables} {limit : Nat} {B : Bond} {s t : Session}
  {f g : Frame}

/-!
# What is read from the graph alone
-/

theorem graph_given : (env.given supplied limit).graph = env.graph := rfl

theorem isNested_given : (env.given supplied limit).isNested = env.isNested := rfl

theorem rawValue_given : (env.given supplied limit).rawValue = env.rawValue := rfl

theorem shapeFailure_given :
    (env.given supplied limit).shapeFailure = env.shapeFailure := rfl

theorem elementEntries?_given :
    (env.given supplied limit).elementEntries? = env.elementEntries? := rfl

theorem fieldNodes?_given :
    (env.given supplied limit).fieldNodes? = env.fieldNodes? := rfl

theorem valueReference?_given :
    (env.given supplied limit).valueReference? = env.valueReference? := rfl

theorem literalKey?_given :
    (env.given supplied limit).literalKey? = env.literalKey? := rfl

/-!
# From values to arguments
-/

theorem stable_fits {w w' : World} {inLazy : Bool} {a b : Argument} (h : B.later w w')
    (hfits : Argument.Fits (B.answers w) inLazy a b) :
    Argument.Fits (B.answers w') inLazy a b :=
  hfits.mono fun _ _ _ _ _ => B.stable h

section Materialize

variable {instantiate instantiate' : NodeId → (unique lazy : Bool) → Resolving (Option InstanceId)}
  {onItems onItems' : List NodeId → Resolving Argument}

theorem resolves_materializeWith
    (hinstantiate : forall s t config unique lazy,
      B.Resolves s t (instantiate config unique lazy) (instantiate' config unique lazy)
        fun w => B.answers w config unique lazy)
    (hitems : forall s t items, B.Resolves s t (onItems items) (onItems' items)
      fun w => Argument.Fits (B.answers w) false)
    (note : Note) (source : NodeId) :
    B.Resolves s t (env.materializeWith instantiate onItems note source)
      ((env.given supplied limit).materializeWith instantiate' onItems' note source)
      fun w => Argument.Fits (B.answers w) note.lazy := by
  unfold materializeWith
  rw [graph_given]
  split
  · exact Bond.Keeps.pure (.literal _)
  · exact Bond.Keeps.pure (.literal _)
  · exact Bond.Keeps.throw
  · exact Bond.Keeps.pure (.literal _)
  · split
    · exact Bond.Keeps.mono (hitems s t _) fun _ _ _ _ => Argument.Fits.weaken
    · split
      · apply Bond.Keeps.bind (hinstantiate s t source note.unique note.lazy)
        intro s' t' i j _ hij
        cases i <;> cases j <;>
          exact Bond.Keeps.pure (.answer hij id rfl rfl)
      · exact Bond.Keeps.pure (.iri _)

theorem resolves_materializeOccurrence
    (hinstantiate : forall s t config unique lazy,
      B.Resolves s t (instantiate config unique lazy) (instantiate' config unique lazy)
        fun w => B.answers w config unique lazy)
    (hitems : forall s t items, B.Resolves s t (onItems items) (onItems' items)
      fun w => Argument.Fits (B.answers w) false)
    {v v' : Occurrence} (hv : Notes.Same s.notes t.notes v v') :
    B.Resolves s t (env.materializeOccurrence instantiate onItems v)
      ((env.given supplied limit).materializeOccurrence instantiate' onItems' v')
      fun w => Argument.Fits (B.answers w) false := by
  refine Bond.Keeps.bind_get fun _ => ?_
  dsimp only
  rw [← hv.note, ← hv.source]
  apply Bond.Keeps.bind (resolves_materializeWith hinstantiate hitems _ _)
  intro s' t' a b _ hab
  split
  · next hlazy =>
      rw [hlazy] at hab
      exact Bond.Keeps.pure (.lazy hab)
  · next hlazy =>
      rw [Bool.not_eq_true] at hlazy
      rw [hlazy] at hab
      exact Bond.Keeps.pure hab

theorem resolves_materializeWithin
    (hinstantiate : forall s t config unique lazy,
      B.Resolves s t (instantiate config unique lazy) (instantiate' config unique lazy)
        fun w => B.answers w config unique lazy)
    (levels : Nat) {v v' : Occurrence} (hv : Notes.Same s.notes t.notes v v') :
    B.Resolves s t (env.materializeWithin instantiate levels v)
      ((env.given supplied limit).materializeWithin instantiate' levels v')
      fun w => Argument.Fits (B.answers w) false := by
  induction levels generalizing s t v v' with
  | zero =>
      rw [materializeWithin, materializeWithin, hv.source]
      exact resolves_materializeOccurrence hinstantiate (fun _ _ _ => Bond.Keeps.throw) hv
  | succ levels ih =>
      rw [materializeWithin, materializeWithin]
      refine resolves_materializeOccurrence hinstantiate ?_ hv
      intro s t items
      refine Bond.Keeps.bind (Bond.Keeps.mapM_same
        (E := fun w => Argument.Fits (B.answers w) false) (fun _ _ _ _ => stable_fits) ?_ items) ?_
      · intro s t item
        exact ih (Notes.Same.ofNode s.notes t.notes item)
      · intro s' t' as bs _ hfits
        exact Bond.Keeps.pure (Argument.Fits.list_iff.mpr hfits)

theorem resolves_materialize_all
    (hinstantiate : forall s t config unique lazy,
      B.Resolves s t (instantiate config unique lazy) (instantiate' config unique lazy)
        fun w => B.answers w config unique lazy)
    {vs vs' : List Occurrence}
    (hvs : List.Forall₂ (Notes.Same s.notes t.notes) vs vs') :
    B.Resolves s t (vs.mapM (env.materialize instantiate))
      (vs'.mapM ((env.given supplied limit).materialize instantiate'))
      fun w => List.Forall₂ (Argument.Fits (B.answers w) false) := by
  refine Bond.Keeps.mapM (V := View.ofSession)
    (R := fun w => Notes.Same w.1.notes w.2.notes)
    (E := fun w => Argument.Fits (B.answers w) false) ?_ (fun _ _ _ _ => stable_fits) ?_ hvs
  · intro w w' v v' hlater hv
    exact hv.later (B.notes hlater).1 (B.notes hlater).2
  · intro s t v v' hv
    exact resolves_materializeWithin hinstantiate env.graph.lists.size hv

end Materialize

/-!
# From parameters to values
-/

section Places

variable {active active' : List NodeId} {root element : NodeId}

theorem walks_parameterValues (hsupplied : env.supplied.Beside B.excused supplied)
    (node : NodeId) :
    B.Walks f g (env.parameterValues ⟨root, element, active⟩ node)
      ((env.given supplied limit).parameterValues ⟨root, element, active'⟩ node)
      fun w => List.Forall₂ (Notes.Same w.1.notes w.2.notes) := by
  apply Bond.Keeps.bind (Bond.walks_ofExcept (Parameter.load env.graph node))
  rintro f' g' p _ _ rfl
  exact Bond.walks_ofPreparing fun c =>
    Stage.prepares_run hsupplied ((env.graph.objects element p.id).filter fun v => v ≠ element)

variable {down down' : Descent}

theorem walks_referenceValues (hdown : B.Joins env.supplied supplied active active' down down')
    (reference : NodeId) (raw : Bool) :
    B.Walks f g (env.referenceValues down ⟨root, element, active⟩ reference raw)
      ((env.given supplied limit).referenceValues down' ⟨root, element, active'⟩ reference raw)
      fun w => Resolved.Fits (B.answers w) := by
  unfold referenceValues
  rw [isNested_given, graph_given, rawValue_given]
  split
  · apply Bond.Keeps.bind (hdown.assemble f g root element reference)
    intro f' g' x y _ hxy
    exact Bond.Keeps.pure (.single hxy.toArgument)
  · split
    · have hraw : exists value, env.rawValue reference = .literal value := by
        unfold rawValue
        split <;> exact ⟨_, rfl⟩
      rcases hraw with ⟨value, hvalue⟩
      rw [hvalue]
      exact Bond.Keeps.pure (.single (.literal value))
    · apply Bond.Keeps.bind (walks_parameterValues hdown.supplied reference)
      intro f' g' vs vs' _ hvs
      refine Bond.Keeps.bind_get fun _ => ?_
      have hunique : vs.head?.any f'.session.notes.isUnique =
          vs'.head?.any g'.session.notes.isUnique := by
        cases hvs with
        | nil => rfl
        | cons hv _ =>
            have hnote := hv.note
            simp only [View.world_ofFrame] at hnote
            simp [Notes.isUnique, hnote]
      dsimp only
      rw [hunique]
      refine Bond.Keeps.bind (Bond.walks_ofResolving
        (resolves_materialize_all hdown.instantiate hvs)) ?_
      intro f'' g'' as bs _ hfits
      exact Bond.Keeps.pure ⟨hfits, rfl⟩

/-!
# Elements and fields
-/

theorem walks_elementValues (hdown : B.Joins env.supplied supplied active active' down down')
    (entry : NodeId) :
    B.Walks f g (env.elementValues down ⟨root, element, active⟩ entry)
      ((env.given supplied limit).elementValues down' ⟨root, element, active'⟩ entry)
      fun w => List.Forall₂ (Argument.Fits (B.answers w) false) := by
  have hreference (f g : Frame) (reference : NodeId) (raw : Bool) :
      B.Walks f g
        (do return (← env.referenceValues down ⟨root, element, active⟩ reference raw).values)
        (do return (← (env.given supplied limit).referenceValues down' ⟨root, element, active'⟩
          reference raw).values)
        fun w => List.Forall₂ (Argument.Fits (B.answers w) false) := by
    apply Bond.Keeps.bind (walks_referenceValues hdown reference raw)
    intro f' g' r r' _ hr
    exact Bond.Keeps.pure hr.values
  unfold elementValues
  dsimp only
  rw [isNested_given, graph_given, shapeFailure_given]
  split
  · apply Bond.Keeps.bind (hdown.assemble f g root element entry)
    intro f' g' x y _ hxy
    cases hxy with
    | positional h => exact Bond.Keeps.pure h
    | value h => exact Bond.Keeps.pure (.cons h .nil)
    | entries h => exact Bond.Keeps.throw
    | resolved h => exact Bond.Keeps.pure h.values
    | values h => exact Bond.Keeps.pure h
  · split
    · exact hreference f g entry false
    · split
      · exact hreference f g _ false
      · exact hreference f g _ true
      · exact Bond.Keeps.throw

theorem walks_assembleElements (hdown : B.Joins env.supplied supplied active active' down down')
    (node : NodeId) :
    B.Walks f g (env.assembleElements down ⟨root, element, active⟩ node)
      ((env.given supplied limit).assembleElements down' ⟨root, element, active'⟩ node)
      fun w => Assembled.Fits (B.answers w) := by
  unfold assembleElements
  rw [elementEntries?_given, shapeFailure_given]
  split
  · exact Bond.Keeps.throw
  · next entries _ =>
      refine Bond.Keeps.bind (Bond.Keeps.mapM_same
        (E := fun w => List.Forall₂ (Argument.Fits (B.answers w) false)) ?_
        (fun _ _ => walks_elementValues hdown) entries) ?_
      · intro w w' as bs hlater h
        exact h.imp fun _ _ => stable_fits hlater
      · intro f' g' ass bss _ h
        exact Bond.Keeps.pure (.value (Argument.Fits.list_iff.mpr (Argument.flatten_fits h)))

theorem mapEntries?_fits {P : Argument.Answers} {as bs : List Argument}
    (h : List.Forall₂ (Argument.Fits P false) as bs) :
    Option.Rel (Argument.EntriesFit P false) (mapEntries? as) (mapEntries? bs) := by
  unfold mapEntries?
  have hentries : Option.Rel (List.Forall₂ (Argument.EntriesFit P false))
      (as.mapM Argument.entries?) (bs.mapM Argument.entries?) := by
    induction h with
    | nil => exact .some .nil
    | @cons a b as bs hab _ ih =>
        rw [List.mapM_cons, List.mapM_cons]
        have hhead := hab.entries?
        revert hhead ih
        generalize a.entries? = x, b.entries? = y
        generalize as.mapM Argument.entries? = xs, bs.mapM Argument.entries? = ys
        intro hrest hhead
        cases hhead with
        | none => exact .none
        | some hab =>
            cases hrest with
            | none => exact .none
            | some hrest => exact .some (.cons hab hrest)
  revert hentries
  generalize as.mapM Argument.entries? = xs, bs.mapM Argument.entries? = ys
  intro hentries
  cases hentries with
  | none => exact .none
  | some h => exact .some (Argument.EntriesFit.flatten h)

theorem walks_fieldEntries (hdown : B.Joins env.supplied supplied active active' down down')
    (field : NodeId) :
    B.Walks f g (env.fieldEntries down ⟨root, element, active⟩ field)
      ((env.given supplied limit).fieldEntries down' ⟨root, element, active'⟩ field)
      fun w => Argument.EntriesFit (B.answers w) false := by
  unfold fieldEntries
  rw [shapeFailure_given]
  dsimp only
  apply Bond.Keeps.bind (hdown.assemble f g root element field)
  intro f' g' x y _ hxy
  cases hxy with
  | positional h => exact Bond.Keeps.throw
  | @value a b h =>
      have hentries := h.entries?
      cases a with
      | map es =>
          cases b with
          | map fs =>
              cases hentries with
              | some h => exact Bond.Keeps.pure h
          | _ => cases hentries
      | _ =>
          cases b with
          | map fs => cases hentries
          | _ => exact Bond.Keeps.throw
  | entries h => exact Bond.Keeps.pure h
  | @resolved r r' h =>
      have hentries := mapEntries?_fits h.values
      revert hentries
      dsimp only
      generalize mapEntries? r.values = xs, mapEntries? r'.values = ys
      intro hentries
      cases hentries with
      | none => exact Bond.Keeps.throw
      | some h => exact Bond.Keeps.pure h
  | @values as bs h =>
      have hentries := mapEntries?_fits h
      revert hentries
      dsimp only
      generalize mapEntries? as = xs, mapEntries? bs = ys
      intro hentries
      cases hentries with
      | none => exact Bond.Keeps.throw
      | some h => exact Bond.Keeps.pure h

theorem walks_assembleFields (hdown : B.Joins env.supplied supplied active active' down down')
    (node : NodeId) :
    B.Walks f g (env.assembleFields down ⟨root, element, active⟩ node)
      ((env.given supplied limit).assembleFields down' ⟨root, element, active'⟩ node)
      fun w => Assembled.Fits (B.answers w) := by
  unfold assembleFields
  rw [fieldNodes?_given, shapeFailure_given]
  split
  · exact Bond.Keeps.throw
  · next fields _ =>
      refine Bond.Keeps.bind (Bond.Keeps.mapM_same
        (E := fun w => Argument.EntriesFit (B.answers w) false) ?_
        (fun _ _ => walks_fieldEntries hdown) fields) ?_
      · intro w w' es fs hlater h
        exact h.mono fun _ _ _ _ _ => B.stable hlater
      · intro f' g' ess fss _ h
        exact Bond.Keeps.pure (.value (Argument.Fits.map_iff.mpr (Argument.EntriesFit.flatten h)))

/-!
# Lists
-/

theorem walks_positionalArgument (hdown : B.Joins env.supplied supplied active active' down down')
    (item : NodeId) :
    B.Walks f g (env.positionalArgument down ⟨root, element, active⟩ item)
      ((env.given supplied limit).positionalArgument down' ⟨root, element, active'⟩ item)
      fun w => Argument.Fits (B.answers w) false := by
  unfold positionalArgument
  rw [isNested_given, graph_given]
  split
  · apply Bond.Keeps.bind (walks_referenceValues hdown item false)
    intro f' g' r r' _ hr
    exact Bond.Keeps.pure hr.collapse
  · apply Bond.Keeps.bind (hdown.assemble f g root element item)
    intro f' g' x y _ hxy
    exact Bond.Keeps.pure hxy.toArgument

theorem walks_assembleList (hdown : B.Joins env.supplied supplied active active' down down')
    (node : NodeId) :
    B.Walks f g (env.assembleList down ⟨root, element, active⟩ node)
      ((env.given supplied limit).assembleList down' ⟨root, element, active'⟩ node)
      fun w => Assembled.Fits (B.answers w) := by
  refine Bond.Keeps.bind (Bond.Keeps.mapM_same
    (E := fun w => Argument.Fits (B.answers w) false) (fun _ _ _ _ => stable_fits)
    (fun _ _ => walks_positionalArgument hdown) _) ?_
  intro f' g' as bs _ h
  exact Bond.Keeps.pure (.positional h)

/-!
# Collected entries
-/

theorem walks_entryKey (hsupplied : env.supplied.Beside B.excused supplied)
    (reference : NodeId) :
    B.Walks f g (env.entryKey ⟨root, element, active⟩ reference)
      ((env.given supplied limit).entryKey ⟨root, element, active'⟩
        reference) fun _ key key' => key = key' := by
  unfold entryKey
  rw [graph_given]
  split
  · exact Bond.Keeps.pure rfl
  · apply Bond.Keeps.bind (walks_parameterValues hsupplied reference)
    intro f' g' vs vs' _ hvs
    cases hvs with
    | nil => exact Bond.Keeps.throw
    | cons hv _ =>
        refine Bond.Keeps.bind_get fun _ => ?_
        have hobserve := hv.observe env.graph
        simp only [View.world_ofFrame] at hobserve
        rw [hobserve, hv.source]
        split <;> exact Bond.Keeps.pure rfl

theorem walks_collectedValue (hdown : B.Joins env.supplied supplied active active' down down')
    (node : NodeId)
    {v v' : Occurrence} (hv : Notes.Same f.session.notes g.session.notes v v') :
    B.Walks f g (env.collectedValue down ⟨root, element, active⟩ node v)
      ((env.given supplied limit).collectedValue down' ⟨root, element, active'⟩ node v')
      fun w => Argument.Fits (B.answers w) false := by
  unfold collectedValue
  rw [valueReference?_given]
  split
  · apply Bond.Keeps.bind (walks_referenceValues hdown _ _)
    intro f' g' r r' _ hr
    exact Bond.Keeps.pure hr.collapse
  · exact Bond.walks_ofResolving
      (resolves_materializeWithin hdown.instantiate env.graph.lists.size hv)

theorem walks_collectEntries (hdown : B.Joins env.supplied supplied active active' down down')
    (node collected : NodeId) :
    B.Walks f g (env.collectEntries down ⟨root, element, active⟩ node collected)
      ((env.given supplied limit).collectEntries down' ⟨root, element, active'⟩ node collected)
      fun w => Assembled.Fits (B.answers w) := by
  have hlater (w w' : World) (v v' : Occurrence) (h : B.later w w')
      (hv : Notes.Same w.1.notes w.2.notes v v') :
      Notes.Same w'.1.notes w'.2.notes v v' :=
    hv.later (B.notes h).1 (B.notes h).2
  apply Bond.Keeps.bind (walks_parameterValues hdown.supplied collected)
  intro f' g' vs vs' _ hvs
  rw [graph_given]
  split
  · refine Bond.Keeps.bind (Bond.Keeps.mapM
      (E := fun w => Argument.Fits (B.answers w) false)
      hlater (fun _ _ _ _ => stable_fits) ?_ hvs) ?_
    · intro f g v v' hv
      dsimp only
      rw [hv.source]
      exact walks_collectedValue hdown node hv
    · intro f'' g'' as bs _ h
      exact Bond.Keeps.pure (.values h)
  · next reference _ =>
      refine Bond.Keeps.bind (Bond.Keeps.mapM
        (E := fun w e e' => e.1 = e'.1 ∧ Argument.Fits (B.answers w) false e.2 e'.2)
        hlater ?_ ?_ hvs) ?_
      · intro w w' e e' h he
        exact ⟨he.1, stable_fits h he.2⟩
      · intro f g v v' hv
        dsimp only
        rw [hv.source]
        apply Bond.Keeps.bind (walks_collectedValue hdown node hv)
        intro f' g' a b _ hab
        apply Bond.Keeps.bind (walks_entryKey hdown.supplied reference)
        rintro f'' g'' key _ h rfl
        exact Bond.Keeps.pure ⟨rfl, stable_fits h hab⟩
      · intro f'' g'' es fs _ h
        exact Bond.Keeps.pure (.entries h)

/-!
# Definitions
-/

theorem keyedEntry_fits {P : Argument.Answers} {r r' : Resolved} (h : Resolved.Fits P r r')
    (key : String) : Argument.EntriesFit P false (keyedEntry key r) (keyedEntry key r') := by
  unfold keyedEntry
  rw [isEmpty_eq_of_forall₂ h.values]
  split
  · exact .nil
  · exact .cons ⟨rfl, h.collapse⟩ .nil

theorem walks_assembleKeyValue (hdown : B.Joins env.supplied supplied active active' down down')
    (node : NodeId) :
    B.Walks f g (env.assembleKeyValue down ⟨root, element, active⟩ node)
      ((env.given supplied limit).assembleKeyValue down' ⟨root, element, active'⟩ node)
      fun w => Assembled.Fits (B.answers w) := by
  unfold assembleKeyValue
  rw [graph_given, literalKey?_given, valueReference?_given, shapeFailure_given]
  split
  · exact walks_collectEntries hdown node _
  · apply Bond.Keeps.bind (Bond.walks_ofExcept (env.literalKey? node))
    rintro f' g' key _ _ rfl
    split
    · exact Bond.Keeps.throw
    · apply Bond.Keeps.bind (walks_referenceValues hdown _ _)
      intro f'' g'' r r' _ hr
      cases key with
      | none => exact Bond.Keeps.pure (.resolved hr)
      | some key => exact Bond.Keeps.pure (.entries (keyedEntry_fits hr key))

theorem walks_assembleShape (hdown : B.Joins env.supplied supplied active active' down down')
    (node : NodeId) :
    B.Walks f g (env.assembleShape down ⟨root, element, active⟩ node)
      ((env.given supplied limit).assembleShape down' ⟨root, element, active'⟩ node)
      fun w => Assembled.Fits (B.answers w) := by
  unfold assembleShape
  rw [graph_given]
  split
  · exact walks_assembleElements hdown node
  · exact walks_assembleFields hdown node
  · exact walks_assembleList hdown node
  · exact walks_assembleKeyValue hdown node

end Places

theorem resolves_resolveArguments {assemble assemble' : Place → NodeId → Walking Assembled}
    {active active' : List NodeId} {config : NodeId}
    (h : forall f g node, B.Walks f g (assemble ⟨config, config, active⟩ node)
      (assemble' ⟨config, config, active'⟩ node) fun w => Assembled.Fits (B.answers w))
    (component : Component) :
    B.Resolves s t (env.resolveArguments assemble active config component)
      ((env.given supplied limit).resolveArguments assemble' active' config component)
      fun w => List.Forall₂ (Argument.Fits (B.answers w) false) := by
  apply Bond.resolves_within
  apply Bond.Keeps.bind (Bond.walks_ofBinding _)
  intro f g _ _ _ _
  split
  · exact Bond.Keeps.pure .nil
  · apply Bond.Keeps.bind (h f g _)
    intro f' g' x y _ hxy
    exact Bond.Keeps.pure hxy.toPositional

end Environment
end Wiring
