import Wiring.Proofs.Resolution.History

/-!
# What failures leave behind

An instance is reserved, and shared, before its arguments are resolved.  If that
fails, the instance stays without arguments, and later requests for its
configuration are answered with it.
-/

namespace Wiring

/-- What a later session has in common with an earlier one, apart from arguments of instances. -/
structure Session.Precedes (s s' : Session) : Prop where
  notes : Continues s.notes s'.notes
  size_le : s.instances.size ≤ s'.instances.size
  kept {config : NodeId} {id : InstanceId} :
    s.shared[config]? = some id -> s'.shared[config]? = some id

theorem Session.Grows.precedes {s s' : Session} (h : s.Grows s') : s.Precedes s' :=
  ⟨h.notes, h.instances.size_le, h.kept⟩

theorem Session.Precedes.trans {s s' s'' : Session} (h : s.Precedes s') (h' : s'.Precedes s'') :
    s.Precedes s'' :=
  ⟨h.notes.trans h'.notes, Nat.le_trans h.size_le h'.size_le, fun hs => h'.kept (h.kept hs)⟩

theorem Session.precedes_setArguments (s : Session) (id : InstanceId)
    (resolved : List Argument) : s.Precedes (s.setArguments id resolved) :=
  ⟨Continues.refl _, Nat.le_of_eq (s.size_setArguments id resolved).symm, fun hs => hs⟩

namespace Environment

variable {env : Environment} {s s' : Session} {i : InstanceId}
  {answer : Except Failure (List Argument)}

/-- Resolving the arguments of an instance ended with the answer, which is what the instance was
given; if it failed, the instance has no arguments. -/
def Ended (env : Environment) (s : Session) (i : InstanceId)
    (answer : Except Failure (List Argument)) : Prop :=
  exists levels active config component unique s₀ s₁,
    Component.forConfig env.graph config = .ok component ∧ s₀.instances.size = i ∧
    outcome (env.argumentsBy env.instantiateWith levels (config :: active) config component)
      (env.opened s₀ config component unique) = (answer, s₁) ∧
    s₁.Precedes s ∧
    s.instances[i]? =
      some ⟨env.graph.display config, component.id, answer.toOption.getD []⟩

theorem Ended.later (h : env.Ended s i answer) (hs : s.Precedes s')
    (hi : s'.instances[i]? = s.instances[i]?) : env.Ended s' i answer := by
  rcases h with ⟨levels, active, config, component, unique, s₀, s₁, hcomponent, hsize, hrun,
    hprecedes, hinstance⟩
  exact ⟨levels, active, config, component, unique, s₀, s₁, hcomponent, hsize, hrun,
    hprecedes.trans hs, hi.trans hinstance⟩

theorem Ended.grows (h : env.Ended s i answer) (hs : s.Grows s') : env.Ended s' i answer := by
  have hi : i < s.instances.size := by
    rcases h with ⟨_, _, _, _, _, _, _, -, -, -, -, hinstance⟩
    exact (Array.getElem?_eq_some_iff.mp hinstance).1
  exact h.later hs.precedes (hs.instances.getElem? hi)

/-!
# Every instance is accounted for
-/

/-- All instances but the pending ones have ended, and if `failures` is false, successfully. -/
def Accounted (env : Environment) (failures : Prop) (pending : List InstanceId) (s : Session) :
    Prop :=
  forall i, i < s.instances.size -> i ∉ pending ->
    (exists resolved, env.Ended s i (.ok resolved)) ∨
      (failures ∧ exists e, env.Ended s i (.error e))

theorem Accounted.weaken {failures failures' : Prop} {pending : List InstanceId}
    (h : env.Accounted failures pending s) (himp : failures -> failures') :
    env.Accounted failures' pending s :=
  fun i hi hpending => (h i hi hpending).imp_right (And.imp_left himp)

theorem Accounted.grows {failures : Prop} {pending pending' : List InstanceId}
    (h : env.Accounted failures pending s) (hgrows : s.Grows s')
    (hold : forall i, i < s'.instances.size -> i ∉ pending' ->
      i < s.instances.size ∧ i ∉ pending) : env.Accounted failures pending' s' := by
  intro i hi hpending
  rcases hold i hi hpending with ⟨hi', hpending'⟩
  rcases h i hi' hpending' with ⟨resolved, hended⟩ | ⟨hfailures, e, hended⟩
  · exact Or.inl ⟨resolved, hended.grows hgrows⟩
  · exact Or.inr ⟨hfailures, e, hended.grows hgrows⟩

theorem Accounted.noted {failures : Prop} {pending : List InstanceId} {n : Notes}
    (h : env.Accounted failures pending s) (hn : Continues s.notes n) :
    env.Accounted failures pending { s with notes := n } :=
  h.grows (Session.Grows.noted hn) fun _ hi hpending => ⟨hi, hpending⟩

theorem Accounted.opened {failures : Prop} {pending : List InstanceId} {config : NodeId}
    {component : Component} {unique : Bool} (h : env.Accounted failures pending s)
    (hnew : unique = true ∨ s.shared[config]? = none) :
    env.Accounted failures (s.instances.size :: pending)
      (env.opened s config component unique) := by
  apply h.grows (grows_opened hnew)
  intro i hi hpending
  rw [List.mem_cons, not_or] at hpending
  rw [size_opened] at hi
  exact ⟨by omega, hpending.2⟩

theorem Accounted.setArguments {failures : Prop} {pending : List InstanceId} {id : InstanceId}
    {resolved : List Argument} (h : env.Accounted failures (id :: pending) s)
    (hid : env.Ended (s.setArguments id resolved) id (.ok resolved)) :
    env.Accounted failures pending (s.setArguments id resolved) := by
  intro i hi hpending
  rw [Session.size_setArguments] at hi
  by_cases heq : i = id
  · subst heq
    exact Or.inl ⟨resolved, hid⟩
  · have hsame : (s.setArguments id resolved).instances[i]? = s.instances[i]? := by
      rw [Session.getElem?_setArguments, if_neg fun h => heq h.symm]
    have hprecedes := s.precedes_setArguments id resolved
    have hpending' : i ∉ id :: pending := by
      rw [List.mem_cons, not_or]
      exact ⟨heq, hpending⟩
    rcases h i hi hpending' with ⟨args, hended⟩ | ⟨hfailures, e, hended⟩
    · exact Or.inl ⟨args, hended.later hprecedes hsame⟩
    · exact Or.inr ⟨hfailures, e, hended.later hprecedes hsame⟩

theorem Accounted.giveUp {pending : List InstanceId} {id : InstanceId} {e : Failure}
    (h : env.Accounted True (id :: pending) s) (hid : env.Ended s id (.error e)) :
    env.Accounted True pending s := by
  intro i hi hpending
  by_cases heq : i = id
  · subst heq
    exact Or.inr ⟨trivial, e, hid⟩
  · apply h i hi
    rw [List.mem_cons, not_or]
    exact ⟨heq, hpending⟩

def SharesComponents (env : Environment) (s : Session) : Prop :=
  forall config id, s.shared[config]? = some id -> Component.ofConfig? env.graph config ≠ none

theorem forConfig_ok {config : NodeId} {component : Component}
    (h : Component.forConfig env.graph config = .ok component) :
    Component.ofConfig? env.graph config ≠ none := by
  intro hnone
  rw [Component.forConfig, hnone] at h
  cases h

theorem forConfig_of_ofConfig? {config : NodeId}
    (h : Component.ofConfig? env.graph config ≠ none) :
    exists component, Component.forConfig env.graph config = .ok component := by
  rcases Option.ne_none_iff_exists'.mp h with ⟨node, hnode⟩
  have hkind : Component.isComponent env.graph node = true := by
    unfold Component.ofConfig? at hnode
    exact List.find?_some hnode
  rcases Option.isSome_iff_exists.mp hkind with ⟨kind, hkind⟩
  unfold Component.forConfig Component.load
  rw [hnode]
  dsimp only
  rw [hkind]
  exact ⟨_, rfl⟩

theorem SharesComponents.opened {config : NodeId} {component : Component} {unique : Bool}
    (h : env.SharesComponents s)
    (hcomponent : Component.forConfig env.graph config = .ok component) :
    env.SharesComponents (env.opened s config component unique) := by
  intro c id hs
  rw [shared_opened] at hs
  split at hs
  · next hnew =>
      rw [hnew.2]
      exact forConfig_ok hcomponent
  · exact h c id hs

def accounting (env : Environment) (failures : Prop) (k : Context) : Habit where
  valid s := env.Accounted failures k.pending s ∧ env.SharesComponents s
  later := Session.Grows
  falls s s' := s.Grows s' ∧ env.Accounted True k.pending s' ∧ env.SharesComponents s'
  answers _ _ _ _ _ := True
  refl _ := Session.Grows.refl _
  trans := Session.Grows.trans
  falls_refl h := ⟨Session.Grows.refl _, h.1.weaken fun _ => trivial, h.2⟩
  falls_trans h h' := ⟨h.trans h'.1, h'.2⟩
  noted h hn := ⟨⟨h.1.noted hn, h.2⟩, Session.Grows.noted hn⟩
  notes := Session.Grows.notes
  stable _ _ := trivial

theorem accounting_steps (env : Environment) (failures : Prop) :
    Habit.Steps env (env.accounting failures) Context.active where
  ofActive _ _ := trivial
  ofShared _ _ _ := trivial
  ofNew {k s config unique component} _ hvalid hnew hcomponent := by
    have hopened : s.Grows (env.opened s config component unique) := grows_opened hnew
    refine ⟨k.entered config s.instances.size, rfl,
      ⟨hvalid.1.opened hnew, hvalid.2.opened hcomponent⟩, ?_, ?_⟩
    · intro levels s' resolved hrun hvalid' hgrows _
      refine ⟨⟨hvalid'.1.setArguments ?_, hvalid'.2⟩,
        (hopened.trans hgrows).setArguments (Nat.le_refl _) _, fun _ => trivial⟩
      refine ⟨levels, k.active, config, component, unique, s, s', hcomponent, rfl, hrun,
        s'.precedes_setArguments _ _, ?_⟩
      rw [Session.getElem?_setArguments, if_pos rfl, getElem?_reserved hgrows]
      rfl
    · intro levels e s' hrun hfalls
      refine ⟨hopened.trans hfalls.1, hfalls.2.1.giveUp (e := e) ?_, hfalls.2.2⟩
      exact ⟨levels, k.active, config, component, unique, s, s', hcomponent, rfl, hrun,
        (Session.Grows.refl s').precedes, getElem?_reserved hfalls.1⟩

/-!
# Requests that fail
-/

theorem accounted_resolve {failures : Prop} {config : NodeId} {t : Session}
    {answer : Except Failure InstanceId} (h : env.Accounted failures [] s)
    (hshares : env.SharesComponents s) (hrun : outcome (env.resolve config) s = (answer, t)) :
    env.SharesComponents t ∧ env.Accounted True [] t ∧
      ((exists id, answer = .ok id) -> env.Accounted failures [] t) := by
  have hfollows := Habit.follows_strategy
    (Habit.strategyFollows_instantiateWith (accounting_steps env failures)) env.depthLimit ⟨[], []⟩
    s config false false
  rw [← instantiateWithin_eq] at hfollows
  rcases resolve_cases hrun with ⟨id, hinner, rfl⟩ | ⟨hinner, rfl⟩ | ⟨e, hinner, rfl⟩
  · have hvalid := (hfollows.ok ⟨h, hshares⟩ hinner).1
    exact ⟨hvalid.2, hvalid.1.weaken fun _ => trivial, fun _ => hvalid.1⟩
  · have hvalid := (hfollows.ok ⟨h, hshares⟩ hinner).1
    exact ⟨hvalid.2, hvalid.1.weaken fun _ => trivial, fun hok => nomatch hok⟩
  · have hfalls := hfollows.error ⟨h, hshares⟩ hinner
    exact ⟨hfalls.2.2, hfalls.2.1, fun hok => nomatch hok⟩

theorem resolve_shared {config : NodeId} {id : InstanceId}
    (h : s.shared[config]? = some id) : outcome (env.resolve config) s = (.ok id, s) := by
  rw [outcome_resolve, instantiateWithin_eq,
    outcome_instantiateWith_shared List.not_mem_nil h]

theorem resolve_error {config : NodeId} {e : Failure} {t : Session}
    (h : outcome (env.resolve config) s = (.error e, t)) :
    s.shared[config]? = none ∧
      ((Component.ofConfig? env.graph config = none ∧ t = s) ∨
        exists component, Component.forConfig env.graph config = .ok component ∧
          outcome (env.argumentsBy env.instantiateWith env.depthLimit [config] config component)
            (env.opened s config component false) = (.error e, t)) := by
  have hnone : s.shared[config]? = none := by
    cases hshared : s.shared[config]? with
    | none => rfl
    | some id =>
        rw [resolve_shared hshared] at h
        cases h
  refine ⟨hnone, ?_⟩
  rcases resolve_cases h with ⟨id, -, hid⟩ | ⟨hinner, -⟩ | ⟨e', hinner, heq⟩
  · cases hid
  · rw [instantiateWithin_eq] at hinner
    rcases instantiateWith_new_ok List.not_mem_nil (Or.inr hnone) hinner with
      ⟨_, _, _, -, -, hsome, -⟩
    cases hsome
  · cases heq
    rw [instantiateWithin_eq] at hinner
    rcases instantiateWith_new_error List.not_mem_nil (Or.inr hnone) hinner with
      ⟨hcomponent, rfl⟩ | ⟨component, hcomponent, hrun⟩
    · refine Or.inl ⟨?_, rfl⟩
      by_contra hne
      rcases forConfig_of_ofConfig? hne with ⟨component, hok⟩
      rw [hok] at hcomponent
      cases hcomponent
    · exact Or.inr ⟨component, hcomponent, hrun⟩

theorem resolve_of_no_component {config : NodeId} (hshares : env.SharesComponents s)
    (h : Component.ofConfig? env.graph config = none) :
    exists e, outcome (env.resolve config) s = (.error e, s) := by
  have hnone : s.shared[config]? = none := by
    cases hshared : s.shared[config]? with
    | none => rfl
    | some id => exact absurd h (hshares config id hshared)
  refine ⟨.notAComponent (env.graph.display config), ?_⟩
  rw [outcome_resolve, instantiateWithin_eq,
    outcome_instantiateWith_new List.not_mem_nil (Or.inr hnone), Component.forConfig, h]

theorem accounted_empty (failures : Prop) :
    env.Accounted failures [] Session.empty ∧ env.SharesComponents Session.empty := by
  constructor
  · intro i hi
    exact absurd hi (Nat.not_lt_zero i)
  · intro config id hs
    simp [Session.empty] at hs

theorem accounted_serve (requests : List Request) (h : env.Accounted False [] s)
    (hshares : env.SharesComponents s)
    (hfailures : forall request e config,
      (request, .error e) ∈ requests.zip (env.serve s requests).1 ->
      request.config? env.graph = some config -> Component.ofConfig? env.graph config = none) :
    env.Accounted False [] (env.serve s requests).2 := by
  induction requests generalizing s with
  | nil => exact h
  | cons request rest ih =>
      rcases hanswer : outcome (env.answer request) s with ⟨answer, t⟩
      simp only [serve, hanswer, List.zip_cons_cons] at hfailures ⊢
      have hrest := fun request' e config hmem =>
        hfailures request' e config (List.mem_cons_of_mem _ hmem)
      rcases answer_cases hanswer with ⟨-, -, rfl⟩ | ⟨config, hconfig, hresolve⟩
      · exact ih h hshares hrest
      · rcases accounted_resolve h hshares hresolve with ⟨hshares', -, hok⟩
        cases answer with
        | ok id => exact ih (hok ⟨id, rfl⟩) hshares' hrest
        | error e =>
            have hnone := hfailures request e config List.mem_cons_self hconfig
            rcases resolve_of_no_component hshares hnone with ⟨e', hsame⟩
            rw [hresolve] at hsame
            cases hsame
            exact ih h hshares hrest

theorem sharesComponents_serve (requests : List Request) (h : env.Accounted True [] s)
    (hshares : env.SharesComponents s) :
    env.Accounted True [] (env.serve s requests).2 ∧
      env.SharesComponents (env.serve s requests).2 :=
  (serve_induction (fun s => env.Accounted True [] s ∧ env.SharesComponents s)
    (fun _ _ => True) (fun _ _ _ _ _ => trivial)
    (fun _ _ _ _ hvalid hrun => by
      rcases accounted_resolve hvalid.1 hvalid.2 hrun with ⟨hshares', hall, -⟩
      exact ⟨⟨hall, hshares'⟩, fun _ _ => trivial⟩) ⟨h, hshares⟩ requests).1

theorem resolve_after_failure (hall : env.Accounted True [] s) (hshares : env.SharesComponents s)
    {config : NodeId} {e : Failure} {t : Session}
    (hfail : outcome (env.resolve config) s = (.error e, t)) (later : List Request) :
    (Component.ofConfig? env.graph config = none ->
      exists e', (outcome (env.resolve config) (env.serve t later).2).1 = .error e') ∧
    (Component.ofConfig? env.graph config ≠ none ->
      outcome (env.resolve config) (env.serve t later).2 =
        (.ok s.instances.size, (env.serve t later).2) ∧
      env.Ended (env.serve t later).2 s.instances.size (.error e)) := by
  rcases accounted_resolve hall hshares hfail with ⟨hshares', hall', -⟩
  rcases sharesComponents_serve later hall' hshares' with ⟨-, hshares''⟩
  have hlater : t.Grows (env.serve t later).2 := grows_serve t later
  constructor
  · intro hnone
    rcases resolve_of_no_component hshares'' hnone with ⟨e', hrun⟩
    exact ⟨e', by rw [hrun]⟩
  · intro hsome
    rcases resolve_error hfail with ⟨hnew, ⟨hnone, -⟩ | ⟨component, hcomponent, hrun⟩⟩
    · exact absurd hnone hsome
    · have hgrows := grows_argumentsBy env.depthLimit hrun
      have hshared : (env.opened s config component false).shared[config]? =
          some s.instances.size := by
        rw [shared_opened, if_pos ⟨rfl, rfl⟩]
      refine ⟨resolve_shared (hlater.kept (hgrows.kept hshared)), Ended.grows ?_ hlater⟩
      exact ⟨env.depthLimit, [], config, component, false, _, t, hcomponent, rfl, hrun,
        (Session.Grows.refl t).precedes, getElem?_reserved hgrows⟩

/-- Every instance that requests leave has its arguments from a run that succeeded, or has none
because its run failed; only the former as long as the requests that failed were for configurations
without a component.  A request for such a configuration fails forever.  Any other configuration
whose request failed has been shared on the way, and is answered from then on with the instance
whose run failed. -/
theorem history_ended (env : Environment) (requests : List Request) :
    (forall i, i < (env.history requests).2.instances.size ->
      exists answer, env.Ended (env.history requests).2 i answer) ∧
    ((forall request e config, (request, .error e) ∈ requests.zip (env.history requests).1 ->
        request.config? env.graph = some config ->
        Component.ofConfig? env.graph config = none) ->
      forall i, i < (env.history requests).2.instances.size ->
        exists resolved, env.Ended (env.history requests).2 i (.ok resolved)) ∧
    forall config e t, outcome (env.resolve config) (env.history requests).2 = (.error e, t) ->
      forall later,
        (Component.ofConfig? env.graph config = none ->
          exists e', (outcome (env.resolve config) (env.serve t later).2).1 = .error e') ∧
        (Component.ofConfig? env.graph config ≠ none ->
          outcome (env.resolve config) (env.serve t later).2 =
            (.ok (env.history requests).2.instances.size, (env.serve t later).2) ∧
          env.Ended (env.serve t later).2 (env.history requests).2.instances.size (.error e)) := by
  rcases sharesComponents_serve requests (accounted_empty True).1 (accounted_empty True).2 with
    ⟨hall, hshares⟩
  refine ⟨fun i hi => ?_, fun hfailures i hi => ?_, fun config e t hfail later => ?_⟩
  · rcases hall i hi List.not_mem_nil with ⟨resolved, hended⟩ | ⟨-, e, hended⟩
    · exact ⟨_, hended⟩
    · exact ⟨_, hended⟩
  · have hdone := accounted_serve requests (accounted_empty False).1 (accounted_empty False).2
      hfailures
    rcases hdone i hi List.not_mem_nil with hended | ⟨hfalse, -⟩
    · exact hended
    · exact hfalse.elim
  · exact resolve_after_failure hall hshares hfail later

def needy : Environment :=
  let (x, g) := Graph.empty.intern (.named "X")
  let (p, g) := g.intern (.named "p")
  let (arguments, g) := g.freshList [p]
  let (yes, g) := g.intern (.literal (.typed "true" Vocabulary.Xsd.boolean))
  let (c, g) := g.intern (.named "c")
  let g := (g.addType x Vocabulary.Oo.classType).addEdge x Vocabulary.Oo.constructorArguments
    arguments
  ⟨(g.addEdge p Vocabulary.Oo.required yes).addType c "X", ∅, 16⟩

theorem resolve_needy : exists e t,
    outcome (needy.resolve 4) (needy.history []).2 = (.error e, t) ∧
    (forall limit node, e ≠ .depthExceeded limit node) ∧
    Component.ofConfig? needy.graph 4 ≠ none := by
  have hkind : (match (outcome (needy.resolve 4) (needy.history []).2).1 with
      | .error (.missingValue _ _) => true
      | _ => false) = true := by decide +kernel
  have hcomponent : (Component.ofConfig? needy.graph 4).isSome = true := by decide +kernel
  rcases hrun : outcome (needy.resolve 4) (needy.history []).2 with ⟨e | id, t⟩
  · refine ⟨e, t, rfl, ?_, fun hnone => ?_⟩
    · rintro limit node rfl
      rw [hrun] at hkind
      cases hkind
    · rw [hnone] at hcomponent
      cases hcomponent
  · rw [hrun] at hkind
    cases hkind

theorem history_ended_needy : exists e t,
    outcome (needy.resolve 4) (needy.history []).2 = (.error e, t) ∧
    outcome (needy.resolve 4) t = (.ok 0, t) ∧ needy.Ended t 0 (.error e) := by
  rcases resolve_needy with ⟨e, t, hrun, -, hcomponent⟩
  have hagain := ((history_ended needy []).2.2 4 e t hrun []).2 hcomponent
  have hsize : (needy.history []).2.instances.size = 0 := rfl
  have hserve : (needy.serve t []).2 = t := rfl
  rw [hsize, hserve] at hagain
  exact ⟨e, t, hrun, hagain⟩

/-- A request may be answered although it has failed before for another reason than its depth. -/
theorem not_resolve_fails_again :
    ¬ forall (env : Environment) requests config e t,
      outcome (env.resolve config) (env.history requests).2 = (.error e, t) ->
      (forall limit node, e ≠ .depthExceeded limit node) ->
      forall later, exists e', (outcome (env.resolve config) (env.serve t later).2).1 = .error e' := by
  intro hclaim
  rcases resolve_needy with ⟨e, t, hrun, hdepth, hsome⟩
  rcases hclaim needy [] 4 e t hrun hdepth [] with ⟨e', hagain⟩
  have hempty := needy.accounted_empty True
  rw [((resolve_after_failure hempty.1 hempty.2 hrun []).2 hsome).1] at hagain
  cases hagain

end Environment
end Wiring
