import Mathlib.Logic.Relation
import Wiring.Plan.Tree
import Wiring.Proofs.Plan.Construction
import Wiring.Proofs.Resolution.History

/-!
# References are closed and acyclic

While an instance waits for its arguments, only lazy arguments refer to it.  So
the references that a new instance gets lead away from it, and construction never
comes back to where it started.
-/

namespace Wiring
namespace Session

/-- An instance refers to another one, or to itself, outside lazy arguments. -/
def Mentions (s : Session) (i j : InstanceId) : Prop :=
  exists x, s.instances[i]? = some x ∧ exists a, a ∈ x.arguments ∧ j ∈ a.references false

def Closed (s : Session) : Prop :=
  forall (i : InstanceId) (x : Plan.Instance), s.instances[i]? = some x -> forall a, a ∈ x.arguments ->
    forall j, j ∈ a.references true -> j < s.instances.size

def Acyclic (s : Session) : Prop :=
  forall i, ¬ Relation.TransGen s.Mentions i i

/-!
# References of new instances
-/

theorem mentions_opened {env : Environment} {s : Session} {config : NodeId}
    {component : Component} {unique : Bool} :
    (env.opened s config component unique).Mentions = s.Mentions := by
  funext i j
  unfold Mentions
  rw [Environment.getElem?_opened]
  split
  · next hi =>
      subst hi
      simp
  · rfl

theorem mentions_setArguments {s : Session} {id : InstanceId} {resolved : List Argument}
    {i j : InstanceId} (h : (s.setArguments id resolved).Mentions i j) :
    (i = id ∧ exists a, a ∈ resolved ∧ j ∈ a.references false) ∨ (i ≠ id ∧ s.Mentions i j) := by
  rcases h with ⟨x, hx, a, ha, hj⟩
  rw [getElem?_setArguments] at hx
  split at hx
  · next hid =>
      rw [Option.map_eq_some_iff] at hx
      rcases hx with ⟨y, -, rfl⟩
      exact Or.inl ⟨hid.symm, a, ha, hj⟩
  · next hid => exact Or.inr ⟨fun h => hid h.symm, x, hx, a, ha, hj⟩

theorem closed_opened {env : Environment} {s : Session} {config : NodeId}
    {component : Component} {unique : Bool} (h : s.Closed) :
    (env.opened s config component unique).Closed := by
  intro i x hx a ha j hj
  rw [Environment.getElem?_opened] at hx
  rw [Environment.instances_opened, Array.size_push]
  split at hx
  · cases hx
    cases ha
  · exact Nat.lt_succ_of_lt (h i x hx a ha j hj)

theorem closed_setArguments {s : Session} {id : InstanceId} {resolved : List Argument}
    (h : s.Closed) (hresolved : forall a, a ∈ resolved -> forall j, j ∈ a.references true ->
      j < s.instances.size) : (s.setArguments id resolved).Closed := by
  intro i x hx a ha j hj
  rw [getElem?_setArguments] at hx
  rw [size_setArguments]
  split at hx
  · rw [Option.map_eq_some_iff] at hx
    rcases hx with ⟨y, -, rfl⟩
    exact hresolved a ha j hj
  · exact h i x hx a ha j hj

theorem acyclic_setArguments {s : Session} {id : InstanceId} {resolved : List Argument}
    (h : s.Acyclic) (hsource : forall i, ¬ (s.setArguments id resolved).Mentions i id) :
    (s.setArguments id resolved).Acyclic := by
  have htarget {i j : InstanceId}
      (hpath : Relation.TransGen (s.setArguments id resolved).Mentions i j) : j ≠ id := by
    rintro rfl
    cases hpath with
    | single hstep => exact hsource i hstep
    | tail _ hstep => exact hsource _ hstep
  have hold {i j : InstanceId}
      (hpath : Relation.TransGen (s.setArguments id resolved).Mentions i j) (hi : i ≠ id) :
      Relation.TransGen s.Mentions i j := by
    induction hpath with
    | single hstep =>
        exact .single ((mentions_setArguments hstep).resolve_left fun hnew => hi hnew.1).2
    | tail hpath hstep ih =>
        exact ih.tail
          ((mentions_setArguments hstep).resolve_left fun hnew => htarget hpath hnew.1).2
  intro i hloop
  exact h i (hold hloop (htarget hloop))

end Session

/-!
# The invariant
-/

/-- What holds of a session between two steps of a resolution. -/
structure Context.Sound (k : Context) (s : Session) : Prop where
  closed : s.Closed
  acyclic : s.Acyclic
  waiting {id : InstanceId} : id ∈ k.pending -> id < s.instances.size
  unmentioned {i j : InstanceId} : s.Mentions i j -> j ∉ k.pending
  inTable {config : NodeId} {id : InstanceId} :
    s.shared[config]? = some id -> id < s.instances.size
  settled {config : NodeId} {id : InstanceId} :
    s.shared[config]? = some id -> config ∉ k.active -> id ∉ k.pending

namespace Context

variable {k : Context} {s s' : Session}

theorem sound_empty : Sound ⟨[], []⟩ Session.empty where
  closed i x hx := by simp [Session.empty] at hx
  acyclic i hloop := by
    cases hloop with
    | single hstep =>
        rcases hstep with ⟨x, hx, -⟩
        simp [Session.empty] at hx
    | tail _ hstep =>
        rcases hstep with ⟨x, hx, -⟩
        simp [Session.empty] at hx
  waiting hid := absurd hid List.not_mem_nil
  unmentioned _ := List.not_mem_nil
  inTable hs := by simp [Session.empty] at hs
  settled _ _ := List.not_mem_nil

theorem Sound.noted {n : Notes} (h : k.Sound s) : k.Sound { s with notes := n } :=
  ⟨h.closed, h.acyclic, h.waiting, h.unmentioned, h.inTable, h.settled⟩

theorem Sound.opened {env : Environment} {config : NodeId} {component : Component}
    {unique : Bool} (h : k.Sound s) :
    (k.entered config s.instances.size).Sound (env.opened s config component unique) := by
  have hsize : (env.opened s config component unique).instances.size = s.instances.size + 1 :=
    Environment.size_opened
  constructor
  · exact Session.closed_opened h.closed
  · intro i hloop
    rw [Session.mentions_opened] at hloop
    exact h.acyclic i hloop
  · intro id hid
    rw [hsize]
    rcases List.mem_cons.mp hid with rfl | hid
    · exact Nat.lt_succ_self _
    · exact Nat.lt_succ_of_lt (h.waiting hid)
  · intro i j hmentions hj
    rw [Session.mentions_opened] at hmentions
    rcases List.mem_cons.mp hj with rfl | hj
    · rcases hmentions with ⟨x, hx, a, ha, hmem⟩
      exact Nat.lt_irrefl _ (h.closed i x hx a ha _ (Argument.references_subset a hmem))
    · exact h.unmentioned hmentions hj
  · intro c id hs
    rw [hsize]
    rw [Environment.shared_opened] at hs
    split at hs
    · cases hs
      exact Nat.lt_succ_self _
    · exact Nat.lt_succ_of_lt (h.inTable hs)
  · intro c id hs hc hid
    rw [Environment.shared_opened] at hs
    rw [entered, List.mem_cons, not_or] at hc
    rw [if_neg fun hnew => hc.1 hnew.2] at hs
    rcases List.mem_cons.mp hid with rfl | hid
    · exact Nat.lt_irrefl _ (h.inTable hs)
    · exact h.settled hs hc.2 hid

theorem Sound.leave {config : NodeId} (h : k.Sound s) (hgrows : s.Grows s')
    (h' : (k.entered config s.instances.size).Sound s') : k.Sound s' where
  closed := h'.closed
  acyclic := h'.acyclic
  waiting hid := h'.waiting (List.mem_cons_of_mem _ hid)
  unmentioned hmentions hj := h'.unmentioned hmentions (List.mem_cons_of_mem _ hj)
  inTable := h'.inTable
  settled {c id} hs hc hid := by
    rcases hgrows.fresh hs with hs | hnew
    · exact h.settled hs hc hid
    · exact absurd (h.waiting hid) (Nat.not_lt.mpr hnew.1)

theorem Sound.setArguments {id : InstanceId} {resolved : List Argument}
    (h : k.Sound s) (hunmentioned : forall i, ¬ s.Mentions i id)
    (hclosed : forall a, a ∈ resolved -> forall j, j ∈ a.references true -> j < s.instances.size)
    (hsettled : forall a, a ∈ resolved -> forall j, j ∈ a.references false ->
      j ≠ id ∧ j ∉ k.pending) :
    k.Sound (s.setArguments id resolved) where
  closed := Session.closed_setArguments h.closed hclosed
  acyclic := by
    apply Session.acyclic_setArguments h.acyclic
    intro i hmentions
    rcases Session.mentions_setArguments hmentions with ⟨-, a, ha, hj⟩ | ⟨-, hold⟩
    · exact (hsettled a ha id hj).1 rfl
    · exact hunmentioned i hold
  waiting hid := by
    rw [Session.size_setArguments]
    exact h.waiting hid
  unmentioned hmentions hj := by
    rcases Session.mentions_setArguments hmentions with ⟨-, a, ha, hj'⟩ | ⟨-, hold⟩
    · exact (hsettled a ha _ hj').2 hj
    · exact h.unmentioned hold hj
  inTable hs := by
    rw [Session.size_setArguments]
    exact h.inTable hs
  settled := h.settled

/-!
# Every step keeps it
-/

/-- An answer is an instance of the session; it waits for its arguments only if it was asked for
lazily. -/
def Answers (k : Context) (s : Session) (lazy : Bool) (answer : Option InstanceId) : Prop :=
  forall id, answer = some id -> id < s.instances.size ∧ (lazy = false -> id ∉ k.pending)

def soundness (k : Context) : Habit where
  valid := k.Sound
  later := Session.Grows
  falls s s' := s.Grows s' ∧ k.Sound s'
  answers s _ _ lazy i := k.Answers s lazy i
  refl _ := Session.Grows.refl _
  trans := Session.Grows.trans
  falls_refl h := ⟨Session.Grows.refl _, h⟩
  falls_trans h h' := ⟨h.trans h'.1, h'.2⟩
  noted h hn := ⟨h.noted, Session.Grows.noted hn⟩
  notes := Session.Grows.notes
  stable h ha id hid := ⟨Nat.lt_of_lt_of_le (ha id hid).1 h.instances.size_le, (ha id hid).2⟩

theorem soundness_steps (env : Environment) : Habit.Steps env soundness Context.active where
  ofActive {k s config unique lazy} hactive hsound id hid := by
    cases lazy with
    | false => cases hid
    | true => exact ⟨hsound.inTable hid, fun h => nomatch h⟩
  ofShared {k s config lazy id} hactive hsound hshared id' hid := by
    cases hid
    exact ⟨hsound.inTable hshared, fun _ => hsound.settled hshared hactive⟩
  ofNew {k s config unique component} hactive hsound hnew _ := by
    have hopened : s.Grows (env.opened s config component unique) :=
      Environment.grows_opened hnew
    refine ⟨k.entered config s.instances.size, rfl, hsound.opened, ?_, ?_⟩
    · intro _ s' resolved _ hsound' hgrows hknown
      have hleft : k.Sound s' := hsound.leave (hopened.trans hgrows) hsound'
      -- Nothing has mentioned the instance while it waited, so no cycle closes through it now.
      refine ⟨hleft.setArguments ?_ ?_ ?_, (hopened.trans hgrows).setArguments (Nat.le_refl _) _,
        ?_⟩
      · intro i hmentions
        exact hsound'.unmentioned hmentions List.mem_cons_self
      · intro a ha j hj
        rcases (hknown a ha).answer hj with ⟨_, _, _, hanswer, -⟩
        exact (hanswer j rfl).1
      · intro a ha j hj
        rcases (hknown a ha).answer hj with ⟨_, _, lazy, hanswer, hlazy⟩
        have hlazy' : lazy = false := by
          cases lazy with
          | false => rfl
          | true => exact absurd (hlazy rfl) Bool.false_ne_true
        have hpending := (hanswer j rfl).2 hlazy'
        rw [entered, List.mem_cons, not_or] at hpending
        exact hpending
      · intro lazy id hid
        cases hid
        rw [Session.size_setArguments]
        exact ⟨hsound'.waiting List.mem_cons_self, fun _ hwaits =>
          Nat.lt_irrefl _ (hsound.waiting hwaits)⟩
    · intro _ _ s' _ hfalls
      exact ⟨hopened.trans hfalls.1, hsound.leave (hopened.trans hfalls.1) hfalls.2⟩

theorem sound_instantiateWithin (env : Environment) (levels : Nat) (k : Context) {s t : Session}
    {config : NodeId} {unique lazy : Bool} {answer : Except Failure (Option InstanceId)}
    (h : k.Sound s)
    (hrun : outcome (env.instantiateWithin levels k.active config unique lazy) s = (answer, t)) :
    k.Sound t ∧ forall i, answer = .ok i -> k.Answers t lazy i := by
  have hfollows := Habit.follows_strategy
    (Habit.strategyFollows_instantiateWith (soundness_steps env)) levels k s config unique lazy
  rw [← Environment.instantiateWithin_eq] at hfollows
  cases answer with
  | ok i =>
      rcases hfollows.ok h hrun with ⟨hsound, -, hanswer⟩
      refine ⟨hsound, fun i' hi => ?_⟩
      cases hi
      exact hanswer
  | error e => exact ⟨(hfollows.error h hrun).2, fun i hi => nomatch hi⟩

end Context

namespace Environment

variable {env : Environment}

theorem sound_resolve {config : NodeId} {s t : Session} {answer : Except Failure InstanceId}
    (h : Context.Sound ⟨[], []⟩ s) (hrun : outcome (env.resolve config) s = (answer, t)) :
    Context.Sound ⟨[], []⟩ t ∧ forall id, answer = .ok id -> id < t.instances.size := by
  rcases resolve_cases hrun with ⟨id, hinner, rfl⟩ | ⟨hinner, rfl⟩ | ⟨e, hinner, rfl⟩
  · rcases Context.sound_instantiateWithin env env.depthLimit ⟨[], []⟩ h hinner with
      ⟨hsound, hanswer⟩
    refine ⟨hsound, fun id' hid => ?_⟩
    cases hid
    exact (hanswer _ rfl id rfl).1
  · exact ⟨(Context.sound_instantiateWithin env env.depthLimit ⟨[], []⟩ h hinner).1,
      fun id hid => nomatch hid⟩
  · exact ⟨(Context.sound_instantiateWithin env env.depthLimit ⟨[], []⟩ h hinner).1,
      fun id hid => nomatch hid⟩

/-- After any requests, whether they succeeded or not, all references lead to instances and none
leads back to where it started outside lazy arguments.  So every instance that was the answer to a
request is constructed by each builder that does not fail itself. -/
theorem history_closed_acyclic (env : Environment) (requests : List Request) :
    (env.history requests).2.Closed ∧ (env.history requests).2.Acyclic ∧
      forall id, .ok id ∈ (env.history requests).1 ->
        forall (σ ι : Type) (builder : Builder σ ι), Plan.NeverFails builder ->
          forall world, exists object world',
            outcome (((env.history requests).2.toPlan id).construct builder) world =
              (.ok object, world') := by
  rcases serve_induction (Context.Sound ⟨[], []⟩) (fun s id => id < s.instances.size)
    (fun _ _ _ hgrows hid => Nat.lt_of_lt_of_le hid hgrows.instances.size_le)
    (fun _ _ _ _ => sound_resolve) Context.sound_empty requests with ⟨hsound, hanswers⟩
  refine ⟨hsound.closed, hsound.acyclic, fun id hid σ ι builder hbuilder => ?_⟩
  exact Plan.succeeds_construct hsound.closed hsound.acyclic (hanswers id hid) hbuilder

def couple : Environment :=
  let (x, g) := Graph.empty.intern (.named "X")
  let (p, g) := g.intern (.named "p")
  let (arguments, g) := g.freshList [p]
  let g := (g.addType x Vocabulary.Oo.classType).addEdge x Vocabulary.Oo.constructorArguments
    arguments
  let (a, g) := g.intern (.named "a")
  let (b, g) := g.intern (.named "b")
  ⟨(((g.addType a "X").addType b "X").addNamed a "p" "b").addNamed b "p" "a", ∅, 16⟩

theorem history_closed_acyclic_couple :
    exists object world',
      outcome (((couple.history [.iri "a", .iri "none"]).2.toPlan 0).construct Plan.treeBuilder)
        () = (.ok object, world') := by
  have hanswers : (couple.history [.iri "a", .iri "none"]).1.map Except.toOption =
      [some 0, none] := by decide +kernel
  have hmem : .ok 0 ∈ (couple.history [.iri "a", .iri "none"]).1 := by
    have hfirst : some 0 ∈ (couple.history [.iri "a", .iri "none"]).1.map Except.toOption := by
      rw [hanswers]
      exact List.mem_cons_self
    rcases List.mem_map.mp hfirst with ⟨answer, hanswer, hsome⟩
    cases answer with
    | error e => cases hsome
    | ok id =>
        cases hsome
        exact hanswer
  exact (history_closed_acyclic couple [.iri "a", .iri "none"]).2.2 0 hmem Unit Json
    Plan.treeBuilder (fun _ _ world => ⟨_, world, rfl⟩) ()

end Environment
end Wiring
