import Wiring.Proofs.Resolution.Acyclicity
import Wiring.Proofs.Resolution.Balance

/-!
# Calls

A session can be asked for more than instances: for the values of a parameter, for
those behind a reference, and for what a definition is assembled to, each with
generic type parameters of the caller.  All of these calls keep their guard in
balance and the session in what it already holds.
-/

namespace Wiring

inductive Call where
  | request (request : Request)
  | values (generics : Generics) (root parameter element : NodeId)
  | reference (generics : Generics) (root reference element : NodeId) (raw : Bool)
  | arguments (generics : Generics) (root definition element : NodeId)

inductive Call.Answer where
  | instance (id : InstanceId)
  | values (values : List Occurrence)
  | resolved (r : Resolved)
  | assembled (x : Assembled)

namespace Environment

def perform (env : Environment) : Call → Resolving Call.Answer
  | .request request => .instance <$> env.answer request
  | .values generics root parameter element =>
    .values <$> Walking.within generics (env.parameterValues ⟨root, element, []⟩ parameter)
  | .reference generics root reference element raw =>
    .resolved <$> Walking.within generics
      (env.referenceValues env.descent ⟨root, element, []⟩ reference raw)
  | .arguments generics root definition element =>
    .assembled <$> Walking.within generics (env.descent.assemble ⟨root, element, []⟩ definition)

def performAll (env : Environment) (s : Session) :
    List Call → List (Except Failure Call.Answer) × Session
  | [] => ([], s)
  | call :: rest =>
    let (answer, s) := outcome (env.perform call) s
    let (answers, s) := env.performAll s rest
    (answer :: answers, s)

end Environment

namespace Guarded

variable (env : Environment) (violation : Failure) (levels : Nat)

def resolve (config : NodeId) : Guarded Session InstanceId := do
  match ← (walk env violation levels).instantiate config false false with
  | some id => return id
  | none => throw (.cyclicReference (env.graph.display config))

def resolveIri (iri : String) : Guarded Session InstanceId := do
  match env.graph.lookupNamed? iri with
  | some config => resolve env violation levels config
  | none => throw (.nodeNotFound iri)

def answer : Request → Guarded Session InstanceId
  | .config node => resolve env violation levels node
  | .iri text => resolveIri env violation levels text

def perform : Call → Guarded Session Call.Answer
  | .request request => .instance <$> answer env violation levels request
  | .values generics root parameter element =>
    .values <$> within generics (lift (env.parameterValues ⟨root, element, []⟩ parameter))
  | .reference generics root reference element raw =>
    .resolved <$> within generics
      (referenceValues env (walk env violation levels) root element reference raw)
  | .arguments generics root definition element =>
    .assembled <$> within generics ((walk env violation levels).assemble root element definition)

def performAll (s : Session × Guard) :
    List Call → List (Except Failure Call.Answer) × Session × Guard
  | [] => ([], s)
  | call :: rest =>
    let (answer, s) := outcome (perform env violation levels call) s
    let (answers, s) := performAll s rest
    (answer :: answers, s)

variable {env violation levels}

/-!
# Balance
-/

theorem walk_follows_idle (hlevels : env.depthLimit < levels) :
    (walk env violation levels).Follows .idle env.descent :=
  walk_follows env violation (Nat.zero_add env.depthLimit) hlevels

theorem follows_resolve (hlevels : env.depthLimit < levels) (config : NodeId) :
    Follows .idle (resolve env violation levels config) (env.resolve config) := by
  refine .bind ((walk_follows_idle hlevels).instantiate config false false) fun i => ?_
  cases i with
  | some id => exact .pure _
  | none => exact .throw _

theorem follows_resolveIri (hlevels : env.depthLimit < levels) (iri : String) :
    Follows .idle (resolveIri env violation levels iri) (env.resolveIri iri) := by
  unfold resolveIri Environment.resolveIri
  cases env.graph.lookupNamed? iri with
  | some config => exact follows_resolve hlevels config
  | none => exact .throw _

theorem follows_answer (hlevels : env.depthLimit < levels) (request : Request) :
    Follows .idle (answer env violation levels request) (env.answer request) := by
  cases request with
  | config node => exact follows_resolve hlevels node
  | iri text => exact follows_resolveIri hlevels text

theorem follows_perform (hlevels : env.depthLimit < levels) (call : Call) :
    Follows .idle (perform env violation levels call) (env.perform call) := by
  have hwalk : (walk env violation levels).Follows .idle env.descent := walk_follows_idle hlevels
  cases call with
  | request request => exact .map _ (follows_answer hlevels request)
  | values generics root parameter element => exact .map _ (.within (.lift _))
  | reference generics root reference element raw =>
      exact .map _ (.within (follows_referenceValues hwalk reference raw))
  | arguments generics root definition element =>
      exact .map _ (.within (hwalk.assemble root element definition))

theorem performAll_eq (hlevels : env.depthLimit < levels) (calls : List Call) (s : Session) :
    performAll env violation levels (s, .idle) calls =
      ((env.performAll s calls).1, (env.performAll s calls).2, .idle) := by
  induction calls generalizing s with
  | nil => rfl
  | cons call rest ih =>
      rw [performAll, follows_perform hlevels call s]
      dsimp only
      rw [ih]
      rfl

end Guarded

/-!
# What is in a session stays there
-/

structure Session.Kept (s t : Session) : Prop where
  instances {i : InstanceId} {x : Plan.Instance} :
    s.instances[i]? = some x -> t.instances[i]? = some x
  shared {config : NodeId} {id : InstanceId} :
    s.shared[config]? = some id -> t.shared[config]? = some id
  notes {i : Nat} {note : Note} : s.notes[i]? = some note -> t.notes[i]? = some note
  values {v : Occurrence} : (forall i, v.note = some i -> i < s.notes.size) ->
    t.notes.get v = s.notes.get v

theorem Session.Grows.kept_all {s t : Session} (h : s.Grows t) : s.Kept t where
  instances := h.instances.getElem?_some
  shared := h.kept
  notes := h.notes.getElem?_some
  values hv := Notes.get_of_continues h.notes hv

namespace Call.Answer

def ids : Call.Answer → List InstanceId
  | .instance id => [id]
  | .values _ => []
  | .resolved r => r.values.flatMap (·.references true)
  | .assembled x => x.toPositional.flatMap (·.references true)

def occurrences : Call.Answer → List Occurrence
  | .values vs => vs
  | _ => []

structure In (s : Session) (a : Call.Answer) : Prop where
  instances {id : InstanceId} : id ∈ a.ids -> id < s.instances.size
  notes {v : Occurrence} : v ∈ a.occurrences -> forall i, v.note = some i -> i < s.notes.size

theorem In.later {a : Call.Answer} {s t : Session} (h : a.In s) (hst : s.Grows t) : a.In t where
  instances hid := Nat.lt_of_lt_of_le (h.instances hid) hst.instances.size_le
  notes hv i hi := Nat.lt_of_lt_of_le (h.notes hv i hi) hst.notes.size_le

theorem in_of_references {a : Call.Answer} {as : List Argument} {s : Session}
    (hids : a.ids = as.flatMap (·.references true)) (hoccurrences : a.occurrences = [])
    (h : forall x, x ∈ as -> forall id, id ∈ x.references true -> id < s.instances.size) :
    a.In s where
  instances hid := by
    rw [hids, List.mem_flatMap] at hid
    rcases hid with ⟨x, hx, hid⟩
    exact h x hx _ hid
  notes hv := by
    rw [hoccurrences] at hv
    exact absurd hv List.not_mem_nil

end Call.Answer

namespace Environment

variable {env : Environment} {s t : Session}

theorem sound_of_follows {α : Type} (f : α -> Call.Answer) {x : Resolving α}
    {answer : Except Failure Call.Answer} {ends : Session -> α -> Prop}
    (hx : (Context.soundness ⟨[], []⟩).Follows s x ends)
    (hin : forall t a, ends t a -> (f a).In t) (hs : Context.Sound ⟨[], []⟩ s)
    (h : outcome (f <$> x) s = (answer, t)) :
    Context.Sound ⟨[], []⟩ t ∧ s.Grows t ∧ forall a, answer = .ok a -> a.In t := by
  rw [outcome_map] at h
  rcases hrun : outcome x s with ⟨e | a, t'⟩
  · rw [hrun] at h
    cases h
    rcases hx.error hs hrun with ⟨hgrows, hsound⟩
    exact ⟨hsound, hgrows, fun _ ha => nomatch ha⟩
  · rw [hrun] at h
    cases h
    rcases hx.ok hs hrun with ⟨hsound, hgrows, hends⟩
    refine ⟨hsound, hgrows, fun b hb => ?_⟩
    cases hb
    exact hin t a hends

theorem follows_answer (request : Request) :
    (Context.soundness ⟨[], []⟩).Follows s (env.answer request) fun t id =>
      id < t.instances.size := by
  constructor
  · intro id t hs hrun
    rcases answer_cases hrun with ⟨-, ⟨e, he⟩, -⟩ | ⟨config, -, hresolve⟩
    · cases he
    · rcases sound_resolve hs hresolve with ⟨hsound, hid⟩
      exact ⟨hsound, grows_resolve hresolve, hid id rfl⟩
  · intro e t hs hrun
    rcases answer_cases hrun with ⟨-, -, rfl⟩ | ⟨config, -, hresolve⟩
    · exact ⟨Session.Grows.refl t, hs⟩
    · exact ⟨grows_resolve hresolve, (sound_resolve hs hresolve).1⟩

theorem sound_perform {call : Call} {answer : Except Failure Call.Answer}
    (hs : Context.Sound ⟨[], []⟩ s) (h : outcome (env.perform call) s = (answer, t)) :
    Context.Sound ⟨[], []⟩ t ∧ s.Grows t ∧ forall a, answer = .ok a -> a.In t := by
  have hjoins := Habit.joins_descent (Context.soundness_steps env) ⟨[], []⟩
  have hknown {t : Session} {a : Argument} (ha : (Context.soundness ⟨[], []⟩).Knows t a)
      (id : InstanceId) (hid : id ∈ a.references true) : id < t.instances.size := by
    rcases ha.answer hid with ⟨_, _, _, hanswer, -⟩
    exact (hanswer id rfl).1
  cases call with
  | request request =>
      refine sound_of_follows .instance (follows_answer request) (fun t id hid => ?_) hs h
      exact ⟨fun hmem => List.mem_singleton.mp hmem ▸ hid, fun hv => absurd hv List.not_mem_nil⟩
  | values generics root parameter element =>
      have hvalues : (Context.soundness ⟨[], []⟩).bond.Walks ⟨s, generics⟩ ⟨s, generics⟩
          (env.parameterValues ⟨root, element, []⟩ parameter)
          ((env.given env.supplied env.depthLimit).parameterValues ⟨root, element, []⟩ parameter) _ :=
        walks_parameterValues (.refl _ _) parameter
      refine sound_of_follows .values (Habit.follows_within hvalues) (fun t vs hvs => ?_) hs h
      exact ⟨fun hid => absurd hid List.not_mem_nil, fun hv => (List.forall₂_same.mp hvs _ hv).left⟩
  | reference generics root reference element raw =>
      have hreference : (Context.soundness ⟨[], []⟩).bond.Walks ⟨s, generics⟩ ⟨s, generics⟩
          (env.referenceValues env.descent ⟨root, element, []⟩ reference raw)
          ((env.given env.supplied env.depthLimit).referenceValues env.descent ⟨root, element, []⟩
            reference raw) _ :=
        walks_referenceValues hjoins reference raw
      refine sound_of_follows .resolved (Habit.follows_within hreference) (fun t r hr => ?_)
        hs h
      exact Call.Answer.in_of_references rfl rfl fun a ha =>
        hknown (List.forall₂_same.mp hr.values a ha)
  | arguments generics root definition element =>
      refine sound_of_follows .assembled
        (Habit.follows_within (hjoins.assemble _ _ root element definition))
        (fun t x hx => ?_) hs h
      exact Call.Answer.in_of_references rfl rfl fun a ha =>
        hknown (List.forall₂_same.mp hx.toPositional a ha)

theorem sound_performAll (hs : Context.Sound ⟨[], []⟩ s) (calls : List Call) :
    Context.Sound ⟨[], []⟩ (env.performAll s calls).2 ∧ s.Grows (env.performAll s calls).2 ∧
      forall a, .ok a ∈ (env.performAll s calls).1 -> a.In (env.performAll s calls).2 := by
  induction calls generalizing s with
  | nil => exact ⟨hs, .refl s, fun _ ha => absurd ha List.not_mem_nil⟩
  | cons call rest ih =>
      rcases hcall : outcome (env.perform call) s with ⟨answer, t⟩
      rcases sound_perform hs hcall with ⟨ht, hst, hanswer⟩
      rcases ih ht with ⟨hend, hgrows, hrest⟩
      simp only [performAll, hcall]
      refine ⟨hend, hst.trans hgrows, fun a ha => ?_⟩
      rcases List.mem_cons.mp ha with heq | hmem
      · exact (hanswer a heq.symm).later hgrows
      · exact hrest a hmem

/-!
# Balanced calls
-/

/-- After any calls nothing is in progress and the walk is at no depth, whether they succeeded or
not, and so it is after each further call.  That call keeps all instances, shared instances and
notes, among them those of the answers before. -/
theorem calls_balanced (env : Environment) (violation : Failure) {levels : Nat}
    (hlevels : env.depthLimit < levels) (calls : List Call)
    {answers : List (Except Failure Call.Answer)} {s : Session} {k : Guard}
    (h : Guarded.performAll env violation levels (Session.empty, .idle) calls = (answers, s, k)) :
    k = .idle ∧ env.performAll Session.empty calls = (answers, s) ∧ s.Closed ∧
      (forall a, .ok a ∈ answers -> a.In s) ∧
      forall call answer t k',
        outcome (Guarded.perform env violation levels call) (s, k) = (answer, t, k') ->
          k' = .idle ∧ outcome (env.perform call) s = (answer, t) ∧ s.Kept t ∧
            forall a, answer = .ok a -> a.In t := by
  rw [Guarded.performAll_eq hlevels] at h
  rcases @sound_performAll env _ Context.sound_empty calls with ⟨hsound, -, hanswers⟩
  cases h
  refine ⟨rfl, rfl, hsound.closed, hanswers, fun call answer t k' hcall => ?_⟩
  rw [Guarded.follows_perform hlevels call] at hcall
  rcases hperform : outcome (env.perform call) (env.performAll Session.empty calls).2 with
    ⟨answer', t'⟩
  rw [hperform] at hcall
  cases hcall
  rcases sound_perform hsound hperform with ⟨-, hgrows, hanswer⟩
  exact ⟨rfl, rfl, hgrows.kept_all, hanswer⟩

/-- The couple with too small a limit for the arguments of both. -/
def shallow : Environment :=
  { couple with depthLimit := 2 }

theorem calls_balanced_shallow :
    exists answers s a t,
      Guarded.performAll shallow (.endless "") 3 (Session.empty, .idle)
        [.request (.iri "a"), .request (.iri "a")] = (answers, s, .idle) ∧
      answers.map (fun r => r.toOption.map Call.Answer.ids) = [none, some [0]] ∧
      outcome (Guarded.perform shallow (.endless "") 3 (.arguments ⟨[], []⟩ 4 2 4)) (s, .idle) =
        (.ok a, t, .idle) ∧ a.ids = [1] ∧ s.Kept t := by
  have hanswers : (Guarded.performAll shallow (.endless "") 3 (Session.empty, .idle)
      [.request (.iri "a"), .request (.iri "a")]).1.map
        (fun r => r.toOption.map Call.Answer.ids) = [none, some [0]] := by decide +kernel
  have hmore : (outcome (Guarded.perform shallow (.endless "") 3 (.arguments ⟨[], []⟩ 4 2 4))
      (Guarded.performAll shallow (.endless "") 3 (Session.empty, .idle)
        [.request (.iri "a"), .request (.iri "a")]).2).1.toOption.map Call.Answer.ids =
      some [1] := by decide +kernel
  rcases hall : Guarded.performAll shallow (.endless "") 3 (Session.empty, .idle)
    [.request (.iri "a"), .request (.iri "a")] with ⟨answers, s, k⟩
  rcases calls_balanced shallow (.endless "") (by decide) _ hall with ⟨rfl, -, -, -, hcall⟩
  rw [hall] at hanswers hmore
  rcases hrun : outcome (Guarded.perform shallow (.endless "") 3 (.arguments ⟨[], []⟩ 4 2 4))
    (s, .idle) with ⟨e | a, t, k'⟩
  · rw [hrun] at hmore
    cases hmore
  · rcases hcall _ _ _ _ hrun with ⟨rfl, -, hkept, -⟩
    rw [hrun] at hmore
    exact ⟨answers, s, a, t, rfl, hanswers, hrun, Option.some.inj hmore, hkept⟩

end Environment
end Wiring
