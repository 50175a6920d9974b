import Wiring.Proofs.Resolution.Walk

/-!
# Habits

What holds of a session between two steps of a single walk, and what becomes of
it.  A habit is the bond of a walk with itself.
-/

namespace Wiring

/-- What holds of a session between two steps, what may become of it by steps that succeed and by
one that fails, and what is known of answers. -/
structure Habit where
  valid : Session -> Prop
  later : Session -> Session -> Prop
  falls : Session -> Session -> Prop
  answers : Session -> NodeId -> (unique lazy : Bool) -> Option InstanceId -> Prop
  refl {s : Session} : valid s -> later s s
  trans {s s' s'' : Session} : later s s' -> later s' s'' -> later s s''
  falls_refl {s : Session} : valid s -> falls s s
  falls_trans {s s' s'' : Session} : later s s' -> falls s' s'' -> falls s s''
  noted {s : Session} {n : Notes} : valid s -> Continues s.notes n ->
    valid { s with notes := n } ∧ later s { s with notes := n }
  notes {s s' : Session} : later s s' -> Continues s.notes s'.notes
  stable {s s' : Session} {config : NodeId} {unique lazy : Bool} {i : Option InstanceId} :
    later s s' -> answers s config unique lazy i -> answers s' config unique lazy i

namespace Habit

def bond (H : Habit) : Bond where
  excused _ := False
  valid w := w.1 = w.2 ∧ H.valid w.1
  later w w' := w.1 = w.2 ∧ w'.1 = w'.2 ∧ H.later w.1 w'.1
  falls w w' := w.1 = w.2 ∧ w'.1 = w'.2 ∧ H.falls w.1 w'.1
  answers w config unique lazy i j := i = j ∧ H.answers w.1 config unique lazy i
  refl h := ⟨h.1, h.1, H.refl h.2⟩
  trans h h' := ⟨h.1, h'.2.1, H.trans h.2.2 h'.2.2⟩
  falls_refl h := ⟨h.1, h.1, H.falls_refl h.2⟩
  falls_trans h h' := ⟨h.1, h'.2.1, H.falls_trans h.2.2 h'.2.2⟩
  noted := by
    rintro ⟨s, t⟩ n m ⟨hst, hvalid⟩ hn _ hsame
    dsimp only at hst
    subst hst
    obtain rfl := hsame rfl
    exact ⟨⟨rfl, (H.noted hvalid hn).1⟩, rfl, rfl, (H.noted hvalid hn).2⟩
  notes := by
    rintro ⟨s, t⟩ ⟨s', t'⟩ ⟨hst, hst', hlater⟩
    dsimp only at hst hst'
    subst hst hst'
    exact ⟨H.notes hlater, H.notes hlater⟩
  stable h h' := ⟨h'.1, H.stable h.2.2 h'.2⟩

def Knows (H : Habit) (s : Session) (a : Argument) : Prop :=
  Argument.Fits (H.bond.answers (s, s)) false a a

theorem Knows.answer {H : Habit} {s : Session} {a : Argument} (h : H.Knows s a) {withLazy : Bool}
    {id : InstanceId} (hid : id ∈ a.references withLazy) :
    exists config unique lazy, H.answers s config unique lazy (some id) ∧
      (lazy = true -> withLazy = true) := by
  rcases Argument.Fits.answer_of_mem_references h hid with
    ⟨config, unique, lazy, j, hknown, hlazy⟩
  exact ⟨config, unique, lazy, hknown.2, fun h => (hlazy h).resolve_left Bool.false_ne_true⟩

structure Follows (H : Habit) {α : Type} (s : Session) (x : Resolving α)
    (ends : Session -> α -> Prop) : Prop where
  ok {a : α} {s' : Session} : H.valid s -> outcome x s = (.ok a, s') ->
    H.valid s' ∧ H.later s s' ∧ ends s' a
  error {e : Failure} {s' : Session} : H.valid s -> outcome x s = (.error e, s') -> H.falls s s'

variable {H : Habit} {α : Type} {s : Session} {x : Resolving α}

theorem Follows.resolves {ends : Session -> α -> Prop} (h : H.Follows s x ends) :
    H.bond.Resolves s s x x fun w a b => a = b ∧ ends w.1 a := by
  rintro - ⟨-, hvalid⟩
  constructor
  · intro a s' hx
    rcases h.ok hvalid hx with ⟨hvalid', hlater, hends⟩
    exact ⟨a, s', hx, rfl, ⟨rfl, hvalid'⟩, ⟨rfl, rfl, hlater⟩, rfl, hends⟩
  · intro e s' hx
    exact Or.inr ⟨s', hx, rfl, rfl, h.error hvalid hx⟩

theorem follows_of_resolves {ends : World -> α -> α -> Prop}
    (h : H.bond.Resolves s s x x ends) : H.Follows s x fun s a => ends (s, s) a a := by
  constructor
  · intro a s' hvalid hx
    rcases (h rfl ⟨rfl, hvalid⟩).ok hx with ⟨b, t', hy, -, hvalid', hlater, hends⟩
    rw [hx] at hy
    cases hy
    exact ⟨hvalid'.2, hlater.2.2, hends⟩
  · intro e s' hvalid hx
    rcases (h rfl ⟨rfl, hvalid⟩).error hx with he | ⟨t', hy, hfalls⟩
    · exact he.elim
    · exact hfalls.2.2

theorem follows_of_outcome {ends : Session -> α -> Prop} {a : α} (hx : outcome x s = (.ok a, s))
    (h : H.valid s -> ends s a) : H.Follows s x ends := by
  constructor
  · intro b s' hvalid hx'
    rw [hx] at hx'
    cases hx'
    exact ⟨hvalid, H.refl hvalid, h hvalid⟩
  · intro e s' _ hx'
    rw [hx] at hx'
    cases hx'

theorem knows_of_resolves {x : Resolving (List Argument)}
    (h : H.bond.Resolves s s x x fun w =>
      List.Forall₂ (Argument.Fits (H.bond.answers w) false)) :
    H.Follows s x fun s resolved => forall a, a ∈ resolved -> H.Knows s a := by
  have hfollows := follows_of_resolves h
  refine ⟨fun hvalid hx => ?_, hfollows.error⟩
  rcases hfollows.ok hvalid hx with ⟨hvalid', hlater, hfits⟩
  exact ⟨hvalid', hlater, fun a ha => List.forall₂_same.mp hfits a ha⟩

section Walk

variable {κ : Type} {env : Environment} {S : Strategy} {H : κ -> Habit}
  {active : κ -> List NodeId}

/-- How a strategy answers follows a habit in every context, if arguments do that are resolved one
level deeper. -/
def StrategyFollows (env : Environment) (S : Strategy) (H : κ -> Habit)
    (active : κ -> List NodeId) : Prop :=
  forall levels,
    (forall k s config component,
      (H k).Follows s (env.argumentsBy S levels (active k) config component)
        fun s resolved => forall a, a ∈ resolved -> (H k).Knows s a) ->
    forall k s config unique lazy,
      (H k).Follows s (S (env.argumentsBy S levels) (active k) config unique lazy)
        fun s => (H k).answers s config unique lazy

theorem strategiesKeep (h : StrategyFollows env S H active) (bound : Nat) :
    Environment.StrategiesKeep env S S (fun k => (H k).bond) active active bound := by
  intro levels levels' hdeeper harguments k s t config unique lazy
  have heq : levels = levels' := hdeeper.2.2.resolve_right fun hexcused =>
    hexcused k (.endless "")
  subst heq
  intro hrest hvalid
  obtain rfl : s = t := hvalid.1
  refine (h levels ?_ k s config unique lazy).resolves hrest hvalid
  intro k s config component
  exact knows_of_resolves (harguments levels hdeeper k s s config component)

theorem follows_argumentsBy (h : StrategyFollows env S H active) (levels : Nat) (k : κ)
    (s : Session) (config : NodeId) (component : Component) :
    (H k).Follows s (env.argumentsBy S levels (active k) config component)
      fun s resolved => forall a, a ∈ resolved -> (H k).Knows s a :=
  knows_of_resolves ((Environment.assembles_and_fits (strategiesKeep h levels)
    ⟨Nat.le_refl levels, Nat.le_refl levels, Or.inl rfl⟩).2 k s s config component)

theorem follows_strategy (h : StrategyFollows env S H active) (levels : Nat) (k : κ)
    (s : Session) (config : NodeId) (unique lazy : Bool) :
    (H k).Follows s (S (env.argumentsBy S levels) (active k) config unique lazy)
      fun s => (H k).answers s config unique lazy :=
  h levels (follows_argumentsBy h levels) k s config unique lazy

/-- What it takes for resolution to follow a habit: what is known when a configuration is active,
when it is shared, and when it gets a new instance in a context of its own. -/
structure Steps (env : Environment) (H : κ -> Habit) (active : κ -> List NodeId) : Prop where
  ofActive {k : κ} {s : Session} {config : NodeId} {unique lazy : Bool} :
    config ∈ active k -> (H k).valid s ->
    (H k).answers s config unique lazy (if lazy then s.shared[config]? else none)
  ofShared {k : κ} {s : Session} {config : NodeId} {lazy : Bool} {id : InstanceId} :
    config ∉ active k -> (H k).valid s -> s.shared[config]? = some id ->
    (H k).answers s config false lazy (some id)
  ofNew {k : κ} {s : Session} {config : NodeId} {unique : Bool} {component : Component} :
    config ∉ active k -> (H k).valid s -> (unique = true ∨ s.shared[config]? = none) ->
    Component.forConfig env.graph config = .ok component ->
    exists k', active k' = config :: active k ∧
      (H k').valid (env.opened s config component unique) ∧
      (forall levels s' resolved,
        outcome (env.argumentsBy env.instantiateWith levels (config :: active k) config component)
          (env.opened s config component unique) = (.ok resolved, s') ->
        (H k').valid s' -> (H k').later (env.opened s config component unique) s' ->
        (forall a, a ∈ resolved -> (H k').Knows s' a) ->
        (H k).valid (s'.setArguments s.instances.size resolved) ∧
        (H k).later s (s'.setArguments s.instances.size resolved) ∧
        forall lazy, (H k).answers (s'.setArguments s.instances.size resolved) config unique lazy
          (some s.instances.size)) ∧
      forall levels e s',
        outcome (env.argumentsBy env.instantiateWith levels (config :: active k) config component)
          (env.opened s config component unique) = (.error e, s') ->
        (H k').falls (env.opened s config component unique) s' -> (H k).falls s s'

theorem strategyFollows_instantiateWith (h : Steps env H active) :
    StrategyFollows env env.instantiateWith H active := by
  intro levels harguments k s config unique lazy
  by_cases hactive : config ∈ active k
  · exact follows_of_outcome (Environment.outcome_instantiateWith_active hactive)
      (h.ofActive hactive)
  by_cases hnew : unique = true ∨ s.shared[config]? = none
  · constructor
    · intro i t hvalid hx
      rcases Environment.instantiateWith_new_ok hactive hnew hx with
        ⟨component, resolved, s', hcomponent, hinner, rfl, rfl⟩
      rcases h.ofNew hactive hvalid hnew hcomponent with ⟨k', hk', hvalid', hok, -⟩
      have hinner' := hinner
      rw [← hk'] at hinner'
      rcases (harguments k' _ config component).ok hvalid' hinner' with ⟨hvalid₁, hlater₁, hknown⟩
      rcases hok levels s' resolved hinner hvalid₁ hlater₁ hknown with
        ⟨hvalid₂, hlater₂, hanswer⟩
      exact ⟨hvalid₂, hlater₂, hanswer lazy⟩
    · intro e t hvalid hx
      rcases Environment.instantiateWith_new_error hactive hnew hx with
        ⟨-, rfl⟩ | ⟨component, hcomponent, hinner⟩
      · exact (H k).falls_refl hvalid
      · rcases h.ofNew hactive hvalid hnew hcomponent with ⟨k', hk', hvalid', -, hfall⟩
        have hinner' := hinner
        rw [← hk'] at hinner'
        exact hfall levels e t hinner ((harguments k' _ config component).error hvalid' hinner')
  · rw [not_or, Bool.not_eq_true] at hnew
    rcases hnew with ⟨rfl, hshared⟩
    rcases Option.ne_none_iff_exists'.mp hshared with ⟨id, hid⟩
    exact follows_of_outcome (Environment.outcome_instantiateWith_shared hactive hid)
      fun hvalid => h.ofShared hactive hvalid hid

theorem joins_descent (h : Steps env H active) (k : κ) :
    (H k).bond.Joins env.supplied env.supplied (active k) (active k) env.descent env.descent := by
  have hkeep := strategiesKeep (strategyFollows_instantiateWith h) env.depthLimit
  have hsame : Environment.Deeper (fun k => (H k).bond) env.depthLimit env.depthLimit
      env.depthLimit := ⟨Nat.le_refl _, Nat.le_refl _, Or.inl rfl⟩
  rw [Environment.descent_eq]
  refine ⟨.refl _ _, (Environment.assembles_and_fits hkeep hsame).1 k,
    fun s t config unique lazy => ?_⟩
  rw [Environment.descentBy_instantiate]
  exact Environment.resolves_strategies hkeep hsame k s t config unique lazy

theorem follows_within {c : Generics} {x : Walking α} {ends : World -> α -> α -> Prop}
    {H : Habit} (h : H.bond.Walks ⟨s, c⟩ ⟨s, c⟩ x x ends) :
    H.Follows s (Walking.within c x) fun s a => ends (s, s) a a :=
  follows_of_resolves (Bond.resolves_within h)

end Walk
end Habit
end Wiring
