import Wiring.Proofs.Parameter.Uniqueness
import Wiring.Proofs.Resolution.Identity

/-!
# Reserved instances

While a configuration is being resolved, an instance is reserved for it.  A lazy
reference gets that instance if it is shared.  If it is not, the reference gets
the one that the configuration shares with others, or none.
-/

namespace Wiring

structure Pending where
  config : NodeId
  id : InstanceId
  unique : Bool

abbrev PendingRule :=
  (stack : List Pending) → (config : NodeId) → (unique lazy : Bool) → (before : Session) →
    (answer : Option InstanceId) → Prop

/-- A new instance is the one that has been reserved.  A lazy reference to a pending configuration
gets the reserved instance, if it is shared; otherwise it gets what the configuration shares
with others, if anything, and never the reserved instance. -/
def Reserved : PendingRule := fun stack config unique lazy before answer =>
  (config ∉ stack.map Pending.config -> unique = true ∨ before.shared[config]? = none ->
    answer = some before.instances.size) ∧
  forall p, p ∈ stack -> p.config = config -> lazy = true ->
    if p.unique then answer = before.shared[config]? ∧ answer ≠ some p.id else answer = some p.id

/-- A lazy reference to a pending configuration gets the reserved instance. -/
def Promised : PendingRule := fun stack config _ lazy _ answer =>
  forall p, p ∈ stack -> p.config = config -> lazy = true -> answer = some p.id

instance (stack : List Pending) (config : NodeId) (unique lazy : Bool) (before : Session)
    (answer : Option InstanceId) : Decidable (Reserved stack config unique lazy before answer) :=
  inferInstanceAs (Decidable (_ ∧ _))

instance (stack : List Pending) (config : NodeId) (unique lazy : Bool) (before : Session)
    (answer : Option InstanceId) : Decidable (Promised stack config unique lazy before answer) :=
  inferInstanceAs (Decidable (forall p, p ∈ stack -> _))

namespace Environment

/-!
# Tracked walks
-/

section Tracking

variable (env : Environment) (rule : PendingRule)
  [forall stack config unique lazy before answer,
    Decidable (rule stack config unique lazy before answer)]
  (violation : Failure)

/-- Answers as usual, but fails if an answer breaks the rule.  A new instance is pending while its
arguments are resolved. -/
def trackedWith
    (arguments : List Pending → List NodeId → NodeId → Component → Resolving (List Argument))
    (stack : List Pending) (active : List NodeId) (config : NodeId) (unique lazy : Bool) :
    Resolving (Option InstanceId) := do
  let before ← get
  let pending := ⟨config, before.instances.size, unique⟩
  let answer ← env.instantiateWith (arguments (pending :: stack)) active config unique lazy
  if rule stack config unique lazy before answer then return answer else throw violation

def tracked : (levels : Nat) → List Pending → Descent
  | 0, stack =>
    ⟨fun _ node => throw (env.depthFailure node),
      env.trackedWith rule violation (fun _ _ config _ => throw (env.depthFailure config)) stack⟩
  | levels + 1, stack =>
    ⟨env.assembleShape (tracked levels stack),
      env.trackedWith rule violation
        (fun stack => env.resolveArguments (tracked levels stack).assemble) stack⟩

def resolveTracked (config : NodeId) : Resolving InstanceId := do
  match ← (env.tracked rule violation env.depthLimit []).instantiate [] config false false with
  | some id => return id
  | none => throw (.cyclicReference (env.graph.display config))

def trackedArguments :
    (levels : Nat) → List Pending → List NodeId → NodeId → Component → Resolving (List Argument)
  | 0, _ => fun _ config _ => throw (env.depthFailure config)
  | levels + 1, stack => env.resolveArguments (env.tracked rule violation levels stack).assemble

theorem tracked_instantiate (levels : Nat) (stack : List Pending) :
    (env.tracked rule violation levels stack).instantiate =
      env.trackedWith rule violation (env.trackedArguments rule violation levels) stack := by
  cases levels <;> rfl

end Tracking

/-!
# What is pending
-/

end Environment

def Pending.Holds (p : Pending) (s : Session) : Prop :=
  p.id < s.instances.size ∧
    if p.unique then s.Unshared p.id else s.shared[p.config]? = some p.id

theorem Pending.Holds.later {p : Pending} {s t : Session} (h : p.Holds s) (hgrows : s.Grows t) :
    p.Holds t := by
  refine ⟨Nat.lt_of_lt_of_le h.1 hgrows.instances.size_le, ?_⟩
  have hshares := h.2
  split
  · next hunique =>
      rw [if_pos hunique] at hshares
      exact Session.Unshared.later hshares h.1 hgrows
  · next hunique =>
      rw [if_neg hunique] at hshares
      exact hgrows.kept hshares

namespace Environment

variable {env : Environment}

def reserving (env : Environment) (stack : List Pending) : Habit where
  valid s := s.Named env.graph ∧ forall p, p ∈ stack -> p.Holds s
  later := Session.Grows
  falls s s' := s.Grows s' ∧ s'.Named env.graph ∧ forall p, p ∈ stack -> p.Holds s'
  answers _ _ _ _ _ := True
  refl _ := Session.Grows.refl _
  trans := Session.Grows.trans
  falls_refl h := ⟨Session.Grows.refl _, h⟩
  falls_trans h h' := ⟨h.trans h'.1, h'.2⟩
  noted h hn := ⟨⟨h.1.noted, fun p hp => (h.2 p hp).later (Session.Grows.noted hn)⟩,
    Session.Grows.noted hn⟩
  notes := Session.Grows.notes
  stable _ h := h

section Reserving

variable {stack : List Pending} {config : NodeId} {unique lazy : Bool} {s : Session}

theorem reserving_opened (h : (env.reserving stack).valid s)
    (hnew : unique = true ∨ s.shared[config]? = none) (component : Component) :
    (env.reserving (⟨config, s.instances.size, unique⟩ :: stack)).valid
      (env.opened s config component unique) := by
  refine ⟨h.1.opened, fun p hp => ?_⟩
  rcases List.mem_cons.mp hp with rfl | hp
  · refine ⟨by rw [size_opened]; exact Nat.lt_succ_self _, ?_⟩
    cases unique with
    | true =>
        rw [if_pos rfl]
        intro other hother
        rw [shared_opened, if_neg (fun hnew => nomatch hnew.1)] at hother
        exact Nat.lt_irrefl _ (h.1.lt hother)
    | false =>
        rw [if_neg Bool.false_ne_true, shared_opened]
        exact if_pos ⟨rfl, rfl⟩
  · exact (h.2 p hp).later (grows_opened hnew)

theorem reserving_steps (env : Environment) :
    Habit.Steps env env.reserving (List.map Pending.config) where
  ofActive _ _ := trivial
  ofShared _ _ _ := trivial
  ofNew {stack s config unique component} _ hvalid hnew _ := by
    have hopened : s.Grows (env.opened s config component unique) := grows_opened hnew
    refine ⟨⟨config, s.instances.size, unique⟩ :: stack, rfl,
      reserving_opened hvalid hnew component, ?_, ?_⟩
    · intro _ s' resolved _ hvalid' hgrows _
      have hgrows' : s.Grows (s'.setArguments s.instances.size resolved) :=
        (hopened.trans hgrows).setArguments (Nat.le_refl _) resolved
      exact ⟨⟨hvalid'.1.setArguments _ resolved, fun p hp => (hvalid.2 p hp).later hgrows'⟩,
        hgrows', fun _ => trivial⟩
    · intro _ _ s' _ hfalls
      exact ⟨hopened.trans hfalls.1, hfalls.2.1,
        fun p hp => hfalls.2.2 p (List.mem_cons_of_mem _ hp)⟩

theorem reserved_of_run {arguments : List NodeId → NodeId → Component → Resolving (List Argument)}
    {i : Option InstanceId} {t : Session} (h : (env.reserving stack).valid s)
    (hrun : outcome (env.instantiateWith arguments (stack.map Pending.config) config unique lazy) s =
      (.ok i, t)) : Reserved stack config unique lazy s i := by
  constructor
  · intro hactive hnew
    rcases instantiateWith_new_ok hactive hnew hrun with ⟨_, _, _, -, -, hanswer, -⟩
    exact hanswer
  · rintro p hp rfl rfl
    rw [outcome_instantiateWith_active (List.mem_map_of_mem hp), if_pos rfl] at hrun
    cases hrun
    have hholds := (h.2 p hp).2
    split
    · next hunique =>
        rw [if_pos hunique] at hholds
        exact ⟨rfl, hholds p.config⟩
    · next hunique =>
        rw [if_neg hunique] at hholds
        exact hholds

/-!
# Tracked walks are ordinary
-/

variable {violation : Failure} {levels : Nat}

/-- The tracked arguments of a level are the ordinary ones, as long as what is pending holds. -/
def TracksArguments (env : Environment) (violation : Failure) (levels : Nat) : Prop :=
  forall stack s config component, (env.reserving stack).bond.Resolves s s
    (env.argumentsBy env.instantiateWith levels (stack.map Pending.config) config component)
    (env.trackedArguments Reserved violation levels stack (stack.map Pending.config) config component)
    fun w => List.Forall₂ (Argument.Fits ((env.reserving stack).bond.answers w) false)

theorem outcome_trackedWith (h : env.TracksArguments violation levels)
    (hvalid : (env.reserving stack).valid s) :
    outcome (env.trackedWith Reserved violation (env.trackedArguments Reserved violation levels)
      stack (stack.map Pending.config) config unique lazy) s =
    outcome (env.instantiateWith (env.argumentsBy env.instantiateWith levels)
      (stack.map Pending.config) config unique lazy) s := by
  have hsame : outcome (env.instantiateWith (env.trackedArguments Reserved violation levels
        (⟨config, s.instances.size, unique⟩ :: stack)) (stack.map Pending.config) config unique
        lazy) s =
      outcome (env.instantiateWith (env.argumentsBy env.instantiateWith levels)
        (stack.map Pending.config) config unique lazy) s :=
    (outcome_instantiateWith_congr fun _ hnew component _ =>
      outcome_eq_of_resolves (h _ _ config component)
        (reserving_opened hvalid hnew component)).symm
  unfold trackedWith
  rw [outcome_bind_ok (outcome_get s)]
  rcases hrun : outcome (env.instantiateWith (env.argumentsBy env.instantiateWith levels)
    (stack.map Pending.config) config unique lazy) s with ⟨e | i, t⟩
  · rw [hrun] at hsame
    exact outcome_bind_error hsame
  · rw [hrun] at hsame
    rw [outcome_bind_ok hsame, if_pos (reserved_of_run hvalid hrun)]
    rfl

theorem resolves_trackedWith (h : env.TracksArguments violation levels) (t : Session) :
    (env.reserving stack).bond.Resolves s t
      (env.instantiateWith (env.argumentsBy env.instantiateWith levels)
        (stack.map Pending.config) config unique lazy)
      (env.trackedWith Reserved violation (env.trackedArguments Reserved violation levels) stack
        (stack.map Pending.config) config unique lazy)
      fun w => (env.reserving stack).bond.answers w config unique lazy := by
  intro hrest hst
  obtain rfl : s = t := hst.1
  have hvalid : (env.reserving stack).valid s := hst.2
  have hlockstep := (Habit.follows_strategy
    (Habit.strategyFollows_instantiateWith (reserving_steps env)) levels stack s config unique
    lazy).resolves hrest hst
  constructor
  · intro i s' hrun
    rw [outcome_trackedWith h hvalid]
    exact hlockstep.ok hrun
  · intro e s' hrun
    rw [outcome_trackedWith h hvalid]
    exact hlockstep.error hrun

end Reserving

section Walk

variable {violation : Failure}

theorem joins_of_tracksArguments {levels : Nat} {stack : List Pending}
    (hassemble : forall f g root element node, (env.reserving stack).bond.Walks f g
      ((env.descentBy env.instantiateWith levels).assemble
        ⟨root, element, stack.map Pending.config⟩ node)
      ((env.tracked Reserved violation levels stack).assemble
        ⟨root, element, stack.map Pending.config⟩ node)
      fun w => Assembled.Fits ((env.reserving stack).bond.answers w))
    (harguments : env.TracksArguments violation levels) :
    (env.reserving stack).bond.Joins env.supplied env.supplied (stack.map Pending.config)
      (stack.map Pending.config) (env.descentBy env.instantiateWith levels)
      (env.tracked Reserved violation levels stack) := by
  refine ⟨.refl _ _, hassemble, fun s t config unique lazy => ?_⟩
  rw [descentBy_instantiate, tracked_instantiate]
  exact resolves_trackedWith harguments t

theorem joins_tracked (levels : Nat) (stack : List Pending) :
    (env.reserving stack).bond.Joins env.supplied env.supplied (stack.map Pending.config)
      (stack.map Pending.config) (env.descentBy env.instantiateWith levels)
      (env.tracked Reserved violation levels stack) ∧
    env.TracksArguments violation levels := by
  induction levels generalizing stack with
  | zero =>
      have harguments : env.TracksArguments violation 0 := fun _ _ _ _ => Bond.Keeps.throw
      exact ⟨joins_of_tracksArguments (fun _ _ _ _ _ => Bond.Keeps.throw) harguments, harguments⟩
  | succ levels ih =>
      have harguments : env.TracksArguments violation (levels + 1) := by
        intro stack s config component
        exact resolves_resolveArguments
          (fun f g => (ih stack).1.assemble f g config config) component
      have hjoins := joins_of_tracksArguments
        (fun _ _ _ _ node => walks_assembleShape (ih stack).1 node) harguments
      exact ⟨hjoins, harguments⟩

theorem outcome_resolveTracked {s : Session} (h : s.Named env.graph) (config : NodeId) :
    outcome (env.resolveTracked Reserved violation config) s = outcome (env.resolve config) s := by
  have hvalid : (env.reserving []).valid s := ⟨h, fun _ hp => absurd hp List.not_mem_nil⟩
  have hsame : outcome ((env.tracked Reserved violation env.depthLimit []).instantiate [] config
        false false) s =
      outcome (env.instantiateWith (env.argumentsBy env.instantiateWith env.depthLimit) [] config
        false false) s := by
    rw [tracked_instantiate]
    exact outcome_trackedWith (joins_tracked env.depthLimit []).2 hvalid
  rw [resolve_eq]
  unfold resolveTracked resolveBy
  rw [descentBy_instantiate]
  exact outcome_bind_congr hsame

end Walk

end Environment

/-!
# Lazy values
-/

structure Notes.Deferred (n : Notes) (v : Occurrence) : Prop where
  inNotes (i : Nat) : v.note = some i -> i < n.size
  lazy : n.isLazy v = true

namespace Notes.Deferred

variable {n n' : Notes} {v : Occurrence}

theorem later (h : n.Deferred v) (hn : Continues n n') : n'.Deferred v where
  inNotes i hi := Nat.lt_of_lt_of_le (h.inNotes i hi) hn.size_le
  lazy := by
    unfold isLazy
    rw [get_of_continues hn h.inNotes]
    exact h.lazy

theorem annotate {edit : Note -> Note} (hedit : (edit (n.get v)).lazy = true) :
    (n.annotate v edit).2.Deferred (n.annotate v edit).1 where
  inNotes i hi := by
    cases hi
    simp [Notes.annotate]
  lazy := by
    unfold isLazy
    rw [get_annotate]
    exact hedit

end Notes.Deferred

namespace Stage

variable {site : Site} {b : Workbench} {vs : List Occurrence}

theorem posts_defer {R : Notes -> Occurrence -> Prop}
    (hlater : forall n n' v, Continues n n' -> R n v -> R n' v) {edit : Note -> Note}
    (hedit : forall n v, R n v -> (edit (n.get v)).lazy = true)
    (h : forall v, v ∈ vs -> R b.notes v) :
    noting.Posts b (vs.mapM fun v => Preparing.annotate v edit) fun _ b' ws =>
      forall w, w ∈ ws -> b'.notes.Deferred w := by
  refine Ledger.Posts.mapM_silent (L := noting) (R := fun b v => R b.notes v)
    (E := fun b w => b.notes.Deferred w) (fun _ _ _ hmoves => hmoves.1)
    (fun _ _ _ hmoves hv => hlater _ _ _ hmoves.2 hv)
    (fun _ _ _ hmoves hw => hw.later hmoves.2) (fun b v hv => ?_) h
  apply Ledger.Posts.mono (posts_annotate v edit)
  intro ids b' w _ hends
  have hdeferred := Notes.Deferred.annotate (hedit b.notes v hv)
  rw [← hends] at hdeferred
  exact hdeferred

theorem posts_step_lazy (hlazy : site.parameter.lazy = true) :
    noting.Posts b (step site vs lazy) fun _ b' ws => forall w, w ∈ ws -> b'.notes.Deferred w := by
  unfold step
  split
  · exact posts_defer (R := fun _ _ => True) (fun _ _ _ _ _ => trivial) (fun _ _ _ => rfl)
      fun _ _ => trivial
  · next hnone =>
      have hempty : vs = [] := by simpa [applies, hlazy] using hnone
      subst hempty
      exact Ledger.Posts.pure fun _ hw => absurd hw List.not_mem_nil

theorem posts_step_unique (h : forall v, v ∈ vs -> b.notes.Deferred v) :
    noting.Posts b (step site vs unique) fun _ b' ws =>
      forall w, w ∈ ws -> b'.notes.Deferred w := by
  unfold step
  split
  · exact posts_defer (R := Notes.Deferred) (fun _ _ _ hn hv => hv.later hn)
      (fun _ _ hv => hv.lazy) fun v hv => h v (List.mem_of_mem_take hv)
  · exact Ledger.Posts.pure h

theorem posts_step_required (h : forall v, v ∈ vs -> b.notes.Deferred v) :
    noting.Posts b (step site vs required) fun _ b' ws =>
      forall w, w ∈ ws -> b'.notes.Deferred w := by
  unfold step
  split
  · exact Ledger.Posts.throw
  · exact Ledger.Posts.pure h

theorem posts_run_lazy (hlazy : site.parameter.lazy = true) (sources : List NodeId) :
    noting.Posts b (run site (sources.map .ofNode)) fun _ b' ws =>
      forall w, w ∈ ws -> b'.notes.Deferred w := by
  have hplain (v : Occurrence) (hv : v ∈ sources.map Occurrence.ofNode) : b.notes.Plain v := by
    rcases List.mem_map.mp hv with ⟨source, -, rfl⟩
    exact .ofNode b.notes source
  have hall : all = [scopedDefaults, defaults, fixed, substitution, range] ++
    [lazy, unique, required] := rfl
  unfold run
  rw [hall, List.foldlM_append]
  apply Ledger.Posts.bind (posts_steps (by decide) hplain)
  intro _ b₁ vs₁ _ _
  rw [List.foldlM_cons]
  apply Ledger.Posts.bind (posts_step_lazy hlazy)
  intro _ b₂ vs₂ _ h₂
  rw [List.foldlM_cons]
  apply Ledger.Posts.bind (posts_step_unique h₂)
  intro _ b₃ vs₃ _ h₃
  rw [List.foldlM_cons]
  apply Ledger.Posts.bind (posts_step_required h₃)
  intro _ b₄ vs₄ _ h₄
  exact Ledger.Posts.pure h₄

end Stage

structure Environment.PutsOff (env : Environment) (n : Notes) (v : Occurrence) : Prop where
  lazy : n.isLazy v = true
  uncast : (n.get v).cast = none
  unsubstituted : (n.get v).literal = none
  node : exists t, env.graph.term? v.source = some t ∧ forall l, t ≠ .literal l
  single : env.graph.list? v.source = none
  config : Component.ofConfig? env.graph v.source ≠ none

namespace Environment

variable {env : Environment}

theorem outcome_materialize_lazy
    {instantiate : NodeId → (unique lazy : Bool) → Resolving (Option InstanceId)}
    {v : Occurrence} {s : Session} (h : env.PutsOff s.notes v) :
    outcome (env.materialize instantiate v) s =
      outcome ((fun i => Argument.lazy (.ofAnswer i)) <$>
        instantiate v.source (s.notes.isUnique v) true) s := by
  have hlazy : (s.notes.get v).lazy = true := h.lazy
  have hwith (onItems : List NodeId → Resolving Argument) :
      env.materializeWith instantiate onItems (s.notes.get v) v.source = (do
        match ← instantiate v.source (s.notes.isUnique v) true with
        | some id => return .reference id
        | none => return .undefined) := by
    rcases h.node with ⟨t, ht, hliteral⟩
    have hconfig : (Component.ofConfig? env.graph v.source).isSome = true :=
      Option.isSome_iff_ne_none.mpr h.config
    unfold materializeWith
    rw [h.uncast, h.unsubstituted, ht, h.single, hlazy]
    cases t with
    | literal l => exact absurd rfl (hliteral l)
    | named iri => exact if_pos hconfig
    | blank label => exact if_pos hconfig
  have hoccurrence (onItems : List NodeId → Resolving Argument) :
      outcome (env.materializeOccurrence instantiate onItems v) s =
        outcome ((fun i => Argument.lazy (.ofAnswer i)) <$>
          instantiate v.source (s.notes.isUnique v) true) s := by
    unfold materializeOccurrence
    rw [outcome_bind_ok (outcome_get s)]
    dsimp only
    rw [hwith, hlazy, outcome_bind, outcome_bind, outcome_map]
    rcases outcome (instantiate v.source (s.notes.isUnique v) true) s with ⟨e | i, s'⟩
    · rfl
    · cases i <;> rfl
  unfold materialize
  cases env.graph.lists.size <;> exact hoccurrence _

/-!
# Histories
-/

/-- After any requests, each lazy request for a configuration that is being resolved is answered
with its reserved instance if that is shared, and otherwise with what the configuration shares
with others, if anything: a walk that checks its answers for this does what the ordinary one does.
The values of lazy parameters are requested lazily, and become lazy arguments of the answers. -/
theorem history_reserved (env : Environment) (requests : List Request) :
    (forall config violation,
      outcome (env.resolveTracked Reserved violation config) (env.history requests).2 =
        outcome (env.resolve config) (env.history requests).2) ∧
    (forall site (sources : List NodeId) bench vs bench', site.parameter.lazy = true ->
      outcome (Stage.run site (sources.map .ofNode)) bench = (.ok vs, bench') ->
      forall v, v ∈ vs -> bench'.notes.isLazy v = true) ∧
    forall instantiate v s, env.PutsOff s.notes v ->
      outcome (env.materialize instantiate v) s =
        outcome ((fun i => Argument.lazy (.ofAnswer i)) <$>
          instantiate v.source (s.notes.isUnique v) true) s := by
  refine ⟨fun config violation => outcome_resolveTracked (env.named_history requests) config,
    fun site sources bench vs bench' hlazy hrun v hv => ?_,
    fun instantiate v s h => outcome_materialize_lazy h⟩
  rcases Stage.posts_run_lazy hlazy sources vs bench' hrun with ⟨_, -, hdeferred⟩
  exact (hdeferred v hv).lazy

/-- Configurations `d` and `e` refer to each other lazily, and `c` to an instance of `d` of its
own. -/
def detour : Environment :=
  let (x, g) := Graph.empty.intern (.named "X")
  let (p, g) := g.intern (.named "p")
  let (q, g) := g.intern (.named "q")
  let (arguments, g) := g.freshList [p, q]
  let (yes, g) := g.intern (.literal (.typed "true" Vocabulary.Xsd.boolean))
  let g := (((g.addType x Vocabulary.Oo.classType).addEdge x Vocabulary.Oo.constructorArguments
    arguments).addEdge p Vocabulary.Oo.uniqueValue yes).addEdge q Vocabulary.Oo.lazy yes
  let (c, g) := g.intern (.named "c")
  let (d, g) := g.intern (.named "d")
  let (e, g) := g.intern (.named "e")
  let g := ((g.addType c "X").addType d "X").addType e "X"
  ⟨((g.addNamed c "p" "d").addNamed d "q" "e").addNamed e "q" "d", ∅, 16⟩

def detourSite : Site :=
  ⟨detour.graph, ∅, 7, 7, ⟨2, "q", none, false, false, true, [], [], []⟩⟩

theorem history_reserved_detour :
    (exists s, outcome (detour.resolveTracked Reserved (.endless "") 7) (detour.history []).2 =
        (.ok 0, s) ∧
      (s.instances[1]?.map fun x => x.arguments.map Argument.text) =
        some ["undefined", "[lazy(#0)]"]) ∧
    (exists vs bench, outcome (Stage.run detourSite ([8].map .ofNode)) ⟨#[], [], []⟩ =
        (.ok vs, bench) ∧ vs.length = 1 ∧ forall v, v ∈ vs -> bench.notes.isLazy v = true) ∧
    outcome (detour.materialize (fun _ _ _ => pure (some 0)) ⟨7, some 0⟩)
      { Session.empty with notes := #[⟨none, none, true, false⟩] } =
        (.ok (.lazy (.reference 0)), { Session.empty with notes := #[⟨none, none, true, false⟩] }) := by
  rcases history_reserved detour [] with ⟨htracked, hdeferred, hlazy⟩
  refine ⟨?_, ?_, ?_⟩
  · have hrun : ((outcome (detour.resolve 7) (detour.history []).2).1.toOption,
        (outcome (detour.resolve 7) (detour.history []).2).2.instances[1]?.map
          fun x => x.arguments.map Argument.text) =
        (some 0, some ["undefined", "[lazy(#0)]"]) := by decide +kernel
    rw [htracked]
    rcases houtcome : outcome (detour.resolve 7) (detour.history []).2 with ⟨e | id, s⟩
    · rw [houtcome] at hrun
      cases hrun
    · rw [houtcome] at hrun
      rcases Prod.mk.inj hrun with ⟨hid, htext⟩
      cases hid
      exact ⟨s, rfl, htext⟩
  · have hrun : (outcome (Stage.run detourSite ([8].map .ofNode)) ⟨#[], [], []⟩).1.toOption.map
        List.length = some 1 := by decide +kernel
    rcases houtcome : outcome (Stage.run detourSite ([8].map .ofNode)) ⟨#[], [], []⟩ with
      ⟨e | vs, bench⟩
    · rw [houtcome] at hrun
      cases hrun
    · rw [houtcome] at hrun
      exact ⟨vs, bench, rfl, Option.some.inj hrun, hdeferred detourSite [8] _ vs bench rfl houtcome⟩
  · have hconfig : (Component.ofConfig? detour.graph 7).isSome = true := by decide +kernel
    rw [hlazy]
    · rfl
    · exact ⟨rfl, rfl, rfl, ⟨.named "d", by decide +kernel, fun _ h => nomatch h⟩,
        by decide +kernel, Option.isSome_iff_ne_none.mp hconfig⟩

/-- Behind a lazy reference a configuration that is being resolved as a unique instance is not its
reserved instance, but missing. -/
theorem not_promised_detour :
    (¬ forall violation,
      outcome (detour.resolveTracked Promised violation 6) (detour.history []).2 =
        outcome (detour.resolve 6) (detour.history []).2) ∧
    ((outcome (detour.resolve 6) (detour.history []).2).2.instances[2]?.map
      fun x => x.arguments.map Argument.text) = some ["undefined", "[lazy(undefined)]"] := by
  constructor
  · intro hall
    have hbroken : (outcome (detour.resolveTracked Promised (.endless "") 6)
        (detour.history []).2).1.isOk = false := by decide +kernel
    have hordinary : (outcome (detour.resolve 6) (detour.history []).2).1.isOk = true := by
      decide +kernel
    rw [hall, hordinary] at hbroken
    cases hbroken
  · decide +kernel

end Environment
end Wiring
