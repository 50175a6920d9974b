import Wiring.Proofs.Resolution.Strict

/-!
# Sessions can be used again

A strict walk in a session of its own runs side by side with an ordinary walk in
a session that has been used before.  Where the one gets a new instance and the
other finds a shared one, all that the new instance shares is shared already.
-/

namespace Wiring
namespace Environment

variable {env : Environment}

/-- What a strict walk has shared is shared beside it, and nothing else has been added there to
what was shared at the start. -/
structure Reuses (env : Environment) (start : Session) (active : List NodeId) (w : World) :
    Prop where
  shared {c : NodeId} : w.1.shared[c]? ≠ none -> w.2.shared[c]? ≠ none
  origin {c : NodeId} : w.2.shared[c]? ≠ none ->
    w.1.shared[c]? ≠ none ∨ start.shared[c]? ≠ none
  kept {c : NodeId} : start.shared[c]? ≠ none -> w.2.shared[c]? ≠ none
  grounded (c : NodeId) : w.1.shared[c]? ≠ none -> c ∉ active -> env.Grounded c

def reuse (env : Environment) (start : Session) (active : List NodeId) : Bond where
  excused _ := True
  valid := env.Reuses start active
  later w w' := Continues w.1.notes w'.1.notes ∧ Continues w.2.notes w'.2.notes
  falls _ _ := True
  answers _ config _ _ _ j := j ≠ none ∧ env.Grounded config
  refl _ := ⟨Continues.refl _, Continues.refl _⟩
  trans h h' := ⟨h.1.trans h'.1, h.2.trans h'.2⟩
  falls_refl _ := trivial
  falls_trans _ _ := trivial
  noted h hn hm _ := ⟨⟨h.shared, h.origin, h.kept, h.grounded⟩, hn, hm⟩
  notes h := h
  stable _ h := h

section Request

variable {start s t s' t' : Session} {active : List NodeId} {config : NodeId}
  {component : Component} {unique : Bool}

theorem Reuses.opened (h : env.Reuses start active (s, t)) :
    env.Reuses start (config :: active)
      (env.opened s config component unique, env.opened t config component unique) where
  shared hc := by
    rw [shared_opened_ne_none] at hc ⊢
    exact hc.imp_left h.shared
  origin hc := by
    rw [shared_opened_ne_none] at hc ⊢
    rcases hc with hold | hnew
    · exact (h.origin hold).imp_left Or.inl
    · exact Or.inl (Or.inr hnew)
  kept hc := shared_opened_ne_none.mpr (Or.inl (h.kept hc))
  grounded c hc hnot := by
    rw [List.mem_cons, not_or] at hnot
    exact h.grounded c ((shared_opened_ne_none.mp hc).resolve_right fun hnew => hnot.1 hnew.2)
      hnot.2

theorem Reuses.leave (h : env.Reuses start (config :: active) (s, t))
    (hgrounded : env.Grounded config) (i j : InstanceId) (resolved resolved' : List Argument) :
    env.Reuses start active (s.setArguments i resolved, t.setArguments j resolved') where
  shared := h.shared
  origin := h.origin
  kept := h.kept
  grounded c hc hnot := by
    by_cases hconfig : c = config
    · exact hconfig ▸ hgrounded
    · exact h.grounded c hc (List.not_mem_cons_of_ne_of_not_mem hconfig hnot)

theorem Reuses.found (h : env.Reuses start active (s, t)) (hstart : env.Used start)
    (hgrounded : env.Grounded config) (hconfig : start.shared[config]? ≠ none)
    (hgrows : s.Grows s') (i : InstanceId) (resolved : List Argument)
    (hrequired : forall c, s'.shared[c]? ≠ none ->
      s.shared[c]? ≠ none ∨ c = config ∨ env.Requires config c)
    (hall : forall c, s'.shared[c]? ≠ none -> c ∉ config :: active -> env.Grounded c) :
    env.Reuses start active (s'.setArguments i resolved, t) where
  shared {c} hc := by
    rcases hrequired c hc with hold | rfl | hrequires
    · exact h.shared hold
    · exact h.kept hconfig
    · exact h.kept (hstart.shared_of_requires hconfig hgrounded hrequires)
  origin {c} hc := by
    rcases h.origin hc with hold | hold
    · have hkept : s'.shared[c]? ≠ none := shared_ne_none_grows hgrows hold
      exact Or.inl hkept
    · exact Or.inr hold
  kept := h.kept
  grounded c hc hnot := by
    by_cases hc' : c = config
    · exact hc' ▸ hgrounded
    · exact hall c hc (List.not_mem_cons_of_ne_of_not_mem hc' hnot)

theorem reuse_keeps (env : Environment) (hstart : env.Used start) :
    StrategiesKeep env env.strictly env.instantiateWith (env.reuse start) id id
      env.depthLimit := by
  intro levels levels' hdeeper harguments active s t config unique lazy _ hreuses
  have hlevels : levels ≤ env.depthLimit := Nat.le_trans hdeeper.1 hdeeper.2.1
  refine ⟨fun {i s'} hrun => ?_, fun _ => Or.inl trivial⟩
  rw [id_eq] at hrun ⊢
  have hactive : config ∉ active := not_active_of_strictly hrun
  rw [strictly_ordinary env _ _ _ _ _ _ hactive] at hrun
  by_cases hnew : unique = true ∨ s.shared[config]? = none
  · rcases instantiateWith_new_ok hactive hnew hrun with
      ⟨component, resolved, s₁, hcomponent, hinner, rfl, rfl⟩
    have hopened : s.Grows (env.opened s config component unique) := grows_opened hnew
    have hordinary := argumentsBy_of_strictly hlevels hinner
    have hgrows := grows_argumentsBy levels hordinary
    have hbelow : env.Reuses start (config :: active) (env.opened s config component unique,
        env.opened t config component unique) := hreuses.opened
    rcases grounded_of_argumentsBy hlevels hcomponent hbelow.grounded hinner with
      ⟨hgrounded, hall⟩
    -- The strict walk gets a new instance. Either the other walk does so too, or it finds one that
    -- was shared at the start, since what it shares later the strict walk has shared as well.
    by_cases hnew' : unique = true ∨ t.shared[config]? = none
    · have hopened' : t.Grows (env.opened t config component unique) := grows_opened hnew'
      rcases (harguments levels' hdeeper (config :: active)
        (env.opened s config component unique) (env.opened t config component unique) config
        component rfl hbelow).ok hinner with
        ⟨resolved', t₁, hright, -, hreuses', hlater, -⟩
      have hright' : outcome (env.argumentsBy env.instantiateWith levels' (config :: active)
          config component) (env.opened t config component unique) = (.ok resolved', t₁) := hright
      refine ⟨some t.instances.size, t₁.setArguments t.instances.size resolved', ?_, rfl,
        hreuses'.leave hgrounded _ _ resolved resolved', ?_, Option.some_ne_none _, hgrounded⟩
      · rw [outcome_instantiateWith_new hactive hnew', hcomponent]
        dsimp only
        rw [hright']
      · exact ⟨hopened.notes.trans hlater.1, hopened'.notes.trans hlater.2⟩
    · rw [not_or, Bool.not_eq_true] at hnew'
      rcases hnew' with ⟨rfl, hshared⟩
      rcases Option.ne_none_iff_exists'.mp hshared with ⟨id, hid⟩
      have hstart' : start.shared[config]? ≠ none := by
        refine (hreuses.origin hshared).resolve_left fun hold => hold ?_
        exact hnew.resolve_left Bool.false_ne_true
      refine ⟨some id, t, outcome_instantiateWith_shared hactive hid, rfl,
        hreuses.found hstart hgrounded hstart' (hopened.trans hgrows) _ resolved ?_ hall,
        ⟨hopened.notes.trans hgrows.notes, Continues.refl _⟩, Option.some_ne_none _, hgrounded⟩
      intro c hc
      rcases requires_of_argumentsBy hlevels hcomponent hordinary hc with hold | hrequires
      · exact (shared_opened_ne_none.mp hold).imp_right fun h => Or.inl h.2
      · exact Or.inr (Or.inr hrequires)
  · rw [not_or, Bool.not_eq_true] at hnew
    rcases hnew with ⟨rfl, hshared⟩
    rcases Option.ne_none_iff_exists'.mp hshared with ⟨id, hid⟩
    rcases Option.ne_none_iff_exists'.mp (hreuses.shared hshared) with ⟨id', hid'⟩
    rw [outcome_instantiateWith_shared hactive hid] at hrun
    cases hrun
    exact ⟨_, _, outcome_instantiateWith_shared hactive hid', rfl, hreuses,
      ⟨Continues.refl _, Continues.refl _⟩, Option.some_ne_none id',
      hreuses.grounded config hshared hactive⟩

end Request

/-!
# The result
-/

theorem used_serve {s : Session} (hs : env.Used s) (requests : List Request)
    (hok : forall answer, answer ∈ (env.serve s requests).1 -> exists id, answer = .ok id) :
    env.Used (env.serve s requests).2 := by
  induction requests generalizing s with
  | nil => exact hs
  | cons request rest ih =>
      rcases hanswer : outcome (env.answer request) s with ⟨answer, t⟩
      simp only [serve, hanswer] at hok ⊢
      rcases hok answer List.mem_cons_self with ⟨id, rfl⟩
      refine ih ?_ fun answer hmem => hok answer (List.mem_cons_of_mem _ hmem)
      rcases answer_cases hanswer with ⟨-, ⟨e, he⟩, -⟩ | ⟨config, -, hresolve⟩
      · cases he
      · exact (used_resolve hs hresolve).1

/-- What a strict resolution succeeds for in a session of its own resolves to the same tree in
every session in which all requests have succeeded. -/
theorem resolve_after_history (env : Environment) (requests : List Request)
    (hok : forall answer, answer ∈ (env.history requests).1 -> exists id, answer = .ok id)
    {config : NodeId} {id : InstanceId} {s : Session}
    (hstrict : outcome (env.resolveBy env.strictly config) Session.empty = (.ok id, s)) :
    outcome (env.resolve config) Session.empty = (.ok id, s) ∧
      exists id' t tree, outcome (env.resolve config) (env.history requests).2 = (.ok id', t) ∧
        Unfolds (fun i => s.instances[i]?) (.reference id) tree ∧
        Unfolds (fun i => t.instances[i]?) (.reference id') tree := by
  have hused : env.Used (env.history requests).2 := used_serve env.used_empty requests hok
  have hempty : env.Reuses (env.history requests).2 []
      (Session.empty, (env.history requests).2) :=
    ⟨fun hc => absurd (by simp [Session.empty]) hc, Or.inr, fun hc => hc,
      fun c hc => absurd (by simp [Session.empty]) hc⟩
  have hinner := resolveBy_ok.mp hstrict
  have hfresh : outcome (env.resolve config) Session.empty = (.ok id, s) := by
    rcases (resolves_strategies env.strictly_agrees
      (deeper_excused (fun _ _ => trivial) (Nat.le_refl _)) [] Session.empty Session.empty config
      false false rfl rfl).ok hinner with ⟨i, t, hrun, -, hst, -, hi⟩
    obtain rfl : s = t := hst
    obtain rfl : some id = i := hi
    rw [resolve_eq]
    exact resolveBy_ok.mpr hrun
  refine ⟨hfresh, ?_⟩
  rcases (resolves_strategies (reuse_keeps env hused)
    (deeper_excused (fun _ _ => trivial) (Nat.le_refl _)) [] Session.empty
    (env.history requests).2 config false false rfl hempty).ok hinner with
    ⟨i, t, hrun, -, -, -, hsome, hgrounded⟩
  rcases Option.ne_none_iff_exists'.mp hsome with ⟨id', rfl⟩
  have hagain : outcome (env.resolve config) (env.history requests).2 = (.ok id', t) := by
    rw [resolve_eq]
    exact resolveBy_ok.mpr hrun
  rcases hgrounded.exists_tree false with ⟨tree, htree⟩
  exact ⟨id', t, tree, hagain, (used_resolve env.used_empty hfresh).2 hgrounded tree htree,
    (used_resolve hused hagain).2 hgrounded tree htree⟩

/-- Configurations `a` and `b` refer to each other, and `b` to `c`, which leads to no cycle. -/
def entangled : Environment :=
  let (x, g) := Graph.empty.intern (.named "X")
  let (p, g) := g.intern (.named "p")
  let (q, g) := g.intern (.named "q")
  let (arguments, g) := g.freshList [p, q]
  let g := (g.addType x Vocabulary.Oo.classType).addEdge x Vocabulary.Oo.constructorArguments
    arguments
  let (a, g) := g.intern (.named "a")
  let (b, g) := g.intern (.named "b")
  let (c, g) := g.intern (.named "c")
  let (d, g) := g.intern (.named "d")
  let g := (((g.addType a "X").addType b "X").addType c "X").addType d "X"
  ⟨(((g.addNamed a "p" "b").addNamed b "p" "a").addNamed b "q" "c").addNamed c "p" "d", ∅, 16⟩

theorem resolve_after_history_entangled : exists id s id' t tree,
    outcome (entangled.resolve 7) Session.empty = (.ok id, s) ∧
    outcome (entangled.resolve 7) (entangled.history [.iri "a"]).2 = (.ok id', t) ∧
    Unfolds (fun i => s.instances[i]?) (.reference id) tree ∧
    Unfolds (fun i => t.instances[i]?) (.reference id') tree := by
  have hanswers : (entangled.history [.iri "a"]).1.all Except.isOk = true := by decide +kernel
  have hstrict : (outcome (entangled.resolveBy entangled.strictly 7) Session.empty).1.isOk =
      true := by decide +kernel
  have hok (answer : Except Failure InstanceId)
      (hmem : answer ∈ (entangled.history [.iri "a"]).1) : exists id, answer = .ok id := by
    have hisOk := List.all_eq_true.mp hanswers answer hmem
    cases answer with
    | error e => cases hisOk
    | ok id => exact ⟨id, rfl⟩
  rcases hrun : outcome (entangled.resolveBy entangled.strictly 7) Session.empty with ⟨e | id, s⟩
  · rw [hrun] at hstrict
    cases hstrict
  · rcases resolve_after_history entangled [.iri "a"] hok hrun with
      ⟨hfresh, id', t, tree, hagain, hleft, hright⟩
    exact ⟨id, s, id', t, tree, hfresh, hagain, hleft, hright⟩

end Environment
end Wiring
