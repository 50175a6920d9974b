import Wiring.Proofs.Resolution.Faithful

/-!
# Walks that meet no active configuration

A strict walk fails as soon as it meets a configuration that is being resolved.
If it succeeds, the ordinary walk does exactly the same, and what it resolves is
grounded.
-/

namespace Wiring
namespace Environment

variable {env : Environment}

/-- Fails for active configurations, also if they are asked for lazily. -/
def strictly (env : Environment) : Strategy := fun arguments active config unique lazy =>
  if active.contains config then throw (.cyclicReference (env.graph.display config))
  else env.instantiateWith arguments active config unique lazy

section Strictly

variable {arguments : List NodeId → NodeId → Component → Resolving (List Argument)}
  {active : List NodeId} {config : NodeId} {unique lazy : Bool} {s s' : Session}

theorem outcome_strictly_active (hactive : config ∈ active) :
    outcome (env.strictly arguments active config unique lazy) s =
      (.error (.cyclicReference (env.graph.display config)), s) := by
  unfold strictly
  rw [if_pos (List.contains_iff_mem.mpr hactive)]
  rfl

theorem strictly_ordinary (env : Environment) : env.Ordinary env.strictly := by
  intro arguments active config unique lazy s hactive
  unfold strictly
  rw [if_neg fun h => hactive (List.contains_iff_mem.mp h)]

theorem not_active_of_strictly {i : Option InstanceId}
    (h : outcome (env.strictly arguments active config unique lazy) s = (.ok i, s')) :
    config ∉ active := by
  intro hactive
  rw [outcome_strictly_active hactive] at h
  cases h

end Strictly

/-!
# Strict walks are ordinary
-/

def agreement : Bond where
  excused _ := True
  valid w := w.1 = w.2
  later w w' := w.1 = w.2 ∧ w'.1 = w'.2 ∧ w.1.Grows w'.1
  falls _ _ := True
  answers _ _ _ _ i j := i = j
  refl h := ⟨h, h, Session.Grows.refl _⟩
  trans h h' := ⟨h.1, h'.2.1, h.2.2.trans h'.2.2⟩
  falls_refl _ := trivial
  falls_trans _ _ := trivial
  noted := by
    rintro ⟨s, t⟩ n m hst hn _ hsame
    dsimp only at hst
    subst hst
    obtain rfl := hsame rfl
    exact ⟨rfl, rfl, rfl, Session.Grows.noted hn⟩
  notes := by
    rintro ⟨s, t⟩ ⟨s', t'⟩ ⟨hst, hst', hgrows⟩
    dsimp only at hst hst'
    subst hst hst'
    exact ⟨hgrows.notes, hgrows.notes⟩
  stable _ h := h

theorem eq_of_fits {inLazy : Bool} {w : World} {a b : Argument}
    (h : Argument.Fits (agreement.answers w) inLazy a b) : a = b := by
  induction h with
  | answer known place left right =>
      rw [left, right]
      exact congrArg Argument.ofAnswer known
  | undefined => rfl
  | literal value => rfl
  | iri text => rfl
  | lazy _ ih => rw [ih]
  | @list _ as bs length _ ih =>
      congr 1
      exact List.ext_getElem length fun i hi hi' => ih _ _ (getElem_mem_zip hi hi')
  | @map _ es fs length keys _ ih =>
      congr 1
      exact List.ext_getElem length fun i hi hi' =>
        Prod.ext (keys _ _ (getElem_mem_zip hi hi')) (ih _ _ (getElem_mem_zip hi hi'))

theorem strictly_agrees (env : Environment) : StrategiesKeep env env.strictly env.instantiateWith
    (fun _ : List NodeId => agreement) id id env.depthLimit := by
  intro levels levels' hdeeper harguments active s t config unique lazy _ hst
  obtain rfl : s = t := hst
  refine ⟨fun {i s'} hrun => ?_, fun _ => Or.inl trivial⟩
  rw [id_eq] at hrun ⊢
  have hactive : config ∉ active := not_active_of_strictly hrun
  rw [strictly_ordinary env _ _ _ _ _ _ hactive] at hrun
  by_cases hnew : unique = true ∨ s.shared[config]? = none
  · rcases instantiateWith_new_ok hactive hnew hrun with
      ⟨component, resolved, s₁, hcomponent, hinner, rfl, rfl⟩
    rcases (harguments levels' hdeeper (config :: active) _ _ config component rfl rfl).ok hinner
      with ⟨resolved', t₁, hinner', -, hst₁, hlater, hfits⟩
    obtain rfl : s₁ = t₁ := hst₁
    obtain rfl : resolved = resolved' :=
      List.forall₂_eq_eq_eq ▸ hfits.imp fun _ _ hfit => eq_of_fits hfit
    have hopened : s.Grows (env.opened s config component unique) := grows_opened hnew
    have hgrows := (hopened.trans hlater.2.2).setArguments (Nat.le_refl _) resolved
    refine ⟨some s.instances.size, s₁.setArguments s.instances.size resolved, ?_, rfl, rfl,
      ⟨rfl, rfl, hgrows⟩, rfl⟩
    have hrun' : outcome (env.argumentsBy env.instantiateWith levels' (config :: active) config
        component) (env.opened s config component unique) = (.ok resolved, s₁) := hinner'
    rw [outcome_instantiateWith_new hactive hnew, hcomponent]
    dsimp only
    rw [hrun']
  · rw [not_or, Bool.not_eq_true] at hnew
    rcases hnew with ⟨rfl, hshared⟩
    rcases Option.ne_none_iff_exists'.mp hshared with ⟨id, hid⟩
    rw [outcome_instantiateWith_shared hactive hid] at hrun
    cases hrun
    exact ⟨_, _, outcome_instantiateWith_shared hactive hid, rfl, rfl,
      ⟨rfl, rfl, Session.Grows.refl s⟩, rfl⟩

theorem deeper_excused {κ : Type} {B : κ -> Bond} (h : forall k e, (B k).excused e)
    {levels : Nat} (hlevels : levels ≤ env.depthLimit) :
    Deeper B env.depthLimit levels levels :=
  ⟨Nat.le_refl _, hlevels, Or.inr h⟩

theorem argumentsBy_of_strictly {levels : Nat} (hlevels : levels ≤ env.depthLimit)
    {active : List NodeId} {config : NodeId} {component : Component} {s s' : Session}
    {resolved : List Argument}
    (h : outcome (env.argumentsBy env.strictly levels active config component) s =
      (.ok resolved, s')) :
    outcome (env.argumentsBy env.instantiateWith levels active config component) s =
      (.ok resolved, s') := by
  rcases ((assembles_and_fits (strictly_agrees env) (deeper_excused (fun _ _ => trivial)
    hlevels)).2 active s s config component rfl rfl).ok h with
    ⟨resolved', t', hrun, -, hst, -, hfits⟩
  obtain rfl : s' = t' := hst
  obtain rfl : resolved = resolved' :=
    List.forall₂_eq_eq_eq ▸ hfits.imp fun _ _ hfit => eq_of_fits hfit
  exact hrun

/-!
# Strict walks resolve grounded configurations
-/

def grounding (env : Environment) (active : List NodeId) : Bond where
  excused _ := True
  valid w := (forall c, w.1.shared[c]? ≠ none -> c ∉ active -> env.Grounded c) ∧
    forall c unique, Asked w.2 c unique -> env.Grounded c
  later w w' := (Continues w.1.notes w'.1.notes ∧ Continues w.2.notes w'.2.notes) ∧
    forall c unique, Asked w.2 c unique -> Asked w'.2 c unique
  falls _ _ := True
  answers w c unique _ _ j := j = some (ticket c unique) ∧ Asked w.2 c unique
  refl _ := ⟨⟨Continues.refl _, Continues.refl _⟩, fun _ _ h => h⟩
  trans h h' := ⟨⟨h.1.1.trans h'.1.1, h.1.2.trans h'.1.2⟩, fun _ _ hs => h'.2 _ _ (h.2 _ _ hs)⟩
  falls_refl _ := trivial
  falls_trans _ _ := trivial
  noted h hn hm _ := ⟨h, ⟨hn, hm⟩, fun _ _ h => h⟩
  notes h := h.1
  stable h h' := ⟨h'.1, h.2 _ _ h'.2⟩

theorem grounded_of_template {config : NodeId} {component : Component} {tickets : List Argument}
    {t : Session} (hcomponent : Component.forConfig env.graph config = .ok component)
    (htemplate : env.template config component = (.ok tickets, t))
    (hasked : forall c unique, Asked t c unique -> env.Grounded c) : env.Grounded config := by
  refine .intro ?_ ?_
  · rw [templateInstance_eq hcomponent htemplate]
    exact Option.some_ne_none _
  · rintro d unique ⟨component', hcomponent', hd⟩
    rw [hcomponent] at hcomponent'
    cases hcomponent'
    rw [htemplate] at hd
    exact hasked d unique hd

theorem grounding_beside (env : Environment) : Beside env env.strictly env.grounding id where
  ordinary := env.strictly_ordinary
  excused _ _ := trivial
  ofActive hactive _ hrun := absurd hactive (not_active_of_strictly hrun)
  ofShared {active s t config lazy id} hactive hvalid hid := by
    have hgrounded := hvalid.1 config (by rw [hid]; exact Option.some_ne_none _) hactive
    refine ⟨⟨hvalid.1, fun c unique hasked => ?_⟩,
      ⟨⟨Continues.refl _, Continues.refl _⟩, asked_grows t config false⟩, rfl,
      asked_self t config false⟩
    rcases asked_share.mp hasked with ⟨rfl, -⟩ | hold
    · exact hgrounded
    · exact hvalid.2 c unique hold
  ofNew {active s t config unique lazy component} hactive hvalid hnew hcomponent := by
    refine ⟨config :: active, rfl, ⟨?_, ?_⟩, ?_⟩
    · intro c hc hnot
      rcases shared_opened_ne_none.mp hc with hold | ⟨-, rfl⟩
      · exact hvalid.1 c hold fun h => hnot (List.mem_cons_of_mem _ h)
      · exact absurd List.mem_cons_self hnot
    · intro c unique' hasked
      exact absurd (by simp [Session.empty]) hasked
    · intro levels resolved s' tickets t' _ _ htemplate hvalid' hlater _
      have hgrounded : env.Grounded config := grounded_of_template hcomponent htemplate hvalid'.2
      have hnotes := hlater.1.1
      rw [notes_opened] at hnotes
      refine ⟨⟨fun c hc hnot => ?_, fun c unique' hasked => ?_⟩,
        ⟨⟨hnotes, Continues.refl _⟩, asked_grows t config unique⟩, rfl,
        asked_self t config unique⟩
      · by_cases hconfig : c = config
        · exact hconfig ▸ hgrounded
        · exact hvalid'.1 c hc (List.not_mem_cons_of_ne_of_not_mem hconfig hnot)
      · rcases asked_share.mp hasked with ⟨rfl, -⟩ | hold
        · exact hgrounded
        · exact hvalid.2 c unique' hold

theorem grounded_of_argumentsBy {levels : Nat} (hlevels : levels ≤ env.depthLimit)
    {active : List NodeId} {config : NodeId} {component : Component} {s s' : Session}
    {resolved : List Argument} (hcomponent : Component.forConfig env.graph config = .ok component)
    (hshared : forall c, s.shared[c]? ≠ none -> c ∉ active -> env.Grounded c)
    (hrun : outcome (env.argumentsBy env.strictly levels active config component) s =
      (.ok resolved, s')) :
    env.Grounded config ∧ forall c, s'.shared[c]? ≠ none -> c ∉ active -> env.Grounded c := by
  have hdeeper : Deeper env.grounding env.depthLimit levels env.depthLimit :=
    ⟨hlevels, Nat.le_refl _, Or.inr fun _ _ => trivial⟩
  have hvalid : (env.grounding active).valid (s, Session.empty) :=
    ⟨hshared, fun c unique hasked => absurd (by simp [Session.empty]) hasked⟩
  rcases ((assembles_and_fits (strategiesKeep_of_beside env.grounding_beside) hdeeper).2 active s
    Session.empty config component rfl hvalid).ok hrun with
    ⟨tickets, t, htemplate, -, hvalid', -, -⟩
  exact ⟨grounded_of_template hcomponent htemplate hvalid'.2, hvalid'.1⟩

end Environment
end Wiring
