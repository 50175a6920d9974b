import Wiring.Proofs.Resolution.Template

/-!
# Runs beside their templates

A run gets answers where its template gets tickets.  So the configurations that a
run shares are those that the template asks for, and the tree of the run is that
of the template unless a cycle has cut it off.
-/

namespace Wiring
namespace Environment

variable {env : Environment}

section Beside

variable {κ : Type}

def Ordinary (env : Environment) (S : Strategy) : Prop :=
  forall arguments active config unique lazy s, config ∉ active ->
    outcome (S arguments active config unique lazy) s =
      outcome (env.instantiateWith arguments active config unique lazy) s

def AnswersTicket (B : Bond) (s t s' : Session) (config : NodeId) (unique lazy : Bool)
    (i : Option InstanceId) : Prop :=
  B.valid (s', t.share (ticket config unique) (ticket config unique)) ∧
    B.later (s, t) (s', t.share (ticket config unique) (ticket config unique)) ∧
    B.answers (s', t.share (ticket config unique) (ticket config unique)) config unique lazy i
      (some (ticket config unique))

/-- What it takes for a strategy to keep a bond with templates. -/
structure Beside (env : Environment) (S : Strategy) (B : κ -> Bond) (active : κ -> List NodeId) :
    Prop where
  ordinary : env.Ordinary S
  excused (k : κ) (e : Failure) : (B k).excused e
  ofActive {k : κ} {s t s' : Session} {config : NodeId} {unique lazy : Bool}
    {i : Option InstanceId} {levels : Nat} :
    config ∈ active k -> (B k).valid (s, t) ->
    outcome (S (env.argumentsBy S levels) (active k) config unique lazy) s = (.ok i, s') ->
    AnswersTicket (B k) s t s' config unique lazy i
  ofShared {k : κ} {s t : Session} {config : NodeId} {lazy : Bool} {id : InstanceId} :
    config ∉ active k -> (B k).valid (s, t) -> s.shared[config]? = some id ->
    AnswersTicket (B k) s t s config false lazy (some id)
  ofNew {k : κ} {s t : Session} {config : NodeId} {unique lazy : Bool} {component : Component} :
    config ∉ active k -> (B k).valid (s, t) -> (unique = true ∨ s.shared[config]? = none) ->
    Component.forConfig env.graph config = .ok component ->
    exists k', active k' = config :: active k ∧
      (B k').valid (env.opened s config component unique, Session.empty) ∧
      forall levels resolved s' tickets t', levels ≤ env.depthLimit ->
        outcome (env.argumentsBy S levels (config :: active k) config component)
          (env.opened s config component unique) = (.ok resolved, s') ->
        env.template config component = (.ok tickets, t') ->
        (B k').valid (s', t') ->
        (B k').later (env.opened s config component unique, Session.empty) (s', t') ->
        List.Forall₂ (Argument.Fits ((B k').answers (s', t')) false) resolved tickets ->
        AnswersTicket (B k) s t (s'.setArguments s.instances.size resolved) config unique lazy
          (some s.instances.size)

variable {S : Strategy} {B : κ -> Bond} {active : κ -> List NodeId}

theorem strategiesKeep_of_beside (h : Beside env S B active) :
    StrategiesKeep env S oracle B active (fun _ => []) env.depthLimit := by
  intro levels levels' hdeeper harguments k s t config unique lazy _ hvalid
  refine ⟨?_, fun _ => Or.inl (h.excused k _)⟩
  intro i s' hrun
  have hends : AnswersTicket (B k) s t s' config unique lazy i := by
    by_cases hactive : config ∈ active k
    · exact h.ofActive hactive hvalid hrun
    rw [h.ordinary _ _ _ _ _ _ hactive] at hrun
    by_cases hnew : unique = true ∨ s.shared[config]? = none
    · rcases instantiateWith_new_ok hactive hnew hrun with
        ⟨component, resolved, s₁, hcomponent, hinner, rfl, rfl⟩
      rcases h.ofNew hactive hvalid hnew hcomponent with ⟨k', hk', hvalid', hok⟩
      have hdeeper' : Deeper B env.depthLimit levels env.depthLimit :=
        ⟨Nat.le_trans hdeeper.1 hdeeper.2.1, Nat.le_refl _, Or.inr h.excused⟩
      -- A template is resolved in a session of its own with all levels, however few the run has left.
      have hfit := harguments env.depthLimit hdeeper' k'
        (env.opened s config component unique) Session.empty config component
      rw [hk'] at hfit
      rcases (hfit rfl hvalid').ok hinner with ⟨tickets, t₁, htemplate, -, hvalid₁, hlater₁, hfits⟩
      exact hok levels resolved s₁ tickets t₁ hdeeper'.1 hinner htemplate hvalid₁ hlater₁ hfits
    · rw [not_or, Bool.not_eq_true] at hnew
      rcases hnew with ⟨rfl, hshared⟩
      rcases Option.ne_none_iff_exists'.mp hshared with ⟨id, hid⟩
      rw [outcome_instantiateWith_shared hactive hid] at hrun
      cases hrun
      exact h.ofShared hactive hvalid hid
  exact ⟨_, _, outcome_oracle _ _ config unique lazy t, rfl, hends⟩

end Beside

/-!
# What a run shares
-/

def sharing (env : Environment) : Bond where
  excused _ := True
  valid _ := True
  later w w' := (Continues w.1.notes w'.1.notes ∧ Continues w.2.notes w'.2.notes) ∧
    (forall c unique, Asked w.2 c unique -> Asked w'.2 c unique) ∧
    forall c, w'.1.shared[c]? ≠ none -> w.1.shared[c]? ≠ none ∨
      exists d unique, Asked w'.2 d unique ∧ (unique = false ∧ c = d ∨ env.Requires d c)
  falls _ _ := True
  answers w c unique _ _ j := j = some (ticket c unique) ∧ Asked w.2 c unique
  refl _ := ⟨⟨Continues.refl _, Continues.refl _⟩, fun _ _ h => h, fun _ h => Or.inl h⟩
  trans h h' := by
    refine ⟨⟨h.1.1.trans h'.1.1, h.1.2.trans h'.1.2⟩,
      fun _ _ hs => h'.2.1 _ _ (h.2.1 _ _ hs), fun c hc => ?_⟩
    rcases h'.2.2 c hc with hold | hnew
    · rcases h.2.2 c hold with hold | ⟨d, unique, hasked, hd⟩
      · exact Or.inl hold
      · exact Or.inr ⟨d, unique, h'.2.1 _ _ hasked, hd⟩
    · exact Or.inr hnew
  falls_refl _ := trivial
  falls_trans _ _ := trivial
  noted _ hn hm _ := ⟨trivial, ⟨hn, hm⟩, fun _ _ h => h, fun _ h => Or.inl h⟩
  notes h := h.1
  stable h h' := ⟨h'.1, h.2.1 _ _ h'.2⟩

theorem shared_opened_ne_none {s : Session} {config c : NodeId} {component : Component}
    {unique : Bool} : (env.opened s config component unique).shared[c]? ≠ none <->
      s.shared[c]? ≠ none ∨ (unique = false ∧ c = config) := by
  rw [shared_opened]
  split
  · next hnew => exact ⟨fun _ => Or.inr hnew, fun _ => Option.some_ne_none _⟩
  · next hnew => exact ⟨Or.inl, fun h => h.resolve_right hnew⟩

theorem instantiateWith_ordinary (env : Environment) : env.Ordinary env.instantiateWith :=
  fun _ _ _ _ _ _ _ => rfl

theorem asked_grows (t : Session) (config : NodeId) (unique : Bool) (c : NodeId) (unique' : Bool)
    (h : Asked t c unique') :
    Asked (t.share (ticket config unique) (ticket config unique)) c unique' :=
  asked_share.mpr (Or.inr h)

theorem asked_self (t : Session) (config : NodeId) (unique : Bool) :
    Asked (t.share (ticket config unique) (ticket config unique)) config unique :=
  asked_share.mpr (Or.inl ⟨rfl, rfl⟩)

theorem sharing_beside (env : Environment) :
    Beside env env.instantiateWith (fun _ : List NodeId => env.sharing) id where
  ordinary := env.instantiateWith_ordinary
  excused _ _ := trivial
  ofActive {k s t s' config unique lazy i levels} hactive _ hrun := by
    rw [outcome_instantiateWith_active hactive] at hrun
    cases hrun
    exact ⟨trivial, ⟨⟨Continues.refl _, Continues.refl _⟩, asked_grows t config unique,
      fun _ h => Or.inl h⟩, rfl, asked_self t config unique⟩
  ofShared {k s t config lazy id} _ _ _ :=
    ⟨trivial, ⟨⟨Continues.refl _, Continues.refl _⟩, asked_grows t config false,
      fun _ h => Or.inl h⟩, rfl, asked_self t config false⟩
  ofNew {k s t config unique lazy component} _ _ _ hcomponent := by
    refine ⟨config :: k, rfl, trivial, ?_⟩
    intro levels resolved s' tickets t' _ _ htemplate _ hlater _
    refine ⟨trivial, ⟨⟨?_, Continues.refl _⟩, asked_grows t config unique, ?_⟩, rfl,
      asked_self t config unique⟩
    · have hnotes := hlater.1.1
      rw [notes_opened] at hnotes
      exact hnotes
    · intro c hc
      rcases hlater.2.2 c hc with hopened | ⟨d, unique', hasked, hd⟩
      · rcases shared_opened_ne_none.mp hopened with hold | ⟨hunique, rfl⟩
        · exact Or.inl hold
        · exact Or.inr ⟨c, unique, asked_self t c unique, Or.inl ⟨hunique, rfl⟩⟩
      · have hasks : env.Asks config d unique' :=
          ⟨component, hcomponent, by rw [htemplate]; exact hasked⟩
        refine Or.inr ⟨config, unique, asked_self t config unique, Or.inr ?_⟩
        rcases hd with ⟨rfl, rfl⟩ | hrequires
        · exact ⟨config, .refl, hasks⟩
        · exact Requires.of_asks hasks hrequires

theorem requires_of_argumentsBy {levels : Nat} (hlevels : levels ≤ env.depthLimit)
    {active : List NodeId} {config : NodeId} {component : Component} {s s' : Session}
    {resolved : List Argument} (hcomponent : Component.forConfig env.graph config = .ok component)
    (hrun : outcome (env.argumentsBy env.instantiateWith levels active config component) s =
      (.ok resolved, s'))
    {c : NodeId} (hc : s'.shared[c]? ≠ none) : s.shared[c]? ≠ none ∨ env.Requires config c := by
  have hdeeper : Deeper (fun _ : List NodeId => env.sharing) env.depthLimit levels env.depthLimit :=
    ⟨hlevels, Nat.le_refl _, Or.inr fun _ _ => trivial⟩
  rcases ((assembles_and_fits (strategiesKeep_of_beside (sharing_beside env)) hdeeper).2 active s
    Session.empty config component rfl trivial).ok hrun with
    ⟨tickets, t, htemplate, -, -, hlater, -⟩
  rcases hlater.2.2 c hc with hold | ⟨d, unique, hasked, hd⟩
  · exact Or.inl hold
  · have htemplate' : env.template config component = (.ok tickets, t) := htemplate
    have hasks : env.Asks config d unique :=
      ⟨component, hcomponent, by rw [htemplate']; exact hasked⟩
    rcases hd with ⟨rfl, rfl⟩ | hrequires
    · exact Or.inr ⟨config, .refl, hasks⟩
    · exact Or.inr (Requires.of_asks hasks hrequires)

end Environment
end Wiring
