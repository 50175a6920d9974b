import Wiring.Proofs.Resolution.Strict

/-!
# More of what a walk needs

A walk fails if it needs a level or a variable that it does not have.  With more
levels and more variables it does the same, unless it has failed for such a
reason.
-/

namespace Wiring

def cutoff (excused : Failure -> Prop) : Bond where
  excused := excused
  valid w := w.1 = w.2
  later w w' := w'.1 = w'.2 ∧ Continues w.1.notes w'.1.notes ∧ Continues w.2.notes w'.2.notes
  falls _ w' := w'.1 = w'.2
  answers _ _ _ _ i j := i = j
  refl h := ⟨h, Continues.refl _, Continues.refl _⟩
  trans h h' := ⟨h'.1, h.2.1.trans h'.2.1, h.2.2.trans h'.2.2⟩
  falls_refl h := h
  falls_trans _ h := h
  noted hst hn hm hsame := by
    have hequal := hsame (congrArg Session.notes hst)
    refine ⟨?_, ?_, hn, hm⟩ <;> simp [World.noted, hst, hequal]
  notes h := h.2
  stable _ h := h

namespace Environment

variable {env : Environment} {excused : Failure -> Prop} {supplied : Variables} {limit : Nat}

/-!
# One request
-/

section Requests

variable {arguments arguments' : List NodeId → NodeId → Component → Resolving (List Argument)}

theorem cutoff_instantiateWith
    (h : forall active s config component,
      (cutoff excused).Resolves s s (arguments active config component)
        (arguments' active config component)
        fun w => List.Forall₂ (Argument.Fits ((cutoff excused).answers w) false))
    (active : List NodeId) (s t : Session) (config : NodeId) (unique lazy : Bool) :
    (cutoff excused).Resolves s t (env.instantiateWith arguments active config unique lazy)
      (env.instantiateWith arguments' active config unique lazy)
      fun w => (cutoff excused).answers w config unique lazy := by
  intro _ hst
  obtain rfl : s = t := hst
  by_cases hactive : config ∈ active
  · exact Lockstep.of_outcome (outcome_instantiateWith_active hactive)
      (outcome_instantiateWith_active hactive) ⟨rfl, rfl, (cutoff excused).refl rfl, rfl⟩
  by_cases hnew : unique = true ∨ s.shared[config]? = none
  · have hleft := @outcome_instantiateWith_new env arguments active config unique lazy s hactive hnew
    have hright :=
      @outcome_instantiateWith_new env arguments' active config unique lazy s hactive hnew
    cases hcomponent : Component.forConfig env.graph config with
    | error e =>
        rw [hcomponent] at hleft hright
        exact Lockstep.of_error hleft hright rfl
    | ok component =>
        rw [hcomponent] at hleft hright
        dsimp only at hleft hright
        have hinner := h (config :: active) (env.opened s config component unique) config component
          rfl rfl
        rcases hx : outcome (arguments (config :: active) config component)
          (env.opened s config component unique) with ⟨e | resolved, s'⟩
        · rw [hx] at hleft
          rcases hinner.error hx with hexcused | ⟨t', hy, hst'⟩
          · exact Lockstep.of_excused hleft hexcused
          · obtain rfl : s' = t' := hst'
            rw [hy] at hright
            exact Lockstep.of_error hleft hright rfl
        · rw [hx] at hleft
          rcases hinner.ok hx with ⟨resolved', t', hy, -, hst', hlater, hfits⟩
          obtain rfl : s' = t' := hst'
          obtain rfl : resolved = resolved' := List.forall₂_eq_eq_eq ▸ hfits.imp fun _ _ hfit =>
            eq_of_fits (w := (s', s')) (hfit.mono fun _ _ _ _ _ hsame => hsame)
          rw [hy] at hright
          have hnotes := hlater.2
          simp only [View.world_ofSession, notes_opened] at hnotes
          exact Lockstep.of_outcome hleft hright ⟨rfl, rfl, ⟨rfl, hnotes⟩, rfl⟩
  · rw [not_or, Bool.not_eq_true] at hnew
    rcases hnew with ⟨rfl, hshared⟩
    rcases Option.ne_none_iff_exists'.mp hshared with ⟨id, hid⟩
    exact Lockstep.of_outcome (outcome_instantiateWith_shared hactive hid)
      (outcome_instantiateWith_shared hactive hid) ⟨rfl, rfl, (cutoff excused).refl rfl, rfl⟩

end Requests

/-!
# Walks
-/

theorem instantiateWith_given : (env.given supplied limit).instantiateWith = env.instantiateWith :=
  rfl

/-- The second number is the same, or it is higher and failures for want of a level are excused. -/
def Higher (excused : Failure -> Prop) (limit limit' : Nat) : Prop :=
  limit = limit' ∨ limit ≤ limit' ∧ forall bound node, excused (.depthExceeded bound node)

theorem cutoff_joins (hsupplied : env.supplied.Beside excused supplied)
    (hlimit : Higher excused env.depthLimit limit) {levels levels' : Nat}
    (hlevels : Higher excused levels levels') (active : List NodeId) :
    (cutoff excused).Joins env.supplied supplied active active
      ⟨env.assembleWithin levels, env.instantiateWithin levels⟩
      ⟨(env.given supplied limit).assembleWithin levels',
        (env.given supplied limit).instantiateWithin levels'⟩ := by
  induction levels generalizing levels' active with
  | zero =>
      -- Without levels the first walk fails, with an excused failure or as the second one does.
      have hthrow {σ α β : Type} {V : View σ} {s t : σ} {y : ExceptT Failure (StateM σ) β}
          {ends : World -> α -> β -> Prop} (node : NodeId)
          (hy : levels' = 0 -> y = throw ((env.given supplied limit).depthFailure node)) :
          (cutoff excused).Keeps V s t (throw (env.depthFailure node)) y ends := by
        rcases hlevels with rfl | ⟨-, hexcused⟩
        · rcases hlimit with hsame | ⟨-, hexcused⟩
          · have hfailure : (env.given supplied limit).depthFailure node = env.depthFailure node := by
              rw [depthFailure, depthFailure, hsame]
              rfl
            rw [hy rfl, hfailure]
            exact Bond.Keeps.throw
          · exact Bond.Keeps.throw_excused (hexcused _ _)
        · exact Bond.Keeps.throw_excused (hexcused _ _)
      refine ⟨hsupplied, fun f g root element node => ?_, fun s t config unique lazy => ?_⟩
      · refine hthrow node fun hzero => ?_
        rw [hzero]
        rfl
      · dsimp only
        rw [instantiateWithin_eq, instantiateWithin_eq, instantiateWith_given]
        refine cutoff_instantiateWith (fun active s config component => ?_) active s t config unique
          lazy
        refine hthrow config fun hzero => ?_
        rw [hzero]
        rfl
  | succ levels ih =>
      cases levels' with
      | zero =>
          rcases hlevels with hsame | ⟨hle, -⟩
          · cases hsame
          · exact absurd hle (Nat.not_succ_le_zero levels)
      | succ levels' =>
          have hdown := fun active => ih (hlevels.imp Nat.succ.inj
            (And.imp_left Nat.le_of_succ_le_succ)) active
          refine ⟨hsupplied, fun f g root element node => ?_, fun s t config unique lazy => ?_⟩
          · exact walks_assembleShape (hdown active) node
          · refine cutoff_instantiateWith (fun active s config component => ?_) active s t config
              unique lazy
            exact resolves_resolveArguments
              (fun f g node => (hdown active).assemble f g config config node) component

/-!
# Plans
-/

theorem cutoff_resolve (hsupplied : env.supplied.Beside excused supplied)
    (hlimit : Higher excused env.depthLimit limit) (config : NodeId) (s : Session) :
    (cutoff excused).Resolves s s (env.resolve config) ((env.given supplied limit).resolve config)
      fun _ id id' => id = id' := by
  have hjoins := cutoff_joins hsupplied hlimit hlimit []
  refine Bond.Keeps.bind (hjoins.instantiate s s config false false) ?_
  rintro s' t' i _ _ rfl
  cases i with
  | none => exact Bond.Keeps.throw
  | some id => exact Bond.Keeps.pure rfl

theorem plan_eq (env : Environment) (config : NodeId) :
    env.plan config =
      (outcome (env.resolve config) Session.empty).1.map
        (outcome (env.resolve config) Session.empty).2.toPlan := rfl

theorem plan_given (env : Environment) (hsupplied : env.supplied.Beside excused supplied)
    (limit : Nat) (hlimit : Higher excused env.depthLimit limit) (config : NodeId) :
    (env.given supplied limit).plan config = env.plan config ∨
      exists e, env.plan config = .error e ∧ excused e := by
  have hsame := cutoff_resolve hsupplied hlimit config Session.empty rfl rfl
  rw [plan_eq, plan_eq]
  rcases hrun : outcome (env.resolve config) Session.empty with ⟨e | id, s⟩
  · rcases hsame.error hrun with hexcused | ⟨t, hrun', -⟩
    · exact Or.inr ⟨e, rfl, hexcused⟩
    · rw [hrun']
      exact Or.inl rfl
  · rcases hsame.ok hrun with ⟨id', t, hrun', -, hst, -, hid⟩
    obtain rfl : s = t := hst
    obtain rfl : id = id' := hid
    rw [hrun']
    exact Or.inl rfl

end Environment
end Wiring
