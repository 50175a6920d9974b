/-!
# Steps side by side

A step reads and changes a state and may fail.  Most facts about resolution
compare two of its runs: on two sessions, at two depths, or with two ways of
answering the same request.  This module states what it means that two steps
agree and how agreement passes through sequences of steps.

A fact about a single run is the case in which both steps are the same.
-/

namespace Wiring

section Steps

variable {ε σ τ α β γ δ : Type}

def outcome (x : ExceptT ε (StateM σ) α) (s : σ) : Except ε α × σ :=
  x.run.run s

@[simp] theorem outcome_pure (a : α) (s : σ) :
    outcome (pure a : ExceptT ε (StateM σ) α) s = (.ok a, s) := rfl

@[simp] theorem outcome_throw (e : ε) (s : σ) :
    outcome (throw e : ExceptT ε (StateM σ) α) s = (.error e, s) := rfl

@[simp] theorem outcome_get (s : σ) :
    outcome (get : ExceptT ε (StateM σ) σ) s = (.ok s, s) := rfl

@[simp] theorem outcome_set (s t : σ) :
    outcome (set t : ExceptT ε (StateM σ) PUnit) s = (.ok ⟨⟩, t) := rfl

@[simp] theorem outcome_modifyGet (f : σ -> α × σ) (s : σ) :
    outcome (modifyGet f : ExceptT ε (StateM σ) α) s = (.ok (f s).1, (f s).2) := rfl

@[simp] theorem outcome_modify (f : σ -> σ) (s : σ) :
    outcome (modify f : ExceptT ε (StateM σ) PUnit) s = (.ok ⟨⟩, f s) := rfl

theorem outcome_bind (x : ExceptT ε (StateM σ) α)
    (k : α -> ExceptT ε (StateM σ) β) (s : σ) :
    outcome (x >>= k) s =
      match outcome x s with
      | (.ok a, s') => outcome (k a) s'
      | (.error e, s') => (.error e, s') := by
  change (match outcome x s with
    | (a, s') => (ExceptT.bindCont k a : StateM σ (Except ε β)) s') = _
  rcases outcome x s with ⟨_ | _, s'⟩ <;> rfl

theorem outcome_map (f : α -> β) (x : ExceptT ε (StateM σ) α) (s : σ) :
    outcome (f <$> x) s =
      match outcome x s with
      | (.ok a, s') => (.ok (f a), s')
      | (.error e, s') => (.error e, s') := by
  rw [map_eq_pure_bind, outcome_bind]
  rfl

theorem outcome_bind_ok {x : ExceptT ε (StateM σ) α}
    {k : α -> ExceptT ε (StateM σ) β} {s s' : σ} {a : α}
    (h : outcome x s = (.ok a, s')) :
    outcome (x >>= k) s = outcome (k a) s' := by
  rw [outcome_bind, h]

theorem outcome_bind_error {x : ExceptT ε (StateM σ) α}
    {k : α -> ExceptT ε (StateM σ) β} {s s' : σ} {e : ε}
    (h : outcome x s = (.error e, s')) :
    outcome (x >>= k) s = (.error e, s') := by
  rw [outcome_bind, h]

theorem outcome_bind_congr {x y : ExceptT ε (StateM σ) α} {k : α -> ExceptT ε (StateM σ) β} {s : σ}
    (h : outcome x s = outcome y s) : outcome (x >>= k) s = outcome (y >>= k) s := by
  rw [outcome_bind, outcome_bind, h]

theorem outcome_bind_eq_ok {x : ExceptT ε (StateM σ) α}
    {k : α -> ExceptT ε (StateM σ) β} {s t : σ} {b : β}
    (h : outcome (x >>= k) s = (.ok b, t)) :
    exists a s', outcome x s = (.ok a, s') ∧ outcome (k a) s' = (.ok b, t) := by
  rcases hx : outcome x s with ⟨e | a, s'⟩
  · rw [outcome_bind_error hx] at h
    cases h
  · rw [outcome_bind_ok hx] at h
    exact ⟨a, s', rfl, h⟩

theorem outcome_bind_eq_error {x : ExceptT ε (StateM σ) α}
    {k : α -> ExceptT ε (StateM σ) β} {s t : σ} {e : ε}
    (h : outcome (x >>= k) s = (.error e, t)) :
    outcome x s = (.error e, t) ∨
      exists a s', outcome x s = (.ok a, s') ∧ outcome (k a) s' = (.error e, t) := by
  rcases hx : outcome x s with ⟨e' | a, s'⟩
  · rw [outcome_bind_error hx] at h
    cases h
    exact Or.inl rfl
  · rw [outcome_bind_ok hx] at h
    exact Or.inr ⟨a, s', rfl, h⟩

theorem bind_eq_ok {x : Except ε α} {k : α -> Except ε β} {b : β} :
    x >>= k = .ok b <-> exists a, x = .ok a ∧ k a = .ok b := by
  cases x with
  | error e =>
      constructor
      · intro h
        cases h
      · rintro ⟨a, ha, -⟩
        cases ha
  | ok a =>
      constructor
      · intro h
        exact ⟨a, rfl, h⟩
      · rintro ⟨a', ha, hk⟩
        cases ha
        exact hk

theorem bind_eq_error {x : Except ε α} {k : α -> Except ε β} {e : ε} :
    x >>= k = .error e <-> x = .error e ∨ exists a, x = .ok a ∧ k a = .error e := by
  cases x with
  | error e' =>
      constructor
      · intro h
        cases h
        exact Or.inl rfl
      · rintro (h | ⟨a, ha, -⟩)
        · cases h
          rfl
        · cases ha
  | ok a =>
      constructor
      · intro h
        exact Or.inr ⟨a, rfl, h⟩
      · rintro (h | ⟨a', ha, hk⟩)
        · cases h
        · cases ha
          exact hk

theorem exists_error_of_mapM {f : α -> Except ε β} {as : List α} {e : ε}
    (h : as.mapM f = .error e) : exists a, a ∈ as ∧ f a = .error e := by
  induction as with
  | nil => cases h
  | cons a rest ih =>
      rw [List.mapM_cons, bind_eq_error] at h
      rcases h with ha | ⟨b, -, h⟩
      · exact ⟨a, List.mem_cons_self, ha⟩
      · rcases bind_eq_error.mp h with hrest | ⟨bs, -, hpure⟩
        · rcases ih hrest with ⟨a', ha', herror⟩
          exact ⟨a', List.mem_cons_of_mem a ha', herror⟩
        · cases hpure

/-!
# Agreement of two steps
-/

/-- If the first step succeeds, so does the second, and the ends are related.  If the first step
fails, the failure is excused, or the second fails in the same way and the falls are related. -/
structure Lockstep (excused : ε -> Prop) (falls : σ -> τ -> Prop)
    (x : ExceptT ε (StateM σ) α) (y : ExceptT ε (StateM τ) β) (s : σ) (t : τ)
    (ends : σ -> τ -> α -> β -> Prop) : Prop where
  ok {a : α} {s' : σ} : outcome x s = (.ok a, s') ->
    exists b t', outcome y t = (.ok b, t') ∧ ends s' t' a b
  error {e : ε} {s' : σ} : outcome x s = (.error e, s') ->
    excused e ∨ exists t', outcome y t = (.error e, t') ∧ falls s' t'

namespace Lockstep

variable {excused : ε -> Prop} {falls : σ -> τ -> Prop}
  {x : ExceptT ε (StateM σ) α} {y : ExceptT ε (StateM τ) β} {s : σ} {t : τ}
  {ends ends' : σ -> τ -> α -> β -> Prop}

theorem of_outcome {a : α} {b : β} {s' : σ} {t' : τ}
    (hx : outcome x s = (.ok a, s')) (hy : outcome y t = (.ok b, t'))
    (h : ends s' t' a b) : Lockstep excused falls x y s t ends where
  ok hx' := by
    rw [hx] at hx'
    cases hx'
    exact ⟨b, t', hy, h⟩
  error hx' := by
    rw [hx] at hx'
    cases hx'

theorem of_error {e : ε} {s' : σ} {t' : τ}
    (hx : outcome x s = (.error e, s')) (hy : outcome y t = (.error e, t'))
    (h : falls s' t') : Lockstep excused falls x y s t ends where
  ok hx' := by
    rw [hx] at hx'
    cases hx'
  error hx' := by
    rw [hx] at hx'
    cases hx'
    exact Or.inr ⟨t', hy, h⟩

theorem of_excused {e : ε} {s' : σ}
    (hx : outcome x s = (.error e, s')) (h : excused e) :
    Lockstep excused falls x y s t ends where
  ok hx' := by
    rw [hx] at hx'
    cases hx'
  error hx' := by
    rw [hx] at hx'
    cases hx'
    exact Or.inl h

theorem pure {a : α} {b : β} (h : ends s t a b) :
    Lockstep excused falls (Pure.pure a) (Pure.pure b) s t ends :=
  of_outcome rfl rfl h

theorem throw {e : ε} (h : falls s t) :
    Lockstep excused falls (throw e) (throw e) s t ends :=
  of_error rfl rfl h

theorem same (x : ExceptT ε (StateM σ) α) (s : σ) :
    Lockstep excused Eq x x s s fun s' t' a b => s' = t' ∧ a = b where
  ok hx := ⟨_, _, hx, rfl, rfl⟩
  error hx := Or.inr ⟨_, hx, rfl⟩

theorem mono (h : Lockstep excused falls x y s t ends)
    (himp : forall s' t' a b, ends s' t' a b -> ends' s' t' a b) :
    Lockstep excused falls x y s t ends' where
  ok hx := by
    rcases h.ok hx with ⟨b, t', hy, hends⟩
    exact ⟨b, t', hy, himp _ _ _ _ hends⟩
  error := h.error

theorem mono_falls {falls' : σ -> τ -> Prop}
    (h : Lockstep excused falls x y s t ends)
    (himp : forall s' t', falls s' t' -> falls' s' t') :
    Lockstep excused falls' x y s t ends where
  ok := h.ok
  error hx := by
    rcases h.error hx with he | ⟨t', hy, hfalls⟩
    · exact Or.inl he
    · exact Or.inr ⟨t', hy, himp _ _ hfalls⟩

theorem bind {k : α -> ExceptT ε (StateM σ) γ} {l : β -> ExceptT ε (StateM τ) δ}
    {ends'' : σ -> τ -> γ -> δ -> Prop}
    (h : Lockstep excused falls x y s t ends)
    (hk : forall s' t' a b, ends s' t' a b ->
      Lockstep excused falls (k a) (l b) s' t' ends'') :
    Lockstep excused falls (x >>= k) (y >>= l) s t ends'' where
  ok hx := by
    rcases outcome_bind_eq_ok hx with ⟨a, s', hxa, hka⟩
    rcases h.ok hxa with ⟨b, t', hyb, hends⟩
    rw [outcome_bind_ok hyb]
    exact (hk _ _ _ _ hends).ok hka
  error hx := by
    rcases outcome_bind_eq_error hx with hxe | ⟨a, s', hxa, hka⟩
    · rcases h.error hxe with he | ⟨t', hye, hfalls⟩
      · exact Or.inl he
      · exact Or.inr ⟨t', outcome_bind_error hye, hfalls⟩
    · rcases h.ok hxa with ⟨b, t', hyb, hends⟩
      rw [outcome_bind_ok hyb]
      exact (hk _ _ _ _ hends).error hka

theorem embed {σ' τ' : Type} {X : ExceptT ε (StateM σ') α} {Y : ExceptT ε (StateM τ') β}
    {S : σ'} {T : τ'} {falls' : σ' -> τ' -> Prop} {ends'' : σ' -> τ' -> α -> β -> Prop}
    (h : Lockstep excused falls x y s t ends) (p : σ -> σ') (q : τ -> τ')
    (hX : outcome X S = Prod.map id p (outcome x s))
    (hY : outcome Y T = Prod.map id q (outcome y t))
    (hends : forall s' t' a b, outcome x s = (.ok a, s') -> outcome y t = (.ok b, t') ->
      ends s' t' a b -> ends'' (p s') (q t') a b)
    (hfalls : forall e s' t', outcome x s = (.error e, s') -> outcome y t = (.error e, t') ->
      falls s' t' -> falls' (p s') (q t')) :
    Lockstep excused falls' X Y S T ends'' where
  ok hx := by
    rcases hxs : outcome x s with ⟨answer, s'⟩
    rw [hX, hxs] at hx
    cases hx
    rcases h.ok hxs with ⟨b, t', hy, hab⟩
    refine ⟨b, q t', ?_, hends _ _ _ _ hxs hy hab⟩
    rw [hY, hy]
    rfl
  error hx := by
    rcases hxs : outcome x s with ⟨answer, s'⟩
    rw [hX, hxs] at hx
    cases hx
    rcases h.error hxs with he | ⟨t', hy, hfall⟩
    · exact Or.inl he
    · refine Or.inr ⟨q t', ?_, hfalls _ _ _ hxs hy hfall⟩
      rw [hY, hy]
      rfl

end Lockstep

end Steps
end Wiring
