import Wiring.Proofs.Argument
import Wiring.Proofs.Parameter.Stage
import Wiring.Resolution.Walk

/-!
# Bonds

Two resolutions that run side by side keep their sessions in some relation to
each other, and get related answers to the same requests.  A bond is such a
relation together with what may happen to it while both go on.
-/

namespace Wiring

abbrev World := Session × Session

def World.noted (w : World) (n m : Notes) : World :=
  ({ w.1 with notes := n }, { w.2 with notes := m })

/-- How two sessions belong together: what holds of them between two steps, what may become of them
by steps that succeed and by one that fails, and which answers to a request belong together. -/
structure Bond where
  excused : Failure -> Prop
  valid : World -> Prop
  later : World -> World -> Prop
  falls : World -> World -> Prop
  answers : World -> Argument.Answers
  refl {w : World} : valid w -> later w w
  trans {w w' w'' : World} : later w w' -> later w' w'' -> later w w''
  falls_refl {w : World} : valid w -> falls w w
  falls_trans {w w' w'' : World} : later w w' -> falls w' w'' -> falls w w''
  noted {w : World} {n m : Notes} : valid w -> Continues w.1.notes n -> Continues w.2.notes m ->
    (w.1.notes = w.2.notes -> n = m) -> valid (w.noted n m) ∧ later w (w.noted n m)
  notes {w w' : World} : later w w' ->
    Continues w.1.notes w'.1.notes ∧ Continues w.2.notes w'.2.notes
  stable {w w' : World} {config : NodeId} {unique lazy : Bool} {i j : Option InstanceId} :
    later w w' -> answers w config unique lazy i j -> answers w' config unique lazy i j

/-- How a state holds a session, beside a rest that is the same on both sides. -/
structure View (σ : Type) where
  Rest : Type
  session : σ -> Session
  rest : σ -> Rest

namespace View

def ofSession : View Session :=
  ⟨Unit, id, fun _ => ()⟩

def ofFrame : View Frame :=
  ⟨Generics, Frame.session, Frame.generics⟩

def world {σ : Type} (V : View σ) (s t : σ) : World :=
  (V.session s, V.session t)

@[simp] theorem world_ofSession (s t : Session) : ofSession.world s t = (s, t) := rfl

@[simp] theorem world_ofFrame (f g : Frame) : ofFrame.world f g = (f.session, g.session) := rfl

end View

def Bond.Keeps (B : Bond) {σ α β : Type} (V : View σ) (s t : σ)
    (x : ExceptT Failure (StateM σ) α) (y : ExceptT Failure (StateM σ) β)
    (ends : World -> α -> β -> Prop) : Prop :=
  V.rest s = V.rest t -> B.valid (V.world s t) ->
    Lockstep B.excused (fun s' t' => B.falls (V.world s t) (V.world s' t')) x y s t
      fun s' t' a b => V.rest s' = V.rest t' ∧ B.valid (V.world s' t') ∧
        B.later (V.world s t) (V.world s' t') ∧ ends (V.world s' t') a b

abbrev Bond.Walks (B : Bond) {α β : Type} (f g : Frame) (x : Walking α) (y : Walking β)
    (ends : World -> α -> β -> Prop) : Prop :=
  B.Keeps View.ofFrame f g x y ends

abbrev Bond.Resolves (B : Bond) {α β : Type} (s t : Session) (x : Resolving α) (y : Resolving β)
    (ends : World -> α -> β -> Prop) : Prop :=
  B.Keeps View.ofSession s t x y ends

namespace Bond
namespace Keeps

variable {B : Bond} {σ α β γ δ : Type} {V : View σ} {s t : σ}
  {x : ExceptT Failure (StateM σ) α} {y : ExceptT Failure (StateM σ) β}
  {ends ends' : World -> α -> β -> Prop}

theorem pure {a : α} {b : β} (h : ends (V.world s t) a b) :
    B.Keeps V s t (Pure.pure a) (Pure.pure b) ends :=
  fun hrest hvalid => Lockstep.pure ⟨hrest, hvalid, B.refl hvalid, h⟩

theorem throw_excused {e : Failure} (he : B.excused e) : B.Keeps V s t (throw e) y ends :=
  fun _ _ => Lockstep.of_excused (outcome_throw e s) he

theorem throw {e : Failure} : B.Keeps V s t (throw e) (throw e) ends :=
  fun _ hvalid => Lockstep.throw (B.falls_refl hvalid)

theorem mono (h : B.Keeps V s t x y ends)
    (himp : forall w a b, B.later (V.world s t) w -> ends w a b -> ends' w a b) :
    B.Keeps V s t x y ends' :=
  fun hrest hvalid => Lockstep.mono (h hrest hvalid) fun _ _ _ _ hends =>
    ⟨hends.1, hends.2.1, hends.2.2.1, himp _ _ _ hends.2.2.1 hends.2.2.2⟩

theorem bind {k : α -> ExceptT Failure (StateM σ) γ} {l : β -> ExceptT Failure (StateM σ) δ}
    {ends'' : World -> γ -> δ -> Prop} (h : B.Keeps V s t x y ends)
    (hk : forall s' t' a b, B.later (V.world s t) (V.world s' t') -> ends (V.world s' t') a b ->
      B.Keeps V s' t' (k a) (l b) ends'') :
    B.Keeps V s t (x >>= k) (y >>= l) ends'' := by
  intro hrest hvalid
  apply Lockstep.bind (h hrest hvalid)
  rintro s' t' a b ⟨hrest', hvalid', hlater, hends⟩
  refine Lockstep.mono (Lockstep.mono_falls (hk s' t' a b hlater hends hrest' hvalid') ?_) ?_
  · intro s'' t'' hfalls
    exact B.falls_trans hlater hfalls
  · intro s'' t'' c d hends'
    exact ⟨hends'.1, hends'.2.1, B.trans hlater hends'.2.2.1, hends'.2.2.2⟩

theorem bind_get {k : σ -> ExceptT Failure (StateM σ) α} {l : σ -> ExceptT Failure (StateM σ) β}
    (h : V.rest s = V.rest t -> B.Keeps V s t (k s) (l t) ends) :
    B.Keeps V s t (MonadState.get >>= k) (MonadState.get >>= l) ends := by
  intro hrest hvalid
  have hkeeps := h hrest hrest hvalid
  exact ⟨hkeeps.ok, hkeeps.error⟩

theorem mapM {f : α -> ExceptT Failure (StateM σ) γ} {g : β -> ExceptT Failure (StateM σ) δ}
    {R : World -> α -> β -> Prop} {E : World -> γ -> δ -> Prop}
    (hR : forall w w' a b, B.later w w' -> R w a b -> R w' a b)
    (hE : forall w w' c d, B.later w w' -> E w c d -> E w' c d)
    (hfg : forall s t a b, R (V.world s t) a b -> B.Keeps V s t (f a) (g b) E)
    {as : List α} {bs : List β} (h : List.Forall₂ (R (V.world s t)) as bs) :
    B.Keeps V s t (as.mapM f) (bs.mapM g) fun w => List.Forall₂ (E w) := by
  induction as generalizing s t bs with
  | nil =>
      cases h
      exact pure List.Forall₂.nil
  | cons a as ih =>
      rcases List.forall₂_cons_left_iff.mp h with ⟨b, bs', hab, hrest, rfl⟩
      rw [List.mapM_cons, List.mapM_cons]
      apply bind (hfg s t a b hab)
      intro s' t' c d hlater hcd
      refine bind (ih (hrest.imp fun _ _ => hR _ _ _ _ hlater)) ?_
      intro s'' t'' cs ds hlater' hcds
      exact pure (List.Forall₂.cons (hE _ _ _ _ hlater' hcd) hcds)

theorem mapM_same {f : α -> ExceptT Failure (StateM σ) γ} {g : α -> ExceptT Failure (StateM σ) δ}
    {E : World -> γ -> δ -> Prop}
    (hE : forall w w' c d, B.later w w' -> E w c d -> E w' c d)
    (hfg : forall s t a, B.Keeps V s t (f a) (g a) E) (as : List α) :
    B.Keeps V s t (as.mapM f) (as.mapM g) fun w => List.Forall₂ (E w) := by
  refine mapM (R := fun _ a b => a = b) (fun _ _ _ _ _ h => h) hE ?_
    (List.forall₂_same.mpr fun _ _ => rfl)
  rintro s t a _ rfl
  exact hfg s t a

end Keeps

/-!
# Steps in the definition of an instance
-/

section Walking

variable {B : Bond} {α β : Type} {f g : Frame} {ends : World -> α -> β -> Prop}

theorem walks_ofExcept (x : Except Failure α) :
    B.Walks f g (Walking.ofExcept x) (Walking.ofExcept x) fun _ a b => a = b := by
  cases x with
  | error e => exact Keeps.throw
  | ok a => exact Keeps.pure rfl

theorem walks_ofResolving {x : Resolving α} {y : Resolving β}
    (h : B.Resolves f.session g.session x y ends) :
    B.Walks f g (Walking.ofResolving x) (Walking.ofResolving y) ends := by
  intro hrest hvalid
  refine Lockstep.embed (h rfl hvalid)
    (fun s => ⟨s, f.generics⟩) (fun s => ⟨s, g.generics⟩) rfl rfl ?_ ?_
  · rintro s t a b _ _ ⟨_, hvalid', hlater, hends⟩
    exact ⟨hrest, hvalid', hlater, hends⟩
  · intro e s t _ _ hfalls
    exact hfalls

theorem walks_ofPreparing {x : Preparing α} {y : Preparing β}
    {noted : Notes -> Notes -> α -> β -> Prop}
    (h : forall c, Prepares B.excused f.session.notes g.session.notes c x y noted) :
    B.Walks f g (Walking.ofPreparing x) (Walking.ofPreparing y)
      fun w => noted w.1.notes w.2.notes := by
  intro hrest hvalid
  have hgenerics : f.generics = g.generics := hrest
  refine Lockstep.embed (h f.generics)
    (fun bench => ⟨{ f.session with notes := bench.notes }, bench.generics⟩)
    (fun bench => ⟨{ g.session with notes := bench.notes }, bench.generics⟩) rfl ?_ ?_ ?_
  · rw [hgenerics]
    rfl
  · rintro b d a a' _ _ ⟨hgenerics', hbeside, hends⟩
    rcases B.noted hvalid hbeside.left hbeside.right hbeside.equal with ⟨hvalid', hlater⟩
    exact ⟨hgenerics', hvalid', hlater, hends⟩
  · rintro e b d _ _ hbeside
    rcases B.noted hvalid hbeside.left hbeside.right hbeside.equal with ⟨hvalid', hlater⟩
    exact B.falls_trans hlater (B.falls_refl hvalid')

theorem walks_ofBinding (x : Generics.Binding α) :
    B.Walks f g (Walking.ofBinding x) (Walking.ofBinding x) fun _ a b => a = b := by
  intro hrest hvalid
  have hgenerics : f.generics = g.generics := hrest
  refine Lockstep.embed (Lockstep.same x f.generics)
    (fun c => { f with generics := c }) (fun c => { g with generics := c }) rfl ?_ ?_ ?_
  · rw [hgenerics]
    rfl
  · rintro c d a b _ _ ⟨rfl, rfl⟩
    exact ⟨rfl, hvalid, B.refl hvalid, rfl⟩
  · rintro e c d _ _ rfl
    exact B.falls_refl hvalid

theorem resolves_within {s t : Session} {c : Generics} {x : Walking α} {y : Walking β}
    (h : B.Walks ⟨s, c⟩ ⟨t, c⟩ x y ends) :
    B.Resolves s t (Walking.within c x) (Walking.within c y) ends := by
  intro _ hvalid
  refine Lockstep.embed (h rfl hvalid) Frame.session Frame.session rfl rfl ?_ ?_
  · rintro f g a b _ _ ⟨_, hvalid', hlater, hends⟩
    exact ⟨rfl, hvalid', hlater, hends⟩
  · intro e f g _ _ hfalls
    exact hfalls

end Walking
end Bond
end Wiring
