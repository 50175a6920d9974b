import Mathlib.Data.List.Forall2
import Wiring.Argument
import Wiring.Proofs.Lockstep

/-!
# Ledgers

A step that succeeds hands out instances, one after the other.  A ledger says
what may become of the state meanwhile, and two steps in sequence hand out what
the first does and then what the second does.
-/

namespace Wiring

/-- What may become of a state while certain instances are handed out, in their order. -/
structure Ledger (σ : Type) where
  moves : σ -> List InstanceId -> σ -> Prop
  refl (s : σ) : moves s [] s
  trans {s s' s'' : σ} {ids ids' : List InstanceId} :
    moves s ids s' -> moves s' ids' s'' -> moves s (ids ++ ids') s''

/-- A step that succeeds moves on as the ledger says, and `ends` holds of the instances that it hands
out, of the state that it leaves and of its answer. -/
def Ledger.Posts {σ ε α : Type} (L : Ledger σ) (s : σ) (x : ExceptT ε (StateM σ) α)
    (ends : List InstanceId -> σ -> α -> Prop) : Prop :=
  forall a s', outcome x s = (.ok a, s') -> exists ids, L.moves s ids s' ∧ ends ids s' a

namespace Ledger.Posts

variable {σ ε α β : Type} {L : Ledger σ} {s : σ} {x : ExceptT ε (StateM σ) α}
  {ends ends' : List InstanceId -> σ -> α -> Prop}

theorem pure {a : α} (h : ends [] s a) :
    L.Posts s (Pure.pure a : ExceptT ε (StateM σ) α) ends := by
  intro b s' hrun
  cases hrun
  exact ⟨[], L.refl s, h⟩

theorem throw {e : ε} : L.Posts s (throw e : ExceptT ε (StateM σ) α) ends := by
  intro a s' hrun
  cases hrun

theorem mono (h : L.Posts s x ends)
    (himp : forall ids s' a, L.moves s ids s' -> ends ids s' a -> ends' ids s' a) :
    L.Posts s x ends' := by
  intro a s' hrun
  rcases h a s' hrun with ⟨ids, hmoves, hends⟩
  exact ⟨ids, hmoves, himp ids s' a hmoves hends⟩

theorem bind {k : α -> ExceptT ε (StateM σ) β} {ends' : List InstanceId -> σ -> β -> Prop}
    (h : L.Posts s x ends)
    (hk : forall ids s' a, L.moves s ids s' -> ends ids s' a ->
      L.Posts s' (k a) fun ids' => ends' (ids ++ ids')) :
    L.Posts s (x >>= k) ends' := by
  intro b t hrun
  rcases outcome_bind_eq_ok hrun with ⟨a, s', hfirst, hsecond⟩
  rcases h a s' hfirst with ⟨ids, hmoves, hends⟩
  rcases hk ids s' a hmoves hends b t hsecond with ⟨ids', hmoves', hends'⟩
  exact ⟨ids ++ ids', L.trans hmoves hmoves', hends'⟩

theorem bind_get {k : σ -> ExceptT ε (StateM σ) α} (h : L.Posts s (k s) ends) :
    L.Posts s (MonadState.get >>= k) ends := h

theorem mapM {f : α -> ExceptT ε (StateM σ) β} {c : β -> List InstanceId}
    {R : σ -> α -> Prop} {E : σ -> β -> Prop}
    (hR : forall s s' ids a, L.moves s ids s' -> R s a -> R s' a)
    (hE : forall s s' ids b, L.moves s ids s' -> E s b -> E s' b)
    (hf : forall s a, R s a -> L.Posts s (f a) fun ids s' b => c b = ids ∧ E s' b)
    {as : List α} (h : forall a, a ∈ as -> R s a) :
    L.Posts s (as.mapM f) fun ids s' bs =>
      bs.length = as.length ∧ bs.flatMap c = ids ∧ forall b, b ∈ bs -> E s' b := by
  induction as generalizing s with
  | nil => exact pure ⟨rfl, rfl, fun b hb => absurd hb List.not_mem_nil⟩
  | cons a rest ih =>
      rw [List.mapM_cons]
      apply bind (hf s a (h a List.mem_cons_self))
      rintro ids s' b hmoves ⟨rfl, hb⟩
      apply bind (ih fun a' ha' => hR _ _ _ _ hmoves (h a' (List.mem_cons_of_mem _ ha')))
      rintro ids' s'' bs hmoves' ⟨hlength, rfl, hbs⟩
      refine pure ⟨congrArg Nat.succ hlength, by simp, fun b' hb' => ?_⟩
      rcases List.mem_cons.mp hb' with rfl | hb'
      · exact hE _ _ _ _ hmoves' hb
      · exact hbs b' hb'

theorem mapM_content {f : α -> ExceptT ε (StateM σ) β} {c : β -> List InstanceId}
    (hf : forall s a, L.Posts s (f a) fun ids _ b => c b = ids) (as : List α) :
    L.Posts s (as.mapM f) fun ids _ bs =>
      bs.length = as.length ∧ bs.flatMap c = ids := by
  refine mono (mapM (L := L) (R := fun _ _ => True) (E := fun _ _ => True)
    (fun _ _ _ _ _ _ => trivial) (fun _ _ _ _ _ _ => trivial) (fun s a _ => ?_)
    fun _ _ => trivial) fun _ _ _ _ hends => ⟨hends.1, hends.2.1⟩
  exact mono (hf s a) fun _ _ _ _ hcontent => ⟨hcontent, trivial⟩

theorem mapM_silent (hsilent : forall s ids s', L.moves s ids s' -> ids = [])
    {f : α -> ExceptT ε (StateM σ) β} {R : σ -> α -> Prop} {E : σ -> β -> Prop}
    (hR : forall s s' a, L.moves s [] s' -> R s a -> R s' a)
    (hE : forall s s' b, L.moves s [] s' -> E s b -> E s' b)
    (hf : forall s a, R s a -> L.Posts s (f a) fun _ s' b => E s' b)
    {as : List α} (h : forall a, a ∈ as -> R s a) :
    L.Posts s (as.mapM f) fun _ s' bs => forall b, b ∈ bs -> E s' b := by
  refine mono (mapM (c := fun _ => []) (fun s s' ids a hmoves => ?_)
    (fun s s' ids b hmoves => ?_) (fun s a ha => ?_) h) fun _ _ _ _ hends => hends.2.2
  · obtain rfl := hsilent s ids s' hmoves
    exact hR s s' a hmoves
  · obtain rfl := hsilent s ids s' hmoves
    exact hE s s' b hmoves
  · exact mono (hf s a ha) fun ids s' b hmoves hb => ⟨(hsilent s ids s' hmoves).symm, hb⟩

theorem mapM_forall₂ {f : α -> ExceptT ε (StateM σ) β} {R : σ -> α -> Prop} {E : α -> β -> Prop}
    (hR : forall s s' ids a, L.moves s ids s' -> R s a -> R s' a)
    (hf : forall s a, R s a -> L.Posts s (f a) fun _ _ b => E a b)
    {as : List α} (h : forall a, a ∈ as -> R s a) :
    L.Posts s (as.mapM f) fun _ _ bs => List.Forall₂ E as bs := by
  induction as generalizing s with
  | nil => exact pure .nil
  | cons a rest ih =>
      rw [List.mapM_cons]
      apply bind (hf s a (h a List.mem_cons_self))
      intro ids s' b hmoves hb
      apply bind (ih fun a' ha' => hR _ _ _ _ hmoves (h a' (List.mem_cons_of_mem _ ha')))
      intro ids' s'' bs _ hbs
      exact pure (.cons hb hbs)

theorem mapM_each₂ {f : α -> ExceptT ε (StateM σ) β} {E : α -> β -> Prop}
    (hf : forall s a, L.Posts s (f a) fun _ _ b => E a b) (as : List α) :
    L.Posts s (as.mapM f) fun _ _ bs => List.Forall₂ E as bs :=
  mapM_forall₂ (R := fun _ _ => True) (fun _ _ _ _ _ _ => trivial) (fun s a _ => hf s a)
    fun _ _ => trivial

theorem mapM_forall {f : α -> ExceptT ε (StateM σ) β} {R : σ -> α -> Prop} {P : β -> Prop}
    (hR : forall s s' ids a, L.moves s ids s' -> R s a -> R s' a)
    (hf : forall s a, R s a -> L.Posts s (f a) fun _ _ b => P b)
    {as : List α} (h : forall a, a ∈ as -> R s a) :
    L.Posts s (as.mapM f) fun _ _ bs => forall b, b ∈ bs -> P b := by
  refine mono (mapM_forall₂ (E := fun _ b => P b) hR hf h) fun _ _ bs _ hbs => ?_
  exact ((List.forall₂_and_left (R := fun _ _ => True) bs as).mp
    (hbs.flip.imp fun _ _ hb => ⟨hb, trivial⟩)).1

theorem mapM_each {f : α -> ExceptT ε (StateM σ) β} {P : β -> Prop}
    (hf : forall s a, L.Posts s (f a) fun _ _ b => P b) (as : List α) :
    L.Posts s (as.mapM f) fun _ _ bs => forall b, b ∈ bs -> P b :=
  mapM_forall (R := fun _ _ => True) (fun _ _ _ _ _ _ => trivial) (fun s a _ => hf s a)
    fun _ _ => trivial

end Ledger.Posts
end Wiring
