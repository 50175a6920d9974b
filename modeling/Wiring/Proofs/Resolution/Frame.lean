import Wiring.Proofs.Parameter.Uniqueness
import Wiring.Resolution.Session

/-!
# Ledgers of frames

The steps in the definition of an instance have a session beside the generic type
parameters of the instance.  A ledger of sessions is also one of such steps.
-/

namespace Wiring
namespace Ledger

variable {L : Ledger Session} {α : Type} {s : Session} {f : Frame}

def ofFrame (L : Ledger Session) : Ledger Frame where
  moves f ids g := L.moves f.session ids g.session
  refl f := L.refl f.session
  trans := L.trans

theorem posts_ofExcept (x : Except Failure α) :
    L.ofFrame.Posts f (Walking.ofExcept x) fun ids _ a => ids = [] ∧ x = .ok a := by
  intro a f' hrun
  cases hrun
  exact ⟨[], L.refl f.session, rfl, rfl⟩

theorem posts_ofResolving {x : Resolving α} {ends : List InstanceId -> Session -> α -> Prop}
    (h : L.Posts f.session x ends) :
    L.ofFrame.Posts f (Walking.ofResolving x) fun ids f' => ends ids f'.session := by
  intro a f' hrun
  rcases hx : outcome x f.session with ⟨answer, s'⟩
  have hrun' : outcome (Walking.ofResolving x) f = (answer, { f with session := s' }) := by
    change (fun r : Except Failure α × Session => (r.1, { f with session := r.2 }))
      (outcome x f.session) = _
    rw [hx]
  rw [hrun'] at hrun
  cases hrun
  exact h a s' hx

theorem posts_ofPreparing {x : Preparing α} {ends : Notes -> α -> Prop}
    (hnoted : forall s n, Continues s.notes n -> L.moves s [] { s with notes := n })
    (h : noting.Posts ⟨f.session.notes, f.generics⟩ x fun _ b => ends b.notes) :
    L.ofFrame.Posts f (Walking.ofPreparing x)
      fun ids f' a => ids = [] ∧ ends f'.session.notes a := by
  intro a f' hrun
  rcases hx : outcome x ⟨f.session.notes, f.generics⟩ with ⟨answer, b⟩
  have hrun' : outcome (Walking.ofPreparing x) f =
      (answer, ⟨{ f.session with notes := b.notes }, b.generics⟩) := by
    change (fun r : Except Failure α × Workbench =>
      (r.1, Frame.mk { f.session with notes := r.2.notes } r.2.generics))
      (outcome x ⟨f.session.notes, f.generics⟩) = _
    rw [hx]
  rw [hrun'] at hrun
  cases hrun
  rcases h a b hx with ⟨_, ⟨-, hnotes⟩, hends⟩
  exact ⟨[], hnoted _ _ hnotes, rfl, hends⟩

theorem posts_ofBinding (x : Generics.Binding α) :
    L.ofFrame.Posts f (Walking.ofBinding x) fun ids _ _ => ids = [] := by
  intro a f' hrun
  rcases hx : outcome x f.generics with ⟨answer, c⟩
  have hrun' : outcome (Walking.ofBinding x) f = (answer, { f with generics := c }) := by
    change (fun r : Except Failure α × Generics => (r.1, { f with generics := r.2 }))
      (outcome x f.generics) = _
    rw [hx]
  rw [hrun'] at hrun
  cases hrun
  exact ⟨[], L.refl f.session, rfl⟩

theorem posts_within {c : Generics} {x : Walking α}
    {ends : List InstanceId -> Session -> α -> Prop}
    (h : L.ofFrame.Posts ⟨s, c⟩ x fun ids f' => ends ids f'.session) :
    L.Posts s (Walking.within c x) ends := by
  intro a s' hrun
  rcases hx : outcome x ⟨s, c⟩ with ⟨answer, f'⟩
  have hrun' : outcome (Walking.within c x) s = (answer, f'.session) := by
    change (fun r : Except Failure α × Frame => (r.1, r.2.session)) (outcome x ⟨s, c⟩) = _
    rw [hx]
  rw [hrun'] at hrun
  cases hrun
  exact h a f' hx

end Ledger
end Wiring
