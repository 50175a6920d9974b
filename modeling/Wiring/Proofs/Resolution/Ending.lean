import Wiring.Proofs.Generics.References
import Wiring.Proofs.Graph.Hierarchy
import Wiring.Proofs.Range.Description
import Wiring.Proofs.Resolution.Walk

/-!
# Resolution ends

Definitions and instances are nested as deep as the limit allows.  Lists and
generic type parameters are followed without a count, in steps that fail as
endless once there are more of them than could be different.  If no list holds
itself and no generic type parameter leads back to itself, no step fails so.
-/

namespace Wiring

def Failure.Endless : Failure → Prop
  | .endless _ => True
  | _ => False

/-- A step that leaves the invariant true if it succeeds, and does not fail as endless. -/
structure Ends {σ α : Type} (inv : σ -> Prop) (s : σ) (x : ExceptT Failure (StateM σ) α) : Prop where
  ok {a : α} {s' : σ} : outcome x s = (.ok a, s') -> inv s'
  error {e : Failure} {s' : σ} : outcome x s = (.error e, s') -> ¬ e.Endless

namespace Ends

variable {σ α β : Type} {inv : σ -> Prop} {s : σ} {x : ExceptT Failure (StateM σ) α}

theorem pure {a : α} (hs : inv s) : Ends inv s (Pure.pure a : ExceptT Failure (StateM σ) α) where
  ok h := by
    cases h
    exact hs
  error h := nomatch h

theorem throw {e : Failure} (he : ¬ e.Endless) :
    Ends inv s (throw e : ExceptT Failure (StateM σ) α) where
  ok h := nomatch h
  error h := by
    cases h
    exact he

theorem bind {k : α -> ExceptT Failure (StateM σ) β} (h : Ends inv s x)
    (hk : forall a s', inv s' -> Ends inv s' (k a)) : Ends inv s (x >>= k) where
  ok hrun := by
    rcases outcome_bind_eq_ok hrun with ⟨a, s', hfirst, hsecond⟩
    exact (hk a s' (h.ok hfirst)).ok hsecond
  error hrun := by
    rcases outcome_bind_eq_error hrun with hfirst | ⟨a, s', hfirst, hsecond⟩
    · exact h.error hfirst
    · exact (hk a s' (h.ok hfirst)).error hsecond

theorem bind_get {k : σ -> ExceptT Failure (StateM σ) α} (h : Ends inv s (k s)) :
    Ends inv s (MonadState.get >>= k) := ⟨h.ok, h.error⟩

theorem mapM {f : α -> ExceptT Failure (StateM σ) β} {as : List α} (hs : inv s)
    (hf : forall s a, inv s -> a ∈ as -> Ends inv s (f a)) : Ends inv s (as.mapM f) := by
  induction as generalizing s with
  | nil => exact pure hs
  | cons a rest ih =>
      rw [List.mapM_cons]
      apply bind (hf s a hs List.mem_cons_self)
      intro b s' hs'
      apply bind (ih hs' fun s a hs ha => hf s a hs (List.mem_cons_of_mem _ ha))
      intro bs s'' hs''
      exact pure hs''

theorem forM {f : α -> ExceptT Failure (StateM σ) PUnit} {as : List α} (hs : inv s)
    (hf : forall s a, inv s -> Ends inv s (f a)) : Ends inv s (as.forM f) := by
  induction as generalizing s with
  | nil => exact pure hs
  | cons a rest ih => exact bind (hf s a hs) fun _ _ hs' => ih hs'

end Ends

/-!
# Descriptions
-/

theorem Range.not_endless_of_readWithin {g : Graph} (levels : Nat) {node : NodeId} {e : Failure}
    (h : readWithin g levels node = .error e) : ¬ e.Endless := by
  rcases readWithin_eq_error h with ⟨part, message, -, rfl⟩
  exact not_false

theorem Parameter.not_endless_of_load {g : Graph} {node : NodeId} {e : Failure}
    (h : load g node = .error e) : ¬ e.Endless := by
  unfold load at h
  split at h
  · cases h
    exact not_false
  · cases hrange : readRange? g node with
    | ok range =>
        rw [hrange] at h
        cases h
    | error e' =>
        rw [hrange] at h
        cases h
        unfold readRange? at hrange
        split at hrange
        · cases hrange
        · next r _ =>
            cases hread : Range.read g r with
            | ok range =>
                rw [hread] at hrange
                cases hrange
            | error e' =>
                rw [hread] at hrange
                cases hrange
                exact Range.not_endless_of_readWithin _ hread

theorem Component.not_endless_of_forConfig {g : Graph} {config : NodeId} {e : Failure}
    (h : forConfig g config = .error e) : ¬ e.Endless := by
  unfold forConfig at h
  split at h
  · cases h
    exact not_false
  · unfold load at h
    split at h
    · cases h
      exact not_false
    · cases h

theorem Generics.ends_bindInstances {g : Graph} {component : Component} (instances : List NodeId)
    (c : Generics) : Ends (fun _ => True) c (bindInstances g component instances) := by
  unfold bindInstances
  split
  · exact .pure trivial
  split
  · exact .throw not_false
  refine .forM trivial fun c p _ => ?_
  unfold bindInstance
  split
  · exact .pure trivial
  · cases hread : Range.read g _ with
    | error e => exact .throw (Range.not_endless_of_readWithin _ hread)
    | ok r =>
        refine .bind_get ?_
        cases c.bindRange g p.1 r with
        | error report => exact .throw not_false
        | ok c' => exact ⟨fun _ => trivial, fun h => nomatch h⟩

/-!
# Stages
-/

namespace Stage

variable {site : Site} {b : Workbench} {vs : List Occurrence}

def Sane (b : Workbench) : Prop :=
  b.generics.Acyclic

theorem ends_annotate (hb : Sane b) (v : Occurrence) (edit : Note -> Note) :
    Ends Sane b (Preparing.annotate v edit) where
  ok h := by
    cases h
    exact hb
  error h := nomatch h

theorem ends_substitute (hb : Sane b) (v : Occurrence) : Ends Sane b (substitute site v) := by
  unfold substitute
  split
  · dsimp only
    cases site.supplied[site.graph.display v.source]? with
    | none => exact .throw not_false
    | some l => exact ends_annotate hb v _
  · exact .pure hb

theorem ends_checkValue (hb : Sane b) (r : Range) (v : Occurrence) :
    Ends Sane b (checkValue site r v) := by
  refine .bind_get ?_
  dsimp only
  have hruns := Range.runs_check_of_acyclic (g := site.graph) hb (b.notes.observe site.graph v) r
  rcases hcheck : (Range.check site.graph (b.notes.observe site.graph v) r).run b.generics with
    ⟨answer, generics⟩
  rw [show outcome (Range.check site.graph (b.notes.observe site.graph v) r) b.generics =
    (answer, generics) from hcheck] at hruns
  have hset : Ends Sane b (set { b with generics := generics } : Preparing PUnit) := by
    refine ⟨fun h => ?_, fun h => nomatch h⟩
    cases h
    exact hruns.1.acyclic hb
  apply Ends.bind hset
  intro _ b' hb'
  rcases answer with (report | name) | (_ | cast)
  · refine .throw ?_
    unfold refusal
    dsimp only
    split <;> exact not_false
  · exact absurd rfl (hruns.2 name)
  · exact .pure hb'
  · exact ends_annotate hb' v _

theorem ends_apply (hb : Sane b) (stage : Stage) : Ends Sane b (stage.apply site vs) := by
  cases stage with
  | scopedDefaults =>
      unfold apply applyScopedDefaults
      dsimp only
      cases hadded : site.parameter.scopedDefaults.mapM (scopedValues site) with
      | ok added => exact .pure hb
      | error e =>
          refine .throw ?_
          rcases exists_error_of_mapM hadded with ⟨entry, -, hentry⟩
          unfold scopedValues at hentry
          dsimp only at hentry
          split at hentry
          · cases hentry
            exact not_false
          split at hentry
          · cases hentry
            exact not_false
          split at hentry <;> cases hentry
  | defaults => exact .pure hb
  | fixed => exact .pure hb
  | substitution => exact .mapM hb fun _ v hb _ => ends_substitute hb v
  | range =>
      unfold apply
      dsimp only
      cases site.parameter.range with
      | none => exact .pure hb
      | some r => exact .mapM hb fun _ v hb _ => ends_checkValue hb r v
  | lazy => exact .mapM hb fun _ v hb _ => ends_annotate hb v _
  | unique => exact .mapM hb fun _ v hb _ => ends_annotate hb v _
  | required => exact .throw not_false

theorem ends_steps (hb : Sane b) (stages : List Stage) :
    Ends Sane b (stages.foldlM (step site) vs) := by
  induction stages generalizing b vs with
  | nil => exact .pure hb
  | cons stage rest ih =>
      have hstep : Ends Sane b (step site vs stage) := by
        unfold step
        split
        · exact ends_apply hb stage
        · exact .pure hb
      rw [List.foldlM_cons]
      exact .bind hstep fun vs' b' hb' => ih hb'

end Stage

/-!
# Steps of a walk
-/

def Frame.Sane (f : Frame) : Prop :=
  f.generics.Acyclic

namespace Walking

variable {α : Type} {f : Frame}

theorem ends_ofExcept (hf : f.Sane) {x : Except Failure α}
    (h : forall e, x = .error e -> ¬ e.Endless) : Ends Frame.Sane f (ofExcept x) := by
  cases x with
  | error e => exact .throw (h e rfl)
  | ok a => exact .pure hf

theorem ends_ofResolving (hf : f.Sane) {x : Resolving α}
    (h : Ends (fun _ => True) f.session x) : Ends Frame.Sane f (ofResolving x) := by
  have hrun : outcome (ofResolving x) f =
      ((outcome x f.session).1, { f with session := (outcome x f.session).2 }) := rfl
  constructor
  · intro a f' hok
    rw [hrun] at hok
    rw [← (Prod.mk.inj hok).2]
    exact hf
  · intro e f' herror
    rw [hrun] at herror
    exact h.error (Prod.ext (Prod.mk.inj herror).1 rfl)

theorem ends_ofPreparing {x : Preparing α}
    (h : Ends Stage.Sane ⟨f.session.notes, f.generics⟩ x) :
    Ends Frame.Sane f (ofPreparing x) := by
  have hrun : outcome (ofPreparing x) f =
      ((outcome x ⟨f.session.notes, f.generics⟩).1,
        Frame.mk { f.session with notes := (outcome x ⟨f.session.notes, f.generics⟩).2.notes }
          (outcome x ⟨f.session.notes, f.generics⟩).2.generics) := rfl
  constructor
  · intro a f' hok
    rw [hrun] at hok
    rw [← (Prod.mk.inj hok).2]
    exact h.ok (Prod.ext (Prod.mk.inj hok).1 rfl)
  · intro e f' herror
    rw [hrun] at herror
    exact h.error (Prod.ext (Prod.mk.inj herror).1 rfl)

theorem ends_ofBinding {x : Generics.Binding α}
    (hok : forall {a c}, outcome x f.generics = (.ok a, c) -> c.Acyclic)
    (herror : forall {e c}, outcome x f.generics = (.error e, c) -> ¬ e.Endless) :
    Ends Frame.Sane f (ofBinding x) := by
  have hrun : outcome (ofBinding x) f =
      ((outcome x f.generics).1, { f with generics := (outcome x f.generics).2 }) := rfl
  constructor
  · intro a f' h
    rw [hrun] at h
    rw [← (Prod.mk.inj h).2]
    exact hok (Prod.ext (Prod.mk.inj h).1 rfl)
  · intro e f' h
    rw [hrun] at h
    exact herror (Prod.ext (Prod.mk.inj h).1 rfl)

theorem ends_within {s : Session} {c : Generics} {x : Walking α} (h : Ends Frame.Sane ⟨s, c⟩ x) :
    Ends (fun _ => True) s (within c x) := by
  have hrun : outcome (within c x) s =
      ((outcome x ⟨s, c⟩).1, (outcome x ⟨s, c⟩).2.session) := rfl
  refine ⟨fun _ => trivial, fun {e} {s'} herror => ?_⟩
  rw [hrun] at herror
  exact h.error (Prod.ext (Prod.mk.inj herror).1 rfl)

end Walking
end Wiring
