import Wiring.Proofs.Ledger
import Wiring.Proofs.Parameter.Stage

/-!
# Values of their own

A value is marked as an instance of its own by one stage only, and that stage
takes a single value.  So values of which the first is marked have no second one.
-/

namespace Wiring

def noting : Ledger Workbench where
  moves b ids b' := ids = [] ∧ Continues b.notes b'.notes
  refl b := ⟨rfl, Continues.refl b.notes⟩
  trans := by
    rintro b b' b'' _ _ ⟨rfl, h⟩ ⟨rfl, h'⟩
    exact ⟨rfl, h.trans h'⟩

structure Notes.Plain (n : Notes) (v : Occurrence) : Prop where
  inNotes (i : Nat) : v.note = some i -> i < n.size
  shared : n.isUnique v = false

namespace Notes.Plain

variable {n n' : Notes} {v : Occurrence}

theorem ofNode (n : Notes) (source : NodeId) : n.Plain (.ofNode source) where
  inNotes _ hi := nomatch hi
  shared := rfl

theorem later (h : n.Plain v) (hn : Continues n n') : n'.Plain v where
  inNotes i hi := Nat.lt_of_lt_of_le (h.inNotes i hi) hn.size_le
  shared := by
    unfold isUnique
    rw [get_of_continues hn h.inNotes]
    exact h.shared

theorem annotate (h : n.Plain v) {edit : Note -> Note}
    (hedit : forall note, (edit note).unique = note.unique) :
    (n.annotate v edit).2.Plain (n.annotate v edit).1 where
  inNotes i hi := by
    cases hi
    simp [Notes.annotate]
  shared := by
    unfold isUnique
    rw [get_annotate, hedit]
    exact h.shared

end Notes.Plain

namespace Stage

variable {site : Site} {b : Workbench} {vs : List Occurrence}

/-!
# Stages that mark nothing
-/

theorem posts_annotate (v : Occurrence) (edit : Note -> Note) :
    noting.Posts b (Preparing.annotate v edit) fun _ b' w =>
      (w, b'.notes) = b.notes.annotate v edit := by
  intro w b' hrun
  cases hrun
  exact ⟨[], ⟨rfl, Continues.push _ _⟩, rfl⟩

theorem posts_edit {v : Occurrence} (h : b.notes.Plain v) {edit : Note -> Note}
    (hedit : forall note, (edit note).unique = note.unique) :
    noting.Posts b (Preparing.annotate v edit) fun _ b' w => b'.notes.Plain w := by
  apply Ledger.Posts.mono (posts_annotate v edit)
  intro _ b' w _ hends
  have hplain := h.annotate hedit
  rw [← hends] at hplain
  exact hplain

theorem posts_substitute {v : Occurrence} (h : b.notes.Plain v) :
    noting.Posts b (substitute site v) fun _ b' w => b'.notes.Plain w := by
  unfold substitute
  split
  · dsimp only
    cases site.supplied[site.graph.display v.source]? with
    | none => exact Ledger.Posts.throw
    | some l => exact posts_edit h fun _ => rfl
  · exact Ledger.Posts.pure h

theorem posts_checkValue {r : Range} {v : Occurrence} (h : b.notes.Plain v) :
    noting.Posts b (checkValue site r v) fun _ b' w => b'.notes.Plain w := by
  refine Ledger.Posts.bind_get ?_
  dsimp only
  rcases (Range.check site.graph (b.notes.observe site.graph v) r).run b.generics with
    ⟨answer, generics⟩
  have hset : noting.Posts b (set { b with generics := generics } : Preparing PUnit)
      fun ids b' _ => ids = [] ∧ b'.notes.Plain v := by
    intro _ b' hrun
    cases hrun
    exact ⟨[], ⟨rfl, Continues.refl _⟩, rfl, h⟩
  apply Ledger.Posts.bind hset
  rintro _ b' _ - ⟨rfl, hv⟩
  split
  · exact Ledger.Posts.pure hv
  · exact posts_edit hv fun _ => rfl
  · exact Ledger.Posts.throw

theorem posts_mapM {f : Occurrence -> Preparing Occurrence}
    (hf : forall b v, b.notes.Plain v ->
      noting.Posts b (f v) fun _ b' w => b'.notes.Plain w)
    (h : forall v, v ∈ vs -> b.notes.Plain v) :
    noting.Posts b (vs.mapM f) fun _ b' ws => forall w, w ∈ ws -> b'.notes.Plain w := by
  exact Ledger.Posts.mapM_silent (L := noting) (R := fun b v => b.notes.Plain v)
    (E := fun b w => b.notes.Plain w) (fun _ _ _ hmoves => hmoves.1)
    (fun _ _ _ hmoves hv => hv.later hmoves.2) (fun _ _ _ hmoves hv => hv.later hmoves.2) hf h

theorem posts_apply {stage : Stage} (hstage : stage ≠ unique)
    (h : forall v, v ∈ vs -> b.notes.Plain v) :
    noting.Posts b (stage.apply site vs) fun _ b' ws => forall w, w ∈ ws -> b'.notes.Plain w := by
  have happend (sources : List NodeId) (v : Occurrence)
      (hv : v ∈ vs ++ sources.map .ofNode) : b.notes.Plain v := by
    rcases List.mem_append.mp hv with hv | hv
    · exact h v hv
    · rcases List.mem_map.mp hv with ⟨source, -, rfl⟩
      exact .ofNode b.notes source
  cases stage with
  | scopedDefaults =>
      unfold apply applyScopedDefaults
      dsimp only
      cases site.parameter.scopedDefaults.mapM (scopedValues site) with
      | error e => exact Ledger.Posts.throw
      | ok added => exact Ledger.Posts.pure (happend added.flatten)
  | defaults =>
      refine Ledger.Posts.pure fun v hv => ?_
      rcases List.mem_map.mp hv with ⟨source, -, rfl⟩
      exact .ofNode b.notes source
  | fixed => exact Ledger.Posts.pure (happend site.parameter.fixed)
  | substitution => exact posts_mapM (fun _ _ => posts_substitute) h
  | range =>
      unfold apply
      dsimp only
      cases site.parameter.range with
      | none => exact Ledger.Posts.pure h
      | some r => exact posts_mapM (fun _ _ => posts_checkValue) h
  | lazy => exact posts_mapM (fun _ _ hv => posts_edit hv fun _ => rfl) h
  | unique => exact absurd rfl hstage
  | required => exact Ledger.Posts.throw

theorem posts_steps {stages : List Stage} (hstages : unique ∉ stages)
    (h : forall v, v ∈ vs -> b.notes.Plain v) :
    noting.Posts b (stages.foldlM (step site) vs) fun _ b' ws =>
      forall w, w ∈ ws -> b'.notes.Plain w := by
  induction stages generalizing b vs with
  | nil => exact Ledger.Posts.pure h
  | cons stage rest ih =>
      rw [List.mem_cons, not_or] at hstages
      have hstep : noting.Posts b (step site vs stage) fun _ b' ws =>
          forall w, w ∈ ws -> b'.notes.Plain w := by
        unfold step
        split
        · exact posts_apply (fun heq => hstages.1 heq.symm) h
        · exact Ledger.Posts.pure h
      rw [List.foldlM_cons]
      apply Ledger.Posts.bind hstep
      intro _ b' ws _ hws
      exact ih hstages.2 hws

/-!
# All stages
-/

/-- Values of which the first is an instance of its own have no second one. -/
def Single (n : Notes) (vs : List Occurrence) : Prop :=
  vs.head?.any n.isUnique = true -> vs.length ≤ 1

theorem single_of_plain {n : Notes} (h : forall v, v ∈ vs -> n.Plain v) : Single n vs := by
  intro hhead
  cases vs with
  | nil => exact Nat.zero_le 1
  | cons v rest =>
      rw [List.head?_cons, Option.any_some, (h v List.mem_cons_self).shared] at hhead
      cases hhead

theorem posts_unique (h : forall v, v ∈ vs -> b.notes.Plain v) :
    noting.Posts b (step site vs unique) fun _ b' ws => Single b'.notes ws := by
  unfold step
  split
  · cases vs with
    | nil => exact Ledger.Posts.pure fun _ => Nat.zero_le 1
    | cons v rest =>
        have hone : apply site unique (v :: rest) = (do
            let w ← Preparing.annotate v fun note => { note with unique := true }
            return [w]) := by
          simp [apply]
        rw [hone]
        apply Ledger.Posts.bind (posts_annotate v _)
        intro _ b' w _ _
        exact Ledger.Posts.pure fun _ => Nat.le_refl 1
  · exact Ledger.Posts.pure (single_of_plain h)

theorem posts_run (sources : List NodeId) :
    noting.Posts b (run site (sources.map .ofNode)) fun _ b' ws => Single b'.notes ws := by
  have hplain (v : Occurrence) (hv : v ∈ sources.map Occurrence.ofNode) : b.notes.Plain v := by
    rcases List.mem_map.mp hv with ⟨source, -, rfl⟩
    exact .ofNode b.notes source
  have hall : all = [scopedDefaults, defaults, fixed, substitution, range, lazy] ++
    [unique, required] := rfl
  unfold run
  rw [hall, List.foldlM_append]
  apply Ledger.Posts.bind (posts_steps (by decide) hplain)
  intro _ b₁ vs₁ _ hplain₁
  rw [List.foldlM_cons]
  apply Ledger.Posts.bind (posts_unique hplain₁)
  intro _ b₂ vs₂ _ hsingle
  have hrequired : noting.Posts b₂ (step site vs₂ required) fun _ b' ws => Single b'.notes ws := by
    unfold step
    split
    · exact Ledger.Posts.throw
    · exact Ledger.Posts.pure hsingle
  rw [List.foldlM_cons]
  apply Ledger.Posts.bind hrequired
  intro _ b₃ vs₃ _ hsingle₃
  exact Ledger.Posts.pure hsingle₃

end Stage
end Wiring
