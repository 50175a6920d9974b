import Wiring.Proofs.Parameter.Stage

/-!
# What is carried along

A stage hands each of its values on with a note that it makes from the note before.
This module states what such a note keeps, for one value and for a list of values.
-/

namespace Wiring

/-!
# Runs over lists
-/

theorem outcome_mapM_ok {ε σ α β : Type} {f : α -> ExceptT ε (StateM σ) β}
    {P : σ -> List α -> List β -> σ -> Prop} (hnil : forall s, P s [] [] s)
    (hcons : forall {s s' s'' a as b bs}, outcome (f a) s = (.ok b, s') -> P s' as bs s'' ->
      P s (a :: as) (b :: bs) s'')
    {as : List α} {bs : List β} {s t : σ} (h : outcome (as.mapM f) s = (.ok bs, t)) :
    P s as bs t := by
  induction as generalizing bs s with
  | nil =>
      cases h
      exact hnil _
  | cons a rest ih =>
      rw [List.mapM_cons] at h
      rcases outcome_bind_eq_ok h with ⟨b, s', hb, hrest⟩
      rcases outcome_bind_eq_ok hrest with ⟨bs', s'', hbs, hend⟩
      cases hend
      exact hcons hb (ih hbs)

theorem forall₂_trans {α β γ : Type} {R : α -> β -> Prop} {S : β -> γ -> Prop} {T : α -> γ -> Prop}
    (hRS : forall a b c, R a b -> S b c -> T a c) {as : List α} {bs : List β} {cs : List γ}
    (h : List.Forall₂ R as bs) (h' : List.Forall₂ S bs cs) : List.Forall₂ T as cs := by
  induction h generalizing cs with
  | nil =>
      cases h'
      exact .nil
  | cons hab _ ih =>
      rcases List.forall₂_cons_left_iff.mp h' with ⟨c, cs', hbc, hrest, rfl⟩
      exact .cons (hRS _ _ _ hab hbc) (ih hrest)

theorem exists_of_forall₂ {α β : Type} {R : α -> β -> Prop} {as : List α} {bs : List β} {b : β}
    (h : List.Forall₂ R as bs) (hb : b ∈ bs) : exists a, a ∈ as ∧ R a b := by
  induction h with
  | nil => cases hb
  | @cons a b' as bs hab _ ih =>
      rcases List.mem_cons.mp hb with rfl | hmem
      · exact ⟨a, List.mem_cons_self, hab⟩
      · rcases ih hmem with ⟨a', ha', hab'⟩
        exact ⟨a', List.mem_cons_of_mem a ha', hab'⟩

/-!
# Notes that are made from others
-/

namespace Notes

def Has (n : Notes) (v : Occurrence) : Prop :=
  forall i, v.note = some i -> i < n.size

structure Edits (edit : Note -> Note) (n m : Notes) (v w : Occurrence) : Prop where
  source : w.source = v.source
  has : m.Has w
  note : exists note, m.get w = edit note ∧ (n.Has v -> note = n.get v)

/-- The second occurrence is what has become of the first one, with the same literal and still
lazy if it was. -/
structure Carries (n m : Notes) (v w : Occurrence) : Prop where
  source : w.source = v.source
  kept : n.Has v -> m.Has w ∧ (m.get w).literal = (n.get v).literal ∧
    (n.isLazy v = true -> m.isLazy w = true)

def Gentle (edit : Note -> Note) : Prop :=
  forall note, (edit note).literal = note.literal ∧ (note.lazy = true -> (edit note).lazy = true)

variable {n n' m m' k : Notes} {v w x : Occurrence} {edit : Note -> Note}

theorem Has.later (h : n.Has v) (hn : Continues n m) : m.Has v :=
  fun i hi => Nat.lt_of_lt_of_le (h i hi) hn.size_le

theorem has_of_isLazy (h : n.isLazy v = true) : n.Has v := by
  intro i hi
  by_contra hnot
  have hblank : n.get v = .blank := by
    simp [get, of?, hi, Array.getElem?_eq_none (Nat.le_of_not_lt hnot)]
  rw [isLazy, hblank] at h
  cases h

theorem edits_annotate (n : Notes) (v : Occurrence) (edit : Note -> Note) :
    Edits edit n (n.annotate v edit).2 v (n.annotate v edit).1 where
  source := rfl
  has i hi := by
    cases hi
    simp [annotate]
  note := ⟨n.get v, get_annotate n v edit, fun _ => rfl⟩

theorem Edits.between (h : Edits edit n m v w) (hn : Continues n' n) (hm : Continues m m') :
    Edits edit n' m' v w where
  source := h.source
  has := h.has.later hm
  note := by
    rcases h.note with ⟨note, hnote, hsame⟩
    refine ⟨note, ?_, fun hv => ?_⟩
    · rw [get_of_continues hm h.has, hnote]
    · rw [hsame (hv.later hn), get_of_continues hn hv]

theorem Carries.refl (n : Notes) (v : Occurrence) : Carries n n v v :=
  ⟨rfl, fun h => ⟨h, rfl, id⟩⟩

theorem Carries.trans (h : Carries n m v w) (h' : Carries m k w x) : Carries n k v x where
  source := h'.source.trans h.source
  kept hv := by
    rcases h.kept hv with ⟨hw, hliteral, hlazy⟩
    rcases h'.kept hw with ⟨hx, hliteral', hlazy'⟩
    exact ⟨hx, hliteral'.trans hliteral, hlazy' ∘ hlazy⟩

theorem Carries.of_continues (hn : Continues n m) (v : Occurrence) : Carries n m v v where
  source := rfl
  kept h := by
    rw [isLazy, isLazy, get_of_continues hn h]
    exact ⟨h.later hn, rfl, id⟩

theorem Carries.between (h : Carries n m v w) (hn : Continues n' n) (hm : Continues m m') :
    Carries n' m' v w :=
  ((of_continues hn v).trans h).trans (of_continues hm w)

theorem Edits.carries (h : Edits edit n m v w) (hedit : Gentle edit) : Carries n m v w where
  source := h.source
  kept hv := by
    rcases h.note with ⟨note, hnote, hsame⟩
    obtain rfl := hsame hv
    rw [isLazy, isLazy, hnote]
    exact ⟨h.has, hedit _⟩

end Notes

structure Passes (n m : Notes) (vs ws : List Occurrence) : Prop where
  notes : Continues n m
  carries : List.Forall₂ (n.Carries m) vs ws

namespace Passes

variable {n m k : Notes} {v w : Occurrence} {vs ws xs : List Occurrence}

theorem refl (n : Notes) (vs : List Occurrence) : Passes n n vs vs :=
  ⟨.refl n, List.forall₂_same.mpr fun v _ => .refl n v⟩

theorem trans (h : Passes n m vs ws) (h' : Passes m k ws xs) : Passes n k vs xs :=
  ⟨h.notes.trans h'.notes, forall₂_trans (R := n.Carries m) (S := m.Carries k) (T := n.Carries k)
    (fun _ _ _ hvw hwx => hvw.trans hwx) h.carries h'.carries⟩

theorem cons (hn : Continues n m) (hv : n.Carries m v w) (h : Passes m k vs ws) :
    Passes n k (v :: vs) (w :: ws) where
  notes := hn.trans h.notes
  carries := .cons (hv.between (.refl n) h.notes) (h.carries.imp fun _ _ hvw =>
    hvw.between hn (.refl k))

end Passes

end Wiring
