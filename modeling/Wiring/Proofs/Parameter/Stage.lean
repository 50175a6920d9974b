import Mathlib.Data.List.Forall2
import Wiring.Parameter.Stage
import Wiring.Proofs.Lockstep

/-!
# Stages and notes

Preparing the values of a parameter adds notes to those that are there.  What it
does depends on the notes of the given values only, and not on where they stand
or on what else has been noted.
-/

namespace Wiring

/-!
# Arrays that grow
-/

def Continues {α : Type} (a b : Array α) : Prop :=
  exists more, b = a ++ more

namespace Continues

variable {α : Type} {a b c : Array α}

theorem refl (a : Array α) : Continues a a :=
  ⟨#[], by simp⟩

theorem trans (hab : Continues a b) (hbc : Continues b c) : Continues a c := by
  rcases hab with ⟨more, rfl⟩
  rcases hbc with ⟨more', rfl⟩
  exact ⟨more ++ more', Array.append_assoc⟩

theorem push (a : Array α) (x : α) : Continues a (a.push x) :=
  ⟨#[x], Array.push_eq_append⟩

theorem size_le (h : Continues a b) : a.size ≤ b.size := by
  rcases h with ⟨more, rfl⟩
  simp

theorem of_getElem? (h : forall i, i < a.size -> b[i]? = a[i]?) : Continues a b := by
  refine ⟨b.extract a.size, Array.ext_getElem? fun i => ?_⟩
  rcases Nat.lt_or_ge i a.size with hi | hi
  · rw [Array.getElem?_append_left hi, h i hi]
  · rw [Array.getElem?_append_right hi, Array.getElem?_extract]
    split
    · rw [Nat.add_sub_cancel' hi]
    · rw [Array.getElem?_eq_none]
      omega

theorem getElem? (h : Continues a b) {i : Nat} (hi : i < a.size) : b[i]? = a[i]? := by
  rcases h with ⟨more, rfl⟩
  exact Array.getElem?_append_left hi

theorem getElem?_some (h : Continues a b) {i : Nat} {x : α} (hx : a[i]? = some x) :
    b[i]? = some x := by
  rw [h.getElem? (Array.getElem?_eq_some_iff.mp hx).1]
  exact hx

end Continues

theorem isEmpty_eq_of_forall₂ {α β : Type} {R : α -> β -> Prop} {as : List α} {bs : List β}
    (h : List.Forall₂ R as bs) : as.isEmpty = bs.isEmpty := by
  cases h <;> rfl

/-!
# Values with the same notes
-/

structure Notes.Same (n m : Notes) (v w : Occurrence) : Prop where
  source : v.source = w.source
  note : n.get v = m.get w
  left : forall i, v.note = some i -> i < n.size
  right : forall i, w.note = some i -> i < m.size

namespace Notes

theorem get_of_continues {n n' : Notes} (h : Continues n n') {v : Occurrence}
    (hv : forall i, v.note = some i -> i < n.size) : n'.get v = n.get v := by
  cases hnote : v.note with
  | none => simp [get, of?, hnote]
  | some i => simp [get, of?, hnote, h.getElem? (hv i hnote)]

namespace Same

variable {n n' m m' : Notes} {v w : Occurrence}

theorem later (h : Same n m v w) (hn : Continues n n') (hm : Continues m m') :
    Same n' m' v w where
  source := h.source
  note := by
    rw [get_of_continues hn h.left, get_of_continues hm h.right]
    exact h.note
  left i hi := Nat.lt_of_lt_of_le (h.left i hi) hn.size_le
  right i hi := Nat.lt_of_lt_of_le (h.right i hi) hm.size_le

theorem ofNode (n m : Notes) (source : NodeId) :
    Same n m (.ofNode source) (.ofNode source) where
  source := rfl
  note := rfl
  left i hi := by cases hi
  right i hi := by cases hi

theorem forall_ofNode (n m : Notes) (sources : List NodeId) :
    List.Forall₂ (Same n m) (sources.map .ofNode) (sources.map .ofNode) := by
  induction sources with
  | nil => exact List.Forall₂.nil
  | cons source rest ih => exact List.Forall₂.cons (ofNode n m source) ih

theorem forall_later {vs ws : List Occurrence} (h : List.Forall₂ (Same n m) vs ws)
    (hn : Continues n n') (hm : Continues m m') : List.Forall₂ (Same n' m') vs ws :=
  h.imp fun _ _ hvw => hvw.later hn hm

theorem observe (h : Same n m v w) (g : Graph) : n.observe g v = m.observe g w := by
  unfold Notes.observe
  rw [h.note, h.source]

end Same

theorem get_annotate (n : Notes) (v : Occurrence) (edit : Note -> Note) :
    (n.annotate v edit).2.get (n.annotate v edit).1 = edit (n.get v) := by
  simp [annotate, get, of?]

theorem Same.annotate {n m : Notes} {v w : Occurrence} (h : Same n m v w) (edit : Note -> Note) :
    Same (n.annotate v edit).2 (m.annotate w edit).2
      (n.annotate v edit).1 (m.annotate w edit).1 where
  source := h.source
  note := by rw [get_annotate, get_annotate, h.note]
  left i hi := by
    cases hi
    simp [Notes.annotate]
  right i hi := by
    cases hi
    simp [Notes.annotate]

end Notes

structure Notes.Beside (n m n' m' : Notes) : Prop where
  left : Continues n n'
  right : Continues m m'
  equal : n = m -> n' = m'

namespace Notes.Beside

variable {n n' n'' m m' m'' : Notes}

theorem refl (n m : Notes) : Beside n m n m :=
  ⟨Continues.refl n, Continues.refl m, id⟩

theorem trans (h : Beside n m n' m') (h' : Beside n' m' n'' m'') : Beside n m n'' m'' :=
  ⟨h.left.trans h'.left, h.right.trans h'.right, h'.equal ∘ h.equal⟩

theorem annotate {v w : Occurrence} (h : Notes.Same n m v w) (edit : Note -> Note) :
    Beside n m (n.annotate v edit).2 (m.annotate w edit).2 where
  left := Continues.push n _
  right := Continues.push m _
  equal := by
    rintro rfl
    unfold Notes.annotate
    rw [h.note]

end Notes.Beside

/-!
# Preparing side by side
-/

/-- Two preparations agree that start with the same generic type parameters on notes `n` and `m`:
unless the first has an excused failure, they add notes, and end with the same generic type
parameters. -/
def Prepares {α β : Type} (excused : Failure -> Prop) (n m : Notes) (c : Generics)
    (x : Preparing α) (y : Preparing β) (ends : Notes -> Notes -> α -> β -> Prop) : Prop :=
  Lockstep excused (fun b d => n.Beside m b.notes d.notes) x y
    ⟨n, c⟩ ⟨m, c⟩ fun b d a a' =>
      b.generics = d.generics ∧ n.Beside m b.notes d.notes ∧ ends b.notes d.notes a a'

namespace Prepares

variable {α β γ δ : Type} {excused : Failure -> Prop} {n m : Notes} {c : Generics}

theorem pure {a : α} {b : β} {ends : Notes -> Notes -> α -> β -> Prop} (h : ends n m a b) :
    Prepares excused n m c (Pure.pure a) (Pure.pure b) ends :=
  Lockstep.pure ⟨rfl, Notes.Beside.refl n m, h⟩

theorem throw {e : Failure} {ends : Notes -> Notes -> α -> β -> Prop} :
    Prepares excused n m c (throw e) (throw e) ends :=
  Lockstep.throw (Notes.Beside.refl n m)

theorem bind {x : Preparing α} {y : Preparing β} {k : α -> Preparing γ} {l : β -> Preparing δ}
    {ends : Notes -> Notes -> α -> β -> Prop} {ends' : Notes -> Notes -> γ -> δ -> Prop}
    (h : Prepares excused n m c x y ends)
    (hk : forall n' m' c' a b, n.Beside m n' m' -> ends n' m' a b ->
      Prepares excused n' m' c' (k a) (l b) ends') :
    Prepares excused n m c (x >>= k) (y >>= l) ends' := by
  apply Lockstep.bind h
  rintro ⟨n', c'⟩ ⟨m', _⟩ a b ⟨rfl, hbeside, hends⟩
  refine Lockstep.mono (Lockstep.mono_falls (hk n' m' c' a b hbeside hends) ?_) ?_
  · intro b' d' hfalls
    exact hbeside.trans hfalls
  · intro b' d' a' b' hends'
    exact ⟨hends'.1, hbeside.trans hends'.2.1, hends'.2.2⟩

theorem annotate {v w : Occurrence} (h : Notes.Same n m v w) (edit : Note -> Note) :
    Prepares excused n m c (Preparing.annotate v edit) (Preparing.annotate w edit) Notes.Same :=
  Lockstep.of_outcome rfl rfl ⟨rfl, Notes.Beside.annotate h edit, h.annotate edit⟩

theorem mapM {f g : Occurrence -> Preparing Occurrence}
    (hfg : forall n m c v w, Notes.Same n m v w ->
      Prepares excused n m c (f v) (g w) Notes.Same)
    {vs ws : List Occurrence} (h : List.Forall₂ (Notes.Same n m) vs ws) :
    Prepares excused n m c (vs.mapM f) (ws.mapM g)
      fun n' m' => List.Forall₂ (Notes.Same n' m') := by
  induction vs generalizing n m c ws with
  | nil =>
      cases h
      exact pure List.Forall₂.nil
  | cons v vs ih =>
      rcases List.forall₂_cons_left_iff.mp h with ⟨w, ws', hvw, hrest, rfl⟩
      rw [List.mapM_cons, List.mapM_cons]
      apply bind (hfg n m c v w hvw)
      intro n' m' c' a b hbeside hab
      apply bind (ih (Notes.Same.forall_later hrest hbeside.left hbeside.right))
      intro n'' m'' c'' as bs hbeside' hrest'
      exact pure (List.Forall₂.cons (hab.later hbeside'.left hbeside'.right) hrest')

end Prepares

/-!
# Stages side by side
-/

/-- Two tables that only differ in variables which the first one lacks, and for those failures are
excused. -/
def Variables.Beside (excused : Failure -> Prop) (supplied supplied' : Variables) : Prop :=
  forall name : String, supplied[name]? = supplied'[name]? ∨
    supplied[name]? = none ∧ excused (.undefinedVariable name)

theorem Variables.Beside.refl (excused : Failure -> Prop) (supplied : Variables) :
    supplied.Beside excused supplied :=
  fun _ => Or.inl rfl

def Site.given (site : Site) (supplied : Variables) : Site :=
  { site with supplied := supplied }

namespace Stage

variable {excused : Failure -> Prop} {site : Site} {supplied : Variables} {n m : Notes}
  {c : Generics} {vs ws : List Occurrence}

theorem applies_eq_of_same (h : List.Forall₂ (Notes.Same n m) vs ws) (stage : Stage)
    (p : Parameter) : stage.applies p vs = stage.applies p ws := by
  cases stage <;> simp [applies, isEmpty_eq_of_forall₂ h]

theorem prepares_substitute (hsupplied : site.supplied.Beside excused supplied)
    {v w : Occurrence} (h : Notes.Same n m v w) :
    Prepares excused n m c (substitute site v) (substitute (site.given supplied) w)
      Notes.Same := by
  have hvariable : (site.given supplied).graph.isA w.source Vocabulary.Om.variableType =
      site.graph.isA v.source Vocabulary.Om.variableType := by
    rw [h.source]
    rfl
  unfold substitute
  rw [hvariable]
  split
  · rw [← h.source]
    dsimp only [Site.given]
    rcases hsupplied (site.graph.display v.source) with hsame | ⟨hnone, hexcused⟩
    · rw [← hsame]
      cases site.supplied[site.graph.display v.source]? with
      | none => exact Prepares.throw
      | some l => exact Prepares.annotate h fun note => { note with literal := some l }
    · rw [hnone]
      exact Lockstep.of_excused rfl hexcused
  · exact Prepares.pure h

theorem prepares_checkValue {r : Range} {v w : Occurrence}
    (h : Notes.Same n m v w) :
    Prepares excused n m c (checkValue site r v) (checkValue site r w) Notes.Same := by
  have hobserve := h.observe site.graph
  rcases hcheck : (Range.check site.graph (n.observe site.graph v) r).run c with ⟨answer, c'⟩
  have hcheck' : (Range.check site.graph (m.observe site.graph w) r).run c = (answer, c') := by
    rw [← hobserve]
    exact hcheck
  cases answer with
  | error rejection =>
      have hv : outcome (checkValue site r v) ⟨n, c⟩ =
          (.error (refusal site r (n.observe site.graph v) rejection), ⟨n, c'⟩) := by
        simp [checkValue, outcome_bind, hcheck]
      have hw : outcome (checkValue site r w) ⟨m, c⟩ =
          (.error (refusal site r (n.observe site.graph v) rejection), ⟨m, c'⟩) := by
        simp [checkValue, outcome_bind, hcheck', hobserve]
      exact Lockstep.of_error hv hw (Notes.Beside.refl n m)
  | ok cast =>
      cases cast with
      | none =>
          have hv : outcome (checkValue site r v) ⟨n, c⟩ = (.ok v, ⟨n, c'⟩) := by
            simp [checkValue, outcome_bind, outcome_map, hcheck]
          have hw : outcome (checkValue site r w) ⟨m, c⟩ = (.ok w, ⟨m, c'⟩) := by
            simp [checkValue, outcome_bind, outcome_map, hcheck']
          exact Lockstep.of_outcome hv hw ⟨rfl, Notes.Beside.refl n m, h⟩
      | some value =>
          let edit : Note -> Note := fun note => { note with cast := some value }
          have hv : outcome (checkValue site r v) ⟨n, c⟩ =
              (.ok (n.annotate v edit).1, ⟨(n.annotate v edit).2, c'⟩) := by
            simp [checkValue, outcome_bind, hcheck, Preparing.annotate, edit]
          have hw : outcome (checkValue site r w) ⟨m, c⟩ =
              (.ok (m.annotate w edit).1, ⟨(m.annotate w edit).2, c'⟩) := by
            simp [checkValue, outcome_bind, hcheck', Preparing.annotate, edit]
          exact Lockstep.of_outcome hv hw
            ⟨rfl, Notes.Beside.annotate h edit, h.annotate edit⟩

theorem prepares_apply (hsupplied : site.supplied.Beside excused supplied) (stage : Stage)
    (h : List.Forall₂ (Notes.Same n m) vs ws) :
    Prepares excused n m c (stage.apply site vs) (stage.apply (site.given supplied) ws)
      fun n' m' => List.Forall₂ (Notes.Same n' m') := by
  cases stage with
  | scopedDefaults =>
      have hscoped : applyScopedDefaults (site.given supplied) ws = applyScopedDefaults site ws :=
        rfl
      unfold apply
      rw [hscoped]
      unfold applyScopedDefaults
      cases site.parameter.scopedDefaults.mapM (scopedValues site) with
      | error e => exact Prepares.throw
      | ok added =>
          exact Prepares.pure
            (List.rel_append h (Notes.Same.forall_ofNode n m added.flatten))
  | defaults => exact Prepares.pure (Notes.Same.forall_ofNode n m _)
  | fixed => exact Prepares.pure (List.rel_append h (Notes.Same.forall_ofNode n m _))
  | substitution => exact Prepares.mapM (fun n m c v w => prepares_substitute hsupplied) h
  | range =>
      have hcheck : checkValue (site.given supplied) = checkValue site := rfl
      unfold apply
      dsimp only
      rw [hcheck]
      dsimp only [Site.given]
      cases site.parameter.range with
      | none => exact Prepares.pure h
      | some r => exact Prepares.mapM (fun n m c v w => prepares_checkValue) h
  | lazy => exact Prepares.mapM (fun n m c v w hvw =>
        Prepares.annotate hvw fun note => { note with lazy := true }) h
  | unique =>
      exact Prepares.mapM (fun n m c v w hvw =>
        Prepares.annotate hvw fun note => { note with unique := true })
        (List.forall₂_take 1 h)
  | required => exact Prepares.throw

theorem prepares_step (hsupplied : site.supplied.Beside excused supplied) (stage : Stage)
    (h : List.Forall₂ (Notes.Same n m) vs ws) :
    Prepares excused n m c (step site vs stage) (step (site.given supplied) ws stage)
      fun n' m' => List.Forall₂ (Notes.Same n' m') := by
  have happlies : stage.applies (site.given supplied).parameter ws =
      stage.applies site.parameter vs := (applies_eq_of_same h stage site.parameter).symm
  unfold step
  rw [happlies]
  split
  · exact prepares_apply hsupplied stage h
  · exact Prepares.pure h

theorem prepares_steps (hsupplied : site.supplied.Beside excused supplied) (stages : List Stage)
    (h : List.Forall₂ (Notes.Same n m) vs ws) :
    Prepares excused n m c (stages.foldlM (step site) vs)
      (stages.foldlM (step (site.given supplied)) ws)
      fun n' m' => List.Forall₂ (Notes.Same n' m') := by
  induction stages generalizing n m c vs ws with
  | nil => exact Prepares.pure h
  | cons stage rest ih =>
      rw [List.foldlM_cons, List.foldlM_cons]
      apply Prepares.bind (prepares_step hsupplied stage h)
      intro n' m' c' vs' ws' _ h'
      exact ih h'

theorem prepares_run (hsupplied : site.supplied.Beside excused supplied) (sources : List NodeId) :
    Prepares excused n m c (run site (sources.map .ofNode))
      (run (site.given supplied) (sources.map .ofNode))
      fun n' m' => List.Forall₂ (Notes.Same n' m') :=
  prepares_steps hsupplied all (Notes.Same.forall_ofNode n m sources)

end Stage
end Wiring
