import Wiring.Proofs.Parameter.Uniqueness

/-!
# Variables among the values of a parameter

The values of a parameter are the nodes that are configured, or its defaults, and
its fixed nodes.  A variable among them leaves the stages with the literal that is
supplied for it, and with none supplied no value leaves them.
-/

namespace Wiring

open Vocabulary

/-- What is noted about a variable: the literal supplied for it, and as native value only what some
range casts this literal to. -/
structure Notes.Replaced (n : Notes) (g : Graph) (supplied : Variables) (v : Occurrence) :
    Prop where
  inNotes (i : Nat) : v.note = some i -> i < n.size
  literal : g.isA v.source Om.variableType = true -> exists l,
    supplied[g.display v.source]? = some l ∧ (n.get v).literal = some l ∧
      forall x, (n.get v).cast = some x -> exists r c c',
        outcome (Range.check g (.literal l) r) c = (.ok (some x), c')

namespace Notes.Replaced

variable {n n' : Notes} {g : Graph} {supplied : Variables} {v : Occurrence}

theorem later (h : n.Replaced g supplied v) (hn : Continues n n') :
    n'.Replaced g supplied v where
  inNotes i hi := Nat.lt_of_lt_of_le (h.inNotes i hi) hn.size_le
  literal := by
    rw [get_of_continues hn h.inNotes]
    exact h.literal

theorem annotate (h : n.Replaced g supplied v) {edit : Note -> Note}
    (hliteral : forall note, (edit note).literal = note.literal)
    (hcast : forall x, (edit (n.get v)).cast = some x -> (n.get v).cast = some x ∨
      exists r c c', outcome (Range.check g (n.observe g v) r) c = (.ok (some x), c')) :
    (n.annotate v edit).2.Replaced g supplied (n.annotate v edit).1 where
  inNotes i hi := by
    cases hi
    simp [Notes.annotate]
  literal hvariable := by
    rcases h.literal hvariable with ⟨l, hsupplied, hl, hknown⟩
    have hobserve : n.observe g v = .literal l := by
      unfold Notes.observe
      rw [hl]
    rw [get_annotate, hliteral]
    refine ⟨l, hsupplied, hl, fun x hx => ?_⟩
    rcases hcast x hx with hold | hcheck
    · exact hknown x hold
    · rw [hobserve] at hcheck
      exact hcheck

theorem of_supplied (n : Notes) {node : NodeId} {l : Literal}
    (hl : supplied[g.display node]? = some l) :
    (n.annotate (.ofNode node) fun note => { note with literal := some l }).2.Replaced g supplied
      (n.annotate (.ofNode node) fun note => { note with literal := some l }).1 where
  inNotes i hi := by
    cases hi
    simp [Notes.annotate]
  literal _ := by
    rw [get_annotate]
    refine ⟨l, hl, rfl, fun x hx => ?_⟩
    cases hx

end Notes.Replaced

structure Site.Unsupplied (site : Site) (node : NodeId) : Prop where
  isVariable : site.graph.isA node Om.variableType = true
  missing : site.supplied[site.graph.display node]? = none

namespace Stage

variable {site : Site} {b b' : Workbench} {vs : List Occurrence} {nodes : List NodeId}

/-!
# Gathered values
-/

def configured (site : Site) (sources : List NodeId) : Except Failure (List NodeId) :=
  if sources.isEmpty then
    (site.parameter.scopedDefaults.mapM (scopedValues site)).map List.flatten
  else .ok sources

def gathered (site : Site) (sources : List NodeId) : Except Failure (List NodeId) :=
  (configured site sources).map fun found =>
    (if found.isEmpty then site.parameter.defaults else found) ++ site.parameter.fixed

theorem outcome_scopedDefaults (sources : List NodeId) :
    outcome (step site (sources.map .ofNode) scopedDefaults) b =
      ((configured site sources).map fun found => found.map .ofNode, b) := by
  unfold step applies configured
  cases sources with
  | cons n rest => simp [Except.map]
  | nil =>
      cases hentries : site.parameter.scopedDefaults with
      | nil => rfl
      | cons entry rest =>
          unfold apply applyScopedDefaults
          simp only [List.map_nil, List.isEmpty_nil, List.isEmpty_cons, Bool.not_false,
            Bool.and_self, if_true, hentries]
          cases (entry :: rest).mapM (scopedValues site) <;> rfl

theorem outcome_defaults (sources : List NodeId) :
    outcome (step site (sources.map .ofNode) defaults) b =
      (.ok ((if sources.isEmpty then site.parameter.defaults else sources).map .ofNode), b) := by
  unfold step applies
  cases sources with
  | cons n rest => simp
  | nil => cases hdefaults : site.parameter.defaults <;> simp [hdefaults, apply]

theorem outcome_fixed (sources : List NodeId) :
    outcome (step site (sources.map .ofNode) fixed) b =
      (.ok ((sources ++ site.parameter.fixed).map .ofNode), b) := by
  unfold step applies
  cases hfixed : site.parameter.fixed <;> simp [hfixed, apply]

theorem outcome_gather (sources : List NodeId) :
    outcome ([scopedDefaults, defaults, fixed].foldlM (step site) (sources.map .ofNode)) b =
      ((gathered site sources).map fun nodes => nodes.map .ofNode, b) := by
  unfold gathered
  rw [List.foldlM_cons]
  cases hfound : configured site sources with
  | error e =>
      rw [outcome_bind_error (by rw [outcome_scopedDefaults, hfound]; rfl)]
      rfl
  | ok found =>
      rw [outcome_bind_ok (by rw [outcome_scopedDefaults, hfound]; rfl), List.foldlM_cons,
        outcome_bind_ok (outcome_defaults found), List.foldlM_cons,
        outcome_bind_ok (outcome_fixed _)]
      rfl

/-!
# Substitution
-/

theorem posts_substitute_node (node : NodeId) :
    noting.Posts b (substitute site (.ofNode node)) fun _ b' v =>
      v.source = node ∧ b'.notes.Replaced site.graph site.supplied v := by
  unfold substitute
  split
  · dsimp only
    cases hsupplied : site.supplied[site.graph.display (Occurrence.ofNode node).source]? with
    | none => exact Ledger.Posts.throw
    | some l =>
        apply Ledger.Posts.mono (posts_annotate _ _)
        intro _ b' v _ hends
        have hl : site.supplied[site.graph.display node]? = some l := hsupplied
        have hreplaced := Notes.Replaced.of_supplied b.notes hl
        rw [← hends] at hreplaced
        have hsource : v.source = node := congrArg (fun r => r.1.source) hends
        exact ⟨hsource, hreplaced⟩
  · next hvariable =>
      have hreplaced : b.notes.Replaced site.graph site.supplied (.ofNode node) :=
        ⟨fun _ hi => (nomatch hi), fun h => absurd h hvariable⟩
      exact Ledger.Posts.pure ⟨rfl, hreplaced⟩

def Substituted (site : Site) (nodes : List NodeId) (n : Notes) (v : Occurrence) : Prop :=
  v.source ∈ nodes ∧ n.Replaced site.graph site.supplied v

theorem Substituted.later {n n' : Notes} {v : Occurrence} (h : Substituted site nodes n v)
    (hn : Continues n n') : Substituted site nodes n' v :=
  ⟨h.1, h.2.later hn⟩

theorem posts_substitution :
    noting.Posts b (step site (nodes.map .ofNode) substitution) fun _ b' vs =>
      forall v, v ∈ vs -> Substituted site nodes b'.notes v := by
  unfold step
  split
  · refine Ledger.Posts.mapM_silent (L := noting)
      (R := fun _ v => exists node, node ∈ nodes ∧ v = Occurrence.ofNode node)
      (E := fun b v => Substituted site nodes b.notes v) (fun _ _ _ hmoves => hmoves.1)
      (fun _ _ _ _ hv => hv) (fun _ _ _ hmoves hv => hv.later hmoves.2) ?_ fun v hv => ?_
    · rintro b _ ⟨node, hnode, rfl⟩
      apply Ledger.Posts.mono (posts_substitute_node node)
      rintro _ b' v - ⟨rfl, hv⟩
      exact ⟨hnode, hv⟩
    · rcases List.mem_map.mp hv with ⟨node, hnode, rfl⟩
      exact ⟨node, hnode, rfl⟩
  · next hnone =>
      have hempty : nodes = [] := by simpa [applies] using hnone
      subst hempty
      exact Ledger.Posts.pure fun _ hv => absurd hv List.not_mem_nil

theorem substitute_of_not_unsupplied {node : NodeId} (h : ¬ site.Unsupplied node) :
    exists v b', outcome (substitute site (.ofNode node)) b = (.ok v, b') := by
  unfold substitute
  split
  · next hvariable =>
      dsimp only
      cases hsupplied : site.supplied[site.graph.display (Occurrence.ofNode node).source]? with
      | none => exact absurd ⟨hvariable, hsupplied⟩ h
      | some l => exact ⟨_, _, rfl⟩
  · exact ⟨_, _, rfl⟩

theorem substitution_of_unsupplied {node : NodeId} (hnode : node ∈ nodes)
    (h : site.Unsupplied node) : exists first b', first ∈ nodes ∧ site.Unsupplied first ∧
      outcome ((nodes.map Occurrence.ofNode).mapM (substitute site)) b =
        (.error (.undefinedVariable (site.graph.display first)), b') := by
  induction nodes generalizing b with
  | nil => cases hnode
  | cons n rest ih =>
      rw [List.map_cons, List.mapM_cons]
      by_cases hfirst : site.Unsupplied n
      · refine ⟨n, b, List.mem_cons_self, hfirst, outcome_bind_error ?_⟩
        have hvariable : site.graph.isA (Occurrence.ofNode n).source Om.variableType = true :=
          hfirst.isVariable
        have hmissing : site.supplied[site.graph.display (Occurrence.ofNode n).source]? = none :=
          hfirst.missing
        rw [substitute, if_pos hvariable]
        dsimp only
        rw [hmissing]
        rfl
      · have hrest : node ∈ rest := by
          rcases List.mem_cons.mp hnode with rfl | hmem
          · exact absurd h hfirst
          · exact hmem
        rcases substitute_of_not_unsupplied (b := b) hfirst with ⟨v, b₁, hv⟩
        rcases ih (b := b₁) hrest with ⟨first, b₂, hmem, hunsupplied, herror⟩
        refine ⟨first, b₂, List.mem_cons_of_mem n hmem, hunsupplied, ?_⟩
        rw [outcome_bind_ok hv]
        exact outcome_bind_error herror

/-!
# The stages after the substitution
-/

theorem posts_checkValue_substituted {r : Range} {v : Occurrence}
    (h : Substituted site nodes b.notes v) :
    noting.Posts b (checkValue site r v) fun _ b' w => Substituted site nodes b'.notes w := by
  refine Ledger.Posts.bind_get ?_
  dsimp only
  rcases hcheck : (Range.check site.graph (b.notes.observe site.graph v) r).run b.generics with
    ⟨answer, generics⟩
  have hset : noting.Posts b (set { b with generics := generics } : Preparing PUnit)
      fun ids b' _ => ids = [] ∧ b'.notes = b.notes := by
    intro _ b' hrun
    cases hrun
    exact ⟨[], ⟨rfl, Continues.refl _⟩, rfl, rfl⟩
  apply Ledger.Posts.bind hset
  rintro _ b' _ - ⟨rfl, hnotes⟩
  have hv : Substituted site nodes b'.notes v := by
    rw [hnotes]
    exact h
  split
  · exact Ledger.Posts.pure hv
  · next cast =>
      apply Ledger.Posts.mono (posts_annotate v _)
      intro _ b'' w _ hends
      have hcast (x : Scalar) (hx : some cast = some x) : (b'.notes.get v).cast = some x ∨
          exists r c c', outcome (Range.check site.graph (b'.notes.observe site.graph v) r) c =
            (.ok (some x), c') := by
        cases hx
        rw [hnotes]
        exact Or.inr ⟨r, b.generics, generics, hcheck⟩
      have hreplaced : (b'.notes.annotate v fun note => { note with cast := some cast }).2.Replaced
          site.graph site.supplied
          (b'.notes.annotate v fun note => { note with cast := some cast }).1 :=
        hv.2.annotate (fun _ => rfl) hcast
      rw [← hends] at hreplaced
      have hsource : w.source = v.source := congrArg (fun r => r.1.source) hends
      exact ⟨hsource ▸ hv.1, hreplaced⟩
  · exact Ledger.Posts.throw

theorem posts_mark {edit : Note -> Note} (hliteral : forall note, (edit note).literal = note.literal)
    (hcast : forall note, (edit note).cast = note.cast)
    (h : forall v, v ∈ vs -> Substituted site nodes b.notes v) :
    noting.Posts b (vs.mapM fun v => Preparing.annotate v edit) fun _ b' ws =>
      forall w, w ∈ ws -> Substituted site nodes b'.notes w := by
  refine Ledger.Posts.mapM_silent (L := noting) (R := fun b v => Substituted site nodes b.notes v)
    (E := fun b v => Substituted site nodes b.notes v) (fun _ _ _ hmoves => hmoves.1)
    (fun _ _ _ hmoves hv => hv.later hmoves.2) (fun _ _ _ hmoves hv => hv.later hmoves.2) ?_ h
  intro b v hv
  apply Ledger.Posts.mono (posts_annotate v _)
  intro _ b' w _ hends
  have hreplaced := hv.2.annotate hliteral fun x hx => Or.inl (by rw [← hcast]; exact hx)
  rw [← hends] at hreplaced
  have hsource : w.source = v.source := congrArg (fun r => r.1.source) hends
  exact ⟨hsource ▸ hv.1, hreplaced⟩

theorem posts_step_substituted {stage : Stage} (hstage : stage ∈ [range, lazy, unique, required])
    (h : forall v, v ∈ vs -> Substituted site nodes b.notes v) :
    noting.Posts b (step site vs stage) fun _ b' ws =>
      forall w, w ∈ ws -> Substituted site nodes b'.notes w := by
  unfold step
  split
  · cases stage with
    | range =>
        unfold apply
        dsimp only
        cases site.parameter.range with
        | none => exact Ledger.Posts.pure h
        | some r =>
            exact Ledger.Posts.mapM_silent (L := noting)
              (R := fun b v => Substituted site nodes b.notes v)
              (E := fun b v => Substituted site nodes b.notes v) (fun _ _ _ hmoves => hmoves.1)
              (fun _ _ _ hmoves hv => hv.later hmoves.2) (fun _ _ _ hmoves hv => hv.later hmoves.2)
              (fun _ _ => posts_checkValue_substituted) h
    | lazy => exact posts_mark (fun _ => rfl) (fun _ => rfl) h
    | unique => exact posts_mark (fun _ => rfl) (fun _ => rfl) fun v hv => h v (List.mem_of_mem_take hv)
    | required => exact Ledger.Posts.throw
    | _ => exact absurd hstage (by decide)
  · exact Ledger.Posts.pure h

theorem posts_steps_substituted {stages : List Stage}
    (hstages : stages ⊆ [range, lazy, unique, required])
    (h : forall v, v ∈ vs -> Substituted site nodes b.notes v) :
    noting.Posts b (stages.foldlM (step site) vs) fun _ b' ws =>
      forall w, w ∈ ws -> Substituted site nodes b'.notes w := by
  induction stages generalizing b vs with
  | nil => exact Ledger.Posts.pure h
  | cons stage rest ih =>
      rw [List.cons_subset] at hstages
      rw [List.foldlM_cons]
      apply Ledger.Posts.bind (posts_step_substituted hstages.1 h)
      intro _ b' ws _ hws
      exact ih hstages.2 hws

/-!
# All stages
-/

theorem run_eq (vs : List Occurrence) :
    run site vs = [scopedDefaults, defaults, fixed].foldlM (step site) vs >>=
      [substitution, range, lazy, unique, required].foldlM (step site) := by
  have hall : all = [scopedDefaults, defaults, fixed] ++
    [substitution, range, lazy, unique, required] := rfl
  rw [run, hall, List.foldlM_append]

theorem outcome_run (sources : List NodeId) :
    outcome (run site (sources.map .ofNode)) b =
      match gathered site sources with
      | .error e => (.error e, b)
      | .ok nodes =>
        outcome (step site (nodes.map .ofNode) substitution >>= fun vs =>
          [range, lazy, unique, required].foldlM (step site) vs) b := by
  rw [run_eq]
  cases hgathered : gathered site sources with
  | error e => exact outcome_bind_error (by rw [outcome_gather, hgathered]; rfl)
  | ok nodes =>
      rw [outcome_bind_ok (by rw [outcome_gather, hgathered]; rfl)]
      rfl

def Prepared (site : Site) (sources : List NodeId) (n : Notes) (vs : List Occurrence) : Prop :=
  exists nodes, gathered site sources = .ok nodes ∧
    forall v, v ∈ vs -> Substituted site nodes n v

theorem posts_run_substituted (site : Site) (sources : List NodeId) :
    noting.Posts b (run site (sources.map .ofNode)) fun _ b' vs =>
      Prepared site sources b'.notes vs := by
  have hposts (nodes : List NodeId) :
      noting.Posts b (step site (nodes.map .ofNode) substitution >>= fun vs =>
        [range, lazy, unique, required].foldlM (step site) vs) fun _ b' vs =>
          forall v, v ∈ vs -> Substituted site nodes b'.notes v := by
    apply Ledger.Posts.bind posts_substitution
    intro _ b₁ vs₁ _ hvs₁
    exact posts_steps_substituted (List.Subset.refl _) hvs₁
  intro vs b' hrun
  rw [outcome_run] at hrun
  cases hgathered : gathered site sources with
  | error e =>
      rw [hgathered] at hrun
      cases hrun
  | ok nodes =>
      rw [hgathered] at hrun
      rcases hposts nodes vs b' hrun with ⟨ids, hmoves, hvs⟩
      exact ⟨ids, hmoves, nodes, hgathered, hvs⟩

theorem run_of_unsupplied {sources : List NodeId} (h : gathered site sources = .ok nodes)
    {node : NodeId} (hnode : node ∈ nodes) (hunsupplied : site.Unsupplied node) :
    exists first b', first ∈ nodes ∧ site.Unsupplied first ∧
      outcome (run site (sources.map .ofNode)) b =
        (.error (.undefinedVariable (site.graph.display first)), b') := by
  rcases substitution_of_unsupplied (b := b) hnode hunsupplied with
    ⟨first, b', hfirst, hmissing, herror⟩
  refine ⟨first, b', hfirst, hmissing, ?_⟩
  have happlies : substitution.applies site.parameter (nodes.map Occurrence.ofNode) = true := by
    cases nodes with
    | nil => cases hnode
    | cons n rest => rfl
  rw [outcome_run, h]
  apply outcome_bind_error
  rw [step, if_pos happlies]
  exact herror

end Stage
end Wiring
