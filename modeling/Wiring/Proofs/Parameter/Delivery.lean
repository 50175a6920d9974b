import Wiring.Proofs.Parameter.Carrying
import Wiring.Proofs.Parameter.Members

/-!
# What the stages deliver

The stages deliver the values of a parameter in their order, or the first one of
them if they have to be unique.  Variables among them are replaced, all of them
were accepted by the range, and what is delivered is marked as the parameter asks
for.
-/

namespace Wiring

open Vocabulary

namespace Stage

variable {site : Site} {b b' : Workbench} {vs ws : List Occurrence}

/-!
# Substitution
-/

/-- What stands for a value once variables are replaced: the value itself, or the literal that is
supplied for it. -/
structure Stands (site : Site) (n : Notes) (v w : Occurrence) : Prop where
  source : w.source = v.source
  replaced : site.graph.isA v.source Om.variableType = true -> n.Has w ∧
    exists l, site.supplied[site.graph.display v.source]? = some l ∧ (n.get w).literal = some l

theorem Stands.carried {n m : Notes} {v w x : Occurrence} (h : Stands site n v w)
    (hx : n.Carries m w x) : Stands site m v x where
  source := hx.source.trans h.source
  replaced hvariable := by
    rcases h.replaced hvariable with ⟨hhas, l, hl, hliteral⟩
    rcases hx.kept hhas with ⟨hhas', hliteral', -⟩
    exact ⟨hhas', l, hl, hliteral'.trans hliteral⟩

structure Fills (site : Site) (n : Notes) (v w : Occurrence) : Prop extends Stands site n v w where
  other : site.graph.isA v.source Om.variableType = false -> w = v

theorem Fills.later {n m : Notes} {v w : Occurrence} (h : Fills site n v w) (hm : Continues n m) :
    Fills site m v w where
  toStands := h.toStands.carried (.of_continues hm w)
  other := h.other

theorem fills_of_substitute {v w : Occurrence}
    (h : outcome (substitute site v) b = (.ok w, b')) :
    Continues b.notes b'.notes ∧ b'.generics = b.generics ∧ Fills site b'.notes v w := by
  unfold substitute at h
  split at h
  · next hvariable =>
      dsimp only at h
      cases hsupplied : site.supplied[site.graph.display v.source]? with
      | none =>
          rw [hsupplied] at h
          cases h
      | some l =>
          rw [hsupplied] at h
          cases h
          have hedits := b.notes.edits_annotate v fun note => { note with literal := some l }
          refine ⟨.push _ _, rfl, ⟨hedits.source, fun _ => ⟨hedits.has, l, hsupplied, ?_⟩⟩,
            fun hnot => ?_⟩
          · rw [Notes.get_annotate]
          · rw [hvariable] at hnot
            cases hnot
  · next hvariable =>
      cases h
      exact ⟨.refl _, rfl, ⟨rfl, fun h => absurd h hvariable⟩, fun _ => rfl⟩

structure Substitutes (site : Site) (b : Workbench) (vs ws : List Occurrence) (b' : Workbench) :
    Prop where
  notes : Continues b.notes b'.notes
  generics : b'.generics = b.generics
  fills : List.Forall₂ (Fills site b'.notes) vs ws

theorem substitutes_step (h : outcome (step site vs substitution) b = (.ok ws, b')) :
    Substitutes site b vs ws b' := by
  unfold step at h
  split at h
  · refine outcome_mapM_ok (P := Substitutes site) (fun b => ⟨.refl _, rfl, .nil⟩) ?_ h
    intro b b₁ b₂ v vs w ws hv hrest
    rcases fills_of_substitute hv with ⟨hnotes, hgenerics, hfills⟩
    exact ⟨hnotes.trans hrest.notes, hrest.generics.trans hgenerics,
      .cons (hfills.later hrest.notes) hrest.fills⟩
  · next hnone =>
      cases h
      have hempty : vs = [] := by simpa [applies] using hnone
      subst hempty
      exact ⟨.refl _, rfl, .nil⟩

/-!
# Ranges
-/

def Sighted (g : Graph) (n m : Notes) (v : Occurrence) (o : Observed) : Prop :=
  exists k : Notes, Continues n k ∧ Continues k m ∧ o = k.observe g v

theorem Sighted.between {g : Graph} {n n' m m' : Notes} {v : Occurrence} {o : Observed}
    (h : Sighted g n m v o) (hn : Continues n' n) (hm : Continues m m') :
    Sighted g n' m' v o := by
  rcases h with ⟨k, hnk, hkm, ho⟩
  exact ⟨k, hn.trans hnk, hkm.trans hm, ho⟩

def Accepts (g : Graph) (r : Range) (seen : List Observed) (c c' : Generics) : Prop :=
  exists casts, outcome (seen.mapM fun o => Range.check g o r) c = (.ok casts, c')

theorem Accepts.cons {g : Graph} {r : Range} {o : Observed} {seen : List Observed}
    {cast : Option Scalar} {c c' c'' : Generics}
    (ho : outcome (Range.check g o r) c = (.ok cast, c')) (h : Accepts g r seen c' c'') :
    Accepts g r (o :: seen) c c'' := by
  rcases h with ⟨casts, hseen⟩
  refine ⟨cast :: casts, ?_⟩
  rw [List.mapM_cons, outcome_bind_ok ho, outcome_bind_ok hseen]
  rfl

structure Checks (g : Graph) (r : Range) (b : Workbench) (vs ws : List Occurrence)
    (b' : Workbench) : Prop where
  passes : Passes b.notes b'.notes vs ws
  accepts : exists seen, List.Forall₂ (Sighted g b.notes b'.notes) vs seen ∧
    Accepts g r seen b.generics b'.generics

theorem carries_of_checkValue {r : Range} {v w : Occurrence}
    (h : outcome (checkValue site r v) b = (.ok w, b')) :
    Continues b.notes b'.notes ∧ b.notes.Carries b'.notes v w ∧ exists cast,
      outcome (Range.check site.graph (b.notes.observe site.graph v) r) b.generics =
        (.ok cast, b'.generics) := by
  rcases hcheck : (Range.check site.graph (b.notes.observe site.graph v) r).run b.generics with
    ⟨answer, c⟩
  cases answer with
  | error rejection =>
      simp [checkValue, outcome_bind, hcheck] at h
  | ok cast =>
      cases cast with
      | none =>
          simp only [checkValue, outcome_bind, outcome_get, hcheck, outcome_set,
            outcome_pure, Prod.mk.injEq, Except.ok.injEq] at h
          rcases h with ⟨rfl, rfl⟩
          exact ⟨.refl _, .refl _ _, none, hcheck⟩
      | some x =>
          have hedits := b.notes.edits_annotate v fun note => { note with cast := some x }
          simp only [checkValue, outcome_bind, outcome_get, hcheck, outcome_set,
            Preparing.annotate, outcome_modifyGet, Prod.mk.injEq, Except.ok.injEq] at h
          rcases h with ⟨rfl, rfl⟩
          exact ⟨.push _ _, hedits.carries fun note => ⟨rfl, id⟩, some x, hcheck⟩

theorem checks_mapM {r : Range}
    (h : outcome (vs.mapM (checkValue site r)) b = (.ok ws, b')) :
    Checks site.graph r b vs ws b' := by
  refine outcome_mapM_ok (P := Checks site.graph r)
    (fun b => ⟨.refl _ _, [], .nil, [], rfl⟩) ?_ h
  intro b b₁ b₂ v vs w ws hv hrest
  rcases carries_of_checkValue hv with ⟨hnotes, hcarries, cast, hcast⟩
  rcases hrest.accepts with ⟨seen, hseen, haccepts⟩
  exact ⟨.cons hnotes hcarries hrest.passes, _ :: seen,
    .cons ⟨b.notes, .refl _, hnotes.trans hrest.passes.notes, rfl⟩
      (hseen.imp fun _ _ ho => ho.between hnotes (.refl _)),
    haccepts.cons hcast⟩

theorem range_step (h : outcome (step site vs range) b = (.ok ws, b')) :
    Passes b.notes b'.notes vs ws ∧ forall r, site.parameter.range = some r ->
      Checks site.graph r b vs ws b' := by
  unfold step at h
  split at h
  · unfold apply at h
    dsimp only at h
    cases hrange : site.parameter.range with
    | none =>
        rw [hrange] at h
        cases h
        exact ⟨.refl _ _, fun _ hr => nomatch hr⟩
    | some r =>
        rw [hrange] at h
        have hchecks := checks_mapM h
        refine ⟨hchecks.passes, fun _ hr => ?_⟩
        cases hr
        exact hchecks
  · next hnone =>
      cases h
      refine ⟨.refl _ _, fun r hr => ?_⟩
      have hempty : vs = [] := by simpa [applies, hr] using hnone
      subst hempty
      exact ⟨.refl _ _, [], .nil, [], rfl⟩

/-!
# Marks
-/

structure Marks (edit : Note -> Note) (b : Workbench) (vs ws : List Occurrence) (b' : Workbench) :
    Prop where
  notes : Continues b.notes b'.notes
  generics : b'.generics = b.generics
  edits : List.Forall₂ (Notes.Edits edit b.notes b'.notes) vs ws

theorem marks_mapM {edit : Note -> Note}
    (h : outcome (vs.mapM fun v => Preparing.annotate v edit) b = (.ok ws, b')) :
    Marks edit b vs ws b' := by
  refine outcome_mapM_ok (P := Marks edit) (fun b => ⟨.refl _, rfl, .nil⟩) ?_ h
  intro b b₁ b₂ v vs w ws hv hrest
  have hedits := b.notes.edits_annotate v edit
  have hpush : Continues b.notes (b.notes.annotate v edit).2 := .push _ _
  cases hv
  exact ⟨hpush.trans hrest.notes, hrest.generics,
    .cons (hedits.between (.refl _) hrest.notes)
      (hrest.edits.imp fun _ _ hvw => hvw.between hpush (.refl _))⟩

theorem Marks.passes {edit : Note -> Note} (h : Marks edit b vs ws b')
    (hedit : Notes.Gentle edit) : Passes b.notes b'.notes vs ws :=
  ⟨h.notes, h.edits.imp fun _ _ hvw => hvw.carries hedit⟩

theorem Marks.get {edit : Note -> Note} (h : Marks edit b vs ws b') {w : Occurrence}
    (hw : w ∈ ws) : exists note, b'.notes.get w = edit note := by
  rcases exists_of_forall₂ h.edits hw with ⟨v, -, hedits⟩
  rcases hedits.note with ⟨note, hnote, -⟩
  exact ⟨note, hnote⟩

theorem lazy_step (h : outcome (step site vs lazy) b = (.ok ws, b')) :
    Passes b.notes b'.notes vs ws ∧ b'.generics = b.generics ∧
      (site.parameter.lazy = true -> forall w, w ∈ ws -> b'.notes.isLazy w = true) := by
  unfold step at h
  split at h
  · have hmarks := marks_mapM h
    refine ⟨hmarks.passes fun note => ⟨rfl, fun _ => rfl⟩, hmarks.generics, fun _ w hw => ?_⟩
    rcases hmarks.get hw with ⟨note, hnote⟩
    rw [Notes.isLazy, hnote]
  · next hnone =>
      cases h
      refine ⟨.refl _ _, rfl, fun hlazy w hw => ?_⟩
      have hempty : vs = [] := by simpa [applies, hlazy] using hnone
      subst hempty
      cases hw

theorem unique_step (h : outcome (step site vs unique) b = (.ok ws, b')) :
    Passes b.notes b'.notes (kept site.parameter vs) ws ∧ b'.generics = b.generics ∧
      (site.parameter.unique = true -> forall w, w ∈ ws -> b'.notes.isUnique w = true) := by
  unfold step at h
  split at h
  · next happlies =>
      have hunique : site.parameter.unique = true := by
        simp only [applies, Bool.and_eq_true] at happlies
        exact happlies.1
      have hmarks := marks_mapM h
      rw [kept, if_pos hunique]
      refine ⟨hmarks.passes fun note => ⟨rfl, id⟩, hmarks.generics, fun _ w hw => ?_⟩
      rcases hmarks.get hw with ⟨note, hnote⟩
      rw [Notes.isUnique, hnote]
  · next hnone =>
      cases h
      by_cases hunique : site.parameter.unique = true
      · have hempty : vs = [] := by simpa [applies, hunique] using hnone
        subst hempty
        rw [kept, if_pos hunique]
        exact ⟨.refl _ _, rfl, fun _ w hw => absurd hw List.not_mem_nil⟩
      · rw [kept, if_neg hunique]
        exact ⟨.refl _ _, rfl, fun h => absurd h hunique⟩

theorem required_step (h : outcome (step site vs required) b = (.ok ws, b')) :
    ws = vs ∧ b' = b ∧ (site.parameter.required = true -> vs ≠ []) := by
  unfold step at h
  split at h
  · cases h
  · next hnone =>
      cases h
      refine ⟨rfl, rfl, fun hrequired hempty => hnone ?_⟩
      rw [hempty, applies, hrequired]
      rfl

/-!
# All stages
-/

/-- What the range sees of a value: the literal that is supplied for a variable, and any other value
as it stands, which is as it stood at first if its note is there. -/
structure Presents (site : Site) (n m : Notes) (v : Occurrence) (o : Observed) : Prop where
  ofVariable : site.graph.isA v.source Om.variableType = true -> exists l,
    site.supplied[site.graph.display v.source]? = some l ∧ o = .literal l
  ofOther : site.graph.isA v.source Om.variableType = false -> Sighted site.graph n m v o
  known : site.graph.isA v.source Om.variableType = false -> n.Has v ->
    o = n.observe site.graph v

theorem Fills.presents {n k m : Notes} {v w : Occurrence} {o : Observed}
    (h : Fills site k v w) (hn : Continues n k) (ho : Sighted site.graph k m w o) :
    Presents site n m v o where
  ofVariable hvariable := by
    rcases h.replaced hvariable with ⟨hhas, l, hl, hliteral⟩
    rcases ho with ⟨k', hk, -, rfl⟩
    refine ⟨l, hl, ?_⟩
    rw [Notes.observe, Notes.get_of_continues hk hhas, hliteral]
  ofOther hother := by
    rw [h.other hother] at ho
    exact ho.between hn (.refl m)
  known hother hhas := by
    rw [h.other hother] at ho
    rcases ho with ⟨k', hk, -, rfl⟩
    rw [Notes.observe, Notes.observe, Notes.get_of_continues (hn.trans hk) hhas]

/-- What becomes of the values of a parameter that pass through all stages. -/
structure Delivers (site : Site) (vs : List Occurrence) (b : Workbench) (out : List Occurrence)
    (b' : Workbench) : Prop where
  sources : out.map Occurrence.source = (kept site.parameter (members site vs)).map
    Occurrence.source
  nonempty : site.parameter.required = true -> out ≠ []
  replaced : forall w, w ∈ out -> site.graph.isA w.source Om.variableType = true -> exists l,
    site.supplied[site.graph.display w.source]? = some l ∧
      b'.notes.observe site.graph w = .literal l
  /-- The range accepts all values, also those that are not kept. -/
  accepted : forall r, site.parameter.range = some r -> exists seen,
    List.Forall₂ (Presents site b.notes b'.notes) (members site vs) seen ∧
      Accepts site.graph r seen b.generics b'.generics
  lazy : site.parameter.lazy = true -> forall w, w ∈ out -> b'.notes.isLazy w = true
  unique : site.parameter.unique = true -> forall w, w ∈ out -> b'.notes.isUnique w = true
  notes : forall i, i < b.notes.size -> b'.notes[i]? = b.notes[i]?

theorem forall₂_kept {α : Occurrence -> Occurrence -> Prop} (p : Parameter)
    (h : List.Forall₂ α vs ws) : List.Forall₂ α (kept p vs) (kept p ws) := by
  unfold kept
  split
  · exact List.forall₂_take 1 h
  · exact h

theorem mem_of_mem_kept {p : Parameter} {v : Occurrence} (h : v ∈ kept p vs) : v ∈ vs := by
  unfold kept at h
  split at h
  · exact List.mem_of_mem_take h
  · exact h

theorem passes_kept {n m : Notes} (h : Passes n m vs ws) (p : Parameter) :
    Passes n m (kept p vs) (kept p ws) :=
  ⟨h.notes, forall₂_kept p h.carries⟩

theorem stages_of_run {out : List Occurrence} (h : outcome (run site vs) b = (.ok out, b')) :
    exists ws xs ys b₁ b₂ b₃,
      outcome (step site (members site vs) substitution) b = (.ok ws, b₁) ∧
      outcome (step site ws range) b₁ = (.ok xs, b₂) ∧
      outcome (step site xs lazy) b₂ = (.ok ys, b₃) ∧
      outcome (step site ys unique) b₃ = (.ok out, b') ∧
      (site.parameter.required = true -> out ≠ []) := by
  rw [run_eq] at h
  rcases outcome_bind_eq_ok h with ⟨ms, b₀, hgather, hrest⟩
  obtain ⟨rfl, rfl⟩ : ms = members site vs ∧ b₀ = b := by
    rw [outcome_gather_members] at hgather
    split at hgather
    · cases hgather
    · cases hgather
      exact ⟨rfl, rfl⟩
  simp only [List.foldlM_cons, List.foldlM_nil, bind_pure] at hrest
  rcases outcome_bind_eq_ok hrest with ⟨ws, b₁, hsubstitution, hrest⟩
  rcases outcome_bind_eq_ok hrest with ⟨xs, b₂, hrange, hrest⟩
  rcases outcome_bind_eq_ok hrest with ⟨ys, b₃, hlazy, hrest⟩
  rcases outcome_bind_eq_ok hrest with ⟨zs, b₄, hunique, hrequired⟩
  rcases required_step hrequired with ⟨rfl, rfl, hnonempty⟩
  exact ⟨ws, xs, ys, b₁, b₂, b₃, hsubstitution, hrange, hlazy, hunique, hnonempty⟩

theorem delivers_of_run {out : List Occurrence} (h : outcome (run site vs) b = (.ok out, b')) :
    Delivers site vs b out b' := by
  rcases stages_of_run h with
    ⟨ws, xs, ys, b₁, b₂, b₃, hsubstitution, hrange, hlazy, hunique, hnonempty⟩
  have hfills := substitutes_step hsubstitution
  rcases range_step hrange with ⟨hchecked, haccepted⟩
  rcases lazy_step hlazy with ⟨hput, hputs, hlazies⟩
  rcases unique_step hunique with ⟨hown, howns, huniques⟩
  -- Only the mark for unique values drops any, and dropping could as well have come first.
  have hstands : List.Forall₂ (Stands site b'.notes) (kept site.parameter (members site vs)) out :=
    forall₂_trans (R := Fills site b₁.notes) (S := b₁.notes.Carries b'.notes)
      (fun _ _ _ hvw hwx => hvw.toStands.carried hwx) (forall₂_kept site.parameter hfills.fills)
      ((passes_kept (hchecked.trans hput) site.parameter).trans hown).carries
  have hlater : Continues b₂.notes b'.notes := hput.notes.trans hown.notes
  refine ⟨?_, hnonempty, fun w hw hvariable => ?_, fun r hr => ?_, fun h w hw => ?_, huniques,
    fun i hi => ?_⟩
  · have hsources : List.Forall₂ Eq ((kept site.parameter (members site vs)).map Occurrence.source)
        (out.map Occurrence.source) :=
      List.forall₂_map_left_iff.mpr (List.forall₂_map_right_iff.mpr
        (hstands.imp fun _ _ h => h.source.symm))
    rw [List.forall₂_eq_eq_eq] at hsources
    exact hsources.symm
  · rcases exists_of_forall₂ hstands hw with ⟨v, -, hvw⟩
    rw [hvw.source] at hvariable ⊢
    rcases hvw.replaced hvariable with ⟨-, l, hl, hliteral⟩
    refine ⟨l, hl, ?_⟩
    rw [Notes.observe, hliteral]
  · rcases (haccepted r hr).accepts with ⟨seen, hseen, haccepts⟩
    rw [hfills.generics, ← hputs, ← howns] at haccepts
    refine ⟨seen, ?_, haccepts⟩
    exact forall₂_trans (R := Fills site b₁.notes) (S := Sighted site.graph b₁.notes b₂.notes)
      (fun _ _ _ hvw ho => hvw.presents hfills.notes (ho.between (.refl _) hlater))
      hfills.fills hseen
  · rcases exists_of_forall₂ hown.carries hw with ⟨y, hy, hyw⟩
    have hmarked := hlazies h y (mem_of_mem_kept hy)
    exact (hyw.kept (Notes.has_of_isLazy hmarked)).2.2 hmarked
  · exact (hfills.notes.trans (hchecked.notes.trans hlater)).getElem? hi

theorem run_missing (hempty : members site vs = []) (hrequired : site.parameter.required = true) :
    outcome (run site vs) b =
      match firstDefect? site vs with
      | some message => (.error (.definition site.parameter.id message), b)
      | none =>
        (.error (.missingValue site.parameter.id (site.graph.display site.element)), b) := by
  have hgather := @outcome_gather_members site b vs
  rw [run_eq]
  cases hdefect : firstDefect? site vs with
  | some message =>
      rw [hdefect] at hgather
      exact outcome_bind_error hgather
  | none =>
      rw [hdefect, hempty] at hgather
      rw [outcome_bind_ok hgather]
      simp [step, applies, hrequired, apply]

/-- The values of a parameter, given or else its own, leave the stages in their order as the parameter
asks for them, and a parameter that asks for values and has none is missing. -/
theorem run_delivers (site : Site) (vs : List Occurrence) (b : Workbench) :
    (forall out b', outcome (run site vs) b = (.ok out, b') -> Delivers site vs b out b') ∧
      (members site vs = [] -> site.parameter.required = true ->
        outcome (run site vs) b =
          match firstDefect? site vs with
          | some message => (.error (.definition site.parameter.id message), b)
          | none =>
            (.error (.missingValue site.parameter.id (site.graph.display site.element)), b)) :=
  ⟨fun _ _ h => delivers_of_run h, run_missing⟩

/-- The configuration 0 of type `Home` and the configuration 1 of no type.  The scoped default 7 for
offices has the value 4, and the scoped default 8 for homes the variable 2, for which 7 is supplied. -/
def errand (root : NodeId) (entries fixed : List NodeId) : Site :=
  let (home, g) := Graph.empty.intern (.named "home")
  let (_, g) := g.intern (.named "somewhere")
  let (count, g) := g.intern (.named "count")
  let (_, g) := g.intern (.literal (.typed "3" Xsd.integer))
  let (four, g) := g.intern (.literal (.typed "4" Xsd.integer))
  let (homes, g) := g.intern (.named "Home")
  let (offices, g) := g.intern (.named "Office")
  let (office, g) := g.freshBlank
  let (home', g) := g.freshBlank
  let (number, g) := g.intern (.named "number")
  let g := (g.addType home "Home").addType count Om.variableType
  let g := (g.addEdge office Oo.defaultScope offices).addEdge office Oo.defaultScopedValue four
  let g := (g.addEdge home' Oo.defaultScope homes).addEdge home' Oo.defaultScopedValue count
  { graph := g
    supplied := (∅ : Variables).insert "count" (.typed "7" Xsd.integer)
    root := root
    element := root
    parameter :=
      ⟨number, "number", some (.literal Xsd.integer), true, true, true, [], entries, fixed⟩ }

theorem run_delivers_errand :
    (exists b', outcome (run (errand 0 [7, 8] [3]) []) ⟨#[], .ofScope []⟩ = (.ok [⟨2, some 5⟩], b') ∧
      members (errand 0 [7, 8] [3]) [] = [⟨2, none⟩, ⟨3, none⟩] ∧
      Delivers (errand 0 [7, 8] [3]) [] ⟨#[], .ofScope []⟩ [⟨2, some 5⟩] b') ∧
    outcome (run (errand 1 [7, 8] []) []) ⟨#[], .ofScope []⟩ =
      (.error (.missingValue "number" "somewhere"), ⟨#[], .ofScope []⟩) ∧
    outcome (run (errand 1 [8, 5] []) []) ⟨#[], .ofScope []⟩ =
      (.error (.definition "number" "Invalid defaultScoped value: missing defaultScope"),
        ⟨#[], .ofScope []⟩) := by
  have hok : (match (outcome (run (errand 0 [7, 8] [3]) []) ⟨#[], .ofScope []⟩).1 with
      | .ok out => out == [⟨2, some 5⟩]
      | .error _ => false) = true := by decide +kernel
  have hmembers : members (errand 0 [7, 8] [3]) [] = [⟨2, none⟩, ⟨3, none⟩] ∧
      members (errand 1 [7, 8] []) [] = [] ∧ members (errand 1 [8, 5] []) [] = [] := by
    decide +kernel
  have hdefects : firstDefect? (errand 1 [7, 8] []) [] = none ∧
      firstDefect? (errand 1 [8, 5] []) [] =
        some "Invalid defaultScoped value: missing defaultScope" ∧
      (errand 1 [7, 8] []).graph.display (errand 1 [7, 8] []).element = "somewhere" := by decide +kernel
  refine ⟨?_, ?_, ?_⟩
  · rcases hrun : outcome (run (errand 0 [7, 8] [3]) []) ⟨#[], .ofScope []⟩ with ⟨e | out, b'⟩
    · rw [hrun] at hok
      cases hok
    · rw [hrun] at hok
      obtain rfl : out = [⟨2, some 5⟩] := eq_of_beq hok
      exact ⟨b', rfl, hmembers.1, (run_delivers _ _ _).1 _ b' hrun⟩
  · have hmissing := (run_delivers (errand 1 [7, 8] []) [] ⟨#[], .ofScope []⟩).2 hmembers.2.1 rfl
    rw [hdefects.1] at hmissing
    dsimp only at hmissing
    rw [hdefects.2.2] at hmissing
    exact hmissing
  · have hmalformed := (run_delivers (errand 1 [8, 5] []) [] ⟨#[], .ofScope []⟩).2 hmembers.2.2 rfl
    rw [hdefects.2.1] at hmalformed
    exact hmalformed

end Stage
end Wiring
