import Wiring.Proofs.Resolution.Echo
import Wiring.Proofs.Resolution.History

/-!
# Runs unfold to the trees of their templates

An instance that was resolved while some configurations were active may lack
references to those.  If a configuration leads to none of them, and is not on a
cycle itself, its instance has the tree of its template.
-/

namespace Wiring

def Session.settled (s : Session) (pending : List InstanceId) (id : InstanceId) :
    Option Plan.Instance :=
  if id ∈ pending then none else s.instances[id]?

theorem Session.settled_grows {s s' : Session} (h : s.Grows s') {pending : List InstanceId}
    {id : InstanceId} {x : Plan.Instance} (hx : s.settled pending id = some x) :
    s'.settled pending id = some x := by
  unfold settled at hx ⊢
  split at hx
  · cases hx
  · next hid =>
      rw [if_neg hid]
      exact h.instances.getElem?_some hx

theorem Session.settled_setArguments {s : Session} {pending : List InstanceId} {id i : InstanceId}
    {resolved : List Argument} {x : Plan.Instance} (hx : s.settled (i :: pending) id = some x) :
    (s.setArguments i resolved).settled pending id = some x := by
  unfold settled at hx ⊢
  split at hx
  · cases hx
  · next hid =>
      rw [List.mem_cons, not_or] at hid
      rw [if_neg hid.2, getElem?_setArguments, if_neg fun h => hid.1 h.symm]
      exact hx

namespace Environment

variable {env : Environment} {k : Context} {s s' : Session} {c : NodeId} {unique : Bool}
  {i : Option InstanceId}

def Hits (env : Environment) (k : Context) (c : NodeId) : Prop :=
  exists a, a ∈ k.active ∧ env.Reaches c a

/-- An answer unfolds to the tree of the template, unless the configuration leads to an active
one. -/
def Faithful (env : Environment) (k : Context) (s : Session) (c : NodeId)
    (i : Option InstanceId) : Prop :=
  env.Hits k c ∨ exists id, i = some id ∧ (env.Grounded c -> forall t,
    Unfolds env.book (.reference (ticket c false)) t ->
    Unfolds (s.settled k.pending) (.reference id) t)

/-- What a configuration requires is shared, unless the configuration leads to an active one. -/
def Complete (env : Environment) (k : Context) (s : Session) (c : NodeId) (unique : Bool) : Prop :=
  env.Hits k c ∨ (env.Grounded c -> (unique = false -> s.shared[c]? ≠ none) ∧
    forall d, env.Requires c d -> s.shared[d]? ≠ none)

theorem shared_ne_none_grows (h : s.Grows s') (hc : s.shared[c]? ≠ none) :
    s'.shared[c]? ≠ none := by
  rcases Option.ne_none_iff_exists'.mp hc with ⟨id, hid⟩
  rw [h.kept hid]
  exact Option.some_ne_none id

theorem Faithful.grows (h : env.Faithful k s c i) (hs : s.Grows s') : env.Faithful k s' c i := by
  rcases h with hhits | ⟨id, hid, htree⟩
  · exact Or.inl hhits
  · exact Or.inr ⟨id, hid, fun hc t ht => (htree hc t ht).mono fun _ _ => Session.settled_grows hs⟩

theorem Complete.grows (h : env.Complete k s c unique) (hs : s.Grows s') :
    env.Complete k s' c unique := by
  rcases h with hhits | hshared
  · exact Or.inl hhits
  · exact Or.inr fun hc => ⟨fun hunique => shared_ne_none_grows hs ((hshared hc).1 hunique),
      fun d hd => shared_ne_none_grows hs ((hshared hc).2 d hd)⟩

theorem faithful_of_not_grounded (h : ¬ env.Grounded c) (k : Context) (s : Session)
    (id : InstanceId) : env.Faithful k s c (some id) :=
  Or.inr ⟨id, rfl, fun hc => absurd hc h⟩

theorem complete_of_not_grounded (h : ¬ env.Grounded c) (k : Context) (s : Session)
    (unique : Bool) : env.Complete k s c unique :=
  Or.inr fun hc => absurd hc h

/-- What holds of a session beside the template of the configuration that is being resolved. -/
structure Echo (env : Environment) (k : Context) (w : World) : Prop where
  waiting {id : InstanceId} : id ∈ k.pending -> id < w.1.instances.size
  shared {c : NodeId} {id : InstanceId} : w.1.shared[c]? = some id -> c ∉ k.active ->
    env.Faithful k w.1 c (some id) ∧ env.Complete k w.1 c false
  asked {c : NodeId} {unique : Bool} : Asked w.2 c unique -> env.Complete k w.1 c unique

def echo (env : Environment) (k : Context) : Bond where
  excused _ := True
  valid := env.Echo k
  later w w' := w.1.Grows w'.1 ∧ Continues w.2.notes w'.2.notes ∧
    forall c unique, Asked w.2 c unique -> Asked w'.2 c unique
  falls _ _ := True
  answers w c unique _ i j :=
    j = some (ticket c unique) ∧ Asked w.2 c unique ∧ env.Faithful k w.1 c i
  refl _ := ⟨Session.Grows.refl _, Continues.refl _, fun _ _ h => h⟩
  trans h h' := ⟨h.1.trans h'.1, h.2.1.trans h'.2.1, fun _ _ hs => h'.2.2 _ _ (h.2.2 _ _ hs)⟩
  falls_refl _ := trivial
  falls_trans _ _ := trivial
  noted {w n m} h hn hm _ := by
    have hgrows : w.1.Grows { w.1 with notes := n } := Session.Grows.noted hn
    exact ⟨⟨h.waiting, fun hs hc => ⟨(h.shared hs hc).1.grows hgrows, (h.shared hs hc).2⟩,
      h.asked⟩, hgrows, hm, fun _ _ h => h⟩
  notes h := ⟨h.1.notes, h.2.1⟩
  stable h h' := ⟨h'.1, h.2.2 _ _ h'.2.1, h'.2.2.grows h.1⟩

/-!
# A new instance
-/

theorem not_grounded_of_return {a : NodeId} (h : env.Requires a c) (hback : env.Reaches c a) :
    ¬ env.Grounded c := by
  intro hgrounded
  rcases h with ⟨m, hreaches, hasks⟩
  have hm := hback.trans hreaches
  exact (hgrounded.of_reaches hm).no_return hasks hm

theorem hits_entered {config : NodeId} {id : InstanceId} (h : env.Hits k c) :
    env.Hits (k.entered config id) c := by
  rcases h with ⟨a, ha, hreaches⟩
  exact ⟨a, List.mem_cons_of_mem _ ha, hreaches⟩

theorem hits_of_entered {config : NodeId} {id : InstanceId}
    (h : env.Hits (k.entered config id) c) : env.Reaches c config ∨ env.Hits k c := by
  rcases h with ⟨a, ha, hreaches⟩
  rcases List.mem_cons.mp ha with rfl | ha
  · exact Or.inl hreaches
  · exact Or.inr ⟨a, ha, hreaches⟩

theorem not_hits_entered {config d : NodeId} (hgrounded : env.Grounded config)
    (hhits : ¬ env.Hits k config) (hasks : env.Asks config d unique) (id : InstanceId) :
    ¬ env.Hits (k.entered config id) d := by
  intro h
  rcases hits_of_entered h with hback | ⟨a, ha, hreaches⟩
  · exact hgrounded.no_return hasks hback
  · exact hhits ⟨a, ha, Relation.ReflTransGen.head ⟨unique, hasks⟩ hreaches⟩

theorem unfolds_ticket {t : Tree} (h : Unfolds env.book (.reference (ticket c unique)) t)
    (unique' : Bool) : Unfolds env.book (.reference (ticket c unique')) t := by
  cases h with
  | reference found length arguments =>
      rw [book_ticket, ← book_ticket c unique'] at found
      exact .reference found length arguments

section New

variable {config : NodeId} {component : Component} {resolved tickets : List Argument}
  {t' : Session}

structure Beheld (env : Environment) (k : Context) (config : NodeId) (component : Component)
    (unique : Bool) (s : Session) (resolved : List Argument) (s' : Session)
    (tickets : List Argument) (t' : Session) : Prop where
  waiting {id : InstanceId} : id ∈ k.pending -> id < s.instances.size
  found : Component.forConfig env.graph config = .ok component
  template : env.template config component = (.ok tickets, t')
  grows : (env.opened s config component unique).Grows s'
  required {c : NodeId} : s'.shared[c]? ≠ none ->
    (env.opened s config component unique).shared[c]? ≠ none ∨ env.Requires config c
  inner : env.Echo (k.entered config s.instances.size) (s', t')
  fits : List.Forall₂ (Argument.Fits
    ((env.echo (k.entered config s.instances.size)).answers (s', t')) false) resolved tickets

namespace Beheld

theorem asks_iff (h : env.Beheld k config component unique s resolved s' tickets t')
    {d : NodeId} {unique' : Bool} : env.Asks config d unique' <-> Asked t' d unique' := by
  constructor
  · rintro ⟨component', hcomponent, hasked⟩
    rw [h.found] at hcomponent
    cases hcomponent
    rw [h.template] at hasked
    exact hasked
  · intro hasked
    exact ⟨component, h.found, by rw [h.template]; exact hasked⟩

theorem settled_new (h : env.Beheld k config component unique s resolved s' tickets t') :
    (s'.setArguments s.instances.size resolved).settled k.pending s.instances.size =
      some ⟨env.graph.display config, component.id, resolved⟩ := by
  have hopened : (env.opened s config component unique).instances[s.instances.size]? =
      some ⟨env.graph.display config, component.id, []⟩ := by
    rw [getElem?_opened, if_pos rfl]
  have hlt : s.instances.size < (env.opened s config component unique).instances.size := by
    rw [size_opened]
    exact Nat.lt_succ_self _
  unfold Session.settled
  rw [if_neg fun hid => Nat.lt_irrefl _ (h.waiting hid), Session.getElem?_setArguments,
    if_pos rfl, h.grows.instances.getElem? hlt, hopened]
  rfl

theorem faithful (h : env.Beheld k config component unique s resolved s' tickets t') :
    env.Faithful k (s'.setArguments s.instances.size resolved) config
      (some s.instances.size) := by
  by_cases hhits : env.Hits k config
  · exact Or.inl hhits
  refine Or.inr ⟨_, rfl, fun hgrounded T hT => ?_⟩
  cases hT with
  | @reference _ x ts found length arguments =>
      rw [book_ticket, templateInstance_eq h.found h.template] at found
      cases found
      have hlength : resolved.length = tickets.length := h.fits.length_eq
      suffices htree : forall i (hi : i < resolved.length) (hi' : i < ts.length),
          Unfolds ((s'.setArguments s.instances.size resolved).settled k.pending) resolved[i]
            ts[i] by
        have hunfolds := Unfolds.reference h.settled_new (hlength.trans length) htree
        exact hunfolds
      intro i hi hi'
      have hi₀ : i < tickets.length := Nat.lt_of_lt_of_eq hi hlength
      refine Unfolds.of_fits (List.forall₂_iff_get.mp h.fits |>.2 i hi hi₀) ?_
        (arguments i hi₀ hi')
      rintro d unique' lazy j j' T' ⟨rfl, hasked, hfaithful⟩ hT'
      have hasks := h.asks_iff.mpr hasked
      have hnot := not_hits_entered hgrounded hhits hasks s.instances.size
      rcases hfaithful.resolve_left hnot with ⟨id, rfl, htree⟩
      have hd : env.Grounded d := hgrounded.of_reaches (.single ⟨unique', hasks⟩)
      exact (htree hd T' (unfolds_ticket hT' false)).mono fun _ _ => Session.settled_setArguments

theorem complete (h : env.Beheld k config component unique s resolved s' tickets t') :
    env.Complete k (s'.setArguments s.instances.size resolved) config unique := by
  by_cases hhits : env.Hits k config
  · exact Or.inl hhits
  refine Or.inr fun hgrounded => ⟨?_, ?_⟩
  · rintro rfl
    have hopened : (env.opened s config component false).shared[config]? ≠ none :=
      shared_opened_ne_none.mpr (Or.inr ⟨rfl, rfl⟩)
    show s'.shared[config]? ≠ none
    exact shared_ne_none_grows h.grows hopened
  · intro d hd
    have hinner {m : NodeId} {unique' : Bool} (hm : env.Asks config m unique') :
        (unique' = false -> s'.shared[m]? ≠ none) ∧
          forall d, env.Requires m d -> s'.shared[d]? ≠ none := by
      have hnot := not_hits_entered hgrounded hhits hm s.instances.size
      exact (h.inner.asked (h.asks_iff.mp hm)).resolve_left hnot
        (hgrounded.of_reaches (.single ⟨unique', hm⟩))
    rcases hd.cases with hasks | ⟨m, unique', hm, hrest⟩
    · exact (hinner hasks).1 rfl
    · exact (hinner hm).2 d hrest

/-- What was shared while the arguments were resolved is required by the configuration, so it is
on a cycle if it leads back to it. -/
theorem shared (h : env.Beheld k config component unique s resolved s' tickets t')
    (hnew : unique = true ∨ s.shared[config]? = none) (hecho : env.Echo k (s, t)) {id : InstanceId}
    (hc : s'.shared[c]? = some id) (hactive : c ∉ k.active) :
    env.Faithful k (s'.setArguments s.instances.size resolved) c (some id) ∧
      env.Complete k (s'.setArguments s.instances.size resolved) c false := by
  have hopened : s.Grows (env.opened s config component unique) := grows_opened hnew
  have hgrows : s.Grows s' := hopened.trans h.grows
  have hend : s.Grows (s'.setArguments s.instances.size resolved) :=
    hgrows.setArguments (Nat.le_refl _) resolved
  by_cases hold : s.shared[c]? = none
  · have hvacuous (hnot : ¬ env.Grounded c) :
        env.Faithful k (s'.setArguments s.instances.size resolved) c (some id) ∧
          env.Complete k (s'.setArguments s.instances.size resolved) c false :=
      ⟨faithful_of_not_grounded hnot k _ id, complete_of_not_grounded hnot k _ false⟩
    have hrequired := h.required (fun hnone => by rw [hnone] at hc; cases hc)
    rw [shared_opened] at hrequired
    by_cases hconfig : unique = false ∧ c = config
    · rcases hconfig with ⟨rfl, rfl⟩
      have hid : (env.opened s c component false).shared[c]? = some s.instances.size := by
        rw [shared_opened, if_pos ⟨rfl, rfl⟩]
      rw [h.grows.kept hid] at hc
      cases hc
      exact ⟨h.faithful, h.complete⟩
    · rw [if_neg hconfig] at hrequired
      have hrequires : env.Requires config c := hrequired.resolve_left fun hne => hne hold
      -- Shared on the way with a way back to the active `config`: both are on a cycle, and nothing
      -- is claimed of them.
      by_cases hback : env.Reaches c config
      · exact hvacuous (not_grounded_of_return hrequires hback)
      have hne : c ≠ config := fun hc => hback (hc ▸ .refl)
      rcases h.inner.shared hc (List.not_mem_cons_of_ne_of_not_mem hne hactive) with
        ⟨hfaithful, hcomplete⟩
      constructor
      · rcases hfaithful with hhits | ⟨_, hid, htree⟩
        · exact Or.inl ((hits_of_entered hhits).resolve_left hback)
        · exact Or.inr ⟨_, hid, fun hgrounded T hT =>
            (htree hgrounded T hT).mono fun _ _ => Session.settled_setArguments⟩
      · exact hcomplete.imp_left fun hhits => (hits_of_entered hhits).resolve_left hback
  · rcases Option.ne_none_iff_exists'.mp hold with ⟨id', hid'⟩
    rw [hgrows.kept hid'] at hc
    cases hc
    rcases hecho.shared hid' hactive with ⟨hfaithful, hcomplete⟩
    exact ⟨hfaithful.grows hend, hcomplete.grows hend⟩

end Beheld

/-!
# Every step keeps it
-/

theorem Faithful.opened (h : env.Faithful k s c i) :
    env.Faithful (k.entered config s.instances.size) (env.opened s config component unique)
      c i := by
  rcases h with hhits | ⟨id, hid, htree⟩
  · exact Or.inl (hits_entered hhits)
  · refine Or.inr ⟨id, hid, fun hgrounded T hT => (htree hgrounded T hT).mono ?_⟩
    intro id x hx
    unfold Session.settled at hx ⊢
    split at hx
    · cases hx
    · next hpending =>
        have hne : id ≠ s.instances.size :=
          Nat.ne_of_lt (Array.getElem?_eq_some_iff.mp hx).1
        have hnot : id ∉ (k.entered config s.instances.size).pending :=
          List.not_mem_cons_of_ne_of_not_mem hne hpending
        rw [if_neg hnot, getElem?_opened, if_neg hne]
        exact hx

theorem Echo.opened (h : env.Echo k (s, t')) (hnew : unique = true ∨ s.shared[config]? = none) :
    env.Echo (k.entered config s.instances.size)
      (env.opened s config component unique, Session.empty) where
  waiting {id} hid := by
    have hsize : (env.opened s config component unique).instances.size = s.instances.size + 1 :=
      size_opened
    rcases List.mem_cons.mp hid with rfl | hid
    · exact Nat.lt_of_lt_of_eq (Nat.lt_succ_self _) hsize.symm
    · exact Nat.lt_of_lt_of_eq (Nat.lt_succ_of_lt (h.waiting hid)) hsize.symm
  shared {c id} hc hactive := by
    have hactive' : c ≠ config ∧ c ∉ k.active :=
      not_or.mp fun hor => hactive (List.mem_cons.mpr hor)
    rw [shared_opened, if_neg fun hconfig => hactive'.1 hconfig.2] at hc
    rcases h.shared hc hactive'.2 with ⟨hfaithful, hcomplete⟩
    exact ⟨hfaithful.opened, (hcomplete.grows (grows_opened hnew)).imp_left hits_entered⟩
  asked hasked := absurd (by simp [Session.empty]) hasked

theorem Echo.answersTicket (h : env.Echo k (s, t')) (hgrows : s.Grows s')
    (hwaiting : forall id, id ∈ k.pending -> id < s'.instances.size)
    (hshared : forall c id, s'.shared[c]? = some id -> c ∉ k.active ->
      env.Faithful k s' c (some id) ∧ env.Complete k s' c false)
    (hfaithful : env.Faithful k s' config i) (hcomplete : env.Complete k s' config unique)
    (lazy : Bool) : AnswersTicket (env.echo k) s t' s' config unique lazy i := by
  refine ⟨⟨hwaiting _, hshared _ _, ?_⟩, ⟨hgrows, Continues.refl _, asked_grows t' config unique⟩,
    rfl, asked_self t' config unique, hfaithful⟩
  intro c unique' hasked
  rcases asked_share.mp hasked with ⟨rfl, rfl⟩ | hold
  · exact hcomplete
  · exact (h.asked hold).grows hgrows

theorem echo_beside (env : Environment) :
    Beside env env.instantiateWith env.echo Context.active where
  ordinary := env.instantiateWith_ordinary
  excused _ _ := trivial
  ofActive {k s t s' config unique lazy i levels} hactive hecho hrun := by
    rw [outcome_instantiateWith_active hactive] at hrun
    cases hrun
    have hhits : env.Hits k config := ⟨config, hactive, .refl⟩
    exact hecho.answersTicket (Session.Grows.refl _) (fun _ => hecho.waiting)
      (fun _ _ => hecho.shared) (Or.inl hhits) (Or.inl hhits) lazy
  ofShared {k s t config lazy id} hactive hecho hid := by
    rcases hecho.shared hid hactive with ⟨hfaithful, hcomplete⟩
    exact hecho.answersTicket (Session.Grows.refl _) (fun _ => hecho.waiting)
      (fun _ _ => hecho.shared) hfaithful hcomplete lazy
  ofNew {k s t config unique lazy component} hactive hecho hnew hcomponent := by
    refine ⟨k.entered config s.instances.size, rfl, hecho.opened hnew, ?_⟩
    intro levels resolved s' tickets t' hlevels hrun htemplate hecho' hlater hfits
    have hbeheld : env.Beheld k config component unique s resolved s' tickets t' :=
      ⟨hecho.waiting, hcomponent, htemplate, hlater.1,
        requires_of_argumentsBy hlevels hcomponent hrun, hecho', hfits⟩
    have hopened : s.Grows (env.opened s config component unique) := grows_opened hnew
    refine hecho.answersTicket ((hopened.trans hlater.1).setArguments (Nat.le_refl _) resolved)
      ?_ (fun c id => hbeheld.shared hnew hecho) hbeheld.faithful hbeheld.complete lazy
    intro id hid
    rw [Session.size_setArguments]
    exact hecho'.waiting (List.mem_cons_of_mem _ hid)

end New

/-!
# Sessions that have been used
-/

def Used (env : Environment) (s : Session) : Prop :=
  env.Echo ⟨[], []⟩ (s, Session.empty)

theorem used_empty (env : Environment) : env.Used Session.empty where
  waiting hid := absurd hid List.not_mem_nil
  shared hc := by simp [Session.empty] at hc
  asked hasked := absurd (by simp [Session.empty]) hasked

theorem not_hits_nil (c : NodeId) : ¬ env.Hits ⟨[], []⟩ c :=
  fun ⟨_, ha, _⟩ => absurd ha List.not_mem_nil

theorem Used.shared_of_requires (h : env.Used s) (hc : s.shared[c]? ≠ none)
    (hgrounded : env.Grounded c) {d : NodeId} (hd : env.Requires c d) : s.shared[d]? ≠ none := by
  rcases Option.ne_none_iff_exists'.mp hc with ⟨id, hid⟩
  rcases (h.shared hid List.not_mem_nil).2 with hhits | hcomplete
  · exact absurd hhits (not_hits_nil c)
  · exact (hcomplete hgrounded).2 d hd

theorem used_resolve (h : env.Used s) {id : InstanceId}
    (hrun : outcome (env.resolve c) s = (.ok id, s')) :
    env.Used s' ∧ (env.Grounded c -> forall t,
      Unfolds env.book (.reference (ticket c false)) t ->
      Unfolds (fun id => s'.instances[id]?) (.reference id) t) := by
  rw [resolve_eq] at hrun
  have hinner := resolveBy_ok.mp hrun
  have hdeeper : Deeper env.echo env.depthLimit env.depthLimit env.depthLimit :=
    ⟨Nat.le_refl _, Nat.le_refl _, Or.inl rfl⟩
  rcases (resolves_strategies (strategiesKeep_of_beside (echo_beside env)) hdeeper ⟨[], []⟩ s
    Session.empty c false false rfl h).ok hinner with
    ⟨_, t', -, -, hecho, -, -, -, hfaithful⟩
  refine ⟨⟨hecho.waiting, hecho.shared, fun hasked =>
    absurd (by simp [Session.empty]) hasked⟩, ?_⟩
  rcases hfaithful with hhits | ⟨_, hid, htree⟩
  · exact absurd hhits (not_hits_nil c)
  · cases hid
    intro hgrounded t ht
    exact (htree hgrounded t ht).mono fun _ _ hx => hx

end Environment
end Wiring
