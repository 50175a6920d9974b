import Wiring.Proofs.Range.Unfolding

/-!
# Parts of ranges

All ranges with parts but unions are checked part by part, each one on the bindings
that those before it have left.  The value or one of its items has to be accepted for
every part.
-/

namespace Wiring
namespace Checking

def Leads {α : Type} (x : Checking α) (c c' : Generics) : Prop :=
  exists a, Wiring.outcome x c = (.ok a, c')

variable {α β : Type} {c c' : Generics}

theorem leads_pure (a : α) : Leads (pure a) c c' <-> c' = c := by
  constructor
  · rintro ⟨_, h⟩
    cases h
    rfl
  · rintro rfl
    exact ⟨a, rfl⟩

theorem leads_within (x : Checking α) (wrap : Report → Report) :
    (x.within wrap).Leads c c' <-> x.Leads c c' := by
  unfold Leads
  rw [outcome_within]
  rcases Wiring.outcome x c with ⟨e | a, d⟩
  · exact ⟨fun ⟨_, h⟩ => (nomatch h), fun ⟨_, h⟩ => nomatch h⟩
  · rfl

theorem leads_bind {x : Checking α} {k : α → Checking β} {P : Generics → Prop}
    (hk : forall a d, (k a).Leads d c' <-> P d) :
    (x >>= k).Leads c c' <-> exists d, x.Leads c d ∧ P d := by
  constructor
  · rintro ⟨b, h⟩
    rcases outcome_bind_eq_ok h with ⟨a, d, hx, hrest⟩
    exact ⟨d, ⟨a, hx⟩, (hk a d).mp ⟨b, hrest⟩⟩
  · rintro ⟨d, ⟨a, hx⟩, hd⟩
    rcases (hk a d).mpr hd with ⟨b, hrest⟩
    exists b
    rw [outcome_bind_ok hx]
    exact hrest

theorem leads_bind_pure (x : Checking α) (b : α → β) :
    (x >>= fun a => pure (b a)).Leads c c' <-> x.Leads c c' := by
  rw [leads_bind fun _ d => leads_pure _]
  constructor
  · rintro ⟨d, hx, rfl⟩
    exact hx
  · intro hx
    exact ⟨c', hx, rfl⟩

inductive LeadAll (x : α → Checking β) : List α → Generics → Generics → Prop where
  | nil (c : Generics) : LeadAll x [] c c
  | cons {a : α} {as : List α} {c d c' : Generics} (head : (x a).Leads c d)
      (tail : LeadAll x as d c') : LeadAll x (a :: as) c c'

variable {γ : Type} {x : α → Checking β} {y : α → Checking γ} {as : List α}

theorem leadAll_nil : LeadAll x [] c c' <-> c' = c := by
  constructor
  · intro h
    cases h
    rfl
  · rintro rfl
    exact .nil c'

theorem leadAll_cons {a : α} :
    LeadAll x (a :: as) c c' <-> exists d, (x a).Leads c d ∧ LeadAll x as d c' := by
  constructor
  · intro h
    cases h with
    | cons head tail => exact ⟨_, head, tail⟩
  · rintro ⟨d, head, tail⟩
    exact .cons head tail

theorem leadAll_map {δ : Type} (f : δ → α) {ds : List δ} :
    LeadAll x (ds.map f) c c' <-> LeadAll (fun d => x (f d)) ds c c' := by
  induction ds generalizing c with
  | nil => rw [List.map_nil, leadAll_nil, leadAll_nil]
  | cons d ds ih =>
      rw [List.map_cons, leadAll_cons, leadAll_cons]
      simp only [ih]

theorem leads_forM {f : α → Checking PUnit} :
    Leads (as.forM f) c c' <-> LeadAll f as c c' := by
  induction as generalizing c with
  | nil => exact (leads_pure _).trans leadAll_nil.symm
  | cons a as ih =>
      change Leads (f a >>= fun _ => as.forM f) c c' <-> _
      rw [leads_bind fun _ d => ih, leadAll_cons]

theorem leadAll_congr (hsame : forall a d d', (x a).Leads d d' <-> (y a).Leads d d') :
    LeadAll x as c c' <-> LeadAll y as c c' := by
  induction as generalizing c with
  | nil => rw [leadAll_nil, leadAll_nil]
  | cons a as ih => simp only [leadAll_cons, hsame, ih]

end Checking

namespace Range

open Checking (LeadAll leads_pure leads_within leads_bind leads_bind_pure leads_forM
  leadAll_nil leadAll_cons leadAll_map leadAll_congr)

variable {g : Graph} {v : Observed} {c c' : Generics} {r : Range} {rs : List Range}
  {parts : List (Range × Observed)} {onGeneric : String → Observed → Checking (Option Scalar)}

/-!
# What a range demands
-/

/-- The members of a tuple, each one with the item that has to satisfy it. A missing item is absent,
and a rest takes all items that are left. -/
def positions : List Range → List Observed → List (Range × Observed)
  | [], _ => []
  | rest inner :: _, items => items.map fun item => (inner, item)
  | r :: rs, items => (r, items.headD .absent) :: positions rs items.tail

def Spans : List Range → List Observed → Prop
  | [], items => items = []
  | rest _ :: _, _ => True
  | _ :: rs, items => Spans rs items.tail

theorem positions_cons (hr : forall inner, r ≠ rest inner) (items : List Observed) :
    positions (r :: rs) items = (r, items.headD .absent) :: positions rs items.tail := by
  cases r with
  | rest inner => exact absurd rfl (hr inner)
  | _ => rw [positions]; exact fun inner => hr inner

theorem spans_cons (hr : forall inner, r ≠ rest inner) (items : List Observed) :
    Spans (r :: rs) items <-> Spans rs items.tail := by
  cases r with
  | rest inner => exact absurd rfl (hr inner)
  | _ => rw [Spans]; exact fun inner => hr inner

/-- The range is made of parts, and the value satisfies it if what is named satisfies them. -/
inductive Demands (g : Graph) : Range → Observed → List (Range × Observed) → Prop where
  | intersection (members : List Range) (v : Observed) :
      Demands g (intersection members) v (members.map fun r => (r, v))
  | tuple {members : List Range} {v : Observed} {items : List Observed}
      (hitems : v.items? g = some items) (hspans : Spans members items) :
      Demands g (tuple members) v (positions members items)
  | array {inner : Range} {v : Observed} {items : List Observed}
      (hitems : v.items? g = some items) :
      Demands g (array inner) v (items.map fun item => (inner, item))
  | rest (inner : Range) (v : Observed) : Demands g (rest inner) v [(inner, v)]

theorem mentions_of_mem_positions {name : String} {items : List Observed}
    {part : Range × Observed} (hpart : part ∈ positions rs items) (h : part.1.Mentions name) :
    AnyMentions name rs := by
  induction rs generalizing items with
  | nil => exact absurd hpart List.not_mem_nil
  | cons r rs ih =>
      by_cases hrest : exists inner, r = rest inner
      · rcases hrest with ⟨inner, rfl⟩
        rcases List.mem_map.mp hpart with ⟨item, -, rfl⟩
        exact Or.inl h
      · rw [positions_cons fun inner h => hrest ⟨inner, h⟩] at hpart
        rcases List.mem_cons.mp hpart with rfl | hpart
        · exact Or.inl h
        · exact Or.inr (ih hpart)

theorem Demands.mentions {name : String} (h : Demands g r v parts) {part : Range × Observed}
    (hpart : part ∈ parts) (hname : part.1.Mentions name) : r.Mentions name := by
  cases h with
  | intersection members v =>
      rcases List.mem_map.mp hpart with ⟨r, hr, rfl⟩
      exact anyMentions_iff.mpr ⟨r, hr, hname⟩
  | tuple hitems hspans => exact mentions_of_mem_positions hpart hname
  | array hitems =>
      rcases List.mem_map.mp hpart with ⟨item, -, rfl⟩
      exact hname
  | rest inner v =>
      rcases List.mem_singleton.mp hpart with rfl
      exact hname

theorem leads_checkAll : (checkAll g onGeneric v rs).Leads c c' <->
    LeadAll (fun r => checkWith g onGeneric v r) rs c c' := by
  induction rs generalizing c with
  | nil => exact (leads_pure _).trans leadAll_nil.symm
  | cons r rs ih =>
      rw [checkAll, leadAll_cons]
      exact leads_bind fun first d => (leads_bind_pure _ _).trans ih

theorem leads_items (wrap : Report → Report) (inner : Range) (items : List Observed) :
    Checking.Leads (items.forM fun item => do
      let _ ← (checkWith g onGeneric item inner).within wrap) c c' <->
    LeadAll (fun part => checkWith g onGeneric part.2 part.1)
      (items.map fun item => (inner, item)) c c' := by
  rw [leads_forM, leadAll_map]
  induction items generalizing c with
  | nil => rw [leadAll_nil, leadAll_nil]
  | cons item items ih =>
      rw [leadAll_cons, leadAll_cons]
      simp only [leads_bind_pure, leads_within, ih]

theorem leads_checkPositions {whole : Range} {position : Nat} {items : List Observed}
    (h : Spans rs items) :
    (checkPositions g onGeneric v whole position items rs).Leads c c' <->
      LeadAll (fun part => checkWith g onGeneric part.2 part.1) (positions rs items) c c' := by
  induction rs generalizing c position items with
  | nil =>
      rw [checkPositions, positions, leadAll_nil, h]
      exact leads_pure _
  | cons r rs ih =>
      by_cases hrest : exists inner, r = rest inner
      · rcases hrest with ⟨inner, rfl⟩
        rw [checkPositions, positions]
        exact leads_items _ inner items
      · have hne (inner : Range) : r ≠ rest inner := fun h => hrest ⟨inner, h⟩
        rw [checkPositions_cons hne, positions_cons hne, leadAll_cons,
          leads_bind fun _ d => ih ((spans_cons hne items).mp h)]
        simp only [leads_within]

theorem leads_itemsOf {α : Type} {items : List Observed} (hitems : v.items? g = some items)
    (k : List Observed → Checking α) :
    (itemsOf g v r >>= k).Leads c c' <-> (k items).Leads c c' := by
  unfold itemsOf
  rw [hitems]
  rfl

theorem leads_checkWith (h : Demands g r v parts) :
    (checkWith g onGeneric v r).Leads c c' <->
      LeadAll (fun part => checkWith g onGeneric part.2 part.1) parts c c' := by
  cases h with
  | intersection members v =>
      rw [checkWith, leads_within, leads_checkAll, leadAll_map]
  | @tuple members _ items hitems hspans =>
      rw [checkWith, leads_itemsOf hitems, leads_bind_pure]
      exact leads_checkPositions hspans
  | @array inner _ items hitems =>
      rw [checkWith, leads_itemsOf hitems, leads_bind_pure]
      exact leads_items _ inner items
  | rest inner v =>
      rw [checkWith, leadAll_cons]
      simp only [leadAll_nil, exists_eq_right']

theorem settles_of_leads {d d' : Generics} (h : (check g v r).Leads d d') : d.Settles d' := by
  rcases h with ⟨cast, hrun⟩
  have hd := settles_check (g := g) v r d
  rw [hrun] at hd
  exact hd

theorem exists_leads_of_mem (h : LeadAll (fun part => check g part.2 part.1) parts c c')
    {part : Range × Observed} (hpart : part ∈ parts) :
    exists d d', c.Settles d ∧ (check g part.2 part.1).Leads d d' := by
  induction h with
  | nil c => cases hpart
  | @cons first rest c d c' head tail ih =>
      rcases List.mem_cons.mp hpart with rfl | hrest
      · exact ⟨c, d, .refl c, head⟩
      · rcases ih hrest with ⟨e, e', he, hleads⟩
        exact ⟨e, e', (settles_of_leads head).trans he, hleads⟩

theorem leads_check_unfold : (check g v r).Leads c c' <->
    (checkWith g (checkGeneric g (check g)) v r).Leads c c' :=
  exists_congr fun _ => outcome_check_eq_ok

theorem leads_check (h : Demands g r v parts) :
    (check g v r).Leads c c' <-> LeadAll (fun part => check g part.2 part.1) parts c c' :=
  calc (check g v r).Leads c c'
    _ <-> (checkWith g (checkGeneric g (check g)) v r).Leads c c' := leads_check_unfold
    _ <-> LeadAll (fun part => checkWith g (checkGeneric g (check g)) part.2 part.1) parts c c' :=
      leads_checkWith h
    _ <-> LeadAll (fun part => check g part.2 part.1) parts c c' :=
      leadAll_congr fun _ _ _ => leads_check_unfold.symm

end Range
end Wiring
