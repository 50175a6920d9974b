import Wiring.Proofs.Generics.Adjustment
import Wiring.Proofs.Graph.Operation
import Wiring.Proofs.Range.Narrowing

/-!
# Bindings narrow

What a generic type parameter is bound to accepts no more values later on.  Values
never widen a binding, since their ranges have no tuples in them.  Explicit ranges
may, and do so only where tuples with a rest member clash.
-/

namespace Wiring

theorem Range.not_plain_of_clash {isSubtype : String → String → Bool} {a b : Range}
    (h : Range.Clash isSubtype a b) : ¬ b.Plain := by
  induction h with
  | tuple h => exact id
  | member hx hy h ih => exact id
  | union hx hy h ih =>
      intro hplain
      rcases hplain _ (List.mem_of_getElem? hy) with ⟨iri, rfl⟩
      exact ih trivial
  | intersection hx hy h ih => exact id
  | array h ih => exact id
  | rest h ih => exact id
  | left hb hx hm h ih => exact ih
  | right ha hy hm h ih =>
      intro hplain
      rcases hplain _ hy with ⟨iri, rfl⟩
      exact ih trivial

namespace Generics

open Vocabulary

/-- What is bound stays bound, to a range that accepts no value that the old one refuses. -/
def Narrows (g : Graph) (c c' : Generics) : Prop :=
  forall name r, c.binding? name = some r -> exists r', c'.binding? name = some r' ∧
    forall d v, Range.Accepts g d v r' -> Range.Accepts g d v r

/-!
# Operations on bindings
-/

inductive Operation where
  | bindRange (name : String) (range : Range)
  | bindValue (name : String) (v : Observed)
  | check (v : Observed) (range : Range)

namespace Operation

def step (g : Graph) : Operation → Checking Unit
  | bindRange name range => do
    match (← get).bindRange g name range with
    | .ok c => set c
    | .error report => Checking.refuse report
  | bindValue name v => do
    let _ ← Generics.bindValue g name v (Range.check g v)
  | check v range => do
    let _ ← Range.check g v range

def run (g : Graph) (c : Generics) (op : Operation) : Generics :=
  (outcome (op.step g) c).2

def Concrete : Operation → Prop
  | bindRange _ range => range.Concrete
  | bindValue _ _ | check _ _ => True

/-- An explicit range does not clash with the one it is merged with. -/
def Fits (g : Graph) (c : Generics) : Operation → Prop
  | bindRange name range => forall existing merged, c.binding? name = some existing ->
      Range.merge g.isSubclassOf existing range = .ok merged ->
      ¬ Range.Clash g.isSubclassOf existing range
  | bindValue _ _ | check _ _ => True

end Operation

def runAll (g : Graph) (c : Generics) (ops : List Operation) : Generics :=
  ops.foldl (Operation.run g) c

def AllFit (g : Graph) (c : Generics) : List Operation → Prop
  | [] => True
  | op :: ops => op.Fits g c ∧ AllFit g (op.run g c) ops

/-!
# Single operations
-/

variable {g : Graph} {c c' d : Generics}

theorem Narrows.refl (g : Graph) (c : Generics) : Narrows g c c :=
  fun _ r hr => ⟨r, hr, fun _ _ => id⟩

theorem Narrows.trans (h : Narrows g c c') (h' : Narrows g c' d) : Narrows g c d := by
  intro name r hr
  rcases h name r hr with ⟨r', hr', haccepts⟩
  rcases h' name r' hr' with ⟨r'', hr'', haccepts'⟩
  exact ⟨r'', hr'', fun e v hv => haccepts e v (haccepts' e v hv)⟩

theorem narrows_assign_unbound {name : String} (hunbound : c.binding? name = none) (r : Range) :
    Narrows g c (c.assign name r) := by
  intro k s hs
  have hne : k ≠ name := by
    rintro rfl
    rw [hunbound] at hs
    cases hs
  refine ⟨s, ?_, fun _ _ => id⟩
  rw [binding?_assign, if_neg hne]
  exact hs

theorem narrows_assign_merged (hg : g.Sound) (hc : c.Concrete) {name : String}
    {existing r merged : Range} (hbound : c.binding? name = some existing) (hr : r.Concrete)
    (hmerge : Range.merge g.isSubclassOf existing r = .ok merged)
    (hclash : ¬ Range.Clash g.isSubclassOf existing r) : Narrows g c (c.assign name merged) := by
  intro k s hs
  rw [binding?_assign]
  split
  · next hk =>
      subst hk
      rw [hbound] at hs
      cases hs
      have hmerges := Range.merges_of_merge existing r hmerge
      have hexisting := hc k existing hbound
      refine ⟨merged, rfl, fun e v hv => ?_⟩
      rw [Range.accepts_iff (hmerges.concrete hexisting hr)] at hv
      rw [Range.accepts_iff hexisting]
      exact hmerges.narrows hg hexisting hclash hv
  · exact ⟨s, hs, fun _ _ => id⟩

theorem Adjustment.narrows (hg : g.Sound) (h : Adjustment g c c') (hc : c.Concrete) :
    Narrows g c c' := by
  cases h with
  | infer hscope hunbound hr => exact narrows_assign_unbound hunbound _
  | narrow hscope hbound hr hmerge =>
      have hplain := Observed.plain_inferredRange? hr
      exact narrows_assign_merged hg hc hbound hplain.concrete hmerge fun h =>
        Range.not_plain_of_clash h hplain

theorem Adjusts.narrows (hg : g.Sound) (h : Adjusts g c c') (hc : c.Concrete) :
    Narrows g c c' := by
  induction h with
  | refl => exact .refl g c
  | tail hpath hstep ih => exact ih.trans (hstep.narrows hg (Adjusts.concrete hpath hc))

theorem run_bindRange_eq (g : Graph) (c : Generics) (name : String) (range : Range) :
    (Operation.bindRange name range).run g c =
      match c.bindRange g name range with
      | .ok c' => c'
      | .error _ => c := by
  unfold Operation.run Operation.step
  rw [outcome_bind_ok (outcome_get c)]
  cases c.bindRange g name range <;> rfl

theorem run_bindRange_merged {name : String} {existing range merged : Range}
    (hscope : c.inScope name = true) (hbound : c.binding? name = some existing)
    (hmerge : Range.merge g.isSubclassOf existing range = .ok merged) :
    (Operation.bindRange name range).run g c = c.assign name merged := by
  rw [run_bindRange_eq]
  unfold Generics.bindRange requirement?
  rw [if_pos hscope, hbound]
  dsimp only
  rw [hmerge]

theorem run_bindRange (g : Graph) (c : Generics) (name : String) (range : Range) :
    (Operation.bindRange name range).run g c = c ∨
      c.binding? name = none ∧ (Operation.bindRange name range).run g c = c.assign name range ∨
      exists existing merged, c.binding? name = some existing ∧
        Range.merge g.isSubclassOf existing range = .ok merged ∧
        (Operation.bindRange name range).run g c = c.assign name merged := by
  rw [run_bindRange_eq]
  unfold Generics.bindRange
  cases hrequired : c.requirement? name with
  | error report => exact Or.inl rfl
  | ok required =>
      rcases requirement?_eq_ok hrequired with ⟨-, hbinding⟩
      cases required with
      | none => exact Or.inr (Or.inl ⟨hbinding, rfl⟩)
      | some existing =>
          dsimp only
          cases hmerge : Range.merge g.isSubclassOf existing range with
          | error cause => exact Or.inl rfl
          | ok merged => exact Or.inr (Or.inr ⟨existing, merged, hbinding, hmerge, rfl⟩)

theorem adjusts_run (hc : c.Concrete) {op : Operation}
    (hop : forall name range, op ≠ .bindRange name range) : Adjusts g c (op.run g c) := by
  cases op with
  | bindRange name range => exact absurd rfl (hop name range)
  | bindValue name v =>
      refine Checking.Adjusts.bind (Range.adjusts_bindValue fun r hr => ?_) (fun _ => .pure _) c hc
      exact (Range.decides_check hr v).still
  | check v range =>
      exact Checking.Adjusts.bind (Range.adjusts_check v range) (fun _ => .pure _) c hc

theorem concrete_run (hc : c.Concrete) {op : Operation} (hop : op.Concrete) :
    (op.run g c).Concrete := by
  cases op with
  | bindRange name range =>
      rcases run_bindRange g c name range with h | ⟨-, h⟩ | ⟨existing, merged, hbound, hmerge, h⟩
      · rwa [h]
      · rw [h]
        exact hc.assign name hop
      · rw [h]
        exact hc.assign name ((Range.merges_of_merge _ _ hmerge).concrete (hc _ _ hbound) hop)
  | _ => exact (adjusts_run hc fun _ _ h => by cases h).concrete hc

theorem narrows_run (hg : g.Sound) (hc : c.Concrete) {op : Operation} (hop : op.Concrete)
    (hfits : op.Fits g c) : Narrows g c (op.run g c) := by
  cases op with
  | bindRange name range =>
      rcases run_bindRange g c name range with
        h | ⟨hnone, h⟩ | ⟨existing, merged, hbound, hmerge, h⟩
      · rw [h]
        exact .refl g c
      · rw [h]
        exact narrows_assign_unbound hnone range
      · rw [h]
        exact narrows_assign_merged hg hc hbound hop hmerge
          (hfits existing merged hbound hmerge)
  | _ => exact (adjusts_run hc fun _ _ h => by cases h).narrows hg hc

/-!
# Histories
-/

theorem concrete_runAll (hc : c.Concrete) {ops : List Operation}
    (hops : forall op, op ∈ ops -> op.Concrete) : (runAll g c ops).Concrete := by
  induction ops generalizing c with
  | nil => exact hc
  | cons op ops ih =>
      rw [List.forall_mem_cons] at hops
      exact ih (concrete_run hc hops.1) hops.2

theorem narrows_runAll (hg : g.Sound) (hc : c.Concrete) {ops : List Operation}
    (hops : forall op, op ∈ ops -> op.Concrete) (hfits : AllFit g c ops) :
    Narrows g c (runAll g c ops) := by
  induction ops generalizing c with
  | nil => exact .refl g c
  | cons op ops ih =>
      rw [List.forall_mem_cons] at hops
      exact (narrows_run hg hc hops.1 hfits.1).trans
        (ih (concrete_run hc hops.1) hops.2 hfits.2)

/-- On every graph and after every history, operations with ranges that do not clash with what is
bound when they come leave narrower bindings. -/
theorem bindings_narrow (edits : List Graph.Operation) (scope : List String)
    (before ops : List Operation) (hops : forall op, op ∈ before ++ ops -> op.Concrete)
    (hfits : AllFit (Graph.empty.runAll edits).2
      (runAll (Graph.empty.runAll edits).2 (ofScope scope) before) ops) :
    Narrows (Graph.empty.runAll edits).2
      (runAll (Graph.empty.runAll edits).2 (ofScope scope) before)
      (runAll (Graph.empty.runAll edits).2 (ofScope scope) (before ++ ops)) := by
  have hsound := Graph.sound_runAll Graph.sound_empty edits
  have hbefore : (runAll (Graph.empty.runAll edits).2 (ofScope scope) before).Concrete :=
    concrete_runAll (concrete_ofScope scope) fun op hop => hops op (List.mem_append_left _ hop)
  have hsplit : runAll (Graph.empty.runAll edits).2 (ofScope scope) (before ++ ops) =
      runAll (Graph.empty.runAll edits).2
        (runAll (Graph.empty.runAll edits).2 (ofScope scope) before) ops :=
    List.foldl_append
  rw [hsplit]
  exact narrows_runAll hsound hbefore (fun op hop => hops op (List.mem_append_right _ hop)) hfits

def entry : List Graph.Operation :=
  [.intern (.literal ⟨"x", Xsd.string, none⟩), .intern (.literal ⟨"1", Xsd.integer, none⟩),
   .freshList [0, 1]]

open Range in
def opening : List Operation :=
  [.bindRange "T" (tuple [literal Xsd.string, rest (literal Xsd.number)]),
   .bindValue "S" (.literal ⟨"1", Xsd.number, none⟩)]

open Range in
def sequel : List Operation :=
  [.check (.node 2) (generic "T"), .bindRange "T" (tuple [wildcard, rest (literal Xsd.integer)]),
   .check (.literal ⟨"2", Xsd.integer, none⟩) (generic "S")]

open Range in
theorem not_clash_sequel (isSubtype : String → String → Bool) :
    ¬ Clash isSubtype (tuple [literal Xsd.string, rest (literal Xsd.number)])
      (tuple [wildcard, rest (literal Xsd.integer)]) := by
  intro h
  cases h with
  | tuple h =>
      cases h with
      | tail hx y h =>
          cases h with
          | tail hx y h => exact hx _ rfl
  | member hx hy h =>
      rename_i i x y
      match i with
      | 0 =>
          cases hx
          cases hy
          cases h
      | 1 =>
          cases hx
          cases hy
          cases h with
          | rest h => cases h
      | i + 2 => cases hx

theorem bindings_narrow_entry :
    (forall op, op ∈ opening ++ sequel -> op.Concrete) ∧
    AllFit (Graph.empty.runAll entry).2
      (runAll (Graph.empty.runAll entry).2 (ofScope ["T", "S"]) opening) sequel ∧
    Narrows (Graph.empty.runAll entry).2
      (runAll (Graph.empty.runAll entry).2 (ofScope ["T", "S"]) opening)
      (runAll (Graph.empty.runAll entry).2 (ofScope ["T", "S"]) (opening ++ sequel)) := by
  have hops (op : Operation) (hop : op ∈ opening ++ sequel) : op.Concrete := by
    simp only [opening, sequel, List.cons_append, List.nil_append, List.mem_cons,
      List.not_mem_nil, or_false] at hop
    rcases hop with rfl | rfl | rfl | rfl | rfl
    · exact ⟨trivial, trivial, trivial⟩
    · trivial
    · trivial
    · exact ⟨trivial, trivial, trivial⟩
    · trivial
  have hfits : AllFit (Graph.empty.runAll entry).2
      (runAll (Graph.empty.runAll entry).2 (ofScope ["T", "S"]) opening) sequel := by
    refine ⟨trivial, fun existing _ hexisting _ => ?_, trivial, trivial⟩
    have hbound : some (Range.tuple [.literal Xsd.string, .rest (.literal Xsd.number)]) =
        some existing := hexisting
    cases hbound
    exact not_clash_sequel _
  exact ⟨hops, hfits, bindings_narrow entry ["T", "S"] opening sequel hops hfits⟩

/-!
# A clash

A tuple of one item that may be anything is bound, and merges with a tuple of any
number of words.  The merge is the second tuple, which accepts a list of two.
-/

def anyItem : Range := .tuple [.wildcard]

def manyWords : Range := .tuple [.rest (.literal Xsd.string)]

theorem merge_anyItem (isSubtype : String → String → Bool) :
    Range.merge isSubtype anyItem manyWords = .ok manyWords := by
  simp [anyItem, manyWords, Range.merge, Range.mergePairs, Range.lift]

def words : List Graph.Operation :=
  [.intern (.literal ⟨"x", Xsd.string, none⟩), .intern (.literal ⟨"y", Xsd.string, none⟩),
   .freshList [0, 1]]

theorem items?_words : (Observed.node 2).items? (Graph.empty.runAll words).2 =
    some [.literal ⟨"x", Xsd.string, none⟩, .literal ⟨"y", Xsd.string, none⟩] := by
  decide +kernel

theorem manyWords_admits_words : manyWords.Admits (Graph.empty.runAll words).2 (.node 2) := by
  refine ⟨_, items?_words, fun item hitem => ?_⟩
  simp only [List.mem_cons, List.not_mem_nil, or_false] at hitem
  rcases hitem with rfl | rfl
  · exact ⟨_, none, rfl, Datatype.cast_string _⟩
  · exact ⟨_, none, rfl, Datatype.cast_string _⟩

theorem not_anyItem_admits_words : ¬ anyItem.Admits (Graph.empty.runAll words).2 (.node 2) := by
  rintro ⟨items, hitems, h⟩
  rw [items?_words] at hitems
  cases hitems
  cases h.2

/-- The second binding replaces a range by one that accepts a value which was refused. -/
theorem binding_widens :
    anyItem.Concrete ∧ manyWords.Concrete ∧
    (runAll (Graph.empty.runAll words).2 (ofScope ["T"])
      [.bindRange "T" anyItem]).binding? "T" = some anyItem ∧
    (runAll (Graph.empty.runAll words).2 (ofScope ["T"])
      [.bindRange "T" anyItem, .bindRange "T" manyWords]).binding? "T" = some manyWords ∧
    forall c, Range.Accepts (Graph.empty.runAll words).2 c (.node 2) manyWords ∧
      ¬ Range.Accepts (Graph.empty.runAll words).2 c (.node 2) anyItem := by
  have hany : anyItem.Concrete := ⟨trivial, trivial⟩
  have hmany : manyWords.Concrete := ⟨trivial, trivial⟩
  refine ⟨hany, hmany, rfl, ?_, fun c => ⟨?_, ?_⟩⟩
  · have hsecond : (Operation.bindRange "T" manyWords).run (Graph.empty.runAll words).2
        ⟨["T"], [("T", anyItem)]⟩ = ⟨["T"], [("T", manyWords)]⟩ :=
      run_bindRange_merged rfl rfl (merge_anyItem _)
    exact congrArg (fun c => c.binding? "T") hsecond
  · exact (Range.accepts_iff hmany c _).mpr manyWords_admits_words
  · rw [Range.accepts_iff hany c]
    exact not_anyItem_admits_words

end Generics
end Wiring
