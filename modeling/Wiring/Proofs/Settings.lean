import Mathlib.Data.List.TakeWhile
import Wiring.Proofs.Table
import Wiring.Settings

/-!
# Overriding variables

An override is split at its first `=`.  Of several overrides of a variable the last
one counts, and the first malformed one ends the list, with those before it applied.
-/

namespace Wiring
namespace Settings

/-- The text consists of a name, which is not empty and has no `=`, and of the value behind an `=`. -/
structure Assigns (assignment name value : String) : Prop where
  split : assignment.toList = name.toList ++ '=' :: value.toList
  separator : '=' ∉ name.toList
  nonempty : name ≠ ""

def IsAssignment (assignment : String) : Prop :=
  exists name value, Assigns assignment name value

def LastAssigned (overrides : List String) (name value : String) : Prop :=
  exists before assignment after, overrides = before ++ assignment :: after ∧
    Assigns assignment name value ∧ forall a, a ∈ after -> forall v, ¬ Assigns a name v

theorem splitAssignment?_eq_some {cs name value : List Char} :
    splitAssignment? cs = some (name, value) <->
      cs = name ++ '=' :: value ∧ '=' ∉ name ∧ name ≠ [] := by
  unfold splitAssignment?
  constructor
  · intro h
    have hname : '=' ∉ cs.takeWhile (· ≠ '=') := by
      intro hmem
      simpa using List.mem_takeWhile_imp hmem
    have hcs := List.takeWhile_append_dropWhile (p := (· ≠ '=')) (l := cs)
    have hhead := List.head?_dropWhile_not (· ≠ '=') cs
    split at h
    · cases h
    · next c rest hdrop =>
        rw [hdrop] at hcs hhead
        have hc : c = '=' := by simpa using hhead
        subst hc
        split at h
        · cases h
        · next hne =>
            cases h
            exact ⟨hcs.symm, hname, hne⟩
  · rintro ⟨rfl, hname, hne⟩
    have hall : forall c, c ∈ name -> decide (c ≠ '=') = true := by
      intro c hc
      rw [decide_eq_true_iff]
      rintro rfl
      exact hname hc
    have hdrop : (name ++ '=' :: value).dropWhile (· ≠ '=') = '=' :: value := by
      rw [List.dropWhile_append_of_pos hall]
      rfl
    have htake : (name ++ '=' :: value).takeWhile (· ≠ '=') = name := by
      rw [List.takeWhile_append_of_pos hall]
      simp
    rw [hdrop, htake]
    cases name with
    | nil => exact absurd rfl hne
    | cons c rest => rfl

theorem assigns_iff {assignment name value : String} : Assigns assignment name value <->
    splitAssignment? assignment.toList = some (name.toList, value.toList) := by
  have hname : name ≠ "" <-> name.toList ≠ [] := by
    rw [not_iff_not, String.toList_eq_nil_iff]
  rw [splitAssignment?_eq_some]
  constructor
  · intro h
    exact ⟨h.split, h.separator, hname.mp h.nonempty⟩
  · rintro ⟨hsplit, hseparator, hne⟩
    exact ⟨hsplit, hseparator, hname.mpr hne⟩

theorem Assigns.unique {assignment name name' value value' : String}
    (h : Assigns assignment name value) (h' : Assigns assignment name' value') :
    name = name' ∧ value = value' := by
  rw [assigns_iff] at h h'
  rw [h, Option.some.injEq, Prod.mk.injEq, String.toList_inj, String.toList_inj] at h'
  exact h'

/-!
# One override
-/

theorem override_ok {s : Settings} {assignment name value : String}
    (h : Assigns assignment name value) :
    s.override assignment = .ok { s with supplied := s.supplied.insert name value } := by
  unfold override
  rw [assigns_iff.mp h]
  dsimp only
  rw [String.ofList_toList, String.ofList_toList]

theorem override_error {s : Settings} {assignment : String} (h : ¬ IsAssignment assignment) :
    s.override assignment = .error (malformedAssignment assignment) := by
  unfold override
  cases hsplit : splitAssignment? assignment.toList with
  | none => rfl
  | some parts =>
      refine absurd ⟨String.ofList parts.1, String.ofList parts.2, ?_⟩ h
      rw [assigns_iff, String.toList_ofList, String.toList_ofList]
      exact hsplit

/-!
# Overrides one after the other
-/

variable {s : Settings}

theorem applyOverrides_append {before : List String}
    (h : forall a, a ∈ before -> IsAssignment a) (rest : List String) :
    s.applyOverrides (before ++ rest) = (s.applyOverrides before).2.applyOverrides rest := by
  induction before generalizing s with
  | nil => rfl
  | cons a before ih =>
      rw [List.forall_mem_cons] at h
      rcases h.1 with ⟨name, value, ha⟩
      rw [List.cons_append, applyOverrides, applyOverrides, override_ok ha]
      exact ih h.2

theorem applyOverrides_ok {overrides : List String}
    (h : forall a, a ∈ overrides -> IsAssignment a) : (s.applyOverrides overrides).1 = .ok () := by
  induction overrides generalizing s with
  | nil => rfl
  | cons a rest ih =>
      rw [List.forall_mem_cons] at h
      rcases h.1 with ⟨name, value, ha⟩
      rw [applyOverrides, override_ok ha]
      exact ih h.2

theorem applyOverrides_malformed {before after : List String} {bad : String}
    (h : forall a, a ∈ before -> IsAssignment a) (hbad : ¬ IsAssignment bad) :
    s.applyOverrides (before ++ bad :: after) =
      (.error (malformedAssignment bad), (s.applyOverrides before).2) := by
  rw [applyOverrides_append h, applyOverrides, override_error hbad]

theorem applyOverrides_depthLimit (s : Settings) (overrides : List String) :
    (s.applyOverrides overrides).2.depthLimit = s.depthLimit := by
  induction overrides generalizing s with
  | nil => rfl
  | cons a rest ih =>
      rw [applyOverrides]
      by_cases ha : IsAssignment a
      · rcases ha with ⟨name, value, ha⟩
        rw [override_ok ha]
        exact ih _
      · rw [override_error ha]

theorem applyOverrides_unassigned {overrides : List String} {name : String}
    (h : forall a, a ∈ overrides -> forall v, ¬ Assigns a name v) :
    (s.applyOverrides overrides).2.supplied[name]? = s.supplied[name]? := by
  induction overrides generalizing s with
  | nil => rfl
  | cons a rest ih =>
      rw [List.forall_mem_cons] at h
      rw [applyOverrides]
      by_cases ha : IsAssignment a
      · rcases ha with ⟨name', value, ha⟩
        rw [override_ok ha]
        refine (ih h.2).trans ?_
        dsimp only
        rw [Table.getElem?_insert, if_neg]
        rintro rfl
        exact h.1 value ha
      · rw [override_error ha]

theorem applyOverrides_last {overrides : List String} {name value : String}
    (h : forall a, a ∈ overrides -> IsAssignment a) (hlast : LastAssigned overrides name value) :
    (s.applyOverrides overrides).2.supplied[name]? = some value := by
  rcases hlast with ⟨before, assignment, after, rfl, hassigns, hafter⟩
  have hbefore : forall a, a ∈ before -> IsAssignment a := fun a ha =>
    h a (List.mem_append_left _ ha)
  rw [applyOverrides_append hbefore, applyOverrides, override_ok hassigns]
  refine (applyOverrides_unassigned hafter).trans ?_
  dsimp only
  rw [Table.getElem?_insert, if_pos rfl]

theorem exists_first_malformed {overrides : List String}
    (h : ¬ forall a, a ∈ overrides -> IsAssignment a) :
    exists before bad after, overrides = before ++ bad :: after ∧
      (forall a, a ∈ before -> IsAssignment a) ∧ ¬ IsAssignment bad := by
  induction overrides with
  | nil => exact absurd (fun a ha => absurd ha List.not_mem_nil) h
  | cons a rest ih =>
      by_cases ha : IsAssignment a
      · have hrest : ¬ forall a, a ∈ rest -> IsAssignment a := fun hall =>
          h (List.forall_mem_cons.mpr ⟨ha, hall⟩)
        rcases ih hrest with ⟨before, bad, after, rfl, hbefore, hbad⟩
        exact ⟨a :: before, bad, after, rfl, List.forall_mem_cons.mpr ⟨ha, hbefore⟩, hbad⟩
      · exact ⟨[], a, rest, rfl, fun _ hmem => absurd hmem List.not_mem_nil, ha⟩

/-- Overrides are applied if and only if all of them are assignments: their first `=` stands behind a
name.  Then each variable has the value from the last one that assigns to it, or the one that it had
before.  Otherwise the variables are as those before the first malformed one leave them.  The depth limit
stays in any case. -/
theorem applyOverrides_assigned (s : Settings) (overrides : List String) :
    ((s.applyOverrides overrides).1 = .ok () <-> forall a, a ∈ overrides -> IsAssignment a) ∧
    ((s.applyOverrides overrides).1 = .ok () -> forall name,
      (forall value, LastAssigned overrides name value ->
        (s.applyOverrides overrides).2.supplied[name]? = some value) ∧
      ((forall a, a ∈ overrides -> forall value, ¬ Assigns a name value) ->
        (s.applyOverrides overrides).2.supplied[name]? = s.supplied[name]?)) ∧
    (forall failure, (s.applyOverrides overrides).1 = .error failure ->
      exists before bad after, overrides = before ++ bad :: after ∧
        (forall a, a ∈ before -> IsAssignment a) ∧ ¬ IsAssignment bad ∧
        failure = malformedAssignment bad ∧
        (s.applyOverrides before).1 = .ok () ∧
        (s.applyOverrides overrides).2.supplied = (s.applyOverrides before).2.supplied) ∧
    (s.applyOverrides overrides).2.depthLimit = s.depthLimit := by
  have hall (h : (s.applyOverrides overrides).1 = .ok ()) :
      forall a, a ∈ overrides -> IsAssignment a := by
    by_contra hmalformed
    rcases exists_first_malformed hmalformed with ⟨before, bad, after, rfl, hbefore, hbad⟩
    rw [applyOverrides_malformed hbefore hbad] at h
    cases h
  refine ⟨⟨hall, applyOverrides_ok⟩, fun h name => ?_, fun failure h => ?_,
    applyOverrides_depthLimit s overrides⟩
  · exact ⟨fun value => applyOverrides_last (hall h), applyOverrides_unassigned⟩
  · have hmalformed : ¬ forall a, a ∈ overrides -> IsAssignment a := by
      intro hall
      rw [applyOverrides_ok hall] at h
      cases h
    rcases exists_first_malformed hmalformed with ⟨before, bad, after, rfl, hbefore, hbad⟩
    rw [applyOverrides_malformed hbefore hbad] at h ⊢
    cases h
    exact ⟨before, bad, after, rfl, hbefore, hbad, rfl, applyOverrides_ok hbefore, rfl⟩

theorem applyOverrides_assigned_repeated :
    (default.applyOverrides ["a=1", "b=x=y", "a="]).1 = .ok () ∧
    (default.applyOverrides ["a=1", "b=x=y", "a="]).2.supplied["a"]? = some "" ∧
    (default.applyOverrides ["a=1", "b=x=y", "a="]).2.supplied["b"]? = some "x=y" ∧
    (default.applyOverrides ["a=1", "=v", "a=2"]).1 ≠ .ok () := by
  have ha : Assigns "a=1" "a" "1" := ⟨by decide, by decide, by decide⟩
  have hb : Assigns "b=x=y" "b" "x=y" := ⟨by decide, by decide, by decide⟩
  have hempty : Assigns "a=" "a" "" := ⟨by decide, by decide, by decide⟩
  have hbad : ¬ IsAssignment "=v" := by
    rintro ⟨name, value, h⟩
    have hsplit := splitAssignment?_eq_some.mpr ⟨h.split, h.separator, by simpa using h.nonempty⟩
    cases hsplit
  have hassigned : forall a, a ∈ ["a=1", "b=x=y", "a="] -> IsAssignment a := by
    simp only [List.forall_mem_cons]
    exact ⟨⟨_, _, ha⟩, ⟨_, _, hb⟩, ⟨_, _, hempty⟩, fun _ hmem => absurd hmem List.not_mem_nil⟩
  have hlast : LastAssigned ["a=1", "b=x=y", "a="] "a" "" :=
    ⟨["a=1", "b=x=y"], "a=", [], rfl, hempty, fun _ hmem => absurd hmem List.not_mem_nil⟩
  have hmiddle : LastAssigned ["a=1", "b=x=y", "a="] "b" "x=y" := by
    refine ⟨["a=1"], "b=x=y", ["a="], rfl, hb, fun a hmem v h => ?_⟩
    rw [List.mem_singleton.mp hmem] at h
    exact absurd (h.unique hempty).1 (by decide)
  rcases applyOverrides_assigned default ["a=1", "b=x=y", "a="] with ⟨hiff, hvalues, -, -⟩
  rcases applyOverrides_assigned default ["a=1", "=v", "a=2"] with ⟨hiff', -, -, -⟩
  have hok := hiff.mpr hassigned
  refine ⟨hok, (hvalues hok "a").1 _ hlast, (hvalues hok "b").1 _ hmiddle, fun h => ?_⟩
  exact hbad (hiff'.mp h "=v" (by simp))

/-- An `=` at a later place does not make up for one at the beginning. -/
theorem not_applied_later_separator :
    (forall a, a ∈ ["=a=b"] -> exists i, 0 < i ∧ a.toList[i]? = some '=') ∧
    (default.applyOverrides ["=a=b"]).1 ≠ .ok () := by
  constructor
  · intro a ha
    rw [List.mem_singleton.mp ha]
    exact ⟨2, by decide, by decide⟩
  · intro h
    cases h

end Settings
end Wiring
