import Mathlib.Data.List.Nodup
import Wiring.Json.Basic
import Wiring.Proofs.Table

/-!
# Objects of entries

A list of entries may have a key more than once, and a look-up then finds the first
of them.  An object that the entries are written to has each key once, with the
value of the last one.
-/

namespace Wiring

/-!
# First and last entries
-/

namespace Entries

variable {α β : Type} {key : String}

theorem lookup_reverse_cons (entry : String × α) (rest : List (String × α)) :
    (entry :: rest).reverse.lookup key =
      (rest.reverse.lookup key).or (if key = entry.1 then some entry.2 else none) := by
  rw [List.reverse_cons, List.lookup_append, lookup_cons, List.lookup_nil]

theorem lookup_map (f : α → β) (entries : List (String × α)) :
    (entries.map (Prod.map id f)).lookup key = (entries.lookup key).map f := by
  induction entries with
  | nil => rfl
  | cons entry rest ih =>
      rw [List.map_cons, lookup_cons, lookup_cons, ih]
      by_cases hkey : key = entry.1
      · simp [hkey]
      · simp [hkey]

theorem isSome_lookup_reverse (entries : List (String × α)) (key : String) :
    (entries.reverse.lookup key).isSome = (entries.lookup key).isSome := by
  rw [Bool.eq_iff_iff, List.lookup_isSome_iff, List.lookup_isSome_iff]
  simp only [List.mem_reverse]

theorem lookup_reverse_of_count_le_one {entries : List (String × α)}
    (h : (entries.map Prod.fst).count key ≤ 1) :
    entries.reverse.lookup key = entries.lookup key := by
  induction entries with
  | nil => rfl
  | cons entry rest ih =>
      rw [List.map_cons, List.count_cons] at h
      rw [lookup_reverse_cons, lookup_cons, ih (Nat.le_of_add_right_le h)]
      by_cases hkey : key = entry.1
      · have hcount : (rest.map Prod.fst).count key = 0 := by
          simpa [hkey] using h
        have hnone : rest.lookup key = none := by
          rw [List.lookup_eq_none_iff]
          intro other hother
          rw [bne_iff_ne]
          intro hsame
          exact List.count_eq_zero.mp hcount (hsame ▸ List.mem_map_of_mem hother)
        rw [hnone, Option.none_or, if_pos hkey]
      · rw [if_neg hkey, if_neg hkey, Option.or_none]

end Entries

/-!
# Objects
-/

namespace Json

variable {fields : List (String × Json)}

theorem lookup_setField (fields : List (String × Json)) (name : String) (value : Json)
    (key : String) :
    (setField fields name value).lookup key =
      if key = name then some value else fields.lookup key := by
  induction fields with
  | nil => rw [setField, Entries.lookup_cons]
  | cons field rest ih =>
      rcases field with ⟨name', value'⟩
      rw [setField]
      by_cases hname : name' = name
      · rw [if_pos hname, Entries.lookup_cons, Entries.lookup_cons]
        by_cases hkey : key = name
        · rw [if_pos hkey, if_pos hkey]
        · rw [if_neg hkey, if_neg hkey, hname, if_neg hkey]
      · rw [if_neg hname, Entries.lookup_cons, Entries.lookup_cons, ih]
        by_cases hkey : key = name'
        · rw [if_pos hkey, if_neg (hkey ▸ hname), if_pos hkey]
        · rw [if_neg hkey, if_neg hkey]

theorem keys_setField (fields : List (String × Json)) (name : String) (value : Json) :
    (setField fields name value).map Prod.fst =
      if name ∈ fields.map Prod.fst then fields.map Prod.fst
      else fields.map Prod.fst ++ [name] := by
  induction fields with
  | nil => rfl
  | cons field rest ih =>
      rcases field with ⟨name', value'⟩
      rw [setField]
      by_cases hname : name' = name
      · simp [hname]
      · rw [if_neg hname, List.map_cons, ih, List.map_cons]
        by_cases hmem : name ∈ rest.map Prod.fst
        · rw [if_pos hmem, if_pos (List.mem_cons_of_mem _ hmem)]
        · rw [if_neg hmem, if_neg, List.cons_append]
          rw [List.mem_cons, not_or]
          exact ⟨Ne.symm hname, hmem⟩

theorem nodup_setField (h : (fields.map Prod.fst).Nodup) (name : String) (value : Json) :
    ((setField fields name value).map Prod.fst).Nodup := by
  rw [keys_setField]
  by_cases hmem : name ∈ fields.map Prod.fst
  · rw [if_pos hmem]
    exact h
  · rw [if_neg hmem]
    refine List.nodup_append.mpr ⟨h, List.nodup_singleton name, fun other hother _ hsingle => ?_⟩
    rw [List.mem_singleton.mp hsingle]
    intro hsame
    exact hmem (hsame ▸ hother)

theorem lookup_writeFields (fields written : List (String × Json)) (key : String) :
    (fields.foldl (fun acc f => setField acc f.1 f.2) written).lookup key =
      (fields.reverse.lookup key).or (written.lookup key) := by
  induction fields generalizing written with
  | nil => rfl
  | cons field rest ih =>
      rw [List.foldl_cons, ih, lookup_setField, Entries.lookup_reverse_cons, Option.or_assoc]
      by_cases hkey : key = field.1
      · rw [if_pos hkey, if_pos hkey, Option.some_or]
      · rw [if_neg hkey, if_neg hkey, Option.none_or]

theorem nodup_writeFields {written : List (String × Json)} (h : (written.map Prod.fst).Nodup) :
    ((fields.foldl (fun acc f => setField acc f.1 f.2) written).map Prod.fst).Nodup := by
  induction fields generalizing written with
  | nil => exact h
  | cons field rest ih => exact ih (nodup_setField h field.1 field.2)

/-- Each key stands in an object once, with the value that was written last. -/
theorem exists_of_ofFields (fields : List (String × Json)) :
    exists written, ofFields fields = .obj written ∧ (written.map Prod.fst).Nodup ∧
      forall key, written.lookup key = fields.reverse.lookup key := by
  refine ⟨_, rfl, nodup_writeFields List.nodup_nil, fun key => ?_⟩
  rw [lookup_writeFields, List.lookup_nil, Option.or_none]

inductive Within (v : Json) : Json → Prop where
  | self : Within v v
  | item {w : Json} {items : List Json} (mem : w ∈ items) (inner : Within v w) :
      Within v (.arr items)
  | field {key : String} {w : Json} {fields : List (String × Json)} (mem : (key, w) ∈ fields)
      (inner : Within v w) : Within v (.obj fields)

end Json

end Wiring
