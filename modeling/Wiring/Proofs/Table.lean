import Std.Data.TreeMap.Lemmas

/-!
# Tables

Keys that compare as equal are equal here.  So a table is determined by the
entries it answers with, and lists them in one order however it was built.  A list
of entries is a table too: a look-up answers with the first one that has the key.
-/

namespace Wiring
namespace Table

variable {α β γ : Type} [Ord α] [Std.TransOrd α]

theorem getElem?_insert [Std.LawfulEqOrd α] [DecidableEq α] (m : Std.TreeMap α β) (k a : α)
    (v : β) : (m.insert k v)[a]? = if a = k then some v else m[a]? := by
  rw [Std.TreeMap.getElem?_insert]
  by_cases ha : a = k
  · subst ha
    simp
  · have hne : ¬ k = a := fun h => ha h.symm
    simp [ha, hne]

theorem keys_eq_of_mem_iff {m : Std.TreeMap α β} {m' : Std.TreeMap α γ}
    (h : forall k, k ∈ m.keys <-> k ∈ m'.keys) : m.keys = m'.keys := by
  have hperm := (List.perm_ext_iff_of_nodup Std.TreeMap.nodup_keys Std.TreeMap.nodup_keys).mpr h
  refine hperm.eq_of_pairwise ?_ Std.TreeMap.ordered_keys Std.TreeMap.ordered_keys
  intro a b _ _ hab hba
  have hswap : compare a b = (compare b a).swap := Std.OrientedCmp.eq_swap
  rw [hswap, hba] at hab
  cases hab

theorem toList_eq_of_getElem?_eq [Std.LawfulEqOrd α] {m m' : Std.TreeMap α β}
    (h : forall k : α, m[k]? = m'[k]?) : m.toList = m'.toList := by
  have hnodup (m : Std.TreeMap α β) : m.toList.Nodup := by
    apply Std.TreeMap.distinct_keys_toList.imp
    rintro a _ hne rfl
    exact hne Std.ReflOrd.compare_self
  refine Std.TreeMap.equiv_iff_toList_eq.mp (Std.TreeMap.equiv_iff_toList_perm.mpr ?_)
  apply (List.perm_ext_iff_of_nodup (hnodup m) (hnodup m')).mpr
  rintro ⟨k, v⟩
  rw [Std.TreeMap.mem_toList_iff_getElem?_eq_some, Std.TreeMap.mem_toList_iff_getElem?_eq_some, h]

end Table

namespace Entries

theorem lookup_cons {α : Type} {key : String} (entry : String × α) (rest : List (String × α)) :
    (entry :: rest).lookup key = if key = entry.1 then some entry.2 else rest.lookup key := by
  rw [List.lookup_cons]
  by_cases hkey : key = entry.1
  · rw [if_pos hkey, beq_iff_eq.mpr hkey]
  · rw [if_neg hkey, beq_eq_false_iff_ne.mpr hkey]

end Entries
end Wiring
