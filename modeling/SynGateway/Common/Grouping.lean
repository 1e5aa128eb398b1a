import Mathlib.Algebra.GroupWithZero.Nat
import Mathlib.Algebra.BigOperators.Group.List.Basic
import Mathlib.Data.List.Induction
import Mathlib.Data.List.Nodup

/-!
# Grouping a list by a key

`groupBy` collects the elements of a list by a key, in a dictionary whose keys stand in the order of
their first elements. The groups together are the list (`flatMap_groupBy`), so what is summed or
counted over the groups is the sum or the count over the list.
-/

namespace SynGateway.Grouping

variable {α κ M : Type*} [DecidableEq κ] {groups : List (κ × List α)} {key : κ} {a : α}

/-- Append to the group of a key; the group of a new key comes last. -/
def insert (key : κ) (a : α) : List (κ × List α) → List (κ × List α)
  | [] => [(key, [a])]
  | (k, as) :: groups =>
    if k = key then (k, as ++ [a]) :: groups else (k, as) :: insert key a groups

/-- The elements by their keys. -/
def groupBy (f : α → κ) (l : List α) : List (κ × List α) :=
  l.foldl (fun groups a => insert (f a) a groups) []

/-! ## One element -/

/-- A new key is the last one, and a known key leaves the keys as they are. -/
theorem keys_insert : (insert key a groups).map Prod.fst =
    if key ∈ groups.map Prod.fst then groups.map Prod.fst else groups.map Prod.fst ++ [key] := by
  induction groups with
  | nil => rfl
  | cons g groups ih =>
      rw [insert]
      by_cases hkey : g.1 = key
      · rw [if_pos hkey, if_pos (hkey ▸ List.mem_cons_self)]
        rfl
      · rw [if_neg hkey, List.map_cons, ih, List.map_cons]
        by_cases hmem : key ∈ groups.map Prod.fst
        · rw [if_pos hmem, if_pos (List.mem_cons_of_mem _ hmem)]
        · rw [if_neg hmem, if_neg fun h => ?_]
          · rfl
          · rcases List.mem_cons.mp h with h | h
            · exact hkey h.symm
            · exact hmem h

/-- No key comes twice. -/
theorem keys_nodup_insert (h : (groups.map Prod.fst).Nodup) :
    ((insert key a groups).map Prod.fst).Nodup := by
  rw [keys_insert]
  split_ifs with hmem
  · exact h
  · rw [← List.concat_eq_append]
    exact List.Nodup.concat hmem h

/-- The groups hold one element more. -/
theorem flatMap_insert :
    ((insert key a groups).flatMap Prod.snd).Perm (groups.flatMap Prod.snd ++ [a]) := by
  induction groups with
  | nil => exact List.Perm.refl _
  | cons g groups ih =>
      rw [insert]
      split_ifs
      · rw [List.flatMap_cons, List.flatMap_cons, List.append_assoc, List.append_assoc]
        exact List.Perm.append_left _ List.perm_append_comm
      · rw [List.flatMap_cons, List.flatMap_cons, List.append_assoc]
        exact List.Perm.append_left _ ih

/-! ## The whole list -/

variable (f : α → κ) (l : List α)

/-- No key has two groups. -/
theorem keys_nodup_groupBy : ((groupBy f l).map Prod.fst).Nodup := by
  induction l using List.reverseRecOn with
  | nil => exact List.nodup_nil
  | append_singleton l a ih =>
      unfold groupBy at ih ⊢
      rw [List.foldl_append]
      exact keys_nodup_insert ih

/-- The groups together are the list. -/
theorem flatMap_groupBy : ((groupBy f l).flatMap Prod.snd).Perm l := by
  induction l using List.reverseRecOn with
  | nil => exact List.Perm.refl _
  | append_singleton l a ih =>
      unfold groupBy at ih ⊢
      rw [List.foldl_append]
      exact flatMap_insert.trans (ih.append_right _)

/-- What is counted in the groups is counted in the list. -/
theorem sum_countP_groupBy (p : α → Bool) :
    ((groupBy f l).map fun g => g.2.countP p).sum = l.countP p := by
  rw [← (flatMap_groupBy f l).countP_eq p, List.countP_flatMap]
  rfl

/-- Each element is in one group. -/
theorem sum_length_groupBy : ((groupBy f l).map fun g => g.2.length).sum = l.length := by
  rw [← (flatMap_groupBy f l).length_eq, List.length_flatMap]

/-- What is summed over the groups is summed over the list. -/
theorem sum_filterMap_groupBy [AddCommMonoid M] (value : α → Option M) :
    ((groupBy f l).map fun g => (g.2.filterMap value).sum).sum = (l.filterMap value).sum := by
  rw [← ((flatMap_groupBy f l).filterMap value).sum_eq, List.filterMap_flatMap, List.flatMap_def,
    List.sum_flatten, List.map_map]
  rfl

end SynGateway.Grouping
