import ObjcOutline.SymbolMap.Build
import Mathlib.Data.List.Nodup
import Mathlib.Data.List.Perm.Basic

/-!
# The order of a symbol map

The symbols of a skeleton are gathered group by group and then sorted by line with a stable sort.
No assumption is made about the skeleton: blocks may stand in any order, share lines with each other
and with members, and be of kinds that no pass gathers.

Gathering by keyword loses no block that one of the keywords opened and repeats none. Sorting leaves
the symbols of one line as they were gathered, so on each line the groups follow one another, and
each group keeps the order of the skeleton.
-/
namespace ObjcOutline

/-- Grouping by different keys keeps every item whose key is among them, once. -/
theorem flatMap_filter_perm {α κ : Type} [DecidableEq κ] (key : α → κ) {keys : List κ}
    (hkeys : keys.Nodup) (items : List α) {p : α → Bool}
    (hp : ∀ x ∈ items, p x = true ↔ key x ∈ keys) :
    (keys.flatMap fun k => items.filter fun x => key x = k).Perm (items.filter p) := by
  induction keys generalizing p with
  | nil =>
    have hnone : items.filter p = [] := List.filter_eq_nil_iff.mpr fun x hx hpx => by
      simpa using (hp x hx).mp hpx
    rw [hnone]
    rfl
  | cons k keys ih =>
    obtain ⟨hk, hkeys⟩ := List.nodup_cons.mp hkeys
    have hfirst : (items.filter p).filter (fun x => key x = k) =
        items.filter fun x => key x = k := by
      rw [List.filter_filter]
      apply List.filter_congr
      intro x hx
      by_cases hxk : key x = k
      · simp [hxk, (hp x hx).mpr (by simp [hxk])]
      · simp [hxk]
    have hothers : (keys.flatMap fun k => items.filter fun x => key x = k).Perm
        ((items.filter p).filter fun x => !key x = k) := by
      rw [List.filter_filter]
      apply ih hkeys
      intro x hx
      rw [Bool.and_eq_true, hp x hx, List.mem_cons]
      by_cases hxk : key x = k <;> simp [hxk, hk]
    have hsplit := List.filter_append_perm (fun x => decide (key x = k)) (items.filter p)
    rw [hfirst] at hsplit
    rw [List.flatMap_cons]
    exact (hothers.append_left _).trans hsplit

namespace Skeleton

/-- The blocks that the passes of a symbol map meet, in the order of the skeleton. -/
def gatheredBlocks (s : Skeleton) : List Block :=
  s.blocks.filter fun b => b.openingKeyword ∈ SymbolMap.keywordOrder

end Skeleton

namespace SymbolMap

/-- The passes over the blocks meet every block that one of their keywords opened, once. -/
theorem blockSymbols_perm (s : Skeleton) :
    (blockSymbols s.blocks).Perm (s.gatheredBlocks.map Symbol.ofBlock) := by
  have hkeys : keywordOrder.Nodup := by decide
  have hperm := flatMap_filter_perm Block.openingKeyword hkeys s.blocks
    (p := fun b => b.openingKeyword ∈ keywordOrder) fun b _ => decide_eq_true_iff
  unfold blockSymbols
  rw [← List.map_flatMap]
  exact hperm.map Symbol.ofBlock

theorem line_le_trans (a b c : Symbol) (hab : decide (a.line ≤ b.line) = true)
    (hbc : decide (b.line ≤ c.line) = true) : decide (a.line ≤ c.line) = true := by
  have hab := of_decide_eq_true hab
  have hbc := of_decide_eq_true hbc
  exact decide_eq_true (by omega)

theorem line_le_total (a b : Symbol) :
    (decide (a.line ≤ b.line) || decide (b.line ≤ a.line)) = true := by
  rw [Bool.or_eq_true, decide_eq_true_iff, decide_eq_true_iff]
  omega

theorem symbols_sorted (s : Skeleton) (withProperties : Bool) :
    (ofSkeleton s withProperties).symbols.Pairwise fun a b => a.line ≤ b.line := by
  have hsorted := List.pairwise_mergeSort line_le_trans line_le_total (gathered s withProperties)
  exact hsorted.imp fun h => of_decide_eq_true h

/-- The symbols of one line are in order before the sort, and a stable sort keeps such lists. -/
theorem filter_line_mergeSort (symbols : List Symbol) (line : Int) :
    (symbols.mergeSort fun a b => a.line ≤ b.line).filter (fun x => x.line = line) =
      symbols.filter fun x => x.line = line := by
  have hsorted : (symbols.filter fun x => x.line = line).Pairwise fun a b =>
      decide (a.line ≤ b.line) = true := by
    refine List.pairwise_of_forall_mem_list fun a ha b hb => ?_
    have hal := of_decide_eq_true (List.mem_filter.mp ha).2
    have hbl := of_decide_eq_true (List.mem_filter.mp hb).2
    exact decide_eq_true (by omega)
  have hkept := (List.sublist_mergeSort line_le_trans line_le_total hsorted
    List.filter_sublist).filter fun x => x.line = line
  rw [List.filter_filter] at hkept
  simp only [Bool.and_self] at hkept
  have hperm := (List.mergeSort_perm symbols fun a b => a.line ≤ b.line).filter
    fun x => x.line = line
  exact (hkept.eq_of_length hperm.length_eq.symm).symm

end SymbolMap

end ObjcOutline
