import ObjcOutline.Proofs.Placement
import Mathlib.Data.Int.Order.Basic
import Mathlib.Order.Bounds.Basic

/-!
# The ranges of blocks

The line where a block ends is found by halving a list of closing lines. That list holds exactly the
lines of the text that are a bare `@end`, in ascending order, so the search finds what a look at one
line after another finds. Everything else here follows from two facts: the opening lines ascend, and
a block ends at the least closing line after its opening line or, without one, on that line itself.

Two blocks never overlap in part. Either the first ends before the second starts, or no closing line
stands between the two openings and then they share their end.
-/
namespace ObjcOutline

/-- Whether a line holds nothing but `@end`. -/
def SourceLine.isBareEnd (l : SourceLine) : Bool := l.trimmed = ['@', 'e', 'n', 'd']

theorem SourceLine.isBareEnd_iff {l : SourceLine} : l.isBareEnd = true ↔ l.trimmed = "@end" :=
  decide_eq_true_iff

def endLines (src : Text) : Set Int :=
  {n | ∃ (i : Nat) (raw : Text), (Text.lines src)[i]? = some raw ∧
    Text.trim (Text.dropReturn raw) = "@end" ∧ n = i + 1}

/-- The first bare `@end` line after a given line, found by looking at every line in turn. -/
def nextEnd? (src : Text) (line : Int) : Option Int :=
  ((SourceLine.ofText src).find? fun l => l.isBareEnd && line < l.number).map fun l => l.number

def closingLines (src : Text) : List Int := (Mark.ofText src).filterMap Mark.closer?

def openers (src : Text) : List Opener := (Mark.ofText src).filterMap Mark.opener?

namespace Block

/-- The search keeps everything before its range below `x` and everything after it at `x` or above. -/
theorem searchFrom_spec {numbers : List Int} (sorted : numbers.Pairwise (· < ·)) (x : Int)
    (low high : Nat) (hle : low ≤ high) (hsize : high ≤ numbers.length)
    (hlow : ∀ (j : Nat) (v : Int), numbers[j]? = some v → j < low → v < x)
    (hhigh : ∀ (j : Nat) (v : Int), numbers[j]? = some v → high ≤ j → x ≤ v) :
    (∀ (j : Nat) (v : Int), numbers[j]? = some v →
        j < searchFrom numbers.toArray x low high → v < x) ∧
      ∀ (j : Nat) (v : Int), numbers[j]? = some v →
        searchFrom numbers.toArray x low high ≤ j → x ≤ v := by
  have ascending : ∀ (i j : Nat) (u v : Int), numbers[i]? = some u → numbers[j]? = some v →
      i ≤ j → u ≤ v := by
    intro i j u v hu hv hij
    obtain ⟨hi, rfl⟩ := List.getElem?_eq_some_iff.mp hu
    obtain ⟨hj, rfl⟩ := List.getElem?_eq_some_iff.mp hv
    rcases Nat.lt_or_eq_of_le hij with hlt | rfl
    · exact le_of_lt (List.pairwise_iff_getElem.mp sorted i j hi hj hlt)
    · exact le_rfl
  induction low, high using searchFrom.induct numbers.toArray x with
  | case1 low high hlt middle hmiddle ih =>
    rw [searchFrom, if_pos hlt, if_pos hmiddle]
    have hm : middle < numbers.length := by omega
    have hget : numbers[middle]? = some numbers[middle] := List.getElem?_eq_getElem hm
    rw [Array.getD_eq_getD_getElem?, List.getElem?_toArray, hget, Option.getD_some] at hmiddle
    refine ih (by omega) hsize ?_ hhigh
    intro j v hv hj
    exact lt_of_le_of_lt (ascending j middle v _ hv hget (by omega)) hmiddle
  | case2 low high hlt middle hmiddle ih =>
    rw [searchFrom, if_pos hlt, if_neg hmiddle]
    have hm : middle < numbers.length := by omega
    have hget : numbers[middle]? = some numbers[middle] := List.getElem?_eq_getElem hm
    rw [Array.getD_eq_getD_getElem?, List.getElem?_toArray, hget, Option.getD_some] at hmiddle
    refine ih (by omega) (by omega) hlow ?_
    intro j v hv hj
    exact le_trans (not_lt.mp hmiddle) (ascending middle j _ v hget hv hj)
  | case3 low high hlt =>
    rw [searchFrom, if_neg hlt]
    have heq : low = high := by omega
    subst heq
    exact ⟨hlow, hhigh⟩

/-- Halving an ascending list finds what looking at every entry finds. -/
theorem endLineOf_eq_find {closers : List Int} (sorted : closers.Pairwise (· < ·)) (start : Int) :
    endLineOf closers.toArray start = (closers.find? fun c => start < c).getD start := by
  obtain ⟨hbefore, hafter⟩ := searchFrom_spec sorted (start + 1) 0 closers.length
    (Nat.zero_le _) (Nat.le_refl _) (by omega) (by
      intro j v hv hj
      obtain ⟨hj', -⟩ := List.getElem?_eq_some_iff.mp hv
      omega)
  rw [endLineOf, Array.getD_eq_getD_getElem?, List.getElem?_toArray, List.size_toArray]
  generalize searchFrom closers.toArray (start + 1) 0 closers.length = i at hbefore hafter ⊢
  congr 1
  cases hi : closers[i]? with
  | some c =>
    symm
    rw [List.find?_eq_some_iff_getElem]
    obtain ⟨hlt, hc⟩ := List.getElem?_eq_some_iff.mp hi
    have hle := hafter i c hi (Nat.le_refl i)
    refine ⟨by simpa using Int.lt_of_add_one_le hle, i, hlt, hc, ?_⟩
    intro j hj
    have hv := hbefore j _ (List.getElem?_eq_getElem (by omega)) hj
    simp only [Bool.not_eq_true', decide_eq_false_iff_not]
    omega
  | none =>
    symm
    rw [List.find?_eq_none]
    intro c hc
    obtain ⟨j, hj, rfl⟩ := List.mem_iff_getElem.mp hc
    have hi' := List.getElem?_eq_none_iff.mp hi
    have hv := hbefore j _ (List.getElem?_eq_getElem hj) (by omega)
    simp only [decide_eq_true_eq]
    omega

/-- A block ends at the least closing line after its start, or on its start when there is none. -/
theorem endLineOf_spec {closers : List Int} (sorted : closers.Pairwise (· < ·)) (start : Int) :
    (start < endLineOf closers.toArray start ∧ endLineOf closers.toArray start ∈ closers ∧
      ∀ c ∈ closers, start < c → endLineOf closers.toArray start ≤ c) ∨
    (endLineOf closers.toArray start = start ∧ ∀ c ∈ closers, c ≤ start) := by
  rw [endLineOf_eq_find sorted]
  cases h : closers.find? fun c => start < c with
  | some e =>
    left
    obtain ⟨hlt, before, after, heq, hbefore⟩ := List.find?_eq_some_iff_append.mp h
    subst heq
    refine ⟨by simpa using hlt, by simp, ?_⟩
    intro c hc hlt'
    rw [Option.getD_some]
    rcases List.mem_append.mp hc with hc | hc
    · have := hbefore c hc
      simp only [Bool.not_eq_true', decide_eq_false_iff_not] at this
      exact absurd hlt' this
    · rcases List.mem_cons.mp hc with rfl | hc
      · exact le_rfl
      · exact le_of_lt ((List.pairwise_cons.mp (List.pairwise_append.mp sorted).2.1).1 c hc)
  | none =>
    right
    refine ⟨rfl, ?_⟩
    intro c hc
    simpa using List.find?_eq_none.mp h c hc

theorem le_endLineOf {closers : List Int} (sorted : closers.Pairwise (· < ·)) (start : Int) :
    start ≤ endLineOf closers.toArray start := by
  rcases endLineOf_spec sorted start with ⟨h, -⟩ | ⟨h, -⟩
  · exact h.le
  · exact h.ge

/-- A block that starts later either starts after the end of the earlier one or shares that end. -/
theorem endLineOf_lt_or_eq {closers : List Int} (sorted : closers.Pairwise (· < ·))
    {start later : Int} (hlt : start < later) (hlater : later ∉ closers) :
    endLineOf closers.toArray start < later ∨
      (start < endLineOf closers.toArray start ∧ later < endLineOf closers.toArray later ∧
        endLineOf closers.toArray start = endLineOf closers.toArray later) := by
  rcases endLineOf_spec sorted start with ⟨hend, hmem, hleast⟩ | ⟨hend, -⟩
  · rcases lt_or_ge (endLineOf closers.toArray start) later with hbefore | hafter
    · exact .inl hbefore
    · have hne : endLineOf closers.toArray start ≠ later := fun h => hlater (h ▸ hmem)
      right
      rcases endLineOf_spec sorted later with ⟨hend', hmem', hleast'⟩ | ⟨-, hnone⟩
      · have h₁ := hleast _ hmem' (hlt.trans hend')
        have h₂ := hleast' _ hmem (lt_of_le_of_ne hafter (Ne.symm hne))
        exact ⟨hend, hend', le_antisymm h₁ h₂⟩
      · have := hnone _ hmem
        omega
  · left
    omega

/-- Where no closing line follows one block, none follows a later one. -/
theorem endLineOf_eq_of_le {closers : List Int} (sorted : closers.Pairwise (· < ·))
    {start later : Int} (hle : start ≤ later) (h : ¬ start < endLineOf closers.toArray start) :
    endLineOf closers.toArray later = later := by
  rcases endLineOf_spec sorted start with ⟨hend, -⟩ | ⟨-, hnone⟩
  · exact absurd hend h
  · rcases endLineOf_spec sorted later with ⟨hend, hmem, -⟩ | ⟨heq, -⟩
    · have := hnone _ hmem
      omega
    · exact heq

theorem isTerminated_iff {b : Block} : b.isTerminated = true ↔ b.startLine < b.endLine :=
  decide_eq_true_iff

def range (b : Block) : Int × Int := (b.startLine, b.endLine)

/-- Members do not change where blocks start and end. -/
theorem map_range_assign (blocks : List Block) (properties : List Property)
    (methods : List Method) : (assign blocks properties methods).map range = blocks.map range := by
  apply List.ext_getElem?
  intro i
  simp only [assign, List.getElem?_map, List.getElem?_mapIdx, Option.map_map]
  rfl

end Block

/-- Whether a line is recorded as a closing one depends on nothing but its trimmed text. -/
theorem Mark.closer?_ofLine? (l : SourceLine) :
    (Mark.ofLine? l).bind Mark.closer? = if l.isBareEnd then some (l.number : Int) else none := by
  unfold Mark.ofLine? SourceLine.isBareEnd
  by_cases hend : l.trimmed = ['@', 'e', 'n', 'd']
  · simp [hend, isPassedOver, closer?]
  · simp only [hend, decide_false, Bool.false_eq_true, if_false]
    split_ifs
    · rfl
    · cases Method.ofLine? l.number l.text with
      | some m => rfl
      | none =>
        cases Property.ofLine? l.number l.text with
        | some p => rfl
        | none =>
          cases Opener.ofLine? l with
          | some o => rfl
          | none => rfl

theorem closingLines_eq (src : Text) :
    closingLines src =
      ((SourceLine.ofText src).filter fun l => l.isBareEnd).map fun l => (l.number : Int) := by
  unfold closingLines Mark.ofText
  rw [List.filterMap_filterMap]
  simp only [Mark.closer?_ofLine?]
  induction SourceLine.ofText src with
  | nil => rfl
  | cons l ls ih => by_cases hl : l.isBareEnd <;> simp [hl, ih]

theorem mem_closingLines {src : Text} {c : Int} :
    c ∈ closingLines src ↔ Mark.closer c ∈ Mark.ofText src := by
  unfold closingLines
  rw [List.mem_filterMap]
  constructor
  · rintro ⟨m, hm, hc⟩
    cases m <;> cases hc
    exact hm
  · intro h
    exact ⟨_, h, rfl⟩

theorem mem_openers {src : Text} {o : Opener} :
    o ∈ openers src ↔ Mark.opener o ∈ Mark.ofText src := by
  unfold openers
  rw [List.mem_filterMap]
  constructor
  · rintro ⟨m, hm, ho⟩
    cases m <;> cases ho
    exact hm
  · intro h
    exact ⟨_, h, rfl⟩

theorem closingLines_pairwise (src : Text) : (closingLines src).Pairwise (· < ·) := by
  unfold closingLines
  rw [List.pairwise_filterMap]
  refine (Mark.ofText_pairwise src).imp ?_
  intro x y hxy a ha b hb
  cases x <;> cases ha
  cases y <;> cases hb
  exact hxy

theorem openers_pairwise (src : Text) :
    (openers src).Pairwise fun o p => o.line < p.line := by
  unfold openers
  rw [List.pairwise_filterMap]
  refine (Mark.ofText_pairwise src).imp ?_
  intro x y hxy a ha b hb
  cases x <;> cases ha
  cases y <;> cases hb
  exact hxy

theorem nextEnd?_eq_find (src : Text) (line : Int) :
    nextEnd? src line = (closingLines src).find? fun c => line < c := by
  rw [closingLines_eq, List.find?_map, List.find?_filter, nextEnd?]
  congr 2
  funext l
  simp [Function.comp_apply]

theorem mem_endLines {src : Text} {n : Int} : n ∈ endLines src ↔ n ∈ closingLines src := by
  simp only [endLines, Set.mem_ofPred_eq, closingLines_eq, List.mem_map, List.mem_filter,
    SourceLine.ofText, SourceLine.mem_place, SourceLine.isBareEnd_iff]
  constructor
  · rintro ⟨i, raw, hraw, hend, rfl⟩
    refine ⟨_, ⟨⟨i, raw, hraw, rfl⟩, hend⟩, ?_⟩
    push_cast
    omega
  · rintro ⟨l, ⟨⟨i, raw, hraw, rfl⟩, hend⟩, rfl⟩
    refine ⟨i, raw, hraw, hend, ?_⟩
    push_cast
    omega

theorem map_range_blocks (rootType path src : Text) :
    (Skeleton.ofSource rootType path src).blocks.map Block.range =
      (openers src).map fun o =>
        (o.line, Block.endLineOf (closingLines src).toArray o.line) := by
  unfold Skeleton.ofSource
  simp only [Block.map_range_assign, List.map_map]
  rfl

theorem line_not_mem_closingLines {src : Text} {o : Opener} (h : o ∈ openers src) :
    o.line ∉ closingLines src := by
  intro hclose
  have heq : Mark.opener o = Mark.closer o.line :=
    Mark.eq_of_line_eq (mem_openers.mp h) (mem_closingLines.mp hclose) rfl
  cases heq

/-- Two blocks of a text are related when the ranges of two openers, the second below the first,
always are. -/
theorem blocks_pairwise {rootType path src : Text} {R : Int × Int → Int × Int → Prop}
    (h : ∀ o ∈ openers src, ∀ p ∈ openers src, o.line < p.line →
      R (o.line, Block.endLineOf (closingLines src).toArray o.line)
        (p.line, Block.endLineOf (closingLines src).toArray p.line)) :
    (Skeleton.ofSource rootType path src).blocks.Pairwise fun b c => R b.range c.range := by
  rw [← List.pairwise_map, map_range_blocks, List.pairwise_map]
  refine (openers_pairwise src).imp_of_mem ?_
  intro o p ho hp hlt
  exact h o ho p hp hlt

/-- The block at a position has the range of the opener at that position. -/
theorem exists_opener_of_getElem? {rootType path src : Text} {i : Nat} {b : Block}
    (h : (Skeleton.ofSource rootType path src).blocks[i]? = some b) :
    ∃ o, (openers src)[i]? = some o ∧ b.startLine = o.line ∧
      b.endLine = Block.endLineOf (closingLines src).toArray o.line := by
  have hrange : ((Skeleton.ofSource rootType path src).blocks.map Block.range)[i]? =
      some b.range := by rw [List.getElem?_map, h, Option.map_some]
  rw [map_range_blocks, List.getElem?_map] at hrange
  obtain ⟨o, ho, heq⟩ := Option.map_eq_some_iff.mp hrange
  have hpair := Prod.mk.inj heq
  exact ⟨o, ho, hpair.1.symm, hpair.2.symm⟩

/-- Where a property passes from every entry to the ones before it, the entries that lack it come
last. -/
theorem exists_append_of_pairwise {α : Type} {p : α → Bool} {l : List α}
    (h : l.Pairwise fun x y => p y = true → p x = true) :
    ∃ front back, l = front ++ back ∧ (∀ x ∈ front, p x = true) ∧ ∀ x ∈ back, ¬ p x = true := by
  induction l with
  | nil => exact ⟨[], [], rfl, by simp, by simp⟩
  | cons a l ih =>
    obtain ⟨hhead, htail⟩ := List.pairwise_cons.mp h
    by_cases ha : p a = true
    · obtain ⟨front, back, rfl, hfront, hback⟩ := ih htail
      exact ⟨a :: front, back, rfl, List.forall_mem_cons.mpr ⟨ha, hfront⟩, hback⟩
    · refine ⟨[], a :: l, rfl, by simp, List.forall_mem_cons.mpr ⟨ha, ?_⟩⟩
      intro x hx hpx
      exact ha (hhead x hx hpx)

theorem isLeast_endLineOf (src : Text) (start : Int)
    (h : start < Block.endLineOf (closingLines src).toArray start) :
    IsLeast {n | n ∈ endLines src ∧ start < n}
      (Block.endLineOf (closingLines src).toArray start) := by
  rcases Block.endLineOf_spec (closingLines_pairwise src) start with ⟨_, hmem, hleast⟩ | ⟨heq, -⟩
  · refine ⟨⟨mem_endLines.mpr hmem, h⟩, ?_⟩
    rintro n ⟨hn, hlt⟩
    exact hleast n (mem_endLines.mp hn) hlt
  · exact absurd heq h.ne'

theorem endLineOf_eq_self_iff (src : Text) (start : Int) :
    Block.endLineOf (closingLines src).toArray start = start ↔
      ∀ n ∈ endLines src, n ≤ start := by
  simp only [mem_endLines]
  rcases Block.endLineOf_spec (closingLines_pairwise src) start with ⟨hlt, hmem, -⟩ | ⟨heq, hnone⟩
  · refine ⟨fun heq => absurd heq hlt.ne', fun hnone => ?_⟩
    have := hnone _ hmem
    omega
  · exact ⟨fun _ => hnone, fun _ => heq⟩

/-- The shape of the block ranges of any text. -/
theorem blocks_ranges (rootType path src : Text) :
    let blocks := (Skeleton.ofSource rootType path src).blocks
    blocks.Pairwise (fun b c => b.startLine < c.startLine) ∧
    blocks.Pairwise (fun b c => b.endLine ≤ c.endLine) ∧
    (∀ b ∈ blocks,
      b.endLine = (nextEnd? src b.startLine).getD b.startLine ∧
      (b.isTerminated → IsLeast {n | n ∈ endLines src ∧ b.startLine < n} b.endLine) ∧
      (b.endLine = b.startLine ↔ ∀ n ∈ endLines src, n ≤ b.startLine)) ∧
    blocks.Pairwise (fun b c => b.endLine < c.startLine ∨
      (b.isTerminated ∧ c.isTerminated ∧ b.endLine = c.endLine)) ∧
    ∃ closed unclosed, blocks = closed ++ unclosed ∧
      (∀ b ∈ closed, b.isTerminated) ∧ ∀ b ∈ unclosed, ¬ b.isTerminated := by
  have sorted := closingLines_pairwise src
  intro blocks
  simp only [Block.isTerminated_iff]
  refine ⟨?_, ?_, ?_, ?_, ?_⟩
  · exact blocks_pairwise (R := fun x y => x.1 < y.1) fun o _ p _ hlt => hlt
  · refine blocks_pairwise (R := fun x y => x.2 ≤ y.2) fun o _ p hp hlt => ?_
    have hle := Block.le_endLineOf sorted p.line
    rcases Block.endLineOf_lt_or_eq sorted hlt (line_not_mem_closingLines hp) with h | ⟨-, -, h⟩
    · exact h.le.trans hle
    · exact h.le
  · intro b hb
    obtain ⟨i, hi⟩ := List.getElem?_of_mem hb
    obtain ⟨o, -, hstart, hend⟩ := exists_opener_of_getElem? hi
    rw [hstart, hend]
    exact ⟨by rw [nextEnd?_eq_find, Block.endLineOf_eq_find sorted],
      isLeast_endLineOf src o.line, endLineOf_eq_self_iff src o.line⟩
  · exact blocks_pairwise (R := fun x y => x.2 < y.1 ∨ (x.1 < x.2 ∧ y.1 < y.2 ∧ x.2 = y.2))
      fun o _ p hp hlt => Block.endLineOf_lt_or_eq sorted hlt (line_not_mem_closingLines hp)
  · simp only [← Block.isTerminated_iff]
    refine exists_append_of_pairwise ?_
    simp only [Block.isTerminated_iff]
    refine blocks_pairwise (R := fun x y => y.1 < y.2 → x.1 < x.2) fun o _ p _ hlt hp => ?_
    by_contra ho
    exact hp.ne (Block.endLineOf_eq_of_le sorted hlt.le ho).symm

end ObjcOutline
