import ObjcOutline.Proofs.Ownership
import Mathlib.Data.List.Find

/-!
# Extraction of two texts with a line feed between them

The marks of the joined text are those of both parts, the second moved down. Blocks of the second
part are found again with all their members: whatever block of the first part reaches into the
second, a block that starts later is asked first. A block of the first part that is closed there
keeps its range and its members, because a block that is still open at the end of the first part
starts below every closing line of it. A block that is still open ends at the first closing line of
the second part, if there is one.

Instance variables are the exception: braces opened in the first part can be closed in the second.
-/
namespace ObjcOutline

/-- The same block `n` lines further down, with its members. -/
def Block.shift (n : Nat) (b : Block) : Block :=
  { b with
    startLine := b.startLine + n
    endLine := b.endLine + n
    properties := b.properties.map (Property.shift n)
    methods := b.methods.map (Method.shift n) }

/-- Whatever form is selected from the marks, the joined text has what the parts have. -/
theorem filterMap_ofText_append {α : Type} (form : Mark → Option α) (move : α → α) (a b : Text)
    (h : ∀ m : Mark, form (m.shift (Text.lines a).length (a.length + 1)) = (form m).map move) :
    (Mark.ofText (a ++ '\n' :: b)).filterMap form =
      (Mark.ofText a).filterMap form ++ ((Mark.ofText b).filterMap form).map move := by
  rw [Mark.ofText_append, List.filterMap_append, List.filterMap_map, List.map_filterMap]
  congr 2
  funext m
  exact h m

theorem closingLines_append (a b : Text) :
    closingLines (a ++ '\n' :: b) =
      closingLines a ++ (closingLines b).map (· + ((Text.lines a).length : Int)) :=
  filterMap_ofText_append _ _ a b fun m => by cases m <;> rfl

theorem openers_append (a b : Text) :
    openers (a ++ '\n' :: b) =
      openers a ++ (openers b).map (Opener.shift (Text.lines a).length (a.length + 1)) :=
  filterMap_ofText_append _ _ a b fun m => by cases m <;> rfl

theorem methods_append (rootType path a b : Text) :
    (Skeleton.ofSource rootType path (a ++ '\n' :: b)).methods =
      (Skeleton.ofSource rootType path a).methods ++
        (Skeleton.ofSource rootType path b).methods.map (Method.shift (Text.lines a).length) :=
  filterMap_ofText_append _ _ a b fun m => by cases m <;> rfl

theorem properties_append (rootType path a b : Text) :
    (Skeleton.ofSource rootType path (a ++ '\n' :: b)).properties =
      (Skeleton.ofSource rootType path a).properties ++
        (Skeleton.ofSource rootType path b).properties.map
          (Property.shift (Text.lines a).length) :=
  filterMap_ofText_append _ _ a b fun m => by cases m <;> rfl

theorem line_of_mem_closingLines {src : Text} {c : Int} (h : c ∈ closingLines src) :
    1 ≤ c ∧ c ≤ (Text.lines src).length :=
  Mark.line_of_mem_ofText (mem_closingLines.mp h)

theorem line_of_mem_openers {src : Text} {o : Opener} (h : o ∈ openers src) :
    1 ≤ o.line ∧ o.line ≤ (Text.lines src).length :=
  Mark.line_of_mem_ofText (mem_openers.mp h)

theorem line_of_mem_methods {rootType path src : Text} {m : Method}
    (h : m ∈ (Skeleton.ofSource rootType path src).methods) :
    1 ≤ m.line ∧ m.line ≤ (Text.lines src).length := by
  obtain ⟨x, hx, hm⟩ := List.mem_filterMap.mp h
  rw [← (x.isDeclaration_of_method? m hm).2]
  exact Mark.line_of_mem_ofText hx

theorem line_of_mem_properties {rootType path src : Text} {p : Property}
    (h : p ∈ (Skeleton.ofSource rootType path src).properties) :
    1 ≤ p.line ∧ p.line ≤ (Text.lines src).length := by
  obtain ⟨x, hx, hp⟩ := List.mem_filterMap.mp h
  rw [← (x.isDeclaration_of_property? p hp).2]
  exact Mark.line_of_mem_ofText hx

namespace Block

/-- Below the seam a block ends where it ends in the second text. -/
theorem endLineOf_append_right (a b : Text) {start : Int} (h : 0 ≤ start) :
    endLineOf (closingLines (a ++ '\n' :: b)).toArray (start + (Text.lines a).length) =
      endLineOf (closingLines b).toArray start + (Text.lines a).length := by
  rw [endLineOf_eq_find (closingLines_pairwise _), endLineOf_eq_find (closingLines_pairwise _),
    closingLines_append, List.find?_append]
  have hnone : (closingLines a).find? (fun c => start + (Text.lines a).length < c) = none := by
    rw [List.find?_eq_none]
    intro c hc
    have := line_of_mem_closingLines hc
    simp only [decide_eq_true_eq]
    omega
  have hshift : (fun c => decide (start + ((Text.lines a).length : Int) < c)) ∘
      (· + ((Text.lines a).length : Int)) = fun c => decide (start < c) := by
    funext c
    simp only [Function.comp_apply, Int.add_lt_add_iff_right]
  rw [hnone, Option.none_or, List.find?_map, hshift]
  cases (closingLines b).find? fun c => start < c <;> rfl

/-- Above the seam a block that is closed there ends where it ends in the first text. -/
theorem endLineOf_append_of_lt {a b : Text} {start : Int}
    (h : start < endLineOf (closingLines a).toArray start) :
    endLineOf (closingLines (a ++ '\n' :: b)).toArray start =
      endLineOf (closingLines a).toArray start := by
  rw [endLineOf_eq_find (closingLines_pairwise _)] at h ⊢
  rw [endLineOf_eq_find (closingLines_pairwise _), closingLines_append, List.find?_append]
  cases hfind : (closingLines a).find? fun c => start < c with
  | some e => rfl
  | none =>
    rw [hfind, Option.getD_none] at h
    exact absurd h (lt_irrefl _)

/-- Above the seam a block that is not closed there ends at the first closing line below it. -/
theorem endLineOf_append_of_eq {a b : Text} {start : Int} (hle : start ≤ (Text.lines a).length)
    (h : ¬ start < endLineOf (closingLines a).toArray start) :
    endLineOf (closingLines (a ++ '\n' :: b)).toArray start =
      ((nextEnd? b 0).map (· + ((Text.lines a).length : Int))).getD start := by
  rw [endLineOf_eq_find (closingLines_pairwise _), closingLines_append, List.find?_append,
    nextEnd?_eq_find]
  have hnone : (closingLines a).find? (fun c => start < c) = none := by
    rw [List.find?_eq_none]
    intro c hc
    rcases endLineOf_spec (closingLines_pairwise a) start with ⟨hlt, -⟩ | ⟨-, hall⟩
    · exact absurd hlt h
    · simpa using hall c hc
  rw [hnone, Option.none_or, List.find?_map]
  congr 2
  apply List.find?_congr
  intro c hc
  have := line_of_mem_closingLines hc
  simp only [Function.comp_apply, decide_eq_decide]
  omega

theorem owner?_map_shift (n : Nat) (blocks : List Block) (line : Int) :
    owner? (blocks.map (shift n)) (line + n) = owner? blocks line := by
  apply owner?_map
  intro b _
  simp only [contains, shift, Int.add_lt_add_iff_right]

theorem contains_of_owner? {blocks : List Block} {line : Int} {i : Nat}
    (h : owner? blocks line = some i) : ∃ b, blocks[i]? = some b ∧ b.contains line := by
  induction blocks using List.reverseRecOn with
  | nil => cases h
  | append_singleton blocks b ih =>
    rw [owner?_concat] at h
    split_ifs at h with hb
    · cases h
      exact ⟨b, by simp, hb⟩
    · obtain ⟨c, hc, hcontains⟩ := ih h
      obtain ⟨hi, -⟩ := List.getElem?_eq_some_iff.mp hc
      exact ⟨c, by rw [List.getElem?_append_left hi, hc], hcontains⟩

section Seam
variable (rootType a b : Text)

/-- The blocks of the first text as they stand in the joined text, before they have members. -/
def continued : List Block :=
  (openers a).map (ofOpener (a ++ '\n' :: b) (effectiveRootType rootType)
    (closingLines (a ++ '\n' :: b)).toArray)

@[simp] theorem length_continued : (continued rootType a b).length = (openers a).length :=
  List.length_map _

/-- The seam does not show from a header of the second text on. -/
theorem fieldsOf_shift (n : Nat) (o : Opener) :
    fieldsOf (a ++ '\n' :: b) (o.shift n (a.length + 1)) = fieldsOf b o := by
  have hdrop : (a ++ '\n' :: b).drop (o.headerEnd + (a.length + 1)) = b.drop o.headerEnd := by
    rw [show a ++ '\n' :: b = (a ++ ['\n']) ++ b by simp, List.drop_append]
    simp
  unfold fieldsOf
  simp only [Opener.shift, hdrop]

theorem bare_append :
    bare (a ++ '\n' :: b) rootType =
      continued rootType a b ++ (bare b rootType).map (shift (Text.lines a).length) := by
  unfold bare continued
  rw [openers_append, List.map_append, List.map_map, List.map_map]
  congr 1
  apply List.map_congr_left
  intro o ho
  have hpos : 0 ≤ o.line := le_trans (by decide) (line_of_mem_openers ho).1
  have hend := endLineOf_append_right a b hpos
  simp only [Function.comp_apply, ofOpener, fieldsOf_shift, shift]
  simp only [Opener.shift, hend, List.map_nil]

theorem getElem?_bare {i : Nat} {o : Opener} (hi : (openers a)[i]? = some o) :
    (bare a rootType)[i]? =
      some (ofOpener a (effectiveRootType rootType) (closingLines a).toArray o) := by
  rw [bare, List.getElem?_map, hi, Option.map_some]

theorem getElem?_bare_left {i : Nat} {o : Opener} (hi : (openers a)[i]? = some o) :
    (bare (a ++ '\n' :: b) rootType)[i]? =
      some (ofOpener (a ++ '\n' :: b) (effectiveRootType rootType)
        (closingLines (a ++ '\n' :: b)).toArray o) := by
  have hlen := (List.getElem?_eq_some_iff.mp hi).choose
  rw [bare_append, List.getElem?_append_left (by simpa using hlen), continued, List.getElem?_map,
    hi, Option.map_some]

/-- A line of the first text lies in no block of the second. -/
theorem owner?_append_left {line : Int} (h : line ≤ (Text.lines a).length) :
    owner? (bare (a ++ '\n' :: b) rootType) line = owner? (continued rootType a b) line := by
  have hnone : owner? ((bare b rootType).map (shift (Text.lines a).length)) line = none := by
    rw [owner?_eq_none_iff]
    intro c hc
    obtain ⟨d, hd, rfl⟩ := List.mem_map.mp hc
    obtain ⟨o, ho, rfl⟩ := List.mem_map.mp hd
    have hstart : ((ofOpener b (effectiveRootType rootType) (closingLines b).toArray o).shift
        (Text.lines a).length).startLine = o.line + (Text.lines a).length := rfl
    have := line_of_mem_openers ho
    rw [contains_iff, hstart]
    omega
  rw [bare_append, owner?_append, hnone, Option.map_none, Option.none_or]

/-- On a line of the second text its own blocks are asked first. -/
theorem owner?_append_right (line : Int) :
    owner? (bare (a ++ '\n' :: b) rootType) (line + (Text.lines a).length) =
      ((owner? (bare b rootType) line).map ((openers a).length + ·)).or
        (owner? (continued rootType a b) (line + (Text.lines a).length)) := by
  rw [bare_append, owner?_append, owner?_map_shift, length_continued]

variable {rootType a b}

/-- A block that is closed in the first text owns the same lines after joining. Blocks that are
still open at the seam start below its closing line. -/
theorem owner?_continued_iff {i : Nat} {o : Opener} (hi : (openers a)[i]? = some o)
    (hclosed : o.line < endLineOf (closingLines a).toArray o.line) (line : Int) :
    owner? (continued rootType a b) line = some i ↔ owner? (bare a rootType) line = some i := by
  have hend : endLineOf (closingLines (a ++ '\n' :: b)).toArray o.line =
      endLineOf (closingLines a).toArray o.line := endLineOf_append_of_lt hclosed
  by_cases hline : line < endLineOf (closingLines a).toArray o.line
  · suffices heq : owner? (continued rootType a b) line = owner? (bare a rootType) line by rw [heq]
    apply owner?_congr
    intro p hp
    rw [Bool.eq_iff_iff, contains_ofOpener, contains_ofOpener]
    by_cases hopen : p.line < endLineOf (closingLines a).toArray p.line
    · rw [endLineOf_append_of_lt hopen]
    -- A block that is still open starts below this closing line, and so below the line in question.
    · obtain ⟨-, hmem, -⟩ | ⟨heq, -⟩ := endLineOf_spec (closingLines_pairwise a) o.line
      · obtain ⟨hlt, -⟩ | ⟨-, hall⟩ := endLineOf_spec (closingLines_pairwise a) p.line
        · exact absurd hlt hopen
        · have := hall _ hmem
          omega
      · omega
  · constructor <;> intro howner <;> exfalso <;> apply hline
    · obtain ⟨c, hc, hcontains⟩ := contains_of_owner? howner
      rw [continued, List.getElem?_map, hi] at hc
      cases hc
      exact hend ▸ (contains_ofOpener.mp hcontains).2
    · obtain ⟨c, hc, hcontains⟩ := contains_of_owner? howner
      rw [bare, List.getElem?_map, hi] at hc
      cases hc
      exact (contains_ofOpener.mp hcontains).2

theorem owner?_continued_ne {i : Nat} {o : Opener} (hi : (openers a)[i]? = some o)
    (hclosed : o.line < endLineOf (closingLines a).toArray o.line) {line : Int}
    (hline : (Text.lines a).length < line) : owner? (continued rootType a b) line ≠ some i := by
  rw [Ne, owner?_continued_iff hi hclosed]
  intro howner
  obtain ⟨c, hc, hcontains⟩ := contains_of_owner? howner
  rw [bare, List.getElem?_map, hi] at hc
  cases hc
  have hlt := (contains_ofOpener.mp hcontains).2
  obtain ⟨-, hmem, -⟩ | ⟨heq, -⟩ := endLineOf_spec (closingLines_pairwise a) o.line
  · have := line_of_mem_closingLines hmem
    omega
  · omega

section Members
variable {α : Type} {line : α → Int} {move : α → α}
  (hmove : ∀ x, line (move x) = line x + (Text.lines a).length)
  {xs ys : List α} (hxs : ∀ x ∈ xs, line x ≤ (Text.lines a).length)
include hmove hxs

theorem filter_owner?_right (j : Nat) :
    (xs ++ ys.map move).filter (fun x =>
        owner? (bare (a ++ '\n' :: b) rootType) (line x) == some ((openers a).length + j)) =
      (ys.filter fun y => owner? (bare b rootType) (line y) == some j).map move := by
  have hleft : xs.filter (fun x => owner? (bare (a ++ '\n' :: b) rootType) (line x) ==
      some ((openers a).length + j)) = [] := by
    rw [List.filter_eq_nil_iff]
    intro x hx
    rw [owner?_append_left rootType a b (hxs x hx), beq_iff_eq]
    intro howner
    have := lt_length_of_owner? howner
    rw [length_continued] at this
    omega
  rw [List.filter_append, hleft, List.nil_append, List.filter_map]
  congr 1
  apply List.filter_congr
  intro y _
  rw [Function.comp_apply, hmove, owner?_append_right]
  cases hy : owner? (bare b rootType) (line y) with
  | some k => simp
  | none =>
    rw [Option.map_none, Option.none_or, Bool.eq_iff_iff]
    simp only [beq_iff_eq, reduceCtorEq, iff_false]
    intro howner
    have := lt_length_of_owner? howner
    rw [length_continued] at this
    omega

theorem filter_owner?_left (hys : ∀ y ∈ ys, 1 ≤ line y) {i : Nat} {o : Opener}
    (hi : (openers a)[i]? = some o)
    (hclosed : o.line < endLineOf (closingLines a).toArray o.line) :
    (xs ++ ys.map move).filter (fun x =>
        owner? (bare (a ++ '\n' :: b) rootType) (line x) == some i) =
      xs.filter fun x => owner? (bare a rootType) (line x) == some i := by
  have hright : (ys.map move).filter (fun x =>
      owner? (bare (a ++ '\n' :: b) rootType) (line x) == some i) = [] := by
    rw [List.filter_eq_nil_iff]
    intro x hx
    obtain ⟨y, hy, rfl⟩ := List.mem_map.mp hx
    rw [hmove, owner?_append_right, beq_iff_eq]
    have hlen := (List.getElem?_eq_some_iff.mp hi).choose
    cases owner? (bare b rootType) (line y) with
    | some k =>
      simp only [Option.map_some, Option.some_or, Option.some.injEq]
      omega
    | none =>
      have := hys y hy
      exact owner?_continued_ne hi hclosed (by omega)
  rw [List.filter_append, hright, List.append_nil]
  apply List.filter_congr
  intro x hx
  rw [owner?_append_left rootType a b (hxs x hx), Bool.eq_iff_iff, beq_iff_eq, beq_iff_eq]
  exact owner?_continued_iff hi hclosed (line x)

end Members

end Seam

end Block

section Blocks
variable (rootType path a b : Text)

/-- The blocks of the second text, found again below those of the first. -/
theorem getElem?_blocks_right (j : Nat) :
    (Skeleton.ofSource rootType path (a ++ '\n' :: b)).blocks[(openers a).length + j]? =
      (Skeleton.ofSource rootType path b).blocks[j]?.map (Block.shift (Text.lines a).length) := by
  have hbare : (Block.bare (a ++ '\n' :: b) rootType)[(openers a).length + j]? =
      (Block.bare b rootType)[j]?.map (Block.shift (Text.lines a).length) := by
    rw [Block.bare_append, List.getElem?_append_right (by simp), Block.length_continued,
      Nat.add_sub_cancel_left, List.getElem?_map]
  have hproperties : (Skeleton.ofSource rootType path (a ++ '\n' :: b)).properties.filter
      (fun p => Block.owner? (Block.bare (a ++ '\n' :: b) rootType) p.line ==
        some ((openers a).length + j)) =
      ((Skeleton.ofSource rootType path b).properties.filter fun p =>
        Block.owner? (Block.bare b rootType) p.line == some j).map
          (Property.shift (Text.lines a).length) := by
    rw [properties_append]
    exact Block.filter_owner?_right (fun _ => rfl) (fun p hp => (line_of_mem_properties hp).2) j
  have hmethods : (Skeleton.ofSource rootType path (a ++ '\n' :: b)).methods.filter
      (fun m => Block.owner? (Block.bare (a ++ '\n' :: b) rootType) m.line ==
        some ((openers a).length + j)) =
      ((Skeleton.ofSource rootType path b).methods.filter fun m =>
        Block.owner? (Block.bare b rootType) m.line == some j).map
          (Method.shift (Text.lines a).length) := by
    rw [methods_append]
    exact Block.filter_owner?_right (fun _ => rfl) (fun m hm => (line_of_mem_methods hm).2) j
  rw [getElem?_blocks, getElem?_blocks, hbare, hproperties, hmethods, Option.map_map, Option.map_map]
  rfl

theorem drop_blocks_append :
    (Skeleton.ofSource rootType path (a ++ '\n' :: b)).blocks.drop (openers a).length =
      (Skeleton.ofSource rootType path b).blocks.map (Block.shift (Text.lines a).length) := by
  apply List.ext_getElem?
  intro j
  rw [List.getElem?_drop, getElem?_blocks_right, List.getElem?_map]

/-- A block that is closed in the first text stays as it is, but for its instance variables. -/
theorem getElem?_blocks_left {i : Nat} {o : Opener} (hi : (openers a)[i]? = some o)
    (hclosed : o.line < Block.endLineOf (closingLines a).toArray o.line) :
    (Skeleton.ofSource rootType path (a ++ '\n' :: b)).blocks[i]? =
      (Skeleton.ofSource rootType path a).blocks[i]?.map fun c =>
        { c with fields := Block.fieldsOf (a ++ '\n' :: b) o } := by
  have hproperties : (Skeleton.ofSource rootType path (a ++ '\n' :: b)).properties.filter
      (fun p => Block.owner? (Block.bare (a ++ '\n' :: b) rootType) p.line == some i) =
      (Skeleton.ofSource rootType path a).properties.filter fun p =>
        Block.owner? (Block.bare a rootType) p.line == some i := by
    rw [properties_append]
    exact Block.filter_owner?_left (fun _ => rfl) (fun p hp => (line_of_mem_properties hp).2)
      (fun p hp => (line_of_mem_properties hp).1) hi hclosed
  have hmethods : (Skeleton.ofSource rootType path (a ++ '\n' :: b)).methods.filter
      (fun m => Block.owner? (Block.bare (a ++ '\n' :: b) rootType) m.line == some i) =
      (Skeleton.ofSource rootType path a).methods.filter fun m =>
        Block.owner? (Block.bare a rootType) m.line == some i := by
    rw [methods_append]
    exact Block.filter_owner?_left (fun _ => rfl) (fun m hm => (line_of_mem_methods hm).2)
      (fun m hm => (line_of_mem_methods hm).1) hi hclosed
  rw [getElem?_blocks, getElem?_blocks, Block.getElem?_bare_left rootType a b hi,
    Block.getElem?_bare rootType a hi, hproperties, hmethods]
  simp only [Option.map_some, Block.ofOpener, Block.endLineOf_append_of_lt hclosed]

/-- A block that is still open at the end of the first text ends at the first closing line of the
second, and keeps what its header says. -/
theorem getElem?_blocks_open {i : Nat} {o : Opener} (hi : (openers a)[i]? = some o)
    (hopen : ¬ o.line < Block.endLineOf (closingLines a).toArray o.line) :
    ∃ fields properties methods,
      (Skeleton.ofSource rootType path (a ++ '\n' :: b)).blocks[i]? =
        (Skeleton.ofSource rootType path a).blocks[i]?.map fun c =>
          { c with
            endLine := ((nextEnd? b 0).map (· + ((Text.lines a).length : Int))).getD c.startLine
            fields, properties, methods } := by
  have hlen := (List.getElem?_eq_some_iff.mp hi).choose
  have hle := (line_of_mem_openers (List.mem_of_getElem? hi)).2
  rw [getElem?_blocks, getElem?_blocks, Block.getElem?_bare_left rootType a b hi,
    Block.getElem?_bare rootType a hi]
  simp only [Option.map_some, Block.ofOpener, Block.endLineOf_append_of_eq hle hopen]
  exact ⟨_, _, _, rfl⟩

theorem length_blocks_openers (src : Text) :
    (Skeleton.ofSource rootType path src).blocks.length = (openers src).length := by
  rw [length_blocks, Block.bare, List.length_map]

end Blocks

/-- The concatenation law of extraction. -/
theorem ofSource_append (rootType path a b : Text) :
    let n := (Text.lines a).length
    let first := Skeleton.ofSource rootType path a
    let second := Skeleton.ofSource rootType path b
    let whole := Skeleton.ofSource rootType path (a ++ '\n' :: b)
    whole.methods = first.methods ++ second.methods.map (Method.shift n) ∧
    whole.properties = first.properties ++ second.properties.map (Property.shift n) ∧
    ∃ front : List Block, front.length = first.blocks.length ∧
      whole.blocks = front ++ second.blocks.map (Block.shift n) ∧
      ∀ (i : Nat) (b₁ b₂ : Block), first.blocks[i]? = some b₁ → front[i]? = some b₂ →
        (b₁.isTerminated → b₂ = { b₁ with fields := b₂.fields }) ∧
        (¬ b₁.isTerminated → b₂ =
          { b₁ with
            endLine := ((nextEnd? b 0).map (· + (n : Int))).getD b₁.startLine
            fields := b₂.fields
            properties := b₂.properties
            methods := b₂.methods }) := by
  intro n first second whole
  refine ⟨methods_append .., properties_append .., whole.blocks.take (openers a).length, ?_, ?_, ?_⟩
  · rw [List.length_take, length_blocks_openers, length_blocks_openers, openers_append,
      List.length_append]
    omega
  · rw [← drop_blocks_append, List.take_append_drop]
  · intro i b₁ b₂ hb₁ hb₂
    obtain ⟨o, hi, hstart, hend⟩ := exists_opener_of_getElem? hb₁
    have hlen := (List.getElem?_eq_some_iff.mp hi).choose
    rw [List.getElem?_take_of_lt hlen] at hb₂
    have hterminated : b₁.isTerminated = true ↔
        o.line < Block.endLineOf (closingLines a).toArray o.line := by
      rw [Block.isTerminated_iff, hstart, hend]
    rw [hterminated]
    constructor
    · intro hclosed
      rw [getElem?_blocks_left rootType path a b hi hclosed, hb₁] at hb₂
      cases hb₂
      rfl
    · intro hopen
      obtain ⟨fields, properties, methods, heq⟩ :=
        getElem?_blocks_open rootType path a b hi hopen
      rw [heq, hb₁] at hb₂
      cases hb₂
      rfl

end ObjcOutline
