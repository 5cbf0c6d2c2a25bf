import ObjcOutline.Proofs.Ranges
import Mathlib.Data.List.Induction

/-!
# Who owns a declaration

A declaration belongs to the last block whose range holds its line. The ranges are computed opener by
opener and may overlap where several openers come before one `@end`. This module compares that rule
with a single pass over the marks which keeps only a number of openers and the open one among them:
an opener becomes the open one, a closing line leaves none open, and a declaration belongs to the
open one as long as some closing line is still to come.

The comparison is an induction on the marks before a declaration. The last opener before it decides,
unless a closing line stands between the two, and then every block above ends at that line or before
it.
-/
namespace ObjcOutline

namespace Mark

/-- Methods and properties. -/
def isDeclaration : Mark → Bool
  | method _ => true
  | property _ => true
  | closer _ => false
  | opener _ => false

def isCloser : Mark → Bool
  | closer _ => true
  | _ => false

end Mark

/-- Where a pass over the marks stands: how many openers it has met, and which of them is open. -/
structure Pass where
  opened : Nat := 0
  current : Option Nat := none
deriving DecidableEq, Repr

namespace Pass

def step (s : Pass) : Mark → Pass
  | .opener _ => ⟨s.opened + 1, some s.opened⟩
  | .closer _ => ⟨s.opened, none⟩
  | _ => s

def run (s : Pass) (marks : List Mark) : Pass := marks.foldl step s

/-- The declarations among the marks, each with the position of the block it belongs to. -/
def declarations (s : Pass) : List Mark → List (Option Nat × Mark)
  | [] => []
  | m :: rest =>
    if m.isDeclaration then
      (if rest.any Mark.isCloser then s.current else none, m) :: (s.step m).declarations rest
    else (s.step m).declarations rest

@[simp] theorem run_append (s : Pass) (marks : List Mark) (m : Mark) :
    s.run (marks ++ [m]) = (s.run marks).step m := by simp [run]

theorem opened_run (s : Pass) (marks : List Mark) :
    (s.run marks).opened = s.opened + (marks.filterMap Mark.opener?).length := by
  induction marks using List.reverseRecOn with
  | nil => rfl
  | append_singleton marks m ih =>
    rw [run_append, List.filterMap_append, List.length_append]
    cases m with
    | opener o =>
      simp only [step, ih]
      rfl
    | closer line => exact ih
    | method x => exact ih
    | property x => exact ih

end Pass

namespace Block

theorem owner?_append (xs ys : List Block) (line : Int) :
    owner? (xs ++ ys) line = ((owner? ys line).map (xs.length + ·)).or (owner? xs line) := by
  unfold owner?
  rw [List.zipIdx_append, List.filter_append, List.getLast?_append, Option.map_or]
  congr 1
  rw [Nat.zero_add, List.zipIdx_eq_map_add, List.filter_map, List.getLast?_map, Option.map_map,
    Option.map_map]
  rfl

theorem owner?_concat (xs : List Block) (b : Block) (line : Int) :
    owner? (xs ++ [b]) line = if b.contains line then some xs.length else owner? xs line := by
  rw [owner?_append]
  by_cases h : b.contains line <;> simp [owner?, h]

theorem owner?_eq_none_iff {blocks : List Block} {line : Int} :
    owner? blocks line = none ↔ ∀ b ∈ blocks, ¬ b.contains line := by
  induction blocks using List.reverseRecOn with
  | nil => simp [owner?]
  | append_singleton blocks b ih =>
    rw [owner?_concat]
    by_cases h : b.contains line
    · simp [h]
    · simp [h, ih, or_imp, forall_and]

theorem lt_length_of_owner? {blocks : List Block} {line : Int} {i : Nat}
    (h : owner? blocks line = some i) : i < blocks.length := by
  induction blocks using List.reverseRecOn with
  | nil => cases h
  | append_singleton blocks b ih =>
    rw [owner?_concat] at h
    rw [List.length_append, List.length_singleton]
    split_ifs at h
    · cases h
      exact Nat.lt_succ_self _
    · exact Nat.lt_succ_of_lt (ih h)

/-- The owner of a line depends only on which blocks contain the line. -/
theorem owner?_congr {α : Type} {f g : α → Block} {xs : List α} {line other : Int}
    (h : ∀ x ∈ xs, (f x).contains line = (g x).contains other) :
    owner? (xs.map f) line = owner? (xs.map g) other := by
  induction xs using List.reverseRecOn with
  | nil => rfl
  | append_singleton xs x ih =>
    have hxs := ih fun y hy => h y (by simp [hy])
    rw [List.map_append, List.map_append, List.map_singleton, List.map_singleton, owner?_concat,
      owner?_concat, hxs, h x (by simp), List.length_map, List.length_map]

theorem owner?_map {move : Block → Block} {blocks : List Block} {line other : Int}
    (h : ∀ b ∈ blocks, (move b).contains line = b.contains other) :
    owner? (blocks.map move) line = owner? blocks other := by
  rw [owner?_congr (g := id) h, List.map_id]

theorem contains_iff {b : Block} {line : Int} :
    b.contains line = true ↔ b.startLine < line ∧ line < b.endLine := by
  simp [contains]

/-- The blocks of a text before they have members. -/
def bare (src rootType : Text) : List Block :=
  (openers src).map (ofOpener src (effectiveRootType rootType) (closingLines src).toArray)

theorem contains_ofOpener {src rootType : Text} {closers : Array Int} {o : Opener} {line : Int} :
    (ofOpener src rootType closers o).contains line = true ↔
      o.line < line ∧ line < endLineOf closers o.line := contains_iff

/-- The invariant of the pass. `pre` holds the marks above a line which some closing line follows;
then the open block, if there is one, is the owner of that line. -/
theorem owner?_eq_current {src rootType : Text} {closers : List Int}
    (sorted : closers.Pairwise (· < ·)) {line : Int} (hlater : ∃ c ∈ closers, line < c)
    {pre : List Mark} (hpre : pre.Pairwise fun x y => x.line < y.line)
    (habove : ∀ m ∈ pre, m.line < line)
    (hclosers : ∀ c, c ≤ line → (c ∈ closers ↔ Mark.closer c ∈ pre)) :
    owner? ((pre.filterMap Mark.opener?).map (ofOpener src rootType closers.toArray)) line =
      (Pass.run {} pre).current := by
  induction pre using List.reverseRecOn with
  | nil => rfl
  | append_singleton pre m ih =>
    obtain ⟨hpre', -, hlast⟩ := List.pairwise_append.mp hpre
    rw [Pass.run_append, List.filterMap_append, List.map_append]
    have hm : m.line < line := habove m (by simp)
    have habove' : ∀ x ∈ pre, x.line < line := fun x hx => habove x (by simp [hx])
    have hskip (h : ∀ c, m ≠ Mark.closer c) :
        ∀ c, c ≤ line → (c ∈ closers ↔ Mark.closer c ∈ pre) := by
      intro c hc
      rw [hclosers c hc, List.mem_append, List.mem_singleton]
      exact or_iff_left (h c).symm
    cases m with
    | opener o =>
      have hends : (ofOpener src rootType closers.toArray o).contains line = true := by
        rw [contains_ofOpener]
        refine ⟨hm, ?_⟩
        obtain ⟨c, hc, hlt⟩ := hlater
        rcases endLineOf_spec sorted o.line with ⟨hend, hmem, -⟩ | ⟨-, hnone⟩
        · by_contra hle
          have hin := (hskip (by simp) _ (not_lt.mp hle)).mp hmem
          exact absurd (hlast _ hin _ (List.mem_singleton_self _)) (not_lt.mpr hend.le)
        · exact absurd (hnone c hc) (not_le.mpr (lt_trans hm hlt))
      simp only [List.filterMap_cons, Mark.opener?, List.filterMap_nil, List.map_cons, List.map_nil,
        owner?_concat, hends, if_true, Pass.step, Pass.opened_run, List.length_map, Nat.zero_add]
    | closer c =>
      have hc : c ∈ closers := (hclosers c hm.le).mpr (by simp)
      simp only [List.filterMap_cons, Mark.opener?, List.filterMap_nil, List.map_nil,
        List.append_nil, Pass.step]
      rw [owner?_eq_none_iff]
      intro b hb
      obtain ⟨o, ho, rfl⟩ := List.mem_map.mp hb
      obtain ⟨x, hx, hxo⟩ := List.mem_filterMap.mp ho
      have hlt : o.line < c := by
        cases x <;> cases hxo
        exact hlast _ hx _ (List.mem_singleton_self _)
      rw [contains_ofOpener]
      rcases endLineOf_spec sorted o.line with ⟨-, -, hleast⟩ | ⟨hend, -⟩
      · exact fun hin => absurd (lt_trans hm hin.2) (not_lt.mpr (hleast c hc hlt))
      · omega
    | method x =>
      simp only [List.filterMap_cons, Mark.opener?, List.filterMap_nil, List.map_nil,
        List.append_nil, Pass.step]
      exact ih hpre' habove' (hskip (by simp))
    | property x =>
      simp only [List.filterMap_cons, Mark.opener?, List.filterMap_nil, List.map_nil,
        List.append_nil, Pass.step]
      exact ih hpre' habove' (hskip (by simp))

/-- The owner of a declaration, from the marks before it and the closing lines after it. -/
theorem owner?_of_declaration {src rootType : Text} {pre rest : List Mark} {m : Mark}
    (h : Mark.ofText src = pre ++ m :: rest) (hm : m.isDeclaration) :
    owner? (bare src rootType) m.line =
      if rest.any Mark.isCloser then (Pass.run {} pre).current else none := by
  have sorted := closingLines_pairwise src
  have hpairwise := Mark.ofText_pairwise src
  rw [h] at hpairwise
  obtain ⟨hpre, hrest, hcross⟩ := List.pairwise_append.mp hpairwise
  obtain ⟨hbelow, -⟩ := List.pairwise_cons.mp hrest
  have hclosers (c : Int) :
      c ∈ closingLines src ↔ Mark.closer c ∈ pre ∨ Mark.closer c ∈ rest := by
    rw [mem_closingLines, h, List.mem_append, List.mem_cons]
    have hne : Mark.closer c ≠ m := by
      rintro rfl
      cases hm
    simp [hne]
  split_ifs with hany
  · obtain ⟨x, hx, hcloser⟩ := List.any_eq_true.mp hany
    have hlater : ∃ c ∈ closingLines src, m.line < c := by
      cases x <;> cases hcloser
      exact ⟨_, (hclosers _).mpr (.inr hx), hbelow _ hx⟩
    have hbare : bare src rootType =
        (pre.filterMap Mark.opener?).map
          (ofOpener src (effectiveRootType rootType) (closingLines src).toArray) ++
        (rest.filterMap Mark.opener?).map
          (ofOpener src (effectiveRootType rootType) (closingLines src).toArray) := by
      unfold bare openers
      rw [h, List.filterMap_append, List.map_append]
      cases m <;> first | rfl | cases hm
    have hnone : owner? ((rest.filterMap Mark.opener?).map
        (ofOpener src (effectiveRootType rootType) (closingLines src).toArray)) m.line = none := by
      rw [owner?_eq_none_iff]
      intro b hb
      obtain ⟨o, ho, rfl⟩ := List.mem_map.mp hb
      obtain ⟨y, hy, hyo⟩ := List.mem_filterMap.mp ho
      have hlt : m.line < o.line := by
        cases y <;> cases hyo
        exact hbelow _ hy
      rw [contains_ofOpener]
      omega
    rw [hbare, owner?_append, hnone, Option.map_none, Option.none_or]
    refine owner?_eq_current sorted hlater hpre (fun y hy => hcross y hy m (by simp)) ?_
    intro c hc
    rw [hclosers]
    refine or_iff_left fun hin => ?_
    exact absurd (hbelow _ hin) (not_lt.mpr hc)
  · rw [owner?_eq_none_iff]
    intro b hb
    obtain ⟨o, ho, rfl⟩ := List.mem_map.mp hb
    rw [contains_ofOpener]
    rintro ⟨hstart, hend⟩
    rcases endLineOf_spec sorted o.line with ⟨-, hmem, -⟩ | ⟨heq, -⟩
    · -- The block would end at a closing line below the declaration, and there is none.
      rcases (hclosers _).mp hmem with hin | hin
      · have hlt : endLineOf (closingLines src).toArray o.line < m.line := hcross _ hin m (by simp)
        exact absurd hend (not_lt.mpr hlt.le)
      · exact hany (List.any_eq_true.mpr ⟨_, hin, rfl⟩)
    · omega

end Block

/-- The pass gives every declaration the owner that the ranges give it. -/
theorem Pass.declarations_eq {src rootType : Text} {pre rest : List Mark}
    (h : Mark.ofText src = pre ++ rest) :
    (Pass.run {} pre).declarations rest =
      (rest.filter Mark.isDeclaration).map fun m =>
        (Block.owner? (Block.bare src rootType) m.line, m) := by
  induction rest generalizing pre with
  | nil => rfl
  | cons m rest ih =>
    have hnext : Mark.ofText src = (pre ++ [m]) ++ rest := by simpa using h
    rw [declarations, ← run_append, ih hnext]
    by_cases hm : m.isDeclaration
    · rw [if_pos hm, List.filter_cons_of_pos hm, List.map_cons, Block.owner?_of_declaration h hm]
    · rw [if_neg hm, List.filter_cons_of_neg hm]

/-- The pass over all marks of a text. -/
theorem Pass.declarations_ofText (src rootType : Text) :
    Pass.declarations {} (Mark.ofText src) =
      ((Mark.ofText src).filter Mark.isDeclaration).map fun m =>
        (Block.owner? (Block.bare src rootType) m.line, m) :=
  Pass.declarations_eq (List.nil_append (Mark.ofText src)).symm

/-- Selecting declarations by owner and then by form is selecting by form and then by owner. -/
theorem Pass.filterMap_declarations (src rootType : Text) {α : Type} {form : Mark → Option α}
    {line : α → Int} (hform : ∀ m x, form m = some x → m.isDeclaration ∧ m.line = line x) (i : Nat) :
    ((Pass.declarations {} (Mark.ofText src)).filter (·.1 == some i)).filterMap (form ·.2) =
      ((Mark.ofText src).filterMap form).filter fun x =>
        Block.owner? (Block.bare src rootType) (line x) == some i := by
  rw [declarations_ofText src rootType]
  induction Mark.ofText src with
  | nil => rfl
  | cons m marks ih =>
    cases hm : form m with
    | none => by_cases hd : m.isDeclaration <;>
        by_cases ho : Block.owner? (Block.bare src rootType) m.line == some i <;>
        simp [hm, hd, ho, ih]
    | some x =>
      obtain ⟨hd, hline⟩ := hform m x hm
      by_cases ho : Block.owner? (Block.bare src rootType) m.line == some i
      · have ho' := hline ▸ ho
        simp [hm, hd, ho, ho', ih]
      · have ho' := hline ▸ ho
        simp [hm, hd, ho, ho', ih]

/-- The pass lists every declaration once. -/
theorem Pass.filterMap_snd_declarations (src : Text) {α : Type} {form : Mark → Option α}
    (hform : ∀ m x, form m = some x → m.isDeclaration) :
    (Pass.declarations {} (Mark.ofText src)).filterMap (form ·.2) =
      (Mark.ofText src).filterMap form := by
  rw [declarations_ofText src [], List.filterMap_map, List.filterMap_filter]
  congr 1
  funext m
  split_ifs with hm
  · rfl
  · cases hx : form m with
    | none => rfl
    | some x => exact absurd (hform m x hx) hm

theorem Mark.isDeclaration_of_method? (m : Mark) (x : Method) (h : m.method? = some x) :
    m.isDeclaration ∧ m.line = x.line := by
  cases m <;> cases h
  exact ⟨rfl, rfl⟩

theorem Mark.isDeclaration_of_property? (m : Mark) (x : Property) (h : m.property? = some x) :
    m.isDeclaration ∧ m.line = x.line := by
  cases m <;> cases h
  exact ⟨rfl, rfl⟩

/-- The members of every block, selected from the flat lists by owner. -/
theorem getElem?_blocks {rootType path src : Text} (i : Nat) :
    (Skeleton.ofSource rootType path src).blocks[i]? =
      (Block.bare src rootType)[i]?.map fun b =>
        { b with
          properties := (Skeleton.ofSource rootType path src).properties.filter fun p =>
            Block.owner? (Block.bare src rootType) p.line == some i
          methods := (Skeleton.ofSource rootType path src).methods.filter fun m =>
            Block.owner? (Block.bare src rootType) m.line == some i } := by
  simp only [Skeleton.ofSource, Block.assign, Block.ownedAt_owners, List.getElem?_mapIdx]
  rfl

theorem length_blocks (rootType path src : Text) :
    (Skeleton.ofSource rootType path src).blocks.length = (Block.bare src rootType).length := by
  simp only [Skeleton.ofSource, Block.assign, List.length_mapIdx]
  rfl

/-- Ownership by ranges is ownership by a single pass. The pass meets every method and every
property of the skeleton, gives it a block that exists or none, and each block lists exactly the
members that the pass gives it. The block at a position is the one of the opener at that position. -/
theorem members_eq_pass (rootType path src : Text) :
    let file := Skeleton.ofSource rootType path src
    let listed := Pass.declarations {} (Mark.ofText src)
    listed.filterMap (·.2.method?) = file.methods ∧
    listed.filterMap (·.2.property?) = file.properties ∧
    file.blocks.map (·.startLine) = (openers src).map (·.line) ∧
    (∀ x ∈ listed, ∀ i, x.1 = some i → i < file.blocks.length) ∧
    ∀ i b, file.blocks[i]? = some b →
      b.methods = (listed.filter (·.1 == some i)).filterMap (·.2.method?) ∧
      b.properties = (listed.filter (·.1 == some i)).filterMap (·.2.property?) := by
  intro file listed
  refine ⟨?_, ?_, ?_, ?_, ?_⟩
  · exact Pass.filterMap_snd_declarations src fun m x h => (m.isDeclaration_of_method? x h).1
  · exact Pass.filterMap_snd_declarations src fun m x h => (m.isDeclaration_of_property? x h).1
  · have hrange := congrArg (List.map Prod.fst) (map_range_blocks rootType path src)
    rw [List.map_map, List.map_map] at hrange
    exact hrange
  · intro x hx i hi
    have hx' : x ∈ Pass.declarations {} (Mark.ofText src) := hx
    rw [Pass.declarations_ofText src rootType] at hx'
    obtain ⟨m, -, rfl⟩ := List.mem_map.mp hx'
    rw [length_blocks]
    exact Block.lt_length_of_owner? hi
  · intro i b hb
    rw [getElem?_blocks] at hb
    obtain ⟨c, -, rfl⟩ := Option.map_eq_some_iff.mp hb
    rw [Pass.filterMap_declarations src rootType Mark.isDeclaration_of_method?,
      Pass.filterMap_declarations src rootType Mark.isDeclaration_of_property?]
    exact ⟨rfl, rfl⟩

end ObjcOutline
