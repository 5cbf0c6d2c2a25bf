import ObjcOutline.Proofs.SymbolOrder
import ObjcOutline.Proofs.Rereading

/-!
# The lines that outlines and symbol maps give

An outline walks the blocks of a skeleton and notes a line for each block and each member listed in
it. A symbol map walks the flat lists, keyword by keyword, and sorts. Both account for the same
declarations: no two symbols share a line, no line is noted twice, and the lines of the map are the
noted ones together with the lines of the members that lie inside no block.

Everything rests on two countings. Every mark of a text that is not a closing line gives one symbol,
and the marks stand on different lines. Every member inside a block has one owner, so grouping the
members by owner loses none and repeats none.
-/
namespace ObjcOutline

namespace Skeleton

/-- The lines of all declarations of a skeleton. -/
def declaredLines (s : Skeleton) : List Int :=
  s.blocks.map (·.startLine) ++ (s.properties.map (·.line) ++ s.methods.map (·.line))

/-- The lines that an outline notes, block by block. -/
def shownLines (s : Skeleton) : List Int :=
  s.blocks.flatMap fun b =>
    b.startLine :: (b.properties.map (·.line) ++ b.methods.map (·.line))

def isInside (s : Skeleton) (line : Int) : Bool := s.blocks.any (·.contains line)

/-- The lines of the properties and methods that lie strictly inside no block. -/
def strayLines (s : Skeleton) : List Int :=
  (s.properties.map (·.line) ++ s.methods.map (·.line)).filter (!s.isInside ·)

end Skeleton

namespace SymbolMap

theorem gatheredBlocks_eq {s : Skeleton} (h : ∀ b ∈ s.blocks, b.openingKeyword ∈ keywordOrder) :
    s.gatheredBlocks = s.blocks :=
  List.filter_eq_self.mpr fun b hb => decide_eq_true (h b hb)

theorem gathered_perm {s : Skeleton} (h : ∀ b ∈ s.blocks, b.openingKeyword ∈ keywordOrder) :
    ((gathered s true).map Symbol.line).Perm s.declaredLines := by
  have hblocks := (blockSymbols_perm s).map Symbol.line
  rw [gatheredBlocks_eq h] at hblocks
  unfold gathered Skeleton.declaredLines
  simp only [if_true, List.map_append, List.map_map, List.append_assoc] at hblocks ⊢
  exact hblocks.append_right _

theorem symbols_perm {s : Skeleton} (h : ∀ b ∈ s.blocks, b.openingKeyword ∈ keywordOrder) :
    ((ofSkeleton s true).symbols.map Symbol.line).Perm s.declaredLines :=
  ((List.mergeSort_perm _ _).map Symbol.line).trans (gathered_perm h)

/-- Sorting by line gives strictly ascending lines as soon as no two symbols share one. -/
theorem symbols_pairwise {s : Skeleton} {withProperties : Bool}
    (h : ((ofSkeleton s withProperties).symbols.map Symbol.line).Nodup) :
    (ofSkeleton s withProperties).symbols.Pairwise fun a b => a.line < b.line := by
  have hdistinct := List.pairwise_map.mp h
  refine (symbols_sorted s withProperties).imp₂ ?_ hdistinct
  intro a b hle hne
  exact lt_of_le_of_ne hle hne

end SymbolMap

theorem Block.WellFormed.openingKeyword_mem {rootType : Text} {b : Block}
    (h : b.WellFormed rootType) : b.openingKeyword ∈ SymbolMap.keywordOrder := by
  unfold Block.openingKeyword
  rcases h.keyword with ⟨-, hkind | hkind | hkind⟩ | ⟨hkind, hkeyword | hkeyword⟩
  · simp [hkind, SymbolMap.keywordOrder]
  · simp [hkind, SymbolMap.keywordOrder]
  · simp [hkind, SymbolMap.keywordOrder]
  · simp [hkind, hkeyword, SymbolMap.keywordOrder]
  · simp [hkind, hkeyword, SymbolMap.keywordOrder]

/-- Selecting openers, properties and methods keeps every mark that is not a closing line. -/
theorem Mark.parts_perm (marks : List Mark) :
    ((marks.filterMap opener?).map opener ++
        ((marks.filterMap property?).map property ++ (marks.filterMap method?).map method)).Perm
      (marks.filter (!·.isCloser)) := by
  induction marks with
  | nil => simp
  | cons m marks ih =>
    cases m with
    | closer c => exact ih
    | opener o => exact ih.cons (opener o)
    | property p => exact List.perm_middle.trans (ih.cons (property p))
    | method m =>
      have hinner : ((marks.filterMap property?).map property ++
          method m :: (marks.filterMap method?).map method).Perm
          (method m :: ((marks.filterMap property?).map property ++
            (marks.filterMap method?).map method)) := List.perm_middle
      exact (hinner.append_left _).trans (List.perm_middle.trans (ih.cons (method m)))

theorem Mark.map_line_perm (marks : List Mark) :
    ((marks.filterMap opener?).map (·.line) ++
        ((marks.filterMap property?).map (·.line) ++ (marks.filterMap method?).map (·.line))).Perm
      ((marks.filter (!·.isCloser)).map line) := by
  have hparts := (parts_perm marks).map line
  simp only [List.map_append, List.map_map] at hparts
  exact hparts

section Source
variable (rootType path src : Text)

theorem map_startLine_blocks :
    (Skeleton.ofSource rootType path src).blocks.map (·.startLine) =
      (openers src).map (·.line) := by
  have hrange := congrArg (List.map Prod.fst) (map_range_blocks rootType path src)
  rw [List.map_map, List.map_map] at hrange
  exact hrange

theorem nodup_declaredLines : (Skeleton.ofSource rootType path src).declaredLines.Nodup := by
  have hmarks : ((Mark.ofText src).map Mark.line).Nodup :=
    List.pairwise_map.mpr ((Mark.ofText_pairwise src).imp fun h => h.ne)
  have hperm := Mark.map_line_perm (Mark.ofText src)
  unfold Skeleton.declaredLines
  rw [map_startLine_blocks]
  exact hperm.nodup_iff.mpr (hmarks.sublist (List.filter_sublist.map Mark.line))

theorem isInside_iff {line : Int} :
    (Skeleton.ofSource rootType path src).isInside line = true ↔
      (Block.owner? (Block.bare src rootType) line).isSome := by
  have hranges : (Skeleton.ofSource rootType path src).blocks.map Block.range =
      (Block.bare src rootType).map Block.range := by
    rw [map_range_blocks, Block.bare, List.map_map]
    rfl
  have hany := congrArg (List.any · fun r => r.1 < line && line < r.2) hranges
  simp only [List.any_map] at hany
  have hinside : (Skeleton.ofSource rootType path src).isInside line =
      (Block.bare src rootType).any fun b => b.contains line := hany
  rw [hinside, Option.isSome_iff_ne_none, Ne, Block.owner?_eq_none_iff, List.any_eq_true]
  push Not
  rfl

/-- The members that the blocks list, for either form of member. -/
theorem flatMap_owned_perm {α : Type} (line : α → Int) (members : List α) :
    ((List.range (Block.bare src rootType).length).flatMap fun i =>
        members.filter fun x => Block.owner? (Block.bare src rootType) (line x) == some i).Perm
      (members.filter fun x => (Skeleton.ofSource rootType path src).isInside (line x)) := by
  have hkeys : ((List.range (Block.bare src rootType).length).map some).Nodup :=
    List.nodup_map_iff (Option.some_injective Nat) |>.mpr List.nodup_range
  have hperm := flatMap_filter_perm
    (fun x => Block.owner? (Block.bare src rootType) (line x)) hkeys members
    (p := fun x => (Skeleton.ofSource rootType path src).isInside (line x)) ?_
  · rw [List.flatMap_map] at hperm
    simpa only [beq_eq_decide] using hperm
  · intro x _
    rw [isInside_iff, Option.isSome_iff_exists]
    simp only [List.mem_map, List.mem_range]
    constructor
    · rintro ⟨i, hi⟩
      exact ⟨i, Block.lt_length_of_owner? hi, hi.symm⟩
    · rintro ⟨i, -, hi⟩
      exact ⟨i, hi.symm⟩

/-- The members of the blocks, one block after another, where `part` selects them from a block and
`members` are those of the whole file. -/
theorem flatMap_members_perm {α : Type} (line : α → Int) (members : List α) (part : Block → List α)
    (h : ∀ i b, (Skeleton.ofSource rootType path src).blocks[i]? = some b → part b =
      members.filter fun x => Block.owner? (Block.bare src rootType) (line x) == some i) :
    ((Skeleton.ofSource rootType path src).blocks.flatMap part).Perm
      (members.filter fun x => (Skeleton.ofSource rootType path src).isInside (line x)) := by
  have hmap : (Skeleton.ofSource rootType path src).blocks.map part =
      (List.range (Block.bare src rootType).length).map fun i =>
        members.filter fun x => Block.owner? (Block.bare src rootType) (line x) == some i := by
    apply List.ext_getElem?
    intro i
    rw [List.getElem?_map, List.getElem?_map]
    cases hi : (Skeleton.ofSource rootType path src).blocks[i]? with
    | none =>
      have hlen := List.getElem?_eq_none_iff.mp hi
      rw [length_blocks] at hlen
      rw [List.getElem?_eq_none_iff.mpr (by simpa using hlen)]
      rfl
    | some b =>
      have hlen := (List.getElem?_eq_some_iff.mp hi).choose
      rw [length_blocks] at hlen
      rw [List.getElem?_range hlen, Option.map_some, Option.map_some, h i b hi]
  rw [List.flatMap_def, hmap, ← List.flatMap_def]
  exact flatMap_owned_perm rootType path src line members

theorem flatMap_properties_perm :
    ((Skeleton.ofSource rootType path src).blocks.flatMap Block.properties).Perm
      ((Skeleton.ofSource rootType path src).properties.filter fun p =>
        (Skeleton.ofSource rootType path src).isInside p.line) := by
  apply flatMap_members_perm
  intro i b hb
  rw [getElem?_blocks] at hb
  obtain ⟨c, -, rfl⟩ := Option.map_eq_some_iff.mp hb
  rfl

theorem flatMap_methods_perm :
    ((Skeleton.ofSource rootType path src).blocks.flatMap Block.methods).Perm
      ((Skeleton.ofSource rootType path src).methods.filter fun m =>
        (Skeleton.ofSource rootType path src).isInside m.line) := by
  apply flatMap_members_perm
  intro i b hb
  rw [getElem?_blocks] at hb
  obtain ⟨c, -, rfl⟩ := Option.map_eq_some_iff.mp hb
  rfl

end Source

theorem Skeleton.shownLines_perm (s : Skeleton) :
    s.shownLines.Perm (s.blocks.map (·.startLine) ++
      ((s.blocks.flatMap Block.properties).map (·.line) ++
        (s.blocks.flatMap Block.methods).map (·.line))) := by
  have hmembers := List.flatMap_append_perm s.blocks (fun b => b.properties.map (·.line))
    fun b => b.methods.map (·.line)
  have hall := List.flatMap_append_perm s.blocks (fun b => [b.startLine])
    fun b => b.properties.map (·.line) ++ b.methods.map (·.line)
  have hstarts : (s.blocks.flatMap fun b => [b.startLine]) = s.blocks.map (·.startLine) :=
    List.map_eq_flatMap.symm
  rw [hstarts] at hall
  rw [List.map_flatMap, List.map_flatMap]
  exact (hall.symm).trans (hmembers.symm.append_left _)

theorem shownLines_append_strayLines_perm (rootType path src : Text) :
    ((Skeleton.ofSource rootType path src).shownLines ++
      (Skeleton.ofSource rootType path src).strayLines).Perm
      (Skeleton.ofSource rootType path src).declaredLines := by
  generalize hfile : Skeleton.ofSource rootType path src = file
  have hproperties := (flatMap_properties_perm rootType path src).map (·.line)
  have hmethods := (flatMap_methods_perm rootType path src).map (·.line)
  have hfilter {α : Type} (line : α → Int) (xs : List α) :
      (xs.filter fun x => file.isInside (line x)).map line =
        (xs.map line).filter file.isInside := by
    rw [List.filter_map]
    rfl
  rw [hfile, hfilter] at hproperties hmethods
  have hshown := file.shownLines_perm.trans ((hproperties.append hmethods).append_left _)
  rw [← List.filter_append] at hshown
  have hsplit := List.filter_append_perm file.isInside
    (file.properties.map (·.line) ++ file.methods.map (·.line))
  have hwhole := hshown.append_right file.strayLines
  rw [List.append_assoc] at hwhole
  exact hwhole.trans (hsplit.append_left _)

/-- What a line of an outline notes, as it is written there. -/
def Outline.note? (line : Text) : Option Text := Text.after? "// Line: " (Text.skipBlanks line)

section Notes
open Outline
variable {indent : Text} (hindent : Text.IsIndent indent)
include hindent

theorem note?_noteLine (line : Int) : note? (indent ++ noteLine line) = some (Text.ofInt line) := by
  unfold note?
  rw [hindent.skipBlanks_append]
  exact Text.after?_append "// Line: " (Text.ofInt line)

theorem note?_eq_none {text : Text} (h : ∃ c r, text = c :: r ∧ Text.isBlank c = false ∧ c ≠ '/') :
    note? (indent ++ text) = none := by
  obtain ⟨c, r, rfl, hblank, hslash⟩ := h
  have hstart : ("// Line: " : Text) = '/' :: "/ Line: " := rfl
  rw [note?, hindent.skipBlanks_append, Text.skipBlanks_cons hblank, hstart, Text.after?,
    if_neg (Ne.symm hslash)]

/-- Members below their notes are noted in their order. -/
theorem filterMap_note?_members {α : Type} (line : α → Int) (text : α → Text) {xs : List α}
    (h : ∀ x ∈ xs, ∃ c r, text x = c :: r ∧ Text.isBlank c = false ∧ c ≠ '/') :
    (xs.flatMap fun x => notedLines indent (line x) (text x)).filterMap note? =
      (xs.map line).map Text.ofInt := by
  induction xs with
  | nil => rfl
  | cons x xs ih =>
    rw [List.flatMap_cons, List.filterMap_append, ih fun y hy => h y (by simp [hy]), notedLines,
      List.filterMap_cons_some (note?_noteLine hindent (line x)),
      List.filterMap_cons_none (note?_eq_none hindent (h x (by simp)))]
    rfl

theorem filterMap_note?_variableLines {fields : List Field} (h : ∀ f ∈ fields, f.WellFormed) :
    (variableLines indent fields).filterMap note? = [] := by
  unfold variableLines
  split_ifs
  · rfl
  · rw [List.filterMap_eq_nil_iff]
    intro l hl
    rcases List.mem_append.mp hl with hl | hl
    · obtain ⟨f, hf, rfl⟩ := List.mem_map.mp hl
      obtain ⟨c, t, hc, hline⟩ := exists_fieldLine_eq (h f hf)
      exact note?_eq_none hindent ⟨c, _, hline, Text.isBlank_eq_false_of_isWordChar hc,
        ne_of_isWordChar hc (by decide)⟩
    · rw [List.mem_singleton.mp hl]
      rfl

/-- A printed block notes its opening line and then its members. -/
theorem filterMap_note?_blockLines {rootType : Text} {b : Block} (hb : b.WellFormed rootType) :
    (blockLines indent b).filterMap note? =
      (b.startLine :: (b.properties.map (·.line) ++ b.methods.map (·.line))).map Text.ofInt := by
  have hnote : note? (noteLine b.startLine) = some (Text.ofInt b.startLine) :=
    note?_noteLine Text.IsIndent.nil b.startLine
  have hheader : note? (headerLine b ++ headerTail b.fields) = none := by
    obtain ⟨keyword, rest, -, hline⟩ := exists_headerLine_eq hb
    rw [hline]
    exact note?_eq_none Text.IsIndent.nil ⟨'@', _, rfl, by decide, by decide⟩
  have hproperty : ∀ p ∈ b.properties,
      ∃ c r, propertyLine p = c :: r ∧ Text.isBlank c = false ∧ c ≠ '/' := by
    intro p _
    unfold propertyLine
    split_ifs <;> exact ⟨'@', _, rfl, by decide, by decide⟩
  have hmethod : ∀ m ∈ b.methods,
      ∃ c r, methodLine m = c :: r ∧ Text.isBlank c = false ∧ c ≠ '/' := by
    intro m hm
    unfold methodLine
    rcases (hb.methods m hm).sigil with h | h <;> rw [h]
    · exact ⟨'+', _, rfl, by decide, by decide⟩
    · exact ⟨'-', _, rfl, by decide, by decide⟩
  have hend : ([("@end" : Text)] : List Text).filterMap note? = [] := rfl
  rw [blockLines, List.filterMap_cons_some hnote, List.filterMap_cons_none hheader, lowerLines,
    List.filterMap_append, List.filterMap_append, List.filterMap_append,
    filterMap_note?_variableLines hindent hb.fields,
    filterMap_note?_members hindent Property.line propertyLine hproperty,
    filterMap_note?_members hindent Method.line methodLine hmethod, hend, List.map_cons,
    List.map_append, List.nil_append, List.append_nil]

theorem filterMap_note?_blocks {rootType : Text} (hroot : Text.IsWord rootType)
    {blocks : List Block} (hblocks : ∀ b ∈ blocks, b.WellFormed rootType) :
    (Text.lines (blocks.flatMap (blockText indent))).filterMap note? =
      (blocks.flatMap fun b =>
        b.startLine :: (b.properties.map (·.line) ++ b.methods.map (·.line))).map Text.ofInt := by
  induction blocks with
  | nil => rfl
  | cons b blocks ih =>
    have hb := hblocks b (by simp)
    have hlines := Text.lines_unlines fun l hl => not_mem_of_mem_blockLines hindent hb hroot hl
    have hempty : ([[]] : List Text).filterMap note? = [] := rfl
    have htext : blockText indent b ++ blocks.flatMap (blockText indent) =
        Text.unlines (blockLines indent b) ++ '\n' :: blocks.flatMap (blockText indent) := by
      rw [blockText_eq, List.append_assoc]
      rfl
    rw [List.flatMap_cons, htext, Text.lines_append, hlines, List.filterMap_append,
      List.filterMap_append, filterMap_note?_blockLines hindent hb, hempty,
      ih fun c hc => hblocks c (by simp [hc]), List.flatMap_cons, List.map_append, List.append_nil]

omit hindent in
theorem filterMap_note?_banner {path : Text} (hpath : '\n' ∉ path) (t : Text) :
    (Text.lines (banner path ++ t)).filterMap note? = (Text.lines t).filterMap note? := by
  have htext : banner path ++ t = Text.unlines (bannerLines path) ++ '\n' :: t := by
    rw [banner_eq, List.append_assoc]
    rfl
  rw [htext, Text.lines_append, Text.lines_unlines (not_mem_of_mem_bannerLines hpath)]
  rfl

end Notes

/-- Outline and symbol map account for the same declarations. What the outline shows is what its
text notes, as long as the root type, the indent and, in a banner, the path add no lines. -/
theorem symbols_eq_shown_and_stray (rootType path src : Text) :
    let file := Skeleton.ofSource rootType path src
    let symbols := (SymbolMap.ofSkeleton file true).symbols
    symbols.Pairwise (fun a b => a.line < b.line) ∧
    symbols.length = file.blocks.length + file.methods.length + file.properties.length ∧
    file.shownLines.Nodup ∧
    (∀ line, line ∈ symbols.map Symbol.line ↔ line ∈ file.shownLines ∨ line ∈ file.strayLines) ∧
    file.shownLines.Disjoint file.strayLines ∧
    ∀ (withBanner : Bool) (indent : Text), (∀ c ∈ rootType, Text.isWordChar c = true) →
      Text.IsIndent indent → (withBanner = true → '\n' ∉ path) →
      (Text.lines (Outline.render withBanner indent file)).filterMap Outline.note? =
        file.shownLines.map Text.ofInt := by
  intro file symbols
  have hsymbols : (symbols.map Symbol.line).Perm file.declaredLines :=
    SymbolMap.symbols_perm fun b hb => (wellFormed_of_mem_blocks hb).openingKeyword_mem
  have hparts := shownLines_append_strayLines_perm rootType path src
  have hnodup := nodup_declaredLines rootType path src
  obtain ⟨hshown, -, hdisjoint⟩ := List.nodup_append'.mp (hparts.nodup_iff.mpr hnodup)
  refine ⟨?_, ?_, hshown, ?_, hdisjoint, ?_⟩
  · exact SymbolMap.symbols_pairwise (hsymbols.nodup_iff.mpr hnodup)
  · have hlength := hsymbols.length_eq
    simp only [Skeleton.declaredLines, List.length_map, List.length_append] at hlength
    omega
  · intro line
    rw [hsymbols.mem_iff, ← hparts.mem_iff, List.mem_append]
  · intro withBanner indent hroot hindent hpath
    have hblocks : ∀ b ∈ file.blocks, b.WellFormed (effectiveRootType rootType) :=
      fun b hb => wellFormed_of_mem_blocks hb
    have hbody := filterMap_note?_blocks (isIndent_effectiveIndent hindent)
      (isWord_effectiveRootType hroot) hblocks
    unfold Outline.render
    cases withBanner with
    | false => exact hbody
    | true => exact (filterMap_note?_banner (hpath rfl) _).trans hbody

/-- An outline with a banner, of a text with one method in a block and one outside. -/
theorem notes_of_method_outside :
    ("Root" : Text).all Text.isWordChar = true ∧ Text.IsIndent "\t" ∧ '\n' ∉ ("A.m" : Text) ∧
      (Text.lines (Outline.render true "\t" (Skeleton.ofSource "Root" "A.m"
          "@interface A\n- (id)f;\n@end\n+ (id)g;"))).filterMap Outline.note? =
        (Skeleton.ofSource "Root" "A.m"
          "@interface A\n- (id)f;\n@end\n+ (id)g;").shownLines.map Text.ofInt := by
  have hroot : ("Root" : Text).all Text.isWordChar = true := by decide
  have hindent : Text.IsIndent "\t" := by decide
  have hpath : '\n' ∉ ("A.m" : Text) := by decide
  obtain ⟨-, -, -, -, -, hnotes⟩ :=
    symbols_eq_shown_and_stray "Root" "A.m" "@interface A\n- (id)f;\n@end\n+ (id)g;"
  exact ⟨hroot, hindent, hpath,
    hnotes true "\t" (List.all_eq_true.mp hroot) hindent fun _ => hpath⟩

end ObjcOutline
