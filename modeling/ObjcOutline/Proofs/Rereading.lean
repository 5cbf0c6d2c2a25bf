import ObjcOutline.Proofs.Concatenation
import ObjcOutline.Proofs.OutlineBlocks
import Mathlib.Data.List.Forall2

/-!
# The outline of a skeleton reads back as the skeleton

An outline is a text like any other, so it can be extracted from again. Block by block, the new
skeleton agrees with the one that the outline was made from, however broken the source was: blocks
without a closing line come back closed, and lines are counted in the outline. Lost are the methods
without return type or without signature, and categories come back with the word that the outline
puts before them. Declarations outside every block are not printed at all.

One thing is assumed about the skeleton. A property without attributes whose declaration starts with
a parenthesis would be read as one with attributes; such a declaration comes from a line on which the
parenthesis is not closed before the semicolon.
-/
namespace ObjcOutline
open Outline

section Single
variable {a : Text} {o : Opener} {ds : List Mark} {c : Int}
  (hmarks : Mark.ofText a = .opener o :: (ds ++ [.closer c])) (hds : ∀ d ∈ ds, d.isDeclaration)
include hmarks hds

theorem filterMap_single_of_none {α : Type} {form : Mark → Option α}
    (hform : ∀ m : Mark, m.isDeclaration → form m = none) :
    (Mark.ofText a).filterMap form = (form (.opener o)).toList ++ (form (.closer c)).toList := by
  have hnone : ds.filterMap form = [] :=
    List.filterMap_eq_nil_iff.mpr fun d hd => hform d (hds d hd)
  rw [hmarks, List.filterMap_cons, List.filterMap_append, hnone, List.nil_append,
    List.filterMap_cons]
  cases form (.opener o) <;> cases form (.closer c) <;> rfl

theorem closingLines_single : closingLines a = [c] :=
  filterMap_single_of_none hmarks hds fun m hm => by cases m <;> first | rfl | cases hm

theorem openers_single : openers a = [o] :=
  filterMap_single_of_none hmarks hds fun m hm => by cases m <;> first | rfl | cases hm

omit hds in
/-- The opener stands above the declarations, and these above the closing line. -/
theorem lines_single : o.line < c ∧ ∀ d ∈ ds, o.line < d.line ∧ d.line < c := by
  have hpairwise := Mark.ofText_pairwise a
  rw [hmarks, List.pairwise_cons, List.pairwise_append] at hpairwise
  obtain ⟨habove, -, -, hbelow⟩ := hpairwise
  refine ⟨habove (.closer c) (by simp), fun d hd => ⟨habove d (by simp [hd]), ?_⟩⟩
  exact hbelow d hd (.closer c) (by simp)

theorem endLineOf_single : Block.endLineOf (closingLines a).toArray o.line = c := by
  rw [Block.endLineOf_eq_find (closingLines_pairwise a), closingLines_single hmarks hds]
  simp [(lines_single hmarks).1]

section Members
variable {α : Type} {form : Mark → Option α} {line : α → Int}
  (hform : ∀ m x, form m = some x → m.isDeclaration ∧ m.line = line x)
include hform

omit hds in
theorem filterMap_single : (Mark.ofText a).filterMap form = ds.filterMap form := by
  have hnone {m : Mark} (hm : ¬ m.isDeclaration) : form m = none := by
    cases h : form m with
    | none => rfl
    | some x => exact absurd (hform m x h).1 hm
  have hopener : form (.opener o) = none := hnone (by simp [Mark.isDeclaration])
  have hcloser : form (.closer c) = none := hnone (by simp [Mark.isDeclaration])
  rw [hmarks, List.filterMap_cons_none hopener, List.filterMap_append,
    List.filterMap_cons_none hcloser, List.filterMap_nil, List.append_nil]

/-- Every member of the text belongs to its block. -/
theorem filter_owner?_single (rootType : Text) :
    ((Mark.ofText a).filterMap form).filter
        (fun x => Block.owner? (Block.bare a rootType) (line x) == some 0) =
      ds.filterMap form := by
  rw [filterMap_single hmarks hform, List.filter_eq_self]
  intro x hx
  obtain ⟨d, hd, hdx⟩ := List.mem_filterMap.mp hx
  have hline := (lines_single hmarks).2 d hd
  rw [(hform d x hdx).2] at hline
  have hcontains : (Block.ofOpener a (effectiveRootType rootType) (closingLines a).toArray
      o).contains (line x) = true := by
    rw [Block.contains_ofOpener, endLineOf_single hmarks hds]
    exact hline
  rw [Block.bare, openers_single hmarks hds, List.map_singleton, ← List.nil_append [_],
    Block.owner?_concat, if_pos hcontains]
  rfl

end Members

theorem blocks_single_append (rootType path t : Text) :
    (Skeleton.ofSource rootType path (a ++ '\n' :: t)).blocks =
      { Block.ofOpener (a ++ '\n' :: t) (effectiveRootType rootType) #[c] o with
        properties := ds.filterMap Mark.property?
        methods := ds.filterMap Mark.method? } ::
      (Skeleton.ofSource rootType path t).blocks.map (Block.shift (Text.lines a).length) := by
  have hi : (openers a)[0]? = some o := by
    rw [openers_single hmarks hds]
    rfl
  have hclosed : o.line < Block.endLineOf (closingLines a).toArray o.line := by
    rw [endLineOf_single hmarks hds]
    exact (lines_single hmarks).1
  have hfirst : (Skeleton.ofSource rootType path a).blocks[0]? =
      some { Block.ofOpener a (effectiveRootType rootType) #[c] o with
             properties := ds.filterMap Mark.property?
             methods := ds.filterMap Mark.method? } := by
    rw [getElem?_blocks, Block.getElem?_bare rootType a hi,
      ← filter_owner?_single hmarks hds Mark.isDeclaration_of_property? rootType,
      ← filter_owner?_single hmarks hds Mark.isDeclaration_of_method? rootType,
      closingLines_single hmarks hds]
    rfl
  have hhead := getElem?_blocks_left rootType path a t hi hclosed
  have hdrop := drop_blocks_append rootType path a t
  rw [hfirst, Option.map_some] at hhead
  rw [openers_single hmarks hds] at hdrop
  cases hwhole : (Skeleton.ofSource rootType path (a ++ '\n' :: t)).blocks with
  | nil =>
    rw [hwhole] at hhead
    cases hhead
  | cons b bs =>
    rw [hwhole] at hhead hdrop
    simp only [List.getElem?_cons_zero, Option.some.injEq] at hhead
    simp only [List.length_singleton, List.drop_succ_cons, List.drop_zero] at hdrop
    rw [hdrop, hhead]
    rfl

end Single

/-- The block `c` of an outline is what the block `b` is printed as. -/
structure Block.Reread (b c : Block) : Prop where
  kind : c.kind = b.kind
  keyword : c.keyword = b.keyword
  name : c.name = b.name
  supertype : c.supertype = b.supertype
  protocols : c.protocols = b.protocols
  category : c.category = printedCategory b
  isTerminated : c.isTerminated = true
  fields : c.fields = b.fields
  properties : c.properties.map Property.unplaced = b.properties.map Property.unplaced
  methods : c.methods.map Method.unplaced =
    (b.methods.filter Method.isReadable).map Method.unplaced

theorem Block.Reread.shift {b c : Block} (h : b.Reread c) (n : Nat) : b.Reread (c.shift n) := by
  have hproperties : (c.shift n).properties.map Property.unplaced =
      c.properties.map Property.unplaced := List.map_map
  have hmethods : (c.shift n).methods.map Method.unplaced = c.methods.map Method.unplaced :=
    List.map_map
  have hterminated : (c.shift n).isTerminated = c.isTerminated := by
    simp only [Block.isTerminated, Block.shift, Int.add_lt_add_iff_right]
  exact ⟨h.kind, h.keyword, h.name, h.supertype, h.protocols, h.category,
    hterminated.trans h.isTerminated, h.fields, hproperties.trans h.properties,
    hmethods.trans h.methods⟩

/-- The skeleton `file` has the blocks that `blocks` are printed as, and no member outside them. -/
structure Skeleton.Reread (blocks : List Block) (file : Skeleton) : Prop where
  blocks : List.Forall₂ Block.Reread blocks file.blocks
  methods : file.methods = file.blocks.flatMap Block.methods
  properties : file.properties = file.blocks.flatMap Block.properties

theorem flatMap_shift {α : Type} (members : Block → List α) (move : α → α) (n : Nat)
    (h : ∀ b : Block, members (b.shift n) = (members b).map move) (blocks : List Block) :
    (blocks.map (Block.shift n)).flatMap members = (blocks.flatMap members).map move := by
  induction blocks with
  | nil => rfl
  | cons b blocks ih => rw [List.map_cons, List.flatMap_cons, ih, List.flatMap_cons, List.map_append, h]

theorem filterMap_unplaced {α : Type} (form : Mark → Option α) (erase : α → α)
    (h : ∀ m : Mark, form m.unplaced = (form m).map erase) (ms : List Mark) :
    (ms.filterMap form).map erase = (ms.map Mark.unplaced).filterMap form := by
  rw [List.map_filterMap, List.filterMap_map]
  congr 1
  funext m
  exact (h m).symm

theorem supertypeOf_printedHeader {rootType : Text} {b : Block} (hb : b.WellFormed rootType)
    (otherRoot : Text) : Block.supertypeOf otherRoot (printedHeader b) = b.supertype := by
  unfold Block.supertypeOf printedHeader
  by_cases hkind : b.kind = .interface
  · simp only [hkind, if_true, Option.getD_some]
  · rw [if_neg hkind, hb.supertype_kind hkind]

section Outline
variable {indent : Text} (hindent : Text.IsIndent indent) {rootType : Text}
  (hroot : Text.IsWord rootType)
include hindent hroot

/-- The marks of a printed block: its header, its members and a closing line. -/
theorem exists_members {b : Block} (hb : b.WellFormed rootType)
    (hopen : ∀ p ∈ b.properties, p.attributes = [] → p.declaration.head? ≠ some '(') :
    ∃ ds c, Mark.ofText (Text.unlines (blockLines indent b)) =
        .opener ⟨printedHeader b, 2, printedEnd b⟩ :: (ds ++ [.closer c]) ∧
      (∀ d ∈ ds, d.isDeclaration) ∧
      (ds.filterMap Mark.property?).map Property.unplaced = b.properties.map Property.unplaced ∧
      (ds.filterMap Mark.method?).map Method.unplaced =
        (b.methods.filter Method.isReadable).map Method.unplaced := by
  obtain ⟨below, hmarks, hbelow⟩ := Mark.ofText_blockLines hindent hroot hb hopen
  rw [← List.append_assoc] at hbelow
  obtain ⟨ds, rest, rfl, hmembers, hrest⟩ := List.map_eq_append_iff.mp hbelow
  obtain ⟨last, rfl, hlast⟩ := List.map_eq_singleton_iff.mp hrest
  obtain ⟨c, rfl⟩ : ∃ c, last = .closer c := by
    cases last <;> cases hlast
    exact ⟨_, rfl⟩
  refine ⟨ds, c, hmarks, ?_, ?_, ?_⟩
  · intro d hd
    have hmem : d.unplaced ∈ ds.map Mark.unplaced := List.mem_map_of_mem hd
    rw [hmembers] at hmem
    cases d with
    | closer _ => simp [Mark.unplaced] at hmem
    | opener _ => simp [Mark.unplaced] at hmem
    | method _ => rfl
    | property _ => rfl
  · rw [filterMap_unplaced _ _ (fun m => by cases m <;> rfl), hmembers]
    simp [List.filterMap_map, Function.comp_def, Mark.property?]
  · rw [filterMap_unplaced _ _ (fun m => by cases m <;> rfl), hmembers]
    simp [List.filterMap_map, Function.comp_def, Mark.method?]

variable (otherRoot otherPath : Text)

/-- Reading one block in front of the rest of an outline. -/
theorem reread_block {b : Block} (hb : b.WellFormed rootType)
    (hopen : ∀ p ∈ b.properties, p.attributes = [] → p.declaration.head? ≠ some '(')
    {blocks : List Block} {t : Text}
    (ht : Skeleton.Reread blocks (Skeleton.ofSource otherRoot otherPath t)) :
    Skeleton.Reread (b :: blocks)
      (Skeleton.ofSource otherRoot otherPath (blockText indent b ++ t)) := by
  obtain ⟨ds, c, hmarks, hds, hproperties, hmethods⟩ := exists_members hindent hroot hb hopen
  have htext : blockText indent b ++ t = Text.unlines (blockLines indent b) ++ '\n' :: t := by
    rw [blockText_eq, List.append_assoc]
    rfl
  have hblocks := blocks_single_append hmarks hds otherRoot otherPath t
  have hend := endLineOf_single hmarks hds
  rw [closingLines_single hmarks hds] at hend
  have hownMethods : (Skeleton.ofSource otherRoot otherPath
      (Text.unlines (blockLines indent b))).methods = ds.filterMap Mark.method? :=
    filterMap_single hmarks Mark.isDeclaration_of_method?
  have hownProperties : (Skeleton.ofSource otherRoot otherPath
      (Text.unlines (blockLines indent b))).properties = ds.filterMap Mark.property? :=
    filterMap_single hmarks Mark.isDeclaration_of_property?
  rw [htext]
  refine ⟨?_, ?_, ?_⟩
  · rw [hblocks]
    refine .cons ?_ ?_
    · refine ⟨rfl, rfl, rfl, ?_, rfl, rfl, ?_, ?_, hproperties, hmethods⟩
      · exact supertypeOf_printedHeader hb _
      · rw [Block.isTerminated_iff]
        exact lt_of_lt_of_eq (lines_single hmarks).1 hend.symm
      · exact Block.fieldsOf_blockLines hindent hb rfl rfl _
    · rw [List.forall₂_map_right_iff]
      exact ht.blocks.imp fun _ _ h => h.shift _
  · rw [methods_append, hownMethods, hblocks, List.flatMap_cons,
      flatMap_shift _ (Method.shift _) _ fun _ => rfl, ← ht.methods]
  · rw [properties_append, hownProperties, hblocks, List.flatMap_cons,
      flatMap_shift _ (Property.shift _) _ fun _ => rfl, ← ht.properties]

/-- Reading a list of printed blocks, by induction on the list. -/
theorem reread_blocks {blocks : List Block} (hblocks : ∀ b ∈ blocks, b.WellFormed rootType)
    (hopen : ∀ b ∈ blocks, ∀ p ∈ b.properties,
      p.attributes = [] → p.declaration.head? ≠ some '(') :
    Skeleton.Reread blocks
      (Skeleton.ofSource otherRoot otherPath (blocks.flatMap (blockText indent))) := by
  induction blocks with
  | nil => exact ⟨.nil, rfl, rfl⟩
  | cons b blocks ih =>
    rw [List.flatMap_cons]
    apply reread_block hindent hroot otherRoot otherPath (hblocks b (by simp)) (hopen b (by simp))
    exact ih (fun c hc => hblocks c (by simp [hc])) fun c hc => hopen c (by simp [hc])

end Outline

def bannerLines (path : Text) : List Text :=
  [("// Objective-C Structure Summary" : Text), "// File: " ++ path,
    ("// " : Text) ++ List.replicate 41 '─']

theorem banner_eq (path : Text) : banner path = Text.unlines (bannerLines path) ++ ['\n'] := by
  have htext : banner path =
      ("// Objective-C Structure Summary" : Text) ++ ['\n'] ++ "// File: " ++ path ++ ['\n'] ++
        "// " ++ List.replicate 41 '─' ++ ['\n', '\n'] := rfl
  rw [htext, bannerLines, Text.unlines_cons, Text.unlines_cons, Text.unlines_cons, Text.unlines_nil]
  simp only [List.append_assoc, List.cons_append, List.nil_append]

theorem not_mem_of_mem_bannerLines {path : Text} (hpath : '\n' ∉ path) :
    ∀ l ∈ bannerLines path, '\n' ∉ l := by
  intro l hl
  simp only [bannerLines, List.mem_cons, List.not_mem_nil, or_false] at hl
  rcases hl with rfl | rfl | rfl
  · decide
  · rw [List.mem_append, not_or]
    exact ⟨by decide, hpath⟩
  · decide

theorem Mark.ofText_bannerLines {path : Text} (hpath : '\n' ∉ path) :
    ofText (Text.unlines (bannerLines path)) = [] := by
  have hcomment : ∀ l ∈ bannerLines path, declared? l = none := by
    intro l hl
    obtain ⟨t, rfl⟩ : ∃ t, l = '/' :: '/' :: t := by
      simp only [bannerLines, List.mem_cons, List.not_mem_nil, or_false] at hl
      rcases hl with rfl | rfl | rfl <;> exact ⟨_, rfl⟩
    exact declared?_comment Text.IsIndent.nil t
  have hnone : (Text.lines (Text.unlines (bannerLines path))).filterMap declared? = [] := by
    rw [Text.lines_unlines (not_mem_of_mem_bannerLines hpath), List.filterMap_append,
      List.filterMap_eq_nil_iff.mpr hcomment]
    rfl
  rw [← map_unplaced_place 1 0, List.map_eq_nil_iff] at hnone
  exact hnone

/-- The banner changes nothing but the lines. -/
theorem reread_banner {path : Text} (hpath : '\n' ∉ path) {blocks : List Block}
    {rootType otherPath t : Text}
    (ht : Skeleton.Reread blocks (Skeleton.ofSource rootType otherPath t)) :
    Skeleton.Reread blocks (Skeleton.ofSource rootType otherPath (banner path ++ t)) := by
  have hmarks := Mark.ofText_bannerLines hpath
  have hopeners : openers (Text.unlines (bannerLines path)) = [] := by
    rw [openers, hmarks]
    rfl
  have hmethods : (Skeleton.ofSource rootType otherPath
      (Text.unlines (bannerLines path))).methods = [] := by
    simp only [Skeleton.ofSource, hmarks, List.filterMap_nil]
  have hproperties : (Skeleton.ofSource rootType otherPath
      (Text.unlines (bannerLines path))).properties = [] := by
    simp only [Skeleton.ofSource, hmarks, List.filterMap_nil]
  have htext : banner path ++ t = Text.unlines (bannerLines path) ++ '\n' :: t := by
    rw [banner_eq, List.append_assoc]
    rfl
  have hblocks := drop_blocks_append rootType otherPath (Text.unlines (bannerLines path)) t
  rw [hopeners, List.length_nil, List.drop_zero] at hblocks
  rw [htext]
  refine ⟨?_, ?_, ?_⟩
  · rw [hblocks, List.forall₂_map_right_iff]
    exact ht.blocks.imp fun _ _ h => h.shift _
  · rw [methods_append, hmethods, hblocks, flatMap_shift _ (Method.shift _) _ fun _ => rfl,
      ← ht.methods, List.nil_append]
  · rw [properties_append, hproperties, hblocks, flatMap_shift _ (Property.shift _) _ fun _ => rfl,
      ← ht.properties, List.nil_append]

/-- The supertype of an interface that names none is a word when the root type has word characters
only; an empty root type stands for the default. -/
theorem isWord_effectiveRootType {rootType : Text} (h : ∀ c ∈ rootType, Text.isWordChar c = true) :
    Text.IsWord (effectiveRootType rootType) := by
  unfold effectiveRootType
  split_ifs with hempty
  · decide
  · exact ⟨by simpa using hempty, h⟩

theorem isIndent_effectiveIndent {indent : Text} (h : Text.IsIndent indent) :
    Text.IsIndent (effectiveIndent indent) := by
  unfold effectiveIndent
  split_ifs
  · decide
  · exact h

/-- The outline of a skeleton, read again, gives the blocks of the skeleton back. -/
theorem reread_outline {rootType indent : Text} (path src otherRoot otherPath : Text)
    (withBanner : Bool) (hroot : ∀ c ∈ rootType, Text.isWordChar c = true)
    (hindent : Text.IsIndent indent) (hpath : withBanner = true → '\n' ∉ path)
    (hopen : ∀ p ∈ (Skeleton.ofSource rootType path src).properties,
      p.attributes = [] → p.declaration.head? ≠ some '(') :
    Skeleton.Reread (Skeleton.ofSource rootType path src).blocks
      (Skeleton.ofSource otherRoot otherPath
        (render withBanner indent (Skeleton.ofSource rootType path src))) := by
  have hbody := reread_blocks (isIndent_effectiveIndent hindent) (isWord_effectiveRootType hroot)
    otherRoot otherPath (fun b hb => wellFormed_of_mem_blocks hb)
    fun b hb p hp => hopen p (mem_properties_of_mem_blocks hb hp)
  unfold render
  cases withBanner with
  | false => exact hbody
  | true => exact reread_banner (hpath rfl) hbody

/-- A category with a property and a method without return type. -/
theorem reread_outline_category :
    let src : Text := "@interface A (X)\n@property int x;\n- ( )stop;\n@end"
    let file := Skeleton.ofSource [] "A.m" src
    file.blocks.map (fun b => (b.properties.length, b.methods.length)) = [(1, 1)] ∧
      Skeleton.Reread file.blocks (Skeleton.ofSource [] [] (render true "\t" file)) := by
  intro src file
  refine ⟨by decide +kernel, ?_⟩
  apply reread_outline
  · exact fun c hc => absurd hc List.not_mem_nil
  · decide
  · intro _
    decide
  · decide +kernel

end ObjcOutline
