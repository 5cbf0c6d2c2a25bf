import ObjcOutline.Proofs.FieldLines
import ObjcOutline.Proofs.HeaderPatterns
import ObjcOutline.Proofs.Ranges

/-!
# What each line contributes to a skeleton

The offset at the end of a header is there only to find the instance variables. Here every mark is
put together with the variables it leads to, and the offset is dropped. A skeleton is made from
these entries alone, and an entry depends on its own line and on the lines below it, never on where
in the text the line starts. So two texts have the same skeleton as soon as their lines give the
same entries.
-/
namespace ObjcOutline

def Mark.withoutOffset : Mark → Mark
  | opener o => opener { o with headerEnd := 0 }
  | m => m

/-- What a line declares and, where it opens a block, the instance variables of the block. -/
structure Entry where
  mark : Mark
  fields : List Field
deriving DecidableEq, Repr

namespace Entry

def ofMark (src : Text) (m : Mark) : Entry :=
  ⟨m.withoutOffset, m.opener?.elim [] (Block.fieldsOf src)⟩

/-- The block that an entry opens, without its members. -/
def block? (rootType : Text) (closers : Array Int) (e : Entry) : Option Block :=
  e.mark.opener?.map fun o => { Block.ofOpener [] rootType closers o with fields := e.fields }

/-- What a line contributes when the lines `below` follow it. -/
def ofLine? (number : Nat) (raw : Text) (below : List Text) : Option Entry :=
  (Mark.ofLine? ⟨number, 0, Text.dropReturn raw⟩).map (ofMark (raw ++ Text.below below))

/-- What the lines of a text contribute; the first of them has the given number. -/
def ofLines : (number : Nat) → List Text → List Entry
  | _, [] => []
  | number, raw :: below => (ofLine? number raw below).toList ++ ofLines (number + 1) below

end Entry

/-- The skeleton that entries make. -/
def Skeleton.ofEntries (rootType path : Text) (entries : List Entry) : Skeleton :=
  let marks := entries.map Entry.mark
  let closers := (marks.filterMap Mark.closer?).toArray
  let methods := marks.filterMap Mark.method?
  let properties := marks.filterMap Mark.property?
  let blocks := entries.filterMap (Entry.block? (effectiveRootType rootType) closers)
  { path, blocks := Block.assign blocks properties methods, methods, properties }

namespace Entry

theorem mark_comp_ofMark (src : Text) : mark ∘ ofMark src = Mark.withoutOffset := rfl

/-- Apart from openers, marks are not changed by dropping the offset. -/
theorem filterMap_withoutOffset {α : Type} (form : Mark → Option α)
    (h : ∀ o : Opener, form (.opener o) = none) (marks : List Mark) :
    (marks.map Mark.withoutOffset).filterMap form = marks.filterMap form := by
  rw [List.filterMap_map]
  apply List.filterMap_congr
  intro m _
  cases m with
  | opener o => exact (h _).trans (h o).symm
  | closer line => rfl
  | method x => rfl
  | property x => rfl

theorem filterMap_block?_ofMark (src rootType : Text) (closers : Array Int) (marks : List Mark) :
    (marks.map (ofMark src)).filterMap (block? rootType closers) =
      (marks.filterMap Mark.opener?).map (Block.ofOpener src rootType closers) := by
  rw [List.filterMap_map, List.map_filterMap]
  apply List.filterMap_congr
  intro m _
  cases m <;> rfl

end Entry

theorem Skeleton.ofSource_eq_ofMarks (rootType path src : Text) :
    ofSource rootType path src =
      ofEntries rootType path ((Mark.ofText src).map (Entry.ofMark src)) := by
  have hclosers := Entry.filterMap_withoutOffset Mark.closer? fun _ => rfl
  have hmethods := Entry.filterMap_withoutOffset Mark.method? fun _ => rfl
  have hproperties := Entry.filterMap_withoutOffset Mark.property? fun _ => rfl
  unfold ofSource ofEntries
  simp only [List.map_map, Entry.mark_comp_ofMark, Entry.filterMap_block?_ofMark, hclosers,
    hmethods, hproperties]

namespace Entry

/-- Only what follows the header counts, not what is before the line. -/
theorem ofMark_append (front t : Text) (m : Mark) :
    ofMark (front ++ t) (m.shift 0 front.length) = ofMark t m := by
  cases m with
  | opener o =>
    have hfields : Block.fieldsOf (front ++ t) (o.shift 0 front.length) = Block.fieldsOf t o := by
      have hdrop : (front ++ t).drop (o.headerEnd + front.length) = t.drop o.headerEnd := by
        rw [Nat.add_comm, List.drop_length_add_append]
      simp only [Block.fieldsOf, Opener.shift, hdrop]
    simp only [ofMark, Mark.shift, Mark.opener?, Option.elim_some, hfields]
    simp [Mark.withoutOffset, Opener.shift]
  | closer line => simp [ofMark, Mark.shift, Mark.withoutOffset, Mark.opener?]
  | method x => simp [ofMark, Mark.shift, Mark.withoutOffset, Mark.opener?, Method.shift]
  | property x => simp [ofMark, Mark.shift, Mark.withoutOffset, Mark.opener?, Property.shift]

theorem map_ofMark_append (number : Nat) (front line t : Text) :
    (Mark.ofLine? ⟨number, front.length, line⟩).map (ofMark (front ++ t)) =
      (Mark.ofLine? ⟨number, 0, line⟩).map (ofMark t) := by
  have hshift := Mark.ofLine?_shift 0 front.length ⟨number, 0, line⟩
  simp only [SourceLine.shift, Nat.zero_add, Nat.add_zero] at hshift
  rw [hshift, Option.map_map]
  congr 1
  funext m
  exact ofMark_append front t m

theorem ofLines_of_place (number : Nat) (front raw : Text) (below : List Text) :
    ((SourceLine.place number front.length (raw :: below)).filterMap Mark.ofLine?).map
        (ofMark (front ++ (raw ++ Text.below below))) = ofLines number (raw :: below) := by
  -- What is above the line is kept in `front`, so that its length is the offset of the line.
  induction below generalizing number front raw with
  | nil =>
    rw [ofLines, ofLine?, ← map_ofMark_append number front, SourceLine.place, List.filterMap_cons]
    cases Mark.ofLine? ⟨number, front.length, Text.dropReturn raw⟩ <;> rfl
  | cons next below ih =>
    have hfront : front ++ (raw ++ Text.below (next :: below)) =
        (front ++ raw ++ ['\n']) ++ (next ++ Text.below below) := by simp
    have hstart : front.length + raw.length + 1 = (front ++ raw ++ ['\n']).length := by
      simp [Nat.add_assoc]
    rw [ofLines, ← ih (number + 1) (front ++ raw ++ ['\n']), ← hfront, ofLine?,
      ← map_ofMark_append number front, SourceLine.place, hstart, List.filterMap_cons]
    cases Mark.ofLine? ⟨number, front.length, Text.dropReturn raw⟩ <;> rfl

/-- The lines of a text contribute one entry for each of its marks. -/
theorem ofLines_lines (src : Text) :
    ofLines 1 (Text.lines src) = (Mark.ofText src).map (ofMark src) := by
  obtain ⟨raw, below, hlines⟩ := List.exists_cons_of_ne_nil (Text.split_ne_nil '\n' src)
  have hplace := ofLines_of_place 1 [] raw below
  rw [List.nil_append, ← Text.eq_append_below hlines, ← hlines] at hplace
  exact hplace.symm

theorem closers_ofLines_lines (src : Text) :
    ((ofLines 1 (Text.lines src)).map mark).filterMap Mark.closer? = closingLines src := by
  rw [ofLines_lines, List.map_map, mark_comp_ofMark, filterMap_withoutOffset _ fun _ => rfl]
  rfl

end Entry

/-- A skeleton is made from what the lines of the text contribute. -/
theorem Skeleton.ofSource_eq_ofEntries (rootType path src : Text) :
    ofSource rootType path src = ofEntries rootType path (Entry.ofLines 1 (Text.lines src)) := by
  rw [ofSource_eq_ofMarks, Entry.ofLines_lines]

theorem Header.length_le_of_ofTrimmed? {t : Text} {h : Header} (heq : ofTrimmed? t = some h) :
    h.length ≤ t.length := by
  obtain ⟨header, rest, hspells, rfl⟩ := exists_spells heq
  rw [hspells.length_eq, List.length_append]
  exact Nat.le_add_right ..

theorem Opener.headerEnd_le {l : SourceLine} {o : Opener} (h : ofLine? l = some o) :
    o.headerEnd ≤ l.start + l.text.length := by
  obtain ⟨header, hheader, rfl⟩ := Option.map_eq_some_iff.mp h
  have hlength := Header.length_le_of_ofTrimmed? hheader
  have htrim : l.trimmed.length ≤ (l.text.dropWhile Text.isSpace).length :=
    (List.rdropWhile_prefix Text.isSpace _).length_le
  have hsplit := congrArg List.length
    (List.takeWhile_append_dropWhile (p := Text.isSpace) (l := l.text))
  rw [List.length_append] at hsplit
  simp only [SourceLine.contentStart]
  omega

theorem Mark.ofLine?_eq_opener {l : SourceLine} {o : Opener} (h : ofLine? l = some (.opener o)) :
    Opener.ofLine? l = some o := by
  unfold ofLine? at h
  split_ifs at h
  · cases h
  rcases Option.or_eq_some_iff.mp h with h | ⟨-, h⟩
  · obtain ⟨x, -, hx⟩ := Option.map_eq_some_iff.mp h
    cases hx
  rcases Option.or_eq_some_iff.mp h with h | ⟨-, h⟩
  · obtain ⟨x, -, hx⟩ := Option.map_eq_some_iff.mp h
    cases hx
  · obtain ⟨x, hx, hxo⟩ := Option.map_eq_some_iff.mp h
    cases hxo
    exact hx

end ObjcOutline
