import ObjcOutline.Proofs.Loosening
import ObjcOutline.Proofs.Ownership
import Mathlib

/-!
# Adding a line that declares nothing

A blank line or a line comment is added between two lines of a text, or at one of its ends. It gives
no entry, and the lines around it give the entries that they gave before; only the numbers of the
lines below it grow by one. Such a change of numbers keeps their order. A block then still ends at
the first closing line after its opening line, and it still contains the declarations it contained,
so the skeleton of the new text is that of the old text with the new numbers.
-/
namespace ObjcOutline

open Text

/-- The same method on the line that `f` gives to its line. -/
def Method.renumber (f : Int → Int) (m : Method) : Method := { m with line := f m.line }

def Property.renumber (f : Int → Int) (p : Property) : Property := { p with line := f p.line }

def Mark.renumber (f : Int → Int) : Mark → Mark
  | closer line => closer (f line)
  | method m => method (m.renumber f)
  | property p => property (p.renumber f)
  | opener o => opener { o with line := f o.line }

def Entry.renumber (f : Int → Int) (e : Entry) : Entry := { e with mark := e.mark.renumber f }

def Block.renumber (f : Int → Int) (b : Block) : Block :=
  { b with
    startLine := f b.startLine
    endLine := f b.endLine
    properties := b.properties.map (Property.renumber f)
    methods := b.methods.map (Method.renumber f) }

def Skeleton.renumber (f : Int → Int) (s : Skeleton) : Skeleton :=
  { s with
    blocks := s.blocks.map (Block.renumber f)
    methods := s.methods.map (Method.renumber f)
    properties := s.properties.map (Property.renumber f) }

/-- What is selected from renumbered marks. -/
theorem Entry.filterMap_renumber {α : Type} {f : Int → Int} {form : Mark → Option α}
    {move : α → α} (h : ∀ m : Mark, form (m.renumber f) = (form m).map move)
    (entries : List Entry) :
    ((entries.map (renumber f)).map mark).filterMap form =
      ((entries.map mark).filterMap form).map move := by
  rw [List.map_map, List.filterMap_map, List.filterMap_map, List.map_filterMap]
  congr 1
  funext e
  exact h e.mark

section Increasing
variable {f : Int → Int} (hf : StrictMono f)
include hf

namespace Block

theorem endLineOf_map {closers : List Int} (sorted : closers.Pairwise (· < ·)) (start : Int) :
    endLineOf (closers.map f).toArray (f start) = f (endLineOf closers.toArray start) := by
  have hsorted : (closers.map f).Pairwise (· < ·) :=
    List.pairwise_map.mpr (sorted.imp fun hlt => hf hlt)
  have hlater : (fun c => decide (f start < c)) ∘ f = fun c => decide (start < c) := by
    funext c
    exact decide_eq_decide.mpr hf.lt_iff_lt
  rw [endLineOf_eq_find hsorted, endLineOf_eq_find sorted, List.find?_map, hlater]
  cases closers.find? fun c => decide (start < c) <;> rfl

theorem owner?_renumber (blocks : List Block) (line : Int) :
    owner? (blocks.map (renumber f)) (f line) = owner? blocks line := by
  apply owner?_map
  intro b _
  simp only [contains, renumber, hf.lt_iff_lt]

theorem ownedAt_renumber {α : Type} {line : α → Int} {move : α → α}
    (hmove : ∀ x, line (move x) = f (line x)) (blocks : List Block) (members : List α) (i : Nat) :
    ownedAt i (owners (blocks.map (renumber f)) line (members.map move)) =
      (ownedAt i (owners blocks line members)).map move := by
  rw [ownedAt_owners, ownedAt_owners, List.filter_map]
  congr 1
  apply List.filter_congr
  intro x _
  rw [Function.comp_apply, hmove, owner?_renumber hf]

theorem assign_renumber (blocks : List Block) (properties : List Property)
    (methods : List Method) :
    assign (blocks.map (renumber f)) (properties.map (Property.renumber f))
        (methods.map (Method.renumber f)) =
      (assign blocks properties methods).map (renumber f) := by
  have hproperties (i : Nat) := ownedAt_renumber hf
    (show ∀ p : Property, (p.renumber f).line = f p.line from fun _ => rfl) blocks properties i
  have hmethods (i : Nat) := ownedAt_renumber hf
    (show ∀ m : Method, (m.renumber f).line = f m.line from fun _ => rfl) blocks methods i
  apply List.ext_getElem?
  intro i
  simp only [assign, List.getElem?_map, List.getElem?_mapIdx, Option.map_map, hproperties, hmethods]
  rfl

end Block

theorem Entry.block?_renumber (rootType : Text) {closers : List Int}
    (sorted : closers.Pairwise (· < ·)) (e : Entry) :
    (e.renumber f).block? rootType (closers.map f).toArray =
      (e.block? rootType closers.toArray).map (Block.renumber f) := by
  obtain ⟨m, fields⟩ := e
  cases m with
  | opener o =>
    have hend := Block.endLineOf_map hf sorted o.line
    simp only [renumber, Mark.renumber, block?, Mark.opener?, Option.map_some, Block.ofOpener, hend]
    rfl
  | closer line => rfl
  | method x => rfl
  | property x => rfl

theorem Entry.filterMap_block?_renumber (rootType : Text) {closers : List Int}
    (sorted : closers.Pairwise (· < ·)) (entries : List Entry) :
    (entries.map (renumber f)).filterMap (block? rootType (closers.map f).toArray) =
      (entries.filterMap (block? rootType closers.toArray)).map (Block.renumber f) := by
  rw [List.filterMap_map, List.map_filterMap]
  congr 1
  funext e
  exact block?_renumber hf rootType sorted e

/-- Entries with new line numbers in the same order make the skeleton with the new numbers. -/
theorem Skeleton.ofEntries_renumber (rootType path : Text) {entries : List Entry}
    (sorted : ((entries.map Entry.mark).filterMap Mark.closer?).Pairwise (· < ·)) :
    ofEntries rootType path (entries.map (Entry.renumber f)) =
      (ofEntries rootType path entries).renumber f := by
  have hclosers := Entry.filterMap_renumber (f := f)
    (show ∀ m : Mark, (m.renumber f).closer? = m.closer?.map f by rintro ⟨⟩ <;> rfl) entries
  have hmethods := Entry.filterMap_renumber
    (show ∀ m : Mark, (m.renumber f).method? = m.method?.map (Method.renumber f) by
      rintro ⟨⟩ <;> rfl) entries
  have hproperties := Entry.filterMap_renumber
    (show ∀ m : Mark, (m.renumber f).property? = m.property?.map (Property.renumber f) by
      rintro ⟨⟩ <;> rfl) entries
  unfold ofEntries
  simp only [hclosers, hmethods, hproperties, Entry.filterMap_block?_renumber hf _ sorted,
    Block.assign_renumber hf]
  rfl

end Increasing

/-- The new number of a line when one line is added below the first `k` lines. -/
def insertedAt (k : Nat) (line : Int) : Int := if k < line then line + 1 else line

/-- The text with one more line below its first `k` lines. -/
def Text.insertLine (src : Text) (k : Nat) (line : Text) : Text :=
  join ['\n'] ((lines src).insertIdx k line)

example : Text.insertLine "a\nb" 1 "//" = "a\n//\nb".toList := by decide

theorem strictMono_insertedAt (k : Nat) : StrictMono (insertedAt k) := by
  intro a b hlt
  unfold insertedAt
  split_ifs <;> omega

theorem Text.Loosened.insertIdx {added : Text} (h : IsFiller added) (k : Nat) (ls : List Text) :
    Loosened ls (ls.insertIdx k added) := by
  induction k generalizing ls with
  | zero => exact .filler h (.refl ls)
  | succ k ih =>
    cases ls with
    | nil => exact .nil
    | cons l ls => exact .line (.refl l) (ih ls)

theorem Text.join_cons_eq_below (l : Text) (ls : List Text) :
    join ['\n'] (l :: ls) = l ++ below ls := by
  induction ls generalizing l with
  | nil => simp [join]
  | cons m ls ih =>
    have hjoin : join ['\n'] (l :: m :: ls) = l ++ '\n' :: join ['\n'] (m :: ls) := by
      simp [join, List.intercalate_cons_cons]
    rw [hjoin, ih, below_cons]

theorem Text.lines_insertLine (src : Text) (k : Nat) {added : Text} (h : IsFiller added) :
    lines (src.insertLine k added) = (lines src).insertIdx k added := by
  have hfeed := (Loosened.insertIdx h k (lines src)).not_mem fun _ => not_mem_of_mem_lines
  obtain ⟨l, ls, heq⟩ : ∃ l ls, (lines src).insertIdx k added = l :: ls := by
    apply List.exists_cons_of_ne_nil
    intro hnil
    have hlength := List.length_le_length_insertIdx (l := lines src) (i := k) (x := added)
    rw [hnil, List.length_nil, Nat.le_zero, List.length_eq_zero_iff] at hlength
    exact split_ne_nil '\n' src hlength
  rw [heq, List.forall_mem_cons] at hfeed
  rw [insertLine, heq, join_cons_eq_below, lines_append_below hfeed.1 hfeed.2]

namespace Entry
variable {f : Int → Int}

theorem renumber_ofMark_shift {number other : Nat} (h : f number = other) (src : Text) {m : Mark}
    (hm : m.line = 0) :
    (ofMark src (m.shift number 0)).renumber f = ofMark src (m.shift other 0) := by
  have hline : f (m.line + number) = m.line + other := by rw [hm, Int.zero_add, Int.zero_add, h]
  cases m with
  | opener o =>
    rw [Mark.line] at hline
    simp only [ofMark, Mark.shift, Opener.shift, Mark.withoutOffset, renumber, Mark.renumber, hline]
    rfl
  | closer line => exact congrArg (fun n => Entry.mk (.closer n) []) hline
  | method x => exact congrArg (fun n => Entry.mk (.method { x with line := n }) []) hline
  | property x => exact congrArg (fun n => Entry.mk (.property { x with line := n }) []) hline

/-- A line that gets another number gives its entry with that number. -/
theorem map_renumber_ofLine? {number other : Nat} (h : f number = other) (raw : Text)
    (below : List Text) :
    (ofLine? number raw below).map (renumber f) = ofLine? other raw below := by
  have hplace (i : Nat) : ofLine? i raw below =
      (Mark.ofLine? ⟨0, 0, dropReturn raw⟩).map fun m =>
        ofMark (raw ++ Text.below below) (m.shift i 0) := by
    have hshift := Mark.ofLine?_shift i 0 ⟨0, 0, dropReturn raw⟩
    simp only [SourceLine.shift, Nat.zero_add] at hshift
    rw [ofLine?, hshift, Option.map_map]
    rfl
  rw [hplace, hplace, Option.map_map]
  apply Option.map_congr
  intro m hm
  exact renumber_ofMark_shift h _ (Mark.line_of_ofLine? hm)

theorem map_renumber_ofLines {number : Nat} (h : ∀ i : Nat, number ≤ i → f i = i + 1)
    (ls : List Text) : (ofLines number ls).map (renumber f) = ofLines (number + 1) ls := by
  induction ls generalizing number with
  | nil => rfl
  | cons raw below ih =>
    have hfirst : (ofLine? number raw below).map (renumber f) = ofLine? (number + 1) raw below :=
      map_renumber_ofLine? (h number (Nat.le_refl number)) raw below
    have hbelow := ih fun i hi => h i (Nat.le_of_succ_le hi)
    rw [ofLines, ofLines, List.map_append, hbelow, ← hfirst, Option.toList_map]

theorem ofLines_insertIdx {added : Text} (h : IsFiller added) (k number : Nat) {ls : List Text}
    (hls : ∀ l ∈ ls, '\n' ∉ l) :
    ofLines (number + 1) (ls.insertIdx k added) =
      (ofLines (number + 1) ls).map (renumber (insertedAt (number + k))) := by
  induction k generalizing number ls with
  | zero =>
    rw [List.insertIdx_zero, ofLines, ofLine?_filler h, Option.toList_none, List.nil_append]
    symm
    apply map_renumber_ofLines
    intro i hi
    rw [insertedAt, if_pos (by omega)]
  | succ k ih =>
    cases ls with
    | nil => rfl
    | cons raw ls =>
      rw [List.forall_mem_cons] at hls
      have hpos : number + (k + 1) = number + 1 + k := by omega
      have hsame : insertedAt (number + 1 + k) (number + 1 : Nat) = (number + 1 : Nat) :=
        if_neg (by omega)
      rw [List.insertIdx_succ_cons, ofLines, ofLines, List.map_append, ← Option.toList_map, hpos,
        map_renumber_ofLine? hsame, ih (number + 1) hls.2,
        ofLine?_loosened (.refl raw) (.insertIdx h k ls) hls.1 hls.2]

end Entry

/-- Adding a blank line or a comment only moves the lines below it down. -/
theorem ofSource_insertLine (rootType path src : Text) (k : Nat) {line : Text}
    (h : IsFiller line) :
    Skeleton.ofSource rootType path (src.insertLine k line) =
      (Skeleton.ofSource rootType path src).renumber (insertedAt k) := by
  have sorted : (((Entry.ofLines 1 (lines src)).map Entry.mark).filterMap Mark.closer?).Pairwise
      (· < ·) := by
    rw [Entry.closers_ofLines_lines]
    exact closingLines_pairwise src
  have hfeed : ∀ l ∈ lines src, '\n' ∉ l := fun _ => not_mem_of_mem_lines
  have hentries := Entry.ofLines_insertIdx h k 0 hfeed
  rw [Nat.zero_add, Nat.zero_add] at hentries
  rw [Skeleton.ofSource_eq_ofEntries, Skeleton.ofSource_eq_ofEntries, lines_insertLine src k h,
    hentries, Skeleton.ofEntries_renumber (strictMono_insertedAt k) rootType path sorted]

/-- A comment in the braces of an interface, which would declare a variable if it were none. -/
theorem ofSource_insertLine_in_braces :
    IsFiller (['\t'] ++ '/' :: '/' :: ['i', 'd', ' ', 'y', ';']) ∧
      Skeleton.ofSource [] "A.m"
          (Text.insertLine "@interface A\n\x7b\n\tint x;\n\x7d\n- (id)f;\n@end" 2 "\t//id y;") =
        (Skeleton.ofSource [] "A.m"
          "@interface A\n\x7b\n\tint x;\n\x7d\n- (id)f;\n@end").renumber (insertedAt 2) := by
  have hstar : '*' ∉ ['/', '/', 'i', 'd', ' ', 'y', ';'] := by decide
  have hfiller : IsFiller (['\t'] ++ '/' :: '/' :: ['i', 'd', ' ', 'y', ';']) :=
    .comment (by decide) (by decide) (by decide) fun hend => hstar (hend.subset (by decide))
  exact ⟨hfiller, ofSource_insertLine [] "A.m" _ 2 hfiller⟩

end ObjcOutline
