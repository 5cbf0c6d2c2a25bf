import ObjcOutline.Proofs.OutlineHeaders
import ObjcOutline.Proofs.BlockExtent

/-!
# Protocol lists before instance variables

The instance variables of a block are looked for right after the header that was matched. The header
of a class takes in a protocol list, so the braces after the list are found. The header of a category
or of a class extension ends at its closing parenthesis. A protocol list after it is then not a part of
the header, and since it is neither blank nor a comment, the braces behind it are not found.
-/
namespace ObjcOutline

/-- The header `@interface name (category)`; a class extension has an empty category name. -/
def categoryHead (name category : Text) : Text :=
  '@' :: (Kind.interface.toText ++ ' ' :: (name ++ ' ' :: '(' :: (category ++ [')'])))

/-- The header `@interface name` or `@interface name : supertype`, before a protocol list. -/
def classHead (name : Text) (supertype : Option Text) : Text :=
  '@' :: (Kind.interface.toText ++ ' ' :: (name ++ superclause supertype))

def angledList (list : Text) : Text := ' ' :: '<' :: (list ++ ['>'])

/-- Instance variables in braces after a header, and what follows them. -/
def bracedBody (body tail : Text) : Text := ' ' :: '{' :: (body ++ '}' :: tail)

/-- The first block of a text: its line, what it is, its name and its variables. -/
def firstBlock? (rootType path src : Text) : Option (Int × Kind × Text × List Field) :=
  ((Skeleton.ofSource rootType path src).blocks[0]?).map fun b =>
    (b.startLine, b.kind, b.name, b.fields)

theorem Text.trimEnd_append {t : Text} (h : trimEnd t ≠ []) (s : Text) :
    trimEnd (s ++ t) = s ++ trimEnd t := by
  unfold trimEnd at h ⊢
  have hnonempty : (t.reverse.dropWhile isSpace).isEmpty = false := by simpa using h
  rw [List.reverse_append, List.dropWhile_append, hnonempty]
  simp

theorem Text.lines_append_of_not_mem {head : Text} (hhead : '\n' ∉ head) (rest : Text) :
    ∃ u ls, lines (head ++ rest) = (head ++ u) :: ls := by
  obtain ⟨u, ls, hlines⟩ := List.exists_cons_of_ne_nil (split_ne_nil '\n' rest)
  have hrest : rest = u ++ below ls := eq_append_below hlines
  have hfree : ∀ l ∈ u :: ls, '\n' ∉ l := fun l hl => not_mem_of_mem_lines (hlines ▸ hl)
  rw [List.forall_mem_cons] at hfree
  refine ⟨u, ls, ?_⟩
  rw [hrest, ← List.append_assoc, lines_append_below (by simp [hhead, hfree.1]) hfree.2]

section Head
variable {head : Text} {h : Header} {c : Char} (hat : ∃ t, head = '@' :: 'i' :: t)
  (hspace : Text.isSpace c = false)
  (hheader : ∀ u, Header.ofTrimmed? (head ++ ' ' :: c :: u) = some h)
include hat hspace hheader

/-- A line on which only a space and `c` decide where the header ends. -/
theorem Mark.ofLine?_head (u : Text) :
    ofLine? ⟨1, 0, head ++ ' ' :: c :: u⟩ = some (.opener ⟨h, 1, h.length⟩) := by
  have htrim : SourceLine.trimmed ⟨1, 0, head ++ ' ' :: c :: u⟩ =
      head ++ ' ' :: c :: Text.trimEnd u := by
    have hend : Text.trimEnd ((head ++ [' ']) ++ c :: u) = (head ++ [' ']) ++ c :: Text.trimEnd u := by
      rw [Text.trimEnd_append (by simp [Text.trimEnd_cons hspace]), Text.trimEnd_cons hspace]
    obtain ⟨t, rfl⟩ := hat
    have hstart : Text.trimStart ('@' :: 'i' :: t ++ ' ' :: c :: u) =
        '@' :: 'i' :: t ++ ' ' :: c :: u := rfl
    rw [SourceLine.trimmed, Text.trim, hstart]
    simpa using hend
  have hopener : Opener.ofLine? ⟨1, 0, head ++ ' ' :: c :: u⟩ = some ⟨h, 1, h.length⟩ := by
    have hstart : SourceLine.contentStart ⟨1, 0, head ++ ' ' :: c :: u⟩ = 0 := by
      obtain ⟨t, rfl⟩ := hat
      rfl
    rw [Opener.ofLine?, htrim, hheader, Option.map_some, hstart, Nat.zero_add]
    rfl
  obtain ⟨t, rfl⟩ := hat
  have hline := ofLine?_at Text.IsIndent.nil 1 0 (c := 'i') (by decide) (by decide)
    (t ++ ' ' :: c :: u)
  have hproperty : Property.ofLine? 1 ('@' :: 'i' :: (t ++ ' ' :: c :: u)) = none := rfl
  rw [List.nil_append] at hline
  rw [List.cons_append, List.cons_append] at hopener ⊢
  rw [hline, hopener]
  rfl

theorem getElem?_openers_zero (hhead : '\n' ∉ head) (hline : c ≠ '\n') (rest : Text) :
    (openers (head ++ ' ' :: c :: rest))[0]? = some ⟨h, 1, h.length⟩ := by
  have hfree : '\n' ∉ head ++ [' ', c] := by simp [hhead, hline.symm]
  obtain ⟨u, ls, hlines⟩ := Text.lines_append_of_not_mem hfree rest
  have hmark := Mark.ofLine?_dropReturn 1 ((head ++ [' ', c]) ++ u)
  have hread := Mark.ofLine?_head hat hspace hheader u
  simp only [List.append_assoc, List.cons_append, List.nil_append] at hlines hmark
  rw [hread] at hmark
  have hfirst : SourceLine.ofText (head ++ ' ' :: c :: rest) =
      ⟨1, 0, Text.dropReturn (head ++ ' ' :: c :: u)⟩ ::
        SourceLine.place 2 (0 + (head ++ ' ' :: c :: u).length + 1) ls := by
    rw [SourceLine.ofText, hlines]
    rfl
  rw [openers, Mark.ofText, hfirst, List.filterMap_cons_some hmark]
  rfl

theorem firstBlock?_head (hhead : '\n' ∉ head) (hline : c ≠ '\n') (hlength : h.length = head.length)
    (hkind : h.kind ≠ .protocol) (rootType path rest : Text) :
    firstBlock? rootType path (head ++ ' ' :: c :: rest) =
      some (1, h.kind, h.name, (fieldBody? (' ' :: c :: rest)).elim [] Field.ofBody) := by
  have hopener := getElem?_openers_zero hat hspace hheader hhead hline rest
  have hfields : Block.fieldsOf (head ++ ' ' :: c :: rest) ⟨h, 1, h.length⟩ =
      (fieldBody? (' ' :: c :: rest)).elim [] Field.ofBody := by
    have hdrop : (head ++ ' ' :: c :: rest).drop h.length = ' ' :: c :: rest := by
      rw [hlength, List.drop_left]
    rw [Block.fieldsOf, if_neg hkind, hdrop]
    cases fieldBody? (' ' :: c :: rest) <;> rfl
  rw [firstBlock?, getElem?_blocks, Block.bare, List.getElem?_map, hopener, ← hfields]
  rfl

end Head

theorem fieldBody?_bracedBody {body : Text} (hbody : '}' ∉ body) (tail : Text) :
    fieldBody? (bracedBody body tail) = some body := by
  refine fieldBody?_eq_some_iff.mpr ⟨[' '], tail, .blank rfl .nil, ?_, hbody⟩
  simp [bracedBody]

/-- Braces right after the header of the first block hold its variables. -/
theorem firstBlock?_bracedBody {head : Text} {h : Header} (hat : ∃ t, head = '@' :: 'i' :: t)
    (hheader : ∀ u, Header.ofTrimmed? (head ++ ' ' :: '{' :: u) = some h) (hhead : '\n' ∉ head)
    (hlength : h.length = head.length) (hkind : h.kind ≠ .protocol) {body : Text}
    (hbody : '}' ∉ body) (rootType path tail : Text) :
    firstBlock? rootType path (head ++ bracedBody body tail) =
      some (1, h.kind, h.name, Field.ofBody body) := by
  have hblock := firstBlock?_head hat (by decide) hheader hhead (by decide) hlength hkind rootType
    path (body ++ '}' :: tail)
  have hfound : fieldBody? (' ' :: '{' :: (body ++ '}' :: tail)) = some body :=
    fieldBody?_bracedBody hbody tail
  rw [hfound] at hblock
  exact hblock

namespace Header

theorem angled?_angledList {list : Text} (hclose : '>' ∉ list) (rest : Text) :
    angled? (angledList list ++ rest) = some (list, rest) := by
  have hlist : angledList list ++ rest = ' ' :: '<' :: (list ++ '>' :: rest) := by
    simp [angledList]
  rw [hlist, angled?_append hclose]

/-- Angle brackets before a brace are not type parameters. -/
theorem supertype?_angledList {list : Text} (hclose : '>' ∉ list) (u : Text) :
    supertype? (angledList list ++ ' ' :: '{' :: u) = none := by
  have hskip : Text.skipBlanks (' ' :: '{' :: u) = '{' :: u := rfl
  unfold supertype?
  simp only [angled?_angledList hclose, hskip]
  rfl

theorem protocolsOf_angledList {list : Text} (hne : list ≠ []) (hclose : '>' ∉ list) (rest : Text) :
    protocolsOf (angledList list ++ rest) = (listedNames list, rest) := by
  unfold protocolsOf
  rw [angled?_angledList hclose]
  cases list with
  | nil => exact absurd rfl hne
  | cons c list => rfl

variable {name : Text} (hname : Text.IsWord name)
include hname

theorem ofTrimmed?_categoryHead {category : Text} (hclose : ')' ∉ category) (tail : Text) :
    ofTrimmed? (categoryHead name category ++ tail) =
      some { kind := .category, keyword := .interface, name, category := Text.trim category,
             length := (categoryHead name category).length } := by
  have hhead : categoryHead name category ++ tail = '@' :: (Kind.interface.toText ++ ' ' ::
      (name ++ ' ' :: '(' :: (category ++ ')' :: tail))) := by simp [categoryHead]
  rw [hhead, ofTrimmed?_category (.inl rfl) hname hclose]
  simp only [categoryHead, List.length_cons, List.length_append, List.length_nil,
    Option.some.injEq, Header.mk.injEq, true_and]
  omega

variable {supertype : Option Text} (hsuper : ∀ word ∈ supertype, Text.IsWord word)
include hsuper

theorem ofTrimmed?_classHead (u : Text) :
    ofTrimmed? (classHead name supertype ++ ' ' :: '{' :: u) =
      some { kind := .interface, keyword := .interface, name, supertype,
             length := (classHead name supertype).length } := by
  have hafter : Text.StartsOutside Text.isWordChar (' ' :: '{' :: u) :=
    Text.startsOutside_cons.mpr (by decide)
  have hprotocols : protocolsOf (' ' :: '{' :: u) = ([], ' ' :: '{' :: u) := rfl
  have hheader := ofTrimmed?_class hname hsuper hafter (fun _ => ⟨rfl, rfl⟩) hprotocols
  have hhead : classHead name supertype ++ ' ' :: '{' :: u = '@' :: (Kind.interface.toText ++ ' ' ::
      (name ++ (superclause supertype ++ ' ' :: '{' :: u))) := by simp [classHead]
  rw [hhead, hheader]
  simp only [classHead, List.length_cons, List.length_append, Kind.toText, List.length_nil,
    Option.some.injEq, Header.mk.injEq, true_and]
  omega

theorem ofTrimmed?_classHead_angledList {list : Text} (hne : list ≠ []) (hclose : '>' ∉ list)
    (u : Text) :
    ofTrimmed? (classHead name supertype ++ angledList list ++ ' ' :: '{' :: u) =
      some { kind := .interface, keyword := .interface, name, supertype,
             protocols := listedNames list,
             length := (classHead name supertype ++ angledList list).length } := by
  have hafter : Text.StartsOutside Text.isWordChar (angledList list ++ ' ' :: '{' :: u) :=
    Text.startsOutside_cons.mpr (by decide)
  have hheader := ofTrimmed?_class hname hsuper hafter
    (fun _ => ⟨rfl, supertype?_angledList hclose u⟩)
    (protocolsOf_angledList hne hclose (' ' :: '{' :: u))
  have hhead : classHead name supertype ++ angledList list ++ ' ' :: '{' :: u =
      '@' :: (Kind.interface.toText ++ ' ' ::
        (name ++ (superclause supertype ++ (angledList list ++ ' ' :: '{' :: u)))) := by
    simp [classHead]
  rw [hhead, hheader]
  simp only [classHead, List.length_cons, List.length_append, Kind.toText, List.length_nil,
    Option.some.injEq, Header.mk.injEq, true_and]
  omega

end Header

theorem Field.ofBody_eq_nil_iff {body : Text} :
    ofBody body = [] ↔ ∀ line ∈ Text.lines body, ofLine? line = none :=
  List.filterMap_eq_nil_iff

/-- A protocol list between the header of a category and its braces takes all variables from the
category, whatever stands in the list, in the braces and after them. Between the header of a class and
its braces it takes none. -/
theorem variables_after_protocol_list (rootType path : Text) {name category list body : Text}
    (tail : Text) (hname : Text.IsWord name) (hcategory : ')' ∉ category ∧ '\n' ∉ category)
    (hlist : list ≠ [] ∧ '>' ∉ list ∧ '\n' ∉ list) (hbody : '}' ∉ body) :
    let withList := firstBlock? rootType path
      (categoryHead name category ++ angledList list ++ bracedBody body tail)
    let without := firstBlock? rootType path (categoryHead name category ++ bracedBody body tail)
    withList = some (1, .category, name, []) ∧
      without = some (1, .category, name, Field.ofBody body) ∧
      (withList = without ↔ ∀ line ∈ Text.lines body, Field.ofLine? line = none) ∧
      ∀ supertype, (∀ word ∈ supertype, Text.IsWord word) →
        firstBlock? rootType path
            (classHead name supertype ++ angledList list ++ bracedBody body tail) =
          some (1, .interface, name, Field.ofBody body) ∧
        firstBlock? rootType path (classHead name supertype ++ bracedBody body tail) =
          some (1, .interface, name, Field.ofBody body) := by
  intro withList without
  have hfeed := hname.not_mem
  have hcategoryHead := Header.ofTrimmed?_categoryHead hname hcategory.1
  have hhead : '\n' ∉ categoryHead name category := by
    simp [categoryHead, Kind.toText, hfeed, hcategory.2]
  have hat : ∃ t, categoryHead name category = '@' :: 'i' :: t := ⟨_, rfl⟩
  have hwith : withList = some (1, .category, name, []) := by
    have hblock := firstBlock?_head hat (by decide) (fun u => hcategoryHead (' ' :: '<' :: u))
      hhead (by decide) rfl (by simp) rootType path (list ++ '>' :: bracedBody body tail)
    have hsrc : categoryHead name category ++ angledList list ++ bracedBody body tail =
        categoryHead name category ++ ' ' :: '<' :: (list ++ '>' :: bracedBody body tail) := by
      simp [angledList]
    simp only [withList]
    rw [hsrc, hblock]
    rfl
  have hwithout : without = some (1, .category, name, Field.ofBody body) :=
    firstBlock?_bracedBody hat (fun u => hcategoryHead (' ' :: '{' :: u)) hhead rfl (by simp)
      hbody rootType path tail
  refine ⟨hwith, hwithout, ?_, fun supertype hsuper => ?_⟩
  · rw [hwith, hwithout, ← Field.ofBody_eq_nil_iff, eq_comm]
    simp
  · have hclass : '\n' ∉ classHead name supertype := by
      cases supertype with
      | none => simp [classHead, superclause, Kind.toText, hfeed]
      | some word => simp [classHead, superclause, Kind.toText, hfeed, (hsuper word rfl).not_mem]
    have hclassList : '\n' ∉ classHead name supertype ++ angledList list := by
      simp [angledList, hclass, hlist.2.2]
    constructor
    · exact firstBlock?_bracedBody ⟨_, rfl⟩
        (Header.ofTrimmed?_classHead_angledList hname hsuper hlist.1 hlist.2.1) hclassList rfl
        (by simp) hbody rootType path tail
    · exact firstBlock?_bracedBody ⟨_, rfl⟩ (Header.ofTrimmed?_classHead hname hsuper) hclass rfl
        (by simp) hbody rootType path tail

/-- A class extension with a protocol list, and a class with the same one. -/
theorem variables_after_protocol_list_of_extension :
    let name : Text := "N"
    let list : Text := " P, Q"
    let body : Text := "\n  int x; // \x7b\n  NSString *y;\n"
    let fields : List Field := [⟨"int", "x"⟩, ⟨"NSString *", "y"⟩]
    firstBlock? [] "A.m" (categoryHead name [] ++ angledList list ++ bracedBody body "\n@end") =
        some (1, Kind.category, name, []) ∧
      firstBlock? [] "A.m" (classHead name none ++ angledList list ++ bracedBody body "\n@end") =
        some (1, Kind.interface, name, fields) := by
  intro name list body fields
  have hname : Text.IsWord name := by decide
  have hcategory : ')' ∉ ([] : Text) ∧ '\n' ∉ ([] : Text) := by decide
  have hlist : list ≠ [] ∧ '>' ∉ list ∧ '\n' ∉ list := by decide
  have hbody : '}' ∉ body := by decide
  obtain ⟨hextension, -, -, hclass⟩ :=
    variables_after_protocol_list [] "A.m" "\n@end" hname hcategory hlist hbody
  have hfields : Field.ofBody body = fields := by decide +kernel
  rw [hfields] at hclass
  exact ⟨hextension, (hclass none (by simp)).1⟩

/-- The same category with and without a protocol list. -/
theorem variables_lost_after_protocol_list :
    let name : Text := "N"
    let fields : List Field := [⟨"int", "x"⟩]
    firstBlock? [] "A.m" "@interface N (C) <P> \x7b\n  int x;\n\x7d\n@end" =
        some (1, Kind.category, name, []) ∧
      firstBlock? [] "A.m" "@interface N (C) \x7b\n  int x;\n\x7d\n@end" =
        some (1, Kind.category, name, fields) := by
  decide +kernel

end ObjcOutline
