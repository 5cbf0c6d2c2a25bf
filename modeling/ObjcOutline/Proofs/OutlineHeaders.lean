import ObjcOutline.Proofs.OutlineLines

/-!
# Reading the header of a block in an outline

The opening line of a printed block is read as a header with the same parts, whatever kind of block
it is. Each kind is tried in the order of the patterns, so a kind is also shown not to be taken for an
earlier one. A protocol list is taken apart at the commas that the outline puts between its entries;
the entries themselves hold neither commas nor closing brackets. A category keeps the word that is
printed before its name, and one without a name gets one.
-/
namespace ObjcOutline
open Outline

/-- What may stand after the header on its line: nothing, or the brace that opens the variables. -/
def IsHeaderTail (tail : Text) : Prop := tail = [] ∨ tail = [' ', '{']

/-- The protocol list that the outline prints after a supertype. -/
def protocolList (ps : List Text) : Text :=
  if ps.isEmpty then [] else ' ' :: '<' :: (Text.join ", " ps ++ ['>'])

/-- The part of a class header that names a supertype, where one is written. -/
def superclause : Option Text → Text
  | none => []
  | some word => ' ' :: ':' :: ' ' :: word

/-- The name that the outline gives a category. -/
def shownCategory (category : Text) : Text := if category.isEmpty then "anonymous" else category

/-- What the outline prints in the parentheses of a category. -/
def printedCategory (b : Block) : Text :=
  if b.kind = .category then "Category: " ++ shownCategory b.category else []

/-- The header that the opening line of a block in the outline is read as. -/
def printedHeader (b : Block) : Header where
  kind := b.kind
  keyword := b.keyword
  name := b.name
  supertype := if b.kind = .interface then some b.supertype else none
  protocols := b.protocols
  category := printedCategory b
  length := (headerLine b).length

namespace Header

theorem join_cons (p q : Text) (ps : List Text) :
    Text.join ", " (p :: q :: ps) = p ++ ',' :: ' ' :: Text.join ", " (q :: ps) := by
  simp [Text.join, List.intercalate_cons_cons]

theorem mem_join {c : Char} {ps : List Text} (h : c ∈ Text.join ", " ps) :
    c = ',' ∨ c = ' ' ∨ ∃ p ∈ ps, c ∈ p := by
  induction ps with
  | nil => cases h
  | cons p ps ih =>
    cases ps with
    | nil => exact .inr (.inr ⟨p, by simp, by simpa [Text.join] using h⟩)
    | cons q ps =>
      rw [join_cons] at h
      rcases List.mem_append.mp h with h | h
      · exact .inr (.inr ⟨p, by simp, h⟩)
      rcases List.mem_cons.mp h with h | h
      · exact .inl h
      rcases List.mem_cons.mp h with h | h
      · exact .inr (.inl h)
      rcases ih h with h | h | ⟨r, hr, hc⟩
      · exact .inl h
      · exact .inr (.inl h)
      · exact .inr (.inr ⟨r, List.mem_cons_of_mem _ hr, hc⟩)

/-- A joined protocol list is taken apart again. The blanks before it are those that follow a comma,
which the induction needs. -/
theorem listedNames_join (blanks : Text) (hblanks : ∀ c ∈ blanks, c = ' ') {ps : List Text}
    (hps : ∀ p ∈ ps, IsListedName p) : listedNames (blanks ++ Text.join ", " ps) = ps := by
  induction ps generalizing blanks with
  | nil =>
    have hspace : ∀ c ∈ blanks, Text.isSpace c = true := fun c hc => hblanks c hc ▸ rfl
    have hcomma : ',' ∉ blanks := fun hc => by cases hblanks _ hc
    have htrim : Text.trim blanks = [] := by
      simpa [Text.trim, Text.trimStart, Text.trimEnd] using
        Text.trim_append_of_isSpace hspace []
    simp [listedNames, Text.join, Text.split_of_not_mem hcomma, htrim]
  | cons p ps ih =>
    have hspace : ∀ c ∈ blanks, Text.isSpace c = true := fun c hc => hblanks c hc ▸ rfl
    have hcomma : ',' ∉ blanks := fun hc => by cases hblanks _ hc
    obtain ⟨hne, htrim, hfree, -⟩ := hps p (by simp)
    have hpiece : Text.trim (blanks ++ p) = p := by
      rw [Text.trim_append_of_isSpace hspace, htrim]
    have hsplit : Text.split ',' (blanks ++ p) = [blanks ++ p] :=
      Text.split_of_not_mem (by simp [hcomma, hfree])
    cases ps with
    | nil => simp [listedNames, Text.join, hsplit, hpiece, hne]
    | cons q ps =>
      have hrest : listedNames ([' '] ++ Text.join ", " (q :: ps)) = q :: ps :=
        ih [' '] (by simp) fun r hr => hps r (List.mem_cons_of_mem _ hr)
      rw [listedNames] at hrest ⊢
      rw [join_cons, ← List.append_assoc, Text.split_append, hsplit, List.map_append,
        List.filter_append]
      simpa [hpiece, hne] using hrest

theorem categoryOf?_eq_none (keyword : Kind) {name rest : Text} (hname : Text.IsWord name)
    (hrest : Text.StartsOutside Text.isWordChar rest) (hparen : parenthesised? rest = none) :
    categoryOf? keyword ('@' :: (keyword.toText ++ ' ' :: (name ++ rest))) = none := by
  rw [categoryOf?, name?_append _ hname hrest]
  simp only [hparen]

theorem ofTrimmed?_category {keyword : Kind}
    (hkeyword : keyword = .interface ∨ keyword = .implementation) {name category : Text}
    (hname : Text.IsWord name) (hclose : ')' ∉ category) (tail : Text) :
    ofTrimmed? ('@' :: (keyword.toText ++ ' ' ::
        (name ++ ' ' :: '(' :: (category ++ ')' :: tail)))) =
      some { kind := .category, keyword, name, category := Text.trim category,
             length := keyword.toText.length + name.length + category.length + 5 } := by
  have hrest : Text.StartsOutside Text.isWordChar
      (' ' :: '(' :: (category ++ ')' :: tail)) := Text.startsOutside_cons.mpr (by decide)
  have hheader : categoryOf? keyword ('@' :: (keyword.toText ++ ' ' ::
      (name ++ ' ' :: '(' :: (category ++ ')' :: tail)))) =
      some { kind := .category, keyword, name, category := Text.trim category,
             length := keyword.toText.length + name.length + category.length + 5 } := by
    rw [categoryOf?, name?_append _ hname hrest]
    simp only [parenthesised?_append hclose, Option.some.injEq, Header.mk.injEq, true_and]
    simp only [List.length_cons, List.length_append]
    omega
  rcases hkeyword with rfl | rfl
  · rw [ofTrimmed?, hheader, Option.some_or]
  · have hnone : categoryOf? .interface ('@' :: (Kind.implementation.toText ++ ' ' ::
        (name ++ ' ' :: '(' :: (category ++ ')' :: tail)))) = none := rfl
    rw [ofTrimmed?, hnone, Option.none_or, hheader, Option.some_or]

theorem supertype?_append {word : Text} (hword : Text.IsWord word) {rest : Text}
    (hrest : Text.StartsOutside Text.isWordChar rest) :
    supertype? (' ' :: ':' :: ' ' :: (word ++ rest)) = some (word, rest) := by
  have hangled : angled? (' ' :: ':' :: ' ' :: (word ++ rest)) = none := rfl
  have hskip : Text.skipBlanks (' ' :: ':' :: ' ' :: (word ++ rest)) = ':' :: ' ' :: (word ++ rest) :=
    rfl
  have hstart : Text.skipBlanks (' ' :: (word ++ rest)) = word ++ rest := by
    rw [Text.skipBlanks_cons_of_isBlank rfl, Text.skipBlanks_word hword]
  unfold supertype?
  simp only [hangled, hskip, hstart]
  exact Text.word?_append hword hrest

/-- The header of a class, with what is after its supertype, or after its name where no supertype is
written. -/
theorem ofTrimmed?_class {name : Text} (hname : Text.IsWord name) {supertype : Option Text}
    (hsuper : ∀ word ∈ supertype, Text.IsWord word) {after rest : Text} {protocols : List Text}
    (hafter : Text.StartsOutside Text.isWordChar after)
    (hbare : supertype = none → parenthesised? after = none ∧ supertype? after = none)
    (hprotocols : protocolsOf after = (protocols, rest)) :
    ofTrimmed? ('@' :: (Kind.interface.toText ++ ' ' ::
        (name ++ (superclause supertype ++ after)))) =
      some { kind := .interface, keyword := .interface, name, supertype, protocols,
             length := name.length + (superclause supertype).length + 11 + after.length -
               rest.length } := by
  have hrest : Text.StartsOutside Text.isWordChar (superclause supertype ++ after) := by
    cases supertype with
    | none => exact hafter
    | some word => exact Text.startsOutside_cons.mpr (by decide)
  have hparen : parenthesised? (superclause supertype ++ after) = none := by
    cases supertype with
    | none => exact (hbare rfl).1
    | some word => rfl
  have hcategory := categoryOf?_eq_none .interface hname hrest hparen
  have hother : categoryOf? .implementation ('@' :: (Kind.interface.toText ++ ' ' ::
      (name ++ (superclause supertype ++ after)))) = none := rfl
  rw [ofTrimmed?, hcategory, Option.none_or, hother, Option.none_or, interface?,
    name?_append _ hname hrest]
  cases supertype with
  | none =>
    have hsupertype : supertype? (superclause none ++ after) = none := (hbare rfl).2
    have hprotocols' : protocolsOf (superclause none ++ after) = (protocols, rest) := hprotocols
    simp only [hsupertype, hprotocols', Option.some_or, Option.some.injEq, Header.mk.injEq, true_and]
    simp only [superclause, List.length_cons, List.length_append, Kind.toText, List.length_nil]
    omega
  | some word =>
    have hsupertype : supertype? (superclause (some word) ++ after) = some (word, after) :=
      supertype?_append (hsuper word rfl) hafter
    simp only [hsupertype, hprotocols, Option.some_or, Option.some.injEq, Header.mk.injEq, true_and]
    simp only [superclause, List.length_cons, List.length_append, Kind.toText, List.length_nil]
    omega

section Tail
variable {tail : Text} (htail : IsHeaderTail tail) {name : Text} (hname : Text.IsWord name)
include htail

theorem startsOutside_tail : Text.StartsOutside Text.isWordChar tail := by
  rcases htail with rfl | rfl
  · simp
  · exact Text.startsOutside_cons.mpr (by decide)

theorem protocolsOf_protocolList {ps : List Text} (hps : ∀ p ∈ ps, IsListedName p) :
    protocolsOf (protocolList ps ++ tail) = (ps, tail) := by
  cases ps with
  | nil =>
    have hnone : angled? tail = none := by rcases htail with rfl | rfl <;> rfl
    simp only [protocolList, List.isEmpty_nil, if_true, List.nil_append, protocolsOf, hnone]
  | cons p ps =>
    have hclose : '>' ∉ Text.join ", " (p :: ps) := by
      intro hc
      rcases mem_join hc with h | h | ⟨q, hq, hc⟩
      · cases h
      · cases h
      · exact (hps q hq).free.2.1 hc
    have hlist : protocolList (p :: ps) ++ tail =
        ' ' :: '<' :: (Text.join ", " (p :: ps) ++ '>' :: tail) := by simp [protocolList]
    have hnames : listedNames (Text.join ", " (p :: ps)) = p :: ps :=
      listedNames_join [] (by simp) hps
    rw [hlist, protocolsOf, angled?_append hclose]
    cases hjoin : Text.join ", " (p :: ps) with
    | nil =>
      have hempty : listedNames [] = [] := rfl
      rw [hjoin, hempty] at hnames
      cases hnames
    | cons c r => simp only [← hjoin, hnames]

include hname

theorem ofTrimmed?_interface {supertype : Text} (hsuper : Text.IsWord supertype) {ps : List Text}
    (hps : ∀ p ∈ ps, IsListedName p) :
    ofTrimmed? ('@' :: (Kind.interface.toText ++ ' ' ::
        (name ++ ' ' :: ':' :: ' ' :: (supertype ++ (protocolList ps ++ tail))))) =
      some { kind := .interface, keyword := .interface, name, supertype := some supertype,
             protocols := ps,
             length := name.length + supertype.length + (protocolList ps).length + 14 } := by
  have hafter : Text.StartsOutside Text.isWordChar (protocolList ps ++ tail) := by
    cases ps with
    | nil => exact startsOutside_tail htail
    | cons p ps => exact Text.startsOutside_cons.mpr (by decide)
  have hword : ∀ word ∈ some supertype, Text.IsWord word := by simpa using hsuper
  have hheader := ofTrimmed?_class hname hword hafter (by simp) (protocolsOf_protocolList htail hps)
  refine hheader.trans ?_
  simp only [superclause, List.length_cons, List.length_append, Option.some.injEq,
    Header.mk.injEq, true_and]
  omega

theorem ofTrimmed?_implementation :
    ofTrimmed? ('@' :: (Kind.implementation.toText ++ ' ' :: (name ++ tail))) =
      some { kind := .implementation, keyword := .implementation, name,
             length := name.length + 16 } := by
  have hrest := startsOutside_tail htail
  have hparen : parenthesised? tail = none := by rcases htail with rfl | rfl <;> rfl
  have hcategory := categoryOf?_eq_none .implementation hname hrest hparen
  have hnone : categoryOf? .interface
      ('@' :: (Kind.implementation.toText ++ ' ' :: (name ++ tail))) = none := rfl
  have hinterface : interface?
      ('@' :: (Kind.implementation.toText ++ ' ' :: (name ++ tail))) = none := rfl
  rw [ofTrimmed?, hnone, Option.none_or, hcategory, Option.none_or, hinterface, Option.none_or,
    implementation?, name?_append _ hname hrest]
  simp only [Option.some_or, Option.some.injEq, Header.mk.injEq, true_and]
  simp only [List.length_cons, List.length_append, Kind.toText, List.length_nil]
  omega

theorem ofTrimmed?_protocol :
    ofTrimmed? ('@' :: (Kind.protocol.toText ++ ' ' :: (name ++ tail))) =
      some { kind := .protocol, keyword := .protocol, name, length := name.length + 10 } := by
  have hrest := startsOutside_tail htail
  have hforward : isForward tail = false := by rcases htail with rfl | rfl <;> rfl
  have hother : ofTrimmed? ('@' :: (Kind.protocol.toText ++ ' ' :: (name ++ tail))) =
      protocol? ('@' :: (Kind.protocol.toText ++ ' ' :: (name ++ tail))) := rfl
  rw [hother, protocol?, name?_append _ hname hrest]
  simp only [hforward, Bool.false_eq_true, if_false, Option.some.injEq, Header.mk.injEq, true_and]
  simp only [List.length_cons, List.length_append, Kind.toText, List.length_nil]
  omega

end Tail

end Header

section HeaderLine
variable {b : Block}

theorem headerLine_interface (h : b.kind = .interface) :
    headerLine b = '@' :: (Kind.interface.toText ++ ' ' ::
      (b.name ++ ' ' :: ':' :: ' ' :: (b.supertype ++ protocolList b.protocols))) := by
  unfold headerLine protocolList
  rw [h]
  cases b.protocols <;> simp [Kind.toText]

theorem headerLine_category (h : b.kind = .category) :
    headerLine b = '@' :: (b.keyword.toText ++ ' ' ::
      (b.name ++ ' ' :: '(' :: (printedCategory b ++ [')']))) := by
  unfold headerLine printedCategory shownCategory
  rw [h]
  cases b.category <;> simp

theorem headerLine_implementation (h : b.kind = .implementation) :
    headerLine b = '@' :: (Kind.implementation.toText ++ ' ' :: b.name) := by
  unfold headerLine
  rw [h]
  simp [Kind.toText]

theorem headerLine_protocol (h : b.kind = .protocol) :
    headerLine b = '@' :: (Kind.protocol.toText ++ ' ' :: b.name) := by
  unfold headerLine
  rw [h]
  simp [Kind.toText]

theorem printedCategory_of_ne (h : b.kind ≠ .category) : printedCategory b = [] := by
  rw [printedCategory, if_neg h]

theorem shownCategory_eq (category : Text) :
    shownCategory category = "anonymous" ∨
      (category ≠ [] ∧ shownCategory category = category) := by
  unfold shownCategory
  split_ifs with h
  · exact .inl rfl
  · exact .inr ⟨by simpa using h, rfl⟩

theorem not_mem_printedCategory {c : Char} (hc : c ∉ ("Category: anonymous" : Text))
    (h : c ∉ b.category) : c ∉ printedCategory b := by
  have hsplit : ("Category: anonymous" : Text) = ("Category: " : Text) ++ ("anonymous" : Text) := rfl
  rw [hsplit, List.mem_append, not_or] at hc
  unfold printedCategory
  split_ifs
  · rw [List.mem_append, not_or]
    refine ⟨hc.1, ?_⟩
    rcases shownCategory_eq b.category with heq | ⟨-, heq⟩
    · rw [heq]
      exact hc.2
    · rw [heq]
      exact h
  · exact List.not_mem_nil

theorem trim_printedCategory (h : Text.trim b.category = b.category) :
    Text.trim (printedCategory b) = printedCategory b := by
  unfold printedCategory
  split_ifs
  · have hshown : shownCategory b.category ≠ [] ∧
        Text.trim (shownCategory b.category) = shownCategory b.category := by
      rcases shownCategory_eq b.category with heq | ⟨hne, heq⟩
      · rw [heq]
        decide
      · rw [heq]
        exact ⟨hne, h⟩
    exact Text.trim_cons_append (by decide) "ategory: " hshown.1 hshown.2
  · rfl

variable {rootType : Text} (hb : b.WellFormed rootType)
include hb

theorem Block.WellFormed.protocols_eq_nil (h : b.kind ≠ .interface) : b.protocols = [] := by
  by_contra hne
  exact h (hb.protocols_kind hne)

variable (hroot : Text.IsWord rootType)
include hroot

theorem Block.WellFormed.isWord_supertype (h : b.kind = .interface) : Text.IsWord b.supertype := by
  rcases hb.supertype h with hword | heq
  · exact hword
  · exact heq ▸ hroot

theorem Header.ofTrimmed?_headerLine {tail : Text} (htail : IsHeaderTail tail) :
    ofTrimmed? (headerLine b ++ tail) = some (printedHeader b) := by
  have hname := hb.name
  rcases hb.keyword with ⟨hkeyword, hkind | hkind | hkind⟩ | ⟨hkind, hkeyword⟩
  · have hsuper := hb.isWord_supertype hroot hkind
    have hheader := ofTrimmed?_interface htail hname hsuper hb.protocols
    have hline : headerLine b ++ tail = '@' :: (Kind.interface.toText ++ ' ' ::
        (b.name ++ ' ' :: ':' :: ' ' :: (b.supertype ++ (protocolList b.protocols ++ tail)))) := by
      simp [headerLine_interface hkind]
    rw [hline, hheader, printedHeader, headerLine_interface hkind, hkeyword, hkind,
      printedCategory_of_ne (by simp [hkind])]
    simp only [if_true, Option.some.injEq, Header.mk.injEq, true_and]
    simp only [List.length_cons, List.length_append, Kind.toText, List.length_nil]
    omega
  · have hheader := ofTrimmed?_implementation htail hname
    have hline : headerLine b ++ tail =
        '@' :: (Kind.implementation.toText ++ ' ' :: (b.name ++ tail)) := by
      simp [headerLine_implementation hkind]
    rw [hline, hheader, printedHeader, headerLine_implementation hkind, hkeyword,
      hb.protocols_eq_nil (by simp [hkind]), printedCategory_of_ne (by simp [hkind]), hkind]
    simp [Kind.toText]
  · have hheader := ofTrimmed?_protocol htail hname
    have hline : headerLine b ++ tail =
        '@' :: (Kind.protocol.toText ++ ' ' :: (b.name ++ tail)) := by
      simp [headerLine_protocol hkind]
    rw [hline, hheader, printedHeader, headerLine_protocol hkind, hkeyword,
      hb.protocols_eq_nil (by simp [hkind]), printedCategory_of_ne (by simp [hkind]), hkind]
    simp [Kind.toText]
  · have hclose : ')' ∉ printedCategory b :=
      not_mem_printedCategory (by decide) hb.category_free.1
    have hheader := ofTrimmed?_category hkeyword hname hclose tail
    rw [trim_printedCategory hb.trim_category] at hheader
    have hline : headerLine b ++ tail = '@' :: (b.keyword.toText ++ ' ' ::
        (b.name ++ ' ' :: '(' :: (printedCategory b ++ ')' :: tail))) := by
      simp [headerLine_category hkind]
    rw [hline, hheader, printedHeader, headerLine_category hkind,
      hb.protocols_eq_nil (by simp [hkind]), hkind]
    simp only [reduceCtorEq, if_false, Option.some.injEq, Header.mk.injEq, true_and]
    simp only [List.length_cons, List.length_append, List.length_nil]
    omega

theorem trim_headerLine {tail : Text} (htail : IsHeaderTail tail) :
    Text.trim (headerLine b ++ tail) = headerLine b ++ tail := by
  have hat : Text.isSpace '@' = false := by decide
  suffices hend : ∃ s t, headerLine b ++ tail = '@' :: (s ++ t) ∧ t ≠ [] ∧ Text.trim t = t by
    obtain ⟨s, t, heq, hne, htrim⟩ := hend
    rw [heq]
    exact Text.trim_cons_append hat s hne htrim
  have hword {s w : Text} (hline : headerLine b = '@' :: (s ++ w)) (hw : Text.IsWord w) :
      ∃ s t, headerLine b = '@' :: (s ++ t) ∧ t ≠ [] ∧ Text.trim t = t :=
    ⟨s, w, hline, hw.1, hw.trim_eq⟩
  have hbare : ∃ s t, headerLine b = '@' :: (s ++ t) ∧ t ≠ [] ∧ Text.trim t = t := by
    rcases hb.keyword with ⟨-, hkind | hkind | hkind⟩ | ⟨hkind, -⟩
    · cases hps : b.protocols with
      | nil =>
        refine hword (w := b.supertype) (s := Kind.interface.toText ++ ' ' ::
          (b.name ++ [' ', ':', ' '])) ?_ (hb.isWord_supertype hroot hkind)
        simp [headerLine_interface hkind, hps, protocolList]
      | cons p ps =>
        refine ⟨Kind.interface.toText ++ ' ' :: (b.name ++ ' ' :: ':' :: ' ' ::
          (b.supertype ++ ' ' :: '<' :: Text.join ", " (p :: ps))), ['>'], ?_, by simp, by decide⟩
        simp [headerLine_interface hkind, hps, protocolList]
    · exact hword (s := Kind.implementation.toText ++ [' '])
        (by simp [headerLine_implementation hkind]) hb.name
    · exact hword (s := Kind.protocol.toText ++ [' '])
        (by simp [headerLine_protocol hkind]) hb.name
    · refine ⟨b.keyword.toText ++ ' ' :: (b.name ++ ' ' :: '(' :: printedCategory b), [')'],
        ?_, by simp, by decide⟩
      simp [headerLine_category hkind]
  obtain ⟨s, t, heq, hne, htrim⟩ := hbare
  rcases htail with rfl | rfl
  · exact ⟨s, t, by simpa using heq, hne, htrim⟩
  · exact ⟨s ++ t ++ [' '], ['{'], by simp [heq], by simp, by decide⟩

omit hroot in
theorem exists_headerLine_eq : ∃ (keyword : Kind) (rest : Text),
    (keyword = .interface ∨ keyword = .implementation ∨ keyword = .protocol) ∧
      headerLine b = '@' :: (keyword.toText ++ rest) := by
  rcases hb.keyword with ⟨-, hkind | hkind | hkind⟩ | ⟨hkind, hkeyword⟩
  · exact ⟨.interface, _, .inl rfl, headerLine_interface hkind⟩
  · exact ⟨.implementation, _, .inr (.inl rfl), headerLine_implementation hkind⟩
  · exact ⟨.protocol, _, .inr (.inr rfl), headerLine_protocol hkind⟩
  · refine ⟨b.keyword, _, ?_, headerLine_category hkind⟩
    rcases hkeyword with h | h
    · exact .inl h
    · exact .inr (.inl h)

theorem Mark.ofLine?_headerLine {tail : Text} (htail : IsHeaderTail tail) (number start : Nat) :
    ofLine? ⟨number, start, headerLine b ++ tail⟩ =
      some (.opener ⟨printedHeader b, number, start + (headerLine b).length⟩) := by
  obtain ⟨keyword, rest, hkeyword, hline⟩ := exists_headerLine_eq hb
  have hopener : Opener.ofLine? ⟨number, start, headerLine b ++ tail⟩ =
      some ⟨printedHeader b, number, start + (headerLine b).length⟩ := by
    have hstart : SourceLine.contentStart ⟨number, start, headerLine b ++ tail⟩ = start := by
      rw [hline]
      rfl
    rw [Opener.ofLine?, SourceLine.trimmed, trim_headerLine hb hroot htail,
      Header.ofTrimmed?_headerLine hb hroot htail, Option.map_some, hstart]
    rfl
  have hother : ofLine? ⟨number, start, headerLine b ++ tail⟩ =
      ((Property.ofLine? number (headerLine b ++ tail)).map .property).or
        ((Opener.ofLine? ⟨number, start, headerLine b ++ tail⟩).map .opener) := by
    rw [hline]
    rcases hkeyword with rfl | rfl | rfl <;>
      exact ofLine?_at Text.IsIndent.nil number start (by decide) (by decide) _
  have hproperty : Property.ofLine? number (headerLine b ++ tail) = none := by
    rw [hline]
    rcases hkeyword with rfl | rfl | rfl <;> rfl
  rw [hother, hproperty, hopener]
  rfl

end HeaderLine

theorem not_mem_headerLine {b : Block} {rootType : Text} (hb : b.WellFormed rootType)
    (hroot : Text.IsWord rootType) : '\n' ∉ headerLine b := by
  have hname := hb.name.not_mem
  rcases hb.keyword with ⟨-, hkind | hkind | hkind⟩ | ⟨hkind, hkeyword⟩
  · have hsuper := (hb.isWord_supertype hroot hkind).not_mem
    have hlist : '\n' ∉ protocolList b.protocols := by
      unfold protocolList
      split_ifs
      · simp
      · have hjoin : '\n' ∉ Text.join ", " b.protocols := by
          intro hc
          rcases Header.mem_join hc with h | h | ⟨p, hp, hc⟩
          · cases h
          · cases h
          · exact (hb.protocols p hp).free.2.2 hc
        simp only [List.mem_cons, List.mem_append, not_or]
        exact ⟨by decide, by decide, hjoin, by decide⟩
    rw [headerLine_interface hkind]
    simp [Kind.toText, hname, hsuper, hlist]
  · rw [headerLine_implementation hkind]
    simp [Kind.toText, hname]
  · rw [headerLine_protocol hkind]
    simp [Kind.toText, hname]
  · have hcategory : '\n' ∉ printedCategory b :=
      not_mem_printedCategory (by decide) hb.category_free.2
    rw [headerLine_category hkind]
    rcases hkeyword with h | h <;> simp [Kind.toText, h, hname, hcategory]

end ObjcOutline
