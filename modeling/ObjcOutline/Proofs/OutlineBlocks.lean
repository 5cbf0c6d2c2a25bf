import ObjcOutline.Proofs.FieldLines
import ObjcOutline.Proofs.OutlineHeaders

/-!
# The text of one block in an outline

The text that the outline prints for a block is a list of lines without line feeds inside them. Read
again, wherever it stands, it declares one opener with the header of the block, its properties, its
readable methods and one closing line, in this order and nothing else. The braces after the header
give the instance variables back; where there are none, the scan for braces ends at the first member
or at `@end` and finds none further down.
-/
namespace ObjcOutline
open Outline

namespace Text

/-- The lines, each followed by a line feed. -/
def unlines (ls : List Text) : Text := ls.flatMap (· ++ ['\n'])

@[simp] theorem unlines_nil : unlines [] = [] := rfl

@[simp] theorem unlines_cons (l : Text) (ls : List Text) :
    unlines (l :: ls) = l ++ '\n' :: unlines ls := by simp [unlines]

@[simp] theorem unlines_append (ls ms : List Text) : unlines (ls ++ ms) = unlines ls ++ unlines ms :=
  List.flatMap_append

theorem lines_unlines {ls : List Text} (h : ∀ l ∈ ls, '\n' ∉ l) : lines (unlines ls) = ls ++ [[]] := by
  induction ls with
  | nil => rfl
  | cons l ls ih =>
    have hl : lines l = [l] := split_of_not_mem (h l (by simp))
    rw [unlines_cons, lines_append, hl, ih fun m hm => h m (by simp [hm])]
    rfl

theorem mem_unlines {ls : List Text} {c : Char} (h : c ∈ unlines ls) :
    c = '\n' ∨ ∃ l ∈ ls, c ∈ l := by
  obtain ⟨l, hl, hc⟩ := List.mem_flatMap.mp h
  rcases List.mem_append.mp hc with hc | hc
  · exact .inr ⟨l, hl, hc⟩
  · exact .inl (List.mem_singleton.mp hc)

theorem isDigit_or_of_mem_ofInt {n : Int} {c : Char} (h : c ∈ ofInt n) : c.isDigit ∨ c = '-' := by
  cases n with
  | ofNat n => exact .inl (Nat.isDigit_of_mem_toDigits (by decide) (by decide) h)
  | negSucc n =>
    rcases List.mem_cons.mp h with h | h
    · exact .inr h
    · exact .inl (Nat.isDigit_of_mem_toDigits (by decide) (by decide) h)

theorem dropReturn_of_trim_eq {t : Text} (h : trim t = t) : dropReturn t = t := by
  rw [dropReturn, if_neg]
  intro hlast
  rw [← List.head?_reverse] at hlast
  exact absurd ((trim_eq_self_iff.mp h).2 _ hlast) (by decide)

/-- A comment stays one without its carriage return. -/
theorem dropReturn_comment (s t : Text) :
    ∃ r, dropReturn (s ++ '/' :: '/' :: t) = s ++ '/' :: '/' :: r := by
  unfold dropReturn
  split_ifs with hlast
  · cases t with
    | nil => simp at hlast
    | cons c t => exact ⟨(c :: t).dropLast, by simp [List.dropLast_append_of_ne_nil]⟩
  · exact ⟨t, rfl⟩

theorem dropReturn_statement (s : Text) {line : Text} (h : ∃ t, line = t ++ [';']) :
    dropReturn (s ++ line) = s ++ line := by
  obtain ⟨t, rfl⟩ := h
  simp [dropReturn]

end Text

/-- The method without its line. -/
def Method.unplaced (m : Method) : Method := { m with line := 0 }

/-- The property without its line. -/
def Property.unplaced (p : Property) : Property := { p with line := 0 }

namespace Mark

/-- The mark without its line and offset. -/
def unplaced : Mark → Mark
  | closer _ => closer 0
  | method m => method m.unplaced
  | property p => property p.unplaced
  | opener o => opener { o with line := 0, headerEnd := 0 }

@[simp] theorem unplaced_shift (n k : Nat) (m : Mark) : (m.shift n k).unplaced = m.unplaced := by
  cases m <;> rfl

/-- What a line declares, wherever it stands. -/
def declared? (raw : Text) : Option Mark := (ofLine? ⟨0, 0, Text.dropReturn raw⟩).map unplaced

theorem map_unplaced_place (number start : Nat) (ls : List Text) :
    ((SourceLine.place number start ls).filterMap ofLine?).map unplaced =
      ls.filterMap declared? := by
  induction ls generalizing number start with
  | nil => rfl
  | cons raw r ih =>
    have hline : (ofLine? ⟨number, start, Text.dropReturn raw⟩).map unplaced = declared? raw := by
      have hshift := ofLine?_shift number start ⟨0, 0, Text.dropReturn raw⟩
      simp only [SourceLine.shift, Nat.zero_add] at hshift
      rw [hshift, Option.map_map, declared?]
      congr 1
      funext m
      exact unplaced_shift number start m
    rw [SourceLine.place, List.filterMap_cons, List.filterMap_cons, ← hline, ← ih]
    cases ofLine? ⟨number, start, Text.dropReturn raw⟩ <;> rfl

end Mark

section Lines

/-- The comment that gives the line of a declaration, without its line end. -/
def noteLine (line : Int) : Text := "// Line: " ++ Text.ofInt line

/-- What follows the header on its line. -/
def headerTail (fields : List Field) : Text := if fields.isEmpty then [] else [' ', '{']

/-- The lines of the instance variables after the opening brace. -/
def variableLines (indent : Text) (fields : List Field) : List Text :=
  if fields.isEmpty then [] else fields.map (indent ++ fieldLine ·) ++ [['}']]

/-- A member below its note. -/
def notedLines (indent : Text) (line : Int) (text : Text) : List Text :=
  [indent ++ noteLine line, indent ++ text]

/-- The lines of a block below its header. -/
def lowerLines (indent : Text) (b : Block) : List Text :=
  variableLines indent b.fields ++
    (b.properties.flatMap (fun p => notedLines indent p.line (propertyLine p)) ++
      (b.methods.flatMap (fun m => notedLines indent m.line (methodLine m)) ++ [("@end" : Text)]))

/-- The lines of a block up to `@end`. -/
def blockLines (indent : Text) (b : Block) : List Text :=
  noteLine b.startLine :: (headerLine b ++ headerTail b.fields) :: lowerLines indent b

theorem lineNote_eq (line : Int) : lineNote line = noteLine line ++ ['\n'] := rfl

theorem memberLines_eq (indent : Text) (line : Int) (text : Text) :
    memberLines indent line text = Text.unlines (notedLines indent line text) := by
  have hend : memberLines indent line text = indent ++ lineNote line ++ indent ++ text ++ ['\n'] :=
    rfl
  rw [hend, lineNote_eq]
  simp only [notedLines, Text.unlines_cons, Text.unlines_nil, List.append_assoc, List.cons_append,
    List.nil_append]

theorem flatMap_memberLines {α : Type} (indent : Text) (line : α → Int) (text : α → Text)
    (xs : List α) : (xs.flatMap fun x => memberLines indent (line x) (text x)) =
      Text.unlines (xs.flatMap fun x => notedLines indent (line x) (text x)) := by
  induction xs with
  | nil => rfl
  | cons x xs ih =>
    rw [List.flatMap_cons, List.flatMap_cons, ih, Text.unlines_append, memberLines_eq]

theorem fieldLines_eq (indent : Text) (fields : List Field) :
    fieldLines indent fields ++ ['\n'] =
      headerTail fields ++ '\n' :: Text.unlines (variableLines indent fields) := by
  cases fields with
  | nil => rfl
  | cons f fields => simp [headerTail, variableLines, fieldLines, Text.unlines, List.flatMap_map]

theorem blockText_eq (indent : Text) (b : Block) :
    blockText indent b = Text.unlines (blockLines indent b) ++ ['\n'] := by
  have hvariables := fieldLines_eq indent b.fields
  have htext : blockText indent b =
      lineNote b.startLine ++ (headerLine b ++ ((fieldLines indent b.fields ++ ['\n']) ++
        ((b.properties.flatMap fun p => memberLines indent p.line (propertyLine p)) ++
          ((b.methods.flatMap fun m => memberLines indent m.line (methodLine m)) ++
            ("@end\n\n" : Text))))) := by
    simp only [blockText, List.append_assoc]
    rfl
  rw [htext, hvariables, lineNote_eq, flatMap_memberLines, flatMap_memberLines]
  simp only [blockLines, lowerLines, Text.unlines_cons, Text.unlines_append, Text.unlines_nil,
    List.append_assoc, List.cons_append, List.nil_append]
  rfl

theorem not_mem_noteLine (line : Int) : '\n' ∉ noteLine line := by
  intro h
  rcases List.mem_append.mp h with h | h
  · exact absurd h (by decide)
  · rcases Text.isDigit_or_of_mem_ofInt h with h | h
    · exact absurd h (by decide)
    · cases h

theorem isHeaderTail (fields : List Field) : IsHeaderTail (headerTail fields) := by
  unfold headerTail
  split_ifs
  · exact .inl rfl
  · exact .inr rfl

section Block
variable {indent : Text} (hindent : Text.IsIndent indent)
include hindent

theorem not_mem_of_mem_notedLines {line : Int} {text l : Text}
    (h : l ∈ notedLines indent line text) (htext : '\n' ∉ text) : '\n' ∉ l := by
  have hnote := not_mem_noteLine line
  have hfree : '\n' ∉ indent := hindent.not_mem (by decide)
  simp only [notedLines, List.mem_cons, List.not_mem_nil, or_false] at h
  rcases h with rfl | rfl <;> simp [hnote, hfree, htext]

theorem declared?_comment (t : Text) : Mark.declared? (indent ++ '/' :: '/' :: t) = none := by
  obtain ⟨r, hr⟩ := Text.dropReturn_comment indent t
  rw [Mark.declared?, hr, Mark.ofLine?_comment hindent]
  rfl

theorem filterMap_notedLines {α : Type} (line : α → Int) (text : α → Text) (xs : List α) :
    (xs.flatMap fun x => notedLines indent (line x) (text x)).filterMap Mark.declared? =
      xs.filterMap fun x => Mark.declared? (indent ++ text x) := by
  induction xs with
  | nil => rfl
  | cons x xs ih =>
    have hnote : Mark.declared? (indent ++ noteLine (line x)) = none :=
      declared?_comment hindent _
    rw [List.flatMap_cons, List.filterMap_append, ih, notedLines, List.filterMap_cons_none hnote]
    cases hx : Mark.declared? (indent ++ text x) <;> simp [hx]

theorem declared?_propertyLine {p : Property} (hp : p.WellFormed)
    (hopen : p.attributes = [] → p.declaration.head? ≠ some '(') :
    Mark.declared? (indent ++ propertyLine p) = some (.property p.unplaced) := by
  have hend : ∃ t, propertyLine p = t ++ [';'] := by
    unfold propertyLine
    split_ifs <;> exact ⟨_, rfl⟩
  rw [Mark.declared?, Text.dropReturn_statement indent hend,
    Mark.ofLine?_propertyLine hindent 0 0 hp hopen]
  rfl

theorem declared?_methodLine {m : Method} (hm : m.WellFormed) :
    Mark.declared? (indent ++ methodLine m) =
      if m.isReadable then some (.method m.unplaced) else none := by
  have hend : ∃ t, methodLine m = t ++ [';'] := ⟨_, rfl⟩
  rw [Mark.declared?, Text.dropReturn_statement indent hend,
    Mark.ofLine?_methodLine hindent 0 0 hm]
  split_ifs <;> rfl

theorem declared?_fieldLine {f : Field} (hf : f.WellFormed) :
    Mark.declared? (indent ++ fieldLine f) = none := by
  have hend : ∃ t, fieldLine f = t ++ [';'] := by
    obtain ⟨c, t, -, ht⟩ := exists_fieldLine_eq hf
    exact ⟨c :: t, ht⟩
  rw [Mark.declared?, Text.dropReturn_statement indent hend, Mark.ofLine?_fieldLine hindent hf]
  rfl

theorem filterMap_variableLines {fields : List Field} (h : ∀ f ∈ fields, f.WellFormed) :
    (variableLines indent fields).filterMap Mark.declared? = [] := by
  unfold variableLines
  split_ifs
  · rfl
  · rw [List.filterMap_eq_nil_iff]
    intro l hl
    rcases List.mem_append.mp hl with hl | hl
    · obtain ⟨f, hf, rfl⟩ := List.mem_map.mp hl
      exact declared?_fieldLine hindent (h f hf)
    · rw [List.mem_singleton.mp hl]
      rfl

variable {rootType : Text} {b : Block} (hb : b.WellFormed rootType)
include hb

theorem not_mem_of_mem_blockLines (hroot : Text.IsWord rootType) {l : Text}
    (h : l ∈ blockLines indent b) : '\n' ∉ l := by
  simp only [blockLines, lowerLines, List.mem_cons, List.mem_append, List.not_mem_nil, or_false,
    List.mem_flatMap] at h
  rcases h with rfl | rfl | h | ⟨p, hp, h⟩ | ⟨m, hm, h⟩ | rfl
  · exact not_mem_noteLine b.startLine
  · have hheader := not_mem_headerLine hb hroot
    rcases isHeaderTail b.fields with h | h <;> simp [h, hheader]
  · unfold variableLines at h
    split_ifs at h
    · cases h
    · rcases List.mem_append.mp h with h | h
      · obtain ⟨f, hf, rfl⟩ := List.mem_map.mp h
        exact not_mem_indented hindent (hb.fields f hf) (by decide) (by decide)
      · simp only [List.mem_singleton] at h
        simp [h]
  · exact not_mem_of_mem_notedLines hindent h (not_mem_propertyLine (hb.properties p hp))
  · exact not_mem_of_mem_notedLines hindent h (not_mem_methodLine (hb.methods m hm))
  · decide

/-- What the lines below the header declare. -/
theorem filterMap_lowerLines
    (hopen : ∀ p ∈ b.properties, p.attributes = [] → p.declaration.head? ≠ some '(') :
    (lowerLines indent b).filterMap Mark.declared? =
      b.properties.map (fun p => .property p.unplaced) ++
        ((b.methods.filter Method.isReadable).map (fun m => .method m.unplaced) ++
          [.closer 0]) := by
  have hproperties : b.properties.filterMap (fun p => Mark.declared? (indent ++ propertyLine p)) =
      b.properties.map fun p => Mark.property p.unplaced := by
    rw [← List.filterMap_eq_map]
    apply List.filterMap_congr
    intro p hp
    exact declared?_propertyLine hindent (hb.properties p hp) (hopen p hp)
  have hmethods : b.methods.filterMap (fun m => Mark.declared? (indent ++ methodLine m)) =
      (b.methods.filter Method.isReadable).map fun m => Mark.method m.unplaced := by
    rw [← List.filterMap_eq_map, List.filterMap_filter]
    apply List.filterMap_congr
    intro m hm
    exact declared?_methodLine hindent (hb.methods m hm)
  rw [lowerLines, List.filterMap_append, List.filterMap_append, List.filterMap_append,
    filterMap_variableLines hindent hb.fields, filterMap_notedLines hindent,
    filterMap_notedLines hindent, hproperties, hmethods]
  rfl

end Block

end Lines

section Variables

theorem fieldBodyFrom?_lineComment {u : Text} (h : '\n' ∉ u) (t : Text) :
    fieldBodyFrom? .lineComment (u ++ '\n' :: t) = fieldBodyFrom? .outside t :=
  fieldBodyFrom?_lineComment_below h (.inr ⟨t, rfl⟩)

variable {indent : Text} (hindent : Text.IsIndent indent)
include hindent

theorem fieldBodyFrom?_indent (t : Text) :
    fieldBodyFrom? .outside (indent ++ t) = fieldBodyFrom? .outside t := by
  induction indent with
  | nil => rfl
  | cons c indent ih =>
    rw [← ih fun d hd => hindent d (by simp [hd])]
    rcases hindent c (by simp) with rfl | rfl <;> rfl

/-- A member with its note holds no braces for the header above it. -/
theorem fieldBodyFrom?_notedLines (line : Int) {text : Text}
    (htext : ∃ c r, text = c :: r ∧ (c = '@' ∨ c = '+' ∨ c = '-')) (t : Text) :
    fieldBodyFrom? .outside (Text.unlines (notedLines indent line text) ++ t) = none := by
  obtain ⟨c, r, rfl, hc⟩ := htext
  obtain ⟨u, hu⟩ : ∃ u, noteLine line = '/' :: '/' :: u := ⟨_, rfl⟩
  have hfree : '\n' ∉ u := by
    have := not_mem_noteLine line
    simp_all
  have hnote : Text.unlines (notedLines indent line (c :: r)) ++ t =
      indent ++ '/' :: '/' :: (u ++ '\n' :: (indent ++ c :: (r ++ '\n' :: t))) := by
    simp [notedLines, hu]
  rw [hnote, fieldBodyFrom?_indent hindent, fieldBodyFrom?, fieldBodyFrom?_lineComment hfree,
    fieldBodyFrom?_indent hindent]
  rcases hc with rfl | rfl | rfl <;> rfl

variable {rootType : Text} {b : Block} (hb : b.WellFormed rootType)
include hb

/-- Below the header nothing opens a brace when the block has no variables. -/
theorem fieldBody?_lowerLines (hfields : b.fields = []) (t : Text) :
    fieldBody? ('\n' :: (Text.unlines (lowerLines indent b) ++ t)) = none := by
  have hmethod : ∀ m ∈ b.methods, ∃ c r, methodLine m = c :: r ∧ (c = '@' ∨ c = '+' ∨ c = '-') := by
    intro m hm
    unfold methodLine
    rcases (hb.methods m hm).sigil with h | h <;> rw [h]
    · exact ⟨'+', _, rfl, .inr (.inl rfl)⟩
    · exact ⟨'-', _, rfl, .inr (.inr rfl)⟩
  have hproperty : ∀ p ∈ b.properties,
      ∃ c r, propertyLine p = c :: r ∧ (c = '@' ∨ c = '+' ∨ c = '-') := by
    intro p _
    unfold propertyLine
    split_ifs <;> exact ⟨'@', _, rfl, .inl rfl⟩
  have hstart : ∀ s, fieldBody? ('\n' :: s) = fieldBodyFrom? .outside s := fun _ => rfl
  rw [hstart, lowerLines, hfields]
  cases hps : b.properties with
  | cons p ps =>
    have := fieldBodyFrom?_notedLines hindent p.line (hproperty p (by simp [hps]))
    simp only [variableLines, List.isEmpty_nil, if_true, List.nil_append, List.flatMap_cons,
      Text.unlines_append, List.append_assoc, this]
  | nil =>
    cases hms : b.methods with
    | cons m ms =>
      have := fieldBodyFrom?_notedLines hindent m.line (hmethod m (by simp [hms]))
      simp only [variableLines, List.isEmpty_nil, if_true, List.nil_append, List.flatMap_cons,
        List.flatMap_nil, Text.unlines_append, List.append_assoc, this]
    | nil => rfl

theorem fieldBody?_variableLines (hfields : b.fields ≠ []) (t : Text) :
    fieldBody? (' ' :: '{' :: '\n' :: (Text.unlines (lowerLines indent b) ++ t)) =
      some ('\n' :: Text.unlines (b.fields.map (indent ++ fieldLine ·))) := by
  have hclose : '}' ∉ '\n' :: Text.unlines (b.fields.map (indent ++ fieldLine ·)) := by
    intro h
    rcases List.mem_cons.mp h with h | h
    · cases h
    rcases Text.mem_unlines h with h | ⟨l, hl, hc⟩
    · cases h
    · obtain ⟨f, hf, rfl⟩ := List.mem_map.mp hl
      exact not_mem_indented hindent (hb.fields f hf) (by decide) (by decide) hc
  have hcut : fieldBody? (' ' :: '{' :: '\n' :: (Text.unlines (lowerLines indent b) ++ t)) =
      (Text.cut? (· == '}') ('\n' :: (Text.unlines (lowerLines indent b) ++ t))).map (·.1) := rfl
  obtain ⟨r, hr⟩ : ∃ r, '\n' :: (Text.unlines (lowerLines indent b) ++ t) =
      '\n' :: Text.unlines (b.fields.map (indent ++ fieldLine ·)) ++ '}' :: r := by
    simp [lowerLines, variableLines, hfields]
  rw [hcut, hr, Text.cut?_beq_append hclose]
  rfl

theorem Field.ofBody_variableLines :
    ofBody ('\n' :: Text.unlines (b.fields.map (indent ++ fieldLine ·))) = b.fields := by
  have hlines : ∀ l ∈ b.fields.map (indent ++ fieldLine ·), '\n' ∉ l := by
    intro l hl
    obtain ⟨f, hf, rfl⟩ := List.mem_map.mp hl
    exact not_mem_indented hindent (hb.fields f hf) (by decide) (by decide)
  have hread : (b.fields.map (indent ++ fieldLine ·)).filterMap ofLine? = b.fields := by
    rw [List.filterMap_map]
    conv_rhs => rw [← List.filterMap_some (l := b.fields)]
    apply List.filterMap_congr
    intro f hf
    exact ofLine?_fieldLine hindent (hb.fields f hf)
  have hempty : ofLine? [] = none := rfl
  rw [ofBody, Text.lines, Text.split_cons_self, ← Text.lines, Text.lines_unlines hlines,
    List.filterMap_cons_none hempty, List.filterMap_append, hread, List.filterMap_cons_none hempty,
    List.filterMap_nil, List.append_nil]

/-- Where the header of a printed block ends. -/
def printedEnd (b : Block) : Nat := (noteLine b.startLine).length + 1 + (headerLine b).length

theorem Block.fieldsOf_blockLines {o : Opener} (hkind : o.header.kind = b.kind)
    (hend : o.headerEnd = printedEnd b) (t : Text) :
    fieldsOf (Text.unlines (blockLines indent b) ++ t) o = b.fields := by
  have hdrop : (Text.unlines (blockLines indent b) ++ t).drop o.headerEnd =
      headerTail b.fields ++ '\n' :: (Text.unlines (lowerLines indent b) ++ t) := by
    have hsplit : Text.unlines (blockLines indent b) ++ t =
        (noteLine b.startLine ++ '\n' :: headerLine b) ++
          (headerTail b.fields ++ '\n' :: (Text.unlines (lowerLines indent b) ++ t)) := by
      simp only [blockLines, Text.unlines_cons, List.append_assoc, List.cons_append]
    rw [hsplit]
    apply List.drop_left'
    rw [hend, printedEnd, List.length_append, List.length_cons]
    omega
  unfold fieldsOf
  rw [hdrop, hkind]
  split_ifs with hprotocol
  · exact (hb.fields_kind hprotocol).symm
  · by_cases hfields : b.fields = []
    · have htail : headerTail b.fields = [] := by simp [headerTail, hfields]
      rw [htail, List.nil_append, fieldBody?_lowerLines hindent hb hfields, hfields]
    · have htail : headerTail b.fields = [' ', '{'] := by simp [headerTail, hfields]
      rw [htail, List.cons_append, List.cons_append, List.nil_append,
        fieldBody?_variableLines hindent hb hfields]
      exact Field.ofBody_variableLines hindent hb

end Variables

/-- The marks of the lines of one block. -/
theorem Mark.ofText_blockLines {indent : Text} (hindent : Text.IsIndent indent) {rootType : Text}
    (hroot : Text.IsWord rootType) {b : Block} (hb : b.WellFormed rootType)
    (hopen : ∀ p ∈ b.properties, p.attributes = [] → p.declaration.head? ≠ some '(') :
    ∃ ds, ofText (Text.unlines (blockLines indent b)) =
        .opener ⟨printedHeader b, 2, printedEnd b⟩ :: ds ∧
      ds.map unplaced = b.properties.map (fun p => .property p.unplaced) ++
        ((b.methods.filter Method.isReadable).map (fun m => .method m.unplaced) ++
          [.closer 0]) := by
  have hlines := Text.lines_unlines fun l hl => not_mem_of_mem_blockLines hindent hb hroot hl
  have hnote : ofLine? ⟨1, 0, Text.dropReturn (noteLine b.startLine)⟩ = none := by
    obtain ⟨r, hr⟩ : ∃ r, Text.dropReturn (noteLine b.startLine) = '/' :: '/' :: r :=
      Text.dropReturn_comment [] _
    rw [hr]
    exact ofLine?_comment Text.IsIndent.nil 1 0 r
  have hheader : ofLine? ⟨1 + 1, 0 + (noteLine b.startLine).length + 1,
      Text.dropReturn (headerLine b ++ headerTail b.fields)⟩ =
      some (.opener ⟨printedHeader b, 2, printedEnd b⟩) := by
    have htail := isHeaderTail b.fields
    rw [Text.dropReturn_of_trim_eq (trim_headerLine hb hroot htail),
      ofLine?_headerLine hb hroot htail, printedEnd, Nat.zero_add]
    rfl
  have hempty : declared? [] = none := rfl
  rw [ofText, SourceLine.ofText, hlines, blockLines, List.cons_append, List.cons_append,
    SourceLine.place, SourceLine.place, List.filterMap_cons_none hnote,
    List.filterMap_cons_some hheader]
  refine ⟨_, rfl, ?_⟩
  rw [map_unplaced_place, List.filterMap_append, filterMap_lowerLines hindent hb hopen,
    List.filterMap_cons_none hempty, List.filterMap_nil, List.append_nil]

end ObjcOutline
