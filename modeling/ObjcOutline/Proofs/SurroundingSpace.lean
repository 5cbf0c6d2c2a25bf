import ObjcOutline.Proofs.Loosening
import ObjcOutline.Proofs.Ownership

/-!
# White space around a line

A line is trimmed of Unicode white space before it is tested for a comment, for `@end` and for a
header, so none of these depends on the space around them. Methods and properties are read on the
line as it stands, and the patterns skip the five ASCII blanks only. The space after a declaration
does not count, since every declaration ends at a character that is no space. The space before it
does: a vertical tab or a non-ASCII space there hides the declaration.
-/
namespace ObjcOutline

open Text

def Text.leading (line : Text) : Text := line.takeWhile isSpace

theorem Text.isSpace_of_mem_leading {line : Text} {c : Char} (h : c ∈ leading line) :
    isSpace c = true := List.mem_takeWhile_imp h

/-- A line is its trimmed text between two runs of white space. -/
theorem Text.exists_eq_trim (line : Text) :
    ∃ after, (∀ c ∈ after, isSpace c = true) ∧ line = leading line ++ (trim line ++ after) := by
  refine ⟨((trimStart line).reverse.takeWhile isSpace).reverse, fun c hc => ?_, ?_⟩
  · exact List.mem_takeWhile_imp (List.mem_reverse.mp hc)
  · have hend : trim line ++ ((trimStart line).reverse.takeWhile isSpace).reverse =
        trimStart line := by
      rw [trim, trimEnd, ← List.reverse_append, List.takeWhile_append_dropWhile,
        List.reverse_reverse]
    rw [hend]
    exact List.takeWhile_append_dropWhile.symm

/-- A space that is not a blank hides a method, since it is no sign. -/
theorem Method.ofLine?_eq_none {line : Text} {c : Char} {r : Text} (h : skipBlanks line = c :: r)
    (hc : isSpace c = true) (number : Int) : ofLine? number line = none := by
  have hplus : (c == '+') = false := sparesSpace_beq (by decide) c hc
  have hminus : (c == '-') = false := sparesSpace_beq (by decide) c hc
  simp [ofLine?, h, hplus, hminus]

theorem Property.ofLine?_eq_none {line : Text} {c : Char} {r : Text} (h : skipBlanks line = c :: r)
    (hc : isSpace c = true) (number : Int) : ofLine? number line = none := by
  have hat : '@' ≠ c := by
    rintro rfl
    exact absurd hc (by decide)
  simp [ofLine?, h, keyword, after?, hat]

theorem Text.exists_skipBlanks_append {before : Text} (hspace : ∀ c ∈ before, isSpace c = true)
    (hblank : before.all isBlank = false) (t : Text) :
    ∃ c r, skipBlanks (before ++ t) = c :: r ∧ isSpace c = true := by
  induction before with
  | nil => cases hblank
  | cons c before ih =>
    rw [List.forall_mem_cons] at hspace
    by_cases hc : isBlank c = true
    · rw [List.all_cons, hc, Bool.true_and] at hblank
      rw [List.cons_append, skipBlanks_cons_of_isBlank hc]
      exact ih hspace.2 hblank
    · exact ⟨c, before ++ t, skipBlanks_cons (Bool.not_eq_true _ ▸ hc) _, hspace.1⟩

/-- A trimmed line that is a method starts with a sign, hence with no header. -/
theorem Header.ofTrimmed?_of_method {t : Text} (htrim : trim t = t) {number : Int} {m : Method}
    (h : Method.ofLine? number t = some m) : ofTrimmed? t = none := by
  have hskip : skipBlanks t = t := by
    apply dropWhile_of_startsOutside
    intro c hc
    exact isBlank_eq_false_of_isSpace ((trim_eq_self_iff.mp htrim).1 c hc)
  rw [Method.ofLine?, hskip] at h
  cases t with
  | nil => cases h
  | cons c r =>
    apply ofTrimmed?_eq_none
    rintro rfl
    cases h

/-- A trimmed line that is a property starts with a word that is no keyword of a header. -/
theorem Header.ofTrimmed?_of_property {t : Text} (htrim : trim t = t) {number : Int} {p : Property}
    (h : Property.ofLine? number t = some p) : ofTrimmed? t = none := by
  have hskip : skipBlanks t = t := by
    apply dropWhile_of_startsOutside
    intro c hc
    exact isBlank_eq_false_of_isSpace ((trim_eq_self_iff.mp htrim).1 c hc)
  rw [Property.ofLine?, hskip] at h
  split at h
  next rest hrest =>
    rw [after?_eq_some hrest]
    rfl
  · cases h

namespace Mark
variable {before after inner : Text} (hbefore : ∀ c ∈ before, isSpace c = true)
  (hafter : ∀ c ∈ after, isSpace c = true)
include hbefore hafter

theorem ofLine?_surrounded (htrim : trim inner = inner) (number : Nat) :
    ofLine? ⟨number, 0, before ++ (inner ++ after)⟩ =
      (ofLine? ⟨number, before.length, inner⟩).filter
        fun m => before.all isBlank || !m.isDeclaration := by
  cases hblank : before.all isBlank with
  | true =>
    rw [ofLine?_padded (List.all_eq_true.mp hblank) hafter]
    cases ofLine? ⟨number, before.length, inner⟩ <;> rfl
  | false =>
    obtain ⟨c, r, hskip, hc⟩ := exists_skipBlanks_append hbefore hblank (inner ++ after)
    have hmethod := Method.ofLine?_eq_none hskip hc number
    have hproperty := Property.ofLine?_eq_none hskip hc number
    have hline : (⟨number, before.length, inner⟩ : SourceLine).trimmed = inner := htrim
    unfold ofLine?
    rw [SourceLine.trimmed_padded hbefore hafter number before.length, hmethod, hproperty,
      Opener.ofLine?_padded hbefore hafter, hline]
    split_ifs with hpassed hend
    · rfl
    · rfl
    cases hm : Method.ofLine? number inner with
    | some m =>
      have hopener : Opener.ofLine? ⟨number, before.length, inner⟩ = none := by
        rw [Opener.ofLine?, hline, Header.ofTrimmed?_of_method htrim hm, Option.map_none]
      rw [hopener]
      rfl
    | none =>
      cases hp : Property.ofLine? number inner with
      | some p =>
        have hopener : Opener.ofLine? ⟨number, before.length, inner⟩ = none := by
          rw [Opener.ofLine?, hline, Header.ofTrimmed?_of_property htrim hp, Option.map_none]
        rw [hopener]
        rfl
      | none => cases Opener.ofLine? ⟨number, before.length, inner⟩ <;> rfl

end Mark

theorem Mark.ofText_of_not_mem {line : Text} (h : '\n' ∉ line) :
    ofText line = (ofLine? ⟨1, 0, line⟩).toList := by
  have hlines : Text.lines line = [line] := split_of_not_mem h
  have htext : SourceLine.ofText line = [⟨1, 0, dropReturn line⟩] := by
    rw [SourceLine.ofText, hlines]
    rfl
  rw [ofText, htext, ← ofLine?_dropReturn, List.filterMap_cons, List.filterMap_nil]
  cases ofLine? ⟨1, 0, dropReturn line⟩ <;> rfl

/-- A line has the marks of the trimmed line, moved right by the white space it starts with. Where
this is more than blanks, methods and properties are left out. -/
theorem Mark.ofText_eq_trim {line : Text} (h : '\n' ∉ line) :
    ofText line =
      ((ofText (trim line)).filter fun m => (leading line).all isBlank || !m.isDeclaration).map
        (shift 0 (leading line).length) := by
  obtain ⟨after, hafter, heq⟩ := exists_eq_trim line
  have hinner : '\n' ∉ trim line := fun hmem => h (mem_of_mem_trim hmem)
  have hleading : ∀ c ∈ leading line, isSpace c = true := fun _ => isSpace_of_mem_leading
  have hread := ofLine?_surrounded hleading hafter (trim_trim line) 1
  have hshift := ofLine?_shift 0 (leading line).length ⟨1, 0, trim line⟩
  simp only [SourceLine.shift, Nat.zero_add, Nat.add_zero] at hshift
  rw [← heq, hshift] at hread
  rw [ofText_of_not_mem h, ofText_of_not_mem hinner, hread]
  cases hm : ofLine? ⟨1, 0, trim line⟩ with
  | none => rfl
  | some m =>
    have hkept : (m.shift 0 (leading line).length).isDeclaration = m.isDeclaration := by
      cases m <;> rfl
    simp only [Option.map_some, Option.filter_some, hkept, Option.toList_some, List.filter_cons,
      List.filter_nil]
    split_ifs <;> rfl

section Line
variable {line : Text} (h : '\n' ∉ line) {α : Type} {form : Mark → Option α} {move : α → α}
  (hshift : ∀ m : Mark, form (m.shift 0 (leading line).length) = (form m).map move)
include h hshift

theorem Mark.filterMap_markers (hform : ∀ m, isDeclaration m = true → form m = none) :
    (ofText line).filterMap form = ((ofText (trim line)).filterMap form).map move := by
  rw [ofText_eq_trim h, List.filterMap_map, List.filterMap_filter, List.map_filterMap]
  apply List.filterMap_congr
  intro m _
  rw [Function.comp_apply, hshift]
  split_ifs with hkept
  · rfl
  · rw [hform m (by simpa using hkept : _ ∧ _).2]
    rfl

/-- What is selected from the methods and properties is lost after a space that is no blank. -/
theorem Mark.filterMap_declarations (hform : ∀ m, isDeclaration m = false → form m = none) :
    (ofText line).filterMap form =
      if (leading line).all isBlank then ((ofText (trim line)).filterMap form).map move else [] := by
  rw [ofText_eq_trim h, List.filterMap_map, List.filterMap_filter, List.map_filterMap]
  cases (leading line).all isBlank with
  | true =>
    rw [if_pos rfl]
    apply List.filterMap_congr
    intro m _
    rw [Bool.true_or, if_pos rfl, Function.comp_apply, hshift]
  | false =>
    rw [if_neg (by simp), List.filterMap_eq_nil_iff]
    intro m _
    rw [Bool.false_or, Function.comp_apply, hshift]
    split_ifs with hkept
    · rw [hform m (by simpa using hkept), Option.map_none]
    · rfl

end Line

def readMethods (src : Text) : List Method := (Mark.ofText src).filterMap Mark.method?

def readProperties (src : Text) : List Property := (Mark.ofText src).filterMap Mark.property?

/-- The white space around a line never decides whether the line closes or opens a block; it only
moves the end of the header. Whether the line is a method or a property does depend on it. The line
is read like the trimmed one exactly when it starts with nothing but blanks or when the trimmed one
is no method and no property. -/
theorem marks_of_surrounded_line {line : Text} (h : '\n' ∉ line) :
    closingLines line = closingLines (trim line) ∧
      openers line = (openers (trim line)).map (Opener.shift 0 (leading line).length) ∧
      readMethods line = (if (leading line).all isBlank then readMethods (trim line) else []) ∧
      readProperties line =
        (if (leading line).all isBlank then readProperties (trim line) else []) ∧
      ((readMethods line = readMethods (trim line) ∧
          readProperties line = readProperties (trim line)) ↔
        (∀ c ∈ leading line, isBlank c = true) ∨
          (readMethods (trim line) = [] ∧ readProperties (trim line) = [])) := by
  have hclosers : closingLines line = closingLines (trim line) := by
    have hsame : closingLines line = (closingLines (trim line)).map id :=
      Mark.filterMap_markers h (fun m => by cases m <;> simp [Mark.shift, Mark.closer?])
        (fun m hm => by cases m <;> first | rfl | cases hm)
    rwa [List.map_id] at hsame
  have hopeners : openers line = (openers (trim line)).map (Opener.shift 0 (leading line).length) :=
    Mark.filterMap_markers h (fun m => by cases m <;> rfl)
      (fun m hm => by cases m <;> first | rfl | cases hm)
  have hmethods : readMethods line =
      if (leading line).all isBlank then readMethods (trim line) else [] := by
    have hread : readMethods line =
        if (leading line).all isBlank then (readMethods (trim line)).map id else [] :=
      Mark.filterMap_declarations h
        (fun m => by cases m <;> simp [Mark.shift, Mark.method?, Method.shift])
        (fun m hm => by cases m <;> first | rfl | cases hm)
    rwa [List.map_id] at hread
  have hproperties : readProperties line =
      if (leading line).all isBlank then readProperties (trim line) else [] := by
    have hread : readProperties line =
        if (leading line).all isBlank then (readProperties (trim line)).map id else [] :=
      Mark.filterMap_declarations h
        (fun m => by cases m <;> simp [Mark.shift, Mark.property?, Property.shift])
        (fun m hm => by cases m <;> first | rfl | cases hm)
    rwa [List.map_id] at hread
  refine ⟨hclosers, hopeners, hmethods, hproperties, ?_⟩
  rw [hmethods, hproperties, ← List.all_eq_true]
  split_ifs with hblank
  · simp [hblank]
  · rw [or_iff_right hblank, eq_comm, @eq_comm _ [] (readProperties (trim line))]

/-- A header between a vertical tab and an ideographic space, on a line with a carriage return. -/
theorem marks_of_surrounded_line_with_header :
    let line : Text := "\t\x0b@interface A : B <P> \x7b\u3000\r"
    closingLines line = [] ∧
      openers line = [⟨⟨.interface, .interface, "A", some ("B" : Text), ["P"], [], 20⟩, 1, 22⟩] ∧
      readMethods line = [] := by
  intro line
  have hline : '\n' ∉ line := by decide
  obtain ⟨hclosers, hopeners, hmethods, -⟩ := marks_of_surrounded_line hline
  rw [hclosers, hopeners, hmethods]
  decide +kernel

/-- A method after a no-break space. -/
theorem method_after_no_break_space :
    let line : Text := "\u00a0- (void)a;"
    readMethods line = [] ∧ readMethods (trim line) = [⟨"-", "void", "a", 1⟩] := by
  decide +kernel

end ObjcOutline
