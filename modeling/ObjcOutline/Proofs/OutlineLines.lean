import ObjcOutline.Outline
import ObjcOutline.Proofs.WellFormed

/-!
# Reading the lines of an outline

Apart from the headers of its blocks, an outline has notes, instance variables, closing braces,
properties, methods and `@end` lines. Each is read back as what it was printed from, whatever stands
inside the texts of the skeleton, and notes, variables and braces declare nothing. One thing is lost:
a method without return type or without signature is printed as a line that is not a method.
-/
namespace ObjcOutline
open Outline

/-- Spaces and tabs only. -/
def Text.IsIndent (t : Text) : Prop := ∀ c ∈ t, c = ' ' ∨ c = '\t'

instance (t : Text) : Decidable (Text.IsIndent t) :=
  decidable_of_iff (t.all (fun c => c == ' ' || c == '\t') = true) (by simp [Text.IsIndent])

namespace Text.IsIndent

theorem nil : IsIndent [] := by simp [IsIndent]

variable {indent : Text} (h : IsIndent indent)
include h

theorem isBlank {c : Char} (hc : c ∈ indent) : Text.isBlank c = true := by
  rcases h c hc with rfl | rfl <;> rfl

theorem isSpace {c : Char} (hc : c ∈ indent) : Text.isSpace c = true := by
  rcases h c hc with rfl | rfl <;> rfl

theorem not_mem {c : Char} (hc : c ∉ [' ', '\t']) : c ∉ indent := by
  intro hmem
  rcases h _ hmem with rfl | rfl <;> exact hc (by decide)

theorem trim_append (t : Text) : Text.trim (indent ++ t) = Text.trim t :=
  Text.trim_append_of_isSpace (fun _ => h.isSpace) t

theorem skipBlanks_append (t : Text) : Text.skipBlanks (indent ++ t) = Text.skipBlanks t :=
  Text.skipBlanks_append (fun _ => h.isBlank) t

end Text.IsIndent

theorem isBlank_eq_false_of_isSpace {c : Char} (h : Text.isSpace c = false) :
    Text.isBlank c = false := by
  by_contra hb
  rw [Text.isSpace_of_isBlank (Bool.not_eq_false _ ▸ hb)] at h
  cases h

theorem Header.name?_eq_none {keyword : Kind} {c : Char} (h : c ≠ '@') (t : Text) :
    name? keyword (c :: t) = none := by
  have hafter : Text.after? ('@' :: keyword.toText) (c :: t) = none := by
    rw [Text.after?, if_neg (Ne.symm h)]
  rw [name?, hafter]

theorem Header.ofTrimmed?_eq_none {c : Char} (h : c ≠ '@') (t : Text) :
    ofTrimmed? (c :: t) = none := by
  simp only [ofTrimmed?, categoryOf?, interface?, implementation?, protocol?, name?_eq_none h,
    Option.or_none]

namespace Mark
variable {indent : Text} (hindent : Text.IsIndent indent) (number start : Nat)
include hindent

/-- A line that does not start with `@` can only be a method. -/
theorem ofLine?_of_ne_at {c : Char} (hspace : Text.isSpace c = false) (hat : c ≠ '@') (t : Text) :
    ofLine? ⟨number, start, indent ++ c :: t⟩ =
      if isPassedOver (c :: Text.trimEnd t) then none
      else (Method.ofLine? number (indent ++ c :: t)).map .method := by
  have htrim : (SourceLine.mk number start (indent ++ c :: t)).trimmed = c :: Text.trimEnd t := by
    rw [SourceLine.trimmed, hindent.trim_append, Text.trim_cons hspace]
  have hskip : Text.skipBlanks (indent ++ c :: t) = c :: t := by
    rw [hindent.skipBlanks_append, Text.skipBlanks_cons (isBlank_eq_false_of_isSpace hspace)]
  have hproperty : Property.ofLine? number (indent ++ c :: t) = none := by
    simp [Property.ofLine?, hskip, Property.keyword, Text.after?, Ne.symm hat]
  have hopener : Opener.ofLine? ⟨number, start, indent ++ c :: t⟩ = none := by
    rw [Opener.ofLine?, htrim, Header.ofTrimmed?_eq_none hat]
    rfl
  have hend : c :: Text.trimEnd t ≠ ['@', 'e', 'n', 'd'] := fun h => hat (List.cons.inj h).1
  rw [ofLine?, htrim, hproperty, hopener, if_neg hend]
  simp

theorem ofLine?_comment (t : Text) : ofLine? ⟨number, start, indent ++ '/' :: '/' :: t⟩ = none := by
  rw [ofLine?_of_ne_at hindent number start (by decide) (by decide), Text.trimEnd_cons (by decide)]
  rfl

/-- A line that starts with neither a sign nor `@`. -/
theorem ofLine?_other {c : Char} (hspace : Text.isSpace c = false)
    (hc : c ≠ '@' ∧ c ≠ '+' ∧ c ≠ '-') (t : Text) :
    ofLine? ⟨number, start, indent ++ c :: t⟩ = none := by
  obtain ⟨hat, hplus, hminus⟩ := hc
  have hskip : Text.skipBlanks (indent ++ c :: t) = c :: t := by
    rw [hindent.skipBlanks_append, Text.skipBlanks_cons (isBlank_eq_false_of_isSpace hspace)]
  have hmethod : Method.ofLine? number (indent ++ c :: t) = none := by
    simp [Method.ofLine?, hskip, hplus, hminus]
  rw [ofLine?_of_ne_at hindent number start hspace hat, hmethod]
  split_ifs <;> rfl

/-- A line that starts with `@` and cannot be a closing line. -/
theorem ofLine?_at {c : Char} (hspace : Text.isSpace c = false) (hc : c ≠ 'e') (t : Text) :
    ofLine? ⟨number, start, indent ++ '@' :: c :: t⟩ =
      ((Property.ofLine? number (indent ++ '@' :: c :: t)).map .property).or
        ((Opener.ofLine? ⟨number, start, indent ++ '@' :: c :: t⟩).map .opener) := by
  have htrim : (SourceLine.mk number start (indent ++ '@' :: c :: t)).trimmed =
      '@' :: c :: Text.trimEnd t := by
    rw [SourceLine.trimmed, hindent.trim_append, Text.trim_cons (by decide),
      Text.trimEnd_cons hspace]
  have hskip : Text.skipBlanks (indent ++ '@' :: c :: t) = '@' :: c :: t := by
    rw [hindent.skipBlanks_append, Text.skipBlanks_cons (by decide)]
  have hmethod : Method.ofLine? number (indent ++ '@' :: c :: t) = none := by
    simp [Method.ofLine?, hskip]
  rw [ofLine?, htrim, hmethod, if_neg (by simp [isPassedOver]), if_neg (by simp [hc])]
  rfl

end Mark

/-- Whether a method is printed as a line that reads as a method. -/
def Method.isReadable (m : Method) : Bool := !m.returnType.isEmpty && !m.signature.isEmpty

section Members
variable {indent : Text} (hindent : Text.IsIndent indent)
include hindent

theorem Property.ofLine?_keyword (number : Int) (rest : Text) :
    ofLine? number (indent ++ (keyword ++ rest)) =
      (withAttributes? number rest).or (withoutAttributes? number rest) := by
  have hskip : Text.skipBlanks (keyword ++ rest) = keyword ++ rest :=
    Text.skipBlanks_cons (by decide) _
  rw [ofLine?, hindent.skipBlanks_append, hskip, Text.after?_append]

theorem Property.ofLine?_propertyLine (number : Int) {p : Property} (hp : p.WellFormed)
    (hopen : p.attributes = [] → p.declaration.head? ≠ some '(') :
    ofLine? number (indent ++ propertyLine p) = some { p with line := number } := by
  obtain ⟨attributes, declaration, line⟩ := p
  obtain ⟨hattributes, htrim, hfree, -⟩ := hp
  have hbefore : nonemptyBefore? (· == ';') (' ' :: (declaration ++ [';'])) =
      some (' ' :: declaration) := by
    have hall : ∀ c ∈ ' ' :: declaration, (c == ';') = false := by
      simp only [List.mem_cons, forall_eq_or_imp, beq_eq_false_iff_ne]
      exact ⟨by decide, fun c hc heq => hfree (heq ▸ hc)⟩
    exact nonemptyBefore?_append (p := (· == ';')) (by simp) hall rfl []
  have hdeclaration : Text.trim (' ' :: declaration) = declaration := by
    rw [Text.trim_cons_of_isSpace (by decide), htrim]
  rcases hattributes with rfl | ⟨inner, rfl, hclose, -⟩
  · have hline : propertyLine ⟨[], declaration, line⟩ =
        keyword ++ ' ' :: (declaration ++ [';']) := by simp [propertyLine, keyword]
    have hnone : parenthesised? (' ' :: (declaration ++ [';'])) = none := by
      apply parenthesised?_eq_none
      rw [Text.skipBlanks_cons_of_isBlank rfl]
      have hstart := (Text.trim_eq_self_iff.mp htrim).1
      have hskip : Text.StartsOutside Text.isBlank (declaration ++ [';']) := by
        cases declaration with
        | nil => exact Text.startsOutside_cons.mpr (by decide)
        | cons c r =>
          exact Text.startsOutside_cons.mpr
            (isBlank_eq_false_of_isSpace (Text.startsOutside_cons.mp hstart))
      rw [Text.skipBlanks, Text.dropWhile_of_startsOutside hskip]
      cases declaration with
      | nil => exact Text.startsOutside_cons.mpr (by decide)
      | cons c r => simpa using hopen rfl
    rw [hline, ofLine?_keyword hindent, withAttributes?, hnone, withoutAttributes?, hbefore,
      Option.none_or, Option.map_some, hdeclaration]
  · have hline : propertyLine ⟨'(' :: (inner ++ [')']), declaration, line⟩ =
        keyword ++ ' ' :: '(' :: (inner ++ ')' :: ' ' :: (declaration ++ [';'])) := by
      simp [propertyLine, keyword]
    rw [hline, ofLine?_keyword hindent, withAttributes?, parenthesised?_append hclose]
    simp only [hbefore, Option.map_some, Option.some_or, hdeclaration, List.cons_append]

theorem Method.ofLine?_methodLine (number : Int) {m : Method} (hm : m.WellFormed) :
    ofLine? number (indent ++ methodLine m) =
      if m.isReadable then some { m with line := number } else none := by
  obtain ⟨sigil, type, signature, line⟩ := m
  obtain ⟨hsigil, htype, ⟨hclose, -⟩, hsignature, hends, -⟩ := hm
  obtain ⟨sign, rfl, hsign⟩ : ∃ sign, sigil = [sign] ∧ (sign = '+' ∨ sign = '-') := by
    rcases hsigil with h | h
    · exact ⟨'+', h, .inl rfl⟩
    · exact ⟨'-', h, .inr rfl⟩
  have hline : methodLine ⟨[sign], type, signature, line⟩ =
      sign :: ' ' :: '(' :: (type ++ ')' :: (signature ++ [';'])) := by simp [methodLine]
  have hskip : ∀ t, Text.skipBlanks (sign :: t) = sign :: t := by
    intro t
    apply Text.skipBlanks_cons
    rcases hsign with rfl | rfl <;> decide
  have hparen : parenthesised? (' ' :: '(' :: (type ++ ')' :: (signature ++ [';']))) =
      some (type, signature ++ [';']) := parenthesised?_append hclose _
  rw [ofLine?, hindent.skipBlanks_append, hline, hskip]
  simp only [beq_iff_eq, Bool.or_eq_true, if_pos hsign, hparen, isReadable]
  cases type with
  | nil => simp
  | cons c type =>
    cases signature with
    | nil => simp [nonemptyBefore?_cons (p := endsSignature) (c := ';') rfl]
    | cons d signature =>
      have hbefore : nonemptyBefore? endsSignature (d :: signature ++ [';']) =
          some (d :: signature) := nonemptyBefore?_append (by simp) hends rfl []
      simp only at htype hsignature
      simp only [hbefore, htype, hsignature, Option.map_some]
      rfl

theorem Mark.ofLine?_propertyLine (number start : Nat) {p : Property} (hp : p.WellFormed)
    (hopen : p.attributes = [] → p.declaration.head? ≠ some '(') :
    ofLine? ⟨number, start, indent ++ propertyLine p⟩ =
      some (.property { p with line := number }) := by
  have hread := Property.ofLine?_propertyLine hindent number hp hopen
  obtain ⟨t, hline⟩ : ∃ t, propertyLine p = '@' :: 'p' :: t := by
    unfold propertyLine
    split_ifs <;> exact ⟨_, rfl⟩
  rw [hline] at hread ⊢
  rw [ofLine?_at hindent number start (by decide) (by decide), hread]
  rfl

theorem Mark.ofLine?_methodLine (number start : Nat) {m : Method} (hm : m.WellFormed) :
    ofLine? ⟨number, start, indent ++ methodLine m⟩ =
      if m.isReadable then some (.method { m with line := number }) else none := by
  have hread := Method.ofLine?_methodLine hindent number hm
  have hsign : ofLine? ⟨number, start, indent ++ methodLine m⟩ =
      (Method.ofLine? number (indent ++ methodLine m)).map .method := by
    unfold methodLine
    rcases hm.sigil with h | h <;> rw [h] <;>
      exact ofLine?_of_ne_at hindent number start (by decide) (by decide) _
  rw [hsign, hread]
  split_ifs <;> rfl

end Members

theorem not_mem_propertyLine {p : Property} (hp : p.WellFormed) : '\n' ∉ propertyLine p := by
  have hdeclaration := hp.declaration_free.2
  have hattributes : '\n' ∉ p.attributes := by
    rcases hp.attributes with h | ⟨inner, h, -, hinner⟩
    · simp [h]
    · simp [h, hinner]
  unfold propertyLine
  split_ifs <;> simp [hdeclaration, hattributes]

theorem not_mem_methodLine {m : Method} (hm : m.WellFormed) : '\n' ∉ methodLine m := by
  have htype := hm.returnType_free.2
  have hsignature := hm.signature_free.2
  unfold methodLine
  rcases hm.sigil with h | h <;> simp [h, htype, hsignature]

theorem ne_of_isWordChar {c d : Char} (hc : Text.isWordChar c = true)
    (hd : Text.isWordChar d = false) : c ≠ d := by
  rintro rfl
  rw [hd] at hc
  cases hc

/-- A variable is printed as two words with a space, or a space and a star, between them. -/
theorem fieldLine_eq {f : Field} (hf : f.WellFormed) : ∃ (word : Text) (isPointer : Bool),
    Text.IsWord word ∧ Text.IsWord f.name ∧ f.type = (if isPointer then word ++ " *" else word) ∧
      fieldLine f = word ++ ((if isPointer then [' ', '*'] else [' ']) ++ (f.name ++ [';'])) := by
  obtain ⟨htype, hname⟩ := hf
  unfold fieldLine
  rcases htype with hword | ⟨word, hword, htype⟩
  · have hlast : f.type.getLast? ≠ some '*' := by
      intro hstar
      have := hword.2 _ (List.mem_of_getLast? hstar)
      revert this
      decide
    exact ⟨f.type, false, hword, hname, rfl, by simp [hlast]⟩
  · exact ⟨word, true, hword, hname, htype, by simp [htype]⟩

theorem mem_fieldLine {f : Field} (hf : f.WellFormed) {c : Char} (hc : c ∈ fieldLine f) :
    Text.isWordChar c ∨ c ∈ [' ', '*', ';'] := by
  obtain ⟨word, isPointer, hword, hname, -, hline⟩ := fieldLine_eq hf
  rw [hline] at hc
  simp only [List.mem_append] at hc
  rcases hc with hc | hc | hc | hc
  · exact .inl (hword.2 c hc)
  · right
    cases isPointer <;> simp at hc ⊢ <;> grind
  · exact .inl (hname.2 c hc)
  · right
    simp at hc ⊢
    exact .inr (.inr hc)

theorem Field.ofDeclaration?_fieldLine {f : Field} (hf : f.WellFormed) :
    ofDeclaration? (fieldLine f) = some f := by
  obtain ⟨word, isPointer, hword, hname, htype, hline⟩ := fieldLine_eq hf
  have hrest : Text.StartsOutside Text.isWordChar
      ((if isPointer then [' ', '*'] else [' ']) ++ (f.name ++ [';'])) := by
    cases isPointer <;> exact Text.startsOutside_cons.mpr (by decide)
  have hskip := Text.skipBlanks_word hname [';']
  have hseparator : separator? ((if isPointer then [' ', '*'] else [' ']) ++ (f.name ++ [';'])) =
      some (isPointer, f.name ++ [';']) := by
    cases isPointer with
    | true =>
      have hstar : Text.skipBlanks (' ' :: '*' :: (f.name ++ [';'])) = '*' :: (f.name ++ [';']) :=
        rfl
      simp only [if_true, List.cons_append, List.nil_append, separator?, hstar, hskip]
    | false =>
      have hspace : Text.skipBlanks (' ' :: (f.name ++ [';'])) = f.name ++ [';'] := hskip
      have hsome : Text.skipBlanks? (' ' :: (f.name ++ [';'])) = some (f.name ++ [';']) := by
        rw [Text.skipBlanks?, if_pos (by decide), hskip]
      simp only [Bool.false_eq_true, if_false, List.cons_append, List.nil_append, separator?,
        hspace, hsome]
      split
      next r hstar =>
        have houtside := hname.startsOutside [';'] (p := (· == '*'))
          fun c hc => beq_eq_false_iff_ne.mpr (ne_of_isWordChar hc (by decide))
        rw [hstar] at houtside
        simp at houtside
      · rfl
  have hend : Text.word? (f.name ++ [';']) = some (f.name, [';']) :=
    Text.word?_append hname (Text.startsOutside_cons.mpr (by decide))
  have hsemicolon : Text.skipBlanks [';'] = [';'] := rfl
  rw [hline, ofDeclaration?, Text.word?_append hword hrest]
  simp only [hseparator, hend, hsemicolon, ← htype]

/-- The first character of a printed variable is a letter, a digit or an underscore. -/
theorem exists_fieldLine_eq {f : Field} (hf : f.WellFormed) : ∃ (c : Char) (t : Text),
    Text.isWordChar c = true ∧ fieldLine f = c :: (t ++ [';']) := by
  obtain ⟨word, isPointer, hword, hname, -, hline⟩ := fieldLine_eq hf
  obtain ⟨c, w, rfl⟩ := List.exists_cons_of_ne_nil hword.1
  refine ⟨c, w ++ ((if isPointer then [' ', '*'] else [' ']) ++ f.name), hword.2 c (by simp), ?_⟩
  simp [hline]

theorem not_mem_fieldLine {f : Field} (hf : f.WellFormed) {c : Char}
    (hword : Text.isWordChar c = false) (hc : c ∉ [' ', '*', ';']) : c ∉ fieldLine f := by
  intro h
  rcases mem_fieldLine hf h with h | h
  · rw [hword] at h
    cases h
  · exact hc h

section FieldLine
variable {indent : Text} (hindent : Text.IsIndent indent) {f : Field} (hf : f.WellFormed)
include hindent hf

theorem Field.ofLine?_fieldLine : ofLine? (indent ++ fieldLine f) = some f := by
  obtain ⟨c, t, hc, hline⟩ := exists_fieldLine_eq hf
  have hspace := Text.isSpace_eq_false_of_isWordChar hc
  have htrim : Text.trim (fieldLine f) = fieldLine f := by
    rw [hline]
    exact Text.trim_cons_append hspace t (by simp) (by decide)
  have hpassed : isPassedOver (fieldLine f) = false := by
    have hhash : c ≠ '#' := ne_of_isWordChar hc (by decide)
    have hstar : c ≠ '*' := ne_of_isWordChar hc (by decide)
    have hslash : c ≠ '/' := ne_of_isWordChar hc (by decide)
    rw [hline]
    unfold isPassedOver
    split <;> simp_all
  have hvisibility : dropVisibility (fieldLine f) = fieldLine f := by
    have hat : c ≠ '@' := ne_of_isWordChar hc (by decide)
    rw [hline]
    unfold dropVisibility
    split
    next r heq => exact absurd (List.cons.inj heq).1 hat
    · rfl
  unfold ofLine?
  simp only [hindent.trim_append, htrim, hpassed, hvisibility, Bool.false_eq_true, if_false]
  exact ofDeclaration?_fieldLine hf

theorem Mark.ofLine?_fieldLine (number start : Nat) :
    ofLine? ⟨number, start, indent ++ fieldLine f⟩ = none := by
  obtain ⟨c, t, hc, hline⟩ := exists_fieldLine_eq hf
  rw [hline]
  exact ofLine?_other hindent number start (Text.isSpace_eq_false_of_isWordChar hc)
    ⟨ne_of_isWordChar hc (by decide), ne_of_isWordChar hc (by decide),
      ne_of_isWordChar hc (by decide)⟩ _

theorem not_mem_indented {c : Char} (hword : Text.isWordChar c = false)
    (hc : c ∉ [' ', '\t', '*', ';']) : c ∉ indent ++ fieldLine f := by
  simp only [List.mem_cons, List.not_mem_nil, or_false, not_or] at hc
  rw [List.mem_append, not_or]
  constructor
  · exact hindent.not_mem (by simp [hc])
  · exact not_mem_fieldLine hf hword (by simp [hc])

end FieldLine

end ObjcOutline
