import ObjcOutline.Proofs.Entries
import ObjcOutline.Proofs.OutlineLines

/-!
# Lines with more space around and between them

A text is loosened by blanks at the two ends of its lines and by lines in between that are blank or
hold nothing but a line comment. No line then declares anything else than before: methods and
properties are read up to a closing character that blanks do not have, headers and `@end` from the
trimmed line. And no block has other instance variables: blanks are passed over on the way to the
braces and trimmed inside them, and an added line neither opens nor closes a brace or a comment.

So every line of the loosened text gives the entry that it gave before, and an added line gives
none.
-/
namespace ObjcOutline

namespace Text

/-- Spaces, tabs and carriage returns only. -/
def IsTrailing (t : Text) : Prop := ∀ c ∈ t, c = ' ' ∨ c = '\t' ∨ c = '\r'

namespace IsTrailing
variable {after : Text} (h : IsTrailing after)
include h

theorem isBlank {c : Char} (hc : c ∈ after) : Text.isBlank c = true := by
  rcases h c hc with rfl | rfl | rfl <;> rfl

theorem isSpace {c : Char} (hc : c ∈ after) : Text.isSpace c = true := by
  rcases h c hc with rfl | rfl | rfl <;> rfl

theorem not_mem {c : Char} (hc : c ∉ [' ', '\t', '\r']) : c ∉ after := by
  intro hmem
  rcases h c hmem with rfl | rfl | rfl <;> exact hc (by decide)

theorem ne_cons {c : Char} (hc : c ∉ [' ', '\t', '\r']) (t : Text) : after ≠ c :: t := by
  rintro rfl
  exact h.not_mem hc (by simp)

end IsTrailing

theorem IsIndent.isTrailing {t : Text} (h : IsIndent t) : IsTrailing t := by
  intro c hc
  rcases h c hc with rfl | rfl
  · exact .inl rfl
  · exact .inr (.inl rfl)

/-- `padded` is `line` with spaces and tabs before it and with trailing blanks. -/
def Padded (line padded : Text) : Prop :=
  ∃ before after, IsIndent before ∧ IsTrailing after ∧ padded = before ++ (line ++ after)

theorem Padded.refl (line : Text) : Padded line line :=
  ⟨[], [], .nil, by simp [IsTrailing], by simp⟩

theorem Padded.append_right {line after : Text} (h : IsTrailing after) :
    Padded line (line ++ after) := ⟨[], after, .nil, h, rfl⟩

/-- A line that can be added anywhere: a blank one, or a comment that closes neither braces nor a
block comment around it. -/
inductive IsFiller : Text → Prop
  | blank {line : Text} (h : IsIndent line) : IsFiller line
  | comment {indent note : Text} (hindent : IsIndent indent) (hline : '\n' ∉ note)
      (hbrace : '}' ∉ note) (hend : ¬ ['*', '/'] <:+: '/' :: '/' :: note) :
      IsFiller (indent ++ '/' :: '/' :: note)

/-- The second list holds the lines of the first, padded, and fillers between them. -/
inductive Loosened : List Text → List Text → Prop
  | nil : Loosened [] []
  | line {raw padded : Text} {ls loose : List Text} (h : Padded raw padded)
      (hls : Loosened ls loose) : Loosened (raw :: ls) (padded :: loose)
  | filler {added : Text} {ls loose : List Text} (h : IsFiller added)
      (hls : Loosened ls loose) : Loosened ls (added :: loose)

theorem Loosened.refl (ls : List Text) : Loosened ls ls := by
  induction ls with
  | nil => exact .nil
  | cons l ls ih => exact .line (.refl l) ih

theorem Padded.not_mem {line padded : Text} (h : Padded line padded) (hline : '\n' ∉ line) :
    '\n' ∉ padded := by
  obtain ⟨before, after, hbefore, hafter, rfl⟩ := h
  have h₁ : '\n' ∉ before := hbefore.not_mem (by decide)
  have h₂ : '\n' ∉ after := hafter.not_mem (by decide)
  simp [h₁, h₂, hline]

theorem IsFiller.not_mem {added : Text} (h : IsFiller added) : '\n' ∉ added ∧ '}' ∉ added := by
  cases h with
  | blank h => exact ⟨h.not_mem (by decide), h.not_mem (by decide)⟩
  | @comment indent note hindent hline hbrace _ =>
    have hfeed : '\n' ∉ indent := hindent.not_mem (by decide)
    have hclose : '}' ∉ indent := hindent.not_mem (by decide)
    simp [hfeed, hclose, hline, hbrace]

theorem Loosened.not_mem {ls loose : List Text} (h : Loosened ls loose)
    (hls : ∀ l ∈ ls, '\n' ∉ l) : ∀ l ∈ loose, '\n' ∉ l := by
  induction h with
  | nil => exact hls
  | line hpadded _ ih =>
    rw [List.forall_mem_cons] at hls ⊢
    exact ⟨hpadded.not_mem hls.1, ih hls.2⟩
  | filler hadded _ ih =>
    rw [List.forall_mem_cons]
    exact ⟨hadded.not_mem.1, ih hls⟩

theorem trim_append_trailing {s : Text} (h : ∀ c ∈ s, isSpace c = true) (t : Text) :
    trim (t ++ s) = trim t := by
  have hend (x : Text) : trimEnd (x ++ s) = trimEnd x := by
    unfold trimEnd
    rw [List.reverse_append, List.dropWhile_append_of_pos (by simpa using h)]
  have hall : s.dropWhile isSpace = [] := List.dropWhile_eq_nil_iff.mpr h
  unfold trim trimStart
  rw [List.dropWhile_append]
  split_ifs with hempty
  · rw [hall, List.isEmpty_iff.mp hempty]
  · exact hend _

theorem Padded.trim_eq {line padded : Text} (h : Padded line padded) : trim padded = trim line := by
  obtain ⟨before, after, hbefore, hafter, rfl⟩ := h
  rw [hbefore.trim_append, trim_append_trailing fun _ => hafter.isSpace]

theorem IsFiller.isPassedOver_trim {added : Text} (h : IsFiller added) :
    isPassedOver (trim added) = true := by
  cases h with
  | blank h =>
    have hempty := h.trim_append []
    rw [List.append_nil] at hempty
    rw [hempty]
    rfl
  | comment hindent _ _ _ =>
    rw [hindent.trim_append, trim_cons (by decide), trimEnd_cons (by decide)]
    rfl

/-- A class of characters without white space. -/
def SparesSpace (p : Char → Bool) : Prop := ∀ c, isSpace c = true → p c = false

theorem sparesSpace_beq {d : Char} (h : isSpace d = false) : SparesSpace (· == d) := by
  intro c hc
  rw [beq_eq_false_iff_ne]
  rintro rfl
  rw [h] at hc
  cases hc

theorem sparesSpace_endsSignature : SparesSpace endsSignature := by
  intro c hc
  have hbrace : (c == '{') = false := sparesSpace_beq (by decide) c hc
  have hsemicolon : (c == ';') = false := sparesSpace_beq (by decide) c hc
  rw [endsSignature, hbrace, hsemicolon]
  rfl

/-- Such a character is found where it was found before. -/
theorem cut?_padded {p : Char → Bool} (hp : SparesSpace p) {before after : Text}
    (hbefore : ∀ c ∈ before, isSpace c = true) (hafter : ∀ c ∈ after, isSpace c = true) (t : Text) :
    cut? p (before ++ (t ++ after)) = (cut? p t).map fun x => (before ++ x.1, x.2 ++ after) := by
  have hfree {s : Text} (hs : ∀ c ∈ s, isSpace c = true) : cut? p s = none :=
    cut?_eq_none fun c hc => hp c (hs c hc)
  rw [cut?_append_eq, cut?_append_eq, hfree hafter, hfree hbefore]
  cases cut? p t <;> rfl

end Text

open Text

theorem Field.ofLine?_padded {line padded : Text} (h : Padded line padded) :
    ofLine? padded = ofLine? line := by
  unfold ofLine?
  rw [h.trim_eq]

theorem Field.ofLine?_filler {added : Text} (h : IsFiller added) : ofLine? added = none := by
  unfold ofLine?
  exact if_pos h.isPassedOver_trim

namespace Scanned

/-- The same result on a line with more characters at its end. -/
def extend (after : Text) : Scanned → Scanned
  | failed => failed
  | goesOn inComment => goesOn inComment
  | opened rest => opened (rest ++ after)

theorem ofLine_indent {before : Text} (h : IsIndent before) (inComment : Bool) (t : Text) :
    ofLine inComment (before ++ t) = ofLine inComment t := by
  induction before with
  | nil => rfl
  | cons c before ih =>
    rw [← ih fun d hd => h d (by simp [hd])]
    rcases h c (by simp) with rfl | rfl <;> cases inComment <;> rfl

theorem ofLine_trailing {after : Text} (h : IsTrailing after) (inComment : Bool) :
    ofLine inComment after = goesOn inComment := by
  induction after with
  | nil => cases inComment <;> rfl
  | cons c after ih =>
    rw [← ih fun d hd => h d (by simp [hd])]
    rcases h c (by simp) with rfl | rfl | rfl <;> cases inComment <;> rfl

theorem ofLine_append_trailing {after : Text} (h : IsTrailing after) (inComment : Bool) (t : Text) :
    ofLine inComment (t ++ after) = (ofLine inComment t).extend after := by
  have hslash : ∀ s, after ≠ '/' :: s := h.ne_cons (by decide)
  have hstar : ∀ s, after ≠ '*' :: s := h.ne_cons (by decide)
  fun_induction ofLine inComment t with
  | case1 inComment => exact ofLine_trailing h inComment
  | case2 r ih => exact ih
  | case3 c r hend ih =>
    rw [← ih, List.cons_append, ofLine]
    exact fun s hc => append_ne_cons hslash (fun v => hend v hc) s
  | case4 r => rfl
  | case5 r ih => exact ih
  | case6 r => rfl
  | case7 c r hline hblock hbrace hblank ih =>
    rw [← ih, List.cons_append, ofLine, if_pos hblank]
    · exact fun s hc => append_ne_cons hslash (fun v => hline v hc) s
    · exact fun s hc => append_ne_cons hstar (fun v => hblock v hc) s
    · exact hbrace
  | case8 c r hline hblock hbrace hblank =>
    rw [List.cons_append, ofLine, if_neg hblank]
    · rfl
    · exact fun s hc => append_ne_cons hslash (fun v => hline v hc) s
    · exact fun s hc => append_ne_cons hstar (fun v => hblock v hc) s
    · exact hbrace

/-- A block comment stays open over a text that does not end it. -/
theorem ofLine_true {t : Text} (h : ¬ ['*', '/'] <:+: t) : ofLine true t = goesOn true := by
  induction t with
  | nil => rfl
  | cons c t ih =>
    have htail : ¬ ['*', '/'] <:+: t := fun hin => h (hin.trans (List.suffix_cons c t).isInfix)
    rw [ofLine, ih htail]
    rintro r rfl rfl
    exact h (List.prefix_append ['*', '/'] r).isInfix

theorem ofLine_filler {added : Text} (h : IsFiller added) (inComment : Bool) :
    ofLine inComment added = goesOn inComment := by
  cases h with
  | blank h => exact ofLine_trailing h.isTrailing inComment
  | comment hindent _ _ hend =>
    rw [ofLine_indent hindent]
    cases inComment with
    | false => rfl
    | true => exact ofLine_true hend

end Scanned

namespace Field
variable {ls loose : List Text}

/-- Inside the braces, a padded line gives the variable it gave before. -/
theorem untilBrace?_padded (hnil : untilBrace? [] loose = untilBrace? [] ls) {t padded : Text}
    (h : Padded t padded) : untilBrace? padded loose = untilBrace? t ls := by
  have hsame := ofLine?_padded h
  obtain ⟨before, after, hbefore, hafter, rfl⟩ := h
  have hcut := cut?_padded (sparesSpace_beq (d := '}') (by decide)) (fun _ => hbefore.isSpace)
    (fun _ => hafter.isSpace) t
  cases hx : cut? (· == '}') t with
  | none =>
    rw [hx] at hcut
    rw [untilBrace?_of_none hx, untilBrace?_of_none hcut, hnil, hsame]
  | some x =>
    have hindent : Padded x.1 (before ++ x.1) :=
      ⟨before, [], hbefore, by simp [IsTrailing], by simp⟩
    rw [hx] at hcut
    rw [untilBrace?_of_some hx, untilBrace?_of_some hcut, ofLine?_padded hindent]

theorem untilBrace?_loosened (h : Loosened ls loose) :
    untilBrace? [] loose = untilBrace? [] ls := by
  induction h with
  | nil => rfl
  | line hpadded _ ih =>
    rw [untilBrace?_nil_cons, untilBrace?_nil_cons, untilBrace?_padded ih hpadded]
  | @filler added _ _ hadded _ ih =>
    have hcut : cut? (· == '}') added = none := by
      apply cut?_eq_none
      intro c hc
      rw [beq_eq_false_iff_ne]
      rintro rfl
      exact hadded.not_mem.2 hc
    rw [untilBrace?_nil_cons, untilBrace?_of_none hcut, ofLine?_filler hadded, ih]
    exact Option.map_id'

/-- On the way to the braces, a padded line leads where it led before. -/
theorem fromLines?_padded (h : Loosened ls loose)
    (hnil : ∀ inComment, fromLines? inComment [] loose = fromLines? inComment [] ls)
    (inComment : Bool) {t padded : Text} (ht : Padded t padded) :
    fromLines? inComment padded loose = fromLines? inComment t ls := by
  obtain ⟨before, after, hbefore, hafter, rfl⟩ := ht
  have hscan : Scanned.ofLine inComment (before ++ (t ++ after)) =
      (Scanned.ofLine inComment t).extend after := by
    rw [Scanned.ofLine_indent hbefore, Scanned.ofLine_append_trailing hafter]
  cases ht : Scanned.ofLine inComment t with
  | failed =>
    rw [ht] at hscan
    rw [fromLines?_of_failed ht, fromLines?_of_failed hscan]
  | goesOn next =>
    rw [ht] at hscan
    rw [fromLines?_of_goesOn ht, fromLines?_of_goesOn hscan, hnil]
  | opened rest =>
    rw [ht] at hscan
    rw [fromLines?_of_opened ht, fromLines?_of_opened hscan]
    exact untilBrace?_padded (untilBrace?_loosened h) (.append_right hafter)

theorem fromLines?_loosened (h : Loosened ls loose) (inComment : Bool) :
    fromLines? inComment [] loose = fromLines? inComment [] ls := by
  induction h generalizing inComment with
  | nil => rfl
  | line hpadded hls ih =>
    rw [fromLines?_nil_cons, fromLines?_nil_cons, fromLines?_padded hls ih inComment hpadded]
  | filler hadded _ ih =>
    rw [fromLines?_nil_cons, fromLines?_of_goesOn (Scanned.ofLine_filler hadded inComment), ih]

end Field

section Members
variable {after : Text} (hafter : ∀ c ∈ after, isSpace c = true)
include hafter

theorem Text.skipBlanks_append_trailing (t : Text) :
    (skipBlanks t ≠ [] ∧ skipBlanks (t ++ after) = skipBlanks t ++ after) ∨
      (skipBlanks t = [] ∧ ∀ c ∈ skipBlanks (t ++ after), isSpace c = true) := by
  have hskip : skipBlanks (t ++ after) =
      if (skipBlanks t).isEmpty then skipBlanks after else skipBlanks t ++ after :=
    List.dropWhile_append
  by_cases hempty : skipBlanks t = []
  · rw [if_pos (List.isEmpty_iff.mpr hempty)] at hskip
    exact .inr ⟨hempty, fun c hc => hafter c (mem_of_mem_skipBlanks (hskip ▸ hc))⟩
  · rw [if_neg (by simpa using hempty)] at hskip
    exact .inl ⟨hempty, hskip⟩

theorem Text.after?_append_trailing {start : Text} (hstart : ∀ c ∈ start, isSpace c = false)
    (t : Text) : after? start (t ++ after) = (after? start t).map (· ++ after) := by
  induction start generalizing t with
  | nil => rfl
  | cons a start ih =>
    cases t with
    | nil =>
      cases after with
      | nil => rfl
      | cons c after =>
        have hne : a ≠ c := by
          rintro rfl
          have hspace := hafter a (by simp)
          rw [hstart a (by simp)] at hspace
          cases hspace
        simp [after?, hne]
    | cons c t =>
      rw [List.cons_append, after?, after?, ih fun d hd => hstart d (by simp [hd])]
      split_ifs <;> rfl

theorem parenthesised?_append_trailing (t : Text) :
    parenthesised? (t ++ after) = (parenthesised? t).map fun x => (x.1, x.2 ++ after) := by
  rcases skipBlanks_append_trailing hafter t with ⟨hne, hskip⟩ | ⟨hempty, hspace⟩
  · obtain ⟨c, r, ht⟩ := List.exists_cons_of_ne_nil hne
    rw [ht, List.cons_append] at hskip
    unfold parenthesised?
    rw [hskip, ht]
    by_cases hc : c = '('
    · subst hc
      exact cut?_padded (sparesSpace_beq (d := ')') (by decide)) (List.forall_mem_nil _) hafter r
    · simp [hc]
  · have hopen : StartsOutside (· == '(') (skipBlanks (t ++ after)) := fun c hc =>
      sparesSpace_beq (by decide) c (hspace c (List.mem_of_head? hc))
    rw [parenthesised?_eq_none hopen, parenthesised?_eq_none (hempty ▸ startsOutside_nil _),
      Option.map_none]

theorem nonemptyBefore?_append_trailing {p : Char → Bool} (hp : SparesSpace p) (t : Text) :
    nonemptyBefore? p (t ++ after) = nonemptyBefore? p t := by
  have hcut : cut? p (t ++ after) = (cut? p t).map fun x => (x.1, x.2 ++ after) :=
    cut?_padded hp (List.forall_mem_nil _) hafter t
  unfold nonemptyBefore?
  rw [hcut]
  cases cut? p t with
  | none => rfl
  | some x =>
    obtain ⟨before, rest⟩ := x
    cases before <;> rfl

theorem Method.ofLine?_append_trailing (number : Int) (line : Text) :
    ofLine? number (line ++ after) = ofLine? number line := by
  unfold ofLine?
  rcases skipBlanks_append_trailing hafter line with ⟨hne, hskip⟩ | ⟨hempty, hspace⟩
  · obtain ⟨sign, r, hline⟩ := List.exists_cons_of_ne_nil hne
    rw [hskip, hline]
    simp only [List.cons_append, parenthesised?_append_trailing hafter]
    split_ifs
    · cases parenthesised? r with
      | none => rfl
      | some x =>
        obtain ⟨type, rest⟩ := x
        cases type with
        | nil => rfl
        | cons c type =>
          simp only [Option.map_some,
            nonemptyBefore?_append_trailing hafter sparesSpace_endsSignature]
    · rfl
  · rw [hempty]
    cases hline : skipBlanks (line ++ after) with
    | nil => rfl
    | cons c r =>
      have hc := hspace c (hline ▸ List.mem_cons_self)
      have hplus : (c == '+') = false := sparesSpace_beq (by decide) c hc
      have hminus : (c == '-') = false := sparesSpace_beq (by decide) c hc
      simp [hplus, hminus]

theorem Property.ofLine?_append_trailing (number : Int) (line : Text) :
    ofLine? number (line ++ after) = ofLine? number line := by
  have hend : SparesSpace (· == ';') := sparesSpace_beq (by decide)
  have hkeyword : ∀ c ∈ keyword, isSpace c = false := by simp [keyword, isSpace]
  have hwith (rest : Text) :
      withAttributes? number (rest ++ after) = withAttributes? number rest := by
    unfold withAttributes?
    rw [parenthesised?_append_trailing hafter]
    cases parenthesised? rest with
    | none => rfl
    | some x => simp only [Option.map_some, nonemptyBefore?_append_trailing hafter hend]
  have hwithout (rest : Text) :
      withoutAttributes? number (rest ++ after) = withoutAttributes? number rest := by
    rw [withoutAttributes?, nonemptyBefore?_append_trailing hafter hend, withoutAttributes?]
  have hskip : after? keyword (skipBlanks (line ++ after)) =
      (after? keyword (skipBlanks line)).map (· ++ after) := by
    rcases skipBlanks_append_trailing hafter line with ⟨-, hskip⟩ | ⟨hempty, hspace⟩
    · rw [hskip, after?_append_trailing hafter hkeyword]
    · have hnone := after?_append_trailing hspace hkeyword []
      rw [List.nil_append] at hnone
      rw [hnone, hempty]
      rfl
  unfold ofLine?
  rw [hskip]
  cases after? keyword (skipBlanks line) with
  | none => rfl
  | some rest => simp only [Option.map_some, hwith, hwithout]

end Members

section Padding
variable {before after : Text}

theorem SourceLine.trimmed_padded (hbefore : ∀ c ∈ before, isSpace c = true)
    (hafter : ∀ c ∈ after, isSpace c = true) (number start : Nat) (line : Text) :
    trimmed ⟨number, 0, before ++ (line ++ after)⟩ = trimmed ⟨number, start, line⟩ := by
  rw [trimmed, trim_append_of_isSpace hbefore, trim_append_trailing hafter, trimmed]

/-- A padded line is read like the line that starts as many characters further right. -/
theorem Opener.ofLine?_padded (hbefore : ∀ c ∈ before, isSpace c = true)
    (hafter : ∀ c ∈ after, isSpace c = true) (number : Nat) (line : Text) :
    ofLine? ⟨number, 0, before ++ (line ++ after)⟩ = ofLine? ⟨number, before.length, line⟩ := by
  unfold ofLine?
  rw [SourceLine.trimmed_padded hbefore hafter number before.length]
  cases hheader : Header.ofTrimmed? (SourceLine.trimmed ⟨number, before.length, line⟩) with
  | none => rfl
  | some header =>
    have hstart : (before ++ (line ++ after)).takeWhile isSpace =
        before ++ line.takeWhile isSpace := by
      rw [List.takeWhile_append_of_pos hbefore, List.takeWhile_append, if_neg]
      intro hlength
      have hall : line.takeWhile isSpace = line :=
        (List.takeWhile_prefix isSpace).eq_of_length hlength
      have hempty : SourceLine.trimmed ⟨number, before.length, line⟩ = [] := by
        have hspace : ∀ c ∈ line, isSpace c = true := List.takeWhile_eq_self_iff.mp hall
        have := trim_append_of_isSpace hspace []
        rwa [List.append_nil] at this
      rw [hempty] at hheader
      cases hheader
    simp only [Option.map_some, SourceLine.contentStart, hstart, List.length_append, Nat.zero_add]

variable (hbefore : ∀ c ∈ before, isBlank c = true) (hafter : ∀ c ∈ after, isSpace c = true)
include hbefore hafter

theorem Method.ofLine?_padded (number : Int) (line : Text) :
    ofLine? number (before ++ (line ++ after)) = ofLine? number line := by
  rw [← ofLine?_append_trailing hafter number line, ofLine?, skipBlanks_append hbefore, ofLine?]

theorem Property.ofLine?_padded (number : Int) (line : Text) :
    ofLine? number (before ++ (line ++ after)) = ofLine? number line := by
  rw [← ofLine?_append_trailing hafter number line, ofLine?, skipBlanks_append hbefore, ofLine?]

/-- Blanks before a line and white space after it change nothing but the offset of a header. -/
theorem Mark.ofLine?_padded (number : Nat) (line : Text) :
    ofLine? ⟨number, 0, before ++ (line ++ after)⟩ = ofLine? ⟨number, before.length, line⟩ := by
  have hspace : ∀ c ∈ before, isSpace c = true := fun c hc => isSpace_of_isBlank (hbefore c hc)
  unfold ofLine?
  rw [SourceLine.trimmed_padded hspace hafter number before.length,
    Method.ofLine?_padded hbefore hafter, Property.ofLine?_padded hbefore hafter,
    Opener.ofLine?_padded hspace hafter]

end Padding

theorem Text.exists_eq_dropReturn_append (line : Text) :
    ∃ after, IsTrailing after ∧ line = dropReturn line ++ after := by
  unfold dropReturn
  split_ifs with hlast
  · exact ⟨['\r'], by simp [IsTrailing], (List.dropLast_append_getLast? '\r' hlast).symm⟩
  · exact ⟨[], by simp [IsTrailing], (List.append_nil line).symm⟩

/-- A carriage return at the end of a line is one more trailing blank. -/
theorem Mark.ofLine?_dropReturn (number : Nat) (line : Text) :
    ofLine? ⟨number, 0, dropReturn line⟩ = ofLine? ⟨number, 0, line⟩ := by
  obtain ⟨after, hafter, heq⟩ := exists_eq_dropReturn_append line
  have hpadded := ofLine?_padded (List.forall_mem_nil _) (fun _ => hafter.isSpace) number
    (dropReturn line)
  rw [List.nil_append, ← heq] at hpadded
  exact hpadded.symm

namespace Entry

/-- What is below a header can be loosened, and so can the rest of its line. -/
theorem ofMark_loosened {raw after : Text} {ls loose : List Text} (hafter : IsTrailing after)
    (h : Loosened ls loose) (hraw : '\n' ∉ raw) (hls : ∀ l ∈ ls, '\n' ∉ l) {m : Mark}
    (hend : ∀ o, m = .opener o → o.headerEnd ≤ raw.length) :
    ofMark ((raw ++ after) ++ Text.below loose) m = ofMark (raw ++ Text.below ls) m := by
  cases m with
  | opener o =>
    have hle := hend o rfl
    have hraw' : '\n' ∉ raw ++ after := Padded.not_mem (.append_right hafter) hraw
    have hle' : o.headerEnd ≤ (raw ++ after).length := by
      rw [List.length_append]
      omega
    have hpadded : Padded (raw.drop o.headerEnd) (raw.drop o.headerEnd ++ after) :=
      .append_right hafter
    have hrest := Field.fromLines?_padded h (Field.fromLines?_loosened h) false hpadded
    simp only [ofMark, Mark.opener?, Option.elim_some]
    rw [Block.fieldsOf_append_below hraw' (h.not_mem hls) hle',
      Block.fieldsOf_append_below hraw hls hle, List.drop_append_of_le_length hle, hrest]
  | closer line => rfl
  | method x => rfl
  | property x => rfl

/-- A padded line gives the entry that it gave before, however the lines below it are loosened. -/
theorem ofLine?_loosened {raw padded : Text} {ls loose : List Text} (hpadded : Padded raw padded)
    (h : Loosened ls loose) (hraw : '\n' ∉ raw) (hls : ∀ l ∈ ls, '\n' ∉ l) (number : Nat) :
    ofLine? number padded loose = ofLine? number raw ls := by
  obtain ⟨before, after, hbefore, hafter, rfl⟩ := hpadded
  have hfront : before ++ (raw ++ after) ++ Text.below loose =
      before ++ ((raw ++ after) ++ Text.below loose) := List.append_assoc ..
  rw [ofLine?, ofLine?, Mark.ofLine?_dropReturn, Mark.ofLine?_dropReturn,
    Mark.ofLine?_padded (fun _ => hbefore.isBlank) (fun _ => hafter.isSpace), hfront,
    map_ofMark_append]
  apply Option.map_congr
  intro m hm
  apply ofMark_loosened hafter h hraw hls
  rintro o rfl
  simpa using Opener.headerEnd_le (Mark.ofLine?_eq_opener hm)

theorem ofLine?_filler {added : Text} (h : IsFiller added) (number : Nat) (below : List Text) :
    ofLine? number added below = none := by
  have hnone : Mark.ofLine? ⟨number, 0, added⟩ = none := if_pos h.isPassedOver_trim
  rw [ofLine?, Mark.ofLine?_dropReturn, hnone, Option.map_none]

end Entry

end ObjcOutline
