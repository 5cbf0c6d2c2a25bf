import ObjcOutline.Proofs.JsonGrammar
import Mathlib.Tactic.SplitIfs

/-!
# Reading JSON

A text has at most one meaning under the grammar. The proof goes through a reader that takes a text
apart from left to right and accepts every text that the grammar derives, with what it stands for.

The reader runs on fuel, one unit for each nested value and for each element or member after
another; the length of the text is enough. A number is the only value that does not show its own
end, so what follows a value must not go on with a number.
-/
namespace ObjcOutline.Json

def skip (t : Text) : Text := t.dropWhile isSpacing

theorem skip_append {w : Text} (hw : IsSpacing w) (t : Text) : skip (w ++ t) = skip t :=
  List.dropWhile_append_of_pos hw

theorem skip_cons {c : Char} (hc : isSpacing c = false) (t : Text) : skip (c :: t) = c :: t :=
  Text.dropWhile_of_startsOutside (Text.startsOutside_cons.mpr hc)

/-- The first character of the rest of a string, in any of its forms. -/
def char? : Text → Option (Char × Text)
  | '\\' :: 'u' :: r =>
    match codeUnit? (r.take 4) with
    | none => none
    | some n =>
      if n.isValidChar then some (Char.ofNat n, r.drop 4)
      else match r.drop 4 with
        | '\\' :: 'u' :: s =>
          match codeUnit? (s.take 4) with
          | some low => (surrogates? n low).map fun c => (c, s.drop 4)
          | none => none
        | _ => none
  | '\\' :: letter :: r => (escaped? letter).map fun c => (c, r)
  | c :: r => if isPlain c then some (c, r) else none
  | [] => none

/-- The characters up to the closing quote, and the text after it. -/
def body? : (fuel : Nat) → Text → Option (Text × Text)
  | 0, _ => none
  | n + 1, t =>
    match char? t with
    | some (c, r) => (body? n r).map fun x => (c :: x.1, x.2)
    | none => (Text.after? ['"'] t).map fun r => ([], r)

def string? (t : Text) : Option (Text × Text) := body? (t.length + 1) t

theorem length_of_codeUnit? {digits : Text} {n : Nat} (h : codeUnit? digits = some n) :
    digits.length = 4 := by
  rw [codeUnit?] at h
  split_ifs at h with hlength
  exact hlength

theorem take_codeUnit {digits : Text} {n : Nat} (h : codeUnit? digits = some n) (r : Text) :
    (digits ++ r).take 4 = digits := by
  rw [← length_of_codeUnit? h, List.take_left]

theorem drop_codeUnit {digits : Text} {n : Nat} (h : codeUnit? digits = some n) (r : Text) :
    (digits ++ r).drop 4 = r := by
  rw [← length_of_codeUnit? h, List.drop_left]

/-- A high surrogate is no character by itself. -/
theorem not_isValidChar_of_surrogates? {high low : Nat} {c : Char}
    (h : surrogates? high low = some c) : ¬ high.isValidChar := by
  rw [surrogates?] at h
  split_ifs at h with hrange
  unfold Nat.isValidChar
  omega

theorem StringChar.char?_append {form : Text} {c : Char} (h : StringChar form c) (r : Text) :
    char? (form ++ r) = some (c, r) := by
  cases h with
  | plain hc =>
    have hback : c ≠ '\\' := ne_of_apply_ne isPlain (by rw [hc]; decide)
    rw [List.singleton_append, char?, if_pos hc]
    all_goals simp [hback]
  | @escaped letter _ hc =>
    have hu : letter ≠ 'u' := ne_of_apply_ne escaped? (by rw [hc]; exact Option.some_ne_none c)
    simp [char?, hc]
  | unit hn hvalid =>
    simp only [List.cons_append, char?, take_codeUnit hn, drop_codeUnit hn, hn, if_pos hvalid]
  | pair hhigh hlow hc =>
    simp only [List.cons_append, List.append_assoc, char?, take_codeUnit hhigh,
      drop_codeUnit hhigh, take_codeUnit hlow, drop_codeUnit hlow, hhigh, hlow, hc,
      if_neg (not_isValidChar_of_surrogates? hc), Option.map_some]

theorem StringChar.length_pos {form : Text} {c : Char} (h : StringChar form c) :
    0 < form.length := by
  cases h <;> exact Nat.succ_pos _

theorem StringBody.body?_append {body t : Text} (h : StringBody body t) {n : Nat}
    (hn : body.length < n) (r : Text) : body? n (body ++ '"' :: r) = some (t, r) := by
  induction h generalizing n with
  | nil =>
    cases n with
    | zero => exact absurd hn (Nat.lt_irrefl 0)
    | succ n => rfl
  | @cons form body t c hform _ ih =>
    have hpos := hform.length_pos
    rw [List.length_append] at hn
    cases n with
    | zero => exact absurd hn (Nat.not_lt_zero _)
    | succ n =>
      have hbody := ih (show body.length < n by omega)
      simp only [body?, List.append_assoc, hform.char?_append, hbody, Option.map_some]

theorem StringBody.string?_append {body t : Text} (h : StringBody body t) (r : Text) :
    string? (body ++ '"' :: r) = some (t, r) :=
  h.body?_append (by rw [List.length_append]; omega) r

/-- The characters that a number may go on with. -/
def isNumberChar (c : Char) : Bool := c.isDigit || c == '.' || isExponentMark c

/-- The leading digits, at least one. -/
def digits? (t : Text) : Option (Text × Text) :=
  match t.takeWhile Char.isDigit with
  | [] => none
  | c :: d => some (c :: d, t.dropWhile Char.isDigit)

def whole? (t : Text) : Option (Nat × Text) :=
  match digits? t with
  | some (d, r) => if d = ['0'] ∨ d.head? ≠ some '0' then some (digitsValue d, r) else none
  | none => none

def fraction? : Text → Option (Rat × Text)
  | '.' :: r => (digits? r).map fun x => ((digitsValue x.1 : Rat) / 10 ^ x.1.length, x.2)
  | t => some (0, t)

/-- The digits of an exponent after their sign. -/
def signedDigits? : Text → Option (Int × Text)
  | '+' :: r => (digits? r).map fun x => ((digitsValue x.1 : Int), x.2)
  | '-' :: r => (digits? r).map fun x => (-(digitsValue x.1 : Int), x.2)
  | r => (digits? r).map fun x => ((digitsValue x.1 : Int), x.2)

def exponent? : Text → Option (Int × Text)
  | [] => some (0, [])
  | c :: r => if isExponentMark c then signedDigits? r else some (0, c :: r)

def magnitude? (t : Text) : Option (Rat × Text) := do
  let (n, r) ← whole? t
  let (f, r) ← fraction? r
  let (e, r) ← exponent? r
  return ((n + f) * 10 ^ e, r)

def number? : Text → Option (Rat × Text)
  | '-' :: r => (magnitude? r).map fun x => (-x.1, x.2)
  | t => magnitude? t

theorem digits?_append {d : Text} (hd : IsDigits d) {r : Text}
    (hr : Text.StartsOutside Char.isDigit r) : digits? (d ++ r) = some (d, r) := by
  have htake : r.takeWhile Char.isDigit = [] := by
    cases r with
    | nil => rfl
    | cons c r => simp [Text.startsOutside_cons.mp hr]
  unfold digits?
  rw [List.takeWhile_append_of_pos hd.2, List.dropWhile_append_of_pos hd.2, htake,
    List.append_nil, Text.dropWhile_of_startsOutside hr]
  cases d with
  | nil => exact absurd rfl hd.1
  | cons c d => rfl

theorem Whole.whole?_append {t : Text} {n : Nat} (h : Whole t n) {r : Text}
    (hr : Text.StartsOutside Char.isDigit r) : whole? (t ++ r) = some (n, r) := by
  cases h with
  | zero =>
    have hdigits : IsDigits ['0'] := by
      refine ⟨List.cons_ne_nil _ _, fun c hc => ?_⟩
      rw [List.mem_singleton.mp hc]
      rfl
    rw [whole?, digits?_append hdigits hr]
    rfl
  | digits hd hhead =>
    simp only [whole?, digits?_append hd hr, if_pos (Or.inr hhead)]

theorem Fraction.fraction?_append {t : Text} {f : Rat} (h : Fraction t f) {r : Text}
    (hr : Text.StartsOutside (fun c => c.isDigit || c == '.') r) :
    fraction? (t ++ r) = some (f, r) := by
  cases h with
  | none =>
    cases r with
    | nil => rfl
    | cons c r =>
      have hc : c ≠ '.' := ne_of_apply_ne (fun c => c.isDigit || c == '.')
        (by rw [Text.startsOutside_cons.mp hr]; decide)
      simp [fraction?, hc]
  | digits hd =>
    have hr : Text.StartsOutside Char.isDigit r := fun c hc =>
      (Bool.or_eq_false_iff.mp (hr c hc)).1
    simp only [List.cons_append, fraction?, digits?_append hd hr, Option.map_some]

theorem signedDigits?_append {d : Text} (hd : IsDigits d) {r : Text}
    (hr : Text.StartsOutside Char.isDigit r) :
    signedDigits? (d ++ r) = some ((digitsValue d : Int), r) := by
  have hdigits := digits?_append hd hr
  obtain ⟨c, d', rfl⟩ := List.exists_cons_of_ne_nil hd.1
  have hc : c.isDigit = true := hd.2 c (List.mem_cons_self ..)
  have hplus : c ≠ '+' := ne_of_apply_ne Char.isDigit (by rw [hc]; decide)
  have hminus : c ≠ '-' := ne_of_apply_ne Char.isDigit (by rw [hc]; decide)
  rw [List.cons_append] at hdigits ⊢
  simp [signedDigits?, hplus, hminus, hdigits]

theorem Exponent.exponent?_append {t : Text} {e : Int} (h : Exponent t e) {r : Text}
    (hr : Text.StartsOutside isNumberChar r) : exponent? (t ++ r) = some (e, r) := by
  have hdigits : Text.StartsOutside Char.isDigit r := fun c hc =>
    (Bool.or_eq_false_iff.mp (Bool.or_eq_false_iff.mp (hr c hc)).1).1
  cases h with
  | none =>
    cases r with
    | nil => rfl
    | cons c r =>
      have hc := (Bool.or_eq_false_iff.mp (Text.startsOutside_cons.mp hr)).2
      simp [exponent?, hc]
  | digits he hd =>
    simp only [List.cons_append, exponent?, if_pos he, signedDigits?_append hd hdigits]
  | plus he hd =>
    simp only [List.cons_append, exponent?, if_pos he, signedDigits?, digits?_append hd hdigits,
      Option.map_some]
  | minus he hd =>
    simp only [List.cons_append, exponent?, if_pos he, signedDigits?, digits?_append hd hdigits,
      Option.map_some]

/-- An exponent starts with its mark, so no digit and no point follows the part before it. -/
theorem Exponent.startsOutside {t : Text} {e : Int} (h : Exponent t e) {r : Text}
    (hr : Text.StartsOutside isNumberChar r) :
    Text.StartsOutside (fun c => c.isDigit || c == '.') (t ++ r) := by
  have hmark : ∀ c, isExponentMark c = true → (c.isDigit || c == '.') = false := by
    intro c hc
    simp only [isExponentMark, Bool.or_eq_true, beq_iff_eq] at hc
    rcases hc with rfl | rfl <;> decide
  cases h with
  | none => exact fun c hc => (Bool.or_eq_false_iff.mp (hr c hc)).1
  | digits he _ => exact Text.startsOutside_cons.mpr (hmark _ he)
  | plus he _ => exact Text.startsOutside_cons.mpr (hmark _ he)
  | minus he _ => exact Text.startsOutside_cons.mpr (hmark _ he)

theorem Fraction.startsOutside {t : Text} {f : Rat} (h : Fraction t f) {r : Text}
    (hr : Text.StartsOutside (fun c => c.isDigit || c == '.') r) :
    Text.StartsOutside Char.isDigit (t ++ r) := by
  cases h with
  | none => exact fun c hc => (Bool.or_eq_false_iff.mp (hr c hc)).1
  | digits _ => exact Text.startsOutside_cons.mpr (by decide)

theorem Magnitude.magnitude?_append {t : Text} {q : Rat} (h : Magnitude t q) {r : Text}
    (hr : Text.StartsOutside isNumberChar r) : magnitude? (t ++ r) = some (q, r) := by
  obtain ⟨hwhole, hfraction, hexponent⟩ := h
  have hafter := hexponent.startsOutside hr
  rw [magnitude?, List.append_assoc, List.append_assoc,
    hwhole.whole?_append (hfraction.startsOutside hafter)]
  simp only [Option.bind_eq_bind, Option.bind_some, hfraction.fraction?_append hafter,
    hexponent.exponent?_append hr]
  rfl

theorem Whole.exists_cons {t : Text} {n : Nat} (h : Whole t n) :
    ∃ c r, t = c :: r ∧ c.isDigit = true := by
  cases h with
  | zero => exact ⟨_, _, rfl, by decide⟩
  | digits hd _ =>
    obtain ⟨c, r, rfl⟩ := List.exists_cons_of_ne_nil hd.1
    exact ⟨c, r, rfl, hd.2 c (List.mem_cons_self ..)⟩

theorem Magnitude.exists_cons {t : Text} {q : Rat} (h : Magnitude t q) :
    ∃ c r, t = c :: r ∧ c.isDigit = true := by
  obtain ⟨hwhole, _, _⟩ := h
  obtain ⟨c, r, rfl, hc⟩ := hwhole.exists_cons
  exact ⟨c, _, rfl, hc⟩

theorem Number.number?_append {t : Text} {q : Rat} (h : Number t q) {r : Text}
    (hr : Text.StartsOutside isNumberChar r) : number? (t ++ r) = some (q, r) := by
  cases h with
  | positive h =>
    have hmagnitude := h.magnitude?_append hr
    obtain ⟨c, t', rfl, hc⟩ := h.exists_cons
    have hminus : c ≠ '-' := ne_of_apply_ne Char.isDigit (by rw [hc]; decide)
    rw [List.cons_append] at hmagnitude ⊢
    simp [number?, hminus, hmagnitude]
  | negative h => simp only [List.cons_append, number?, h.magnitude?_append hr, Option.map_some]

theorem Number.exists_cons {t : Text} {q : Rat} (h : Number t q) :
    ∃ c r, t = c :: r ∧ isSpacing c = false := by
  have hdigit : ∀ c : Char, c.isDigit = true → isSpacing c = false := by
    intro c hc
    rw [Bool.eq_false_iff]
    intro hspacing
    simp only [isSpacing, Bool.or_eq_true, beq_iff_eq] at hspacing
    rcases hspacing with ((rfl | rfl) | rfl) | rfl <;> exact absurd hc (by decide)
  cases h with
  | positive h =>
    obtain ⟨c, r, rfl, hc⟩ := h.exists_cons
    exact ⟨c, r, rfl, hdigit c hc⟩
  | negative _ => exact ⟨'-', _, rfl, by decide⟩

/-- Things with commas between them up to the closing bracket, and the text after it, given readers
of one of them and of those after the first comma. -/
def listed? {α : Type} (item? : Text → Option (α × Text)) (others? : Text → Option (List α × Text))
    (closing : Char) (t : Text) : Option (List α × Text) :=
  match item? t with
  | some (a, c :: r) =>
    if c = ',' then (others? r).map fun x => (a :: x.1, x.2)
    else if c = closing then some ([a], r) else none
  | _ => none

/-- What stands after an opening bracket: listed things, or only spacing. -/
def bracketed? {α : Type} (items? : Text → Option (List α × Text)) (closing : Char) (t : Text) :
    Option (List α × Text) :=
  (items? t).or ((Text.after? [closing] (skip t)).map fun r => ([], r))

/-- The value at the start of a text, given readers of what stands between brackets. -/
def bare? (elements? : Text → Option (List Value × Text))
    (members? : Text → Option (List (Text × Value) × Text)) (t : Text) : Option (Value × Text) :=
  ((number? t).map fun x => (.number x.1, x.2)).or <|
    match t with
    | '"' :: r => (string? r).map fun x => (.string x.1, x.2)
    | '[' :: r => (bracketed? elements? ']' r).map fun x => (.array x.1, x.2)
    | '\x7b' :: r => (bracketed? members? '\x7d' r).map fun x => (.object x.1, x.2)
    | 'n' :: r => (Text.after? ['u', 'l', 'l'] r).map fun r => (.null, r)
    | 't' :: r => (Text.after? ['r', 'u', 'e'] r).map fun r => (.bool true, r)
    | 'f' :: r => (Text.after? ['a', 'l', 's', 'e'] r).map fun r => (.bool false, r)
    | _ => none

/-- The member at the start of a text, given a reader of values. -/
def member? (value? : Text → Option (Value × Text)) (t : Text) :
    Option ((Text × Value) × Text) := do
  let r ← Text.after? ['"'] (skip t)
  let (key, r) ← string? r
  let r ← Text.after? [':'] (skip r)
  let (v, r) ← value? r
  return ((key, v), r)

mutual

/-- A value with the spacing around it, and the text after that. -/
def value? : (fuel : Nat) → Text → Option (Value × Text)
  | 0, _ => none
  | n + 1, t => (bare? (elements? n) (members? n) (skip t)).map fun x => (x.1, skip x.2)

/-- The elements up to the closing bracket, and the text after it. -/
def elements? : (fuel : Nat) → Text → Option (List Value × Text)
  | 0, _ => none
  | n + 1, t => listed? (value? n) (elements? n) ']' t

/-- The members up to the closing bracket, and the text after it. -/
def members? : (fuel : Nat) → Text → Option (List (Text × Value) × Text)
  | 0, _ => none
  | n + 1, t => listed? (member? (value? n)) (members? n) '\x7d' t

end

/-- What a whole text stands for. -/
def read? (t : Text) : Option Value :=
  match value? t.length t with
  | some (v, []) => some v
  | _ => none

theorem value?_spacing {w : Text} (hw : IsSpacing w) (n : Nat) (t : Text) :
    value? n (w ++ t) = value? n t := by
  cases n with
  | zero => rfl
  | succ n => rw [value?, value?, skip_append hw]

/-- Spacing is not what a number goes on with. -/
theorem IsSpacing.startsOutside {w : Text} (hw : IsSpacing w) {r : Text}
    (hr : Text.StartsOutside isNumberChar r) : Text.StartsOutside isNumberChar (w ++ r) := by
  cases w with
  | nil => exact hr
  | cons c w =>
    have hc := hw c (List.mem_cons_self ..)
    simp only [isSpacing, Bool.or_eq_true, beq_iff_eq] at hc
    refine Text.startsOutside_cons.mpr ?_
    rcases hc with ((rfl | rfl) | rfl) | rfl <;> decide

section Brackets
variable {α : Type} {item? : Text → Option (α × Text)} {items? : Text → Option (List α × Text)}
variable {closing : Char}

theorem listed?_last (hclosing : closing ≠ ',') {t r : Text} {a : α}
    (h : item? t = some (a, closing :: r)) :
    listed? item? items? closing t = some ([a], r) := by
  rw [listed?, h]
  simp [hclosing]

theorem listed?_more {t r s : Text} {a : α} {as : List α} (h : item? t = some (a, ',' :: r))
    (hr : items? r = some (as, s)) :
    listed? item? items? closing t = some (a :: as, s) := by
  rw [listed?, h]
  simp [hr]

theorem listed?_none {t : Text} (h : item? t = none) :
    listed? item? items? closing t = none := by
  rw [listed?, h]

theorem bracketed?_items {t r : Text} {as : List α} (h : items? t = some (as, r)) :
    bracketed? items? closing t = some (as, r) := by
  rw [bracketed?, h]
  rfl

theorem bracketed?_empty (hclosing : isSpacing closing = false) {w r : Text} (hw : IsSpacing w)
    (h : items? (w ++ closing :: r) = none) :
    bracketed? items? closing (w ++ closing :: r) = some ([], r) := by
  rw [bracketed?, h, skip_append hw, skip_cons hclosing]
  simp [Text.after?]

end Brackets

theorem elements?_closed {w : Text} (hw : IsSpacing w) (n : Nat) (r : Text) :
    elements? n (w ++ ']' :: r) = none := by
  cases n with
  | zero => rfl
  | succ n =>
    refine listed?_none ?_
    rw [value?_spacing hw]
    cases n with
    | zero => rfl
    | succ n => rfl

theorem members?_closed {w : Text} (hw : IsSpacing w) (n : Nat) (r : Text) :
    members? n (w ++ '\x7d' :: r) = none := by
  cases n with
  | zero => rfl
  | succ n =>
    refine listed?_none ?_
    rw [member?, skip_append hw]
    rfl

section Bare
variable {elements? : Text → Option (List Value × Text)}
variable {members? : Text → Option (List (Text × Value) × Text)}

theorem bare?_number {t : Text} {q : Rat} (h : Number t q) {r : Text}
    (hr : Text.StartsOutside isNumberChar r) :
    bare? elements? members? (t ++ r) = some (.number q, r) := by
  unfold bare?
  rw [h.number?_append hr]
  rfl

theorem bare?_string {body t : Text} (h : StringBody body t) (r : Text) :
    bare? elements? members? ('"' :: (body ++ ['"']) ++ r) = some (.string t, r) := by
  rw [List.cons_append, List.append_assoc, List.singleton_append, bare?, h.string?_append]
  rfl

theorem bare?_array {t r : Text} {vs : List Value}
    (h : bracketed? elements? ']' (t ++ ']' :: r) = some (vs, r)) :
    bare? elements? members? ('[' :: (t ++ [']']) ++ r) = some (.array vs, r) := by
  rw [List.cons_append, List.append_assoc, List.singleton_append, bare?, h]
  rfl

theorem bare?_object {t r : Text} {ms : List (Text × Value)}
    (h : bracketed? members? '\x7d' (t ++ '\x7d' :: r) = some (ms, r)) :
    bare? elements? members? ('\x7b' :: (t ++ ['\x7d']) ++ r) = some (.object ms, r) := by
  rw [List.cons_append, List.append_assoc, List.singleton_append, bare?, h]
  rfl

end Bare

/-- How the readers take up a phrase, given fuel for its length. -/
def IsRead (t : Text) : Phrase → Prop
  | .value v => ∀ n r, t.length ≤ n → Text.StartsOutside isNumberChar r →
      value? n (t ++ r) = some (v, skip r)
  | .elements vs => ∀ n r, t.length ≤ n → elements? (n + 1) (t ++ ']' :: r) = some (vs, r)
  | .member m => ∀ n r, t.length ≤ n → Text.StartsOutside isNumberChar r →
      member? (value? n) (t ++ r) = some (m, skip r)
  | .members ms => ∀ n r, t.length ≤ n → members? (n + 1) (t ++ '\x7d' :: r) = some (ms, r)

/-- A value that starts with no spacing is read with one unit of fuel more than what is in it. -/
theorem isRead_of_bare {c : Char} {t : Text} {v : Value} (hc : isSpacing c = false)
    (h : ∀ n r, t.length ≤ n → Text.StartsOutside isNumberChar r →
      bare? (elements? n) (members? n) (c :: t ++ r) = some (v, r)) :
    IsRead (c :: t) (.value v) := by
  intro n r hn hr
  cases n with
  | zero => exact absurd hn (Nat.not_succ_le_zero _)
  | succ n =>
    have hbare := h n r (Nat.le_of_succ_le_succ hn) hr
    rw [List.cons_append] at hbare ⊢
    rw [value?, skip_cons hc, hbare]
    rfl

theorem IsRead.lastElement {t : Text} {v : Value} (h : IsRead t (.value v)) :
    IsRead t (.elements [v]) := by
  intro n r hn
  have hv := h n (']' :: r) hn (Text.startsOutside_cons.mpr (by decide))
  rw [skip_cons (by decide)] at hv
  exact listed?_last (by decide) hv

theorem IsRead.element {t r : Text} {v : Value} {vs : List Value} (h : IsRead t (.value v))
    (hr : IsRead r (.elements vs)) : IsRead (t ++ ',' :: r) (.elements (v :: vs)) := by
  intro n s hn
  rw [List.length_append, List.length_cons] at hn
  obtain ⟨k, rfl⟩ : ∃ k, n = k + 1 := ⟨n - 1, by omega⟩
  have hv := h (k + 1) (',' :: (r ++ ']' :: s)) (by omega)
    (Text.startsOutside_cons.mpr (by decide))
  rw [skip_cons (by decide)] at hv
  rw [List.append_assoc]
  exact listed?_more hv (hr k s (by omega))

theorem IsRead.lastMember {t : Text} {m : Text × Value} (h : IsRead t (.member m)) :
    IsRead t (.members [m]) := by
  intro n r hn
  have hm := h n ('\x7d' :: r) hn (Text.startsOutside_cons.mpr (by decide))
  rw [skip_cons (by decide)] at hm
  exact listed?_last (by decide) hm

theorem IsRead.members {t r : Text} {m : Text × Value} {ms : List (Text × Value)}
    (h : IsRead t (.member m)) (hr : IsRead r (.members ms)) :
    IsRead (t ++ ',' :: r) (.members (m :: ms)) := by
  intro n s hn
  rw [List.length_append, List.length_cons] at hn
  obtain ⟨k, rfl⟩ : ∃ k, n = k + 1 := ⟨n - 1, by omega⟩
  have hm := h (k + 1) (',' :: (r ++ '\x7d' :: s)) (by omega)
    (Text.startsOutside_cons.mpr (by decide))
  rw [skip_cons (by decide)] at hm
  rw [List.append_assoc]
  exact listed?_more hm (hr k s (by omega))

theorem IsRead.spaced {before t after : Text} {v : Value} (hbefore : IsSpacing before)
    (h : IsRead t (.value v)) (hafter : IsSpacing after) :
    IsRead (before ++ (t ++ after)) (.value v) := by
  intro n r hn hr
  rw [List.length_append, List.length_append] at hn
  rw [List.append_assoc, value?_spacing hbefore, List.append_assoc,
    h n _ (by omega) (hafter.startsOutside hr), skip_append hafter]

theorem IsRead.member {before body after t key : Text} {v : Value} (hbefore : IsSpacing before)
    (hbody : StringBody body key) (hafter : IsSpacing after) (h : IsRead t (.value v)) :
    IsRead (before ++ '"' :: (body ++ '"' :: (after ++ ':' :: t))) (.member (key, v)) := by
  intro n r hn hr
  simp only [List.length_append, List.length_cons] at hn
  simp only [List.append_assoc, List.cons_append, member?, skip_append hbefore]
  rw [skip_cons (by decide)]
  have hquote : Text.after? ['"'] ('"' :: (body ++ '"' :: (after ++ ':' :: (t ++ r)))) =
      some (body ++ '"' :: (after ++ ':' :: (t ++ r))) := rfl
  have hcolon : Text.after? [':'] (':' :: (t ++ r)) = some (t ++ r) := rfl
  simp only [Option.bind_eq_bind, hquote, Option.bind_some, hbody.string?_append,
    skip_append hafter, skip_cons (show isSpacing ':' = false by decide), hcolon,
    h n r (by omega) hr]
  rfl

/-- Every text that the grammar derives is read. -/
theorem Derives.isRead {t : Text} {p : Phrase} (h : Derives t p) : IsRead t p := by
  induction h with
  | null => exact isRead_of_bare (by decide) fun _ _ _ _ => rfl
  | boolTrue => exact isRead_of_bare (by decide) fun _ _ _ _ => rfl
  | boolFalse => exact isRead_of_bare (by decide) fun _ _ _ _ => rfl
  | number h =>
    obtain ⟨c, t, rfl, hc⟩ := h.exists_cons
    exact isRead_of_bare hc fun _ _ _ hr => bare?_number h hr
  | string h => exact isRead_of_bare (by decide) fun _ r _ _ => bare?_string h r
  | emptyArray hw =>
    exact isRead_of_bare (by decide) fun n r _ _ =>
      bare?_array (bracketed?_empty (by decide) hw (elements?_closed hw n r))
  | array _ ih =>
    refine isRead_of_bare (by decide) fun n r hn _ => bare?_array (bracketed?_items ?_)
    rw [List.length_append, List.length_singleton] at hn
    obtain ⟨m, rfl⟩ : ∃ m, n = m + 1 := ⟨n - 1, by omega⟩
    exact ih m r (Nat.le_of_succ_le_succ hn)
  | emptyObject hw =>
    exact isRead_of_bare (by decide) fun n r _ _ =>
      bare?_object (bracketed?_empty (by decide) hw (members?_closed hw n r))
  | object _ ih =>
    refine isRead_of_bare (by decide) fun n r hn _ => bare?_object (bracketed?_items ?_)
    rw [List.length_append, List.length_singleton] at hn
    obtain ⟨m, rfl⟩ : ∃ m, n = m + 1 := ⟨n - 1, by omega⟩
    exact ih m r (Nat.le_of_succ_le_succ hn)
  | spaced hbefore _ hafter ih => exact ih.spaced hbefore hafter
  | lastElement _ ih => exact ih.lastElement
  | element _ _ ihv ihvs => exact ihv.element ihvs
  | member hbefore hbody hafter _ ih => exact ih.member hbefore hbody hafter
  | lastMember _ ih => exact ih.lastMember
  | members _ _ ihm ihms => exact ihm.members ihms

theorem Derives.read?_eq_some {t : Text} {v : Value} (h : Derives t (.value v)) :
    read? t = some v := by
  have hread := h.isRead t.length [] (Nat.le_refl _) (Text.startsOutside_nil _)
  rw [List.append_nil] at hread
  rw [read?, hread]
  rfl

/-- A text stands for one value at most. -/
theorem Derives.value_unique {t : Text} {v w : Value} (hv : Derives t (.value v))
    (hw : Derives t (.value w)) : v = w :=
  Option.some.inj (hv.read?_eq_some.symm.trans hw.read?_eq_some)

end ObjcOutline.Json
