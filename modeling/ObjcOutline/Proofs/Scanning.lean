import ObjcOutline.Source.Header
import Mathlib.Data.List.DropRight
import Mathlib.Data.List.Infix
import Mathlib.Data.Nat.Find
import Mathlib.Tactic.SplitIfs

/-!
# What the scanning steps read

Every step that reads the start of a text is described twice: what a text looks like when the step
succeeds on it, and on which texts it surely succeeds. The first direction bounds what a skeleton can
hold, the second reads back what an outline prints. Trimming is described by the two ends of a text.
-/
namespace ObjcOutline

namespace Text

/-- A non-empty run of word characters. -/
def IsWord (t : Text) : Prop := t ≠ [] ∧ ∀ c ∈ t, isWordChar c = true

instance (t : Text) : Decidable (IsWord t) :=
  decidable_of_iff (t ≠ [] ∧ t.all isWordChar = true) (by simp [IsWord])

/-- No first character of the text is in the class `p`. -/
def StartsOutside (p : Char → Bool) (t : Text) : Prop := ∀ c, t.head? = some c → p c = false

@[simp] theorem startsOutside_nil (p : Char → Bool) : StartsOutside p [] := by
  simp [StartsOutside]

@[simp] theorem startsOutside_cons {p : Char → Bool} {c : Char} {t : Text} :
    StartsOutside p (c :: t) ↔ p c = false := by simp [StartsOutside]

theorem dropWhile_of_startsOutside {p : Char → Bool} {t : Text} (h : StartsOutside p t) :
    t.dropWhile p = t := by
  cases t with
  | nil => rfl
  | cons c r => simp [startsOutside_cons.mp h]

theorem startsOutside_dropWhile (p : Char → Bool) (t : Text) :
    StartsOutside p (t.dropWhile p) := by
  induction t with
  | nil => simp
  | cons c r ih => by_cases hc : p c <;> simp [hc, ih]

theorem isBlank_eq_false_of_isWordChar {c : Char} (h : isWordChar c = true) :
    isBlank c = false := by
  by_contra hb
  have hspace := isSpace_of_isBlank (Bool.not_eq_false _ ▸ hb)
  rw [isSpace_eq_false_of_isWordChar h] at hspace
  cases hspace

theorem trimEnd_eq (t : Text) : trimEnd t = t.rdropWhile isSpace := rfl

theorem trimEnd_cons {c : Char} (h : isSpace c = false) (t : Text) :
    trimEnd (c :: t) = c :: trimEnd t := by
  unfold trimEnd
  rw [List.reverse_cons, List.dropWhile_append]
  split_ifs with hempty
  · rw [List.isEmpty_iff] at hempty
    simp [h, hempty]
  · simp

theorem trim_cons {c : Char} (h : isSpace c = false) (t : Text) :
    trim (c :: t) = c :: trimEnd t := by
  have hstart : trimStart (c :: t) = c :: t :=
    dropWhile_of_startsOutside (startsOutside_cons.mpr h)
  rw [trim, hstart, trimEnd_cons h]

theorem trim_append_of_isSpace {s : Text} (h : ∀ c ∈ s, isSpace c = true) (t : Text) :
    trim (s ++ t) = trim t := by
  have hstart : trimStart (s ++ t) = trimStart t := List.dropWhile_append_of_pos h
  rw [trim, hstart, trim]

theorem trim_cons_of_isSpace {c : Char} (h : isSpace c = true) (t : Text) :
    trim (c :: t) = trim t :=
  trim_append_of_isSpace (s := [c]) (by simpa using h) t

theorem mem_of_mem_trim {c : Char} {t : Text} (h : c ∈ trim t) : c ∈ t := by
  have hstart : c ∈ trimStart t := (List.rdropWhile_prefix isSpace (trimStart t)).mem h
  exact (List.dropWhile_suffix isSpace).mem hstart

/-- A text with no white space at either end is left alone by trimming, and only such a text. -/
theorem trim_eq_self_iff {t : Text} :
    trim t = t ↔ StartsOutside isSpace t ∧ StartsOutside isSpace t.reverse := by
  constructor
  · intro h
    have hstart : trimStart t = t := by
      have hsuffix : trimStart t <:+ t := List.dropWhile_suffix isSpace
      apply hsuffix.eq_of_length_le
      have hle := (List.rdropWhile_prefix isSpace (trimStart t)).length_le
      rwa [← trimEnd_eq, ← trim, h] at hle
    have hend : trimEnd t = t := by rwa [trim, hstart] at h
    constructor
    · rw [← hstart]
      exact startsOutside_dropWhile isSpace t
    · have hreverse := congrArg List.reverse hend
      rw [trimEnd, List.reverse_reverse] at hreverse
      rw [← hreverse]
      exact startsOutside_dropWhile isSpace t.reverse
  · rintro ⟨hstart, hend⟩
    rw [trim, trimStart, dropWhile_of_startsOutside hstart, trimEnd,
      dropWhile_of_startsOutside hend, List.reverse_reverse]

theorem trim_trim (t : Text) : trim (trim t) = trim t := by
  rw [trim_eq_self_iff]
  constructor
  · have hprefix : trim t <+: trimStart t := List.rdropWhile_prefix isSpace (trimStart t)
    intro c hc
    cases ht : trim t with
    | nil => simp [ht] at hc
    | cons d r =>
      obtain ⟨s, hs⟩ := hprefix
      have hd : d = c := by simpa [ht] using hc
      have hstart := startsOutside_dropWhile isSpace t
      rw [← trimStart, ← hs, ht, List.cons_append, startsOutside_cons] at hstart
      exact hd ▸ hstart
  · rw [trim, trimEnd, List.reverse_reverse]
    exact startsOutside_dropWhile isSpace _

/-- What ends with a trimmed text has no white space at its end. -/
theorem trim_cons_append {c : Char} (hc : isSpace c = false) (s : Text) {t : Text} (hne : t ≠ [])
    (ht : trim t = t) : trim (c :: (s ++ t)) = c :: (s ++ t) := by
  have hend := (trim_eq_self_iff.mp ht).2
  rw [trim_eq_self_iff]
  refine ⟨startsOutside_cons.mpr hc, fun d hd => hend d ?_⟩
  obtain ⟨last, others, hreverse⟩ := List.exists_cons_of_ne_nil (List.reverse_ne_nil_iff.mpr hne)
  rw [List.reverse_cons, List.reverse_append, hreverse] at hd
  rw [hreverse]
  exact hd

theorem skipBlanks_append {s : Text} (h : ∀ c ∈ s, isBlank c = true) (t : Text) :
    skipBlanks (s ++ t) = skipBlanks t := List.dropWhile_append_of_pos h

theorem skipBlanks_cons {c : Char} (h : isBlank c = false) (t : Text) :
    skipBlanks (c :: t) = c :: t := dropWhile_of_startsOutside (startsOutside_cons.mpr h)

theorem skipBlanks_cons_of_isBlank {c : Char} (h : isBlank c = true) (t : Text) :
    skipBlanks (c :: t) = skipBlanks t := List.dropWhile_cons_of_pos h

theorem mem_of_mem_skipBlanks {c : Char} {t : Text} (h : c ∈ skipBlanks t) : c ∈ t :=
  (List.dropWhile_suffix isBlank).mem h

theorem mem_of_skipBlanks? {t r : Text} (h : skipBlanks? t = some r) {c : Char} (hc : c ∈ r) :
    c ∈ t := by
  cases t with
  | nil => cases h
  | cons d t =>
    rw [skipBlanks?] at h
    split_ifs at h
    cases h
    exact List.mem_cons_of_mem _ (mem_of_mem_skipBlanks hc)

@[simp] theorem after?_append (start t : Text) : after? start (start ++ t) = some t := by
  induction start with
  | nil => rfl
  | cons c start ih => simp [after?, ih]

theorem after?_eq_some {start t r : Text} (h : after? start t = some r) : t = start ++ r := by
  induction start generalizing t with
  | nil =>
    cases h
    rfl
  | cons a start ih =>
    cases t with
    | nil => cases h
    | cons c t =>
      rw [after?] at h
      split_ifs at h with hac
      rw [hac, ih h, List.cons_append]

/-- A word goes on with the word characters that follow it. -/
theorem word?_word_append {w : Text} (hw : IsWord w) (r : Text) :
    word? (w ++ r) = some (w ++ r.takeWhile isWordChar, r.dropWhile isWordChar) := by
  unfold word?
  rw [List.takeWhile_append_of_pos hw.2, List.dropWhile_append_of_pos hw.2]
  cases w with
  | nil => exact absurd rfl hw.1
  | cons c w => rfl

theorem word?_append {w : Text} (hw : IsWord w) {rest : Text}
    (hrest : StartsOutside isWordChar rest) : word? (w ++ rest) = some (w, rest) := by
  have htake : rest.takeWhile isWordChar = [] := by
    cases rest with
    | nil => rfl
    | cons c r => simp [startsOutside_cons.mp hrest]
  rw [word?_word_append hw, htake, List.append_nil, dropWhile_of_startsOutside hrest]

theorem word?_eq_some {t w rest : Text} (h : word? t = some (w, rest)) :
    IsWord w ∧ t = w ++ rest := by
  unfold word? at h
  split at h
  · cases h
  next c r hr =>
    cases h
    refine ⟨⟨by simp, ?_⟩, ?_⟩
    · intro x hx
      rw [← hr] at hx
      exact List.mem_takeWhile_imp hx
    · rw [← hr, List.takeWhile_append_dropWhile]

theorem IsWord.startsOutside {w : Text} (hw : IsWord w) (rest : Text) {p : Char → Bool}
    (hp : ∀ c, isWordChar c = true → p c = false) : StartsOutside p (w ++ rest) := by
  obtain ⟨hne, hall⟩ := hw
  cases w with
  | nil => exact absurd rfl hne
  | cons c w => simpa using hp c (hall c (by simp))

/-- Blanks before a word are all there is to skip. -/
theorem skipBlanks_word {w : Text} (hw : IsWord w) (rest : Text) :
    skipBlanks (w ++ rest) = w ++ rest :=
  dropWhile_of_startsOutside (hw.startsOutside rest fun _ => isBlank_eq_false_of_isWordChar)

theorem IsWord.trim_eq {w : Text} (hw : IsWord w) : trim w = w := by
  rw [trim_eq_self_iff]
  have hspace : ∀ c ∈ w, isSpace c = false := fun c hc => isSpace_eq_false_of_isWordChar (hw.2 c hc)
  exact ⟨fun c hc => hspace c (List.mem_of_head? hc),
    fun c hc => hspace c (List.mem_reverse.mp (List.mem_of_head? hc))⟩

theorem IsWord.not_mem {w : Text} (hw : IsWord w) : '\n' ∉ w := by
  intro h
  exact absurd (hw.2 _ h) (by decide)

theorem cut?_append {p : Char → Bool} {before : Text} (hbefore : ∀ x ∈ before, p x = false)
    {c : Char} (hc : p c = true) (rest : Text) :
    cut? p (before ++ c :: rest) = some (before, rest) := by
  induction before with
  | nil => simp [cut?, hc]
  | cons d before ih =>
    have hd : p d = false := hbefore d (by simp)
    have htail := ih fun x hx => hbefore x (by simp [hx])
    simp [cut?, hd, htail]

theorem cut?_eq_some {p : Char → Bool} {t before rest : Text} (h : cut? p t = some (before, rest)) :
    (∀ x ∈ before, p x = false) ∧ ∃ c, p c = true ∧ t = before ++ c :: rest := by
  induction t generalizing before with
  | nil => cases h
  | cons d t ih =>
    rw [cut?] at h
    split_ifs at h with hd
    · cases h
      exact ⟨by simp, d, hd, rfl⟩
    · simp only [Option.map_eq_some_iff, Prod.mk.injEq, Prod.exists] at h
      obtain ⟨b, r, hb, rfl, rfl⟩ := h
      obtain ⟨hall, c, hc, rfl⟩ := ih hb
      refine ⟨?_, c, hc, rfl⟩
      simp only [List.mem_cons, forall_eq_or_imp]
      exact ⟨Bool.not_eq_true _ ▸ hd, hall⟩

/-- Cutting at one character stops at its first occurrence. -/
theorem cut?_beq_append {d : Char} {before : Text} (h : d ∉ before) (rest : Text) :
    cut? (· == d) (before ++ d :: rest) = some (before, rest) := by
  refine cut?_append (p := (· == d)) ?_ (beq_self_eq_true d) rest
  intro x hx
  rw [beq_eq_false_iff_ne]
  rintro rfl
  exact h hx

theorem cut?_beq_eq_some {d : Char} {t before rest : Text}
    (h : cut? (· == d) t = some (before, rest)) : d ∉ before ∧ t = before ++ d :: rest := by
  obtain ⟨hall, c, hc, rfl⟩ := cut?_eq_some h
  obtain rfl : c = d := beq_iff_eq.mp hc
  refine ⟨fun hd => ?_, rfl⟩
  have := hall c hd
  simp at this

end Text

section Search

variable {α : Type} [BEq α] [LawfulBEq α] {pattern t : List α}

/-- The position of the first place where `pattern` stands in a list. -/
def indexOf? {α : Type} [BEq α] (pattern t : List α) : Option Nat :=
  (t.dropInfix? pattern).map fun x => x.1.length

theorem indexOf?_eq_some {n : Nat} (hne : pattern ≠ []) (h : indexOf? pattern t = some n) :
    ∃ u s, t = u ++ (pattern ++ s) ∧ u.length = n ∧ ¬ pattern <:+: u := by
  obtain ⟨⟨u, s⟩, hdrop, rfl⟩ := Option.map_eq_some_iff.mp h
  obtain ⟨⟨found, rfl, hfound⟩, hfirst⟩ := List.dropInfix?_eq_some_iff.mp hdrop
  obtain rfl := eq_of_beq hfound
  refine ⟨u, s, List.append_assoc u found s, rfl, ?_⟩
  rintro ⟨v, w, rfl⟩
  have hle := hfirst v found (w ++ (found ++ s)) (by simp) (beq_self_eq_true found)
  have hpos := List.length_pos_iff.mpr hne
  simp only [List.length_append] at hle
  omega

theorem indexOf?_append {u s : List α}
    (hfirst : ∀ v w, u ++ (pattern ++ s) = v ++ (pattern ++ w) → u.length ≤ v.length) :
    indexOf? pattern (u ++ (pattern ++ s)) = some u.length := by
  refine Option.map_eq_some_iff.mpr ⟨(u, s), List.dropInfix?_eq_some_iff.mpr ⟨?_, ?_⟩, rfl⟩
  · exact ⟨pattern, (List.append_assoc u pattern s).symm, beq_self_eq_true pattern⟩
  · intro v found w heq hfound
    obtain rfl := eq_of_beq hfound
    exact hfirst v w (heq.trans (List.append_assoc v found w))

theorem not_infix_of_indexOf?_eq_none (h : indexOf? pattern t = none) : ¬ pattern <:+: t := by
  rintro ⟨v, w, heq⟩
  have hsome : ∃ n u s, u.length = n ∧ t = u ++ (pattern ++ s) :=
    ⟨v.length, v, w, rfl, by rw [← heq, List.append_assoc]⟩
  classical
  obtain ⟨u, s, hlength, rfl⟩ := Nat.find_spec hsome
  rw [indexOf?_append fun a b hab => hlength ▸ Nat.find_min' hsome ⟨a, b, rfl, hab⟩] at h
  cases h

/-- What stands before the first place of `c` reaches over a start that does not hold `c`. -/
theorem exists_of_indexOf?_eq_some {start r : Text} {c : Char} {n : Nat} (hc : c ∉ start)
    (h : indexOf? [c] (start ++ r) = some n) :
    ∃ u s, r = u ++ c :: s ∧ start.length + u.length = n ∧ c ∉ u := by
  obtain ⟨v, s, heq, rfl, hv⟩ := indexOf?_eq_some (by simp) h
  rw [List.singleton_infix_iff] at hv
  rcases List.append_eq_append_iff.mp heq with ⟨u, rfl, rfl⟩ | ⟨w, rfl, hw⟩
  · exact ⟨u, s, rfl, by simp, fun hu => hv (List.mem_append_right start hu)⟩
  · cases w with
    | nil => exact ⟨[], s, hw.symm, by simp, List.not_mem_nil⟩
    | cons d w =>
      obtain rfl : c = d := by simpa using congrArg List.head? hw
      simp at hc

end Search

theorem parenthesised?_append {inner : Text} (hinner : ')' ∉ inner) (rest : Text) :
    parenthesised? (' ' :: '(' :: (inner ++ ')' :: rest)) = some (inner, rest) := by
  unfold parenthesised?
  rw [Text.skipBlanks_cons_of_isBlank rfl, Text.skipBlanks_cons rfl]
  exact Text.cut?_beq_append hinner rest

theorem parenthesised?_eq_none {t : Text}
    (h : Text.StartsOutside (· == '(') (Text.skipBlanks t)) : parenthesised? t = none := by
  unfold parenthesised?
  split
  next r hr => simp [hr] at h
  · rfl

theorem parenthesised?_eq_some {t inner rest : Text} (h : parenthesised? t = some (inner, rest)) :
    ')' ∉ inner ∧ ∀ c, c ∈ inner ∨ c ∈ rest → c ∈ t := by
  unfold parenthesised? at h
  split at h
  next r hr =>
    obtain ⟨hinner, rfl⟩ := Text.cut?_beq_eq_some h
    refine ⟨hinner, fun c hc => ?_⟩
    apply Text.mem_of_mem_skipBlanks
    rw [hr]
    rcases hc with hc | hc <;> simp [hc]
  · cases h

theorem nonemptyBefore?_append {p : Char → Bool} {before : Text} (hne : before ≠ [])
    (hbefore : ∀ x ∈ before, p x = false) {c : Char} (hc : p c = true) (rest : Text) :
    nonemptyBefore? p (before ++ c :: rest) = some before := by
  unfold nonemptyBefore?
  rw [Text.cut?_append hbefore hc]
  cases before with
  | nil => exact absurd rfl hne
  | cons d before => rfl

theorem nonemptyBefore?_cons {p : Char → Bool} {c : Char} (hc : p c = true) (t : Text) :
    nonemptyBefore? p (c :: t) = none := by
  unfold nonemptyBefore?
  simp [Text.cut?, hc]

theorem nonemptyBefore?_eq_some {p : Char → Bool} {t before : Text}
    (h : nonemptyBefore? p t = some before) :
    (∀ x ∈ before, p x = false) ∧ ∀ x ∈ before, x ∈ t := by
  unfold nonemptyBefore? at h
  split at h
  next c b rest hcut =>
    cases h
    obtain ⟨hall, d, -, rfl⟩ := Text.cut?_eq_some hcut
    exact ⟨hall, fun x hx => List.mem_append_left _ hx⟩
  · cases h

namespace Header

theorem angled?_append {inner : Text} (hinner : '>' ∉ inner) (rest : Text) :
    angled? (' ' :: '<' :: (inner ++ '>' :: rest)) = some (inner, rest) := by
  unfold angled?
  rw [Text.skipBlanks_cons_of_isBlank rfl, Text.skipBlanks_cons rfl]
  exact Text.cut?_beq_append hinner rest

theorem angled?_eq_some {t inner rest : Text} (h : angled? t = some (inner, rest)) :
    '>' ∉ inner ∧ ∀ c, c ∈ inner ∨ c ∈ rest → c ∈ t := by
  unfold angled? at h
  split at h
  next r hr =>
    obtain ⟨hinner, rfl⟩ := Text.cut?_beq_eq_some h
    refine ⟨hinner, fun c hc => ?_⟩
    apply Text.mem_of_mem_skipBlanks
    rw [hr]
    rcases hc with hc | hc <;> simp [hc]
  · cases h

/-- The name after a keyword and one space is read back, whatever cannot continue it. -/
theorem name?_append (keyword : Kind) {name : Text} (hname : Text.IsWord name) {rest : Text}
    (hrest : Text.StartsOutside Text.isWordChar rest) :
    name? keyword ('@' :: (keyword.toText ++ ' ' :: (name ++ rest))) = some (name, rest) := by
  have hafter : Text.after? ('@' :: keyword.toText)
      ('@' :: (keyword.toText ++ ' ' :: (name ++ rest))) = some (' ' :: (name ++ rest)) :=
    Text.after?_append ('@' :: keyword.toText) _
  have hskip : Text.skipBlanks? (' ' :: (name ++ rest)) = some (name ++ rest) := by
    rw [Text.skipBlanks?, if_pos (by decide), Text.skipBlanks_word hname]
  unfold name?
  rw [hafter]
  simp only [hskip]
  exact Text.word?_append hname hrest

theorem name?_eq_some {keyword : Kind} {t name rest : Text}
    (h : name? keyword t = some (name, rest)) :
    Text.IsWord name ∧ ∀ c ∈ rest, c ∈ t := by
  unfold name? at h
  split at h
  next r hr =>
    split at h
    next r' hr' =>
      obtain ⟨hword, heq⟩ := Text.word?_eq_some h
      refine ⟨hword, fun c hc => ?_⟩
      have hin : c ∈ r' := by simp [heq, hc]
      rw [Text.after?_eq_some hr]
      exact List.mem_append_right _ (Text.mem_of_skipBlanks? hr' hin)
    · cases h
  · cases h

end Header

end ObjcOutline
