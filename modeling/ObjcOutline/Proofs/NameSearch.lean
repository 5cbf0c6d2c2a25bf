import ObjcOutline.Proofs.PropertyNames
import ObjcOutline.Proofs.HeaderPatterns
import ObjcOutline.Proofs.Patterns

/-!
# The search for the name of a property

The search for a caret group starts at each position of a declaration, from the left, and stops at the
first one where a group stands. The search for the last word is anchored at the end only. It gives a
whole word and not the end of one, because of all positions from which nothing but the rest of a word
and characters outside words follow, the first one is where the word starts.
-/
namespace ObjcOutline.Property

open Text
open Header (IsBlanks exists_blanks)
open Pattern (eq_bind_after? takeWhile_of_startsOutside)

/-- A word after a caret, in parentheses, at the start of a text. Blanks may stand between these
parts. -/
def CaretGroupAt (word t : Text) : Prop :=
  ∃ a b c rest, IsBlanks a ∧ IsBlanks b ∧ IsBlanks c ∧ IsWord word ∧
    t = '(' :: (a ++ '^' :: (b ++ (word ++ (c ++ ')' :: rest))))

/-- The word of the leftmost caret group: wherever another one starts, it is within what starts
with this one. -/
def IsFirstCaretWord (word d : Text) : Prop :=
  ∃ t, t <:+ d ∧ CaretGroupAt word t ∧ ∀ s other, s <:+ d → CaretGroupAt other s → s <:+ t

/-- The last word, as long as it can be. -/
def IsLastWord (word d : Text) : Prop :=
  ∃ front back, d = front ++ (word ++ back) ∧ IsWord word ∧
    (∀ c, front.getLast? = some c → isWordChar c = false) ∧ ∀ c ∈ back, isWordChar c = false

/-- Where there is no caret group the last word counts, and where there is no word either the whole
declaration does. -/
inductive Names (d : Text) : Text → Prop
  | caret {word : Text} : IsFirstCaretWord word d → Names d word
  | last {word : Text} : (∀ t other, t <:+ d → ¬ CaretGroupAt other t) → IsLastWord word d →
      Names d word
  | whole : (∀ t other, t <:+ d → ¬ CaretGroupAt other t) → (∀ c ∈ d, isWordChar c = false) →
      Names d d

theorem caretGroup?_eq_bind (t : Text) : caretGroup? t = (after? ['('] t).bind fun r =>
    (after? ['^'] (skipBlanks r)).bind fun r => (word? (skipBlanks r)).bind fun x =>
      (after? [')'] (skipBlanks x.2)).bind fun _ => some x.1 := by
  revert t
  refine eq_bind_after? (fun r => ?_) fun s hs => ?_
  · rw [caretGroup?]
    generalize skipBlanks r = s
    revert s
    refine eq_bind_after? (fun r => ?_) fun s hs => ?_
    · rcases hword : word? (skipBlanks r) with _ | ⟨word, rest⟩ <;> simp only [hword]
      · rfl
      rw [Option.bind_some]
      generalize skipBlanks rest = s
      revert s
      refine eq_bind_after? (fun _ => rfl) fun s hs => ?_
      split
      · exact absurd rfl (hs _)
      · rfl
    · split
      · exact absurd rfl (hs _)
      · rfl
  · unfold caretGroup?
    split
    · exact absurd rfl (hs _)
    · rfl

theorem caretGroup?_eq_some_iff {t word : Text} :
    caretGroup? t = some word ↔ CaretGroupAt word t := by
  simp only [caretGroup?_eq_bind, Option.bind_eq_some_iff, Option.some.injEq]
  constructor
  · rintro ⟨r, hr, s, hs, ⟨w, u⟩, hw, rest, hrest, rfl⟩
    obtain ⟨a, ha, hra⟩ := exists_blanks r
    obtain ⟨b, hb, hsb⟩ := exists_blanks s
    obtain ⟨c, hc, huc⟩ := exists_blanks u
    obtain ⟨hword, hwu⟩ := word?_eq_some hw
    refine ⟨a, b, c, rest, ha, hb, hc, hword, ?_⟩
    rw [after?_eq_some hs] at hra
    rw [hwu] at hsb
    rw [after?_eq_some hrest] at huc
    rw [after?_eq_some hr, hra, hsb, huc]
    simp
  · rintro ⟨a, b, c, rest, ha, hb, hc, hword, rfl⟩
    have hclose : StartsOutside isWordChar (c ++ ')' :: rest) :=
      hc.startsOutside (startsOutside_cons.mpr (by decide))
    refine ⟨_, rfl, b ++ (word ++ (c ++ ')' :: rest)), ?_, (word, c ++ ')' :: rest), ?_, rest, ?_, rfl⟩
    · rw [skipBlanks_append ha]
      rfl
    · rw [skipBlanks_append hb, skipBlanks_word hword, word?_append hword hclose]
    · rw [skipBlanks_append hc]
      rfl

theorem not_caretGroupAt_nil (word : Text) : ¬ CaretGroupAt word [] := by
  rintro ⟨a, b, c, rest, -, -, -, -, h⟩
  cases h

theorem isFirstCaretWord_cons {word : Text} {c : Char} {r : Text} : IsFirstCaretWord word (c :: r) ↔
    CaretGroupAt word (c :: r) ∨
      (∀ other, ¬ CaretGroupAt other (c :: r)) ∧ IsFirstCaretWord word r := by
  constructor
  · rintro ⟨t, ht, hword, hleft⟩
    rcases List.suffix_cons_iff.mp ht with rfl | ht
    · exact .inl hword
    refine .inr ⟨fun other h => ?_, t, ht, hword, fun s other hs h =>
      hleft s other (hs.trans (List.suffix_cons c r)) h⟩
    have hlength := ((hleft _ other List.suffix_rfl h).trans ht).length_le
    rw [List.length_cons] at hlength
    omega
  · rintro (h | ⟨hnot, t, ht, hword, hleft⟩)
    · exact ⟨c :: r, List.suffix_rfl, h, fun s other hs _ => hs⟩
    refine ⟨t, ht.trans (List.suffix_cons c r), hword, fun s other hs h => ?_⟩
    rcases List.suffix_cons_iff.mp hs with rfl | hs
    · exact absurd h (hnot other)
    · exact hleft s other hs h

theorem firstCaretGroup?_eq_some_iff {d word : Text} :
    firstCaretGroup? d = some word ↔ IsFirstCaretWord word d := by
  induction d with
  | nil =>
    refine iff_of_false (by simp [firstCaretGroup?]) ?_
    rintro ⟨t, ht, hword, -⟩
    obtain rfl := List.suffix_nil.mp ht
    exact not_caretGroupAt_nil word hword
  | cons c r ih =>
    rw [firstCaretGroup?, Option.or_eq_some_iff, caretGroup?_eq_some_iff, ih, isFirstCaretWord_cons,
      Option.eq_none_iff_forall_ne_some]
    simp only [Ne, caretGroup?_eq_some_iff]

theorem firstCaretGroup?_eq_none_iff {d : Text} :
    firstCaretGroup? d = none ↔ ∀ t other, t <:+ d → ¬ CaretGroupAt other t := by
  induction d with
  | nil =>
    refine iff_of_true rfl fun t other ht => ?_
    rw [List.suffix_nil.mp ht]
    exact not_caretGroupAt_nil other
  | cons c r ih =>
    rw [firstCaretGroup?, Option.or_eq_none_iff, ih, Option.eq_none_iff_forall_ne_some]
    simp only [Ne, caretGroup?_eq_some_iff, List.suffix_cons_iff]
    constructor
    · rintro ⟨hhead, htail⟩ t other (rfl | ht)
      · exact hhead other
      · exact htail t other ht
    · exact fun h => ⟨fun other => h _ other (.inl rfl), fun t other ht => h t other (.inr ht)⟩

theorem lastWord?_eq_some_iff {d word : Text} : lastWord? d = some word ↔ IsLastWord word d := by
  constructor
  · intro h
    obtain ⟨hword, -⟩ := lastWord?_eq_some h
    rw [lastWord?_eq] at h
    split_ifs at h
    obtain rfl := Option.some.inj h
    -- From the end: characters outside words, the word, and what is in front of it.
    set tail := d.reverse.dropWhile (!isWordChar ·)
    refine ⟨(tail.dropWhile isWordChar).reverse, (d.reverse.takeWhile (!isWordChar ·)).reverse, ?_,
      hword, fun c hc => ?_, fun c hc => ?_⟩
    · apply List.reverse_injective
      rw [List.reverse_append, List.reverse_append, List.reverse_reverse, List.reverse_reverse,
        List.reverse_reverse, List.append_assoc, lastRun, List.takeWhile_append_dropWhile,
        List.takeWhile_append_dropWhile]
    · rw [List.getLast?_reverse] at hc
      exact startsOutside_dropWhile isWordChar tail c hc
    · simpa using List.mem_takeWhile_imp (List.mem_reverse.mp hc)
  · rintro ⟨front, back, rfl, hword, hfront, hback⟩
    have hreversed : IsWord word.reverse :=
      ⟨by simpa using hword.1, fun c hc => hword.2 c (List.mem_reverse.mp hc)⟩
    have hdrop : (front ++ (word ++ back)).reverse.dropWhile (!isWordChar ·) =
        word.reverse ++ front.reverse := by
      rw [List.reverse_append, List.reverse_append, List.append_assoc, List.dropWhile_append_of_pos
        (by simpa using hback)]
      exact dropWhile_of_startsOutside (hreversed.startsOutside _ (by simp))
    have hrun : lastRun (front ++ (word ++ back)) = word.reverse := by
      rw [lastRun, hdrop, List.takeWhile_append_of_pos hreversed.2, takeWhile_of_startsOutside,
        List.append_nil]
      intro c hc
      exact hfront c (List.head?_reverse ▸ hc)
    rw [lastWord?_eq, hrun, if_neg hreversed.1, List.reverse_reverse]

theorem name_eq_iff {p : Property} {name : Text} : p.name = name ↔ Names p.declaration name := by
  rw [Property.name]
  constructor
  · rintro rfl
    cases hcaret : firstCaretGroup? p.declaration with
    | some word =>
      rw [Option.some_or, Option.getD_some]
      exact .caret (firstCaretGroup?_eq_some_iff.mp hcaret)
    | none =>
      have hnone := firstCaretGroup?_eq_none_iff.mp hcaret
      cases hlast : lastWord? p.declaration with
      | some word => exact .last hnone (lastWord?_eq_some_iff.mp hlast)
      | none => exact .whole hnone (lastWord?_eq_none_iff.mp hlast)
  · intro h
    cases h with
    | caret h => rw [firstCaretGroup?_eq_some_iff.mpr h, Option.some_or, Option.getD_some]
    | last hnone h =>
      rw [firstCaretGroup?_eq_none_iff.mpr hnone, lastWord?_eq_some_iff.mpr h, Option.none_or,
        Option.getD_some]
    | whole hnone h =>
      rw [firstCaretGroup?_eq_none_iff.mpr hnone, lastWord?_eq_none_iff.mpr h, Option.none_or,
        Option.getD_none]

/-- A name is a word as soon as there is one. -/
theorem isWord_name_iff {p : Property} :
    IsWord p.name ↔ ∃ c ∈ p.declaration, isWordChar c = true := by
  have hexists {word : Text} (hword : IsWord word) (hmem : word ⊆ p.declaration) :
      ∃ c ∈ p.declaration, isWordChar c = true := by
    obtain ⟨c, hc⟩ := List.exists_mem_of_ne_nil _ hword.1
    exact ⟨c, hmem hc, hword.2 c hc⟩
  have hnames := name_eq_iff.mp (rfl : p.name = p.name)
  generalize p.name = name at hnames
  cases hnames with
  | caret h =>
    obtain ⟨hword, before, after, heq, -, -⟩ :=
      firstCaretGroup?_eq_some (firstCaretGroup?_eq_some_iff.mpr h)
    exact iff_of_true hword (hexists hword (by rw [heq]; simp))
  | last _ h =>
    obtain ⟨hword, hinfix⟩ := lastWord?_eq_some (lastWord?_eq_some_iff.mpr h)
    exact iff_of_true hword (hexists hword hinfix.subset)
  | whole _ h =>
    have hnone : ¬ ∃ c ∈ p.declaration, isWordChar c = true := by simpa using h
    exact iff_of_false (fun hword => hnone (hexists hword (List.Subset.refl _))) hnone

open Pattern

def caretPattern : Pattern :=
  seq (literal ['(']) (seq blanks (seq (literal ['^']) (seq blanks (seq word
    (seq blanks (literal [')']))))))

/-- A captured word that no other word follows. -/
def lastWordPattern : Pattern := seq word (seq (many (!isWordChar ·)) textEnd)

/-- The name that is captured where one of the patterns is found. -/
def searchedName (d : Text) : Text :=
  (((caretPattern.search? d).map (·.group 0)).or ((lastWordPattern.search? d).map (·.group 0))).getD d

theorem map_match?_caret (t : Text) : (caretPattern.match? t).map (·.group 0) = caretGroup? t := by
  have hclose : ∀ c r, isWordChar c = true → (seq blanks (literal [')'])).match? (c :: r) = none := by
    intro c r hc
    rw [match?_blanks_seq (match?_literal_eq_none (by decide) []),
      skipBlanks_cons (isBlank_eq_false_of_isWordChar hc)]
    exact match?_literal_eq_none (by decide) [] c r hc
  rw [caretPattern, match?_literal_seq, caretGroup?_eq_bind]
  cases after? ['('] t with
  | none => rfl
  | some r =>
    rw [Option.bind_some, Option.bind_some,
      match?_blanks_seq (match?_literal_seq_eq_none (by decide) _ _), match?_literal_seq]
    cases after? ['^'] (skipBlanks r) with
    | none => rfl
    | some r =>
      rw [Option.bind_some, Option.bind_some,
        match?_blanks_seq fun c r hc => match?_seq_of_none (match?_word_of_isBlank c r hc),
        match?_word_seq hclose]
      cases word? (skipBlanks r) with
      | none => rfl
      | some x =>
        rw [Option.bind_some, Option.bind_some,
          match?_blanks_seq (match?_literal_eq_none (by decide) []), match?_literal]
        cases after? [')'] (skipBlanks x.2) <;> rfl

theorem map_search?_caret (d : Text) :
    (caretPattern.search? d).map (·.group 0) = firstCaretGroup? d := by
  induction d with
  | nil => exact map_match?_caret []
  | cons c r ih => rw [search?, Option.map_or, map_match?_caret, ih, firstCaretGroup?]

theorem map_match?_lastWord (t : Text) : (lastWordPattern.match? t).map (·.group 0) =
    (word? t).bind fun x => if x.2.all (!isWordChar ·) then some x.1 else none := by
  have hrest (r : Text) : (seq (many (!isWordChar ·)) textEnd).match? r =
      if r.all (!isWordChar ·) then some ⟨[], []⟩ else none := by
    have hnil : r.dropWhile (!isWordChar ·) = [] ↔ r.all (!isWordChar ·) = true := by
      rw [List.dropWhile_eq_nil_iff, List.all_eq_true]
    rw [match?_many_seq fun _ _ _ => rfl, match?, ways]
    simp only [hnil]
    split_ifs <;> rfl
  rw [lastWordPattern, match?_word_seq]
  · cases word? t with
    | none => rfl
    | some x =>
      rw [Option.bind_some, Option.bind_some, hrest]
      split_ifs <;> rfl
  · intro c r hc
    rw [hrest, List.all_cons, hc, Bool.not_true, Bool.false_and, if_neg Bool.false_ne_true]

/-- The last word is the one that starts a text when no other word follows, or else the last word of
what is left after the first character. -/
theorem lastWord?_cons (c : Char) (r : Text) : lastWord? (c :: r) =
    ((word? (c :: r)).bind fun x =>
      if x.2.all (!isWordChar ·) then some x.1 else none).or (lastWord? r) := by
  cases hc : isWordChar c with
  | false =>
    have hword : word? (c :: r) = none := by simp [word?_eq_ite, hc]
    have hlast := lastWord?_append_cons hc [] r
    rw [List.nil_append] at hlast
    rw [hword, Option.bind_none, Option.none_or, hlast]
    exact Option.or_none
  | true =>
    have hstart := startsOutside_dropWhile isWordChar r
    set w := r.takeWhile isWordChar
    set s := r.dropWhile isWordChar
    have hr : r = w ++ s := List.takeWhile_append_dropWhile.symm
    have hword : word? (c :: r) = some (c :: w, s) := by simp [word?_eq_ite, hc, w, s]
    rw [hword, Option.bind_some]
    split_ifs with hall <;> simp only [List.all_eq_true, Bool.not_eq_true'] at hall
    · have hlast : IsLastWord (c :: w) (c :: r) :=
        ⟨[], s, by rw [hr]; rfl, (word?_eq_some hword).1, by simp, hall⟩
      rw [Option.some_or, lastWord?_eq_some_iff.mpr hlast]
    · -- Another word follows, so both texts have the last word of what comes after this one.
      cases hs : s with
      | nil => exact absurd (by simp [hs]) hall
      | cons d s' =>
        rw [hs, startsOutside_cons] at hstart
        have hsome : lastWord? s' ≠ none := by
          rw [Ne, lastWord?_eq_none_iff]
          intro hrest
          rw [hs, List.forall_mem_cons] at hall
          exact hall ⟨hstart, hrest⟩
        obtain ⟨word, hlast⟩ := Option.ne_none_iff_exists'.mp hsome
        have hlonger : lastWord? (c :: r) = lastWord? (c :: w ++ d :: s') := by
          rw [hr, hs, List.cons_append]
        rw [Option.none_or, hlonger, hr, hs, lastWord?_append_cons hstart,
          lastWord?_append_cons hstart, hlast, Option.some_or, Option.some_or]

theorem map_search?_lastWord (d : Text) :
    (lastWordPattern.search? d).map (·.group 0) = lastWord? d := by
  induction d with
  | nil => exact map_match?_lastWord []
  | cons c r ih => rw [search?, Option.map_or, map_match?_lastWord, ih, lastWord?_cons]

/-- The name of a property is the word of the leftmost caret group, or else the last word, or else the
whole declaration. It is what the two patterns capture where they are found, and it is a word as soon
as there is one. -/
theorem name_searched (p : Property) :
    (∀ name, p.name = name ↔ Names p.declaration name) ∧ p.name = searchedName p.declaration ∧
      (IsWord p.name ↔ ∃ c ∈ p.declaration, isWordChar c = true) := by
  refine ⟨fun _ => name_eq_iff, ?_, isWord_name_iff⟩
  rw [searchedName, map_search?_caret, map_search?_lastWord, name]

/-- The first of two caret groups, the end of a word after a letter that is in no word, and a text
without words. -/
example :
    let groups : Text := "void (^)(int (^ one\t), id (^two))"
    let letters : Text := "int größe;"
    let none : Text := "(^ *)"
    searchedName groups = "one" ∧ searchedName letters = "e" ∧ searchedName none = none := by
  decide +kernel

end ObjcOutline.Property
