import ObjcOutline.SymbolMap.PropertyName
import ObjcOutline.Proofs.Scanning

/-!
# The name of a block-typed property

A block type is declared with its name after a caret, `void (^name)(int)`. The search from the left
finds this name whatever the parameters hold, because nothing before it opens a parenthesis. Between
the caret and the name there may also stand qualifiers, as in `void (^nullable name)(int)`. Then the
group is not one of the form `(^word)`, the search goes on in the parameters, and the name is a word
of the parameters as soon as there is one.
-/
namespace ObjcOutline.Property

open Text

/-- A word before the name of a block, with the spaces after it. -/
structure Qualifier where
  word : Text
  gap : Text
  isWord : IsWord word
  gap_ne_nil : gap ≠ []
  eq_space_of_mem : ∀ c ∈ gap, c = ' '

/-- What stands between the caret and the closing parenthesis. -/
def declarator (qualifiers : List Qualifier) (name : Text) : Text :=
  qualifiers.flatMap (fun q => q.word ++ q.gap) ++ name

/-- The declaration of a block with the given result type, name and parameters. -/
def blockDeclaration (result : Text) (qualifiers : List Qualifier) (name parameters : Text) :
    Text :=
  result ++ ' ' :: '(' :: '^' ::
    (declarator qualifiers name ++ ')' :: '(' :: (parameters ++ [')']))

/-- The word that the parameters of a block contribute: that of their first caret group, the
parentheses around them included, or else their last word. -/
def parameterWord? (parameters : Text) : Option Text :=
  (firstCaretGroup? ('(' :: (parameters ++ [')']))).or (lastWord? parameters)

theorem caretGroup?_of_ne {c : Char} (h : c ≠ '(') (t : Text) : caretGroup? (c :: t) = none := by
  unfold caretGroup?
  split
  next heq => exact absurd (List.cons.inj heq).1 h
  · rfl

/-- A text without an opening parenthesis is passed over by the search. -/
theorem firstCaretGroup?_append {front : Text} (h : '(' ∉ front) (rest : Text) :
    firstCaretGroup? (front ++ rest) = firstCaretGroup? rest := by
  induction front with
  | nil => rfl
  | cons c front ih =>
    rw [List.mem_cons, not_or] at h
    rw [List.cons_append, firstCaretGroup?, caretGroup?_of_ne (Ne.symm h.1), Option.none_or, ih h.2]

theorem caretGroup?_word {name : Text} (hname : IsWord name) (rest : Text) :
    caretGroup? ('(' :: '^' :: (name ++ ')' :: rest)) = some name := by
  have hcaret : skipBlanks ('^' :: (name ++ ')' :: rest)) = '^' :: (name ++ ')' :: rest) := rfl
  have hclose : skipBlanks (')' :: rest) = ')' :: rest := rfl
  have hafter : StartsOutside isWordChar (')' :: rest) := startsOutside_cons.mpr (by decide)
  simp only [caretGroup?, hcaret, skipBlanks_word hname, word?_append hname hafter, hclose]

theorem declarator_cons (q : Qualifier) (qualifiers : List Qualifier) (name : Text) :
    declarator (q :: qualifiers) name = q.word ++ (q.gap ++ declarator qualifiers name) := by
  simp [declarator]

theorem not_mem_declarator (qualifiers : List Qualifier) {name : Text} (hname : IsWord name) :
    '(' ∉ declarator qualifiers name := by
  have hword {word : Text} (h : IsWord word) : '(' ∉ word := fun hc => absurd (h.2 _ hc) (by decide)
  induction qualifiers with
  | nil => exact hword hname
  | cons q qualifiers ih =>
    have hgap : '(' ∉ q.gap := fun hc => absurd (q.eq_space_of_mem _ hc) (by decide)
    rw [declarator_cons]
    simp [hword q.isWord, hgap, ih]

theorem exists_declarator_eq (qualifiers : List Qualifier) {name : Text} (hname : IsWord name) :
    ∃ c t, declarator qualifiers name = c :: t ∧ isWordChar c = true := by
  obtain ⟨word, t, hword, heq⟩ : ∃ word t, IsWord word ∧ declarator qualifiers name = word ++ t := by
    cases qualifiers with
    | nil => exact ⟨name, [], hname, (List.append_nil name).symm⟩
    | cons q qualifiers => exact ⟨q.word, _, q.isWord, declarator_cons q qualifiers name⟩
  obtain ⟨c, u, rfl⟩ := List.exists_cons_of_ne_nil hword.1
  exact ⟨c, u ++ t, heq, hword.2 c List.mem_cons_self⟩

/-- A second word after the caret breaks the group. -/
theorem caretGroup?_qualified (q : Qualifier) (qualifiers : List Qualifier) {name : Text}
    (hname : IsWord name) (rest : Text) :
    caretGroup? ('(' :: '^' :: (declarator (q :: qualifiers) name ++ rest)) = none := by
  obtain ⟨d, t, heq, hd⟩ := exists_declarator_eq qualifiers hname
  have hblank : ∀ c ∈ q.gap, isBlank c = true := fun c hc => q.eq_space_of_mem c hc ▸ rfl
  have hgap : StartsOutside isWordChar (q.gap ++ d :: (t ++ rest)) := by
    obtain ⟨c, gap, hc⟩ := List.exists_cons_of_ne_nil q.gap_ne_nil
    rw [hc, List.cons_append, startsOutside_cons, q.eq_space_of_mem c (hc ▸ List.mem_cons_self)]
    rfl
  have hskip : skipBlanks (q.gap ++ d :: (t ++ rest)) = d :: (t ++ rest) := by
    rw [skipBlanks_append hblank, skipBlanks_cons (isBlank_eq_false_of_isWordChar hd)]
  have hclose : d ≠ ')' := by
    rintro rfl
    exact absurd hd (by decide)
  have htext : declarator (q :: qualifiers) name ++ rest = q.word ++ (q.gap ++ d :: (t ++ rest)) := by
    rw [declarator_cons, heq]
    simp
  have hcaret (u : Text) : skipBlanks ('^' :: u) = '^' :: u := rfl
  rw [htext]
  simp only [caretGroup?, hcaret, skipBlanks_word q.isWord, word?_append q.isWord hgap, hskip]
  split
  next heq => exact absurd (List.cons.inj heq).1 hclose
  · rfl

theorem caretGroup?_eq_some {t word : Text} (h : caretGroup? t = some word) :
    IsWord word ∧ ∃ before after, t = '(' :: (before ++ (word ++ after)) ∧ after ≠ [] := by
  unfold caretGroup? at h
  split at h
  next r =>
    split at h
    next r' hcaret =>
      split at h
      next w rest hword =>
        split at h
        next s hclose =>
          obtain rfl := Option.some.inj h
          obtain ⟨hw, heq⟩ := word?_eq_some hword
          have hsuffix : w ++ rest <:+ r := by
            rw [← heq]
            have hin : skipBlanks r' <:+ '^' :: r' :=
              (List.dropWhile_suffix isBlank).trans (List.suffix_cons '^' r')
            exact hin.trans (hcaret ▸ List.dropWhile_suffix isBlank)
          obtain ⟨before, hbefore⟩ := hsuffix
          refine ⟨hw, before, rest, by rw [hbefore], ?_⟩
          rintro rfl
          cases hclose
        · cases h
      · cases h
    · cases h
  · cases h

/-- The word of a caret group has something before it and something after it. -/
theorem firstCaretGroup?_eq_some {t word : Text} (h : firstCaretGroup? t = some word) :
    IsWord word ∧ ∃ before after,
      t = before ++ (word ++ after) ∧ before ≠ [] ∧ after ≠ [] := by
  induction t with
  | nil => cases h
  | cons c t ih =>
    rcases Option.or_eq_some_iff.mp h with h | ⟨-, h⟩
    · obtain ⟨hword, before, after, heq, hafter⟩ := caretGroup?_eq_some h
      exact ⟨hword, '(' :: before, after, heq, List.cons_ne_nil _ _, hafter⟩
    · obtain ⟨hword, before, after, rfl, -, hafter⟩ := ih h
      exact ⟨hword, c :: before, after, rfl, List.cons_ne_nil _ _, hafter⟩

/-- The last word of a text from its end to its start; empty when there is none. -/
def lastRun (t : Text) : Text := (t.reverse.dropWhile (!isWordChar ·)).takeWhile isWordChar

theorem lastWord?_eq (t : Text) :
    lastWord? t = if lastRun t = [] then none else some (lastRun t).reverse := by
  unfold lastWord? lastRun
  split
  next h => rw [if_pos h]
  next c w h => rw [if_neg (by simp [h]), h]

theorem lastWord?_eq_none_iff {t : Text} : lastWord? t = none ↔ ∀ c ∈ t, isWordChar c = false := by
  have hrun : lastRun t = [] ↔ t.reverse.dropWhile (!isWordChar ·) = [] := by
    have hstart := startsOutside_dropWhile (!isWordChar ·) t.reverse
    unfold lastRun
    cases hdrop : t.reverse.dropWhile (!isWordChar ·) with
    | nil => simp
    | cons c u =>
      rw [hdrop, startsOutside_cons, Bool.not_eq_false'] at hstart
      simp [hstart]
  rw [lastWord?_eq, ite_eq_left_iff, hrun, List.dropWhile_eq_nil_iff]
  simp

/-- The last word is looked for after a character that is in no word, and before it only where there
is none after it. -/
theorem lastWord?_append_cons {c : Char} (hc : isWordChar c = false) (s t : Text) :
    lastWord? (s ++ c :: t) = (lastWord? t).or (lastWord? s) := by
  have hreverse : (s ++ c :: t).reverse = t.reverse ++ c :: s.reverse := by simp
  have hstop : (c :: s.reverse).takeWhile isWordChar = [] := List.takeWhile_cons_of_neg (by simp [hc])
  cases hdrop : t.reverse.dropWhile (!isWordChar ·) with
  | nil =>
    have hnone : lastWord? t = none := by
      rw [lastWord?_eq_none_iff]
      simpa using List.dropWhile_eq_nil_iff.mp hdrop
    have hrun : lastRun (s ++ c :: t) = lastRun s := by
      rw [lastRun, hreverse, List.dropWhile_append, hdrop, if_pos List.isEmpty_nil,
        List.dropWhile_cons_of_pos (by simp [hc]), lastRun]
    rw [hnone, Option.none_or, lastWord?_eq, hrun, lastWord?_eq]
  | cons d u =>
    have hrun : lastRun (s ++ c :: t) = lastRun t := by
      rw [lastRun, hreverse, List.dropWhile_append, hdrop, if_neg (by simp),
        List.takeWhile_append, hstop, List.append_nil, lastRun, hdrop]
      split_ifs with hlength
      · exact ((List.takeWhile_prefix isWordChar).eq_of_length hlength).symm
      · rfl
    have hsome : lastWord? t ≠ none := by
      rw [Ne, lastWord?_eq_none_iff]
      intro hall
      have hnil : t.reverse.dropWhile (!isWordChar ·) = [] :=
        List.dropWhile_eq_nil_iff.mpr (by simpa using hall)
      rw [hdrop] at hnil
      cases hnil
    obtain ⟨w, hw⟩ := Option.ne_none_iff_exists'.mp hsome
    rw [hw, Option.some_or, ← hw, lastWord?_eq, hrun, lastWord?_eq]

theorem lastWord?_word {word : Text} (h : IsWord word) : lastWord? word = some word := by
  have hall : ∀ c ∈ word.reverse, isWordChar c = true := fun c hc => h.2 c (List.mem_reverse.mp hc)
  have hdrop : word.reverse.dropWhile (!isWordChar ·) = word.reverse := by
    apply dropWhile_of_startsOutside
    intro c hc
    simp [hall c (List.mem_of_head? hc)]
  have hrun : lastRun word = word.reverse := by
    rw [lastRun, hdrop, List.takeWhile_eq_self_iff.mpr hall]
  rw [lastWord?_eq, hrun, if_neg (by simp [h.1]), List.reverse_reverse]

theorem lastWord?_eq_some {t word : Text} (h : lastWord? t = some word) :
    IsWord word ∧ word <:+: t := by
  rw [lastWord?_eq] at h
  split_ifs at h with hempty
  obtain rfl := Option.some.inj h
  refine ⟨⟨by simpa using hempty, fun c hc => ?_⟩, ?_⟩
  · exact List.mem_takeWhile_imp (List.mem_reverse.mp hc)
  · rw [← List.reverse_infix, List.reverse_reverse]
    exact (List.takeWhile_prefix _).isInfix.trans (List.dropWhile_suffix _).isInfix

theorem parameterWord?_eq_some {parameters word : Text} (h : parameterWord? parameters = some word) :
    IsWord word ∧ word <:+: parameters := by
  rcases Option.or_eq_some_iff.mp h with h | ⟨-, h⟩
  · obtain ⟨hword, before, after, heq, hbefore, hafter⟩ := firstCaretGroup?_eq_some h
    obtain ⟨c, before, rfl⟩ := List.exists_cons_of_ne_nil hbefore
    obtain ⟨after, d, rfl⟩ := List.eq_nil_or_concat after |>.resolve_left hafter
    have hinner : parameters ++ [')'] = (before ++ (word ++ after)) ++ [d] := by
      simpa using (List.cons.inj heq).2
    refine ⟨hword, before, after, ?_⟩
    rw [(List.append_inj' hinner rfl).1, List.append_assoc]
  · exact lastWord?_eq_some h

theorem parameterWord?_eq_none_iff {parameters : Text} :
    parameterWord? parameters = none ↔ ∀ c ∈ parameters, isWordChar c = false := by
  constructor
  · intro h
    exact lastWord?_eq_none_iff.mp (Option.or_eq_none_iff.mp h).2
  · intro h
    cases hword : parameterWord? parameters with
    | none => rfl
    | some word =>
      obtain ⟨⟨hne, hall⟩, hin⟩ := parameterWord?_eq_some hword
      obtain ⟨c, u, rfl⟩ := List.exists_cons_of_ne_nil hne
      have hc := h c (hin.mem List.mem_cons_self)
      rw [hall c List.mem_cons_self] at hc
      cases hc

theorem exists_cons_name (qualifiers : List Qualifier) (name : Text) :
    ∃ before c, '^' :: declarator qualifiers name = before ++ c :: name ∧ isWordChar c = false := by
  induction qualifiers with
  | nil => exact ⟨[], '^', rfl, by decide⟩
  | cons q qualifiers ih =>
    obtain ⟨before, c, heq, hc⟩ := ih
    obtain ⟨gap, d, hgap⟩ := (List.eq_nil_or_concat q.gap).resolve_left q.gap_ne_nil
    cases before with
    | nil =>
      obtain ⟨rfl, hname⟩ := List.cons.inj heq
      have hd : d = ' ' := q.eq_space_of_mem d (by simp [hgap])
      refine ⟨'^' :: (q.word ++ gap), d, ?_, hd ▸ by decide⟩
      rw [declarator_cons, hname, hgap]
      simp
    | cons b before =>
      obtain ⟨rfl, hbefore⟩ := List.cons.inj heq
      refine ⟨'^' :: (q.word ++ (q.gap ++ before)), c, ?_, hc⟩
      rw [declarator_cons, hbefore]
      simp

theorem lastWord?_blockDeclaration (result : Text) (qualifiers : List Qualifier) {name : Text}
    (hname : IsWord name) (parameters : Text) :
    lastWord? (blockDeclaration result qualifiers name parameters) =
      (lastWord? parameters).or (some name) := by
  obtain ⟨before, c, heq, hc⟩ := exists_cons_name qualifiers name
  have htext : blockDeclaration result qualifiers name parameters =
      (result ++ ' ' :: '(' :: (before ++ c :: name)) ++ ')' :: '(' :: (parameters ++ [')']) := by
    rw [← heq]
    simp [blockDeclaration]
  have hinner : lastWord? ('(' :: (parameters ++ [')'])) = lastWord? parameters := by
    have hopen := lastWord?_append_cons (c := '(') (by decide) [] (parameters ++ [')'])
    have hclose := lastWord?_append_cons (c := ')') (by decide) parameters []
    have hnil : lastWord? [] = none := rfl
    rw [List.nil_append, hnil, Option.or_none] at hopen
    rw [hopen, hclose, hnil, Option.none_or]
  have houter : lastWord? (result ++ ' ' :: '(' :: (before ++ c :: name)) = some name := by
    have hfront : result ++ ' ' :: '(' :: (before ++ c :: name) =
        (result ++ ' ' :: '(' :: before) ++ c :: name := by simp
    rw [hfront, lastWord?_append_cons hc, lastWord?_word hname, Option.some_or]
  rw [htext, lastWord?_append_cons (by decide), hinner, houter]

theorem firstCaretGroup?_blockDeclaration {result : Text} (hresult : '(' ∉ result)
    (qualifiers : List Qualifier) {name : Text} (hname : IsWord name) (parameters : Text) :
    firstCaretGroup? (blockDeclaration result qualifiers name parameters) =
      if qualifiers = [] then some name else firstCaretGroup? ('(' :: (parameters ++ [')'])) := by
  have hfront : '(' ∉ result ++ [' '] := by simp [hresult]
  have htext : blockDeclaration result qualifiers name parameters =
      (result ++ [' ']) ++ '(' :: '^' ::
        (declarator qualifiers name ++ ')' :: '(' :: (parameters ++ [')'])) := by
    simp [blockDeclaration]
  rw [htext, firstCaretGroup?_append hfront, firstCaretGroup?]
  cases qualifiers with
  | nil => rw [declarator, List.flatMap_nil, List.nil_append, caretGroup?_word hname, if_pos rfl,
      Option.some_or]
  | cons q qualifiers =>
    have hgroup : '(' ∉ '^' :: (declarator (q :: qualifiers) name ++ [')']) := by
      simpa using not_mem_declarator (q :: qualifiers) hname
    have hrest : '^' :: (declarator (q :: qualifiers) name ++ ')' :: '(' :: (parameters ++ [')'])) =
        '^' :: (declarator (q :: qualifiers) name ++ [')']) ++ '(' :: (parameters ++ [')']) := by simp
    rw [caretGroup?_qualified q qualifiers hname, Option.none_or, if_neg (List.cons_ne_nil _ _),
      hrest, firstCaretGroup?_append hgroup]

/-- The name of a block is found when no qualifier stands before it, whatever the parameters hold.
With a qualifier it is found when the parameters hold no word, and otherwise a word of the parameters
takes its place. -/
theorem name_blockDeclaration (attributes : Text) (line : Int) {result name : Text}
    (hresult : '(' ∉ result) (hname : IsWord name) (qualifiers : List Qualifier)
    (parameters : Text) :
    let p : Property := ⟨attributes, blockDeclaration result qualifiers name parameters, line⟩
    (qualifiers = [] → p.name = name) ∧
      ((∀ c ∈ parameters, isWordChar c = false) → p.name = name) ∧
      (qualifiers ≠ [] → (∃ c ∈ parameters, isWordChar c = true) →
        parameterWord? parameters = some p.name ∧ IsWord p.name ∧ p.name <:+: parameters) := by
  intro p
  have hcaret := firstCaretGroup?_blockDeclaration hresult qualifiers hname parameters
  have hlast := lastWord?_blockDeclaration result qualifiers hname parameters
  have hplain (hq : qualifiers = []) : p.name = name := by
    rw [Property.name, hcaret, if_pos hq, Option.some_or, Option.getD_some]
  have hqualified (hq : qualifiers ≠ []) : p.name = (parameterWord? parameters).getD name := by
    rw [Property.name, hcaret, hlast, if_neg hq, ← Option.or_assoc, ← parameterWord?]
    cases parameterWord? parameters <;> rfl
  refine ⟨hplain, fun hall => ?_, fun hq hword => ?_⟩
  · by_cases hq : qualifiers = []
    · exact hplain hq
    · rw [hqualified hq, parameterWord?_eq_none_iff.mpr hall, Option.getD_none]
  · have hsome : parameterWord? parameters ≠ none := by
      rw [Ne, parameterWord?_eq_none_iff]
      obtain ⟨c, hc, hcword⟩ := hword
      exact fun hall => by simp [hall c hc] at hcword
    obtain ⟨word, hparameters⟩ := Option.ne_none_iff_exists'.mp hsome
    rw [hqualified hq, hparameters, Option.getD_some]
    exact ⟨rfl, parameterWord?_eq_some hparameters⟩

/-- A block with a block among its parameters, without a qualifier and with one. -/
theorem name_blockDeclaration_of_nested_block :
    let result : Text := "NSArray<id> *"
    let parameters : Text := "void (^ done )(BOOL ok), int n"
    let strong : Qualifier := ⟨"__strong", [' ', ' '], by decide, by decide, by simp⟩
    name ⟨"(copy)", blockDeclaration result [] "handler" parameters, 1⟩ = "handler" ∧
      parameterWord? parameters =
        some (name ⟨"(copy)", blockDeclaration result [strong] "handler" parameters, 1⟩) ∧
      name ⟨[], blockDeclaration result [strong] "handler" "...", 1⟩ = "handler" := by
  intro result parameters strong
  have hresult : '(' ∉ result := by decide
  have hname : IsWord "handler" := by decide
  have hdots : ∀ c ∈ ("..." : Text), isWordChar c = false := by
    intro c hc
    obtain rfl : c = '.' := by simpa using hc
    rfl
  exact ⟨(name_blockDeclaration "(copy)" 1 hresult hname [] parameters).1 rfl,
    ((name_blockDeclaration "(copy)" 1 hresult hname [strong] parameters).2.2 (by simp)
      ⟨'v', by decide, by decide⟩).1,
    (name_blockDeclaration [] 1 hresult hname [strong] "...").2.1 hdots⟩

/-- A nullable block is named by the name of its parameter. -/
theorem name_of_nullable_block :
    let nullable : Qualifier := ⟨"nullable", [' '], by decide, by decide, by simp⟩
    let p : Property := ⟨[], blockDeclaration "void" [nullable] "handler" "BOOL finished", 1⟩
    p.declaration = "void (^nullable handler)(BOOL finished)" ∧ p.name = "finished" ∧
      p.name ≠ "handler" := by
  decide

end ObjcOutline.Property
