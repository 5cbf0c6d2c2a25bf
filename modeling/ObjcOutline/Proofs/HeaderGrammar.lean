import ObjcOutline.Proofs.Patterns
import ObjcOutline.Proofs.HeaderPatterns
import ObjcOutline.Proofs.Placement

/-!
# The grammar of headers

Which headers are read is said here in two more ways. The first is a grammar: a keyword and a name
that goes on no further, and then the parts that may follow, each of which is there or is not. What
is there is read, so brackets after the name of an interface hold type parameters where a colon and a
supertype follow them, and protocols otherwise; an opening parenthesis that is not closed and a pair
of empty angle brackets are no part at all. The second is a list of patterns that are matched by
backtracking and tried one after another. The three agree on every text.
-/
namespace ObjcOutline.Header

open Text

/-- A keyword after an at sign, blanks, and a name that the rest does not continue. -/
def Begins (keyword : Kind) (name rest t : Text) : Prop :=
  ∃ named, IsNamed keyword name named ∧ StartsOutside isWordChar rest ∧ t = named ++ rest

/-- Parentheses after optional blanks, up to the first closing one. -/
def HasCategory (category rest t : Text) : Prop :=
  ∃ bracketed, IsBracketed '(' ')' category bracketed ∧ t = bracketed ++ rest

/-- A colon and a supertype, with optional type parameters in front, and optional blanks. The rest
does not continue the supertype. -/
def HasSupertype (supertype rest t : Text) : Prop :=
  ∃ superclause, IsSuperclause (some supertype) superclause ∧ StartsOutside isWordChar rest ∧
    t = superclause ++ rest

/-- The pieces of a list between its commas, trimmed, without the empty ones. -/
def Lists (names : List Text) (list : Text) : Prop :=
  ∃ pieces, pieces ≠ [] ∧ (∀ piece ∈ pieces, ',' ∉ piece) ∧ join [','] pieces = list ∧
    names = (pieces.map trim).filter (!·.isEmpty)

/-- Angle brackets that are not empty, after optional blanks, with the names in them. -/
def HasProtocols (names : List Text) (rest t : Text) : Prop :=
  ∃ list bracketed, list ≠ [] ∧ IsBracketed '<' '>' list bracketed ∧ Lists names list ∧
    t = bracketed ++ rest

/-- White space, which may be none, and a semicolon or a comma. -/
def IsForwardTail (t : Text) : Prop :=
  ∃ space c rest, (∀ d ∈ space, isSpace d = true) ∧ (c = ';' ∨ c = ',') ∧ t = space ++ c :: rest

/-- An optional part is read where it is there. Where it is not there, nothing is read. -/
inductive IfThere {α : Type} (part : α → Text → Text → Prop) : Option α → Text → Text → Prop
  | there {x : α} {rest t : Text} : part x rest t → IfThere part (some x) rest t
  | missing {t : Text} : (∀ x rest, ¬ part x rest t) → IfThere part none t t

/-- The four forms of a header. -/
inductive Opens : Header → Text → Prop
  | category {keyword : Kind} {name category r rest t : Text} :
      keyword = .interface ∨ keyword = .implementation → Begins keyword name r t →
      HasCategory category rest r →
      Opens { kind := .category, keyword, name, category := trim category,
              length := t.length - rest.length } t
  | interface {name r s rest t : Text} {supertype : Option Text} {protocols : Option (List Text)} :
      Begins .interface name r t → (∀ category rest, ¬ HasCategory category rest r) →
      IfThere HasSupertype supertype s r → IfThere HasProtocols protocols rest s →
      Opens { kind := .interface, keyword := .interface, name, supertype,
              protocols := protocols.getD [], length := t.length - rest.length } t
  | implementation {name r t : Text} :
      Begins .implementation name r t → (∀ category rest, ¬ HasCategory category rest r) →
      Opens { kind := .implementation, keyword := .implementation, name,
              length := t.length - r.length } t
  | protocol {name r t : Text} : Begins .protocol name r t → ¬ IsForwardTail r →
      Opens { kind := .protocol, keyword := .protocol, name, length := t.length - r.length } t

theorem name?_eq_some_iff {keyword : Kind} {name rest t : Text} :
    name? keyword t = some (name, rest) ↔ Begins keyword name rest t := by
  constructor
  · intro h
    obtain ⟨named, hnamed, rfl⟩ := exists_isNamed h
    rw [hnamed.name?_append, Option.some.injEq, Prod.mk.injEq] at h
    exact ⟨named, hnamed, h.2 ▸ startsOutside_dropWhile isWordChar rest, rfl⟩
  · rintro ⟨named, hnamed, hrest, rfl⟩
    rw [hnamed.name?_append, dropWhile_of_startsOutside hrest, Pattern.takeWhile_of_startsOutside hrest,
      List.append_nil]

theorem parenthesised?_eq_some_iff {category rest t : Text} :
    parenthesised? t = some (category, rest) ↔ HasCategory category rest t := by
  constructor
  · exact exists_isBracketed_of_parenthesised?
  · rintro ⟨bracketed, hbracketed, rfl⟩
    exact hbracketed.parenthesised?_append rest

theorem supertype?_eq_some_iff {supertype rest t : Text} :
    supertype? t = some (supertype, rest) ↔ HasSupertype supertype rest t := by
  constructor
  · intro h
    obtain ⟨superclause, hsuper, ht⟩ := exists_isSuperclause t
    rw [h] at hsuper ht
    simp only [Option.elim_some] at ht
    rw [ht, hsuper.supertype?_append, Option.some.injEq, Prod.mk.injEq] at h
    exact ⟨superclause, hsuper, h.2 ▸ startsOutside_dropWhile isWordChar rest, ht⟩
  · rintro ⟨superclause, hsuper, hrest, rfl⟩
    rw [hsuper.supertype?_append, dropWhile_of_startsOutside hrest,
      Pattern.takeWhile_of_startsOutside hrest, List.append_nil]

/-- The text in angle brackets that are not empty, and what follows them. -/
def list? (t : Text) : Option (Text × Text) := (angled? t).filter (!·.1.isEmpty)

theorem protocolsOf_eq (t : Text) :
    protocolsOf t = (list? t).elim ([], t) fun x => (listedNames x.1, x.2) := by
  unfold protocolsOf list?
  cases angled? t with
  | none => rfl
  | some x =>
    obtain ⟨list, rest⟩ := x
    cases list <;> rfl

theorem list?_eq_some_iff {list rest t : Text} : list? t = some (list, rest) ↔
    ∃ bracketed, list ≠ [] ∧ IsBracketed '<' '>' list bracketed ∧ t = bracketed ++ rest := by
  rw [list?, Option.filter_eq_some_iff]
  constructor
  · rintro ⟨h, hne⟩
    obtain ⟨bracketed, hbracketed, rfl⟩ := exists_isBracketed_of_angled? h
    exact ⟨bracketed, by simpa using hne, hbracketed, rfl⟩
  · rintro ⟨bracketed, hne, hbracketed, rfl⟩
    exact ⟨hbracketed.angled?_append rest, by simpa using hne⟩

theorem join_cons_cons (sep x : Text) (y : Text) (ys : List Text) :
    join sep (x :: y :: ys) = x ++ (sep ++ join sep (y :: ys)) := by
  simp [join, List.intercalate_cons_cons]

theorem join_split (sep : Char) (t : Text) : join [sep] (split sep t) = t := by
  induction t with
  | nil => simp [split, join]
  | cons c t ih =>
    obtain ⟨piece, pieces, hsplit⟩ := List.exists_cons_of_ne_nil (split_ne_nil sep t)
    rw [hsplit] at ih
    rw [split]
    split_ifs with hc
    · rw [hsplit, join_cons_cons, ih, hc]
      rfl
    · rw [hsplit]
      cases pieces with
      | nil => simpa [join] using ih
      | cons q pieces =>
        rw [join_cons_cons] at ih ⊢
        rw [List.cons_append, ih]

theorem split_join {sep : Char} {pieces : List Text} (hne : pieces ≠ [])
    (h : ∀ piece ∈ pieces, sep ∉ piece) : split sep (join [sep] pieces) = pieces := by
  induction pieces with
  | nil => exact absurd rfl hne
  | cons piece pieces ih =>
    obtain ⟨hpiece, hpieces⟩ := List.forall_mem_cons.mp h
    cases pieces with
    | nil => simpa [join] using split_of_not_mem hpiece
    | cons q pieces =>
      have hcut : piece ++ ([sep] ++ join [sep] (q :: pieces)) =
          piece ++ sep :: join [sep] (q :: pieces) := rfl
      rw [join_cons_cons, hcut, split_append, split_of_not_mem hpiece,
        ih (List.cons_ne_nil _ _) hpieces]
      rfl

theorem lists_iff {names : List Text} {list : Text} :
    Lists names list ↔ names = listedNames list := by
  constructor
  · rintro ⟨pieces, hne, hfree, rfl, rfl⟩
    rw [listedNames, split_join hne hfree]
  · rintro rfl
    exact ⟨split ',' list, split_ne_nil ',' list,
      fun _ hpiece hc => (mem_of_mem_split hpiece hc).2 rfl, join_split ',' list, rfl⟩

theorem isForward_iff {t : Text} : isForward t = true ↔ IsForwardTail t := by
  constructor
  · intro h
    unfold isForward at h
    split at h
    next c r hr =>
      refine ⟨t.takeWhile isSpace, c, r, fun _ hd => List.mem_takeWhile_imp hd, by simpa using h, ?_⟩
      rw [← hr, trimStart, List.takeWhile_append_dropWhile]
    · cases h
  · rintro ⟨space, c, rest, hspace, hc, rfl⟩
    have hout : isSpace c = false := by rcases hc with rfl | rfl <;> decide
    have hstart : trimStart (space ++ c :: rest) = c :: rest := by
      rw [trimStart, List.dropWhile_append_of_pos hspace,
        dropWhile_of_startsOutside (startsOutside_cons.mpr hout)]
    unfold isForward
    rw [hstart]
    rcases hc with rfl | rfl <;> rfl

/-- An optional part that is described by a reading step is read by it, or is not there. -/
theorem ifThere_iff {α : Type} {part : α → Text → Text → Prop} {read : Text → Option (α × Text)}
    (hread : ∀ x rest t, read t = some (x, rest) ↔ part x rest t) {x : Option α} {rest t : Text} :
    IfThere part x rest t ↔ x = (read t).map (·.1) ∧ rest = (read t).elim t (·.2) := by
  constructor
  · intro h
    cases h with
    | there hpart =>
      rw [(hread _ _ _).mpr hpart]
      exact ⟨rfl, rfl⟩
    | missing hnot =>
      have hnone : read rest = none :=
        Option.eq_none_iff_forall_ne_some.mpr fun y hy => hnot y.1 y.2 ((hread _ _ _).mp hy)
      rw [hnone]
      exact ⟨rfl, rfl⟩
  · rintro ⟨rfl, rfl⟩
    cases hy : read t with
    | none =>
      refine .missing fun x rest hpart => ?_
      rw [(hread x rest t).mpr hpart] at hy
      cases hy
    | some y => exact .there ((hread y.1 y.2 t).mp hy)

theorem ifThere_hasSupertype_iff {supertype : Option Text} {rest t : Text} :
    IfThere HasSupertype supertype rest t ↔
      supertype = (supertype? t).map (·.1) ∧ rest = (supertype? t).elim t (·.2) :=
  ifThere_iff fun _ _ _ => supertype?_eq_some_iff

theorem ifThere_hasProtocols_iff {protocols : Option (List Text)} {rest t : Text} :
    IfThere HasProtocols protocols rest t ↔
      protocols = (list? t).map (listedNames ·.1) ∧ rest = (list? t).elim t (·.2) := by
  have hread (names : List Text) (rest t : Text) :
      (list? t).map (fun x => (listedNames x.1, x.2)) = some (names, rest) ↔
        HasProtocols names rest t := by
    rw [Option.map_eq_some_iff]
    constructor
    · rintro ⟨⟨list, r⟩, hlist, heq⟩
      obtain ⟨rfl, rfl⟩ := Prod.mk.inj heq
      obtain ⟨bracketed, hne, hbracketed, ht⟩ := list?_eq_some_iff.mp hlist
      exact ⟨list, bracketed, hne, hbracketed, lists_iff.mpr rfl, ht⟩
    · rintro ⟨list, bracketed, hne, hbracketed, hnames, ht⟩
      exact ⟨(list, rest), list?_eq_some_iff.mpr ⟨bracketed, hne, hbracketed, ht⟩,
        by rw [lists_iff.mp hnames]⟩
  rw [ifThere_iff hread]
  cases list? t <;> rfl

theorem forall_not_hasCategory_iff {t : Text} :
    (∀ category rest, ¬ HasCategory category rest t) ↔ parenthesised? t = none := by
  rw [Option.eq_none_iff_forall_ne_some, Prod.forall]
  exact forall₂_congr fun _ _ => not_congr parenthesised?_eq_some_iff.symm

/-- The three keywords that a header can start with. -/
def openingKeywords : List Kind := [.interface, .implementation, .protocol]

theorem name?_eq_none_of_keyword (other : Kind) {keyword : Kind} {name rest t : Text}
    (hkeyword : keyword ∈ openingKeywords) (hother : other ∈ openingKeywords)
    (hne : other ≠ keyword) (h : name? keyword t = some (name, rest)) : name? other t = none := by
  obtain ⟨named, ⟨blanks, -, -, -, rfl⟩, rfl⟩ := exists_isNamed h
  simp only [openingKeywords, List.mem_cons, List.not_mem_nil, or_false] at hkeyword hother
  rcases hkeyword with rfl | rfl | rfl <;> rcases hother with rfl | rfl | rfl <;>
    first | exact absurd rfl hne | rfl

theorem parenthesised?_eq_none_of_name? {keyword : Kind} {name r t : Text}
    (hname : name? keyword t = some (name, r)) (hcategory : categoryOf? keyword t = none) :
    parenthesised? r = none := by
  unfold categoryOf? at hcategory
  rw [hname] at hcategory
  cases hparen : parenthesised? r with
  | none => rfl
  | some x => simp [hparen] at hcategory

theorem opens_of_categoryOf? {keyword : Kind}
    (hkeyword : keyword = .interface ∨ keyword = .implementation) {t : Text} {h : Header}
    (heq : categoryOf? keyword t = some h) : Opens h t := by
  unfold categoryOf? at heq
  split at heq
  next name r hname =>
    split at heq
    next category rest hparen =>
      cases heq
      exact .category hkeyword (name?_eq_some_iff.mp hname) (parenthesised?_eq_some_iff.mp hparen)
    · cases heq
  · cases heq

theorem interface?_eq_map (t : Text) : interface? t = (name? .interface t).map fun x =>
    { kind := .interface, keyword := .interface, name := x.1,
      supertype := (supertype? x.2).map (·.1),
      protocols := ((list? ((supertype? x.2).elim x.2 (·.2))).map (listedNames ·.1)).getD [],
      length := t.length - ((list? ((supertype? x.2).elim x.2 (·.2))).elim
        ((supertype? x.2).elim x.2 (·.2)) (·.2)).length } := by
  unfold interface?
  cases name? .interface t with
  | none => rfl
  | some x =>
    obtain ⟨name, r⟩ := x
    cases hsuper : supertype? r with
    | none => cases hlist : list? r <;> simp [hsuper, hlist, protocolsOf_eq]
    | some y => cases hlist : list? y.2 <;> simp [hsuper, hlist, protocolsOf_eq]

/-- A header is read exactly when the grammar has it. -/
theorem ofTrimmed?_eq_some_iff {t : Text} {h : Header} : ofTrimmed? t = some h ↔ Opens h t := by
  constructor
  · intro heq
    unfold ofTrimmed? at heq
    rcases Option.or_eq_some_iff.mp heq with heq | ⟨hinterface, heq⟩
    · exact opens_of_categoryOf? (.inl rfl) heq
    rcases Option.or_eq_some_iff.mp heq with heq | ⟨himplementation, heq⟩
    · exact opens_of_categoryOf? (.inr rfl) heq
    rcases Option.or_eq_some_iff.mp heq with heq | ⟨-, heq⟩
    · rw [interface?_eq_map] at heq
      obtain ⟨⟨name, r⟩, hname, rfl⟩ := Option.map_eq_some_iff.mp heq
      have hparen := parenthesised?_eq_none_of_name? hname hinterface
      exact .interface (name?_eq_some_iff.mp hname) (forall_not_hasCategory_iff.mpr hparen)
        (ifThere_hasSupertype_iff.mpr ⟨rfl, rfl⟩) (ifThere_hasProtocols_iff.mpr ⟨rfl, rfl⟩)
    rcases Option.or_eq_some_iff.mp heq with heq | ⟨-, heq⟩
    · obtain ⟨name, r, hname, rfl⟩ := implementation?_eq_some heq
      have hparen := parenthesised?_eq_none_of_name? hname himplementation
      exact .implementation (name?_eq_some_iff.mp hname) (forall_not_hasCategory_iff.mpr hparen)
    · unfold protocol? at heq
      split at heq
      next name r hname =>
        split_ifs at heq with hforward
        cases heq
        exact .protocol (name?_eq_some_iff.mp hname) (isForward_iff.not.mp hforward)
      · cases heq
  · intro hopens
    cases hopens with
    | @category keyword name category r rest _ hkeyword hbegins hcategory =>
      have hname := name?_eq_some_iff.mpr hbegins
      have hparen := parenthesised?_eq_some_iff.mpr hcategory
      rcases hkeyword with rfl | rfl
      · simp [ofTrimmed?, categoryOf?, hname, hparen]
      · have hother := name?_eq_none_of_keyword .interface (by decide) (by decide) (by decide) hname
        simp [ofTrimmed?, categoryOf?, hname, hparen, hother]
    | @interface name r s rest _ supertype protocols hbegins hcategory hsuper hlist =>
      have hname := name?_eq_some_iff.mpr hbegins
      have hparen := forall_not_hasCategory_iff.mp hcategory
      have hother := name?_eq_none_of_keyword .implementation (by decide) (by decide) (by decide)
        hname
      obtain ⟨rfl, rfl⟩ := ifThere_hasSupertype_iff.mp hsuper
      obtain ⟨rfl, rfl⟩ := ifThere_hasProtocols_iff.mp hlist
      simp [ofTrimmed?, categoryOf?, interface?_eq_map, hname, hparen, hother]
    | @implementation name r _ hbegins hcategory =>
      have hname := name?_eq_some_iff.mpr hbegins
      have hparen := forall_not_hasCategory_iff.mp hcategory
      have hother := name?_eq_none_of_keyword .interface (by decide) (by decide) (by decide) hname
      simp [ofTrimmed?, categoryOf?, interface?, implementation?, hname, hparen, hother]
    | @protocol name r _ hbegins hforward =>
      have hname := name?_eq_some_iff.mpr hbegins
      have hinterface := name?_eq_none_of_keyword .interface (by decide) (by decide) (by decide)
        hname
      have himplementation := name?_eq_none_of_keyword .implementation (by decide) (by decide)
        (by decide) hname
      have hrest : isForward r = false := Bool.eq_false_iff.mpr (isForward_iff.not.mpr hforward)
      simp [ofTrimmed?, categoryOf?, interface?, implementation?, protocol?, hname, hinterface,
        himplementation, hrest]

/-- A line opens a block when it starts with the keyword and the name of a class, whatever follows, or
with those of a protocol that is not only announced. -/
theorem exists_opens_iff {t : Text} : (∃ h, Opens h t) ↔
    (∃ keyword name r, (keyword = .interface ∨ keyword = .implementation) ∧
      Begins keyword name r t) ∨
    ∃ name r, Begins .protocol name r t ∧ ¬ IsForwardTail r := by
  constructor
  · rintro ⟨h, hopens⟩
    cases hopens with
    | category hkeyword hbegins _ => exact .inl ⟨_, _, _, hkeyword, hbegins⟩
    | interface hbegins _ _ _ => exact .inl ⟨_, _, _, .inl rfl, hbegins⟩
    | implementation hbegins _ => exact .inl ⟨_, _, _, .inr rfl, hbegins⟩
    | protocol hbegins hforward => exact .inr ⟨_, _, hbegins, hforward⟩
  · rintro (⟨keyword, name, r, hkeyword, hbegins⟩ | ⟨name, r, hbegins, hforward⟩)
    · cases hparen : parenthesised? r with
      | some x => exact ⟨_, .category hkeyword hbegins (parenthesised?_eq_some_iff.mp hparen)⟩
      | none =>
        have hcategory := forall_not_hasCategory_iff.mpr hparen
        rcases hkeyword with rfl | rfl
        · exact ⟨_, .interface hbegins hcategory (ifThere_hasSupertype_iff.mpr ⟨rfl, rfl⟩)
            (ifThere_hasProtocols_iff.mpr ⟨rfl, rfl⟩)⟩
        · exact ⟨_, .implementation hbegins hcategory⟩
    · exact ⟨_, .protocol hbegins hforward⟩

open Pattern

/-- A keyword after an at sign, blanks, and a captured name. -/
def openingPattern (keyword : Kind) : Pattern :=
  seq (literal ('@' :: keyword.toText)) (seq gap word)

def categoryPattern : Pattern :=
  seq (literal ['@'])
    (seq (group (alt (literal Kind.interface.toText) (literal Kind.implementation.toText)))
      (seq gap (seq word (seq blanks (seq (literal ['('])
        (seq (group (many (· != ')'))) (literal [')'])))))))

/-- Type parameters, which are not captured. -/
def parametersPattern : Pattern :=
  seq blanks (seq (literal ['<']) (seq (many (· != '>')) (literal ['>'])))

def clausePattern : Pattern := seq blanks (seq (literal [':']) (seq blanks word))

def protocolsPattern : Pattern :=
  seq blanks (seq (literal ['<']) (seq (group (run (· != '>'))) (literal ['>'])))

def interfacePattern : Pattern :=
  seq (openingPattern .interface)
    (seq (opt (seq (opt parametersPattern) clausePattern)) (opt protocolsPattern))

/-- The header that is read off the match of the first pattern that matches. -/
def ofMatch? (t : Text) : Option Header :=
  ((categoryPattern.match? t).map fun m =>
    { kind := .category, keyword := .ofText (m.group 0), name := m.group 1,
      category := trim (m.group 2), length := t.length - m.rest.length }).or <|
  ((interfacePattern.match? t).map fun m =>
    { kind := .interface, keyword := .interface, name := m.group 0, supertype := m.group? 1,
      protocols := (m.group? 2).elim [] listedNames, length := t.length - m.rest.length }).or <|
  (((openingPattern .implementation).match? t).map fun m =>
    { kind := .implementation, keyword := .implementation, name := m.group 0,
      length := t.length - m.rest.length }).or <|
  ((openingPattern .protocol).match? t).bind fun m =>
    if isForward m.rest then none
    else some { kind := .protocol, keyword := .protocol, name := m.group 0,
                length := t.length - m.rest.length }

theorem after?_append_start (u v t : Text) : after? (u ++ v) t = (after? u t).bind (after? v) := by
  induction u generalizing t with
  | nil => rfl
  | cons c u ih =>
    cases t with
    | nil => rfl
    | cons d t =>
      rw [List.cons_append, after?, after?]
      split_ifs
      · exact ih t
      · rfl

theorem name?_eq_bind (keyword : Kind) (t : Text) : name? keyword t =
    (after? ('@' :: keyword.toText) t).bind fun r => (skipBlanks? r).bind word? := by
  unfold name?
  cases after? ('@' :: keyword.toText) t with
  | none => rfl
  | some r => cases hr : skipBlanks? r <;> simp [hr]

theorem angled?_eq_bind (t : Text) :
    angled? t = (after? ['<'] (skipBlanks t)).bind (cut? (· == '>')) := by
  unfold angled?
  generalize skipBlanks t = s
  revert s
  refine eq_bind_after? (fun _ => rfl) fun s hs => ?_
  split
  · exact absurd rfl (hs _)
  · rfl

theorem clause?_eq_bind (t : Text) :
    clause? t = (after? [':'] (skipBlanks t)).bind fun r => word? (skipBlanks r) := by
  unfold clause?
  generalize skipBlanks t = s
  revert s
  refine eq_bind_after? (fun _ => rfl) fun s hs => ?_
  split
  · exact absurd rfl (hs _)
  · rfl

theorem match?_opening (keyword : Kind) (t : Text) : (openingPattern keyword).match? t =
    (name? keyword t).map fun x => ⟨[some x.1], x.2⟩ := by
  rw [openingPattern, match?_literal_seq, name?_eq_bind]
  cases after? ('@' :: keyword.toText) t with
  | none => rfl
  | some r =>
    rw [Option.bind_some, Option.bind_some, match?_gap_seq match?_word_of_isBlank]
    cases skipBlanks? r with
    | none => rfl
    | some r => exact match?_word r

theorem match?_clause (t : Text) :
    clausePattern.match? t = (clause? t).map fun x => ⟨[some x.1], x.2⟩ := by
  rw [clausePattern, match?_blanks_seq (match?_literal_seq_eq_none (by decide) _ _),
    match?_literal_seq, clause?_eq_bind]
  cases after? [':'] (skipBlanks t) with
  | none => rfl
  | some r =>
    rw [Option.bind_some, Option.bind_some, match?_blanks_seq match?_word_of_isBlank, match?_word]

theorem match?_parameters_seq (b : Pattern) (t : Text) : (seq parametersPattern b).match? t =
    (angled? t).bind fun x => b.match? x.2 := by
  have hopen (r : Text) : (seq (seq (literal ['<']) (seq (many (· != '>')) (literal ['>']))) b).match?
      r = ((after? ['<'] r).bind (cut? (· == '>'))).bind fun x => b.match? x.2 := by
    rw [match?_seq_assoc, match?_literal_seq, Option.bind_assoc]
    congr
    funext r
    rw [match?_seq_assoc, match?_closing (match?_literal_seq ['>'] b)]
  rw [parametersPattern, match?_seq_assoc, match?_blanks_seq, hopen, angled?_eq_bind]
  intro c r hc
  have hne : '<' ≠ c := by rintro rfl; exact absurd hc (by decide)
  rw [hopen, after?, if_neg hne]
  rfl

theorem clause?_of_angled? {t : Text} {x : Text × Text} (h : angled? t = some x) :
    clause? t = none := by
  rw [angled?_eq_bind, Option.bind_eq_some_iff] at h
  obtain ⟨r, hr, -⟩ := h
  rw [clause?_eq_bind, after?_eq_some hr]
  rfl

/-- The supertype is read where it follows the name, with type parameters in between or not. -/
theorem match?_superclause (t : Text) : (seq (opt parametersPattern) clausePattern).match? t =
    (supertype? t).map fun x => ⟨[some x.1], x.2⟩ := by
  rw [match?_opt_seq, match?_parameters_seq, match?_clause, supertype?_eq_clause?]
  cases hangled : angled? t with
  | none =>
    rw [Option.bind_none, Option.none_or, Option.map_map, Option.elim_none]
    rfl
  | some x =>
    rw [clause?_of_angled? hangled, Option.bind_some, match?_clause, Option.map_none,
      Option.map_none, Option.or_none, Option.elim_some]

theorem match?_protocols (t : Text) :
    protocolsPattern.match? t = (list? t).map fun x => ⟨[some x.1], x.2⟩ := by
  rw [protocolsPattern, match?_blanks_seq (match?_literal_seq_eq_none (by decide) _ _),
    match?_literal_seq, list?, angled?_eq_bind]
  cases after? ['<'] (skipBlanks t) with
  | none => rfl
  | some r =>
    rw [Option.map_eq_bind]
    exact match?_group_run_closing (match?_literal_eq_bind ['>']) r

/-- What may follow the name of an interface is matched as it is read. -/
theorem match?_afterInterface (r : Text) :
    let s := (supertype? r).elim r (·.2)
    (seq (opt (seq (opt parametersPattern) clausePattern)) (opt protocolsPattern)).match? r =
      some ⟨[(supertype? r).map (·.1), (list? s).map (·.1)], (list? s).elim s (·.2)⟩ := by
  intro s
  have hsuper : (opt (seq (opt parametersPattern) clausePattern)).match? r =
      some ⟨[(supertype? r).map (·.1)], s⟩ := by
    rw [match?_opt, match?_superclause]
    cases hread : supertype? r <;> simp only [s, hread] <;> rfl
  have hlist : (opt protocolsPattern).match? s =
      some ⟨[(list? s).map (·.1)], (list? s).elim s (·.2)⟩ := by
    rw [match?_opt, match?_protocols]
    cases list? s <;> rfl
  exact match?_seq_of_some hsuper hlist

theorem map_match?_interface (t : Text) : ((interfacePattern.match? t).map fun m =>
    { kind := .interface, keyword := .interface, name := m.group 0, supertype := m.group? 1,
      protocols := (m.group? 2).elim [] listedNames, length := t.length - m.rest.length }) =
    interface? t := by
  have hopening := match?_opening .interface t
  rw [interface?_eq_map]
  cases hname : name? .interface t with
  | none =>
    rw [hname] at hopening
    rw [interfacePattern, match?_seq_of_none hopening]
    rfl
  | some x =>
    rw [hname, Option.map_some] at hopening
    rw [interfacePattern, match?_seq_of_some hopening (match?_afterInterface x.2)]
    cases hlist : list? ((supertype? x.2).elim x.2 (·.2)) <;>
      simp [Match.followedBy, Match.group, Match.group?, hlist]

/-- The name and the category that follow a keyword. -/
theorem match?_afterCategory (r : Text) :
    (seq gap (seq word (seq blanks (seq (literal ['('])
      (seq (group (many (· != ')'))) (literal [')'])))))).match? r =
      ((skipBlanks? r).bind word?).bind fun x => (parenthesised? x.2).map fun y =>
        ⟨[some x.1, some y.1], y.2⟩ := by
  have hparen (r : Text) : (seq blanks (seq (literal ['(']) (seq (group (many (· != ')')))
      (literal [')'])))).match? r = (parenthesised? r).map fun y => ⟨[some y.1], y.2⟩ := by
    rw [match?_blanks_seq (match?_literal_seq_eq_none (by decide) _ _), match?_literal_seq,
      parenthesised?_eq_bind]
    cases after? ['('] (skipBlanks r) with
    | none => rfl
    | some r =>
      rw [Option.map_eq_bind]
      exact match?_group_closing (match?_literal_eq_bind [')']) r
  have hword (c : Char) (r : Text) (hc : isWordChar c = true) :
      parenthesised? (c :: r) = none := by
    apply parenthesised?_eq_none
    rw [skipBlanks_cons (isBlank_eq_false_of_isWordChar hc), startsOutside_cons, beq_eq_false_iff_ne]
    rintro rfl
    exact absurd hc (by decide)
  rw [match?_gap_seq fun c r hc => match?_seq_of_none (match?_word_of_isBlank c r hc),
    Option.bind_assoc]
  congr
  funext r
  rw [match?_word_seq fun c r hc => by rw [hparen, hword c r hc, Option.map_none]]
  congr
  funext x
  rw [hparen, Option.map_map]
  rfl

theorem match?_category (t : Text) : categoryPattern.match? t =
    ((name? .interface t).bind fun x => (parenthesised? x.2).map fun y =>
      ⟨[some Kind.interface.toText, some x.1, some y.1], y.2⟩).or
    ((name? .implementation t).bind fun x => (parenthesised? x.2).map fun y =>
      ⟨[some Kind.implementation.toText, some x.1, some y.1], y.2⟩) := by
  have hkeyword (keyword : Kind) : name? keyword t = ((after? ['@'] t).bind
      (after? keyword.toText)).bind fun r => (skipBlanks? r).bind word? := by
    rw [name?_eq_bind, ← after?_append_start]
    rfl
  rw [categoryPattern, match?_literal_seq, hkeyword, hkeyword]
  cases after? ['@'] t with
  | none => rfl
  | some s =>
    rw [Option.bind_some, match?_group_alt_seq, Option.bind_some, Option.bind_some, Option.bind_assoc,
      Option.bind_assoc]
    simp only [match?_afterCategory, Option.map_bind, Function.comp_def, Option.map_map]
    rfl

theorem map_match?_category (t : Text) : ((categoryPattern.match? t).map fun m =>
    { kind := .category, keyword := .ofText (m.group 0), name := m.group 1,
      category := trim (m.group 2), length := t.length - m.rest.length }) =
    (categoryOf? .interface t).or (categoryOf? .implementation t) := by
  have hread (keyword : Kind) : categoryOf? keyword t = (name? keyword t).bind fun x =>
      (parenthesised? x.2).map fun y =>
        { kind := .category, keyword, name := x.1, category := trim y.1,
          length := t.length - y.2.length } := by
    unfold categoryOf?
    cases name? keyword t with
    | none => rfl
    | some x => cases hx : parenthesised? x.2 <;> simp [hx]
  rw [match?_category, hread, hread, Option.map_or, Option.map_bind, Option.map_bind]
  simp only [Function.comp_def, Option.map_map]
  rfl

/-- The patterns give what is read. -/
theorem ofMatch?_eq (t : Text) : ofMatch? t = ofTrimmed? t := by
  have himplementation : implementation? t = (name? .implementation t).map fun x =>
      { kind := .implementation, keyword := .implementation, name := x.1,
        length := t.length - x.2.length } := by
    unfold implementation?
    cases name? .implementation t <;> rfl
  have hprotocol : protocol? t = (name? .protocol t).bind fun x =>
      if isForward x.2 then none
      else some { kind := .protocol, keyword := .protocol, name := x.1,
                  length := t.length - x.2.length } := by
    unfold protocol?
    cases name? .protocol t <;> rfl
  rw [ofMatch?, ofTrimmed?, map_match?_category, map_match?_interface, match?_opening,
    match?_opening, himplementation, hprotocol, Option.map_map, Option.bind_map, Option.or_assoc]
  rfl

/-- A header is read exactly where the grammar has one, and it is the one that the grammar has and
that the patterns give. A line opens a block when it starts with the keyword and the name of a class,
whatever follows, or with those of a protocol that is not only announced. -/
theorem header_grammar (t : Text) :
    (∀ h, ofTrimmed? t = some h ↔ Opens h t) ∧
      ((∃ h, ofTrimmed? t = some h) ↔
        (∃ keyword name r, (keyword = .interface ∨ keyword = .implementation) ∧
          Begins keyword name r t) ∨
        ∃ name r, Begins .protocol name r t ∧ ¬ IsForwardTail r) ∧
      ofTrimmed? t = ofMatch? t :=
  ⟨fun _ => ofTrimmed?_eq_some_iff,
    (exists_congr fun _ => ofTrimmed?_eq_some_iff).trans exists_opens_iff, (ofMatch?_eq t).symm⟩

/-- Brackets that are not followed by a colon, nested ones, and an announced protocol. -/
example :
    let h : Text := "@interface Box<id<A>> : B"
    ofTrimmed? h = some ⟨.interface, .interface, "Box", none, ["id<A"], [], 20⟩ ∧
      ofMatch? h = ofTrimmed? h ∧ ofMatch? "@protocol A\u00a0;" = none := by
  decide +kernel

end ObjcOutline.Header
