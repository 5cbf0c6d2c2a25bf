import ObjcOutline.Proofs.Scanning

/-!
# The patterns of headers

A header is read from left to right, and its length is what is left of the line taken away from the
whole. Here the header patterns are relations between a header and the text it is spelled by, and
nothing in them says how far a reader goes: a name may stop within a word, and every optional part
may be left out. What is read is then the longest start of the line that spells a header of its kind,
which is what a pattern matches when each of its parts takes as much as it can.
-/
namespace ObjcOutline.Header

open Text

/-- A run of blanks, which may be empty. -/
def IsBlanks (t : Text) : Prop := ∀ c ∈ t, isBlank c = true

/-- A keyword after an at sign, blanks, and a name. -/
def IsNamed (keyword : Kind) (name t : Text) : Prop :=
  ∃ blanks, blanks ≠ [] ∧ IsBlanks blanks ∧ IsWord name ∧
    t = '@' :: (keyword.toText ++ (blanks ++ name))

/-- Blanks and a text in brackets that does not hold the closing one. -/
def IsBracketed (opening closing : Char) (inner t : Text) : Prop :=
  ∃ blanks, IsBlanks blanks ∧ closing ∉ inner ∧ t = blanks ++ opening :: (inner ++ [closing])

/-- A colon between blanks, and a name. -/
def IsClause (name t : Text) : Prop :=
  ∃ before after, IsBlanks before ∧ IsBlanks after ∧ IsWord name ∧
    t = before ++ ':' :: (after ++ name)

/-- Nothing, or a colon and a supertype, with type parameters allowed before the colon. -/
inductive IsSuperclause : Option Text → Text → Prop
  | none : IsSuperclause none []
  | plain {name clause : Text} : IsClause name clause → IsSuperclause (some name) clause
  | parameters {inner params name clause : Text} : IsBracketed '<' '>' inner params →
      IsClause name clause → IsSuperclause (some name) (params ++ clause)

/-- Nothing, or a text in angle brackets that is not empty and lists protocols. -/
inductive IsProtocolList : List Text → Text → Prop
  | none : IsProtocolList [] []
  | angled {inner list : Text} : inner ≠ [] → IsBracketed '<' '>' inner list →
      IsProtocolList (listedNames inner) list

/-- The four patterns, with what they capture. -/
inductive Spells : Header → Text → Prop
  | category {keyword : Kind} {name inner named bracketed : Text} :
      keyword = .interface ∨ keyword = .implementation → IsNamed keyword name named →
      IsBracketed '(' ')' inner bracketed →
      Spells { kind := .category, keyword, name, category := trim inner,
               length := (named ++ bracketed).length } (named ++ bracketed)
  | interface {name named superclause list : Text} {supertype : Option Text}
      {protocols : List Text} : IsNamed .interface name named →
      IsSuperclause supertype superclause → IsProtocolList protocols list →
      Spells { kind := .interface, keyword := .interface, name, supertype, protocols,
               length := (named ++ (superclause ++ list)).length } (named ++ (superclause ++ list))
  | bare {keyword : Kind} {name named : Text} : keyword = .implementation ∨ keyword = .protocol →
      IsNamed keyword name named →
      Spells { kind := keyword, keyword, name, length := named.length } named

/-- A text is what the pattern of a header matches at the start of a line. -/
structure IsMatch (line : Text) (h : Header) (header : Text) : Prop where
  start : header <+: line
  spells : Spells h header
  longest : ∀ (other : Header) (longer : Text), longer <+: line → Spells other longer →
    other.kind = h.kind → longer.length ≤ header.length

theorem exists_blanks (t : Text) : ∃ blanks, IsBlanks blanks ∧ t = blanks ++ skipBlanks t :=
  ⟨t.takeWhile isBlank, fun _ hc => List.mem_takeWhile_imp hc,
    List.takeWhile_append_dropWhile.symm⟩

theorem IsNamed.name?_append {keyword : Kind} {name named : Text} (h : IsNamed keyword name named)
    (r : Text) : name? keyword (named ++ r) =
      some (name ++ r.takeWhile isWordChar, r.dropWhile isWordChar) := by
  obtain ⟨blanks, hne, hblanks, hname, rfl⟩ := h
  have hafter : after? ('@' :: keyword.toText)
      ('@' :: (keyword.toText ++ (blanks ++ name)) ++ r) = some (blanks ++ (name ++ r)) := by
    have heq : '@' :: (keyword.toText ++ (blanks ++ name)) ++ r =
        '@' :: keyword.toText ++ (blanks ++ (name ++ r)) := by simp
    rw [heq, after?_append]
  have hskip : skipBlanks? (blanks ++ (name ++ r)) = some (name ++ r) := by
    cases blanks with
    | nil => exact absurd rfl hne
    | cons c blanks =>
      obtain ⟨hc, hrest⟩ := List.forall_mem_cons.mp hblanks
      rw [List.cons_append, skipBlanks?, if_pos hc, skipBlanks_append hrest, skipBlanks_word hname]
  unfold name?
  rw [hafter]
  simp only [hskip]
  exact word?_word_append hname r

theorem exists_isNamed {keyword : Kind} {t name rest : Text}
    (h : name? keyword t = some (name, rest)) :
    ∃ named, IsNamed keyword name named ∧ t = named ++ rest := by
  unfold name? at h
  split at h
  next r hr =>
    split at h
    next r' hr' =>
      obtain ⟨hword, rfl⟩ := word?_eq_some h
      cases r with
      | nil => cases hr'
      | cons c r =>
        rw [skipBlanks?] at hr'
        split_ifs at hr' with hc
        obtain ⟨blanks, hblanks, heq⟩ := exists_blanks r
        rw [Option.some.inj hr'] at heq
        refine ⟨_, ⟨c :: blanks, List.cons_ne_nil c blanks,
          List.forall_mem_cons.mpr ⟨hc, hblanks⟩, hword, rfl⟩, ?_⟩
        rw [after?_eq_some hr, heq]
        simp
    · cases h
  · cases h

/-- Blanks do not continue a word. -/
theorem IsBlanks.startsOutside {blanks t : Text} (h : IsBlanks blanks)
    (ht : StartsOutside isWordChar t) : StartsOutside isWordChar (blanks ++ t) := by
  cases blanks with
  | nil => exact ht
  | cons c blanks =>
    refine startsOutside_cons.mpr (Bool.eq_false_iff.mpr fun hword => ?_)
    have hblank := isBlank_eq_false_of_isWordChar hword
    rw [h c List.mem_cons_self] at hblank
    cases hblank

theorem IsBracketed.startsOutside {opening closing : Char} {inner t : Text}
    (h : IsBracketed opening closing inner t) (hopening : isWordChar opening = false) (r : Text) :
    StartsOutside isWordChar (t ++ r) := by
  obtain ⟨blanks, hblanks, -, rfl⟩ := h
  rw [List.append_assoc]
  exact hblanks.startsOutside (startsOutside_cons.mpr hopening)

theorem IsBracketed.parenthesised?_append {inner t : Text} (h : IsBracketed '(' ')' inner t)
    (r : Text) : parenthesised? (t ++ r) = some (inner, r) := by
  obtain ⟨blanks, hblanks, hinner, rfl⟩ := h
  unfold parenthesised?
  rw [List.append_assoc, skipBlanks_append hblanks, List.cons_append, skipBlanks_cons rfl,
    List.append_assoc]
  exact cut?_beq_append hinner r

theorem IsBracketed.angled?_append {inner t : Text} (h : IsBracketed '<' '>' inner t)
    (r : Text) : angled? (t ++ r) = some (inner, r) := by
  obtain ⟨blanks, hblanks, hinner, rfl⟩ := h
  unfold angled?
  rw [List.append_assoc, skipBlanks_append hblanks, List.cons_append, skipBlanks_cons rfl,
    List.append_assoc]
  exact cut?_beq_append hinner r

theorem exists_isBracketed {opening closing : Char} {t u inner r : Text}
    (hskip : skipBlanks t = opening :: u) (hcut : cut? (· == closing) u = some (inner, r)) :
    ∃ bracketed, IsBracketed opening closing inner bracketed ∧ t = bracketed ++ r := by
  obtain ⟨blanks, hblanks, ht⟩ := exists_blanks t
  obtain ⟨hinner, rfl⟩ := cut?_beq_eq_some hcut
  exact ⟨_, ⟨blanks, hblanks, hinner, rfl⟩, by rw [ht, hskip]; simp⟩

theorem exists_isBracketed_of_parenthesised? {t inner r : Text}
    (h : parenthesised? t = some (inner, r)) :
    ∃ bracketed, IsBracketed '(' ')' inner bracketed ∧ t = bracketed ++ r := by
  unfold parenthesised? at h
  split at h
  next u hu => exact exists_isBracketed hu h
  · cases h

theorem exists_isBracketed_of_angled? {t inner r : Text} (h : angled? t = some (inner, r)) :
    ∃ bracketed, IsBracketed '<' '>' inner bracketed ∧ t = bracketed ++ r := by
  unfold angled? at h
  split at h
  next u hu => exact exists_isBracketed hu h
  · cases h

/-- The name after a colon, and what follows it. -/
def clause? (t : Text) : Option (Text × Text) :=
  match skipBlanks t with
  | ':' :: r => word? (skipBlanks r)
  | _ => none

theorem supertype?_eq_clause? (t : Text) :
    supertype? t = clause? ((angled? t).elim t (·.2)) := by
  unfold supertype? clause?
  cases angled? t <;> rfl

section Clause
variable {name t : Text} (h : IsClause name t) (r : Text)
include h

theorem IsClause.startsOutside : StartsOutside isWordChar (t ++ r) := by
  obtain ⟨before, after, hbefore, -, -, rfl⟩ := h
  rw [List.append_assoc]
  exact hbefore.startsOutside (startsOutside_cons.mpr (by decide))

theorem IsClause.angled?_append : angled? (t ++ r) = none := by
  obtain ⟨before, after, hbefore, -, -, rfl⟩ := h
  unfold angled?
  rw [List.append_assoc, skipBlanks_append hbefore, List.cons_append, skipBlanks_cons rfl]
  rfl

theorem IsClause.clause?_append :
    clause? (t ++ r) = some (name ++ r.takeWhile isWordChar, r.dropWhile isWordChar) := by
  obtain ⟨before, after, hbefore, hafter, hname, rfl⟩ := h
  unfold clause?
  rw [List.append_assoc, skipBlanks_append hbefore, List.cons_append, skipBlanks_cons rfl]
  simp only
  rw [List.append_assoc, skipBlanks_append hafter, skipBlanks_word hname]
  exact word?_word_append hname r

end Clause

theorem exists_isClause {t name r : Text} (h : clause? t = some (name, r)) :
    ∃ clause, IsClause name clause ∧ t = clause ++ r := by
  unfold clause? at h
  split at h
  next u hu =>
    obtain ⟨before, hbefore, ht⟩ := exists_blanks t
    obtain ⟨after, hafter, hu'⟩ := exists_blanks u
    obtain ⟨hname, hword⟩ := word?_eq_some h
    exact ⟨_, ⟨before, after, hbefore, hafter, hname, rfl⟩, by rw [ht, hu, hu', hword]; simp⟩
  · cases h

/-- A supertype that starts with type parameters or with a colon is read to the end of its name. -/
theorem IsSuperclause.supertype?_append {name superclause : Text}
    (h : IsSuperclause (some name) superclause) (r : Text) :
    supertype? (superclause ++ r) =
      some (name ++ r.takeWhile isWordChar, r.dropWhile isWordChar) := by
  rw [supertype?_eq_clause?]
  cases h with
  | plain hclause =>
    rw [hclause.angled?_append, Option.elim_none, hclause.clause?_append]
  | parameters hparams hclause =>
    rw [List.append_assoc, hparams.angled?_append, Option.elim_some, hclause.clause?_append]

theorem IsSuperclause.startsOutside {name superclause : Text}
    (h : IsSuperclause (some name) superclause) (r : Text) :
    StartsOutside isWordChar (superclause ++ r) := by
  cases h with
  | plain hclause => exact hclause.startsOutside r
  | parameters hparams _ =>
    rw [List.append_assoc]
    exact hparams.startsOutside (by decide) _

theorem exists_isSuperclause (t : Text) :
    ∃ superclause, IsSuperclause ((supertype? t).map (·.1)) superclause ∧
      t = superclause ++ (supertype? t).elim t (·.2) := by
  cases h : supertype? t with
  | none => exact ⟨[], .none, rfl⟩
  | some x =>
    obtain ⟨name, r⟩ := x
    rw [supertype?_eq_clause?] at h
    cases hangled : angled? t with
    | none =>
      rw [hangled] at h
      obtain ⟨clause, hclause, ht⟩ := exists_isClause h
      exact ⟨clause, .plain hclause, ht⟩
    | some y =>
      obtain ⟨inner, u⟩ := y
      rw [hangled] at h
      obtain ⟨params, hparams, ht⟩ := exists_isBracketed_of_angled? hangled
      obtain ⟨clause, hclause, hu⟩ := exists_isClause h
      simp only [Option.elim_some] at hu
      exact ⟨params ++ clause, .parameters hparams hclause, by rw [ht, hu]; simp⟩

theorem IsBracketed.protocolsOf_append {inner t : Text} (h : IsBracketed '<' '>' inner t)
    (hne : inner ≠ []) (r : Text) : protocolsOf (t ++ r) = (listedNames inner, r) := by
  unfold protocolsOf
  rw [h.angled?_append]
  cases inner with
  | nil => exact absurd rfl hne
  | cons c inner => rfl

theorem exists_isProtocolList (t : Text) :
    ∃ list, IsProtocolList (protocolsOf t).1 list ∧ t = list ++ (protocolsOf t).2 := by
  unfold protocolsOf
  split
  next c inner r hangled =>
    obtain ⟨list, hlist, ht⟩ := exists_isBracketed_of_angled? hangled
    exact ⟨list, .angled (List.cons_ne_nil c inner) hlist, ht⟩
  · exact ⟨[], .none, rfl⟩

theorem protocolsOf_suffix (t : Text) : (protocolsOf t).2 <:+ t := by
  obtain ⟨list, -, ht⟩ := exists_isProtocolList t
  exact ⟨list, ht.symm⟩

/-- What is left after the name, the supertype and the protocol list of an interface. -/
def interfaceRest (t : Text) : Text := (protocolsOf ((supertype? t).elim t (·.2))).2

theorem interface?_eq_some {t : Text} {h : Header} (heq : interface? t = some h) :
    ∃ name r, name? .interface t = some (name, r) ∧
      h = { kind := .interface, keyword := .interface, name, supertype := (supertype? r).map (·.1),
            protocols := (protocolsOf ((supertype? r).elim r (·.2))).1,
            length := t.length - (interfaceRest r).length } := by
  unfold interface? at heq
  split at heq
  next name r hname =>
    refine ⟨name, r, hname, ?_⟩
    unfold interfaceRest
    cases hsuper : supertype? r with
    | none =>
      simp only [hsuper, Option.some.injEq] at heq
      exact heq.symm
    | some x =>
      simp only [hsuper, Option.some.injEq] at heq
      exact heq.symm
  · cases heq

theorem interfaceRest_suffix (t : Text) : interfaceRest t <:+ t := by
  obtain ⟨superclause, -, ht⟩ := exists_isSuperclause t
  exact (protocolsOf_suffix _).trans ⟨superclause, ht.symm⟩

/-- No supertype and no protocol list after a name reach further than what is read. -/
theorem length_interfaceRest_le {supertype : Option Text} {superclause list : Text}
    {protocols : List Text} (hsuper : IsSuperclause supertype superclause)
    (hlist : IsProtocolList protocols list) (r : Text) :
    (interfaceRest ((superclause ++ (list ++ r)).dropWhile isWordChar)).length ≤ r.length := by
  cases supertype with
  | none =>
    cases hsuper
    rw [List.nil_append]
    cases hlist with
    | none =>
      exact ((interfaceRest_suffix _).trans (List.dropWhile_suffix isWordChar)).length_le
    | @angled inner _ hne hangled =>
      rw [dropWhile_of_startsOutside (hangled.startsOutside (by decide) r)]
      unfold interfaceRest
      cases hread : supertype? (list ++ r) with
      | none => rw [Option.elim_none, hangled.protocolsOf_append hne]
      | some x =>
        rw [supertype?_eq_clause?, hangled.angled?_append, Option.elim_some] at hread
        obtain ⟨clause, -, hr⟩ := exists_isClause hread
        rw [Option.elim_some]
        exact ((protocolsOf_suffix x.2).trans ⟨clause, hr.symm⟩).length_le
  | some name =>
    rw [dropWhile_of_startsOutside (hsuper.startsOutside _)]
    unfold interfaceRest
    rw [hsuper.supertype?_append, Option.elim_some]
    cases hlist with
    | none =>
      exact ((protocolsOf_suffix _).trans (List.dropWhile_suffix isWordChar)).length_le
    | @angled inner _ hne hangled =>
      rw [dropWhile_of_startsOutside (hangled.startsOutside (by decide) r),
        hangled.protocolsOf_append hne]

theorem length_append_sub (header rest : Text) :
    (header ++ rest).length - rest.length = header.length := by
  rw [List.length_append, Nat.add_sub_cancel]

theorem exists_spells_of_categoryOf? {keyword : Kind}
    (hkeyword : keyword = .interface ∨ keyword = .implementation) {t : Text} {h : Header}
    (heq : categoryOf? keyword t = some h) :
    ∃ header rest, Spells h header ∧ t = header ++ rest := by
  unfold categoryOf? at heq
  split at heq
  next name r hname =>
    split at heq
    next inner rest hparen =>
      obtain ⟨named, hnamed, rfl⟩ := exists_isNamed hname
      obtain ⟨bracketed, hbracketed, rfl⟩ := exists_isBracketed_of_parenthesised? hparen
      rw [← List.append_assoc, length_append_sub] at heq
      cases heq
      exact ⟨_, rest, .category hkeyword hnamed hbracketed, (List.append_assoc ..).symm⟩
    · cases heq
  · cases heq

theorem exists_spells_of_interface? {t : Text} {h : Header} (heq : interface? t = some h) :
    ∃ header rest, Spells h header ∧ t = header ++ rest := by
  obtain ⟨name, r, hname, rfl⟩ := interface?_eq_some heq
  obtain ⟨named, hnamed, rfl⟩ := exists_isNamed hname
  obtain ⟨superclause, hsuper, hr⟩ := exists_isSuperclause r
  obtain ⟨list, hlist, hrest⟩ := exists_isProtocolList ((supertype? r).elim r (·.2))
  have ht : named ++ r = (named ++ (superclause ++ list)) ++ interfaceRest r := by
    rw [interfaceRest, List.append_assoc, List.append_assoc, ← hrest, ← hr]
  rw [ht, length_append_sub]
  exact ⟨_, interfaceRest r, .interface hnamed hsuper hlist, rfl⟩

theorem exists_spells_of_name? {keyword : Kind}
    (hkeyword : keyword = .implementation ∨ keyword = .protocol) {t name rest : Text}
    (hname : name? keyword t = some (name, rest)) :
    ∃ header rest', Spells { kind := keyword, keyword, name, length := t.length - rest.length }
      header ∧ t = header ++ rest' := by
  obtain ⟨named, hnamed, rfl⟩ := exists_isNamed hname
  rw [length_append_sub]
  exact ⟨named, rest, .bare hkeyword hnamed, rfl⟩

theorem implementation?_eq_some {t : Text} {h : Header} (heq : implementation? t = some h) :
    ∃ name rest, name? .implementation t = some (name, rest) ∧
      h = { kind := .implementation, keyword := .implementation, name,
            length := t.length - rest.length } := by
  unfold implementation? at heq
  split at heq
  next name rest hname => exact ⟨name, rest, hname, (Option.some.inj heq).symm⟩
  · cases heq

theorem protocol?_eq_some {t : Text} {h : Header} (heq : protocol? t = some h) :
    ∃ name rest, name? .protocol t = some (name, rest) ∧
      h = { kind := .protocol, keyword := .protocol, name, length := t.length - rest.length } := by
  unfold protocol? at heq
  split at heq
  next name rest hname =>
    split_ifs at heq
    exact ⟨name, rest, hname, (Option.some.inj heq).symm⟩
  · cases heq

/-- A header that was read is spelled by the start of the line. -/
theorem exists_spells {t : Text} {h : Header} (heq : ofTrimmed? t = some h) :
    ∃ header rest, Spells h header ∧ t = header ++ rest := by
  unfold ofTrimmed? at heq
  rcases Option.or_eq_some_iff.mp heq with heq | ⟨-, heq⟩
  · exact exists_spells_of_categoryOf? (.inl rfl) heq
  rcases Option.or_eq_some_iff.mp heq with heq | ⟨-, heq⟩
  · exact exists_spells_of_categoryOf? (.inr rfl) heq
  rcases Option.or_eq_some_iff.mp heq with heq | ⟨-, heq⟩
  · exact exists_spells_of_interface? heq
  rcases Option.or_eq_some_iff.mp heq with heq | ⟨-, heq⟩
  · obtain ⟨name, rest, hname, rfl⟩ := implementation?_eq_some heq
    exact exists_spells_of_name? (.inl rfl) hname
  · obtain ⟨name, rest, hname, rfl⟩ := protocol?_eq_some heq
    exact exists_spells_of_name? (.inr rfl) hname

theorem Spells.length_eq {h : Header} {header : Text} (hspells : Spells h header) :
    h.length = header.length := by
  cases hspells <;> rfl

theorem IsNamed.exists_append {keyword : Kind} {name named : Text} (h : IsNamed keyword name named)
    (r : Text) : ∃ t, named ++ r = '@' :: t := by
  obtain ⟨blanks, -, -, -, rfl⟩ := h
  exact ⟨_, rfl⟩

/-- Every header starts with an at sign. -/
theorem Spells.exists_cons {h : Header} {header : Text} (hspells : Spells h header) :
    ∃ t, header = '@' :: t := by
  cases hspells with
  | category _ hnamed _ => exact hnamed.exists_append _
  | interface hnamed _ _ => exact hnamed.exists_append _
  | bare _ hnamed => simpa using hnamed.exists_append []

/-- The two keywords of the category pattern do not start the same line. -/
theorem IsNamed.keyword_eq {keyword read : Kind} {name named r : Text} {x : Text × Text}
    (hnamed : IsNamed keyword name named) (hname : name? read (named ++ r) = some x)
    (hkeyword : keyword = .interface ∨ keyword = .implementation)
    (hread : read = .interface ∨ read = .implementation) : keyword = read := by
  obtain ⟨blanks, -, -, -, rfl⟩ := hnamed
  rcases hkeyword with rfl | rfl <;> rcases hread with rfl | rfl
  · rfl
  · cases hname
  · cases hname
  · rfl

theorem length_le_of_categoryOf? {keyword : Kind}
    (hkeyword : keyword = .interface ∨ keyword = .implementation) {t longer r : Text}
    {h other : Header} (heq : categoryOf? keyword t = some h) (hspells : Spells other longer)
    (hkind : other.kind = h.kind) (ht : t = longer ++ r) : longer.length ≤ h.length := by
  unfold categoryOf? at heq
  split at heq
  next name r' hname =>
    split at heq
    next inner rest hparen =>
      cases heq
      cases hspells with
      | @category keyword' name' inner' named bracketed hkeyword' hnamed hbracketed =>
        rw [ht, List.append_assoc] at hname
        obtain rfl := hnamed.keyword_eq hname hkeyword' hkeyword
        rw [hnamed.name?_append, dropWhile_of_startsOutside
          (hbracketed.startsOutside (by decide) r)] at hname
        cases hname
        rw [hbracketed.parenthesised?_append] at hparen
        cases hparen
        rw [ht, length_append_sub]
      | interface => cases hkind
      | bare hbare => rcases hbare with rfl | rfl <;> cases hkind
    · cases heq
  · cases heq

theorem length_le_of_interface? {t longer r : Text} {h other : Header}
    (heq : interface? t = some h) (hspells : Spells other longer) (hkind : other.kind = h.kind)
    (ht : t = longer ++ r) : longer.length ≤ h.length := by
  obtain ⟨name, r', hname, rfl⟩ := interface?_eq_some heq
  cases hspells with
  | category => cases hkind
  | @interface name' named superclause list supertype protocols hnamed hsuper hlist =>
    have hrest := length_interfaceRest_le hsuper hlist r
    rw [ht, List.append_assoc, List.append_assoc, hnamed.name?_append] at hname
    cases hname
    simp only [ht, List.length_append]
    omega
  | bare hbare => rcases hbare with rfl | rfl <;> cases hkind

theorem length_le_of_name? {keyword : Kind} {t longer r name rest : Text} {other : Header}
    (hkeyword : keyword = .implementation ∨ keyword = .protocol)
    (hname : name? keyword t = some (name, rest)) (hspells : Spells other longer)
    (hkind : other.kind = keyword) (ht : t = longer ++ r) :
    longer.length ≤ t.length - rest.length := by
  cases hspells with
  | category => rcases hkeyword with rfl | rfl <;> cases hkind
  | interface => rcases hkeyword with rfl | rfl <;> cases hkind
  | @bare keyword' name' named _ hnamed =>
    cases hkind
    have hrest := (List.dropWhile_suffix isWordChar (l := r)).length_le
    rw [ht, hnamed.name?_append] at hname
    cases hname
    rw [ht, List.length_append]
    omega

/-- A header that was read is what its pattern matches. -/
theorem exists_isMatch {t : Text} {h : Header} (heq : ofTrimmed? t = some h) :
    ∃ header rest, IsMatch t h header ∧ t = header ++ rest ∧ h.length = header.length := by
  obtain ⟨header, rest, hspells, ht⟩ := exists_spells heq
  refine ⟨header, rest, ⟨⟨rest, ht.symm⟩, hspells, ?_⟩, ht, hspells.length_eq⟩
  rintro other longer ⟨r, hr⟩ hother hkind
  rw [← hspells.length_eq]
  unfold ofTrimmed? at heq
  rcases Option.or_eq_some_iff.mp heq with heq | ⟨-, heq⟩
  · exact length_le_of_categoryOf? (.inl rfl) heq hother hkind hr.symm
  rcases Option.or_eq_some_iff.mp heq with heq | ⟨-, heq⟩
  · exact length_le_of_categoryOf? (.inr rfl) heq hother hkind hr.symm
  rcases Option.or_eq_some_iff.mp heq with heq | ⟨-, heq⟩
  · exact length_le_of_interface? heq hother hkind hr.symm
  rcases Option.or_eq_some_iff.mp heq with heq | ⟨-, heq⟩
  · obtain ⟨name, rest', hname, rfl⟩ := implementation?_eq_some heq
    exact length_le_of_name? (.inl rfl) hname hother hkind hr.symm
  · obtain ⟨name, rest', hname, rfl⟩ := protocol?_eq_some heq
    exact length_le_of_name? (.inr rfl) hname hother hkind hr.symm

end ObjcOutline.Header
