import ObjcOutline.Proofs.Patterns
import ObjcOutline.Proofs.HeaderPatterns
import ObjcOutline.Proofs.Loosening

/-!
# Method and property lines

A method line and a property line are cut here at the first place where each of their parts can end:
a return type at the first closing parenthesis, a signature at the first opening brace or semicolon, a
declaration at the first semicolon. An attribute list is given up when no declaration follows it
before a semicolon, and then it belongs to the declaration. Matching the patterns of the two lines by
backtracking gives the same: blanks may be taken by one part or by its neighbour, but they are trimmed
away in the end, and no other choice is left.
-/
namespace ObjcOutline

open Text
open Header (IsBlanks IsBracketed exists_blanks)

/-- A text that is not empty, up to the first of the characters that end it. -/
def EndsAt (ends : List Char) (before t : Text) : Prop :=
  before ≠ [] ∧ (∀ c ∈ before, c ∉ ends) ∧ ∃ c ∈ ends, ∃ rest, t = before ++ c :: rest

/-- Blanks, a sign, a return type in parentheses up to the first closing one, and a signature up to
the first opening brace or semicolon. -/
def IsMethodLine (sign : Char) (type signature line : Text) : Prop :=
  ∃ indent bracketed rest, IsBlanks indent ∧ (sign = '+' ∨ sign = '-') ∧ type ≠ [] ∧
    IsBracketed '(' ')' type bracketed ∧ EndsAt ['{', ';'] signature rest ∧
    line = indent ++ sign :: (bracketed ++ rest)

/-- Attributes in parentheses, and a declaration up to the first semicolon after them. -/
def DeclaresWith (attributes declaration t : Text) : Prop :=
  ∃ bracketed rest, IsBracketed '(' ')' attributes bracketed ∧ EndsAt [';'] declaration rest ∧
    t = bracketed ++ rest

/-- The attributes and the declaration in what follows the word that a property starts with. -/
inductive IsPropertyTail : (attributes declaration t : Text) → Prop
  | listed {attributes declaration t : Text} : DeclaresWith attributes declaration t →
      IsPropertyTail ('(' :: attributes ++ [')']) declaration t
  | plain {declaration t : Text} : (∀ attributes declaration, ¬ DeclaresWith attributes declaration t) →
      EndsAt [';'] declaration t → IsPropertyTail [] declaration t

/-- Blanks, the word that a property starts with, and the rest. -/
def IsPropertyLine (attributes declaration line : Text) : Prop :=
  ∃ indent t, IsBlanks indent ∧ IsPropertyTail attributes declaration t ∧
    line = indent ++ (Property.keyword ++ t)

theorem nonemptyBefore?_eq_some_iff {p : Char → Bool} {ends : List Char}
    (hp : ∀ c, p c = true ↔ c ∈ ends) {t before : Text} :
    nonemptyBefore? p t = some before ↔ EndsAt ends before t := by
  constructor
  · intro h
    unfold nonemptyBefore? at h
    split at h
    next c b rest hcut =>
      cases h
      obtain ⟨hall, d, hd, rfl⟩ := cut?_eq_some hcut
      refine ⟨List.cons_ne_nil c b, fun x hx hends => ?_, d, (hp d).mp hd, rest, rfl⟩
      rw [← hp, hall x hx] at hends
      cases hends
    · cases h
  · rintro ⟨hne, hall, c, hc, rest, rfl⟩
    exact nonemptyBefore?_append hne
      (fun x hx => Bool.eq_false_iff.mpr fun hx' => hall x hx ((hp x).mp hx')) ((hp c).mpr hc) rest

theorem endsSignature_iff (c : Char) : endsSignature c = true ↔ c ∈ ['{', ';'] := by
  simp [endsSignature]

theorem beq_semicolon_iff (c : Char) : (c == ';') = true ↔ c ∈ [';'] := by simp

theorem skipBlanks_indent {indent : Text} (h : IsBlanks indent) {c : Char} (hc : isBlank c = false)
    (t : Text) : skipBlanks (indent ++ c :: t) = c :: t := by
  rw [skipBlanks_append h, skipBlanks_cons hc]

theorem Method.ofLine?_eq_some_iff {number : Int} {line : Text} {m : Method} :
    ofLine? number line = some m ↔ ∃ sign type signature, IsMethodLine sign type signature line ∧
      m = ⟨[sign], trim type, trim signature, number⟩ := by
  constructor
  · intro h
    unfold ofLine? at h
    split at h
    next sign r hskip =>
      split_ifs at h with hsign
      split at h
      next c type rest hparen =>
        obtain ⟨signature, hsignature, rfl⟩ := Option.map_eq_some_iff.mp h
        obtain ⟨indent, hindent, hline⟩ := exists_blanks line
        obtain ⟨bracketed, hbracketed, rfl⟩ := Header.exists_isBracketed_of_parenthesised? hparen
        exact ⟨sign, c :: type, signature, ⟨indent, bracketed, rest, hindent, by simpa using hsign,
          List.cons_ne_nil c type, hbracketed,
          (nonemptyBefore?_eq_some_iff endsSignature_iff).mp hsignature, hskip ▸ hline⟩, rfl⟩
      · cases h
    · cases h
  · rintro ⟨sign, type, signature, ⟨indent, bracketed, rest, hindent, hsign, hne, hbracketed, hends,
      rfl⟩, rfl⟩
    have hblank : isBlank sign = false := by rcases hsign with rfl | rfl <;> decide
    have hsignature := (nonemptyBefore?_eq_some_iff endsSignature_iff).mpr hends
    rw [ofLine?, skipBlanks_indent hindent hblank]
    simp only [beq_iff_eq, Bool.or_eq_true, if_pos hsign, hbracketed.parenthesised?_append]
    cases type with
    | nil => exact absurd rfl hne
    | cons c type => simp only [hsignature, Option.map_some]

theorem Property.withAttributes?_eq_some_iff {number : Int} {t : Text} {p : Property} :
    withAttributes? number t = some p ↔ ∃ attributes declaration,
      DeclaresWith attributes declaration t ∧
      p = ⟨'(' :: attributes ++ [')'], trim declaration, number⟩ := by
  unfold withAttributes?
  constructor
  · intro h
    split at h
    next attributes rest hparen =>
      obtain ⟨declaration, hdeclaration, rfl⟩ := Option.map_eq_some_iff.mp h
      obtain ⟨bracketed, hbracketed, rfl⟩ := Header.exists_isBracketed_of_parenthesised? hparen
      exact ⟨attributes, declaration, ⟨bracketed, rest, hbracketed,
        (nonemptyBefore?_eq_some_iff beq_semicolon_iff).mp hdeclaration, rfl⟩, rfl⟩
    · cases h
  · rintro ⟨attributes, declaration, ⟨bracketed, rest, hbracketed, hends, rfl⟩, rfl⟩
    have hdeclaration := (nonemptyBefore?_eq_some_iff beq_semicolon_iff).mpr hends
    simp only [hbracketed.parenthesised?_append, hdeclaration, Option.map_some]

theorem Property.withoutAttributes?_eq_some_iff {number : Int} {t : Text} {p : Property} :
    withoutAttributes? number t = some p ↔
      ∃ declaration, EndsAt [';'] declaration t ∧ p = ⟨[], trim declaration, number⟩ := by
  rw [withoutAttributes?, Option.map_eq_some_iff]
  exact exists_congr fun _ => and_congr (nonemptyBefore?_eq_some_iff beq_semicolon_iff) eq_comm

/-- What is read of a property after its first word. -/
def Property.tail? (number : Int) (t : Text) : Option Property :=
  (withAttributes? number t).or (withoutAttributes? number t)

theorem Property.tail?_eq_some_iff {number : Int} {t : Text} {p : Property} :
    tail? number t = some p ↔ ∃ attributes declaration, IsPropertyTail attributes declaration t ∧
      p = ⟨attributes, trim declaration, number⟩ := by
  rw [tail?, Option.or_eq_some_iff]
  constructor
  · rintro (h | ⟨hnone, h⟩)
    · obtain ⟨attributes, declaration, hwith, rfl⟩ := withAttributes?_eq_some_iff.mp h
      exact ⟨_, declaration, .listed hwith, rfl⟩
    · obtain ⟨declaration, hends, rfl⟩ := withoutAttributes?_eq_some_iff.mp h
      refine ⟨[], declaration, .plain (fun attributes other hwith => ?_) hends, rfl⟩
      rw [withAttributes?_eq_some_iff.mpr ⟨attributes, other, hwith, rfl⟩] at hnone
      cases hnone
  · rintro ⟨_, declaration, htail, rfl⟩
    cases htail with
    | listed hwith => exact .inl (withAttributes?_eq_some_iff.mpr ⟨_, _, hwith, rfl⟩)
    | plain hnot hends =>
      refine .inr ⟨Option.eq_none_iff_forall_ne_some.mpr fun q hq => ?_,
        withoutAttributes?_eq_some_iff.mpr ⟨_, hends, rfl⟩⟩
      obtain ⟨attributes, other, hwith, -⟩ := withAttributes?_eq_some_iff.mp hq
      exact hnot attributes other hwith

theorem Property.ofLine?_eq_bind (number : Int) (line : Text) :
    ofLine? number line = (after? keyword (skipBlanks line)).bind (tail? number) := by
  unfold ofLine?
  cases after? keyword (skipBlanks line) <;> rfl

theorem Property.ofLine?_eq_some_iff {number : Int} {line : Text} {p : Property} :
    ofLine? number line = some p ↔ ∃ attributes declaration,
      IsPropertyLine attributes declaration line ∧ p = ⟨attributes, trim declaration, number⟩ := by
  rw [ofLine?_eq_bind, Option.bind_eq_some_iff]
  constructor
  · rintro ⟨t, ht, htail⟩
    obtain ⟨indent, hindent, hline⟩ := exists_blanks line
    obtain ⟨attributes, declaration, hread, rfl⟩ := tail?_eq_some_iff.mp htail
    exact ⟨attributes, declaration, ⟨indent, t, hindent, hread, after?_eq_some ht ▸ hline⟩, rfl⟩
  · rintro ⟨attributes, declaration, ⟨indent, t, hindent, hread, rfl⟩, rfl⟩
    refine ⟨t, ?_, tail?_eq_some_iff.mpr ⟨attributes, declaration, hread, rfl⟩⟩
    have hskip : skipBlanks (indent ++ (keyword ++ t)) = keyword ++ t :=
      skipBlanks_indent hindent (by decide) _
    rw [hskip, after?_append]

theorem SourceLine.trimmed_indent {l : SourceLine} {indent t : Text} {c : Char}
    (htext : l.text = indent ++ c :: t) (hindent : IsBlanks indent) (hc : isSpace c = false) :
    l.trimmed = c :: trimEnd t := by
  rw [trimmed, htext, trim_append_of_isSpace fun d hd => isSpace_of_isBlank (hindent d hd),
    trim_cons hc]

/-- A line that reads as a method is one: it starts with a sign, so nothing that is tried before
methods takes it. -/
theorem Mark.ofLine?_eq_method_iff {l : SourceLine} {m : Method} :
    ofLine? l = some (.method m) ↔ Method.ofLine? l.number l.text = some m := by
  constructor
  · intro h
    unfold ofLine? at h
    split_ifs at h
    · cases h
    · simpa [Option.or_eq_some_iff] using h
  · intro h
    obtain ⟨sign, type, signature, ⟨indent, bracketed, rest, hindent, hsign, -, -, -, htext⟩, -⟩ :=
      Method.ofLine?_eq_some_iff.mp h
    have hspace : isSpace sign = false := by rcases hsign with rfl | rfl <;> decide
    have htrim := SourceLine.trimmed_indent htext hindent hspace
    have hpassed : isPassedOver l.trimmed = false := by
      rw [htrim]
      rcases hsign with rfl | rfl <;> rfl
    have hend : l.trimmed ≠ ['@', 'e', 'n', 'd'] := by
      rw [htrim]
      rcases hsign with rfl | rfl <;> simp
    rw [ofLine?, hpassed, if_neg (by simp), if_neg hend, h, Option.map_some, Option.some_or]

/-- A line that reads as a property is one: it starts with a word that is neither a sign nor the
closing word. -/
theorem Mark.ofLine?_eq_property_iff {l : SourceLine} {p : Property} :
    ofLine? l = some (.property p) ↔ Property.ofLine? l.number l.text = some p := by
  constructor
  · intro h
    unfold ofLine? at h
    split_ifs at h
    · cases h
    · exact (by simpa [Option.or_eq_some_iff] using h : _ ∧ _).2
  · intro h
    obtain ⟨attributes, declaration, ⟨indent, t, hindent, -, htext⟩, -⟩ :=
      Property.ofLine?_eq_some_iff.mp h
    have htrim := SourceLine.trimmed_indent htext hindent (by decide)
    rw [List.append_eq, List.cons_append, trimEnd_cons (by decide)] at htrim
    have hpassed : isPassedOver l.trimmed = false := by
      rw [htrim]
      rfl
    have hend : l.trimmed ≠ ['@', 'e', 'n', 'd'] := by
      rw [htrim]
      simp
    have hmethod : Method.ofLine? l.number l.text = none := by
      have hskip : skipBlanks l.text = Property.keyword ++ t := by
        rw [htext]
        exact skipBlanks_indent hindent (by decide) _
      rw [Method.ofLine?, hskip]
      rfl
    rw [ofLine?, hpassed, if_neg (by simp), if_neg hend, hmethod, h, Option.map_none, Option.none_or,
      Option.map_some, Option.some_or]

open Pattern

/-- A captured signature and the brace or the semicolon that ends it. -/
def Method.signaturePattern : Pattern :=
  seq blanks (seq (group (shortRun fun c => c != '{' && c != ';'))
    (alt (seq blanks (literal ['{'])) (seq blanks (literal [';']))))

def Method.pattern : Pattern :=
  seq blanks (seq (group (one fun c => c == '+' || c == '-')) (seq blanks (seq (literal ['('])
    (seq (group (run (· != ')'))) (seq (literal [')']) signaturePattern)))))

/-- The method that is read off a match. -/
def Method.ofMatch (number : Int) (m : Match) : Method :=
  ⟨m.group 0, trim (m.group 1), trim (m.group 2), number⟩

/-- Parentheses, captured with what they hold. -/
def Property.attributesPattern : Pattern :=
  group (seq (literal ['(']) (seq (many (· != ')')) (literal [')'])))

def Property.declarationPattern : Pattern :=
  seq blanks (seq (group (run (· != ';'))) (literal [';']))

def Property.tailPattern : Pattern := seq blanks (seq (opt attributesPattern) declarationPattern)

def Property.pattern : Pattern := seq blanks (seq (literal keyword) tailPattern)

/-- The property that is read off a match. -/
def Property.ofMatch (number : Int) (m : Match) : Property :=
  ⟨m.group 0, trim (m.group 1), number⟩

theorem trim_between {gap after : Text} (hgap : IsBlanks gap) (hafter : IsBlanks after) (t : Text) :
    trim (gap ++ (t ++ after)) = trim t := by
  rw [trim_append_of_isSpace fun c hc => isSpace_of_isBlank (hgap c hc),
    trim_append_trailing fun c hc => isSpace_of_isBlank (hafter c hc)]

/-- What may follow a captured text: one of the characters that end it, none of them a blank, and
blanks before it. -/
structure Closes (ends : List Char) (closing : Pattern) : Prop where
  isBlank_eq_false : ∀ c ∈ ends, isBlank c = false
  of_mem : ∀ t m, m ∈ closing.ways t → ∃ after c rest, IsBlanks after ∧ c ∈ ends ∧
    t = after ++ c :: rest
  exists_mem : ∀ c rest, c ∈ ends → ∃ m, m ∈ closing.ways (c :: rest)

section Ending
variable {ends : List Char} {p : Char → Bool} {body closing : Pattern}
  (hp : ∀ c, p c = true ↔ c ∉ ends)
  (hbody : ∀ t m, m ∈ (group body).ways t ↔ m ∈ (group (run p)).ways t)
  (hcloses : Closes ends closing)
include hp hbody hcloses

/-- However the blanks are shared out, what is captured is the text up to its end, but for blanks
around it. -/
theorem endsAt_of_mem_ways {t : Text} {m : Match}
    (hm : m ∈ (seq blanks (seq (group body) closing)).ways t) :
    ∃ before, EndsAt ends before t ∧ trim before = trim (m.group 0) := by
  obtain ⟨gap, r, hgap, rfl, hcaptured⟩ := mem_ways_many_seq.mp hm
  obtain ⟨x, hx, y, hy, rfl⟩ := mem_ways_seq.mp hcaptured
  obtain ⟨u, r, hne, hu, rfl, rfl⟩ := mem_ways_group_run.mp ((hbody _ _).mp hx)
  obtain ⟨after, c, rest, hafter, hc, rfl⟩ := hcloses.of_mem _ _ hy
  have hout {s : Text} (hs : IsBlanks s) : ∀ d ∈ s, d ∉ ends := fun d hd hends => by
    have hfalse := hcloses.isBlank_eq_false d hends
    rw [hs d hd] at hfalse
    cases hfalse
  refine ⟨gap ++ (u ++ after), ⟨by simp [hne], fun d hd => ?_, c, hc, rest, by simp⟩,
    trim_between hgap hafter u⟩
  rcases List.mem_append.mp hd with hd | hd
  · exact hout hgap d hd
  rcases List.mem_append.mp hd with hd | hd
  · exact (hp d).mp (hu d hd)
  · exact hout hafter d hd

theorem EndsAt.exists_mem_ways {t before : Text} (h : EndsAt ends before t) :
    ∃ m, m ∈ (seq blanks (seq (group body) closing)).ways t := by
  obtain ⟨hne, hbefore, c, hc, rest, rfl⟩ := h
  obtain ⟨y, hy⟩ := hcloses.exists_mem c rest hc
  have hx : ⟨[some before], c :: rest⟩ ∈ (group body).ways (before ++ c :: rest) :=
    (hbody _ _).mpr (mem_ways_group_run.mpr
      ⟨before, c :: rest, hne, fun d hd => (hp d).mpr (hbefore d hd), rfl, rfl⟩)
  exact ⟨_, mem_ways_many_seq.mpr
    ⟨[], _, by simp, rfl, mem_ways_seq.mpr ⟨_, hx, y, hy, rfl⟩⟩⟩

/-- What is read off the trimmed capture is read off the trimmed text up to its end. -/
theorem map_match?_trim {α : Type} {q : Char → Bool} (hq : ∀ c, q c = true ↔ c ∈ ends)
    (f : Text → α) (t : Text) :
    ((seq blanks (seq (group body) closing)).match? t).map (fun m => f (trim (m.group 0))) =
      (nonemptyBefore? q t).map fun before => f (trim before) := by
  apply map_match?_eq
  · intro m hm
    obtain ⟨before, hends, htrim⟩ := endsAt_of_mem_ways hp hbody hcloses hm
    rw [(nonemptyBefore?_eq_some_iff hq).mpr hends, Option.map_some, htrim]
  · intro hsome
    obtain ⟨before, hbefore⟩ := Option.isSome_iff_exists.mp (Option.isSome_map ▸ hsome)
    obtain ⟨m, hm⟩ := EndsAt.exists_mem_ways hp hbody hcloses
      ((nonemptyBefore?_eq_some_iff hq).mp hbefore)
    exact List.ne_nil_of_mem hm

end Ending

theorem closes_signature :
    Closes ['{', ';'] (alt (seq blanks (literal ['{'])) (seq blanks (literal [';']))) where
  isBlank_eq_false c hc := by rcases List.mem_pair.mp hc with rfl | rfl <;> rfl
  of_mem t m hm := by
    rcases mem_ways_alt.mp hm with ⟨x, hx, -⟩ | ⟨x, hx, -⟩ <;>
      obtain ⟨after, r, hafter, rfl, hend⟩ := mem_ways_many_seq.mp hx <;>
      obtain ⟨rest, rfl, -⟩ := mem_ways_literal.mp hend <;>
      exact ⟨after, _, rest, hafter, by simp, rfl⟩
  exists_mem c rest hc := by
    have hway : ⟨[], rest⟩ ∈ (seq blanks (literal [c])).ways (c :: rest) :=
      mem_ways_many_seq.mpr ⟨[], c :: rest, by simp, rfl, mem_ways_literal.mpr ⟨rest, rfl, rfl⟩⟩
    rcases List.mem_pair.mp hc with rfl | rfl
    · exact ⟨_, mem_ways_alt.mpr (.inl ⟨_, hway, rfl⟩)⟩
    · exact ⟨_, mem_ways_alt.mpr (.inr ⟨_, hway, rfl⟩)⟩

theorem Method.map_match?_signature {α : Type} (f : Text → α) (t : Text) :
    (signaturePattern.match? t).map (fun m => f (trim (m.group 0))) =
      (nonemptyBefore? endsSignature t).map fun signature => f (trim signature) :=
  map_match?_trim (by simp) (fun _ _ => mem_ways_group_shortRun) closes_signature
    endsSignature_iff f t

/-- What follows the sign of a method is matched from left to right up to its signature. -/
theorem Method.match?_afterSign (r : Text) :
    (seq blanks (seq (literal ['(']) (seq (group (run (· != ')')))
      (seq (literal [')']) signaturePattern)))).match? r =
      ((parenthesised? r).filter (!·.1.isEmpty)).bind fun x =>
        (signaturePattern.match? x.2).map fun m => ⟨some x.1 :: m.groups, m.rest⟩ := by
  rw [match?_blanks_seq (match?_literal_seq_eq_none (by decide) _ _), match?_literal_seq,
    parenthesised?_eq_bind]
  cases after? ['('] (skipBlanks r) with
  | none => rfl
  | some r => exact match?_group_run_closing (match?_literal_seq [')'] _) r

theorem Method.map_match?_pattern (number : Int) (line : Text) :
    (pattern.match? line).map (ofMatch number) = ofLine? number line := by
  have hsign (c : Char) (hc : isBlank c = true) : ¬ (c == '+' || c == '-') = true := by
    rw [Bool.or_eq_true, beq_iff_eq, beq_iff_eq]
    rintro (rfl | rfl) <;> exact absurd hc (by decide)
  have hblank (c : Char) (r : Text) (hc : isBlank c = true) (b : Pattern) :
      (seq (group (one fun c => c == '+' || c == '-')) b).match? (c :: r) = none := by
    rw [match?_group_one_seq, List.head?_cons, Option.bind_some, if_neg (hsign c hc)]
  rw [pattern, match?_blanks_seq fun c r hc => hblank c r hc _, match?_group_one_seq, ofLine?]
  cases skipBlanks line with
  | nil => rfl
  | cons sign r =>
    simp only [List.head?_cons, Option.bind_some, List.tail_cons, match?_afterSign]
    split_ifs
    · rcases parenthesised? r with _ | ⟨_ | ⟨c, type⟩, rest⟩
      · rfl
      · rfl
      · simp only [Option.filter_some, List.isEmpty_cons, Bool.not_false, if_true, Option.bind_some,
          Option.map_map]
        exact map_match?_signature
          (fun signature => Method.mk [sign] (trim (c :: type)) signature number) rest
    · rfl

theorem closes_declaration : Closes [';'] (literal [';']) where
  isBlank_eq_false c hc := by
    obtain rfl := List.mem_singleton.mp hc
    rfl
  of_mem t m hm := by
    obtain ⟨rest, rfl, -⟩ := mem_ways_literal.mp hm
    exact ⟨[], _, rest, by simp [IsBlanks], List.mem_singleton_self _, rfl⟩
  exists_mem c rest hc := by
    obtain rfl := List.mem_singleton.mp hc
    exact ⟨_, mem_ways_literal.mpr ⟨rest, rfl, rfl⟩⟩

namespace Property

theorem endsAt_of_mem_ways_declaration {t : Text} {m : Match}
    (hm : m ∈ declarationPattern.ways t) :
    ∃ declaration, EndsAt [';'] declaration t ∧ trim declaration = trim (m.group 0) :=
  endsAt_of_mem_ways (by simp) (fun _ _ => Iff.rfl) closes_declaration hm

theorem exists_mem_ways_declaration {declaration t : Text}
    (h : EndsAt [';'] declaration t) : ∃ m, m ∈ declarationPattern.ways t :=
  h.exists_mem_ways (p := (· != ';')) (by simp) (fun _ _ => Iff.rfl) closes_declaration

theorem map_match?_declaration {α : Type} (f : Text → α) (t : Text) :
    (declarationPattern.match? t).map (fun m => f (trim (m.group 0))) =
      (nonemptyBefore? (· == ';') t).map fun declaration => f (trim declaration) :=
  map_match?_trim (by simp) (fun _ _ => Iff.rfl) closes_declaration beq_semicolon_iff f t

theorem mem_ways_attributes {t : Text} {m : Match} : m ∈ attributesPattern.ways t ↔
    ∃ attributes rest, ')' ∉ attributes ∧ t = '(' :: (attributes ++ ')' :: rest) ∧
      m = ⟨[some ('(' :: attributes ++ [')'])], rest⟩ := by
  have hbefore (attributes rest : Text) :
      before ('(' :: (attributes ++ ')' :: rest)) rest = '(' :: attributes ++ [')'] := by
    rw [← before_append ('(' :: attributes ++ [')']) rest]
    simp
  have hfree (attributes : Text) : (∀ c ∈ attributes, (c != ')') = true) ↔ ')' ∉ attributes := by
    simp only [bne_iff_ne]
    exact List.forall_mem_ne'
  rw [attributesPattern, mem_ways_group]
  constructor
  · rintro ⟨x, hx, rfl⟩
    obtain ⟨y, hy, z, hz, rfl⟩ := mem_ways_seq.mp hx
    obtain ⟨r, rfl, rfl⟩ := mem_ways_literal.mp hy
    obtain ⟨attributes, s, hattributes, rfl, hclose⟩ := mem_ways_many_seq.mp hz
    obtain ⟨rest, rfl, rfl⟩ := mem_ways_literal.mp hclose
    exact ⟨attributes, rest, (hfree attributes).mp hattributes, rfl,
      congrArg (fun u => (⟨[some u], rest⟩ : Match)) (hbefore attributes rest)⟩
  · rintro ⟨attributes, rest, hattributes, rfl, rfl⟩
    refine ⟨⟨[], rest⟩, mem_ways_seq.mpr ⟨_, mem_ways_literal.mpr ⟨_, rfl, rfl⟩, ⟨[], rest⟩, ?_, rfl⟩,
      by rw [hbefore]⟩
    exact mem_ways_many_seq.mpr ⟨attributes, _, (hfree attributes).mpr hattributes, rfl,
      mem_ways_literal.mpr ⟨rest, rfl, rfl⟩⟩

theorem match?_attributes {attributes : Text} (h : ')' ∉ attributes) (rest : Text) :
    attributesPattern.match? ('(' :: (attributes ++ ')' :: rest)) =
      some ⟨[some ('(' :: attributes ++ [')'])], rest⟩ := by
  have hway := mem_ways_attributes.mpr ⟨attributes, rest, h, rfl, rfl⟩
  cases hmatch : attributesPattern.match? ('(' :: (attributes ++ ')' :: rest)) with
  | none =>
    rw [match?_eq_none_iff.mp hmatch] at hway
    cases hway
  | some m =>
    obtain ⟨other, rest', hother, heq, rfl⟩ := mem_ways_attributes.mp (mem_ways_of_match? hmatch)
    have hcut := cut?_beq_append hother rest'
    rw [← (List.cons.inj heq).2, cut?_beq_append h] at hcut
    cases hcut
    rfl

/-- Attributes that a declaration follows are kept. -/
theorem map_match?_tail_of_declaresWith {number : Int} {attributes declaration t : Text}
    (h : DeclaresWith attributes declaration t) : (tailPattern.match? t).map (ofMatch number) =
      some ⟨'(' :: attributes ++ [')'], trim declaration, number⟩ := by
  obtain ⟨_, rest, ⟨gap, hgap, hattributes, rfl⟩, hends, rfl⟩ := h
  have hblanks : blanks.match? (gap ++ '(' :: (attributes ++ [')']) ++ rest) =
      some ⟨[], '(' :: (attributes ++ ')' :: rest)⟩ := by
    rw [blanks, match?_many, ← skipBlanks, List.append_assoc, List.cons_append,
      skipBlanks_indent hgap (by decide), List.append_assoc, List.singleton_append]
  have hlist : (opt attributesPattern).match? ('(' :: (attributes ++ ')' :: rest)) =
      some ⟨[some ('(' :: attributes ++ [')'])], rest⟩ := by
    rw [match?_opt, match?_attributes hattributes, Option.getD_some]
  have hread := map_match?_declaration
    (fun declaration => Property.mk ('(' :: attributes ++ [')']) declaration number) rest
  rw [(nonemptyBefore?_eq_some_iff beq_semicolon_iff).mpr hends, Option.map_some,
    Option.map_eq_some_iff] at hread
  obtain ⟨m, hm, hread⟩ := hread
  rw [tailPattern, match?_seq_of_some hblanks (match?_seq_of_some hlist hm), Option.map_some, ← hread]
  rfl

/-- Attributes that no declaration follows are given up. -/
theorem map_match?_tail_of_forall {number : Int} {t : Text}
    (h : ∀ attributes declaration, ¬ DeclaresWith attributes declaration t) :
    (tailPattern.match? t).map (ofMatch number) = withoutAttributes? number t := by
  apply map_match?_eq
  · intro m hm
    obtain ⟨gap, r, hgap, rfl, hrest⟩ := mem_ways_many_seq.mp hm
    obtain ⟨x, hx, y, hy, rfl⟩ := mem_ways_seq.mp hrest
    rcases mem_ways_opt.mp hx with hx | rfl
    · obtain ⟨attributes, rest, hattributes, rfl, rfl⟩ := mem_ways_attributes.mp hx
      obtain ⟨declaration, hends, -⟩ := endsAt_of_mem_ways_declaration hy
      exact absurd ⟨_, rest, ⟨gap, hgap, hattributes, rfl⟩, hends, by simp⟩
        (h attributes declaration)
    · -- The blanks in front may as well be taken by the declaration.
      obtain ⟨gap', r', hgap', rfl, hdeclaration⟩ := mem_ways_many_seq.mp hy
      have hway : y ∈ declarationPattern.ways (gap ++ (gap' ++ r')) := mem_ways_many_seq.mpr
        ⟨gap ++ gap', r', List.forall_mem_append.mpr ⟨hgap, hgap'⟩, by simp, hdeclaration⟩
      obtain ⟨declaration, hends, htrim⟩ := endsAt_of_mem_ways_declaration hway
      exact withoutAttributes?_eq_some_iff.mpr ⟨declaration, hends, by rw [htrim]; rfl⟩
  · intro hsome
    obtain ⟨p, hp⟩ := Option.isSome_iff_exists.mp hsome
    obtain ⟨declaration, hends, -⟩ := withoutAttributes?_eq_some_iff.mp hp
    obtain ⟨m, hm⟩ := exists_mem_ways_declaration hends
    exact List.ne_nil_of_mem (mem_ways_many_seq.mpr ⟨[], t, by simp, rfl,
      mem_ways_seq.mpr ⟨_, mem_ways_opt.mpr (.inr rfl), m, hm, rfl⟩⟩)

theorem map_match?_pattern (number : Int) (line : Text) :
    (pattern.match? line).map (ofMatch number) = ofLine? number line := by
  have hkeyword : ∀ c r, isBlank c = true →
      (seq (literal keyword) tailPattern).match? (c :: r) = none :=
    match?_literal_seq_eq_none (by decide) _ _
  rw [pattern, match?_blanks_seq hkeyword, match?_literal_seq, ofLine?_eq_bind]
  cases after? keyword (skipBlanks line) with
  | none => rfl
  | some t =>
    rw [Option.bind_some, Option.bind_some, tail?]
    cases hwith : withAttributes? number t with
    | none =>
      rw [Option.none_or]
      refine map_match?_tail_of_forall fun attributes declaration hdeclares => ?_
      rw [withAttributes?_eq_some_iff.mpr ⟨attributes, declaration, hdeclares, rfl⟩] at hwith
      cases hwith
    | some p =>
      obtain ⟨attributes, declaration, hdeclares, rfl⟩ := withAttributes?_eq_some_iff.mp hwith
      exact map_match?_tail_of_declaresWith hdeclares

end Property

/-- A line is a method, or a property, exactly where its parts can be cut from left to right, and
exactly where its pattern matches. What is read of it is what is cut, and what the groups captured,
trimmed. -/
theorem Mark.member_lines (l : SourceLine) :
    (∀ m, (ofLine? l = some (.method m) ↔
        ∃ sign type signature, IsMethodLine sign type signature l.text ∧
          m = ⟨[sign], trim type, trim signature, l.number⟩) ∧
      (ofLine? l = some (.method m) ↔
        (Method.pattern.match? l.text).map (Method.ofMatch l.number) = some m)) ∧
    ∀ p, (ofLine? l = some (.property p) ↔
        ∃ attributes declaration, IsPropertyLine attributes declaration l.text ∧
          p = ⟨attributes, trim declaration, l.number⟩) ∧
      (ofLine? l = some (.property p) ↔
        (Property.pattern.match? l.text).map (Property.ofMatch l.number) = some p) := by
  refine ⟨fun m => ⟨?_, ?_⟩, fun p => ⟨?_, ?_⟩⟩
  · rw [ofLine?_eq_method_iff, Method.ofLine?_eq_some_iff]
  · rw [ofLine?_eq_method_iff, Method.map_match?_pattern]
  · rw [ofLine?_eq_property_iff, Property.ofLine?_eq_some_iff]
  · rw [ofLine?_eq_property_iff, Property.map_match?_pattern]

/-- A signature of blanks only, attributes with a semicolon in them, and attributes that are the whole
declaration. -/
example :
    let method : Text := "- (void)  ;"
    let listed : Text := "@property (a;b) x;"
    let alone : Text := "@property (copy);"
    Method.ofLine? 1 method = some ⟨"-", "void", "", 1⟩ ∧
      Property.ofLine? 1 listed = some ⟨"(a;b)", "x", 1⟩ ∧
      Property.ofLine? 1 alone = some ⟨"", "(copy)", 1⟩ := by
  decide +kernel

end ObjcOutline
