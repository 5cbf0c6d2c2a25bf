import ObjcOutline.Proofs.FieldLines

/-!
# What stands between a header and its braces

A lead-in is a run of blanks and of comments that are closed again. Every text is a lead-in and,
after it, a place where no lead-in goes on: the end of the text, an opening brace, a comment that is
not closed, or some other character. The scan for instance variables passes over the lead-in
whatever follows it, so its result is decided at that place.

Two questions are answered from this. The scan finds a body exactly when closed braces follow a
lead-in. And what is added below a line with `@end` changes the result only when that line stands
inside braces or inside a comment.
-/
namespace ObjcOutline

def commentEnd : Text := ['*', '/']

/-- Blanks and closed comments. -/
inductive LeadIn : Text → Prop
  | nil : LeadIn []
  | blank {c : Char} {t : Text} : isLeadBlank c = true → LeadIn t → LeadIn (c :: t)
  | lineComment {u t : Text} : '\n' ∉ u → LeadIn t → LeadIn ('/' :: '/' :: (u ++ '\n' :: t))
  | blockComment {u t : Text} : ¬ commentEnd <:+: u → LeadIn t →
      LeadIn ('/' :: '*' :: (u ++ '*' :: '/' :: t))

/-- What a text starts with when no lead-in goes on there. -/
inductive Stop : Text → Prop
  | atEnd : Stop []
  | brace (w : Text) : Stop ('{' :: w)
  | lineComment {w : Text} : '\n' ∉ w → Stop ('/' :: '/' :: w)
  | blockComment {w : Text} : ¬ commentEnd <:+: w → Stop ('/' :: '*' :: w)
  | other {c : Char} {w : Text} : isLeadBlank c = false → c ≠ '{' →
      (c = '/' → ∀ s, w ≠ '/' :: s) → (c = '/' → ∀ s, w ≠ '*' :: s) → Stop (c :: w)

theorem exists_first_commentEnd {w : Text} (h : commentEnd <:+: w) :
    ∃ u t, w = u ++ '*' :: '/' :: t ∧ ¬ commentEnd <:+: u := by
  induction w with
  | nil => simp [commentEnd] at h
  | cons c w ih =>
    rcases List.infix_cons_iff.mp h with ⟨t, ht⟩ | hw
    · exact ⟨[], t, ht.symm, by simp [commentEnd]⟩
    · by_cases hstart : commentEnd <+: c :: w
      · obtain ⟨t, ht⟩ := hstart
        exact ⟨[], t, ht.symm, by simp [commentEnd]⟩
      · obtain ⟨u, t, rfl, hu⟩ := ih hw
        refine ⟨c :: u, t, rfl, ?_⟩
        rw [List.infix_cons_iff, not_or]
        exact ⟨fun hc => hstart (hc.trans (List.prefix_append (c :: u) _)), hu⟩

theorem exists_leadIn_append (t : Text) :
    ∃ lead rest, LeadIn lead ∧ Stop rest ∧ t = lead ++ rest := by
  induction hn : t.length using Nat.strong_induction_on generalizing t with
  | _ n ih =>
    subst hn
    cases t with
    | nil => exact ⟨[], [], .nil, .atEnd, rfl⟩
    | cons c r =>
      by_cases hblank : isLeadBlank c = true
      · obtain ⟨lead, rest, hlead, hrest, heq⟩ := ih r.length (by simp) r rfl
        exact ⟨c :: lead, rest, .blank hblank hlead, hrest, by rw [heq, List.cons_append]⟩
      by_cases hbrace : c = '{'
      · subst hbrace
        exact ⟨[], _, .nil, .brace r, rfl⟩
      by_cases hline : ∃ w, c :: r = '/' :: '/' :: w
      · obtain ⟨w, hw⟩ := hline
        rw [hw] at ih ⊢
        by_cases hfeed : '\n' ∈ w
        · obtain ⟨u, s, rfl, hu⟩ := List.eq_append_cons_of_mem hfeed
          obtain ⟨lead, rest, hlead, hrest, rfl⟩ := ih s.length (by simp; omega) s rfl
          exact ⟨_, rest, .lineComment hu hlead, hrest, by simp⟩
        · exact ⟨[], _, .nil, .lineComment hfeed, rfl⟩
      by_cases hblock : ∃ w, c :: r = '/' :: '*' :: w
      · obtain ⟨w, hw⟩ := hblock
        rw [hw] at ih ⊢
        by_cases hend : commentEnd <:+: w
        · obtain ⟨u, s, rfl, hu⟩ := exists_first_commentEnd hend
          obtain ⟨lead, rest, hlead, hrest, rfl⟩ := ih s.length (by simp; omega) s rfl
          exact ⟨_, rest, .blockComment hu hlead, hrest, by simp⟩
        · exact ⟨[], _, .nil, .blockComment hend, rfl⟩
      refine ⟨[], _, .nil, .other (Bool.not_eq_true _ ▸ hblank) hbrace ?_ ?_, rfl⟩
      · rintro rfl s rfl
        exact hline ⟨s, rfl⟩
      · rintro rfl s rfl
        exact hblock ⟨s, rfl⟩

theorem fieldBodyFrom?_blockComment_cons {c : Char} {r : Text} (h : ¬ commentEnd <+: c :: r) :
    fieldBodyFrom? .blockComment (c :: r) = fieldBodyFrom? .blockComment r := by
  rw [fieldBodyFrom?]
  rintro s rfl rfl
  exact h (List.prefix_append commentEnd s)

theorem fieldBodyFrom?_blockComment {u : Text} (h : ¬ commentEnd <:+: u) (t : Text) :
    fieldBodyFrom? .blockComment (u ++ '*' :: '/' :: t) = fieldBodyFrom? .outside t := by
  induction u with
  | nil => rfl
  | cons c u ih =>
    rw [List.infix_cons_iff, not_or] at h
    rw [List.cons_append, fieldBodyFrom?_blockComment_cons, ih h.2]
    intro hstart
    cases u with
    | nil => simp [commentEnd] at hstart
    | cons d u => exact h.1 (by simpa [commentEnd] using hstart)

theorem fieldBodyFrom?_blockComment_eq_none {w : Text} (h : ¬ commentEnd <:+: w) :
    fieldBodyFrom? .blockComment w = none := by
  induction w with
  | nil => rfl
  | cons c w ih =>
    rw [List.infix_cons_iff, not_or] at h
    rw [fieldBodyFrom?_blockComment_cons h.1, ih h.2]

theorem LeadIn.fieldBody?_append {lead : Text} (h : LeadIn lead) (t : Text) :
    fieldBody? (lead ++ t) = fieldBody? t := by
  unfold fieldBody?
  induction h with
  | nil => rfl
  | @blank c s hc _ ih =>
    have hslash : c ≠ '/' := by rintro rfl; exact absurd hc (by decide)
    have hbrace : c ≠ '{' := by rintro rfl; exact absurd hc (by decide)
    rw [List.cons_append, fieldBodyFrom?, if_pos hc, ih]
    · exact fun _ heq _ => hslash heq
    · exact fun _ heq _ => hslash heq
    · exact hbrace
  | @lineComment u s hu _ ih =>
    have hbelow := fieldBodyFrom?_lineComment_below (u := '\n' :: (s ++ t)) hu (.inr ⟨_, rfl⟩)
    rw [List.cons_append, List.cons_append, List.append_assoc, fieldBodyFrom?, ← ih]
    exact hbelow
  | @blockComment u s hu _ ih =>
    rw [List.cons_append, List.cons_append, List.append_assoc, fieldBodyFrom?, ← ih]
    exact fieldBodyFrom?_blockComment hu (s ++ t)

/-- Where something else stands, what follows cannot turn it into the start of a comment as long as
it begins on a line of its own. -/
theorem fieldBody?_other {c : Char} {w u : Text} (hblank : isLeadBlank c = false) (hbrace : c ≠ '{')
    (hline : c = '/' → ∀ s, w ≠ '/' :: s) (hblock : c = '/' → ∀ s, w ≠ '*' :: s)
    (hu : u = [] ∨ ∃ s, u = '\n' :: s) : fieldBody? (c :: (w ++ u)) = none := by
  have hslash : ∀ s, u ≠ '/' :: s := by
    rcases hu with rfl | ⟨v, rfl⟩ <;> simp
  have hstar : ∀ s, u ≠ '*' :: s := by
    rcases hu with rfl | ⟨v, rfl⟩ <;> simp
  rw [fieldBody?, fieldBodyFrom?, if_neg (by simp [hblank])]
  · exact fun s hc => append_ne_cons hslash (hline hc) s
  · exact fun s hc => append_ne_cons hstar (hblock hc) s
  · exact hbrace

theorem fieldBody?_other_eq_none {c : Char} {w : Text} (hblank : isLeadBlank c = false)
    (hbrace : c ≠ '{') (hline : c = '/' → ∀ s, w ≠ '/' :: s) (hblock : c = '/' → ∀ s, w ≠ '*' :: s) :
    fieldBody? (c :: w) = none := by
  have hnone := fieldBody?_other hblank hbrace hline hblock (.inl rfl)
  rwa [List.append_nil] at hnone

theorem fieldBody?_lineComment_eq_none {w : Text} (h : '\n' ∉ w) :
    fieldBody? ('/' :: '/' :: w) = none := by
  have hnone := fieldBodyFrom?_lineComment_below h (.inl rfl)
  rwa [List.append_nil] at hnone

/-- A body is found exactly where closed braces follow a lead-in. -/
theorem fieldBody?_eq_some_iff {t body : Text} :
    fieldBody? t = some body ↔ ∃ lead tail,
      LeadIn lead ∧ t = lead ++ '{' :: (body ++ '}' :: tail) ∧ '}' ∉ body := by
  constructor
  · intro h
    obtain ⟨lead, rest, hlead, hrest, rfl⟩ := exists_leadIn_append t
    rw [hlead.fieldBody?_append] at h
    cases hrest with
    | atEnd => cases h
    | brace w =>
      obtain ⟨⟨_, tail⟩, hcut, rfl⟩ := Option.map_eq_some_iff.mp h
      obtain ⟨hfree, rfl⟩ := Text.cut?_beq_eq_some hcut
      exact ⟨lead, tail, hlead, rfl, hfree⟩
    | lineComment hw => cases (fieldBody?_lineComment_eq_none hw).symm.trans h
    | blockComment hw => cases (fieldBodyFrom?_blockComment_eq_none hw).symm.trans h
    | other hblank hbrace hline hblock =>
      cases (fieldBody?_other_eq_none hblank hbrace hline hblock).symm.trans h
  · rintro ⟨lead, tail, hlead, rfl, hfree⟩
    rw [hlead.fieldBody?_append, fieldBody?, fieldBodyFrom?, Text.cut?_beq_append hfree]
    rfl

/-- A brace after a lead-in is not closed in the text. -/
def LeavesBraceOpen (t : Text) : Prop :=
  ∃ lead w, LeadIn lead ∧ t = lead ++ '{' :: w ∧ '}' ∉ w

/-- A block comment after a lead-in is not closed in the text. -/
def LeavesCommentOpen (t : Text) : Prop :=
  ∃ lead w, LeadIn lead ∧ t = lead ++ '/' :: '*' :: w ∧ ¬ commentEnd <:+: w

theorem LeavesBraceOpen.fieldBody?_eq_none {t : Text} (h : LeavesBraceOpen t) :
    fieldBody? t = none := by
  obtain ⟨lead, w, hlead, rfl, hw⟩ := h
  have hcut : Text.cut? (· == '}') w = none :=
    Text.cut?_eq_none fun c hc => beq_eq_false_iff_ne.mpr fun heq => hw (heq ▸ hc)
  rw [hlead.fieldBody?_append, fieldBody?, fieldBodyFrom?, hcut, Option.map_none]

theorem LeavesCommentOpen.fieldBody?_eq_none {t : Text} (h : LeavesCommentOpen t) :
    fieldBody? t = none := by
  obtain ⟨lead, w, hlead, rfl, hw⟩ := h
  rw [hlead.fieldBody?_append]
  exact fieldBodyFrom?_blockComment_eq_none hw

/-- A suffix that does not begin below a character reaches over it. -/
theorem mem_of_suffix_append_cons {d : Char} {u v s : Text} (hs : s <:+ u ++ d :: v)
    (hbelow : ¬ s <:+ v) : d ∈ s := by
  rcases List.suffix_or_suffix_of_suffix hs (List.suffix_append u (d :: v)) with hin | hover
  · rcases List.suffix_cons_iff.mp hin with rfl | hin
    · exact List.mem_cons_self
    · exact absurd hin hbelow
  · exact hover.mem List.mem_cons_self

/-- In a lead-in an at sign stands in a comment, so the end of the comment follows it. -/
theorem LeadIn.mem_of_suffix {t s : Text} (h : LeadIn t) (hs : s <:+ t) (hat : '@' ∈ s) :
    '\n' ∈ s ∨ '/' ∈ s := by
  induction h generalizing s with
  | nil =>
    rw [List.suffix_nil.mp hs] at hat
    exact absurd hat List.not_mem_nil
  | @blank c t hc _ ih =>
    rcases List.suffix_cons_iff.mp hs with rfl | hs
    · have hne : '@' ≠ c := by rintro rfl; exact absurd hc (by decide)
      exact (ih (List.suffix_refl t) ((List.mem_cons.mp hat).resolve_left hne)).imp
        (List.mem_cons_of_mem c) (List.mem_cons_of_mem c)
    · exact ih hs hat
  | @lineComment u t _ _ ih =>
    by_cases hin : s <:+ t
    · exact ih hin hat
    · exact .inl (mem_of_suffix_append_cons (u := '/' :: '/' :: u) hs hin)
  | @blockComment u t _ _ ih =>
    by_cases hin : s <:+ t
    · exact ih hin hat
    · have hs' : s <:+ ('/' :: '*' :: (u ++ ['*'])) ++ '/' :: t := by simpa using hs
      exact .inr (mem_of_suffix_append_cons hs' hin)

/-- What is added below a line that holds an at sign and cannot end a comment, as a line with
`@end` does, is not looked at unless the line stands inside braces or inside a comment. -/
theorem fieldBody?_append_below {t line : Text} (hat : '@' ∈ line) (hfeed : '\n' ∉ line)
    (hslash : '/' ∉ line) (hbrace : ¬ LeavesBraceOpen (t ++ '\n' :: line))
    (hcomment : ¬ LeavesCommentOpen (t ++ '\n' :: line)) (u : Text) :
    fieldBody? (t ++ '\n' :: line ++ '\n' :: u) = fieldBody? (t ++ '\n' :: line) := by
  obtain ⟨lead, rest, hlead, hrest, heq⟩ := exists_leadIn_append (t ++ '\n' :: line)
  rw [heq] at hbrace hcomment ⊢
  rw [List.append_assoc, hlead.fieldBody?_append, hlead.fieldBody?_append]
  cases hrest with
  | atEnd =>
    have hsuffix : line <:+ lead := by
      rw [List.append_nil] at heq
      exact ⟨t ++ ['\n'], by simp [← heq]⟩
    rcases hlead.mem_of_suffix hsuffix hat with h | h
    · exact absurd h hfeed
    · exact absurd h hslash
  | brace w =>
    by_cases hw : '}' ∈ w
    · obtain ⟨body, tail, rfl, hbody⟩ := List.eq_append_cons_of_mem hw
      have hcut (tail : Text) : fieldBody? ('{' :: (body ++ '}' :: tail)) = some body :=
        fieldBody?_eq_some_iff.mpr ⟨[], tail, .nil, rfl, hbody⟩
      rw [hcut, List.cons_append, List.append_assoc]
      exact hcut _
    · exact absurd ⟨lead, w, hlead, rfl, hw⟩ hbrace
  | @lineComment w hw =>
    exfalso
    have hend : '/' :: '/' :: w <:+ t ++ '\n' :: line := heq ▸ List.suffix_append lead _
    by_cases hin : '/' :: '/' :: w <:+ line
    · exact hslash (hin.mem List.mem_cons_self)
    · have hmem : '\n' ∈ '/' :: '/' :: w := mem_of_suffix_append_cons hend hin
      exact hw (by simpa using hmem)
  | blockComment hw => exact absurd ⟨lead, _, hlead, rfl, hw⟩ hcomment
  | other hblank hother hline hblock =>
    rw [fieldBody?_other_eq_none hblank hother hline hblock]
    exact fieldBody?_other hblank hother hline hblock (.inr ⟨u, rfl⟩)

end ObjcOutline
