import ObjcOutline.Proofs.LeadIn

/-!
# The scan for instance variables as a loop

The braces after a header are looked for by a loop that works on positions. One pass drops the
blanks at the start of what is left; then it cuts off a whole comment, whose end it searches for, or
it ends the loop. `Ends` describes the loop on its own. Since a pass that goes on cuts off a piece of
the lead-in, and so leaves a shorter text, the loop ends on every text, and it ends with the result
of the scan that reads one character after another.

What that result is can be said without either of them: a body is found exactly when the text is a
sequence of blanks and closed comments, an opening brace, the body, which holds no closing brace, and
a closing brace.
-/
namespace ObjcOutline

/-- One blank, or one comment up to the first place where it is closed. -/
inductive LeadPiece : Text → Prop
  | blank {c : Char} : isLeadBlank c = true → LeadPiece [c]
  | lineComment {u : Text} : '\n' ∉ u → LeadPiece ('/' :: '/' :: (u ++ ['\n']))
  | blockComment {u : Text} : ¬ commentEnd <:+: u → LeadPiece ('/' :: '*' :: (u ++ commentEnd))

theorem LeadPiece.leadIn_append {p t : Text} (h : LeadPiece p) (ht : LeadIn t) :
    LeadIn (p ++ t) := by
  cases h with
  | blank hc => exact .blank hc ht
  | @lineComment u hu => simpa using LeadIn.lineComment hu ht
  | @blockComment u hu => simpa [commentEnd] using LeadIn.blockComment hu ht

/-- A lead-in is a sequence of blanks and closed comments. -/
theorem leadIn_iff_pieces {t : Text} :
    LeadIn t ↔ ∃ pieces : List Text, (∀ p ∈ pieces, LeadPiece p) ∧ pieces.flatten = t := by
  constructor
  · intro h
    induction h with
    | nil => exact ⟨[], by simp, rfl⟩
    | @blank c t hc _ ih =>
      obtain ⟨pieces, hpieces, rfl⟩ := ih
      exact ⟨[c] :: pieces, List.forall_mem_cons.mpr ⟨.blank hc, hpieces⟩, rfl⟩
    | @lineComment u t hu _ ih =>
      obtain ⟨pieces, hpieces, rfl⟩ := ih
      exact ⟨_ :: pieces, List.forall_mem_cons.mpr ⟨.lineComment hu, hpieces⟩, by simp⟩
    | @blockComment u t hu _ ih =>
      obtain ⟨pieces, hpieces, rfl⟩ := ih
      exact ⟨_ :: pieces, List.forall_mem_cons.mpr ⟨.blockComment hu, hpieces⟩,
        by simp [commentEnd]⟩
  · rintro ⟨pieces, hpieces, rfl⟩
    induction pieces with
    | nil => exact .nil
    | cons p pieces ih =>
      obtain ⟨hp, hpieces⟩ := List.forall_mem_cons.mp hpieces
      rw [List.flatten_cons]
      exact hp.leadIn_append (ih hpieces)

/-- A text in which braces with the given body follow a sequence of blanks and closed comments. -/
def HasBody (t body : Text) : Prop :=
  ∃ (pieces : List Text) (tail : Text), (∀ p ∈ pieces, LeadPiece p) ∧
    t = pieces.flatten ++ '{' :: (body ++ '}' :: tail) ∧ '}' ∉ body

theorem fieldBody?_eq_some_iff_hasBody {t body : Text} :
    fieldBody? t = some body ↔ HasBody t body := by
  rw [fieldBody?_eq_some_iff]
  constructor
  · rintro ⟨lead, tail, hlead, ht, hbody⟩
    obtain ⟨pieces, hpieces, rfl⟩ := leadIn_iff_pieces.mp hlead
    exact ⟨pieces, tail, hpieces, ht, hbody⟩
  · rintro ⟨pieces, tail, hpieces, ht, hbody⟩
    exact ⟨pieces.flatten, tail, leadIn_iff_pieces.mpr ⟨pieces, hpieces, rfl⟩, ht, hbody⟩

namespace FieldLoop

/-- How a pass ends: the loop goes on with a rest, or it is over with a result. -/
inductive Pass
  | again (rest : Text)
  | done (result : Option Text)

/-- One pass over what is left of the text. The positions are those of the text without the blanks
at its start. -/
def pass (t : Text) : Pass :=
  let rest := t.dropWhile isLeadBlank
  if ['/', '/'] <+: rest then
    match indexOf? ['\n'] rest with
    | some n => .again (rest.drop (n + 1))
    | none => .done none
  else if ['/', '*'] <+: rest then
    match indexOf? commentEnd (rest.drop 2) with
    | some n => .again (rest.drop (2 + n + 2))
    | none => .done none
  else if ['{'] <+: rest then
    match indexOf? ['}'] rest with
    | some n => .done (some ((rest.take n).drop 1))
    | none => .done none
  else .done none

inductive Ends : Text → Option Text → Prop
  | done {t : Text} {result : Option Text} : pass t = .done result → Ends t result
  | again {t rest : Text} {result : Option Text} :
      pass t = .again rest → Ends rest result → Ends t result

theorem leadIn_takeWhile (t : Text) : LeadIn (t.takeWhile isLeadBlank) := by
  induction t with
  | nil => exact .nil
  | cons c t ih =>
    by_cases hc : isLeadBlank c = true
    · rw [List.takeWhile_cons_of_pos hc]
      exact .blank hc ih
    · rw [List.takeWhile_cons_of_neg hc]
      exact .nil

theorem fieldBody?_dropWhile (t : Text) : fieldBody? (t.dropWhile isLeadBlank) = fieldBody? t := by
  conv_rhs => rw [← List.takeWhile_append_dropWhile (p := isLeadBlank) (l := t)]
  exact ((leadIn_takeWhile t).fieldBody?_append _).symm

theorem pass_cases (t : Text) :
    (∃ p rest, LeadPiece p ∧ t.dropWhile isLeadBlank = p ++ rest ∧ pass t = .again rest) ∨
      pass t = .done (fieldBody? t) := by
  have hstart := Text.startsOutside_dropWhile isLeadBlank t
  rw [← fieldBody?_dropWhile]
  unfold pass
  dsimp only
  generalize t.dropWhile isLeadBlank = s at hstart ⊢
  split_ifs with hline hblock hbrace
  · obtain ⟨r, rfl⟩ := hline
    cases hn : indexOf? ['\n'] (['/', '/'] ++ r) with
    | some n =>
      left
      obtain ⟨u, rest, rfl, rfl, hu⟩ := exists_of_indexOf?_eq_some (by decide) hn
      have hcut : ['/', '/'] ++ (u ++ '\n' :: rest) = '/' :: '/' :: (u ++ ['\n']) ++ rest := by simp
      rw [hcut]
      exact ⟨_, rest, .lineComment hu, rfl, congrArg Pass.again (List.drop_left' (by simp; omega))⟩
    | none =>
      right
      have hfree := not_infix_of_indexOf?_eq_none hn
      rw [List.singleton_infix_iff] at hfree
      exact congrArg Pass.done
        (fieldBody?_lineComment_eq_none fun hr => hfree (List.mem_append_right _ hr)).symm
  · obtain ⟨r, rfl⟩ := hblock
    have hrest : (['/', '*'] ++ r).drop 2 = r := rfl
    rw [hrest]
    cases hn : indexOf? commentEnd r with
    | some n =>
      left
      obtain ⟨u, rest, rfl, rfl, hu⟩ := indexOf?_eq_some (by simp [commentEnd]) hn
      have hcut : ['/', '*'] ++ (u ++ (commentEnd ++ rest)) =
          '/' :: '*' :: (u ++ commentEnd) ++ rest := by simp
      rw [hcut]
      exact ⟨_, rest, .blockComment hu, rfl,
        congrArg Pass.again (List.drop_left' (by simp [commentEnd]; omega))⟩
    | none =>
      right
      exact congrArg Pass.done
        (fieldBodyFrom?_blockComment_eq_none (not_infix_of_indexOf?_eq_none hn)).symm
  · obtain ⟨r, rfl⟩ := hbrace
    right
    cases hn : indexOf? ['}'] (['{'] ++ r) with
    | some n =>
      obtain ⟨body, tail, rfl, rfl, hbody⟩ := exists_of_indexOf?_eq_some (by decide) hn
      have hresult : fieldBody? ('{' :: body ++ '}' :: tail) = some body :=
        fieldBody?_eq_some_iff.mpr ⟨[], tail, .nil, rfl, hbody⟩
      have htake : ('{' :: body ++ '}' :: tail).take (1 + body.length) = '{' :: body :=
        List.take_left' (by simp [Nat.add_comm])
      have hcut : ['{'] ++ (body ++ '}' :: tail) = '{' :: body ++ '}' :: tail := rfl
      rw [hcut, hresult]
      exact congrArg (fun u => Pass.done (some (u.drop 1))) htake
    | none =>
      have hfree := not_infix_of_indexOf?_eq_none hn
      rw [List.singleton_infix_iff] at hfree
      have hopen : LeavesBraceOpen ('{' :: r) :=
        ⟨[], r, .nil, rfl, fun hr => hfree (List.mem_append_right _ hr)⟩
      exact congrArg Pass.done hopen.fieldBody?_eq_none.symm
  · right
    cases s with
    | nil => rfl
    | cons c w =>
      refine congrArg Pass.done
        (fieldBody?_other_eq_none (Text.startsOutside_cons.mp hstart) ?_ ?_ ?_).symm
      · rintro rfl
        exact hbrace (List.prefix_append _ w)
      · rintro rfl s rfl
        exact hline (List.prefix_append _ s)
      · rintro rfl s rfl
        exact hblock (List.prefix_append _ s)

theorem fieldBody?_of_pass_eq_done {t : Text} {result : Option Text} (h : pass t = .done result) :
    fieldBody? t = result := by
  rcases pass_cases t with ⟨_, _, -, -, hpass⟩ | hpass
  · cases hpass.symm.trans h
  · cases hpass.symm.trans h
    rfl

theorem exists_piece_of_pass_eq_again {t rest : Text} (h : pass t = .again rest) :
    ∃ p, LeadPiece p ∧ t.dropWhile isLeadBlank = p ++ rest := by
  rcases pass_cases t with ⟨p, _, hp, heq, hpass⟩ | hpass
  · cases hpass.symm.trans h
    exact ⟨p, hp, heq⟩
  · cases hpass.symm.trans h

/-- What a pass leaves is shorter than what it started on. -/
theorem length_lt_of_pass_eq_again {t rest : Text} (h : pass t = .again rest) :
    rest.length < t.length := by
  obtain ⟨p, hp, heq⟩ := exists_piece_of_pass_eq_again h
  have hpos : 0 < p.length := by cases hp <;> simp
  have hle := (List.dropWhile_suffix isLeadBlank (l := t)).length_le
  rw [heq, List.length_append] at hle
  omega

theorem fieldBody?_of_pass_eq_again {t rest : Text} (h : pass t = .again rest) :
    fieldBody? t = fieldBody? rest := by
  obtain ⟨p, hp, heq⟩ := exists_piece_of_pass_eq_again h
  have hlead : LeadIn p := by simpa using hp.leadIn_append .nil
  rw [← fieldBody?_dropWhile, heq, hlead.fieldBody?_append]

theorem Ends.result_eq {t : Text} {result : Option Text} (h : Ends t result) :
    result = fieldBody? t := by
  induction h with
  | done hpass => exact (fieldBody?_of_pass_eq_done hpass).symm
  | again hpass _ ih => rw [ih, fieldBody?_of_pass_eq_again hpass]

theorem exists_ends (t : Text) : ∃ result, Ends t result := by
  induction hn : t.length using Nat.strong_induction_on generalizing t with
  | _ n ih =>
    subst hn
    cases hpass : pass t with
    | done result => exact ⟨result, .done hpass⟩
    | again rest =>
      obtain ⟨result, hends⟩ := ih rest.length (length_lt_of_pass_eq_again hpass) rest rfl
      exact ⟨result, .again hpass hends⟩

theorem ends_iff {t : Text} {result : Option Text} : Ends t result ↔ result = fieldBody? t := by
  constructor
  · exact Ends.result_eq
  · rintro rfl
    obtain ⟨result, hends⟩ := exists_ends t
    exact hends.result_eq ▸ hends

/-- On every text the loop ends, with one result: the body of the text where it has one, and nothing
where it has none. Each pass that goes on leaves a shorter text. -/
theorem ends_iff_hasBody (t : Text) :
    (∀ body, Ends t (some body) ↔ HasBody t body) ∧
      (Ends t none ↔ ∀ body, ¬ HasBody t body) ∧
      (∃! result, Ends t result) ∧
      (∀ result, Ends t result ↔ result = fieldBody? t) ∧
      ∀ rest, pass t = .again rest → rest.length < t.length := by
  refine ⟨fun body => ?_, ?_, ⟨fieldBody? t, ends_iff.mpr rfl, fun _ h => h.result_eq⟩,
    fun _ => ends_iff, fun _ => length_lt_of_pass_eq_again⟩
  · rw [ends_iff, eq_comm, fieldBody?_eq_some_iff_hasBody]
  · rw [ends_iff, eq_comm, Option.eq_none_iff_forall_ne_some]
    exact forall_congr' fun body => not_congr fieldBody?_eq_some_iff_hasBody

/-- A comment is not closed by its own star, and braces in comments do not count. -/
example : fieldBody? "/*/{a}*/ // {b}\n\t{c}" = some ("c" : Text) := by decide

end FieldLoop

end ObjcOutline
