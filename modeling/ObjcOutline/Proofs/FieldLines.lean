import ObjcOutline.Source.FieldBody
import ObjcOutline.Proofs.Placement
import ObjcOutline.Proofs.Scanning

/-!
# Instance variables, line by line

The braces after a header are found by a scan over characters that knows nothing of lines. Here the
same scan is cut at the line feeds. Within a line it fails, goes on with the next line, inside a
block comment or not, or meets the opening brace; once the brace is open, each line is kept up to the
first closing brace. Both readings give the same variables, so what lines can be changed, moved or
added without a variable being lost can be asked line by line.
-/
namespace ObjcOutline

namespace Text

/-- The lines that follow a line, each with the line feed before it. -/
def below (ls : List Text) : Text := ls.flatMap ('\n' :: ·)

@[simp] theorem below_nil : below [] = [] := rfl

@[simp] theorem below_cons (l : Text) (ls : List Text) :
    below (l :: ls) = '\n' :: (l ++ below ls) := rfl

theorem eq_append_below {src l : Text} {ls : List Text} (h : lines src = l :: ls) :
    src = l ++ below ls := by
  unfold lines at h
  induction src generalizing l ls with
  | nil =>
    cases h
    rfl
  | cons c r ih =>
    by_cases hc : c = '\n'
    · subst hc
      obtain ⟨first, others, hr⟩ := List.exists_cons_of_ne_nil (split_ne_nil '\n' r)
      rw [split_cons_self, hr] at h
      cases h
      rw [below_cons, List.nil_append, ← ih hr]
    · obtain ⟨first, others, hr, hcr⟩ := split_cons_of_ne hc r
      rw [hcr] at h
      cases h
      rw [List.cons_append, ← ih hr]

theorem lines_append_below {l : Text} {ls : List Text} (hl : '\n' ∉ l) (hls : ∀ m ∈ ls, '\n' ∉ m) :
    lines (l ++ below ls) = l :: ls := by
  induction ls generalizing l with
  | nil =>
    rw [below_nil, List.append_nil]
    exact split_of_not_mem hl
  | cons m ls ih =>
    have hfirst : lines l = [l] := split_of_not_mem hl
    rw [below_cons, lines_append, hfirst,
      ih (hls m (by simp)) fun k hk => hls k (by simp [hk])]
    rfl

/-- Cutting two texts in a row: in the first of them if it can be cut, otherwise in the second. -/
theorem cut?_append_eq (p : Char → Bool) (t u : Text) :
    cut? p (t ++ u) = ((cut? p t).map fun x => (x.1, x.2 ++ u)).or
      ((cut? p u).map fun x => (t ++ x.1, x.2)) := by
  induction t with
  | nil =>
    cases h : cut? p u <;> simp [cut?, h]
  | cons c t ih =>
    rw [List.cons_append, cut?, cut?]
    split_ifs with hc
    · rfl
    · rw [ih]
      cases cut? p t <;> cases cut? p u <;> rfl

theorem cut?_eq_none {p : Char → Bool} {t : Text} (h : ∀ c ∈ t, p c = false) : cut? p t = none := by
  induction t with
  | nil => rfl
  | cons c t ih => simp [cut?, h c (by simp), ih fun d hd => h d (by simp [hd])]

end Text

/-- How the scan for an opening brace leaves a line. -/
inductive Scanned
  /-- Something else than a comment or a brace stands there. -/
  | failed
  /-- The scan goes on in the next line. -/
  | goesOn (inComment : Bool)
  /-- The brace is met; the rest of the line follows it. -/
  | opened (rest : Text)
deriving DecidableEq, Repr

namespace Scanned

/-- The scan of one line, which starts inside a block comment or outside. A line comment ends with
the line. -/
def ofLine : (inComment : Bool) → Text → Scanned
  | inComment, [] => goesOn inComment
  | true, '*' :: '/' :: r => ofLine false r
  | true, _ :: r => ofLine true r
  | false, '/' :: '/' :: _ => goesOn false
  | false, '/' :: '*' :: r => ofLine true r
  | false, '{' :: r => opened r
  | false, c :: r => if isLeadBlank c then ofLine false r else failed

theorem suffix_of_opened {inComment : Bool} {t r : Text} (h : ofLine inComment t = opened r) :
    r <:+ t := by
  fun_induction ofLine inComment t with
  | case1 => cases h
  | case2 s ih => exact (ih h).trans (List.suffix_append ['*', '/'] s)
  | case3 c s _ ih => exact (ih h).trans (List.suffix_cons c s)
  | case4 => cases h
  | case5 s ih => exact (ih h).trans (List.suffix_append ['/', '*'] s)
  | case6 s =>
    cases h
    exact List.suffix_cons '{' r
  | case7 c s _ _ _ _ ih => exact (ih h).trans (List.suffix_cons c s)
  | case8 => cases h

def lead (inComment : Bool) : Lead := if inComment then .blockComment else .outside

end Scanned

namespace Field

/-- The variables of a line that is inside the braces and of the lines below it, up to the closing
brace. -/
def untilBrace? : Text → List Text → Option (List Field)
  | t, [] => (Text.cut? (· == '}') t).map fun x => (ofLine? x.1).toList
  | t, l :: ls =>
    match Text.cut? (· == '}') t with
    | some x => some (ofLine? x.1).toList
    | none => (untilBrace? l ls).map ((ofLine? t).toList ++ ·)

/-- The variables in the braces that follow the start of a line, with the lines below it. -/
def fromLines? : (inComment : Bool) → Text → List Text → Option (List Field)
  | inComment, t, [] =>
    match Scanned.ofLine inComment t with
    | .opened r => untilBrace? r []
    | _ => none
  | inComment, t, l :: ls =>
    match Scanned.ofLine inComment t with
    | .failed => none
    | .goesOn inComment => fromLines? inComment l ls
    | .opened r => untilBrace? r (l :: ls)

theorem untilBrace?_of_some {t : Text} {x : Text × Text} {ls : List Text}
    (h : Text.cut? (· == '}') t = some x) : untilBrace? t ls = some (ofLine? x.1).toList := by
  cases ls <;> simp only [untilBrace?, h, Option.map_some]

/-- A line without the closing brace leaves all but its own variable to the lines below. -/
theorem untilBrace?_of_none {t : Text} {ls : List Text} (h : Text.cut? (· == '}') t = none) :
    untilBrace? t ls = (untilBrace? [] ls).map ((ofLine? t).toList ++ ·) := by
  have hempty : (ofLine? []).toList = [] := rfl
  cases ls with
  | nil => simp only [untilBrace?, h, Text.cut?, Option.map_none]
  | cons l ls => simp only [untilBrace?, h, Text.cut?, hempty, List.nil_append, Option.map_id']

theorem untilBrace?_nil_cons (l : Text) (ls : List Text) :
    untilBrace? [] (l :: ls) = untilBrace? l ls := by
  have hempty : (ofLine? []).toList = [] := rfl
  simp only [untilBrace?, Text.cut?, hempty, List.nil_append, Option.map_id']

theorem fromLines?_of_failed {inComment : Bool} {t : Text} {ls : List Text}
    (h : Scanned.ofLine inComment t = .failed) : fromLines? inComment t ls = none := by
  cases ls <;> simp only [fromLines?, h]

theorem fromLines?_of_opened {inComment : Bool} {t r : Text} {ls : List Text}
    (h : Scanned.ofLine inComment t = .opened r) :
    fromLines? inComment t ls = untilBrace? r ls := by
  cases ls <;> simp only [fromLines?, h]

/-- A line that the scan passes over leaves nothing but whether a comment is open. -/
theorem fromLines?_of_goesOn {inComment next : Bool} {t : Text} {ls : List Text}
    (h : Scanned.ofLine inComment t = .goesOn next) :
    fromLines? inComment t ls = fromLines? next [] ls := by
  cases ls <;> simp only [fromLines?, h, Scanned.ofLine]

theorem fromLines?_nil_cons (inComment : Bool) (l : Text) (ls : List Text) :
    fromLines? inComment [] (l :: ls) = fromLines? inComment l ls := by
  simp only [fromLines?, Scanned.ofLine]

end Field

theorem fieldBodyFrom?_lineComment_below {t u : Text} (ht : '\n' ∉ t)
    (hu : u = [] ∨ ∃ s, u = '\n' :: s) :
    fieldBodyFrom? .lineComment (t ++ u) = fieldBodyFrom? .outside u := by
  induction t with
  | nil => rcases hu with rfl | ⟨s, rfl⟩ <;> rfl
  | cons c t ih =>
    have hc : c ≠ '\n' := fun h => ht (by simp [h])
    rw [List.cons_append, fieldBodyFrom?, if_neg hc, ih fun h => ht (by simp [h])]

/-- What follows a line cannot complete a two-character sign that the line has begun. -/
theorem append_ne_cons {r u : Text} {d : Char} (hu : ∀ s, u ≠ d :: s) (hr : ∀ s, r ≠ d :: s)
    (s : Text) : r ++ u ≠ d :: s := by
  intro heq
  cases r with
  | nil => exact hu s heq
  | cons c r =>
    obtain ⟨rfl, -⟩ := List.cons.inj heq
    exact hr r rfl

/-- The scan over characters, stopped at the end of a line. -/
theorem fieldBodyFrom?_append (inComment : Bool) {t u : Text} (ht : '\n' ∉ t)
    (hu : u = [] ∨ ∃ s, u = '\n' :: s) :
    fieldBodyFrom? (Scanned.lead inComment) (t ++ u) =
      match Scanned.ofLine inComment t with
      | .failed => none
      | .goesOn inComment => fieldBodyFrom? (Scanned.lead inComment) u
      | .opened r => (Text.cut? (· == '}') (r ++ u)).map (·.1) := by
  have hslash : ∀ s, u ≠ '/' :: s := by
    rcases hu with rfl | ⟨v, rfl⟩ <;> simp
  have hstar : ∀ s, u ≠ '*' :: s := by
    rcases hu with rfl | ⟨v, rfl⟩ <;> simp
  fun_induction Scanned.ofLine inComment t with
  | case1 inComment => rfl
  | case2 r ih => exact ih fun h => ht (by simp [h])
  | case3 c r hend ih =>
    have hstep : fieldBodyFrom? .blockComment (c :: (r ++ u)) =
        fieldBodyFrom? .blockComment (r ++ u) := by
      rw [fieldBodyFrom?]
      exact fun s hc => append_ne_cons hslash (fun v => hend v hc) s
    exact hstep.trans (ih fun h => ht (by simp [h]))
  | case4 r => exact fieldBodyFrom?_lineComment_below (fun h => ht (by simp [h])) hu
  | case5 r ih => exact ih fun h => ht (by simp [h])
  | case6 r => rfl
  | case7 c r hline hblock hbrace hblank ih =>
    have hstep : fieldBodyFrom? .outside (c :: (r ++ u)) = fieldBodyFrom? .outside (r ++ u) := by
      rw [fieldBodyFrom?, if_pos hblank]
      · exact fun s hc => append_ne_cons hslash (fun v => hline v hc) s
      · exact fun s hc => append_ne_cons hstar (fun v => hblock v hc) s
      · exact hbrace
    exact hstep.trans (ih fun h => ht (by simp [h]))
  | case8 c r hline hblock hbrace hblank =>
    have hstep : fieldBodyFrom? .outside (c :: (r ++ u)) = none := by
      rw [fieldBodyFrom?, if_neg hblank]
      · exact fun s hc => append_ne_cons hslash (fun v => hline v hc) s
      · exact fun s hc => append_ne_cons hstar (fun v => hblock v hc) s
      · exact hbrace
    exact hstep

theorem below_eq_nil_or (ls : List Text) : Text.below ls = [] ∨ ∃ s, Text.below ls = '\n' :: s := by
  cases ls with
  | nil => exact .inl rfl
  | cons l ls => exact .inr ⟨_, rfl⟩

namespace Field

theorem ofBody_of_not_mem {body : Text} (h : '\n' ∉ body) :
    ofBody body = (ofLine? body).toList := by
  have hlines : Text.lines body = [body] := Text.split_of_not_mem h
  rw [ofBody, hlines, List.filterMap_cons, List.filterMap_nil]
  cases ofLine? body <;> rfl

theorem ofBody_append {t : Text} (ht : '\n' ∉ t) (body : Text) :
    ofBody (t ++ '\n' :: body) = (ofLine? t).toList ++ ofBody body := by
  rw [ofBody, Text.lines_append, List.filterMap_append, ← ofBody, ← ofBody, ofBody_of_not_mem ht]

theorem ofBody_of_cut? {t before rest : Text} (ht : '\n' ∉ t)
    (h : Text.cut? (· == '}') t = some (before, rest)) :
    ofBody before = (ofLine? before).toList := by
  obtain ⟨-, rfl⟩ := Text.cut?_beq_eq_some h
  exact ofBody_of_not_mem fun hmem => ht (by simp [hmem])

theorem map_ofBody_cut? {t : Text} {ls : List Text} (ht : '\n' ∉ t) (hls : ∀ l ∈ ls, '\n' ∉ l) :
    (Text.cut? (· == '}') (t ++ Text.below ls)).map (fun x => ofBody x.1) = untilBrace? t ls := by
  induction ls generalizing t with
  | nil =>
    rw [Text.below_nil, List.append_nil, untilBrace?]
    cases hx : Text.cut? (· == '}') t with
    | none => rfl
    | some x => rw [Option.map_some, Option.map_some, ofBody_of_cut? ht hx]
  | cons l ls ih =>
    have hbelow := ih (hls l (by simp)) fun m hm => hls m (by simp [hm])
    rw [Text.cut?_append_eq, untilBrace?]
    cases hx : Text.cut? (· == '}') t with
    | some x => simp only [Option.map_some, Option.some_or, ofBody_of_cut? ht hx]
    | none =>
      have hfeed : Text.cut? (· == '}') (Text.below (l :: ls)) =
          (Text.cut? (· == '}') (l ++ Text.below ls)).map fun x => ('\n' :: x.1, x.2) := rfl
      simp only [Option.map_none, Option.none_or, hfeed, ← hbelow, Option.map_map]
      congr 1
      funext x
      exact ofBody_append ht x.1

theorem map_ofBody_fieldBodyFrom? (inComment : Bool) {t : Text} {ls : List Text} (ht : '\n' ∉ t)
    (hls : ∀ l ∈ ls, '\n' ∉ l) :
    (fieldBodyFrom? (Scanned.lead inComment) (t ++ Text.below ls)).map ofBody =
      fromLines? inComment t ls := by
  induction ls generalizing inComment t with
  | nil =>
    rw [fieldBodyFrom?_append inComment ht (below_eq_nil_or [])]
    cases hscan : Scanned.ofLine inComment t with
    | failed => rw [fromLines?_of_failed hscan, Option.map_none]
    | goesOn next =>
      rw [fromLines?_of_goesOn hscan]
      rfl
    | opened r =>
      have hr : '\n' ∉ r := fun h => ht ((Scanned.suffix_of_opened hscan).mem h)
      rw [fromLines?_of_opened hscan, ← map_ofBody_cut? hr hls, Option.map_map]
      rfl
  | cons l ls ih =>
    rw [fieldBodyFrom?_append inComment ht (below_eq_nil_or (l :: ls))]
    cases hscan : Scanned.ofLine inComment t with
    | failed => rw [fromLines?_of_failed hscan, Option.map_none]
    | goesOn next =>
      have hfeed : fieldBodyFrom? (Scanned.lead next) (Text.below (l :: ls)) =
          fieldBodyFrom? (Scanned.lead next) (l ++ Text.below ls) := by cases next <;> rfl
      rw [fromLines?_of_goesOn hscan, fromLines?_nil_cons,
        ← ih next (hls l (by simp)) fun m hm => hls m (by simp [hm])]
      exact congrArg (Option.map ofBody) hfeed
    | opened r =>
      have hr : '\n' ∉ r := fun h => ht ((Scanned.suffix_of_opened hscan).mem h)
      rw [fromLines?_of_opened hscan, ← map_ofBody_cut? hr hls, Option.map_map]
      rfl

end Field

/-- The variables of a block whose header ends within a line, from the rest of the line and the
lines below it. -/
theorem Block.fieldsOf_append_below {t : Text} {ls : List Text} {o : Opener} (ht : '\n' ∉ t)
    (hls : ∀ l ∈ ls, '\n' ∉ l) (hend : o.headerEnd ≤ t.length) :
    fieldsOf (t ++ Text.below ls) o =
      if o.header.kind = .protocol then []
      else (Field.fromLines? false (t.drop o.headerEnd) ls).getD [] := by
  have hdrop : '\n' ∉ t.drop o.headerEnd := fun h => ht (List.mem_of_mem_drop h)
  rw [← Field.map_ofBody_fieldBodyFrom? false hdrop hls, fieldsOf,
    List.drop_append_of_le_length hend]
  split_ifs
  · rfl
  · rw [fieldBody?, Scanned.lead, if_neg (by decide)]
    cases fieldBodyFrom? .outside (t.drop o.headerEnd ++ Text.below ls) <;> rfl

end ObjcOutline
