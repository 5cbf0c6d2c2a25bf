import ObjcOutline.Source.Extraction
import Mathlib.Data.List.Pairwise
import Mathlib.Tactic.SplitIfs

/-!
# Where the lines of a text stand

Two texts with a line feed between them have the lines of the first and then the lines of the
second. What a line declares depends on its own characters; its number and its offset only decide
where the declaration is said to stand. So the marks of the joined text are the marks of the first
text followed by the marks of the second, moved down by the number of lines before them and right by
the number of characters before them.

Numbers grow from line to line, hence the marks of a text stand on different lines in ascending
order, between the first line and the last.
-/
namespace ObjcOutline

namespace Text

@[simp] theorem split_cons_self (sep : Char) (t : Text) :
    split sep (sep :: t) = [] :: split sep t := by simp [split]

/-- A character that does not separate is put before the first piece. -/
theorem split_cons_of_ne {sep c : Char} (h : c ≠ sep) (t : Text) :
    ∃ first others, split sep t = first :: others ∧
      split sep (c :: t) = (c :: first) :: others := by
  obtain ⟨first, others, ht⟩ := List.exists_cons_of_ne_nil (split_ne_nil sep t)
  refine ⟨first, others, ht, ?_⟩
  simp only [split, if_neg h, ht]

theorem split_append (sep : Char) (a b : Text) :
    split sep (a ++ sep :: b) = split sep a ++ split sep b := by
  induction a with
  | nil => simp [split]
  | cons c r ih =>
    by_cases hc : c = sep
    · subst hc
      simp only [List.cons_append, split_cons_self, ih]
    · obtain ⟨first, others, hr, hcr⟩ := split_cons_of_ne hc (r ++ sep :: b)
      obtain ⟨first', others', hr', hcr'⟩ := split_cons_of_ne hc r
      rw [ih, hr'] at hr
      rw [List.cons_append, hcr, hcr']
      cases hr
      rfl

theorem split_of_not_mem {sep : Char} {t : Text} (h : sep ∉ t) : split sep t = [t] := by
  induction t with
  | nil => rfl
  | cons c r ih =>
    simp only [List.mem_cons, not_or] at h
    rw [split, if_neg (Ne.symm h.1), ih h.2]

/-- A piece holds only characters of the text, and none of them separates. -/
theorem mem_of_mem_split {sep c : Char} {t piece : Text} (h : piece ∈ split sep t)
    (hc : c ∈ piece) : c ∈ t ∧ c ≠ sep := by
  induction t generalizing piece with
  | nil => simp_all [split]
  | cons d r ih =>
    by_cases hd : d = sep
    · subst hd
      rw [split_cons_self] at h
      rcases List.mem_cons.mp h with rfl | h
      · simp at hc
      · exact ⟨List.mem_cons_of_mem _ (ih h hc).1, (ih h hc).2⟩
    · obtain ⟨first, others, hr, hdr⟩ := split_cons_of_ne hd r
      rw [hdr] at h
      rw [hr] at ih
      rcases List.mem_cons.mp h with rfl | h
      · rcases List.mem_cons.mp hc with rfl | hc
        · exact ⟨List.mem_cons_self .., hd⟩
        · have hfirst := ih (List.mem_cons_self ..) hc
          exact ⟨List.mem_cons_of_mem _ hfirst.1, hfirst.2⟩
      · have hother := ih (List.mem_cons_of_mem _ h) hc
        exact ⟨List.mem_cons_of_mem _ hother.1, hother.2⟩

theorem lines_append (a b : Text) : lines (a ++ '\n' :: b) = lines a ++ lines b :=
  split_append '\n' a b

theorem not_mem_of_mem_lines {t line : Text} (h : line ∈ lines t) : '\n' ∉ line :=
  fun hc => (mem_of_mem_split h hc).2 rfl

/-- The number of characters that lines take when each is followed by a line feed. -/
def width : List Text → Nat
  | [] => 0
  | l :: ls => l.length + 1 + width ls

@[simp] theorem width_nil : width [] = 0 := rfl

@[simp] theorem width_cons (l : Text) (ls : List Text) :
    width (l :: ls) = l.length + 1 + width ls := rfl

theorem width_lines (t : Text) : width (lines t) = t.length + 1 := by
  unfold lines
  induction t with
  | nil => simp [split]
  | cons c r ih =>
    by_cases hc : c = '\n'
    · subst hc
      rw [split_cons_self, width_cons, ih]
      simp only [List.length_nil, List.length_cons]
      omega
    · obtain ⟨first, others, hr, hcr⟩ := split_cons_of_ne hc r
      rw [hr, width_cons] at ih
      rw [hcr, width_cons]
      simp only [List.length_cons]
      omega

end Text

namespace SourceLine

/-- The same line `n` lines further down and `k` characters further right. -/
def shift (n k : Nat) (l : SourceLine) : SourceLine :=
  ⟨l.number + n, l.start + k, l.text⟩

theorem place_shift (n k number start : Nat) (ls : List Text) :
    place (number + n) (start + k) ls = (place number start ls).map (shift n k) := by
  induction ls generalizing number start with
  | nil => rfl
  | cons raw r ih =>
    have hn : number + n + 1 = number + 1 + n := by omega
    have hk : start + k + raw.length + 1 = start + raw.length + 1 + k := by omega
    simp only [place, List.map_cons, hn, hk, ih]
    rfl

theorem place_append (number start : Nat) (xs ys : List Text) :
    place number start (xs ++ ys) =
      place number start xs ++ place (number + xs.length) (start + Text.width xs) ys := by
  induction xs generalizing number start with
  | nil => rfl
  | cons raw r ih =>
    have hn : number + 1 + r.length = number + (r.length + 1) := by omega
    have hk : start + raw.length + 1 + Text.width r = start + (raw.length + 1 + Text.width r) := by
      omega
    simp only [List.cons_append, place, ih, List.length_cons, Text.width_cons, hn, hk]

theorem ofText_append (a b : Text) :
    ofText (a ++ '\n' :: b) =
      ofText a ++ (ofText b).map (shift (Text.lines a).length (a.length + 1)) := by
  unfold ofText
  rw [Text.lines_append, place_append, Text.width_lines, place_shift]

theorem mem_place {number start : Nat} {ls : List Text} {l : SourceLine} :
    l ∈ place number start ls ↔ ∃ (i : Nat) (raw : Text), ls[i]? = some raw ∧
      l = ⟨number + i, start + Text.width (ls.take i), Text.dropReturn raw⟩ := by
  induction ls generalizing number start with
  | nil => simp [place]
  | cons raw r ih =>
    rw [place, List.mem_cons, ih]
    constructor
    · rintro (rfl | ⟨i, raw', hraw, rfl⟩)
      · exact ⟨0, raw, rfl, rfl⟩
      · refine ⟨i + 1, raw', hraw, ?_⟩
        simp only [List.take_succ_cons, Text.width_cons, SourceLine.mk.injEq, and_true]
        omega
    · rintro ⟨i, raw', hraw, rfl⟩
      cases i with
      | zero =>
        cases hraw
        exact .inl rfl
      | succ i =>
        refine .inr ⟨i, raw', hraw, ?_⟩
        simp only [List.take_succ_cons, Text.width_cons, SourceLine.mk.injEq, and_true]
        omega

/-- Every line has a number from `number` on, and there are as many as texts. -/
theorem number_of_mem_place {number start : Nat} {ls : List Text} {l : SourceLine}
    (h : l ∈ place number start ls) : number ≤ l.number ∧ l.number < number + ls.length := by
  obtain ⟨i, raw, hraw, rfl⟩ := mem_place.mp h
  obtain ⟨hi, -⟩ := List.getElem?_eq_some_iff.mp hraw
  exact ⟨Nat.le_add_right .., Nat.add_lt_add_left hi number⟩

theorem place_pairwise (number start : Nat) (ls : List Text) :
    (place number start ls).Pairwise fun x y => x.number < y.number := by
  induction ls generalizing number start with
  | nil => exact List.Pairwise.nil
  | cons raw r ih =>
    refine List.Pairwise.cons ?_ (ih _ _)
    intro l hl
    exact (number_of_mem_place hl).1

end SourceLine

/-- The same method `n` lines further down. -/
def Method.shift (n : Nat) (m : Method) : Method := { m with line := m.line + n }

/-- The same property `n` lines further down. -/
def Property.shift (n : Nat) (p : Property) : Property := { p with line := p.line + n }

/-- The same opener `n` lines further down and `k` characters further right. -/
def Opener.shift (n k : Nat) (o : Opener) : Opener :=
  { o with line := o.line + n, headerEnd := o.headerEnd + k }

/-- The same mark `n` lines further down and `k` characters further right. -/
def Mark.shift (n k : Nat) : Mark → Mark
  | closer line => closer (line + n)
  | method m => method (m.shift n)
  | property p => property (p.shift n)
  | opener o => opener (o.shift n k)

theorem Method.ofLine?_add (n : Nat) (number : Int) (line : Text) :
    ofLine? (number + n) line = (ofLine? number line).map (shift n) := by
  unfold ofLine?
  split
  · split_ifs
    · split
      · rw [Option.map_map]
        rfl
      · rfl
    · rfl
  · rfl

theorem Property.ofLine?_add (n : Nat) (number : Int) (line : Text) :
    ofLine? (number + n) line = (ofLine? number line).map (shift n) := by
  have hwith (rest : Text) : withAttributes? (number + n) rest =
      (withAttributes? number rest).map (shift n) := by
    unfold withAttributes?
    split
    · rw [Option.map_map]
      rfl
    · rfl
  have hwithout (rest : Text) : withoutAttributes? (number + n) rest =
      (withoutAttributes? number rest).map (shift n) := by
    unfold withoutAttributes?
    rw [Option.map_map]
    rfl
  unfold ofLine?
  split
  · rw [hwith, hwithout, Option.map_or]
  · rfl

theorem Opener.ofLine?_shift (n k : Nat) (l : SourceLine) :
    ofLine? (l.shift n k) = (ofLine? l).map (shift n k) := by
  unfold ofLine?
  rw [Option.map_map]
  congr 1
  funext header
  simp only [Function.comp_apply, shift, SourceLine.shift, SourceLine.contentStart,
    Opener.mk.injEq, Int.natCast_add, true_and]
  omega

theorem Method.line_of_ofLine? {number : Int} {line : Text} {m : Method}
    (h : ofLine? number line = some m) : m.line = number := by
  unfold ofLine? at h
  split at h
  · split_ifs at h
    split at h
    · obtain ⟨signature, -, rfl⟩ := Option.map_eq_some_iff.mp h
      rfl
    · cases h
  · cases h

theorem Property.line_of_ofLine? {number : Int} {line : Text} {p : Property}
    (h : ofLine? number line = some p) : p.line = number := by
  unfold ofLine? at h
  split at h
  · rcases Option.or_eq_some_iff.mp h with h | ⟨-, h⟩
    · unfold withAttributes? at h
      split at h
      · obtain ⟨declaration, -, rfl⟩ := Option.map_eq_some_iff.mp h
        rfl
      · cases h
    · obtain ⟨declaration, -, rfl⟩ := Option.map_eq_some_iff.mp h
      rfl
  · cases h

theorem Opener.line_of_ofLine? {l : SourceLine} {o : Opener} (h : ofLine? l = some o) :
    o.line = l.number := by
  obtain ⟨header, -, rfl⟩ := Option.map_eq_some_iff.mp h
  rfl

namespace Mark

theorem ofLine?_shift (n k : Nat) (l : SourceLine) :
    ofLine? (l.shift n k) = (ofLine? l).map (shift n k) := by
  have htrim : (l.shift n k).trimmed = l.trimmed := rfl
  have hnumber : ((l.shift n k).number : Int) = l.number + n := Int.natCast_add ..
  unfold ofLine?
  rw [htrim, hnumber, Opener.ofLine?_shift]
  split_ifs
  · rfl
  · rfl
  · rw [SourceLine.shift, Method.ofLine?_add, Property.ofLine?_add]
    simp only [Option.map_or, Option.map_map]
    rfl

/-- The marks of two texts with a line feed between them. -/
theorem ofText_append (a b : Text) :
    ofText (a ++ '\n' :: b) =
      ofText a ++ (ofText b).map (shift (Text.lines a).length (a.length + 1)) := by
  unfold ofText
  rw [SourceLine.ofText_append, List.filterMap_append, List.filterMap_map, List.map_filterMap]
  congr 2
  funext l
  exact ofLine?_shift _ _ l

theorem line_of_ofLine? {l : SourceLine} {m : Mark} (h : ofLine? l = some m) :
    m.line = l.number := by
  unfold ofLine? at h
  split_ifs at h
  · cases h
    rfl
  · rcases Option.or_eq_some_iff.mp h with h | ⟨-, h⟩
    · obtain ⟨x, hx, rfl⟩ := Option.map_eq_some_iff.mp h
      exact Method.line_of_ofLine? hx
    · rcases Option.or_eq_some_iff.mp h with h | ⟨-, h⟩
      · obtain ⟨x, hx, rfl⟩ := Option.map_eq_some_iff.mp h
        exact Property.line_of_ofLine? hx
      · obtain ⟨x, hx, rfl⟩ := Option.map_eq_some_iff.mp h
        exact Opener.line_of_ofLine? hx

/-- No two marks of a text stand on one line, and they come in the order of their lines. -/
theorem ofText_pairwise (src : Text) :
    (ofText src).Pairwise fun x y => x.line < y.line := by
  unfold ofText
  rw [List.pairwise_filterMap]
  refine (SourceLine.place_pairwise 1 0 _).imp ?_
  intro x y hxy a ha b hb
  rw [line_of_ofLine? ha, line_of_ofLine? hb]
  exact_mod_cast hxy

theorem eq_of_line_eq {src : Text} {x y : Mark} (hx : x ∈ ofText src) (hy : y ∈ ofText src)
    (h : x.line = y.line) : x = y := by
  by_contra hne
  have hsymm : Std.Symm fun x y : Mark => x.line ≠ y.line := ⟨fun _ _ => Ne.symm⟩
  exact ((ofText_pairwise src).imp fun h => Int.ne_of_lt h).forall hx hy hne h

theorem line_of_mem_ofText {src : Text} {m : Mark} (h : m ∈ ofText src) :
    1 ≤ m.line ∧ m.line ≤ (Text.lines src).length := by
  obtain ⟨l, hl, hm⟩ := List.mem_filterMap.mp h
  have hbounds := SourceLine.number_of_mem_place hl
  rw [line_of_ofLine? hm]
  omega

end Mark

end ObjcOutline
