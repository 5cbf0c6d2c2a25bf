import ObjcOutline.Proofs.Placement
import ObjcOutline.Proofs.ShortestForms
import Mathlib.Data.List.Forall2

/-!
# Decoding line by line

Repairing bytes means copying the characters in them and writing one replacement character for each
longest run of bytes at which no character starts. Bytes can be repaired in one way only, and
decoding repairs them before it drops a byte-order mark.

A line feed is one byte and belongs to no longer form. So it ends whatever stands before it: no form
reaches across it, and no run does. The lines of a decoded file are therefore the repaired lines of
its bytes, one for one.
-/
namespace ObjcOutline.Utf8

/-- The text is the bytes repaired. A run ends where a character starts or where the bytes end, and
holds no byte at which a character starts. -/
inductive Repairs : Bytes → Text → Prop
  | nil : Repairs [] []
  | char (c : Char) {data : Bytes} {t : Text} :
      Repairs data t → Repairs (String.utf8EncodeChar c ++ data) (c :: t)
  | run {bad data : Bytes} {t : Text} : bad ≠ [] →
      (∀ i < bad.length, ¬ StartsCharacter ((bad ++ data).drop i)) →
      (data = [] ∨ StartsCharacter data) →
      Repairs data t → Repairs (bad ++ data) (replacement :: t)

/-- The lines of bytes, as they stand between the line feeds. -/
def rawLines (data : Bytes) : List Bytes := data.splitOn 0x0A

/-- The bytes with every run of invalid ones replaced. -/
def repaired (data : Bytes) : Text := mergeRuns false (units data)

theorem decode_eq_dropMark (data : Bytes) : decode data = dropMark (repaired data) := rfl

@[simp] theorem repaired_utf8EncodeChar_append (c : Char) (r : Bytes) :
    repaired (String.utf8EncodeChar c ++ r) = c :: repaired r := by
  rw [repaired, units_utf8EncodeChar_append]
  rfl

/-- At the end of a run it makes no difference that there was one. -/
theorem mergeRuns_true_units {data : Bytes} (h : data = [] ∨ StartsCharacter data) :
    mergeRuns true (units data) = repaired data := by
  rcases h with rfl | ⟨c, r, rfl⟩
  · rfl
  · rw [repaired, units_utf8EncodeChar_append]
    rfl

theorem mergeRuns_true_units_run {bad data : Bytes}
    (hbad : ∀ i < bad.length, ¬ StartsCharacter ((bad ++ data).drop i)) :
    mergeRuns true (units (bad ++ data)) = mergeRuns true (units data) := by
  induction bad with
  | nil => rfl
  | cons b bad ih =>
    have hfirst : ¬ StartsCharacter (b :: (bad ++ data)) := hbad 0 (Nat.succ_pos _)
    rw [List.cons_append, units_cons_of_invalid hfirst]
    exact ih fun i hi => hbad (i + 1) (Nat.succ_lt_succ hi)

/-- A run becomes one replacement character. -/
theorem repaired_run {bad data : Bytes} (hne : bad ≠ [])
    (hbad : ∀ i < bad.length, ¬ StartsCharacter ((bad ++ data).drop i))
    (hend : data = [] ∨ StartsCharacter data) :
    repaired (bad ++ data) = replacement :: repaired data := by
  obtain ⟨b, bad, rfl⟩ := List.exists_cons_of_ne_nil hne
  have hfirst : ¬ StartsCharacter (b :: (bad ++ data)) := hbad 0 (Nat.succ_pos _)
  have hrest : mergeRuns true (units (bad ++ data)) = mergeRuns true (units data) :=
    mergeRuns_true_units_run fun i hi => hbad (i + 1) (Nat.succ_lt_succ hi)
  rw [repaired, List.cons_append, units_cons_of_invalid hfirst, mergeRuns, hrest,
    mergeRuns_true_units hend]

theorem Repairs.eq_repaired {data : Bytes} {t : Text} (h : Repairs data t) : t = repaired data := by
  induction h with
  | nil => rfl
  | char c _ ih => rw [ih, repaired_utf8EncodeChar_append]
  | run hne hbad hend _ ih => rw [ih, repaired_run hne hbad hend]

/-- An invalid byte before a run makes the run longer, and before anything else it is a run. -/
theorem Repairs.cons_invalid {b : UInt8} {data : Bytes} {t : Text}
    (hb : ¬ StartsCharacter (b :: data)) (h : Repairs data t) : ∃ t', Repairs (b :: data) t' := by
  have hsingle : ∀ i < [b].length, ¬ StartsCharacter (([b] ++ data).drop i) := by
    intro i hi
    have hi : i = 0 := by simpa using hi
    subst hi
    exact hb
  cases h with
  | nil => exact ⟨_, .run (List.cons_ne_nil b []) hsingle (.inl rfl) .nil⟩
  | char c hr =>
    exact ⟨_, .run (List.cons_ne_nil b []) hsingle (.inr ⟨c, List.prefix_append ..⟩) (.char c hr)⟩
  | @run bad data t hne hbad hend hr =>
    refine ⟨_, .run (List.cons_ne_nil b bad) (fun i hi => ?_) hend hr⟩
    cases i with
    | zero => exact hb
    | succ i => exact hbad i (Nat.lt_of_succ_lt_succ hi)

theorem exists_repairs (data : Bytes) : ∃ t, Repairs data t := by
  induction data using pieces_induction with
  | nil => exact ⟨[], .nil⟩
  | char c r ih =>
    obtain ⟨t, ht⟩ := ih
    exact ⟨c :: t, .char c ht⟩
  | invalid b r hb ih =>
    obtain ⟨t, ht⟩ := ih
    exact ht.cons_invalid hb

/-- There is one way to repair bytes. -/
theorem repairs_iff {data : Bytes} {t : Text} : Repairs data t ↔ t = repaired data := by
  constructor
  · exact Repairs.eq_repaired
  · rintro rfl
    obtain ⟨t, ht⟩ := exists_repairs data
    exact ht.eq_repaired ▸ ht

/-- No form but that of the line feed holds its byte. -/
theorem eq_newline_of_mem {c : Char} (h : 0x0A ∈ String.utf8EncodeChar c) : c = '\n' :=
  eq_of_mem_utf8EncodeChar (by decide) h

/-- Whether a character starts is settled before the next line feed. -/
theorem startsCharacter_of_append_newline {b : UInt8} {r s : Bytes}
    (h : StartsCharacter (b :: (r ++ 0x0A :: s))) : StartsCharacter (b :: r) := by
  obtain ⟨c, hc⟩ := h
  refine ⟨c, ?_⟩
  by_contra hlonger
  have hline : (b :: r) ++ [0x0A] <+: b :: (r ++ 0x0A :: s) := ⟨s, by simp⟩
  have hpast : (b :: r) ++ [0x0A] <+: String.utf8EncodeChar c := by
    rcases List.prefix_or_prefix_of_prefix hc hline with hform | hform
    · rcases List.prefix_concat_iff.mp hform with heq | hshort
      · exact heq ▸ List.prefix_rfl
      · exact absurd hshort hlonger
    · exact hform
  have hnewline := eq_newline_of_mem (hpast.subset (List.mem_append_right _ (.head _)))
  rw [hnewline] at hpast
  have hlength := hpast.length_le
  rw [List.length_append, List.length_cons, String.length_utf8EncodeChar] at hlength
  exact absurd hlength (by simp [utf8Size_eq])

theorem units_append_newline (a b : Bytes) :
    units (a ++ 0x0A :: b) = units a ++ some '\n' :: units b := by
  induction a using pieces_induction with
  | nil => exact units_utf8EncodeChar_append '\n' b
  | char c r ih =>
    rw [List.append_assoc, units_utf8EncodeChar_append, ih, units_utf8EncodeChar_append,
      List.cons_append]
  | invalid x r hx ih =>
    rw [List.cons_append, units_cons_of_invalid (mt startsCharacter_of_append_newline hx), ih,
      units_cons_of_invalid hx, List.cons_append]

theorem mergeRuns_append_some (inRun : Bool) (u v : List (Option Char)) (c : Char) :
    mergeRuns inRun (u ++ some c :: v) = mergeRuns inRun u ++ c :: mergeRuns false v := by
  induction u generalizing inRun with
  | nil => cases inRun <;> rfl
  | cons x u ih =>
    cases x <;> cases inRun <;> simp only [List.cons_append, mergeRuns, ih]

theorem repaired_append_newline (a b : Bytes) :
    repaired (a ++ 0x0A :: b) = repaired a ++ '\n' :: repaired b := by
  rw [repaired, units_append_newline, mergeRuns_append_some]
  rfl

theorem mem_of_mem_units {c : Char} {data : Bytes} (h : some c ∈ units data) :
    ∀ b ∈ String.utf8EncodeChar c, b ∈ data := by
  induction data using pieces_induction with
  | nil => simp at h
  | char d r ih =>
    rw [units_utf8EncodeChar_append] at h
    intro b hb
    rcases List.mem_cons.mp h with h | h
    · cases h
      exact List.mem_append_left _ hb
    · exact List.mem_append_right _ (ih h b hb)
  | invalid x r hx ih =>
    rw [units_cons_of_invalid hx] at h
    intro b hb
    rcases List.mem_cons.mp h with h | h
    · cases h
    · exact List.mem_cons_of_mem _ (ih h b hb)

theorem mem_mergeRuns {c : Char} {inRun : Bool} {u : List (Option Char)}
    (h : c ∈ mergeRuns inRun u) : c = replacement ∨ some c ∈ u := by
  induction u generalizing inRun with
  | nil => cases inRun <;> simp [mergeRuns] at h
  | cons x u ih =>
    cases x <;> cases inRun <;> simp only [mergeRuns, List.mem_cons] at h ⊢ <;> grind

theorem newline_not_mem_repaired {data : Bytes} (h : 0x0A ∉ data) : '\n' ∉ repaired data := by
  intro hmem
  rcases mem_mergeRuns hmem with hc | hc
  · exact absurd hc (by decide)
  · exact h (mem_of_mem_units hc 0x0A (List.mem_singleton_self _))

theorem lines_repaired (data : Bytes) :
    Text.lines (repaired data) = (rawLines data).map repaired := by
  induction hn : data.length using Nat.strongRecOn generalizing data with
  | ind n ih =>
    subst hn
    by_cases h : 0x0A ∈ data
    · obtain ⟨a, b, rfl⟩ := List.append_of_mem h
      have ha := ih a.length (by simp only [List.length_append, List.length_cons]; omega) a rfl
      have hb := ih b.length (by simp only [List.length_append, List.length_cons]; omega) b rfl
      rw [repaired_append_newline, Text.lines_append, ha, hb, rawLines, rawLines, rawLines,
        List.splitOn_append_cons_self, List.map_append]
    · rw [rawLines, List.splitOn_eq_singleton h, Text.lines,
        Text.split_of_not_mem (newline_not_mem_repaired h)]
      rfl

/-- A text without its leading byte-order mark has the same lines, the first without that mark. -/
theorem lines_dropMark (t : Text) :
    Text.lines (dropMark t) =
      (Text.lines t).modifyHead fun line => if line.head? = some mark then line.tail else line := by
  cases t with
  | nil => rfl
  | cons c t =>
    by_cases hc : c = '\n'
    · subst hc
      rw [dropMark, if_neg (by decide), Text.lines, Text.split_cons_self]
      rfl
    · obtain ⟨first, others, ht, hct⟩ := Text.split_cons_of_ne hc t
      rw [dropMark, Text.lines, Text.lines, hct, List.modifyHead_cons]
      by_cases hmark : c = mark
      · rw [if_pos hmark, if_pos (by rw [hmark]; rfl), ht, List.tail_cons]
      · rw [if_neg hmark, if_neg (by simpa using hmark), hct]

theorem forall₂_repairs_iff {raw : List Bytes} {texts : List Text} :
    List.Forall₂ Repairs raw texts ↔ texts = raw.map repaired := by
  have hrel : Repairs = fun data t => repaired data = t := by
    funext data t
    exact propext (repairs_iff.trans eq_comm)
  rw [hrel, ← List.forall₂_map_left_iff, List.forall₂_eq_eq_eq, eq_comm]

/-- The lines of a decoded file are the lines of its bytes, each repaired in the one way there is,
the first without the byte-order mark it may start with. -/
theorem lines_decode (data : Bytes) :
    (Text.lines (decode data)).length = (rawLines data).length ∧
      ∃ texts, (∀ ts, List.Forall₂ Repairs (rawLines data) ts ↔ ts = texts) ∧
        Text.lines (decode data) =
          texts.modifyHead fun line => if line.head? = some mark then line.tail else line := by
  have hlines : Text.lines (decode data) = ((rawLines data).map repaired).modifyHead
      fun line => if line.head? = some mark then line.tail else line := by
    rw [decode_eq_dropMark, lines_dropMark, lines_repaired]
  refine ⟨?_, (rawLines data).map repaired, fun ts => forall₂_repairs_iff, hlines⟩
  rw [hlines, List.length_modifyHead, List.length_map]

end ObjcOutline.Utf8
