import ObjcOutline.Proofs.Loosening

/-!
# Indentation, trailing blanks and line endings

A text is laid out anew by spaces and tabs at the two ends of its lines and by carriage returns
before its line feeds. Line by line these are chosen freely. Each line of the new text is a padded
line of the old one and stands at the same place, so the lines give the same entries and the text
has the same skeleton, whatever line endings it had at first.
-/
namespace ObjcOutline

open Text

/-- What is added to a line: spaces and tabs at both ends, and a carriage return before the line
feed that ends the line. -/
structure Spacing where
  before : Text
  after : Text
  withReturn : Bool
  isIndent_before : IsIndent before
  isIndent_after : IsIndent after

namespace Spacing

def padLine (s : Spacing) (line : Text) : Text := s.before ++ (line ++ s.after)

/-- How the line ends if another one follows it. -/
def lineEnd (s : Spacing) : Text := if s.withReturn then ['\r', '\n'] else ['\n']

/-- The text of the given lines, each with its spacing. The last line has no line feed. -/
def layOut : (Nat → Spacing) → List Text → Text
  | _, [] => []
  | spacing, [line] => (spacing 0).padLine line
  | spacing, line :: next :: below =>
    (spacing 0).padLine line ++
      ((spacing 0).lineEnd ++ layOut (fun i => spacing (i + 1)) (next :: below))

end Spacing

/-- The text with the spacing of every line added to it; the lines are counted from zero. -/
def Text.respace (src : Text) (spacing : Nat → Spacing) : Text :=
  Spacing.layOut spacing (lines src)

example : Text.respace "a\nb" (fun _ => ⟨['\t'], [' '], true, by decide, by decide⟩) =
    "\ta \r\n\tb ".toList := by decide

theorem Text.Loosened.of_padded {ls padded : List Text} (h : List.Forall₂ Padded ls padded) :
    Loosened ls padded := by
  induction h with
  | nil => exact .nil
  | cons hline _ ih => exact .line hline ih

namespace Spacing

theorem padded_padLine (s : Spacing) (line : Text) : Padded line (s.padLine line) :=
  ⟨s.before, s.after, s.isIndent_before, s.isIndent_after.isTrailing, rfl⟩

theorem exists_padded (s : Spacing) (line : Text) :
    ∃ padded, Padded line padded ∧ s.padLine line ++ s.lineEnd = padded ++ ['\n'] := by
  unfold lineEnd
  split_ifs
  · refine ⟨s.padLine line ++ ['\r'], ⟨s.before, s.after ++ ['\r'], s.isIndent_before, ?_, ?_⟩, ?_⟩
    · intro c hc
      rcases List.mem_append.mp hc with hc | hc
      · exact s.isIndent_after.isTrailing c hc
      · exact .inr (.inr (List.mem_singleton.mp hc))
    · simp [padLine]
    · simp
  · exact ⟨s.padLine line, s.padded_padLine line, rfl⟩

theorem exists_layOut_eq (spacing : Nat → Spacing) (line : Text) (below : List Text) :
    ∃ first others, List.Forall₂ Padded (line :: below) (first :: others) ∧
      layOut spacing (line :: below) = first ++ Text.below others := by
  induction below generalizing spacing line with
  | nil =>
    refine ⟨_, [], .cons ((spacing 0).padded_padLine line) .nil, ?_⟩
    rw [layOut, below_nil, List.append_nil]
  | cons next below ih =>
    obtain ⟨first, hfirst, hend⟩ := (spacing 0).exists_padded line
    obtain ⟨second, others, hothers, hbelow⟩ := ih (fun i => spacing (i + 1)) next
    refine ⟨first, second :: others, .cons hfirst hothers, ?_⟩
    rw [layOut, hbelow, ← List.append_assoc, hend, List.append_assoc]
    rfl

end Spacing

/-- Each line of the new text is a line of the old one, padded. -/
theorem Text.forall₂_padded_lines_respace (src : Text) (spacing : Nat → Spacing) :
    List.Forall₂ Padded (lines src) (lines (src.respace spacing)) := by
  obtain ⟨line, below, hlines⟩ := List.exists_cons_of_ne_nil (split_ne_nil '\n' src)
  obtain ⟨first, others, hpadded, heq⟩ := Spacing.exists_layOut_eq spacing line below
  have hfeed : ∀ l ∈ line :: below, '\n' ∉ l := by
    intro l hl
    exact not_mem_of_mem_lines (hlines ▸ hl)
  have hnot := (Loosened.of_padded hpadded).not_mem hfeed
  rw [List.forall_mem_cons] at hnot
  rw [respace, lines, hlines, heq, lines_append_below hnot.1 hnot.2]
  exact hpadded

theorem Entry.ofLines_padded {ls padded : List Text} (h : List.Forall₂ Padded ls padded)
    (hls : ∀ l ∈ ls, '\n' ∉ l) (number : Nat) : ofLines number padded = ofLines number ls := by
  induction h generalizing number with
  | nil => rfl
  | cons hline hbelow ih =>
    rw [List.forall_mem_cons] at hls
    rw [ofLines, ofLines, ih hls.2, ofLine?_loosened hline (.of_padded hbelow) hls.1 hls.2]

/-- Extraction ignores indentation, trailing blanks and the style of the line endings. -/
theorem ofSource_respace (rootType path src : Text) (spacing : Nat → Spacing) :
    Skeleton.ofSource rootType path (src.respace spacing) =
      Skeleton.ofSource rootType path src := by
  rw [Skeleton.ofSource_eq_ofEntries, Skeleton.ofSource_eq_ofEntries,
    Entry.ofLines_padded (src.forall₂_padded_lines_respace spacing) fun _ => not_mem_of_mem_lines]

end ObjcOutline
