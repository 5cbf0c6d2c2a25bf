import ObjcOutline.Proofs.Scanning

/-!
# Patterns

A pattern is matched at the start of a text, and most patterns match there in several ways. The ways
are tried one after another: a repetition takes all it can before it takes less, unless it is
reluctant and takes as little as it can before it takes more, an optional part is taken before it is
left out, and the first of two alternatives goes before the second. A way that the rest of the
pattern cannot continue is given up for the next one. So all ways of a pattern are listed in the order
in which they are tried, and the first of them is the match.

Nothing is given up after a repetition when what follows it cannot start within the repetition. Then
a pattern is matched from left to right, part by part. Where ways are given up, it is often enough
that all of them agree on what is read off the match.
-/
namespace ObjcOutline

open Text

/-- What the groups of a pattern captured, and what follows the match. A group in a part that was
left out has captured nothing. -/
structure Match where
  groups : List (Option Text)
  rest : Text
deriving DecidableEq, Repr

namespace Match

/-- What a group captured, the groups counted from zero. -/
def group? (m : Match) (i : Nat) : Option Text := m.groups.getD i none

/-- What a group captured, or the empty text. -/
def group (m : Match) (i : Nat) : Text := (m.group? i).getD []

/-- A match that goes on where another one stops. -/
def followedBy (m next : Match) : Match := ⟨m.groups ++ next.groups, next.rest⟩

@[simp] theorem nil_followedBy (r : Text) (next : Match) : (⟨[], r⟩ : Match).followedBy next = next :=
  rfl

@[simp] theorem rest_followedBy (m next : Match) : (m.followedBy next).rest = next.rest := rfl

theorem followedBy_followedBy (a b : Match) :
    (a.followedBy b).followedBy = fun c => a.followedBy (b.followedBy c) := by
  funext c
  simp [followedBy]

end Match

/-- What is repeated is always a single character of a class. -/
inductive Pattern
  | literal (word : Text)
  | one (p : Char → Bool)
  /-- Any number of characters, as many as possible first. -/
  | many (p : Char → Bool)
  /-- Any number of characters, as few as possible first. -/
  | fewest (p : Char → Bool)
  | seq (first second : Pattern)
  | alt (first second : Pattern)
  | opt (inner : Pattern)
  | group (inner : Pattern)
  | textEnd

namespace Pattern

/-- At least one character, as many as possible first. -/
def run (p : Char → Bool) : Pattern := seq (one p) (many p)

/-- At least one character, as few as possible first. -/
def shortRun (p : Char → Bool) : Pattern := seq (one p) (fewest p)

def groupCount : Pattern → Nat
  | seq a b | alt a b => a.groupCount + b.groupCount
  | opt a => a.groupCount
  | group a => a.groupCount + 1
  | _ => 0

/-- What may be left when characters of a class are taken, the longest run first. -/
def runs (p : Char → Bool) : Text → List Text
  | [] => [[]]
  | c :: r => if p c then runs p r ++ [c :: r] else [c :: r]

/-- The text in front of what is left of it. -/
def before (t rest : Text) : Text := t.take (t.length - rest.length)

/-- The ways in which a pattern matches at the start of a text, in the order in which they are
tried. -/
@[simp] def ways : Pattern → Text → List Match
  | literal word, t => ((after? word t).map (Match.mk [])).toList
  | one _, [] => []
  | one p, c :: r => if p c then [⟨[], r⟩] else []
  | many p, t => (runs p t).map (Match.mk [])
  | fewest p, t => (runs p t).reverse.map (Match.mk [])
  | seq a b, t => (ways a t).flatMap fun m => (ways b m.rest).map m.followedBy
  | alt a b, t =>
    (ways a t).map (fun m => ⟨m.groups ++ List.replicate b.groupCount none, m.rest⟩) ++
      (ways b t).map (fun m => ⟨List.replicate a.groupCount none ++ m.groups, m.rest⟩)
  | opt a, t => ways a t ++ [⟨List.replicate a.groupCount none, t⟩]
  | group a, t => (ways a t).map fun m => ⟨some (before t m.rest) :: m.groups, m.rest⟩
  | textEnd, t => if t = [] then [⟨[], []⟩] else []

/-- The match at the start of a text. -/
def match? (a : Pattern) (t : Text) : Option Match := (a.ways t).head?

/-- The match that starts first in a text. -/
def search? (a : Pattern) : Text → Option Match
  | [] => a.match? []
  | c :: r => (a.match? (c :: r)).or (a.search? r)

@[simp] theorem before_append (u r : Text) : before (u ++ r) r = u := by simp [before]

theorem mem_runs {p : Char → Bool} {t r : Text} :
    r ∈ runs p t ↔ ∃ u, (∀ c ∈ u, p c = true) ∧ t = u ++ r := by
  induction t with
  | nil =>
    constructor
    · intro h
      obtain rfl := List.mem_singleton.mp h
      exact ⟨[], by simp, rfl⟩
    · rintro ⟨u, -, h⟩
      simp_all [runs]
  | cons c t ih =>
    have hstop : (∃ u, (∀ d ∈ u, p d = true) ∧ c :: t = u ++ r) ↔
        r = c :: t ∨ p c = true ∧ ∃ u, (∀ d ∈ u, p d = true) ∧ t = u ++ r := by
      constructor
      · rintro ⟨u, hu, heq⟩
        cases u with
        | nil => exact .inl heq.symm
        | cons d u =>
          obtain ⟨rfl, rfl⟩ := List.cons.inj heq
          obtain ⟨hc, hu⟩ := List.forall_mem_cons.mp hu
          exact .inr ⟨hc, u, hu, rfl⟩
      · rintro (rfl | ⟨hc, u, hu, rfl⟩)
        · exact ⟨[], by simp, rfl⟩
        · exact ⟨c :: u, List.forall_mem_cons.mpr ⟨hc, hu⟩, rfl⟩
    rw [hstop, ← ih, runs]
    split_ifs with hc
    · simp [hc, or_comm]
    · simp [hc]

theorem head?_runs (p : Char → Bool) (t : Text) : (runs p t).head? = some (t.dropWhile p) := by
  induction t with
  | nil => rfl
  | cons c t ih =>
    rw [runs]
    split_ifs with hc
    · rw [List.head?_append, ih, Option.some_or, List.dropWhile_cons_of_pos hc]
    · rw [List.head?_cons, List.dropWhile_cons_of_neg hc]

section Ways
variable {a b : Pattern} {p : Char → Bool} {t word : Text} {m : Match}

theorem mem_ways_literal : m ∈ ways (literal word) t ↔ ∃ r, t = word ++ r ∧ m = ⟨[], r⟩ := by
  rw [ways, Option.mem_toList, Option.map_eq_some_iff]
  constructor
  · rintro ⟨r, hr, rfl⟩
    exact ⟨r, after?_eq_some hr, rfl⟩
  · rintro ⟨r, rfl, rfl⟩
    exact ⟨r, after?_append word r, rfl⟩

theorem mem_ways_one : m ∈ ways (one p) t ↔ ∃ c r, p c = true ∧ t = c :: r ∧ m = ⟨[], r⟩ := by
  cases t with
  | nil => simp [ways]
  | cons c r =>
    rw [ways]
    split_ifs with hc
    · simp [hc]
    · simp [hc]

theorem mem_ways_many :
    m ∈ ways (many p) t ↔ ∃ u r, (∀ c ∈ u, p c = true) ∧ t = u ++ r ∧ m = ⟨[], r⟩ := by
  simp only [ways, List.mem_map, mem_runs]
  constructor
  · rintro ⟨r, ⟨u, hu, rfl⟩, rfl⟩
    exact ⟨u, r, hu, rfl, rfl⟩
  · rintro ⟨u, r, hu, rfl, rfl⟩
    exact ⟨r, ⟨u, hu, rfl⟩, rfl⟩

theorem mem_ways_fewest :
    m ∈ ways (fewest p) t ↔ ∃ u r, (∀ c ∈ u, p c = true) ∧ t = u ++ r ∧ m = ⟨[], r⟩ := by
  rw [← mem_ways_many]
  simp [ways]

theorem mem_ways_seq :
    m ∈ ways (seq a b) t ↔ ∃ x ∈ ways a t, ∃ y ∈ ways b x.rest, m = x.followedBy y := by
  simp only [ways, List.mem_flatMap, List.mem_map, eq_comm]

theorem mem_ways_alt : m ∈ ways (alt a b) t ↔
    (∃ x ∈ ways a t, m = ⟨x.groups ++ List.replicate b.groupCount none, x.rest⟩) ∨
      ∃ x ∈ ways b t, m = ⟨List.replicate a.groupCount none ++ x.groups, x.rest⟩ := by
  simp only [ways, List.mem_append, List.mem_map, eq_comm]

theorem mem_ways_opt :
    m ∈ ways (opt a) t ↔ m ∈ ways a t ∨ m = ⟨List.replicate a.groupCount none, t⟩ := by
  simp [ways]

theorem mem_ways_group : m ∈ ways (group a) t ↔
    ∃ x ∈ ways a t, m = ⟨some (before t x.rest) :: x.groups, x.rest⟩ := by
  simp only [ways, List.mem_map, eq_comm]

theorem mem_ways_many_seq : m ∈ ways (seq (many p) b) t ↔
    ∃ u r, (∀ c ∈ u, p c = true) ∧ t = u ++ r ∧ m ∈ ways b r := by
  rw [mem_ways_seq]
  constructor
  · rintro ⟨_, hx, y, hy, rfl⟩
    obtain ⟨u, r, hu, rfl, rfl⟩ := mem_ways_many.mp hx
    exact ⟨u, r, hu, rfl, hy⟩
  · rintro ⟨u, r, hu, rfl, hm⟩
    exact ⟨⟨[], r⟩, mem_ways_many.mpr ⟨u, r, hu, rfl, rfl⟩, m, hm, rfl⟩

/-- A repetition takes at least one character. -/
theorem mem_ways_run : m ∈ ways (run p) t ↔
    ∃ u r, u ≠ [] ∧ (∀ c ∈ u, p c = true) ∧ t = u ++ r ∧ m = ⟨[], r⟩ := by
  simp only [run, mem_ways_seq, mem_ways_one, mem_ways_many]
  constructor
  · rintro ⟨_, ⟨c, _, hc, rfl, rfl⟩, _, ⟨u, r, hu, rfl, rfl⟩, rfl⟩
    exact ⟨c :: u, r, List.cons_ne_nil c u, List.forall_mem_cons.mpr ⟨hc, hu⟩, rfl, rfl⟩
  · rintro ⟨u, r, hne, hu, rfl, rfl⟩
    obtain ⟨c, u, rfl⟩ := List.exists_cons_of_ne_nil hne
    obtain ⟨hc, hu⟩ := List.forall_mem_cons.mp hu
    exact ⟨_, ⟨c, u ++ r, hc, rfl, rfl⟩, _, ⟨u, r, hu, rfl, rfl⟩, rfl⟩

theorem mem_ways_shortRun : m ∈ ways (shortRun p) t ↔ m ∈ ways (run p) t := by
  simp only [shortRun, run, mem_ways_seq, mem_ways_fewest, mem_ways_many]

theorem mem_ways_group_run : m ∈ ways (group (run p)) t ↔
    ∃ u r, u ≠ [] ∧ (∀ c ∈ u, p c = true) ∧ t = u ++ r ∧ m = ⟨[some u], r⟩ := by
  simp only [mem_ways_group, mem_ways_run]
  constructor
  · rintro ⟨_, ⟨u, r, hne, hu, rfl, rfl⟩, rfl⟩
    exact ⟨u, r, hne, hu, rfl, by simp⟩
  · rintro ⟨u, r, hne, hu, rfl, rfl⟩
    exact ⟨_, ⟨u, r, hne, hu, rfl, rfl⟩, by simp⟩

theorem mem_ways_group_shortRun :
    m ∈ ways (group (shortRun p)) t ↔ m ∈ ways (group (run p)) t := by
  simp only [mem_ways_group, mem_ways_shortRun]

end Ways

theorem match?_eq_none_iff {a : Pattern} {t : Text} : a.match? t = none ↔ a.ways t = [] :=
  List.head?_eq_none_iff

theorem mem_ways_of_match? {a : Pattern} {t : Text} {m : Match} (h : a.match? t = some m) :
    m ∈ a.ways t := List.mem_of_head? h

/-- When all ways agree on what is read off them, the match is read off any of them. -/
theorem map_match?_eq {α : Type} {a : Pattern} {t : Text} {f : Match → α} {found : Option α}
    (hall : ∀ m ∈ a.ways t, found = some (f m)) (hsome : found.isSome = true → a.ways t ≠ []) :
    (a.match? t).map f = found := by
  cases hmatch : a.match? t with
  | some m => exact (hall m (mem_ways_of_match? hmatch)).symm
  | none =>
    cases found with
    | none => rfl
    | some x => exact absurd (match?_eq_none_iff.mp hmatch) (hsome rfl)

theorem match?_seq (a b : Pattern) (t : Text) : (seq a b).match? t =
    (a.ways t).findSome? fun m => (b.match? m.rest).map m.followedBy := by
  simp only [match?, ways, List.head?_flatMap, List.head?_map]

theorem match?_seq_assoc (a b c : Pattern) (t : Text) :
    (seq (seq a b) c).match? t = (seq a (seq b c)).match? t := by
  simp only [match?, ways, List.flatMap_assoc, List.flatMap_map, List.map_flatMap, List.map_map,
    Function.comp_def, Match.followedBy_followedBy, Match.rest_followedBy]

/-- The match of a part is kept when the rest of the pattern can follow no other way of the part. -/
theorem match?_seq_of_settled {a b : Pattern} {t : Text} {x : Match} (hx : a.match? t = some x)
    (h : ∀ y ∈ a.ways t, y.rest ≠ x.rest → b.match? y.rest = none) :
    (seq a b).match? t = (b.match? x.rest).map x.followedBy := by
  obtain ⟨others, hways⟩ := List.head?_eq_some_iff.mp hx
  rw [match?_seq, hways, List.findSome?_cons]
  cases hb : b.match? x.rest with
  | some z => rfl
  | none =>
    rw [Option.map_none, List.findSome?_eq_none_iff]
    intro y hy
    by_cases hrest : y.rest = x.rest
    · rw [hrest, hb, Option.map_none]
    · rw [h y (hways ▸ List.mem_cons_of_mem x hy) hrest, Option.map_none]

theorem match?_seq_of_some {a b : Pattern} {t : Text} {x y : Match} (hx : a.match? t = some x)
    (hy : b.match? x.rest = some y) : (seq a b).match? t = some (x.followedBy y) := by
  obtain ⟨others, hways⟩ := List.head?_eq_some_iff.mp hx
  rw [match?_seq, hways, List.findSome?_cons, hy, Option.map_some]

theorem match?_seq_of_none {a b : Pattern} {t : Text} (h : a.match? t = none) :
    (seq a b).match? t = none := by
  rw [match?_seq, match?_eq_none_iff.mp h, List.findSome?_nil]

theorem match?_group (a : Pattern) (t : Text) : (group a).match? t =
    (a.match? t).map fun m => ⟨some (before t m.rest) :: m.groups, m.rest⟩ := by
  simp only [match?, ways, List.head?_map]

theorem match?_opt (a : Pattern) (t : Text) : (opt a).match? t =
    some ((a.match? t).getD ⟨List.replicate a.groupCount none, t⟩) := by
  simp only [match?, ways, List.head?_append, List.head?_cons]
  cases (a.ways t).head? <;> rfl

theorem match?_opt_seq (a b : Pattern) (t : Text) : (seq (opt a) b).match? t =
    ((seq a b).match? t).or
      ((b.match? t).map (Match.followedBy ⟨List.replicate a.groupCount none, t⟩)) := by
  simp only [match?_seq, ways, List.findSome?_append, List.findSome?_cons, List.findSome?_nil]
  cases b.match? t <;> rfl

@[simp] theorem match?_literal (word t : Text) :
    (literal word).match? t = (after? word t).map (Match.mk []) := by
  rw [match?, ways]
  cases after? word t <;> rfl

theorem match?_literal_eq_bind (word t : Text) :
    (literal word).match? t = (after? word t).bind fun r => some ⟨[], r⟩ := by
  rw [match?_literal, Option.map_eq_bind]
  rfl

@[simp] theorem match?_literal_seq (word : Text) (b : Pattern) (t : Text) :
    (seq (literal word) b).match? t = (after? word t).bind b.match? := by
  rw [match?_seq, ways]
  cases after? word t with
  | none => rfl
  | some r =>
    rw [Option.map_some, Option.toList_some, List.findSome?_cons, List.findSome?_nil,
      Option.bind_some]
    cases hb : b.match? r <;> rfl

theorem match?_many (p : Char → Bool) (t : Text) :
    (many p).match? t = some ⟨[], t.dropWhile p⟩ := by
  rw [match?, ways, List.head?_map, head?_runs, Option.map_some]

theorem match?_run (p : Char → Bool) (t : Text) :
    (run p).match? t = if t.takeWhile p = [] then none else some ⟨[], t.dropWhile p⟩ := by
  rw [run, match?_seq]
  cases t with
  | nil => rfl
  | cons c r =>
    by_cases hc : p c = true
    · simp [ways, hc, match?_many]
    · simp [ways, hc]

theorem before_dropWhile (p : Char → Bool) (t : Text) : before t (t.dropWhile p) = t.takeWhile p := by
  conv_lhs => enter [1]; rw [← List.takeWhile_append_dropWhile (p := p) (l := t)]
  exact before_append _ _

theorem match?_group_many (p : Char → Bool) (t : Text) :
    (group (many p)).match? t = some ⟨[some (t.takeWhile p)], t.dropWhile p⟩ := by
  rw [match?_group, match?_many, Option.map_some, before_dropWhile]

theorem match?_group_run (p : Char → Bool) (t : Text) : (group (run p)).match? t =
    if t.takeWhile p = [] then none else some ⟨[some (t.takeWhile p)], t.dropWhile p⟩ := by
  rw [match?_group, match?_run]
  split_ifs
  · rfl
  · rw [Option.map_some, before_dropWhile]

/-- A run that is cut short leaves a text that starts with one of its characters. -/
theorem startsInside {p : Char → Bool} {u r : Text} (hu : ∀ c ∈ u, p c = true)
    (hne : r ≠ (u ++ r).dropWhile p) : ∃ c s, p c = true ∧ r = c :: s := by
  rw [List.dropWhile_append_of_pos hu] at hne
  cases r with
  | nil => exact absurd rfl hne
  | cons c s =>
    refine ⟨c, s, by_contra fun hc => hne ?_, rfl⟩
    rw [List.dropWhile_cons_of_neg hc]

section Settled
variable {p : Char → Bool} {b : Pattern} (h : ∀ c r, p c = true → b.match? (c :: r) = none)
include h

/-- What follows a run and cannot start within it is matched after all of it. -/
theorem match?_seq_of_runs {a : Pattern} {t : Text} {x : Match} (hx : a.match? t = some x)
    (hrest : x.rest = t.dropWhile p)
    (hruns : ∀ y ∈ a.ways t, ∃ u, (∀ c ∈ u, p c = true) ∧ t = u ++ y.rest) :
    (seq a b).match? t = (b.match? x.rest).map x.followedBy := by
  apply match?_seq_of_settled hx
  intro y hy hne
  obtain ⟨u, hu, rfl⟩ := hruns y hy
  obtain ⟨c, s, hc, hs⟩ := startsInside hu (hrest ▸ hne)
  rw [hs, h c s hc]

theorem match?_many_seq (t : Text) : (seq (many p) b).match? t = b.match? (t.dropWhile p) := by
  rw [match?_seq_of_runs h (match?_many p t) rfl]
  · cases b.match? (t.dropWhile p) <;> rfl
  · intro y hy
    obtain ⟨u, r, hu, ht, rfl⟩ := mem_ways_many.mp hy
    exact ⟨u, hu, ht⟩

theorem match?_run_seq (t : Text) : (seq (run p) b).match? t =
    if t.takeWhile p = [] then none else b.match? (t.dropWhile p) := by
  have hrun := match?_run p t
  split_ifs at hrun ⊢ with hnil
  · exact match?_seq_of_none hrun
  · rw [match?_seq_of_runs h hrun rfl]
    · cases b.match? (t.dropWhile p) <;> rfl
    · intro y hy
      obtain ⟨u, r, -, hu, ht, rfl⟩ := mem_ways_run.mp hy
      exact ⟨u, hu, ht⟩

theorem match?_group_many_seq (t : Text) : (seq (group (many p)) b).match? t =
    (b.match? (t.dropWhile p)).map (Match.followedBy ⟨[some (t.takeWhile p)], t.dropWhile p⟩) := by
  refine match?_seq_of_runs h (match?_group_many p t) rfl fun y hy => ?_
  obtain ⟨x, hx, rfl⟩ := mem_ways_group.mp hy
  obtain ⟨u, r, hu, ht, rfl⟩ := mem_ways_many.mp hx
  exact ⟨u, hu, ht⟩

theorem match?_group_run_seq (t : Text) : (seq (group (run p)) b).match? t =
    if t.takeWhile p = [] then none
    else (b.match? (t.dropWhile p)).map
      (Match.followedBy ⟨[some (t.takeWhile p)], t.dropWhile p⟩) := by
  have hrun := match?_group_run p t
  split_ifs at hrun ⊢ with hnil
  · exact match?_seq_of_none hrun
  · refine match?_seq_of_runs h hrun rfl fun y hy => ?_
    obtain ⟨u, r, -, hu, ht, rfl⟩ := mem_ways_group_run.mp hy
    exact ⟨u, hu, ht⟩

end Settled

theorem takeWhile_of_startsOutside {p : Char → Bool} {t : Text} (h : StartsOutside p t) :
    t.takeWhile p = [] := by
  cases t with
  | nil => rfl
  | cons c r => simp [startsOutside_cons.mp h]

/-- Any number of blanks. -/
def blanks : Pattern := many isBlank

/-- At least one blank. -/
def gap : Pattern := run isBlank

/-- A captured word. -/
def word : Pattern := group (run isWordChar)

/-- What starts with a literal does not start with a character of a class that its first character is
not in. -/
theorem match?_literal_seq_eq_none {p : Char → Bool} {d : Char} (hd : p d = false) (start : Text)
    (b : Pattern) (c : Char) (r : Text) (hc : p c = true) :
    (seq (literal (d :: start)) b).match? (c :: r) = none := by
  have hne : d ≠ c := by
    rintro rfl
    rw [hd] at hc
    cases hc
  rw [match?_literal_seq, after?, if_neg hne, Option.bind_none]

theorem match?_literal_eq_none {p : Char → Bool} {d : Char} (hd : p d = false) (start : Text)
    (c : Char) (r : Text) (hc : p c = true) : (literal (d :: start)).match? (c :: r) = none := by
  have hne : d ≠ c := by
    rintro rfl
    rw [hd] at hc
    cases hc
  rw [match?_literal, after?, if_neg hne, Option.map_none]

theorem word?_eq_ite (t : Text) : word? t =
    if t.takeWhile isWordChar = [] then none
    else some (t.takeWhile isWordChar, t.dropWhile isWordChar) := by
  unfold word?
  split
  next h => rw [if_pos h]
  next c w h => rw [if_neg (by simp [h]), h]

theorem match?_word (t : Text) :
    word.match? t = (word? t).map fun x => ⟨[some x.1], x.2⟩ := by
  rw [word, match?_group_run, word?_eq_ite]
  split_ifs <;> rfl

theorem match?_word_of_isBlank (c : Char) (r : Text) (hc : isBlank c = true) :
    word.match? (c :: r) = none := by
  have hword : isWordChar c = false :=
    Bool.eq_false_iff.mpr fun h => by rw [isBlank_eq_false_of_isWordChar h] at hc; cases hc
  rw [word, match?_group_run, if_pos (List.takeWhile_cons_of_neg (by simp [hword]))]

theorem match?_blanks_seq {b : Pattern} (h : ∀ c r, isBlank c = true → b.match? (c :: r) = none)
    (t : Text) : (seq blanks b).match? t = b.match? (skipBlanks t) := match?_many_seq h t

theorem match?_gap_seq {b : Pattern} (h : ∀ c r, isBlank c = true → b.match? (c :: r) = none)
    (t : Text) : (seq gap b).match? t = (skipBlanks? t).bind b.match? := by
  rw [gap, match?_run_seq h]
  cases t with
  | nil => rfl
  | cons c r =>
    rw [skipBlanks?]
    by_cases hc : isBlank c = true
    · rw [if_neg (by simp [hc]), if_pos hc, Option.bind_some, List.dropWhile_cons_of_pos hc, skipBlanks]
    · rw [if_pos (List.takeWhile_cons_of_neg hc), if_neg hc, Option.bind_none]

theorem match?_word_seq {b : Pattern} (h : ∀ c r, isWordChar c = true → b.match? (c :: r) = none)
    (t : Text) : (seq word b).match? t =
      (word? t).bind fun x => (b.match? x.2).map (Match.followedBy ⟨[some x.1], x.2⟩) := by
  rw [word, match?_group_run_seq h, word?_eq_ite]
  split_ifs <;> rfl

/-- A step that goes on after one character and fails where it does not stand. -/
theorem eq_bind_after? {α : Type} {d : Char} {f g : Text → Option α} (hd : ∀ r, g (d :: r) = f r)
    (hother : ∀ s, (∀ r, s ≠ d :: r) → g s = none) (s : Text) : g s = (after? [d] s).bind f := by
  cases s with
  | nil => exact hother [] fun r => (List.cons_ne_nil d r).symm
  | cons c r =>
    by_cases hc : d = c
    · rw [← hc, hd, after?, if_pos rfl]
      rfl
    · rw [hother (c :: r) fun _ heq => hc (List.cons.inj heq).1.symm, after?, if_neg hc,
        Option.bind_none]

theorem parenthesised?_eq_bind (t : Text) :
    parenthesised? t = (after? ['('] (skipBlanks t)).bind (cut? (· == ')')) := by
  unfold parenthesised?
  generalize skipBlanks t = s
  revert s
  refine eq_bind_after? (fun _ => rfl) fun s hs => ?_
  split
  · exact absurd rfl (hs _)
  · rfl

theorem cut?_beq_eq (d : Char) (t : Text) : cut? (· == d) t =
    (after? [d] (t.dropWhile (· != d))).map fun r => (t.takeWhile (· != d), r) := by
  induction t with
  | nil => rfl
  | cons c t ih =>
    by_cases hc : c = d
    · simp [cut?, after?, hc]
    · simp [cut?, hc, ih, Function.comp_def]

section Closing
variable {d : Char} {b : Pattern} {f : Text → Option Match}
  (hb : ∀ s, b.match? s = (after? [d] s).bind f)
include hb

theorem match?_eq_none_of_closing (c : Char) (r : Text) (hc : (c != d) = true) :
    b.match? (c :: r) = none := by
  rw [hb, after?, if_neg (Ne.symm (bne_iff_ne.mp hc)), Option.bind_none]

/-- A character that a class leaves out ends a run of the class. -/
theorem match?_closing (t : Text) : (seq (many (· != d)) b).match? t =
    (cut? (· == d) t).bind fun x => f x.2 := by
  rw [match?_many_seq (match?_eq_none_of_closing hb), hb, cut?_beq_eq]
  cases after? [d] (t.dropWhile (· != d)) <;> rfl

theorem match?_group_closing (t : Text) : (seq (group (many (· != d))) b).match? t =
    (cut? (· == d) t).bind fun x => (f x.2).map fun m => ⟨some x.1 :: m.groups, m.rest⟩ := by
  rw [match?_group_many_seq (match?_eq_none_of_closing hb), hb, cut?_beq_eq]
  cases after? [d] (t.dropWhile (· != d)) <;> rfl

theorem match?_group_run_closing (t : Text) : (seq (group (run (· != d))) b).match? t =
    ((cut? (· == d) t).filter (!·.1.isEmpty)).bind fun x =>
      (f x.2).map fun m => ⟨some x.1 :: m.groups, m.rest⟩ := by
  rw [match?_group_run_seq (match?_eq_none_of_closing hb), hb, cut?_beq_eq]
  cases after? [d] (t.dropWhile (· != d)) with
  | none => simp
  | some r =>
    split_ifs with hnil
    · simp [Option.filter_some, hnil]
    · have hsome : (!(t.takeWhile (· != d)).isEmpty) = true := by simpa using hnil
      simp only [Option.map_some, Option.filter_some, if_pos hsome, Option.bind_some]
      rfl

end Closing

/-- One captured character of a class. -/
theorem match?_group_one_seq (p : Char → Bool) (b : Pattern) (t : Text) :
    (seq (group (one p)) b).match? t = t.head?.bind fun c =>
      if p c then (b.match? t.tail).map fun m => ⟨some [c] :: m.groups, m.rest⟩ else none := by
  cases t with
  | nil => rfl
  | cons c r =>
    by_cases hc : p c = true
    · have hbefore : before (c :: r) r = [c] := before_append [c] r
      simp only [match?_seq, ways, if_pos hc, List.map_cons, List.map_nil, hbefore,
        List.findSome?_cons, List.findSome?_nil, List.head?_cons, List.tail_cons, Option.bind_some]
      cases b.match? r <;> rfl
    · simp [match?_seq, ways, hc]

/-- One of two captured literals. -/
theorem match?_group_alt_seq (u v : Text) (b : Pattern) (t : Text) :
    (seq (group (alt (literal u) (literal v))) b).match? t =
      ((after? u t).bind fun r => (b.match? r).map (Match.followedBy ⟨[some u], r⟩)).or
        ((after? v t).bind fun r => (b.match? r).map (Match.followedBy ⟨[some v], r⟩)) := by
  have hliteral (w : Text) : ((group (literal w)).ways t).findSome?
      (fun m => (b.match? m.rest).map m.followedBy) =
      (after? w t).bind fun r => (b.match? r).map (Match.followedBy ⟨[some w], r⟩) := by
    simp only [ways]
    cases h : after? w t with
    | none => rfl
    | some r =>
      have hbefore : before t r = w := by rw [after?_eq_some h, before_append]
      simp [hbefore]
  have hways : (group (alt (literal u) (literal v))).ways t =
      (group (literal u)).ways t ++ (group (literal v)).ways t := by
    simp [ways, groupCount]
  rw [match?_seq, hways, List.findSome?_append, hliteral, hliteral]

end Pattern

end ObjcOutline
