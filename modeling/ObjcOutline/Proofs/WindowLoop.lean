import ObjcOutline.Proofs.BlockExtent
import ObjcOutline.Proofs.ShownSymbols

/-!
# Windows as runs of lines

The lines of a window are written one after another, by a loop that counts a 64-bit word up to
another one and looks each line up by its number. `Writes` describes that loop on its own, and
`IsWritten` the text of one line: the loop has no step for a number without a line, and its counter
wraps. It is shown to reach its end for every pair of words, with the text of the window, which is a
run of neighbouring lines of the file. For a centre among the lines and a positive context the bounds
are the ones that ordinary arithmetic gives.
-/
namespace ObjcOutline.Window

def isBetween (low high : Int) (x : Text × Nat) : Bool := low ≤ x.2 && x.2 ≤ high

def linesBetween (lines : List Text) (low high : Int) : List (Text × Nat) :=
  (lines.zipIdx 1).filter (isBetween low high)

/-- The word that the counter starts from. -/
def firstWord (center context : Int64) : Int64 :=
  if center - context / 2 < 1 then 1 else center - context / 2

/-- The word that the counter does not pass, for a list of `count` lines. -/
def lastWord (center context : Int64) (count : Nat) : Int64 :=
  if Int64.ofNat count < center + context / 2 then Int64.ofNat count else center + context / 2

/-- The text of a line in a window: its number, to the right in a column of four characters, a bar,
and the line without the one carriage return that it may end with. -/
def IsWritten (number : Nat) (raw text : Text) : Prop :=
  ∃ line : Text, (raw = line ++ ['\r'] ∨ raw = line ∧ line.getLast? ≠ some '\r') ∧
    text = List.replicate (4 - (Nat.toDigits 10 number).length) ' ' ++ Nat.toDigits 10 number ++
      ['│', ' '] ++ line ++ ['\n']

/-- The loop that writes lines, with its counter at a word. A number that no line has stops the loop
without a result, so nothing can be derived for it. -/
inductive Writes (lines : List Text) (stop : Int64) : Int64 → Text → Prop
  | done {i : Int64} : stop < i → Writes lines stop i []
  | line {i : Int64} {l written text : Text} : i ≤ stop → 0 ≤ (i - 1).toInt →
      lines[(i - 1).toInt.toNat]? = some l → IsWritten i.toInt.toNat l written →
      Writes lines stop (i + 1) text → Writes lines stop i (written ++ text)

theorem isWritten_iff {number : Nat} {raw text : Text} :
    IsWritten number raw text ↔ text = numbered number raw := by
  unfold numbered Text.dropReturn
  constructor
  · rintro ⟨line, rfl | ⟨rfl, hline⟩, rfl⟩
    · rw [if_pos List.getLast?_concat, List.dropLast_concat]
      rfl
    · rw [if_neg hline]
      rfl
  · intro h
    split at h
    · rename_i hreturn
      exact ⟨_, .inl (List.dropLast_append_getLast? _ hreturn).symm, h⟩
    · exact ⟨raw, .inr ⟨rfl, ‹_›⟩, h⟩

theorem forall₂_isWritten (run : List (Text × Nat)) :
    List.Forall₂ (fun x text => IsWritten x.2 x.1 text) run (run.map fun x => numbered x.2 x.1) := by
  rw [List.forall₂_map_right_iff, List.forall₂_same]
  exact fun x _ => isWritten_iff.mpr rfl

theorem toInt_firstWord (center context : Int64) :
    (firstWord center context).toInt = first center context := by
  have hone : (1 : Int64).toInt = 1 := rfl
  unfold firstWord first
  split_ifs with h
  · rw [Int64.lt_iff_toInt_lt, hone] at h
    omega
  · rw [Int64.lt_iff_toInt_lt, hone] at h
    omega

theorem toInt_lastWord (center context : Int64) {count : Nat} (hcount : count < 2 ^ 63) :
    (lastWord center context count).toInt = last center context count := by
  have hword : (Int64.ofNat count).toInt = count := Int64.toInt_ofNat_of_lt hcount
  unfold lastWord last
  split_ifs with h
  · rw [Int64.lt_iff_toInt_lt, hword] at h
    omega
  · rw [Int64.lt_iff_toInt_lt, hword] at h
    omega

theorem isBetween_iff {low high : Int} {x : Text × Nat} :
    isBetween low high x = true ↔ low ≤ x.2 ∧ x.2 ≤ high := by
  rw [isBetween, Bool.and_eq_true, decide_eq_true_iff, decide_eq_true_iff]

theorem linesBetween_eq_nil {low high : Int} (h : high < low) (lines : List Text) :
    linesBetween lines low high = [] := by
  apply List.filter_eq_nil_iff.mpr
  intro x _
  rw [isBetween_iff]
  omega

/-- The first of the numbered lines between two bounds is the one that has the lower bound for its
number. The lines are numbered from `number`, which the induction needs. -/
theorem filter_isBetween_eq_cons {lines : List Text} {number : Nat} {low high : Int} {l : Text}
    (hnumber : number ≤ low) (hle : low ≤ high) (hl : lines[(low - number).toNat]? = some l) :
    (lines.zipIdx number).filter (isBetween low high) =
      (l, low.toNat) :: (lines.zipIdx number).filter (isBetween (low + 1) high) := by
  induction lines generalizing number with
  | nil => cases hl
  | cons raw lines ih =>
    rw [List.zipIdx_cons]
    by_cases heq : low = number
    · have hraw : raw = l := by simpa [heq] using hl
      have hhead : isBetween low high (raw, number) = true := by
        rw [isBetween_iff]
        omega
      have hnext : ¬ isBetween (low + 1) high (raw, number) = true := by
        rw [isBetween_iff]
        omega
      have htail : (lines.zipIdx (number + 1)).filter (isBetween low high) =
          (lines.zipIdx (number + 1)).filter (isBetween (low + 1) high) := by
        apply List.filter_congr
        intro x hx
        have hlater := List.le_snd_of_mem_zipIdx hx
        rw [Bool.eq_iff_iff, isBetween_iff, isBetween_iff]
        omega
      rw [List.filter_cons_of_pos hhead, List.filter_cons_of_neg hnext, htail, hraw, heq,
        Int.toNat_natCast]
    · have hhead (bound : Int) (hbound : low ≤ bound) :
          ¬ isBetween bound high (raw, number) = true := by
        rw [isBetween_iff]
        omega
      have hindex : (low - number).toNat = (low - (number + 1 : Nat)).toNat + 1 := by omega
      rw [hindex, List.getElem?_cons_succ] at hl
      rw [List.filter_cons_of_neg (hhead low le_rfl),
        List.filter_cons_of_neg (hhead (low + 1) (by omega)), ih (by omega) hl]

/-- The loop ends wherever its counter starts, and it has then written the lines from there on. -/
theorem writes_iff {lines : List Text} (hcount : lines.length < 2 ^ 63 - 1) {stop i : Int64}
    (hstop : stop.toInt ≤ lines.length) (hi : 1 ≤ i.toInt) {text : Text} :
    Writes lines stop i text ↔
      text = (linesBetween lines i.toInt stop.toInt).flatMap fun x => numbered x.2 x.1 := by
  induction hn : (stop.toInt + 1 - i.toInt).toNat generalizing i text with
  | zero =>
    have hlt : stop < i := Int64.lt_iff_toInt_lt.mpr (by omega)
    rw [linesBetween_eq_nil (by omega), List.flatMap_nil]
    constructor
    · intro h
      cases h with
      | done => rfl
      | line hle => exact absurd hle (Int64.not_le.mpr hlt)
    · intro h
      rw [h]
      exact .done hlt
  | succ n ih =>
    have hle : i ≤ stop := Int64.le_iff_toInt_le.mpr (by omega)
    have hone : (1 : Int64).toInt = 1 := rfl
    have hindex : (i - 1).toInt = i.toInt - 1 := by
      have hbound := i.toInt_lt
      rw [Int64.toInt_sub, hone, Int.bmod_eq_of_le (by omega) (by omega)]
    have hnext : (i + 1).toInt = i.toInt + 1 := by
      rw [Int64.toInt_add, hone, Int.bmod_eq_of_le (by omega) (by omega)]
    have hbound : (i.toInt - (1 : Nat)).toNat < lines.length := by omega
    have hl := List.getElem?_eq_getElem hbound
    have hstep : linesBetween lines i.toInt stop.toInt =
        (lines[(i.toInt - (1 : Nat)).toNat], i.toInt.toNat) ::
          linesBetween lines (i + 1).toInt stop.toInt := by
      rw [hnext]
      exact filter_isBetween_eq_cons (by omega) (Int64.le_iff_toInt_le.mp hle) hl
    rw [hstep, List.flatMap_cons]
    constructor
    · intro h
      cases h with
      | done hlt => exact absurd hle (Int64.not_le.mpr hlt)
      | line _ _ hread hwritten rest =>
        rw [hindex] at hread
        obtain rfl := Option.some.inj (hl.symm.trans hread)
        rw [isWritten_iff.mp hwritten, (ih (by omega) (by omega)).mp rest]
    · intro h
      rw [h]
      refine .line hle (by omega) ?_ (isWritten_iff.mpr rfl) ((ih (by omega) (by omega)).mpr rfl)
      rw [hindex]
      exact hl

theorem mem_linesBetween_iff {lines : List Text} {low high : Int} {x : Text × Nat} :
    x ∈ linesBetween lines low high ↔ x ∈ lines.zipIdx 1 ∧ low ≤ x.2 ∧ x.2 ≤ high := by
  rw [linesBetween, List.mem_filter, isBetween_iff]

theorem linesBetween_infix (lines : List Text) (low high : Int) :
    linesBetween lines low high <:+: lines.zipIdx 1 := by
  have hnumbers : (lines.zipIdx 1).Pairwise fun x y : Text × Nat => x.2 < y.2 := by
    rw [← List.pairwise_map (f := Prod.snd), List.zipIdx_map_snd]
    exact List.pairwise_lt_range'
  exact filter_infix_of_pairwise (hnumbers.imp Int.ofNat_lt.mpr) low high

/-- The loop reaches its end for every pair of words, with the lines between the bounds. -/
theorem writes_window_iff {lines : List Text} (hcount : lines.length < 2 ^ 63 - 1)
    (center context : Int64) {text : Text} :
    Writes lines (lastWord center context lines.length) (firstWord center context) text ↔
      text = ofLines lines center context := by
  have hfirst := toInt_firstWord center context
  have hlast : (lastWord center context lines.length).toInt = last center context lines.length :=
    toInt_lastWord center context (by omega)
  rw [writes_iff hcount (by rw [hlast, last]; omega) (by rw [hfirst, first]; omega), hfirst, hlast]
  rfl

/-- The tool that shows symbols asks for the lines around a line of the file. -/
theorem line_of_mem_symbols {rootType path src : Text} {s : Symbol}
    (hs : s ∈ (SymbolMap.ofSkeleton (Skeleton.ofSource rootType path src) true).symbols)
    (hcount : (Text.lines src).length ≤ 2 ^ 62) :
    1 ≤ (Int64.ofInt s.line).toInt ∧ (Int64.ofInt s.line).toInt ≤ (Text.lines src).length := by
  rw [symbols_ofSource] at hs
  obtain ⟨m, hm, hsymbol⟩ := List.mem_filterMap.mp hs
  have hbounds := Mark.line_of_mem_ofText hm
  rw [← Mark.line_of_symbol? hsymbol] at hbounds
  have hword : (Int64.ofInt s.line).toInt = s.line :=
    Int64.toInt_ofInt_of_le (by omega) (by omega)
  rw [hword]
  exact hbounds

/-- What is written is a run of neighbouring lines of the file, in order, each with its number and
without the carriage return that may end it. The loop over words ends with exactly this text, so it
never asks for a line that the file does not have. Around a centre among the lines no operation on
words wraps, and the lines are those from half the context above the centre to half the context
below it, as far as there are any. The tool that shows symbols only asks for such windows.
`2 ^ 62` lines are more than any memory holds. -/
theorem read_eq_run (disk : Disk) (path : Text) {data : Bytes} (hread : disk path = .ok data)
    (hcount : (Text.lines (Utf8.decode data)).length ≤ 2 ^ 62) (center context : Int64) :
    let lines := Text.lines (Utf8.decode data)
    ∃ run texts, run <:+: lines.zipIdx 1 ∧
      List.Forall₂ (fun x text => IsWritten x.2 x.1 text) run texts ∧
      read disk path center context = .ok texts.flatten ∧
      (lines ≠ [] ∧ (∀ line ∈ lines, '\n' ∉ line) ∧
        List.intercalate ['\n'] lines = Utf8.decode data) ∧
      (∀ text, Writes lines (lastWord center context lines.length) (firstWord center context) text ↔
        read disk path center context = .ok text) ∧
      (∀ rootType, ∀ s ∈ (SymbolMap.ofSkeleton
          (Skeleton.ofSource rootType path (Utf8.decode data)) true).symbols, ∀ contextLines,
        1 ≤ (Int64.ofInt s.line).toInt ∧ (Int64.ofInt s.line).toInt ≤ lines.length ∧
          1 ≤ (Tools.effectiveContext contextLines).toInt) ∧
      (1 ≤ center.toInt → center.toInt ≤ lines.length → 1 ≤ context.toInt →
        (context / 2).toInt = context.toInt / 2 ∧
        (center - context / 2).toInt = center.toInt - context.toInt / 2 ∧
        (center + context / 2).toInt = center.toInt + context.toInt / 2 ∧
        (∀ line number, (line, number) ∈ run ↔ (line, number) ∈ lines.zipIdx 1 ∧
          max 1 (center.toInt - context.toInt / 2) ≤ number ∧
          number ≤ min (lines.length : Int) (center.toInt + context.toInt / 2)) ∧
        ∃ line, (line, center.toInt.toNat) ∈ run) := by
  intro lines
  have hcount : lines.length ≤ 2 ^ 62 := hcount
  have htext : read disk path center context = .ok (ofLines lines center context) := by
    rw [read, hread]
  refine ⟨linesBetween lines (first center context) (last center context lines.length), _,
    linesBetween_infix _ _ _, forall₂_isWritten _, htext.trans (congrArg Except.ok List.flatMap_def),
    ⟨Text.split_ne_nil _ _, fun line => Text.not_mem_of_mem_lines, Text.join_lines _⟩,
    fun text => ?_, fun rootType s hs contextLines => ?_, fun hone hlast hpos => ?_⟩
  · rw [writes_window_iff (by omega), htext, Except.ok.injEq, eq_comm]
  · obtain ⟨hfirst, hlast⟩ := line_of_mem_symbols hs hcount
    exact ⟨hfirst, hlast, Int64.lt_iff_toInt_lt.mp (Tools.effectiveContext_pos contextLines)⟩
  · have hcontext : 0 < context := Int64.lt_iff_toInt_lt.mpr hpos
    have hmem (line : Text) (number : Nat) :
        (line, number) ∈ linesBetween lines (first center context)
            (last center context lines.length) ↔
          (line, number) ∈ lines.zipIdx 1 ∧
          max 1 (center.toInt - context.toInt / 2) ≤ number ∧
          number ≤ min (lines.length : Int) (center.toInt + context.toInt / 2) := by
      rw [mem_linesBetween_iff, first_eq hcontext (by omega), last_eq hcontext (by omega) (by omega)]
    refine ⟨toInt_half hcontext, toInt_sub_half hcontext (by omega),
      toInt_add_half hcontext (by omega) (by omega), hmem, ?_⟩
    have hindex : center.toInt.toNat - 1 < lines.length := by omega
    have hcentre : (lines[center.toInt.toNat - 1], center.toInt.toNat) ∈ lines.zipIdx 1 :=
      List.mk_mem_zipIdx_iff_le_and_getElem?_sub.mpr ⟨by omega, List.getElem?_eq_getElem hindex⟩
    exact ⟨_, (hmem _ _).mpr ⟨hcentre, by omega, by omega⟩⟩

/-- The greatest context there is, around the middle line of three. -/
theorem read_eq_run_of_greatest_context :
    let data : Bytes := Utf8.encode "a\r\nb\nc\r\r"
    ∃ run texts, run <:+: [(("a\r" : Text), 1), (("b" : Text), 2), (("c\r\r" : Text), 3)] ∧
      List.Forall₂ (fun x text => IsWritten x.2 x.1 text) run texts ∧
      read (fun _ => .ok data) "A.m" 2 Int64.maxValue = .ok texts.flatten ∧
      (("c\r\r" : Text), 3) ∈ run ∧ ∃ line, (line, 2) ∈ run := by
  intro data
  have hlines : Text.lines (Utf8.decode data) =
      [("a\r" : Text), ("b" : Text), ("c\r\r" : Text)] := by decide +kernel
  obtain ⟨run, texts, hrun, htexts, hread, -, -, -, hshown⟩ :=
    read_eq_run (fun _ => .ok data) "A.m" rfl (by rw [hlines]; decide) 2 Int64.maxValue
  rw [hlines] at hrun hshown
  obtain ⟨-, -, -, hmem, hcentre⟩ := hshown (by decide) (by decide) (by decide)
  exact ⟨run, texts, hrun, htexts, hread, (hmem _ _).mpr (by decide), hcentre⟩

end ObjcOutline.Window
