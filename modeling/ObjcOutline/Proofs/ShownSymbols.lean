import ObjcOutline.Tools.Basic
import ObjcOutline.Proofs.DeclaredLines
import ObjcOutline.Proofs.StandardEngine
import Mathlib

/-!
# Symbols in their source

The source around a symbol is read a second time, and cut into lines by a reader of its own. What is
shown is nevertheless the line that was marked. The symbols of a file with its properties are those
of the marks of its lines, one after another, so each symbol comes from one line, and it carries the
number of that line. The lines between the bounds of a window are a run of the same lines, and the
bounds leave the centre in: they are words of 64 bits, and around a line of a file in memory they do
not wrap.
-/
namespace ObjcOutline

theorem Text.occursIn_iff {p t : Text} : occursIn p t = true ↔ p <:+: t := by
  induction t with
  | nil => simp [occursIn]
  | cons c r ih =>
    rw [occursIn, Bool.or_eq_true, List.isPrefixOf_iff_prefix, ih, List.infix_cons_iff]

theorem SymbolMap.query_eq (m : SymbolMap) {name : Text} (hname : name ≠ []) :
    m.query [] name = m.symbols.filter fun s => name <:+: s.name := by
  unfold query
  apply List.filter_congr
  intro s _
  have hnonempty : List.isEmpty name = false := by simpa using hname
  rw [Symbol.isSelected, hnonempty, List.isEmpty_nil, Bool.true_or, Bool.true_and, Bool.false_or,
    Bool.eq_iff_iff, Text.occursIn_iff, decide_eq_true_iff]

/-- The symbol of the block that a header opens. -/
def Symbol.ofOpener (o : Opener) : Symbol where
  name := if o.header.kind = .category then o.header.name ++ " (" ++ o.header.category ++ ")"
    else o.header.name
  kind := o.header.kind.toText
  line := o.line

/-- The symbol that a mark gives; a closing line gives none. -/
def Mark.symbol? : Mark → Option Symbol
  | closer _ => none
  | method m => some (.ofMethod m)
  | property p => some (.ofProperty p)
  | opener o => some (.ofOpener o)

theorem Mark.line_of_symbol? {m : Mark} {s : Symbol} (h : m.symbol? = some s) :
    s.line = m.line := by
  cases m with
  | closer c => cases h
  | method m => cases h; rfl
  | property p => cases h; rfl
  | opener o => cases h; rfl

/-- Selecting openers, properties and methods keeps every symbol. -/
theorem Mark.map_symbol_perm (marks : List Mark) :
    ((marks.filterMap opener?).map Symbol.ofOpener ++
        ((marks.filterMap property?).map Symbol.ofProperty ++
          (marks.filterMap method?).map Symbol.ofMethod)).Perm (marks.filterMap symbol?) := by
  have hparts := (parts_perm marks).filterMap symbol?
  have hclosers : (marks.filter (!·.isCloser)).filterMap symbol? = marks.filterMap symbol? := by
    rw [List.filterMap_filter]
    apply List.filterMap_congr
    intro m _
    cases m <;> rfl
  rw [hclosers, List.filterMap_append, List.filterMap_append, List.filterMap_map,
    List.filterMap_map, List.filterMap_map] at hparts
  simp only [← List.filterMap_eq_map]
  exact hparts

section Source
variable (rootType path src : Text)

theorem map_ofBlock_blocks :
    (Skeleton.ofSource rootType path src).blocks.map Symbol.ofBlock =
      (openers src).map Symbol.ofOpener := by
  apply List.ext_getElem?
  intro i
  rw [List.getElem?_map, List.getElem?_map, getElem?_blocks, Block.bare, List.getElem?_map]
  cases (openers src)[i]? <;> rfl

theorem symbols_ofSource_pairwise :
    (SymbolMap.ofSkeleton (Skeleton.ofSource rootType path src) true).symbols.Pairwise
      fun a b => a.line < b.line := by
  have hlines := SymbolMap.symbols_perm (s := Skeleton.ofSource rootType path src)
    fun b hb => (wellFormed_of_mem_blocks hb).openingKeyword_mem
  exact SymbolMap.symbols_pairwise
    (hlines.nodup_iff.mpr (nodup_declaredLines rootType path src))

theorem filterMap_symbol?_pairwise :
    ((Mark.ofText src).filterMap Mark.symbol?).Pairwise fun a b => a.line < b.line := by
  rw [List.pairwise_filterMap]
  refine (Mark.ofText_pairwise src).imp ?_
  intro x y hlt a ha b hb
  rw [Mark.line_of_symbol? ha, Mark.line_of_symbol? hb]
  exact hlt

/-- The symbols of a text are those of its marks, one after another. -/
theorem symbols_ofSource :
    (SymbolMap.ofSkeleton (Skeleton.ofSource rootType path src) true).symbols =
      (Mark.ofText src).filterMap Mark.symbol? := by
  have hblocks : (SymbolMap.blockSymbols (Skeleton.ofSource rootType path src).blocks).Perm
      ((openers src).map Symbol.ofOpener) := by
    have hgathered := SymbolMap.blockSymbols_perm (Skeleton.ofSource rootType path src)
    rw [SymbolMap.gatheredBlocks_eq fun b hb => (wellFormed_of_mem_blocks hb).openingKeyword_mem,
      map_ofBlock_blocks] at hgathered
    exact hgathered
  have hgathered : (SymbolMap.gathered (Skeleton.ofSource rootType path src) true).Perm
      ((Mark.ofText src).filterMap Mark.symbol?) := by
    unfold SymbolMap.gathered
    rw [List.append_assoc]
    exact (hblocks.append_right _).trans (Mark.map_symbol_perm (Mark.ofText src))
  have hperm := (List.mergeSort_perm _ fun a b => decide (a.line ≤ b.line)).trans hgathered
  -- Lists that ascend strictly and hold the same symbols are equal.
  refine List.Perm.eq_of_pairwise ?_ (symbols_ofSource_pairwise rootType path src)
    (filterMap_symbol?_pairwise src) hperm
  intro a b _ _ hab hba
  exact absurd hab hba.asymm

end Source

namespace Window

/-- A source line as a window writes it. -/
def writtenLine (l : SourceLine) : Text :=
  Text.padLeft 4 (Text.ofNat l.number) ++ ['│', ' '] ++ l.text ++ ['\n']

/-- Both readers number the lines alike, and both leave out a carriage return at the end. -/
theorem flatMap_numbered (p : Nat → Bool) (number start : Nat) (ls : List Text) :
    (((ls.zipIdx number).filter fun x => p x.2).flatMap fun x => numbered x.2 x.1) =
      ((SourceLine.place number start ls).filter fun l => p l.number).flatMap writtenLine := by
  induction ls generalizing number start with
  | nil => rfl
  | cons raw ls ih =>
    rw [List.zipIdx_cons, SourceLine.place]
    simp only [List.filter_cons]
    cases p number with
    | true =>
      simp only [if_true, List.flatMap_cons, ih (number + 1) (start + raw.length + 1)]
      rfl
    | false => exact ih (number + 1) (start + raw.length + 1)

theorem ofLines_eq (src : Text) (center context : Int64) :
    ofLines (Text.lines src) center context =
      ((SourceLine.ofText src).filter fun l => first center context ≤ l.number &&
        l.number ≤ last center context (Text.lines src).length).flatMap writtenLine :=
  flatMap_numbered (fun n => decide (first center context ≤ n) &&
    decide (n ≤ last center context (Text.lines src).length)) 1 0 (Text.lines src)

section Bounds
variable {center context : Int64} (hcontext : 0 < context)
include hcontext

theorem toInt_half : (context / 2).toInt = context.toInt / 2 := by
  have hpos : 0 < context.toInt := Int64.lt_iff_toInt_lt.mp hcontext
  have hlt := context.toInt_lt
  have htwo : (2 : Int64).toInt = 2 := rfl
  rw [Int64.toInt_div, htwo, Int.tdiv_eq_ediv_of_nonneg (by omega),
    Int.bmod_eq_of_le (by omega) (by omega)]

variable (hcenter : 0 ≤ center.toInt)
include hcenter

theorem toInt_sub_half :
    (center - context / 2).toInt = center.toInt - context.toInt / 2 := by
  have hpos : 0 < context.toInt := Int64.lt_iff_toInt_lt.mp hcontext
  have hlt := context.toInt_lt
  have hword := center.toInt_lt
  rw [Int64.toInt_sub, toInt_half hcontext, Int.bmod_eq_of_le (by omega) (by omega)]

theorem toInt_add_half (hsize : center.toInt ≤ 2 ^ 62) :
    (center + context / 2).toInt = center.toInt + context.toInt / 2 := by
  have hpos : 0 < context.toInt := Int64.lt_iff_toInt_lt.mp hcontext
  have hlt := context.toInt_lt
  rw [Int64.toInt_add, toInt_half hcontext, Int.bmod_eq_of_le (by omega) (by omega)]

theorem first_eq : first center context = max 1 (center.toInt - context.toInt / 2) := by
  rw [first, toInt_sub_half hcontext hcenter]

theorem last_eq (hsize : center.toInt ≤ 2 ^ 62) (count : Nat) :
    last center context count = min (count : Int) (center.toInt + context.toInt / 2) := by
  rw [last, toInt_add_half hcontext hcenter hsize]

end Bounds

end Window

/-- What passes from every entry to the ones before it holds of a first part. -/
theorem filter_prefix_of_pairwise {α : Type} {p : α → Bool} {l : List α}
    (h : l.Pairwise fun x y => p y = true → p x = true) : l.filter p <+: l := by
  obtain ⟨front, back, rfl, hfront, hback⟩ := exists_append_of_pairwise h
  rw [List.filter_append, List.filter_eq_self.mpr hfront, List.filter_eq_nil_iff.mpr hback,
    List.append_nil]
  exact List.prefix_append front back

/-- What passes from every entry to the ones after it holds of a last part. -/
theorem filter_suffix_of_pairwise {α : Type} {p : α → Bool} {l : List α}
    (h : l.Pairwise fun x y => p x = true → p y = true) : l.filter p <:+ l := by
  rw [← List.reverse_prefix, ← List.filter_reverse]
  exact filter_prefix_of_pairwise (List.pairwise_reverse.mpr h)

/-- Among entries with ascending numbers, those between two bounds are neighbours. -/
theorem filter_infix_of_pairwise {α : Type} {number : α → Int} {l : List α}
    (h : l.Pairwise fun x y => number x < number y) (low high : Int) :
    (l.filter fun x => low ≤ number x && number x ≤ high) <:+: l := by
  have hfrom : (l.filter fun x => low ≤ number x) <:+ l := by
    apply filter_suffix_of_pairwise
    refine h.imp fun hlt => ?_
    simp only [decide_eq_true_eq]
    omega
  have hupto : ((l.filter fun x => low ≤ number x).filter fun x => number x ≤ high) <+:
      l.filter fun x => low ≤ number x := by
    apply filter_prefix_of_pairwise
    refine (h.filter _).imp fun hlt => ?_
    simp only [decide_eq_true_eq]
    omega
  simp only [List.filter_filter, Bool.and_comm] at hupto
  exact hupto.isInfix.trans hfrom.isInfix

namespace Utf8

theorem length_unitsFrom_le (skip : Nat) (data : Bytes) :
    (unitsFrom skip data).length ≤ data.length := by
  induction data generalizing skip with
  | nil => cases skip <;> simp [unitsFrom]
  | cons b r ih =>
    cases skip with
    | succ skip => exact (ih skip).trans (Nat.le_succ _)
    | zero =>
      rw [unitsFrom]
      split
      next c width _ => exact Nat.succ_le_succ (ih (width - 1))
      next => exact Nat.succ_le_succ (ih 0)

theorem length_mergeRuns_le (inRun : Bool) (units : List (Option Char)) :
    (mergeRuns inRun units).length ≤ units.length := by
  induction units generalizing inRun with
  | nil => simp [mergeRuns]
  | cons u units ih =>
    cases u with
    | some c => exact Nat.succ_le_succ (ih false)
    | none =>
      cases inRun with
      | true => exact (ih true).trans (Nat.le_succ _)
      | false => exact Nat.succ_le_succ (ih true)

theorem length_dropMark_le (t : Text) : (dropMark t).length ≤ t.length := by
  cases t with
  | nil => rfl
  | cons c r =>
    rw [dropMark]
    split
    · exact Nat.le_succ _
    · exact le_rfl

/-- A text has no more characters than bytes. -/
theorem length_decode_le (data : Bytes) : (decode data).length ≤ data.length :=
  (length_dropMark_le _).trans ((length_mergeRuns_le _ _).trans (length_unitsFrom_le 0 data))

end Utf8

theorem Text.length_lines_le (t : Text) : (lines t).length ≤ t.length + 1 := by
  rw [← width_lines]
  generalize lines t = ls
  induction ls with
  | nil => rfl
  | cons l ls ih =>
    rw [List.length_cons, width_cons]
    omega

namespace Window

/-- The window around a line of a text is a run of its lines, and the line is one of them. -/
theorem ofLines_eq_run {src : Text} {context : Int64} (hcontext : 0 < context)
    (hsize : (Text.lines src).length ≤ 2 ^ 62) {l : SourceLine} (hl : l ∈ SourceLine.ofText src) :
    ∃ above below, above ++ l :: below <:+: SourceLine.ofText src ∧
      ofLines (Text.lines src) (Int64.ofInt l.number) context =
        (above ++ l :: below).flatMap writtenLine := by
  obtain ⟨hone, hlast⟩ := SourceLine.number_of_mem_place hl
  have hpos : 0 < context.toInt := Int64.lt_iff_toInt_lt.mp hcontext
  have hcenter : (Int64.ofInt l.number).toInt = l.number :=
    Int64.toInt_ofInt_of_le (by omega) (by omega)
  have hnumbers : (SourceLine.ofText src).Pairwise fun x y => (x.number : Int) < y.number :=
    (SourceLine.place_pairwise 1 0 _).imp fun hlt => Int.ofNat_lt.mpr hlt
  have hrun := filter_infix_of_pairwise hnumbers (first (Int64.ofInt l.number) context)
    (last (Int64.ofInt l.number) context (Text.lines src).length)
  have hmem : l ∈ (SourceLine.ofText src).filter fun x =>
      first (Int64.ofInt l.number) context ≤ x.number &&
        x.number ≤ last (Int64.ofInt l.number) context (Text.lines src).length := by
    rw [List.mem_filter, first_eq hcontext (by omega), last_eq hcontext (by omega) (by omega),
      hcenter]
    refine ⟨hl, ?_⟩
    simp only [Bool.and_eq_true, decide_eq_true_eq]
    omega
  obtain ⟨above, below, hsplit⟩ := List.append_of_mem hmem
  rw [hsplit] at hrun
  exact ⟨above, below, hrun, by rw [ofLines_eq, hsplit]⟩

/-- Whether a window shows where a symbol comes from: it consists of neighbouring lines of the text,
and among them is the line that was marked with the symbol, under the number that the symbol has. -/
def Shows (src : Text) (s : Symbol) (window : Text) : Prop :=
  ∃ above l below, above ++ l :: below <:+: SourceLine.ofText src ∧
    (Mark.ofLine? l).bind Mark.symbol? = some s ∧ s.line = l.number ∧
    window = (above ++ l :: below).flatMap writtenLine

end Window

namespace Tools

/-- One symbol with a window. -/
def sectionText (s : Symbol) (window : Text) : Text :=
  "### " ++ s.name ++ "\nKind: " ++ s.kind ++ "  Line: " ++ Text.ofInt s.line ++ "\n\n" ++
    ("```objc\n" ++ window ++ "```\n")

theorem effectiveContext_pos (contextLines : Int64) : 0 < effectiveContext contextLines := by
  unfold effectiveContext
  split
  next => decide
  next h => exact Int64.not_le.mp h

theorem exists_window {disk : Disk} {path : Text} {data : Bytes} (hread : disk path = .ok data)
    (hsize : data.length < 2 ^ 62) {context : Int64} (hcontext : 0 < context) {s : Symbol}
    (hs : s ∈ (Mark.ofText (Utf8.decode data)).filterMap Mark.symbol?) :
    ∃ window, symbolSection disk path context s = sectionText s window ∧
      Window.Shows (Utf8.decode data) s window := by
  obtain ⟨m, hm, hsymbol⟩ := List.mem_filterMap.mp hs
  obtain ⟨l, hl, hmark⟩ := List.mem_filterMap.mp hm
  have hline : s.line = l.number := by
    rw [Mark.line_of_symbol? hsymbol, Mark.line_of_ofLine? hmark]
  have hlines := Text.length_lines_le (Utf8.decode data)
  have hdecoded := Utf8.length_decode_le data
  obtain ⟨above, below, hrun, hwindow⟩ := Window.ofLines_eq_run hcontext (by omega) hl
  have hshown : Window.read disk path (Int64.ofInt s.line) context =
      .ok ((above ++ l :: below).flatMap Window.writtenLine) := by
    rw [Window.read, hread, hline, ← hwindow]
  refine ⟨_, ?_, above, l, below, hrun, ?_, hline, rfl⟩
  · unfold symbolSection sectionText
    rw [hshown]
  · rw [hmark]
    exact hsymbol

/-- Parts that each have a window have windows one after another. -/
theorem exists_windows {src : Text} {text : Symbol → Text} {symbols : List Symbol}
    (h : ∀ s ∈ symbols, ∃ window, text s = sectionText s window ∧ Window.Shows src s window) :
    ∃ windows, symbols.map text = List.zipWith sectionText symbols windows ∧
      List.Forall₂ (Window.Shows src) symbols windows := by
  induction symbols with
  | nil => exact ⟨[], rfl, .nil⟩
  | cons s symbols ih =>
    obtain ⟨window, htext, hshows⟩ := h s (by simp)
    obtain ⟨windows, hrest, hall⟩ := ih fun x hx => h x (by simp [hx])
    refine ⟨window :: windows, ?_, .cons hshows hall⟩
    rw [List.map_cons, List.zipWith_cons_cons, htext, hrest]

theorem showSymbols_isError (disk : Disk) (path name : Text) (contextLines : Int64) (s : Skeleton) :
    (showSymbols disk path name contextLines s).isError =
      ((SymbolMap.ofSkeleton s true).query [] name).isEmpty := by
  unfold showSymbols
  cases (SymbolMap.ofSkeleton s true).query [] name <;> rfl

theorem showSymbols_text {name : Text} {s : Skeleton}
    (h : (SymbolMap.ofSkeleton s true).query [] name ≠ []) (disk : Disk) (path : Text)
    (contextLines : Int64) :
    (showSymbols disk path name contextLines s).text = Text.join "\n---\n\n"
      ((((SymbolMap.ofSkeleton s true).query [] name).take maxShown).map
        (symbolSection disk path (effectiveContext contextLines))) := by
  unfold showSymbols
  cases hquery : (SymbolMap.ofSkeleton s true).query [] name with
  | nil => exact absurd hquery h
  | cons a found => rfl

end Tools

/-- A symbol is shown with the line that it comes from. The file is read twice, once for its symbols
and once for the windows; `2 ^ 62` bytes are more than any memory holds. -/
theorem showSymbol_agrees (c : Config) (disk : Disk) (path name : Text) (contextLines : Int64)
    {data : Bytes} (hpath : path ≠ []) (hname : name ≠ []) (hread : disk path = .ok data)
    (hsize : data.length < 2 ^ 62) :
    let file := Skeleton.ofSource c.rootType path (Utf8.decode data)
    let symbols := (SymbolMap.ofSkeleton file true).symbols
    let found := symbols.filter fun s => name <:+: s.name
    let reply := (Tools.answer (.standard c) disk (.showSymbol path name contextLines)).2
    ((Engine.standard c).load disk .live path false).result = .ok file ∧
    symbols.Pairwise (fun a b => a.line < b.line) ∧
    (reply.isError = true ↔ ∀ s ∈ symbols, ¬ name <:+: s.name) ∧
    (reply.isError = false → ∃ windows,
      reply.text = Text.join "\n---\n\n"
        (List.zipWith Tools.sectionText (found.take 5) windows) ∧
      List.Forall₂ (Window.Shows (Utf8.decode data)) (found.take 5) windows) := by
  intro file symbols found reply
  have hload := Engine.result_load c disk path hread false
  have hreply : reply = Tools.showSymbols disk path name contextLines file := by
    simp only [reply, Tools.answer, hload]
    rw [if_neg]
    simp [hpath, hname]
  have hfound : (SymbolMap.ofSkeleton file true).query [] name = found :=
    SymbolMap.query_eq _ hname
  have herror : reply.isError = found.isEmpty := by
    rw [hreply, Tools.showSymbols_isError, hfound]
  refine ⟨hload, symbols_ofSource_pairwise .., ?_, ?_⟩
  · rw [herror, List.isEmpty_iff, List.filter_eq_nil_iff]
    simp only [decide_eq_true_eq]
  · intro hok
    have hne : found ≠ [] := by
      intro hnil
      rw [herror, hnil] at hok
      cases hok
    have hwindows : ∀ s ∈ found.take 5, ∃ window,
        Tools.symbolSection disk path (Tools.effectiveContext contextLines) s =
          Tools.sectionText s window ∧ Window.Shows (Utf8.decode data) s window := by
      intro s hs
      have hsymbols : symbols = (Mark.ofText (Utf8.decode data)).filterMap Mark.symbol? :=
        symbols_ofSource ..
      have hsymbol : s ∈ symbols := List.mem_of_mem_filter (List.mem_of_mem_take hs)
      rw [hsymbols] at hsymbol
      exact Tools.exists_window hread hsize (Tools.effectiveContext_pos contextLines) hsymbol
    obtain ⟨windows, htext, hshows⟩ := Tools.exists_windows hwindows
    refine ⟨windows, ?_, hshows⟩
    rw [hreply, Tools.showSymbols_text (hfound ▸ hne), hfound, ← htext]
    rfl

/-- A file with a byte-order mark and carriage returns, shown line by line. -/
theorem showSymbol_agrees_one_line :
    let data : Bytes := [0xEF, 0xBB, 0xBF] ++ Utf8.encode "@interface A\r\n- (id)f;\r\n@end"
    let reply := (Tools.answer (.standard .default) (fun _ => .ok data)
      (.showSymbol "A.m" "f" 1)).2
    reply.isError = false ∧ ∃ windows,
      reply.text = Text.join "\n---\n\n"
        (List.zipWith Tools.sectionText [⟨"-f", "method", 2⟩] windows) ∧
      List.Forall₂ (Window.Shows (Utf8.decode data)) [⟨"-f", "method", 2⟩] windows := by
  intro data reply
  have hfound : ((SymbolMap.ofSkeleton (Skeleton.ofSource Config.default.rootType "A.m"
      (Utf8.decode data)) true).symbols.filter fun s => ("f" : Text) <:+: s.name).take 5 =
        [⟨"-f", "method", 2⟩] := by
    rw [symbols_ofSource]
    decide +kernel
  obtain ⟨-, -, herror, hshown⟩ := showSymbol_agrees .default (fun _ => .ok data) "A.m" "f" 1
    (by decide) (by decide) rfl (by decide +kernel)
  have hok : reply.isError = false := by
    rw [← Bool.not_eq_true, herror]
    intro hnone
    have hmem := List.mem_of_mem_take (hfound ▸ List.mem_cons_self)
    exact hnone _ (List.mem_of_mem_filter hmem) (of_decide_eq_true (List.mem_filter.mp hmem).2)
  rw [hfound] at hshown
  exact ⟨hok, hshown hok⟩

end ObjcOutline
