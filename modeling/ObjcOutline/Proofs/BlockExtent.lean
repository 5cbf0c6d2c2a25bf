import ObjcOutline.Proofs.Insertion
import ObjcOutline.Proofs.Concatenation
import ObjcOutline.Proofs.LeadIn

/-!
# The end of a block and the end of its instance variables

A block ends at the first `@end` line below its header, its instance variables at the first closing
brace after the one that its header leads in to. Nothing ties the two together. A block without an
`@end` line has no methods and no properties, but it has the variables in the braces after its
header. A block with one keeps its variables when the text is cut below that line, unless the line
stands inside the braces or inside a comment before them; then the variables are lost, because the
text that is cut off closes what is open.
-/
namespace ObjcOutline

namespace Text

def firstLines (n : Nat) (src : Text) : Text := join ['\n'] ((lines src).take n)

theorem join_lines (src : Text) : join ['\n'] (lines src) = src := by
  obtain ⟨l, ls, h⟩ := List.exists_cons_of_ne_nil (split_ne_nil '\n' src)
  have hlines : lines src = l :: ls := h
  rw [hlines, join_cons_eq_below, ← eq_append_below hlines]

theorem join_append {xs ys : List Text} (hxs : xs ≠ []) (hys : ys ≠ []) :
    join ['\n'] (xs ++ ys) = join ['\n'] xs ++ '\n' :: join ['\n'] ys := by
  obtain ⟨x, xs, rfl⟩ := List.exists_cons_of_ne_nil hxs
  obtain ⟨y, ys, rfl⟩ := List.exists_cons_of_ne_nil hys
  simp only [List.cons_append, join_cons_eq_below, below, List.flatMap_append, List.flatMap_cons,
    List.append_assoc]

theorem lines_join {xs : List Text} (hne : xs ≠ []) (h : ∀ l ∈ xs, '\n' ∉ l) :
    lines (join ['\n'] xs) = xs := by
  obtain ⟨x, xs, rfl⟩ := List.exists_cons_of_ne_nil hne
  rw [List.forall_mem_cons] at h
  rw [join_cons_eq_below, lines_append_below h.1 h.2]

theorem take_lines_ne_nil {n : Nat} (hn : 0 < n) (src : Text) : (lines src).take n ≠ [] := by
  rw [Ne, List.take_eq_nil_iff, not_or]
  exact ⟨hn.ne', split_ne_nil '\n' src⟩

theorem lines_firstLines {n : Nat} (hn : 0 < n) (src : Text) :
    lines (firstLines n src) = (lines src).take n :=
  lines_join (take_lines_ne_nil hn src) fun _ hl => not_mem_of_mem_lines (List.mem_of_mem_take hl)

theorem length_lines_firstLines {n : Nat} {src : Text} (hn : 0 < n) (h : n ≤ (lines src).length) :
    (lines (firstLines n src)).length = n := by
  rw [lines_firstLines hn, List.length_take, Nat.min_eq_left h]

/-- Either nothing is cut off, or lines are. -/
theorem eq_firstLines_or {n : Nat} (hn : 0 < n) (src : Text) :
    src = firstLines n src ∨ ∃ rest, src = firstLines n src ++ '\n' :: rest := by
  have hsplit := List.take_append_drop n (lines src)
  by_cases hdrop : (lines src).drop n = []
  · left
    rw [hdrop, List.append_nil] at hsplit
    rw [firstLines, hsplit, join_lines]
  · right
    refine ⟨join ['\n'] ((lines src).drop n), ?_⟩
    rw [firstLines, ← join_append (take_lines_ne_nil hn src) hdrop, hsplit, join_lines]

theorem firstLines_succ {n : Nat} (hn : 0 < n) {src line : Text}
    (h : (lines src)[n]? = some line) :
    firstLines (n + 1) src = firstLines n src ++ '\n' :: line := by
  have hlast : join ['\n'] [line] = line := by simp [join]
  rw [firstLines, List.take_add_one, h, Option.toList_some,
    join_append (take_lines_ne_nil hn src) (List.cons_ne_nil _ _), hlast, firstLines]

theorem mem_dropWhile {p : Char → Bool} {c : Char} {t : Text} (h : c ∈ t) (hc : p c = false) :
    c ∈ t.dropWhile p := by
  have hsplit := List.takeWhile_append_dropWhile (p := p) (l := t)
  rw [← hsplit, List.mem_append] at h
  refine h.resolve_left fun hin => ?_
  rw [List.mem_takeWhile_imp hin] at hc
  cases hc

theorem mem_trim {c : Char} {t : Text} (h : c ∈ t) (hc : isSpace c = false) : c ∈ trim t := by
  have hstart : c ∈ trimStart t := mem_dropWhile h hc
  rw [trim, trimEnd, List.mem_reverse]
  exact mem_dropWhile (List.mem_reverse.mpr hstart) hc

/-- A bare `@end` line cannot end a comment. -/
theorem mem_of_bareEnd {line : Text} (h : trim (dropReturn line) = "@end") :
    '@' ∈ line ∧ '/' ∉ line := by
  obtain ⟨after, hafter, heq⟩ := exists_eq_dropReturn_append line
  rw [heq, List.mem_append, List.mem_append]
  constructor
  · exact .inl (mem_of_mem_trim (h ▸ by decide))
  · rintro (hmem | hmem)
    · have hin := mem_trim hmem (by decide)
      rw [h] at hin
      exact absurd hin (by decide)
    · exact hafter.not_mem (by decide) hmem

theorem width_take_add_le {ls : List Text} {i : Nat} {raw : Text} (h : ls[i]? = some raw) :
    width (ls.take i) + raw.length + 1 ≤ width ls := by
  induction ls generalizing i with
  | nil => simp at h
  | cons l ls ih =>
    cases i with
    | zero =>
      cases h
      simp only [List.take_zero, width_nil, width_cons]
      omega
    | succ i =>
      have := ih h
      simp only [List.take_succ_cons, width_cons]
      omega

end Text

theorem headerEnd_le_length {src : Text} {o : Opener} (h : o ∈ openers src) :
    o.headerEnd ≤ src.length := by
  obtain ⟨l, hl, hmark⟩ := List.mem_filterMap.mp (mem_openers.mp h)
  obtain ⟨i, raw, hraw, rfl⟩ := SourceLine.mem_place.mp hl
  have hend := Opener.headerEnd_le (Mark.ofLine?_eq_opener hmark)
  have hwidth := Text.width_take_add_le hraw
  have hreturn : (Text.dropReturn raw).length ≤ raw.length := by
    unfold Text.dropReturn
    split_ifs
    · simp
    · exact le_rfl
  rw [Text.width_lines] at hwidth
  simp only at hend
  omega

/-- An opener on a line of the first text is an opener of the first text. -/
theorem getElem?_openers_left {a b : Text} {i : Nat} {o : Opener}
    (h : (openers (a ++ '\n' :: b))[i]? = some o) (hline : o.line ≤ (Text.lines a).length) :
    (openers a)[i]? = some o := by
  rw [openers_append] at h
  by_cases hi : i < (openers a).length
  · rwa [List.getElem?_append_left hi] at h
  · rw [List.getElem?_append_right (not_lt.mp hi), List.getElem?_map] at h
    obtain ⟨p, hp, rfl⟩ := Option.map_eq_some_iff.mp h
    have := line_of_mem_openers (List.mem_of_getElem? hp)
    simp only [Opener.shift] at hline
    omega

theorem getElem?_openers_firstLines {src : Text} {i n : Nat} {o : Opener} (hn : 0 < n)
    (hle : n ≤ (Text.lines src).length) (h : (openers src)[i]? = some o) (hline : o.line ≤ n) :
    (openers (src.firstLines n))[i]? = some o := by
  rcases Text.eq_firstLines_or hn src with heq | ⟨rest, heq⟩
  · rwa [← heq]
  · rw [heq] at h
    refine getElem?_openers_left h ?_
    rwa [Text.length_lines_firstLines hn hle]

theorem exists_opener_of_block {rootType path src : Text} {i : Nat} {b : Block}
    (h : (Skeleton.ofSource rootType path src).blocks[i]? = some b) :
    ∃ o, (openers src)[i]? = some o ∧ b.kind = o.header.kind ∧ b.startLine = o.line ∧
      b.endLine = Block.endLineOf (closingLines src).toArray o.line ∧
      b.fields = Block.fieldsOf src o := by
  rw [getElem?_blocks, Block.bare, List.getElem?_map, Option.map_map] at h
  obtain ⟨o, ho, rfl⟩ := Option.map_eq_some_iff.mp h
  exact ⟨o, ho, rfl, rfl, rfl, rfl⟩

/-- A block that ends where it starts contains no line, hence no member. -/
theorem members_eq_nil {rootType path src : Text} {i : Nat} {b : Block}
    (h : (Skeleton.ofSource rootType path src).blocks[i]? = some b)
    (hend : b.endLine = b.startLine) : b.methods = [] ∧ b.properties = [] := by
  rw [getElem?_blocks] at h
  obtain ⟨c, hc, rfl⟩ := Option.map_eq_some_iff.mp h
  have howner (line : Int) :
      (Block.owner? (Block.bare src rootType) line == some i) ≠ true := by
    intro howner
    obtain ⟨d, hd, hcontains⟩ := Block.contains_of_owner? (beq_iff_eq.mp howner)
    rw [hc] at hd
    cases hd
    obtain ⟨hstart, hlast⟩ := Block.contains_iff.mp hcontains
    simp only at hend
    omega
  exact ⟨List.filter_eq_nil_iff.mpr fun m _ => howner m.line,
    List.filter_eq_nil_iff.mpr fun p _ => howner p.line⟩

/-- Closed braces that hold the declaration of a variable follow a lead-in. -/
def DeclaresVariable (t : Text) : Prop :=
  ∃ lead body tail, LeadIn lead ∧ t = lead ++ '{' :: (body ++ '}' :: tail) ∧ '}' ∉ body ∧
    ∃ line ∈ Text.lines body, (Field.ofLine? line).isSome

theorem Field.ofBody_ne_nil_iff {body : Text} :
    ofBody body ≠ [] ↔ ∃ line ∈ Text.lines body, (ofLine? line).isSome := by
  rw [ofBody, Ne, List.filterMap_eq_nil_iff]
  push Not
  simp only [Option.isSome_iff_ne_none]

theorem Block.fieldsOf_ne_nil_iff {src : Text} {o : Opener} :
    fieldsOf src o ≠ [] ↔
      o.header.kind ≠ .protocol ∧ DeclaresVariable (src.drop o.headerEnd) := by
  unfold fieldsOf
  split_ifs with hkind
  · simp [hkind]
  refine ⟨fun h => ⟨hkind, ?_⟩, fun h => ?_⟩
  · cases hbody : fieldBody? (src.drop o.headerEnd) with
    | none => simp [hbody] at h
    | some body =>
      rw [hbody] at h
      obtain ⟨lead, tail, hlead, heq, hfree⟩ := fieldBody?_eq_some_iff.mp hbody
      exact ⟨lead, body, tail, hlead, heq, hfree, Field.ofBody_ne_nil_iff.mp h⟩
  · obtain ⟨-, lead, body, tail, hlead, heq, hfree, hline⟩ := h
    rw [fieldBody?_eq_some_iff.mpr ⟨lead, tail, hlead, heq, hfree⟩]
    exact Field.ofBody_ne_nil_iff.mpr hline

/-- An outline writes a block without members as its note, its header and `@end` exactly when the
block has no variables. -/
theorem Outline.blockText_eq_iff {b : Block} (hmethods : b.methods = [])
    (hproperties : b.properties = []) (indent : Text) :
    blockText indent b = lineNote b.startLine ++ headerLine b ++ "\n@end\n\n" ↔ b.fields = [] := by
  have htext : blockText indent b =
      lineNote b.startLine ++ headerLine b ++ (fieldLines indent b.fields ++ "\n@end\n\n") := by
    unfold blockText
    rw [hmethods, hproperties]
    simp
  rw [htext, List.append_cancel_left_eq]
  constructor
  · intro h
    have hnil : fieldLines indent b.fields = [] := by simpa using h
    by_contra hne
    simp [fieldLines, hne] at hnil
  · intro h
    simp [fieldLines, h]

/-- A block without an `@end` line below it has no methods and no properties. Whether it is written
as its header and an immediate `@end` depends on the variables alone, which it has like any other
block. -/
theorem unterminated_block (rootType path src indent : Text) {i : Nat} {b : Block} {o : Opener}
    (hb : (Skeleton.ofSource rootType path src).blocks[i]? = some b)
    (ho : (openers src)[i]? = some o) (hend : b.endLine = b.startLine) :
    (∀ n ∈ endLines src, n ≤ b.startLine) ∧ b.methods = [] ∧ b.properties = [] ∧
      (b.fields = [] ↔ b.kind = .protocol ∨ ¬ DeclaresVariable (src.drop o.headerEnd)) ∧
      (Outline.blockText (effectiveIndent indent) b =
        Outline.lineNote b.startLine ++ Outline.headerLine b ++ "\n@end\n\n" ↔ b.fields = []) := by
  obtain ⟨p, hp, hkind, hstart, hclose, hfields⟩ := exists_opener_of_block hb
  rw [ho] at hp
  cases hp
  obtain ⟨hmethods, hproperties⟩ := members_eq_nil hb hend
  refine ⟨?_, hmethods, hproperties, ?_, Outline.blockText_eq_iff hmethods hproperties _⟩
  · rw [hstart, ← endLineOf_eq_self_iff, ← hclose, hend, hstart]
  · rw [← not_iff_not, hfields, hkind, ← Ne, Block.fieldsOf_ne_nil_iff]
    push Not
    rfl

/-- Braces that nothing closes. -/
theorem unterminated_block_without_brace :
    let src : Text := "@implementation A\n\x7b\nint x;\n- (id)f;"
    let b : Block := ⟨.implementation, .implementation, "A", [], [], [], 1, 1, [], [], []⟩
    (Skeleton.ofSource [] "A.m" src).blocks[0]? = some b ∧
      Outline.blockText (effectiveIndent "\t") b = "// Line: 1\n@implementation A\n@end\n\n" := by
  intro src b
  have hb : (Skeleton.ofSource [] "A.m" src).blocks[0]? = some b := by decide +kernel
  have ho : (openers src)[0]? =
      some ⟨⟨.implementation, .implementation, "A", none, [], [], 17⟩, 1, 17⟩ := by decide +kernel
  have htext := (unterminated_block [] "A.m" src "\t" hb ho rfl).2.2.2.2.mpr rfl
  exact ⟨hb, htext.trans (by decide +kernel)⟩

/-- The variables of a block that no `@end` line closes are written. -/
theorem variables_of_unterminated_block :
    let file := Skeleton.ofSource [] "A.m" "@interface A : B \x7b\n  int x;\n\x7d\n"
    file.blocks.map (fun b => (b.startLine, b.endLine, b.fields)) = [(1, 1, [⟨"int", "x"⟩])] ∧
      file.blocks.map (Outline.blockText (effectiveIndent [])) =
        ["// Line: 1\n@interface A : B \x7b\n  int x;\n\x7d\n@end\n\n".toList] := by
  decide +kernel

theorem lt_endLineOf_firstLines {src : Text} {start : Int} {k : Nat} {line : Text}
    (hline : (Text.lines src)[k]? = some line) (hend : Text.trim (Text.dropReturn line) = "@end")
    (hstart : start < (k : Int) + 1) :
    start < Block.endLineOf (closingLines (src.firstLines (k + 1))).toArray start := by
  have hmem : (k : Int) + 1 ∈ closingLines (src.firstLines (k + 1)) := by
    rw [← mem_endLines]
    refine ⟨k, line, ?_, hend, rfl⟩
    rw [Text.lines_firstLines (Nat.succ_pos k), List.getElem?_take_of_lt (Nat.lt_succ_self k),
      hline]
  rcases Block.endLineOf_spec (closingLines_pairwise _) start with ⟨hlt, -⟩ | ⟨-, hnone⟩
  · exact hlt
  · exact absurd (hnone _ hmem) (not_le.mpr hstart)

/-- Cutting the text below the line where a block ends keeps the block, but for its variables. -/
theorem getElem?_blocks_firstLines {rootType path src : Text} {i k : Nat} {b : Block} {o : Opener}
    {line : Text} (hb : (Skeleton.ofSource rootType path src).blocks[i]? = some b)
    (ho : (openers src)[i]? = some o) (hline : (Text.lines src)[k]? = some line)
    (hend : Text.trim (Text.dropReturn line) = "@end") (hstart : o.line < (k : Int) + 1) :
    (Skeleton.ofSource rootType path (src.firstLines (k + 1))).blocks[i]? =
      some { b with fields := Block.fieldsOf (src.firstLines (k + 1)) o } := by
  have hlength : k + 1 ≤ (Text.lines src).length := (List.getElem?_eq_some_iff.mp hline).choose
  have hkept := getElem?_openers_firstLines (Nat.succ_pos k) hlength ho (by push_cast; omega)
  have hclosed := lt_endLineOf_firstLines hline hend hstart
  rcases Text.eq_firstLines_or (Nat.succ_pos k) src with heq | ⟨rest, heq⟩
  · obtain ⟨p, hp, -, -, -, hfields⟩ := exists_opener_of_block hb
    rw [ho] at hp
    cases hp
    rw [← heq, ← hfields, hb]
  · have hleft := getElem?_blocks_left rootType path _ rest hkept hclosed
    rw [← heq, hb] at hleft
    obtain ⟨c, hc, rfl⟩ := Option.map_eq_some_iff.mp hleft.symm
    obtain ⟨p, hp, -, -, -, hfields⟩ := exists_opener_of_block hc
    rw [hkept] at hp
    cases hp
    rw [hc, ← hfields]

/-- The variables of a block whose header ends above a bare `@end` line are decided above the end of
that line, unless it stands inside braces or inside a comment. -/
theorem fieldsOf_append_below {t line : Text} {o : Opener} (hheader : o.headerEnd ≤ t.length)
    (hfeed : '\n' ∉ line) (hend : Text.trim (Text.dropReturn line) = "@end")
    (hbrace : ¬ LeavesBraceOpen ((t ++ '\n' :: line).drop o.headerEnd))
    (hcomment : ¬ LeavesCommentOpen ((t ++ '\n' :: line).drop o.headerEnd)) (rest : Text) :
    Block.fieldsOf (t ++ '\n' :: line ++ '\n' :: rest) o =
      Block.fieldsOf (t ++ '\n' :: line) o := by
  obtain ⟨hat, hslash⟩ := Text.mem_of_bareEnd hend
  have hdrop (u : Text) : (t ++ u).drop o.headerEnd = t.drop o.headerEnd ++ u :=
    List.drop_append_of_le_length hheader
  rw [hdrop] at hbrace hcomment
  have hbody := fieldBody?_append_below hat hfeed hslash hbrace hcomment rest
  unfold Block.fieldsOf
  rw [List.append_assoc, hdrop, hdrop, ← List.append_assoc, hbody]

/-- Cutting a text below the line where a block ends takes nothing from the block, unless that line
stands inside the braces after its header or inside a comment before them. In that case it takes the
variables. -/
theorem block_of_firstLines (rootType path src : Text) {i : Nat} {b : Block} {o : Opener}
    (hb : (Skeleton.ofSource rootType path src).blocks[i]? = some b)
    (ho : (openers src)[i]? = some o) (hterminated : b.isTerminated) :
    let kept := src.firstLines b.endLine.toNat
    let inside := kept.drop o.headerEnd
    let blocks := (Skeleton.ofSource rootType path kept).blocks
    (¬ LeavesBraceOpen inside → ¬ LeavesCommentOpen inside → blocks[i]? = some b) ∧
      (LeavesBraceOpen inside ∨ LeavesCommentOpen inside →
        blocks[i]? = some { b with fields := [] }) := by
  obtain ⟨p, hp, -, hstart, hclose, hfields⟩ := exists_opener_of_block hb
  rw [ho] at hp
  cases hp
  rw [Block.isTerminated_iff, hstart, hclose] at hterminated
  obtain ⟨k, line, hline, hend, hk⟩ := (isLeast_endLineOf src o.line hterminated).1.1
  have hpos := (line_of_mem_openers (List.mem_of_getElem? ho)).1
  have hnumber : b.endLine.toNat = k + 1 := by omega
  have habove : o.line ≤ (k : Int) := by omega
  have hk' : 0 < k := by omega
  rw [hnumber]
  intro kept inside blocks
  have hblock : blocks[i]? = some { b with fields := Block.fieldsOf kept o } :=
    getElem?_blocks_firstLines hb ho hline hend (by omega)
  have hkept : kept = src.firstLines k ++ '\n' :: line := Text.firstLines_succ hk' hline
  constructor
  · intro hbrace hcomment
    have hlength : k ≤ (Text.lines src).length :=
      (List.getElem?_eq_some_iff.mp hline).choose.le
    have hopener := getElem?_openers_firstLines hk' hlength ho habove
    have hheader := headerEnd_le_length (List.mem_of_getElem? hopener)
    have hsame : Block.fieldsOf kept o = b.fields := by
      rw [hfields]
      rcases Text.eq_firstLines_or (Nat.succ_pos k) src with heq | ⟨rest, heq⟩
      · exact congrArg (Block.fieldsOf · o) heq.symm
      · simp only [inside, hkept] at hbrace hcomment
        have hrest : src = src.firstLines k ++ '\n' :: line ++ '\n' :: rest := hkept ▸ heq
        rw [hrest, hkept, fieldsOf_append_below hheader (Text.not_mem_of_mem_lines
          (List.mem_of_getElem? hline)) hend hbrace hcomment]
    rw [hblock, hsame]
  · intro hopen
    have hnone : fieldBody? inside = none :=
      hopen.elim LeavesBraceOpen.fieldBody?_eq_none LeavesCommentOpen.fieldBody?_eq_none
    have hempty : Block.fieldsOf kept o = [] := by
      simp only [Block.fieldsOf]
      rw [hnone]
      simp
    rw [hblock, hempty]

/-- The variables of a class below another one. -/
theorem block_of_firstLines_two_classes :
    let src : Text :=
      "@interface A : R /* v */\n\x7b\nint x;\n\x7d\n@end\n@interface B\n\x7b\nint y;\n\x7d\n@end"
    let b : Block := ⟨.interface, .interface, "A", "R", [], [], 1, 5, [⟨"int", "x"⟩], [], []⟩
    (Skeleton.ofSource [] "A.m" src).blocks[0]? = some b ∧
      (Skeleton.ofSource [] "A.m" (src.firstLines 5)).blocks[0]? = some b := by
  intro src b
  have hb : (Skeleton.ofSource [] "A.m" src).blocks[0]? = some b := by decide +kernel
  have ho : (openers src)[0]? =
      some ⟨⟨.interface, .interface, "A", some "R", [], [], 16⟩, 1, 16⟩ := by decide +kernel
  have hbody : (fieldBody? ((src.firstLines 5).drop 16)).isSome = true := by decide +kernel
  refine ⟨hb, (block_of_firstLines [] "A.m" src hb ho rfl).1 ?_ ?_⟩
  · exact fun hopen => absurd hopen.fieldBody?_eq_none (Option.isSome_iff_ne_none.mp hbody)
  · exact fun hopen => absurd hopen.fieldBody?_eq_none (Option.isSome_iff_ne_none.mp hbody)

/-- A brace that is not closed above `@end` is closed by the braces of the class below. -/
theorem variables_from_below_the_end :
    let src : Text := "@interface A : R \x7b\n@end\n@interface B : R \x7b\n  int x;\n\x7d\n@end"
    (Skeleton.ofSource [] "A.m" src).blocks.map (fun b => (b.isTerminated, b.endLine, b.fields)) =
        [(true, 2, [⟨"int", "x"⟩]), (true, 6, [⟨"int", "x"⟩])] ∧
      (Skeleton.ofSource [] "A.m" (src.firstLines 2)).blocks.map
        (fun b => (b.isTerminated, b.endLine, b.fields)) = [(true, 2, [])] := by
  decide +kernel

end ObjcOutline
