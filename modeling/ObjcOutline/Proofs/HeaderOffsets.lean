import ObjcOutline.Proofs.HeaderPatterns
import ObjcOutline.Proofs.RepairedLines
import ObjcOutline.Proofs.SurroundingSpace

/-!
# Where a header ends, in bytes

The end of a header is an offset in the bytes of the source text. It is a sum of three numbers: the
bytes of the lines above, added up line by line; the place where the trimmed line is found again by a
search in the line, which has lost its carriage return; and the end of the match in the trimmed line.
The sum is computed here as it is written, and it is shown to be right: the text is the lines above,
the white space in front of the header, the header, and the rest.
-/
namespace ObjcOutline

open Text

structure ByteOpener where
  header : Header
  line : Int
  headerEnd : Int
deriving DecidableEq, Repr

/-- The lines of a text as `SourceLine.place` gives them, with their first byte for an offset. -/
def SourceLine.placeBytes : (number start : Nat) → List Text → List SourceLine
  | _, _, [] => []
  | number, start, raw :: r =>
    ⟨number, start, dropReturn raw⟩ :: placeBytes (number + 1) (start + raw.byteLength + 1) r

namespace ByteOpener

/-- Reads a line that starts at the given byte as the opening of a block. The trimmed line is searched
for in the line, and the place is `-1` when it is not found. -/
def ofLine? (l : SourceLine) : Option ByteOpener :=
  match Mark.ofLine? l with
  | some (.opener o) =>
    let place : Int := (indexOf? (Utf8.encode l.trimmed) (Utf8.encode l.text)).elim (-1) Int.ofNat
    some ⟨o.header, o.line, l.start + place + byteLength (l.trimmed.take o.header.length)⟩
  | _ => none

def ofText (src : Text) : List ByteOpener :=
  (SourceLine.placeBytes 1 0 (lines src)).filterMap ofLine?

/-- The instance variables of a block, read from the bytes after its header. Nothing is read for an
offset past the end. -/
def fields (data : Bytes) (o : ByteOpener) : List Field :=
  if o.header.kind = .protocol ∨ data.length < o.headerEnd then []
  else (fieldBody? (Utf8.decodeEach (data.drop o.headerEnd.toNat))).elim [] Field.ofBody

end ByteOpener

/-- A text, cut before a line, before its end and after it. -/
structure LineCut where
  above : Text
  line : Text
  ending : Text
  below : Text

namespace LineCut

/-- A cut of a text around the line with the given number. The carriage return at the end of a line
belongs to its end. -/
structure IsAt (x : LineCut) (src : Text) (number : Int) : Prop where
  text_eq : src = x.above ++ (x.line ++ (x.ending ++ x.below))
  number_eq : number = x.above.count '\n' + 1
  above : x.above = [] ∨ ∃ t, x.above = t ++ ['\n']
  line : '\n' ∉ x.line
  ending : x.ending = ['\r'] ∨ x.ending = [] ∧ x.line.getLast? ≠ some '\r'
  below : x.below = [] ∨ ∃ t, x.below = '\n' :: t

end LineCut

theorem Text.exists_ending (raw : Text) : ∃ ending, raw = dropReturn raw ++ ending ∧
    (ending = ['\r'] ∨ ending = [] ∧ (dropReturn raw).getLast? ≠ some '\r') := by
  unfold dropReturn
  split_ifs with hlast
  · exact ⟨['\r'], (List.dropLast_append_getLast? '\r' hlast).symm, .inl rfl⟩
  · exact ⟨[], (List.append_nil raw).symm, .inr ⟨rfl, hlast⟩⟩

namespace Utf8

theorem byteLength_append (a b : Text) :
    (a ++ b).byteLength = a.byteLength + b.byteLength := by
  rw [← length_encode, encode_append, List.length_append, length_encode, length_encode]

/-- What starts with an at sign is not found within white space. -/
theorem indexOf?_encode_leading {space t : Text} (hspace : ∀ c ∈ space, isSpace c = true)
    (after : Text) : indexOf? (encode ('@' :: t)) (encode (space ++ ('@' :: t ++ after))) =
      some (encode space).length := by
  rw [encode_append, encode_append]
  apply indexOf?_append
  intro v w heq
  by_contra hlt
  -- Found any earlier, the byte of the sign would be a byte of the white space.
  have hsign : UInt8.ofNat '@'.toNat ∈ encode space := by
    rcases List.append_eq_append_iff.mp heq with ⟨u, rfl, -⟩ | ⟨u, hu, hsplit⟩
    · simp at hlt
    · cases u with
      | nil => simp [hu] at hlt
      | cons b u =>
        obtain rfl : UInt8.ofNat '@'.toNat = b := (List.cons.inj hsplit).1
        rw [hu]
        exact List.mem_append_right v List.mem_cons_self
  obtain ⟨c, hc, hform⟩ := List.mem_flatMap.mp hsign
  obtain rfl := eq_of_mem_utf8EncodeChar (by decide) hform
  exact absurd (hspace _ hc) (by decide)

end Utf8

theorem LineCut.exists_isAt {front raw : Text} (hfront : front = [] ∨ ∃ t, front = t ++ ['\n'])
    (hraw : '\n' ∉ raw) (ls : List Text) :
    ∃ x : LineCut, x.IsAt (front ++ (raw ++ Text.below ls)) (front.count '\n' + 1) ∧
      x.above = front ∧ x.line = dropReturn raw := by
  obtain ⟨ending, heq, hending⟩ := exists_ending raw
  refine ⟨⟨front, dropReturn raw, ending, Text.below ls⟩, ⟨?_, rfl, hfront, ?_, hending, ?_⟩, rfl, rfl⟩
  · rw [← List.append_assoc (dropReturn raw), ← heq]
  · exact fun hc => hraw (mem_of_mem_dropReturn hc)
  · exact below_eq_nil_or ls

theorem SourceLine.exists_cut_of_mem_placeBytes {front raw : Text} {ls : List Text} {l : SourceLine}
    (hfront : front = [] ∨ ∃ t, front = t ++ ['\n']) (hfree : ∀ m ∈ raw :: ls, '\n' ∉ m)
    (h : l ∈ placeBytes (front.count '\n' + 1) front.byteLength (raw :: ls)) :
    ∃ x : LineCut, x.IsAt (front ++ (raw ++ below ls)) l.number ∧ l.start = x.above.byteLength ∧
      l.text = x.line ∧
      ⟨l.number, x.above.length, l.text⟩ ∈
        place (front.count '\n' + 1) front.length (raw :: ls) := by
  induction ls generalizing front raw with
  | nil =>
    obtain ⟨x, hx, rfl, hline⟩ := LineCut.exists_isAt hfront (hfree raw List.mem_cons_self) []
    obtain rfl := List.mem_singleton.mp h
    exact ⟨x, hx, rfl, hline.symm, List.mem_cons_self⟩
  | cons next ls ih =>
    obtain ⟨hraw, hfree⟩ := List.forall_mem_cons.mp hfree
    rcases List.mem_cons.mp h with rfl | h
    · obtain ⟨x, hx, rfl, hline⟩ := LineCut.exists_isAt hfront hraw (next :: ls)
      exact ⟨x, hx, rfl, hline.symm, List.mem_cons_self⟩
    · have hcount : (front ++ (raw ++ ['\n'])).count '\n' = front.count '\n' + 1 := by
        rw [List.count_append, List.count_append, List.count_eq_zero.mpr hraw]
        rfl
      have hbytes : (front ++ (raw ++ ['\n'])).byteLength = front.byteLength + raw.byteLength + 1 := by
        rw [Utf8.byteLength_append, Utf8.byteLength_append, ← Nat.add_assoc]
        rfl
      have hlength : (front ++ (raw ++ ['\n'])).length = front.length + raw.length + 1 := by
        simp [Nat.add_assoc]
      have htext : front ++ (raw ++ ['\n']) ++ (next ++ below ls) =
          front ++ (raw ++ below (next :: ls)) := by simp
      have hends : front ++ (raw ++ ['\n']) = [] ∨ ∃ t, front ++ (raw ++ ['\n']) = t ++ ['\n'] :=
        .inr ⟨front ++ raw, by simp⟩
      have hnext := ih hends hfree
      rw [hcount, hbytes, hlength, htext] at hnext
      obtain ⟨x, hx, hstart, hline, hmem⟩ := hnext h
      exact ⟨x, hx, hstart, hline, List.mem_cons_of_mem _ hmem⟩

/-- A line that starts at a byte stands in its text, and the bytes above it are those before it. -/
theorem SourceLine.exists_cut {src : Text} {l : SourceLine} (h : l ∈ placeBytes 1 0 (lines src)) :
    ∃ x : LineCut, x.IsAt src l.number ∧ l.start = x.above.byteLength ∧ l.text = x.line ∧
      ⟨l.number, x.above.length, l.text⟩ ∈ ofText src := by
  obtain ⟨raw, ls, hlines⟩ := List.exists_cons_of_ne_nil (split_ne_nil '\n' src)
  have hsrc : lines src = raw :: ls := hlines
  have hfree : ∀ m ∈ raw :: ls, '\n' ∉ m := fun m hm => not_mem_of_mem_lines (hsrc ▸ hm)
  rw [hsrc] at h
  obtain ⟨x, hx, hstart, hline, hmem⟩ := exists_cut_of_mem_placeBytes (.inl rfl) hfree h
  rw [List.nil_append, ← eq_append_below hsrc] at hx
  rw [ofText, hsrc]
  exact ⟨x, hx, hstart, hline, hmem⟩

/-- An opener stands on its line behind white space, and the white space and the header lead up to
the end of the header. -/
theorem Mark.exists_header {l : SourceLine} {o : Opener} (h : ofLine? l = some (.opener o)) :
    ∃ header rest after, o.header.IsMatch l.trimmed header ∧ l.trimmed = header ++ rest ∧
      l.text = leading l.text ++ (header ++ rest ++ after) ∧ o.header.length = header.length ∧
      o.headerEnd = l.start + (leading l.text ++ header).length := by
  obtain ⟨found, hfound, rfl⟩ := Option.map_eq_some_iff.mp (ofLine?_eq_opener h)
  obtain ⟨header, rest, hmatch, htrim, hlength⟩ := Header.exists_isMatch hfound
  obtain ⟨after, -, hline⟩ := exists_eq_trim l.text
  refine ⟨header, rest, after, hmatch, htrim, ?_, hlength, ?_⟩
  · rw [← htrim]
    exact hline
  · simp only [SourceLine.contentStart, hlength, leading, List.length_append, Nat.add_assoc]

theorem Mark.ofLine?_start (number start : Nat) (line : Text) :
    ofLine? ⟨number, start, line⟩ = (ofLine? ⟨number, 0, line⟩).map (shift 0 start) := by
  simpa [SourceLine.shift] using ofLine?_shift 0 start ⟨number, 0, line⟩

theorem Mark.exists_opener_of_start {l : SourceLine} {o : Opener}
    (h : ofLine? l = some (.opener o)) (start : Nat) :
    ∃ o', ofLine? ⟨l.number, start, l.text⟩ = some (.opener o') ∧
      o'.header = o.header ∧ o'.line = o.line := by
  obtain ⟨m, hm, hopener⟩ := Option.map_eq_some_iff.mp ((ofLine?_start ..).symm.trans h)
  cases m with
  | opener o' =>
    cases hopener
    exact ⟨o'.shift 0 start, by rw [ofLine?_start, hm]; rfl, rfl, rfl⟩
  | closer line => cases hopener
  | method x => cases hopener
  | property x => cases hopener

namespace ByteOpener

theorem map_ofLine? (number start start' : Nat) (line : Text) :
    (ofLine? ⟨number, start, line⟩).map (fun o => (o.header, o.line)) =
      ((Mark.ofLine? ⟨number, start', line⟩).bind Mark.opener?).map fun p => (p.header, p.line) := by
  rw [ofLine?, Mark.ofLine?_start number start, Mark.ofLine?_start number start']
  cases Mark.ofLine? ⟨number, 0, line⟩ with
  | none => rfl
  | some m => cases m <;> rfl

/-- Counted in bytes or in characters, the same headers open blocks on the same lines. -/
theorem map_ofText (src : Text) : (ofText src).map (fun o => (o.header, o.line)) =
    (openers src).map fun p => (p.header, p.line) := by
  have hplace (number start start' : Nat) (ls : List Text) :
      ((SourceLine.placeBytes number start ls).filterMap fun l =>
          (ofLine? l).map fun o => (o.header, o.line)) =
        (SourceLine.place number start' ls).filterMap fun l =>
          ((Mark.ofLine? l).bind Mark.opener?).map fun p => (p.header, p.line) := by
    induction ls generalizing number start start' with
    | nil => rfl
    | cons raw ls ih =>
      simp only [SourceLine.placeBytes, SourceLine.place, List.filterMap_cons,
        map_ofLine? number start start', ih _ _ (start' + raw.length + 1)]
  unfold ofText openers Mark.ofText
  rw [List.map_filterMap, List.filterMap_filterMap, List.map_filterMap]
  exact hplace 1 0 0 (lines src)

theorem exists_of_ofLine? {l : SourceLine} {o : ByteOpener} (h : ofLine? l = some o) :
    ∃ header rest p, o.header.IsMatch l.trimmed header ∧
      l.text = leading l.text ++ (header ++ rest) ∧
      o.headerEnd = (l.start + (leading l.text ++ header).byteLength : Nat) ∧
      Mark.ofLine? l = some (.opener p) ∧ p.header = o.header ∧ p.line = o.line := by
  unfold ofLine? at h
  split at h
  next p hp =>
    obtain ⟨header, rest, after, hmatch, htrim, hline, hlength, -⟩ := Mark.exists_header hp
    obtain ⟨t, hat⟩ := hmatch.spells.exists_cons
    have hplace : indexOf? (Utf8.encode l.trimmed) (Utf8.encode l.text) =
        some (leading l.text).byteLength := by
      have hfound := Utf8.indexOf?_encode_leading (t := t ++ rest)
        (fun c (hc : c ∈ leading l.text) => isSpace_of_mem_leading hc) after
      rw [← List.cons_append, ← hat, ← hline, ← htrim, Utf8.length_encode] at hfound
      exact hfound
    have htake : l.trimmed.take p.header.length = header := by
      rw [htrim, hlength, List.take_left]
    cases h
    refine ⟨header, rest ++ after, p, hmatch, ?_, ?_, hp, rfl, rfl⟩
    · rwa [List.append_assoc] at hline
    · simp only [hplace, htake, Option.elim_some, Utf8.byteLength_append, Int.ofNat_eq_natCast]
      omega
  · cases h

section Split
variable {src front tail : Text} {o : ByteOpener} (hsrc : src = front ++ tail)
  (hend : o.headerEnd = (Utf8.encode front).length)
include hsrc hend

theorem headerEnd_le : o.headerEnd ≤ (Utf8.encode src).length := by
  rw [hend, hsrc, Utf8.encode_append, List.length_append]
  omega

theorem drop_headerEnd : (Utf8.encode src).drop o.headerEnd.toNat = Utf8.encode tail := by
  rw [hend, hsrc, Int.toNat_natCast, Utf8.encode_append, List.drop_left]

/-- Where both offsets come after the same part of the text, the same variables are read. -/
theorem fields_eq {p : Opener} (hheader : p.header = o.header) (hp : p.headerEnd = front.length) :
    o.fields (Utf8.encode src) = Block.fieldsOf src p := by
  have hle : ¬ (Utf8.encode src).length < o.headerEnd := not_lt.mpr (headerEnd_le hsrc hend)
  have hdrop : src.drop p.headerEnd = tail := by rw [hp, hsrc, List.drop_left]
  unfold fields Block.fieldsOf
  rw [drop_headerEnd hsrc hend, Utf8.decodeEach_encode, hheader, hdrop]
  by_cases hkind : o.header.kind = .protocol
  · rw [if_pos (.inl hkind), if_pos hkind]
  · rw [if_neg (not_or.mpr ⟨hkind, hle⟩), if_neg hkind]
    cases fieldBody? tail <;> rfl

end Split

end ByteOpener

/-- The recorded end of a header is the offset in bytes of what follows the header. Its line is cut
at the white space in front, the header that the pattern matches, and the rest, so the offset lies on
the line, before the end of the line and within the text, and the block has the instance variables
that are read from there. -/
theorem headerEnd_exact {src : Text} {o : ByteOpener} (h : o ∈ ByteOpener.ofText src) :
    ∃ (x : LineCut) (header rest : Text), x.IsAt src o.line ∧
      x.line = leading x.line ++ (header ++ rest) ∧ o.header.IsMatch (trim x.line) header ∧
      o.headerEnd = (Utf8.encode (x.above ++ (leading x.line ++ header))).length ∧
      o.headerEnd ≤ (Utf8.encode src).length ∧
      (Utf8.encode src).drop o.headerEnd.toNat = Utf8.encode (rest ++ (x.ending ++ x.below)) ∧
      ∃ p ∈ openers src, p.header = o.header ∧ p.line = o.line ∧
        p.headerEnd = (x.above ++ (leading x.line ++ header)).length ∧
        o.fields (Utf8.encode src) = Block.fieldsOf src p := by
  obtain ⟨l, hl, ho⟩ := List.mem_filterMap.mp h
  obtain ⟨x, hx, hstart, hline, hmem⟩ := SourceLine.exists_cut hl
  obtain ⟨header, rest, q, hmatch, htext, hend, hq, hqheader, hqline⟩ :=
    ByteOpener.exists_of_ofLine? ho
  obtain ⟨p, hp, hpheader, hpline⟩ := Mark.exists_opener_of_start hq x.above.length
  rw [hqheader] at hpheader
  rw [hqline] at hpline
  rw [hline] at htext hend hp hmem
  have hnumber : o.line = l.number := hpline ▸ Mark.line_of_ofLine? hp
  have hpend : p.headerEnd = (x.above ++ (leading x.line ++ header)).length := by
    obtain ⟨header', _, _, hmatch', -, -, -, hpend⟩ := Mark.exists_header hp
    have hsame : header'.length = header.length := by
      rw [← hmatch'.spells.length_eq, ← hmatch.spells.length_eq, hpheader]
    rw [hpend, List.length_append, List.length_append, List.length_append, hsame]
  have hbytes : o.headerEnd = (Utf8.encode (x.above ++ (leading x.line ++ header))).length := by
    rw [hend, hstart, Utf8.length_encode, Utf8.byteLength_append x.above]
  have hsplit : src = x.above ++ (leading x.line ++ header) ++ (rest ++ (x.ending ++ x.below)) := by
    conv_lhs => rw [hx.text_eq, htext]
    simp only [List.append_assoc]
  have hopener : p ∈ openers src := mem_openers.mpr (List.mem_filterMap.mpr ⟨_, hmem, hp⟩)
  have hmatched : o.header.IsMatch (trim x.line) header := hline ▸ hmatch
  exact ⟨x, header, rest, hnumber ▸ hx, htext, hmatched, hbytes,
    ByteOpener.headerEnd_le hsplit hbytes, ByteOpener.drop_headerEnd hsplit hbytes, p, hopener,
    hpheader, hpline, hpend, ByteOpener.fields_eq hsplit hbytes hpheader hpend⟩

/-- A header behind an ideographic space, below a line with an accent. It holds an accent itself, and
its own start stands on the line once more. -/
theorem headerEnd_exact_behind_wide_space :
    let src : Text :=
      "\u00e9\r\n\u3000\t@interface A<\u00e9> : B <P> @interface A\u00a0\r\n\x7bint x;\x7d\r\n@end"
    let o : ByteOpener :=
      ⟨⟨.interface, .interface, "A", some ("B" : Text), ["P"], [], 23⟩, 2, 32⟩
    o ∈ ByteOpener.ofText src ∧
      ∃ (x : LineCut) (header rest : Text), x.IsAt src 2 ∧ o.header.IsMatch (trim x.line) header ∧
        (Utf8.encode (x.above ++ (leading x.line ++ header))).length = (32 : Int) ∧
        (Utf8.encode src).drop 32 = Utf8.encode (rest ++ (x.ending ++ x.below)) := by
  intro src o
  have hmem : o ∈ ByteOpener.ofText src := by decide +kernel
  obtain ⟨x, header, rest, hx, -, hmatch, hend, -, hdrop, -⟩ := headerEnd_exact hmem
  exact ⟨hmem, x, header, rest, hx, hmatch, hend.symm, hdrop⟩

end ObjcOutline
