import ObjcOutline.SymbolMap.Build
import ObjcOutline.Proofs.BlockExtent

/-!
# The return type of a method

A return type may hold parentheses of its own, as the type of a block or of a function pointer does.
The return type that is read ends at the first closing parenthesis, and what follows it counts as the
start of the signature. So a method is read with its return type exactly when that type has no
parentheses. The parentheses of a type are balanced, which is what makes its first closing one stand
behind an opening one.
-/
namespace ObjcOutline

/-- Texts in which every parenthesis has its partner. -/
inductive Text.Balanced : Text → Prop
  | nil : Balanced []
  | other {c : Char} {t : Text} : c ≠ '(' → c ≠ ')' → Balanced t → Balanced (c :: t)
  | group {s t : Text} : Balanced s → Balanced t → Balanced ('(' :: (s ++ ')' :: t))

namespace Text.Balanced

theorem of_not_mem {t : Text} (hopen : '(' ∉ t) (hclose : ')' ∉ t) : Balanced t := by
  induction t with
  | nil => exact .nil
  | cons c t ih =>
    rw [List.mem_cons, not_or] at hopen hclose
    exact .other (Ne.symm hopen.1) (Ne.symm hclose.1) (ih hopen.2 hclose.2)

theorem mem_iff {t : Text} (h : Balanced t) : '(' ∈ t ↔ ')' ∈ t := by
  induction h with
  | nil => simp
  | other hopen hclose _ ih => simp [hopen.symm, hclose.symm, ih]
  | group _ _ _ _ => simp

theorem mem_of_close {t front back : Text} (h : Balanced t) (heq : t = front ++ ')' :: back) :
    '(' ∈ front := by
  induction h generalizing front with
  | nil => simp at heq
  | other hopen hclose _ ih =>
    cases front with
    | nil => exact absurd (List.cons.inj heq).1 hclose
    | cons d front => exact List.mem_cons_of_mem d (ih (List.cons.inj heq).2)
  | group _ _ _ _ =>
    cases front with
    | nil => exact absurd (List.cons.inj heq).1 (by decide)
    | cons d front => rw [← (List.cons.inj heq).1]; exact List.mem_cons_self

end Text.Balanced

def writtenMethod (sign closing : Char) (type signature : Text) : Text :=
  sign :: ' ' :: '(' :: (type ++ ')' :: (signature ++ [closing]))

section Line
variable {sign : Char} (hsign : sign = '+' ∨ sign = '-')
include hsign

theorem Mark.ofLine?_sign {l : SourceLine} {t : Text} (htext : l.text = sign :: t) :
    ofLine? l = (Method.ofLine? l.number l.text).map .method := by
  obtain ⟨number, start, text⟩ := l
  subst htext
  have hspace : Text.isSpace sign = false := by rcases hsign with rfl | rfl <;> decide
  have hat : sign ≠ '@' := by rcases hsign with rfl | rfl <;> decide
  have hpassed : isPassedOver (sign :: Text.trimEnd t) = false := by
    rcases hsign with rfl | rfl <;> rfl
  have hline := ofLine?_of_ne_at Text.IsIndent.nil number start hspace hat t
  rw [hpassed] at hline
  exact hline

/-- The return type ends at the first closing parenthesis. -/
theorem Method.ofLine?_firstClose (number : Int) {type : Text} (hne : type ≠ [])
    (hclose : ')' ∉ type) (rest : Text) :
    ofLine? number (sign :: ' ' :: '(' :: (type ++ ')' :: rest)) =
      (nonemptyBefore? endsSignature rest).map fun signature =>
        ⟨[sign], Text.trim type, Text.trim signature, number⟩ := by
  have hskip (t : Text) : Text.skipBlanks (sign :: t) = sign :: t := by
    apply Text.skipBlanks_cons
    rcases hsign with rfl | rfl <;> decide
  have hparen := parenthesised?_append hclose rest
  rw [ofLine?, hskip]
  simp only [beq_iff_eq, Bool.or_eq_true, if_pos hsign, hparen]
  cases type with
  | nil => exact absurd rfl hne
  | cons c type => rfl

theorem Mark.not_mem_returnType {l : SourceLine} {m : Method} {front rest : Text}
    (htext : l.text = sign :: ' ' :: '(' :: (front ++ ')' :: rest)) (hne : front ≠ [])
    (hfront : ')' ∉ front) (hm : ofLine? l = some (.method m)) : ')' ∉ m.returnType := by
  rw [ofLine?_sign hsign htext, htext, Method.ofLine?_firstClose hsign _ hne hfront,
    Option.map_map] at hm
  obtain ⟨signature, -, heq⟩ := Option.map_eq_some_iff.mp hm
  rw [← Mark.method.inj heq]
  exact fun hc => hfront (Text.mem_of_mem_trim hc)

/-- A line on which `front` reaches to the first closing parenthesis and `back` from there to the end
of the signature. -/
theorem Mark.ofLine?_firstClose {l : SourceLine} {closing : Char}
    (hclosing : closing = ';' ∨ closing = '{') {front back : Text}
    (htext : l.text = writtenMethod sign closing front back) (hne : front ≠ [])
    (hfront : ')' ∉ front) (hback : back ≠ []) (hends : '{' ∉ back ∧ ';' ∉ back) :
    ofLine? l = some (.method ⟨[sign], Text.trim front, Text.trim back, l.number⟩) := by
  have hall : ∀ c ∈ back, endsSignature c = false := by
    intro c hc
    rw [endsSignature, Bool.or_eq_false_iff, beq_eq_false_iff_ne, beq_eq_false_iff_ne]
    exact ⟨fun heq => hends.1 (heq ▸ hc), fun heq => hends.2 (heq ▸ hc)⟩
  have hend : endsSignature closing = true := by
    rcases hclosing with rfl | rfl <;> rfl
  rw [ofLine?_sign hsign htext, htext, writtenMethod, Method.ofLine?_firstClose hsign _ hne hfront,
    nonemptyBefore?_append hback hall hend []]
  rfl

end Line

theorem SymbolMap.ofMethod_mem_symbols {src : Text} {l : SourceLine} {m : Method}
    (hl : l ∈ SourceLine.ofText src) (hm : Mark.ofLine? l = some (.method m)) (rootType path : Text)
    (withProperties : Bool) :
    Symbol.ofMethod m ∈
      (ofSkeleton (Skeleton.ofSource rootType path src) withProperties).symbols := by
  have hmethod : m ∈ (Skeleton.ofSource rootType path src).methods :=
    List.mem_filterMap.mpr ⟨.method m, List.mem_filterMap.mpr ⟨l, hl, hm⟩, rfl⟩
  rw [ofSkeleton, List.mem_mergeSort, gathered]
  exact List.mem_append_right _ (List.mem_map_of_mem hmethod)

/-- A method line is read with its return type exactly when the type has no parentheses, and its
symbol is then named by the sign and the signature. A type with parentheses is cut after the text
before its first closing one, and the rest of it goes to the signature. -/
theorem method_of_return_type {sign closing : Char} (hsign : sign = '+' ∨ sign = '-')
    (hclosing : closing = ';' ∨ closing = '{') {type signature : Text} (hbalanced : type.Balanced)
    (htype : Text.trim type ≠ []) (hsignature : Text.trim signature ≠ [])
    (hends : '{' ∉ signature ∧ ';' ∉ signature) {src : Text} {l : SourceLine}
    (hl : l ∈ SourceLine.ofText src) (htext : l.text = writtenMethod sign closing type signature) :
    (Mark.ofLine? l =
        some (.method ⟨[sign], Text.trim type, Text.trim signature, l.number⟩) ↔ '(' ∉ type) ∧
      ('(' ∉ type → ∀ rootType path withProperties,
        ⟨sign :: Text.trim signature, Symbol.methodKind, l.number⟩ ∈ (SymbolMap.ofSkeleton
          (Skeleton.ofSource rootType path src) withProperties).symbols) ∧
      ∀ front back, type = front ++ ')' :: back → ')' ∉ front → '{' ∉ back → ';' ∉ back →
        Mark.ofLine? l = some (.method
          ⟨[sign], Text.trim front, Text.trim (back ++ ')' :: signature), l.number⟩) := by
  have htype : type ≠ [] := fun h => htype (congrArg Text.trim h)
  have hsignature : signature ≠ [] := fun h => hsignature (congrArg Text.trim h)
  have hplain (hopen : '(' ∉ type) : Mark.ofLine? l =
      some (.method ⟨[sign], Text.trim type, Text.trim signature, l.number⟩) :=
    Mark.ofLine?_firstClose hsign hclosing htext htype (hbalanced.mem_iff.not.mp hopen)
      hsignature hends
  have hfront {front back : Text} (heq : type = front ++ ')' :: back) : front ≠ [] :=
    List.ne_nil_of_mem (hbalanced.mem_of_close heq)
  refine ⟨⟨fun hread hopen => ?_, hplain⟩, fun hopen rootType path withProperties => ?_,
    fun front back heq hclose hbrace hsemicolon => ?_⟩
  · have hmem := hbalanced.mem_iff.mp hopen
    obtain ⟨front, back, heq, hclose⟩ := List.eq_append_cons_of_mem hmem
    have hsplit : l.text = sign :: ' ' :: '(' ::
        (front ++ ')' :: (back ++ ')' :: (signature ++ [closing]))) := by
      simp [htext, writtenMethod, heq]
    exact Mark.not_mem_returnType hsign hsplit (hfront heq) hclose hread
      (Text.mem_trim hmem (by decide))
  · exact SymbolMap.ofMethod_mem_symbols hl (hplain hopen) rootType path withProperties
  · have hsplit : l.text = writtenMethod sign closing front (back ++ ')' :: signature) := by
      simp [htext, writtenMethod, heq]
    refine Mark.ofLine?_firstClose hsign hclosing hsplit (hfront heq) hclose (by simp) ?_
    simp [hbrace, hsemicolon, hends]

/-- A method with a body, on the second line of its file. -/
theorem method_of_return_type_with_body :
    let src : Text := "@implementation A\n+ ( NSArray<id> * ) f:(int)n \x7b\r\n"
    ⟨"+f:(int)n", "method", 2⟩ ∈
        (SymbolMap.ofSkeleton (Skeleton.ofSource [] "A.m" src) false).symbols ∧
      Mark.ofLine? ⟨2, 18, "+ ( NSArray<id> * ) f:(int)n \x7b"⟩ =
        some (.method ⟨"+", "NSArray<id> *", "f:(int)n", 2⟩) := by
  intro src
  have hbalanced : Text.Balanced " NSArray<id> * " := .of_not_mem (by decide) (by decide)
  have hline : ⟨2, 18, "+ ( NSArray<id> * ) f:(int)n \x7b"⟩ ∈ SourceLine.ofText src := by
    decide +kernel
  have htext : SourceLine.text ⟨2, 18, "+ ( NSArray<id> * ) f:(int)n \x7b"⟩ =
      writtenMethod '+' '{' " NSArray<id> * " " f:(int)n " := rfl
  have hread := method_of_return_type (.inl rfl) (.inr rfl) hbalanced (by decide) (by decide)
    (by decide) hline htext
  exact ⟨hread.2.1 (by decide) [] "A.m" false, hread.1.mpr (by decide)⟩

/-- The type of a block that takes a number. Its first closing parenthesis is not its last. -/
theorem method_of_block_return_type :
    let file := Skeleton.ofSource [] "A.m" "- (void (^)(int))handler;"
    file.methods = [⟨"-", "void (^", "(int))handler", 1⟩] ∧
      (SymbolMap.ofSkeleton file false).symbols = [⟨"-(int))handler", "method", 1⟩] ∧
      ⟨"-", "void (^)(int)", "handler", 1⟩ ∉ file.methods := by
  decide +kernel

end ObjcOutline
