import ObjcOutline.Skeleton.Basic

/-!
# The name of a property

A declaration such as `NSString *name` declares its last word. A block-typed declaration such as
`void (^handler)(int)` declares the word after the caret, wherever that group stands first.
-/
namespace ObjcOutline.Property

/-- The word of a group `(^word)` at the very start of a text. Blanks may stand between its
parts. -/
def caretGroup? : Text → Option Text
  | '(' :: r =>
    match Text.skipBlanks r with
    | '^' :: r =>
      match Text.word? (Text.skipBlanks r) with
      | some (word, r) =>
        match Text.skipBlanks r with
        | ')' :: _ => some word
        | _ => none
      | none => none
    | _ => none
  | _ => none

def firstCaretGroup? : Text → Option Text
  | [] => none
  | c :: r => (caretGroup? (c :: r)).or (firstCaretGroup? r)

def lastWord? (t : Text) : Option Text :=
  match (t.reverse.dropWhile (!Text.isWordChar ·)).takeWhile Text.isWordChar with
  | [] => none
  | c :: w => some (c :: w).reverse

/-- The identifier that a property declares; a declaration without any word stands for itself. -/
def name (p : Property) : Text :=
  ((firstCaretGroup? p.declaration).or (lastWord? p.declaration)).getD p.declaration

end ObjcOutline.Property
