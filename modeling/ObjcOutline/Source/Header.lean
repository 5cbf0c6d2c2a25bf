import ObjcOutline.Source.Member

/-!
# Block headers

The opening line of a block, trimmed of white space, starts with its header. Four forms are tried
in order:

* a category, `@interface` or `@implementation`, a name and a category name in parentheses;
* an interface, with an optional supertype after a colon, type parameters allowed before the
  colon, and an optional protocol list in angle brackets;
* an implementation;
* a protocol, unless a semicolon or a comma follows its name, which makes it a forward declaration.

A name is as long a word as stands there, so a header is decided from left to right.
-/
namespace ObjcOutline

/-- A block header, with the number of characters it takes at the start of the trimmed line. -/
structure Header where
  kind : Kind
  keyword : Kind
  name : Text
  supertype : Option Text := none
  protocols : List Text := []
  category : Text := []
  length : Nat
deriving DecidableEq, Repr

namespace Header

def name? (keyword : Kind) (t : Text) : Option (Text × Text) :=
  match Text.after? ('@' :: keyword.toText) t with
  | some r =>
    match Text.skipBlanks? r with
    | some r => Text.word? r
    | none => none
  | none => none

/-- A text in angle brackets after optional blanks, up to the first closing bracket, and what
follows it. -/
def angled? (t : Text) : Option (Text × Text) :=
  match Text.skipBlanks t with
  | '<' :: r => Text.cut? (· == '>') r
  | _ => none

/-- The supertype that follows an interface's name, after optional type parameters, and what
follows it. -/
def supertype? (t : Text) : Option (Text × Text) :=
  let r := match angled? t with
    | some (_, r) => r
    | none => t
  match Text.skipBlanks r with
  | ':' :: r => Text.word? (Text.skipBlanks r)
  | _ => none

def listedNames (list : Text) : List Text :=
  ((Text.split ',' list).map Text.trim).filter (!·.isEmpty)

/-- The protocols in angle brackets at the start of a text, and what follows them. Empty brackets
are no protocol list. -/
def protocolsOf (t : Text) : List Text × Text :=
  match angled? t with
  | some (c :: list, r) => (listedNames (c :: list), r)
  | _ => ([], t)

def categoryOf? (keyword : Kind) (t : Text) : Option Header :=
  match name? keyword t with
  | some (name, r) =>
    match parenthesised? r with
    | some (category, rest) =>
      some { kind := .category, keyword, name, category := Text.trim category,
             length := t.length - rest.length }
    | none => none
  | none => none

def interface? (t : Text) : Option Header :=
  match name? .interface t with
  | some (name, r) =>
    match supertype? r with
    | some (supertype, r) =>
      let (protocols, rest) := protocolsOf r
      some { kind := .interface, keyword := .interface, name, supertype := some supertype,
             protocols, length := t.length - rest.length }
    | none =>
      let (protocols, rest) := protocolsOf r
      some { kind := .interface, keyword := .interface, name, protocols,
             length := t.length - rest.length }
  | none => none

def implementation? (t : Text) : Option Header :=
  match name? .implementation t with
  | some (name, rest) =>
    some { kind := .implementation, keyword := .implementation, name,
           length := t.length - rest.length }
  | none => none

/-- Whether what follows a protocol's name makes the line a forward declaration. -/
def isForward (rest : Text) : Bool :=
  match Text.trimStart rest with
  | c :: _ => c == ';' || c == ','
  | [] => false

def protocol? (t : Text) : Option Header :=
  match name? .protocol t with
  | some (name, rest) =>
    if isForward rest then none
    else some { kind := .protocol, keyword := .protocol, name, length := t.length - rest.length }
  | none => none

def ofTrimmed? (t : Text) : Option Header :=
  (categoryOf? .interface t).or <| (categoryOf? .implementation t).or <|
    (interface? t).or <| (implementation? t).or <| protocol? t

end Header

end ObjcOutline
