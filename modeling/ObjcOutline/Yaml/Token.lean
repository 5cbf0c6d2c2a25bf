import ObjcOutline.Yaml.Fault

/-!
# YAML tokens

The tokens between the text and the nodes of a YAML document. Besides the indicators that are
written there are tokens for where blocks begin and end, which only indentation shows.
-/
namespace ObjcOutline.Yaml

inductive TokenKind
  | streamEnd
  | version (major minor : Nat)
  | handle (name lead : Text)
  | documentStart
  | documentEnd
  | blockSequence
  | blockMapping
  | blockEnd
  | flowSequence
  | flowSequenceEnd
  | flowMapping
  | flowMappingEnd
  | blockEntry
  | flowEntry
  | key
  | value
  | reference (name : Text)
  | anchor (name : Text)
  | tag (handle suffix : Text)
  | scalar (isPlain : Bool) (text : Text)
deriving DecidableEq, Repr

/-- A token on its line, counted from zero. -/
structure Token where
  kind : TokenKind
  line : Nat
deriving DecidableEq, Repr

end ObjcOutline.Yaml
