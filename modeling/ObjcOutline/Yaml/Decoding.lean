import ObjcOutline.Text.Base64
import ObjcOutline.Text.Quoted
import ObjcOutline.Yaml.Node
import ObjcOutline.Yaml.ScalarType

/-!
# From nodes to values

A node is decoded into a text, a truth value or a record. What does not fit is complained about and
leaves the value as it was; decoding goes on, so that all complaints come together. Only what makes
the document as a whole senseless stops decoding.

A record takes the keys it knows from a mapping and passes over the others. A mapping that has a key
twice is not decoded at all. The key `<<` merges other mappings: the keys of the mapping itself win
over merged ones, and earlier merged mappings over later ones.
-/
namespace ObjcOutline.Yaml

inductive Complaint
  | mismatch (line : Nat) (tag text target : Text)
  | duplicateKey (line : Nat) (key : Text) (firstLine : Nat)
  | repeatedField (line : Nat) (name target : Text)
deriving DecidableEq, Repr

namespace Complaint

def maxShown : Nat := 10

def cutLength : Nat := 7

/-- The start of a text up to a number of bytes. A character that is cut in two leaves a replacement
character for each of its bytes. -/
def cutBytes (n : Nat) (t : Text) : Text :=
  Utf8.decodeEach ((Utf8.encode t).take n)

/-- A value as a message shows it after a tag: quoted and cut, or as it is after the tag of a
collection. -/
def shownText (tag t : Text) : Text :=
  if tag = Node.sequenceTag || tag = Node.mappingTag then t
  else if maxShown < Text.byteLength t then " `" ++ cutBytes cutLength t ++ "...`"
  else " `" ++ t ++ "`"

def message : Complaint → Text
  | mismatch line tag text target =>
    "line " ++ Text.ofNat line ++ ": cannot unmarshal " ++ tag ++ shownText tag text ++ " into " ++
      target
  | duplicateKey line key firstLine =>
    "line " ++ Text.ofNat line ++ ": mapping key " ++ Text.quoted key ++
      " already defined at line " ++ Text.ofNat firstLine
  | repeatedField line name target =>
    "line " ++ Text.ofNat line ++ ": field " ++ name ++ " already set in type " ++ target

end Complaint

/-- The state of decoding: the complaints so far, how many nodes were decoded, how many of them
inside a reference, and in how many references decoding stands. -/
structure DecoderState where
  complaints : List Complaint := []
  visits : Nat := 0
  copies : Nat := 0
  depth : Nat := 0

namespace DecoderState

/-- Up to how many decoded nodes the share of copies is bounded by 99 in a hundred. -/
def freeVisits : Nat := 400000

/-- Over how many further nodes the bound goes down, evenly, to 10 in a hundred. -/
def slopeVisits : Nat := 3600000

/-- Whether so much of the work is decoding the same nodes again that the document must be
malicious. -/
def isExcessive (s : DecoderState) : Bool :=
  let bound := 99 * slopeVisits - 89 * min (s.visits - freeVisits) slopeVisits
  100 < s.copies && 1000 < s.visits && s.visits * bound < s.copies * 100 * slopeVisits

end DecoderState

/-- Decoding collects complaints, in order, and may stop. -/
abbrev Decoder := StateT DecoderState (Except Fault)

namespace Decoder

def complain (c : Complaint) : Decoder Unit :=
  modify fun s => { s with complaints := s.complaints ++ [c] }

def visit : Decoder Unit := do
  modify fun s =>
    { s with visits := s.visits + 1, copies := if s.depth = 0 then s.copies else s.copies + 1 }
  if (← get).isExcessive then throw { problem := "document contains excessive aliasing" }

def inReference {α : Type} (x : Decoder α) : Decoder α := do
  modify fun s => { s with depth := s.depth + 1 }
  let value ← x
  modify fun s => { s with depth := s.depth - 1 }
  return value

/-- The complaints about keys that a mapping has more than once: one for each pair. -/
def duplicates : List (Node × Node) → List Complaint
  | [] => []
  | (key, _) :: rest =>
    (rest.filter fun x => key.isLike x.1 && key.text = x.1.text).map
      (fun x => .duplicateKey x.1.line x.1.text key.line) ++ duplicates rest

def findDuplicates (entries : List (Node × Node)) : Decoder Bool := do
  let found := duplicates entries
  modify fun s => { s with complaints := s.complaints ++ found }
  return !found.isEmpty

def refuse (node : Node) (target : Text) : Decoder Unit := do
  match node with
  | .scalar line tag text => complain (.mismatch line tag text target)
  | .sequence line tag _ => complain (.mismatch line tag [] target)
  | .mapping line tag entries =>
    if !(← findDuplicates entries) then complain (.mismatch line tag [] target)
  | .reference .. => return

def follow (d : Document) (node : Node) : Node :=
  match node with
  | .reference _ _ anchor => (d.anchored? anchor).getD node
  | _ => node

def visitTarget (d : Document) (node : Node) : Decoder Node := do
  visit
  if let .reference .. := node then inReference visit
  return follow d node

def binaryTag : Text := "!!binary"

/-- The value of a scalar and its text. Only bytes in base 64 have a text other than the one
written. -/
def scalarValue (tag text : Text) : Except Fault (ScalarValue × Text) := do
  if tag = binaryTag then
    match Base64.decode? text with
    | some data =>
      let text := Utf8.decodeEach data
      return (.text text, text)
    | none => throw { problem := "!!binary value contains invalid base64 data" }
  return (← ScalarValue.ofTagged tag text, text)

/-- Decodes a text. Every scalar but null is one. -/
def text (d : Document) (node : Node) : Decoder (Option Text) := do
  match ← visitTarget d node with
  | .scalar _ tag text =>
    match ← scalarValue tag text with
    | (.null, _) => return none
    | (_, text) => return some text
  | node =>
    refuse node "string"
    return none

def yesWords : List Text := ["y", "Y", "yes", "Yes", "YES", "on", "On", "ON"]

def noWords : List Text := ["n", "N", "no", "No", "NO", "off", "Off", "OFF"]

def bool (d : Document) (node : Node) : Decoder (Option Bool) := do
  match ← visitTarget d node with
  | .scalar line tag text =>
    match ← scalarValue tag text with
    | (.null, _) => return none
    | (.bool value, _) => return some value
    | (value, word) =>
      if value = .text word && yesWords.contains word then return some true
      if value = .text word && noWords.contains word then return some false
      refuse (.scalar line tag text) "bool"
      return none
  | node =>
    refuse node "bool"
    return none

end Decoder

structure RecordField (α : Type) where
  key : Text
  decode : Document → Node → α → Decoder α

structure RecordShape (α : Type) where
  name : Text
  fields : List (RecordField α)

def RecordField.text {α : Type} (key : Text) (set : α → Text → α) : RecordField α where
  key
  decode d node record := return ((← Decoder.text d node).map (set record)).getD record

def RecordField.bool {α : Type} (key : Text) (set : α → Bool → α) : RecordField α where
  key
  decode d node record := return ((← Decoder.bool d node).map (set record)).getD record

namespace RecordShape

variable {α : Type}

/-- Where decoding a mapping into a record stands: the record, the names of the fields that were
set, and while merging the keys that are settled. -/
structure Progress (α : Type) where
  record : α
  isSet : List Text := []
  settled : Option (List Text)

def decodeEntry (shape : RecordShape α) (d : Document) (p : Progress α) (key value : Node) :
    Decoder (Progress α) := do
  match ← Decoder.text d key with
  | none => return p
  | some name =>
    if p.settled.any (·.contains name) then return p
    let p := { p with settled := p.settled.map (name :: ·) }
    match shape.fields.find? (·.key = name) with
    | none => return p
    | some field =>
      if p.isSet.contains name then
        Decoder.complain (.repeatedField key.line name shape.name)
        return p
      return { p with record := ← field.decode d value p.record, isSet := name :: p.isSet }

def decodeEntries (shape : RecordShape α) (d : Document) :
    Progress α → List (Node × Node) → Decoder (Progress α)
  | p, [] => return p
  | p, (key, value) :: rest => do
    if key.isMerge then decodeEntries shape d p rest
    else decodeEntries shape d (← decodeEntry shape d p key value) rest

/-- The names among the keys of a mapping. A key that has keys of its own more than once is
complained about. -/
def keyNames (d : Document) (entries : List (Node × Node)) : Decoder (List Text) :=
  entries.filterMapM fun x => do
    match ← Decoder.visitTarget d x.1 with
    | .scalar _ tag text =>
      match ← Decoder.scalarValue tag text with
      | (.text name, _) => return some name
      | _ => return none
    | .mapping _ _ inner =>
      if !(← Decoder.findDuplicates inner) then throw unusableKey
      return none
    | _ => throw unusableKey
where
  /-- Settled keys are kept by their hashes, and a collection has none. Looking for one would end the
  program; a decoder that is a function gives a fault. -/
  unusableKey : Fault := { problem := "runtime error: hash of unhashable type" }

def mergeSources (d : Document) (value : Node) : Except Fault (List Node) :=
  let sources := match value with
    | .sequence _ _ items => items
    | node => [node]
  if sources.all fun node => match Decoder.follow d node with
      | .mapping .. => true
      | _ => false
  then .ok sources
  else .error { problem := "map merge requires map or sequence of maps as the value" }

/-- Decodes a node into a record that already has values. `visited` holds the anchors that are being
followed, and `settled` the keys that are settled while merging. -/
def decodeFrom (shape : RecordShape α) (d : Document) :
    (fuel : Nat) → (visited : List Nat) → (settled : Option (List Text)) → Node → α →
      Decoder (α × Option (List Text))
  | 0, _, _, _, _ => throw { problem := "exceeded max depth" }
  | fuel + 1, visited, settled, node, record => do
    Decoder.visit
    match node with
    | .reference _ name anchor =>
      if visited.contains anchor then
        throw { problem := "anchor '" ++ name ++ "' value contains itself" }
      match d.anchored? anchor with
      | some target =>
        Decoder.inReference (decodeFrom shape d fuel (anchor :: visited) settled target record)
      | none => throw { problem := "unknown anchor '" ++ name ++ "' referenced" }
    | .mapping _ _ entries =>
      if ← Decoder.findDuplicates entries then return (record, settled)
      let p ← decodeEntries shape d { record, settled } entries
      match (entries.filter (·.1.isMerge)).getLast? with
      | none => return (p.record, p.settled)
      | some (_, value) =>
        let own ← match p.settled with
          | some names => pure names
          | none => keyNames d entries
        let (record, merged) ← (← mergeSources d value).foldlM
          (fun x source => decodeFrom shape d fuel visited x.2 source x.1) (p.record, some own)
        return (record, if p.settled.isSome then merged else none)
    | .scalar _ tag text =>
      match ← Decoder.scalarValue tag text with
      | (.null, _) => return (record, settled)
      | _ =>
        Decoder.refuse node shape.name
        return (record, settled)
    | .sequence .. =>
      Decoder.refuse node shape.name
      return (record, settled)

/-- Decodes a node into a record that already has values. Following a reference adds to the anchors
visited, and everything else goes down in the tree, so depth and anchors bound the steps. -/
def decode (shape : RecordShape α) (d : Document) (node : Node) (record : α) : Decoder α := do
  let (record, _) ← shape.decodeFrom d ((d.depthBound + 1) * (d.anchored.length + 1)) [] none node
    record
  return record

end RecordShape

def RecordField.record {α β : Type} (key : Text) (shape : RecordShape β) (get : α → β)
    (set : α → β → α) : RecordField α where
  key
  decode d node record := return set record (← shape.decode d node (get record))

inductive DecodeError
  | malformed (fault : Fault)
  | unfit (complaints : List Complaint)
deriving DecidableEq, Repr

namespace DecodeError

def message : DecodeError → Text
  | malformed fault => fault.message
  | unfit complaints =>
    "yaml: unmarshal errors:\n  " ++ Text.join "\n  " (complaints.map Complaint.message)

end DecodeError

/-- Decodes the first document into a record that already has values. The record comes back with
what fits; a fault that stops decoding leaves it as it was. -/
def RecordShape.ofDocument {α : Type} (shape : RecordShape α) (d : Document) (record : α) :
    α × Option DecodeError :=
  match d.root with
  | none => (record, none)
  | some root =>
    match (do Decoder.visit; shape.decode d root record).run {} with
    | .error fault => (record, some (.malformed fault))
    | .ok (record, s) => (record, if s.complaints.isEmpty then none else some (.unfit s.complaints))

end ObjcOutline.Yaml
