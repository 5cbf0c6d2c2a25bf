import ObjcOutline.Yaml.Scan
import ObjcOutline.Yaml.Input
import ObjcOutline.Yaml.Node
import ObjcOutline.Yaml.ScalarType

/-!
# From tokens to the first document

Only the first document of a text is read. Tokens are only found as far as reading it has to look, so
what follows them may be malformed.
-/
namespace ObjcOutline.Yaml

/-- The state of reading: the scan for tokens, the shorthands for tags, the anchors that names stand
for at this point, and the anchored nodes that are complete. -/
structure Reading where
  scan : Scan
  shorthands : List (Text × Text) := []
  names : List (Text × Nat) := []
  anchored : List (Nat × Node) := []
  nextAnchor : Nat := 0

abbrev Reader := StateT Reading (Except Fault)

namespace Reader

def peek : Reader Token := do
  let (t, scan) ← (← get).scan.peek
  modify fun s => { s with scan }
  return t

def advance : Reader Unit := modify fun s => { s with scan := s.scan.advance }

def peekNext : Reader Token := do
  advance
  peek

def shortTag (tag : Text) : Text :=
  match Text.after? "tag:yaml.org,2002:" tag with
  | some name => "!!" ++ name
  | none => tag

def expandTag (context line : Nat) (handle suffix : Text) : Reader Text := do
  if handle.isEmpty then return suffix
  match (← get).shorthands.lookup handle with
  | some lead =>
    if (lead ++ suffix).isEmpty then
      throw (.grammar context line "found undefined tag handle")
    return lead ++ suffix
  | none => throw (.grammar context line "found undefined tag handle")

/-- The anchor and the tag before a node, in either order, and the first token of the node. The tag
is empty when there is none. -/
def readAnnotations : Reader (Option Text × Text × Token) := do
  let t ← peek
  match t.kind with
  | .anchor name =>
    let t' ← peekNext
    match t'.kind with
    | .tag handle suffix =>
      let t'' ← peekNext
      return (some name, ← expandTag t.line t'.line handle suffix, t'')
    | _ => return (some name, [], t')
  | .tag handle suffix =>
    let t' ← peekNext
    match t'.kind with
    | .anchor name =>
      let t'' ← peekNext
      return (some name, ← expandTag t.line t.line handle suffix, t'')
    | _ => return (none, ← expandTag t.line t.line handle suffix, t')
  | _ => return (none, [], t)

/-- Gives an anchor its number. From now on its name stands for it. -/
def declare (name : Option Text) : Reader (Option Nat) := do
  match name with
  | none => return none
  | some name =>
    let s ← get
    set { s with names := (name, s.nextAnchor) :: s.names, nextAnchor := s.nextAnchor + 1 }
    return some s.nextAnchor

def keep (anchor : Option Nat) (node : Node) : Reader Node := do
  if let some n := anchor then modify fun s => { s with anchored := (n, node) :: s.anchored }
  return node

/-- Whether a tag names a type. -/
def isGiven (tag : Text) : Bool := !(tag.isEmpty || tag = ['!'])

def scalarNode (line : Nat) (tag : Text) (isPlain : Bool) (text : Text) : Node :=
  .scalar line
    (if isGiven tag then shortTag tag
     else if !isPlain then ScalarType.str.tag
     else if text = "<<" then Node.mergeTag
     else (ScalarType.ofText true text).tag) text

def emptyNode (line : Nat) : Node := scalarNode (line + 1) [] true []

def collectionTag (tag fallback : Text) : Text :=
  if isGiven tag then shortTag tag else fallback

mutual

/-- Reads a node. Blocks are allowed when `inBlock` is set, and a block sequence that is not indented
when `mayHang` is. Every call passes a token or is followed by one that does, so the number of tokens
bounds the depth. -/
def readNode : (fuel : Nat) → (inBlock mayHang : Bool) → Reader Node
  | 0, _, _ => throw { problem := "exceeded max depth" }
  | fuel + 1, inBlock, mayHang => do
    let first ← peek
    let line := first.line + 1
    if let .reference name := first.kind then
      advance
      match (← get).names.lookup name with
      | some anchor => return .reference line name anchor
      | none => throw { problem := "unknown anchor '" ++ name ++ "' referenced" }
    let (name, tag, t) ← readAnnotations
    match t.kind with
    | .scalar isPlain text =>
      advance
      let anchor ← declare name
      keep anchor (scalarNode line tag isPlain text)
    | .flowSequence =>
      let anchor ← declare name
      advance
      keep anchor (.sequence line (collectionTag tag Node.sequenceTag)
        (← readFlowItems fuel t.line true))
    | .flowMapping =>
      let anchor ← declare name
      advance
      keep anchor (.mapping line (collectionTag tag Node.mappingTag)
        (← readFlowEntries fuel t.line true))
    | .blockEntry =>
      if mayHang then
        let anchor ← declare name
        keep anchor (.sequence line (collectionTag tag Node.sequenceTag) (← readHangingItems fuel))
      else bare name tag line t
    | .blockSequence =>
      if inBlock then
        let anchor ← declare name
        advance
        keep anchor (.sequence line (collectionTag tag Node.sequenceTag)
          (← readBlockItems fuel t.line))
      else bare name tag line t
    | .blockMapping =>
      if inBlock then
        let anchor ← declare name
        advance
        keep anchor (.mapping line (collectionTag tag Node.mappingTag)
          (← readBlockEntries fuel t.line))
      else bare name tag line t
    | _ => bare name tag line t
where
  bare (name : Option Text) (tag : Text) (line : Nat) (t : Token) : Reader Node := do
    if name.isNone && tag.isEmpty then
      throw (.grammar (line - 1) t.line "did not find expected node content")
    let anchor ← declare name
    keep anchor (scalarNode line tag true [])

def readBlockItems : (fuel : Nat) → (start : Nat) → Reader (List Node)
  | 0, _ => throw { problem := "exceeded max depth" }
  | fuel + 1, start => do
    let t ← peek
    match t.kind with
    | .blockEntry =>
      let next ← peekNext
      let item ← match next.kind with
        | .blockEntry | .blockEnd => pure (emptyNode t.line)
        | _ => readNode fuel true false
      return item :: (← readBlockItems fuel start)
    | .blockEnd =>
      advance
      return []
    | _ => throw (.grammar start t.line "did not find expected '-' indicator")

/-- Reads a block sequence that is not indented more than the mapping it is a value of. -/
def readHangingItems : (fuel : Nat) → Reader (List Node)
  | 0 => throw { problem := "exceeded max depth" }
  | fuel + 1 => do
    let t ← peek
    match t.kind with
    | .blockEntry =>
      let next ← peekNext
      let item ← match next.kind with
        | .blockEntry | .key | .value | .blockEnd => pure (emptyNode t.line)
        | _ => readNode fuel true false
      return item :: (← readHangingItems fuel)
    | _ => return []

def readBlockEntries : (fuel : Nat) → (start : Nat) → Reader (List (Node × Node))
  | 0, _ => throw { problem := "exceeded max depth" }
  | fuel + 1, start => do
    let t ← peek
    match t.kind with
    | .key =>
      let next ← peekNext
      let key ← match next.kind with
        | .key | .value | .blockEnd => pure (emptyNode t.line)
        | _ => readNode fuel true true
      let value ← readBlockValue fuel
      return (key, value) :: (← readBlockEntries fuel start)
    | .blockEnd =>
      advance
      return []
    | _ => throw (.grammar start t.line "did not find expected key")

def readBlockValue : (fuel : Nat) → Reader Node
  | 0 => throw { problem := "exceeded max depth" }
  | fuel + 1 => do
    let t ← peek
    match t.kind with
    | .value =>
      let next ← peekNext
      match next.kind with
      | .key | .value | .blockEnd => return emptyNode t.line
      | _ => readNode fuel true true
    | _ => return emptyNode t.line

def readFlowItems : (fuel : Nat) → (start : Nat) → (isFirst : Bool) → Reader (List Node)
  | 0, _, _ => throw { problem := "exceeded max depth" }
  | fuel + 1, start, isFirst => do
    let t ← peek
    if t.kind = .flowSequenceEnd then
      advance
      return []
    let t ← if isFirst then pure t
      else if t.kind = .flowEntry then peekNext
      else throw (.grammar start t.line "did not find expected ',' or ']'")
    match t.kind with
    | .key =>
      advance
      let key ← readFlowPairKey fuel
      let value ← readFlowPairValue fuel
      let pair := Node.mapping (t.line + 1) Node.mappingTag [(key, value)]
      return pair :: (← readFlowItems fuel start false)
    | .flowSequenceEnd =>
      advance
      return []
    | _ =>
      let item ← readNode fuel false false
      return item :: (← readFlowItems fuel start false)

def readFlowPairKey : (fuel : Nat) → Reader Node
  | 0 => throw { problem := "exceeded max depth" }
  | fuel + 1 => do
    let t ← peek
    match t.kind with
    | .value | .flowEntry | .flowSequenceEnd =>
      advance
      return emptyNode t.line
    | _ => readNode fuel false false

def readFlowPairValue : (fuel : Nat) → Reader Node
  | 0 => throw { problem := "exceeded max depth" }
  | fuel + 1 => do
    let t ← peek
    match t.kind with
    | .value =>
      let next ← peekNext
      match next.kind with
      | .flowEntry | .flowSequenceEnd => return emptyNode next.line
      | _ => readNode fuel false false
    | _ => return emptyNode t.line

def readFlowEntries : (fuel : Nat) → (start : Nat) → (isFirst : Bool) →
    Reader (List (Node × Node))
  | 0, _, _ => throw { problem := "exceeded max depth" }
  | fuel + 1, start, isFirst => do
    let t ← peek
    if t.kind = .flowMappingEnd then
      advance
      return []
    let t ← if isFirst then pure t
      else if t.kind = .flowEntry then peekNext
      else throw (.grammar start t.line "did not find expected ',' or '\x7d'")
    match t.kind with
    | .key =>
      let next ← peekNext
      let key ← match next.kind with
        | .value | .flowEntry | .flowMappingEnd => pure (emptyNode next.line)
        | _ => readNode fuel false false
      let value ← readFlowValue fuel
      return (key, value) :: (← readFlowEntries fuel start false)
    | .flowMappingEnd =>
      advance
      return []
    | _ =>
      let key ← readNode fuel false false
      let after ← peek
      return (key, emptyNode after.line) :: (← readFlowEntries fuel start false)

def readFlowValue : (fuel : Nat) → Reader Node
  | 0 => throw { problem := "exceeded max depth" }
  | fuel + 1 => do
    let t ← peek
    match t.kind with
    | .value =>
      let next ← peekNext
      match next.kind with
      | .flowEntry | .flowMappingEnd => return emptyNode next.line
      | _ => readNode fuel false false
    | _ => return emptyNode t.line

end

/-- The shorthands that need no declaration. -/
def defaultShorthands : List (Text × Text) := [(['!'], ['!']), (['!', '!'], "tag:yaml.org,2002:")]

def readDirectives : (fuel : Nat) → (hasVersion : Bool) → Reader Unit
  | 0, _ => return
  | fuel + 1, hasVersion => do
    let t ← peek
    match t.kind with
    | .version major minor =>
      if hasVersion then throw (.grammar 0 t.line "found duplicate %YAML directive")
      if major ≠ 1 || minor ≠ 1 then throw (.grammar 0 t.line "found incompatible YAML document")
      advance
      readDirectives fuel true
    | .handle name lead =>
      if ((← get).shorthands.lookup name).isSome then
        throw (.grammar 0 t.line "found duplicate %TAG directive")
      modify fun s => { s with shorthands := (name, lead) :: s.shorthands }
      advance
      readDirectives fuel hasVersion
    | _ => modify fun s => { s with shorthands := s.shorthands ++ defaultShorthands }

def readRoot (fuel : Nat) : Reader (Option Node) := do
  let t ← peek
  match t.kind with
  | .streamEnd => return none
  | .version .. | .handle .. | .documentStart =>
    readDirectives fuel false
    let t ← peek
    if t.kind ≠ .documentStart then
      throw (.grammar 0 t.line "did not find expected <document start>")
    let t ← peekNext
    match t.kind with
    | .version .. | .handle .. | .documentStart | .documentEnd | .streamEnd =>
      return some (emptyNode t.line)
    | _ => some <$> readNode fuel true false
  | _ =>
    modify fun s => { s with shorthands := defaultShorthands }
    some <$> readNode fuel true false

def readDocument (fuel : Nat) : Reader Document := do
  let root ← readRoot fuel
  let _ ← peek
  return { root, anchored := (← get).anchored, depthBound := fuel }

end Reader

/-- The first document of an input. A token takes a character, or stands for a key or for the start
or end of a block at one, which bounds the steps. -/
def Document.ofInput (input : Input) : Except Fault Document :=
  (Reader.readDocument (16 * (input.text.length + 4))).run' { scan := .ofInput input }

def Document.ofBytes (data : Bytes) : Except Fault Document :=
  Document.ofInput (.ofBytes data)

end ObjcOutline.Yaml
