import ObjcOutline.Proofs.Ownership
import ObjcOutline.Proofs.Scanning

/-!
# What the parts of an extracted skeleton look like

Whatever the source text is, the names, types, lists and texts in its skeleton have the shape that
their pattern gives them: names are words, texts are trimmed and free of the character at which their
pattern stops, and none of them goes over the end of a line. The supertype is the only part that does
not come from the text; an interface without one has the root type.
-/
namespace ObjcOutline

structure Method.WellFormed (m : Method) : Prop where
  sigil : m.sigil = ['+'] ∨ m.sigil = ['-']
  trim_returnType : Text.trim m.returnType = m.returnType
  returnType_free : ')' ∉ m.returnType ∧ '\n' ∉ m.returnType
  trim_signature : Text.trim m.signature = m.signature
  signature_free : (∀ c ∈ m.signature, endsSignature c = false) ∧ '\n' ∉ m.signature

structure Property.WellFormed (p : Property) : Prop where
  attributes : p.attributes = [] ∨
    ∃ inner, p.attributes = '(' :: (inner ++ [')']) ∧ ')' ∉ inner ∧ '\n' ∉ inner
  trim_declaration : Text.trim p.declaration = p.declaration
  declaration_free : ';' ∉ p.declaration ∧ '\n' ∉ p.declaration

structure Field.WellFormed (f : Field) : Prop where
  type : Text.IsWord f.type ∨ ∃ word, Text.IsWord word ∧ f.type = word ++ [' ', '*']
  name : Text.IsWord f.name

/-- An entry of a protocol list. -/
structure Header.IsListedName (p : Text) : Prop where
  ne_nil : p ≠ []
  trim_eq : Text.trim p = p
  free : ',' ∉ p ∧ '>' ∉ p ∧ '\n' ∉ p

structure Header.WellFormed (h : Header) : Prop where
  keyword : (h.keyword = h.kind ∧
      (h.kind = .interface ∨ h.kind = .implementation ∨ h.kind = .protocol)) ∨
    (h.kind = .category ∧ (h.keyword = .interface ∨ h.keyword = .implementation))
  name : Text.IsWord h.name
  supertype : ∀ s, h.supertype = some s → Text.IsWord s
  protocols_kind : h.protocols ≠ [] → h.kind = .interface
  protocols : ∀ p ∈ h.protocols, Header.IsListedName p
  category_kind : h.category ≠ [] → h.kind = .category
  trim_category : Text.trim h.category = h.category
  category_free : ')' ∉ h.category ∧ '\n' ∉ h.category

theorem Method.wellFormed_of_ofLine? {number : Int} {line : Text} {m : Method}
    (hline : '\n' ∉ line) (h : ofLine? number line = some m) : m.WellFormed := by
  unfold ofLine? at h
  split at h
  next sign r hr =>
    split_ifs at h with hsign
    split at h
    next c type rest hparen =>
      obtain ⟨signature, hsig, rfl⟩ := Option.map_eq_some_iff.mp h
      obtain ⟨htype, hmem⟩ := parenthesised?_eq_some hparen
      obtain ⟨hends, hin⟩ := nonemptyBefore?_eq_some hsig
      have hr' : '\n' ∉ r := fun hc => hline (Text.mem_of_mem_skipBlanks (by simp [hr, hc]))
      refine ⟨?_, Text.trim_trim _, ⟨?_, ?_⟩, Text.trim_trim _, ?_, ?_⟩
      · simpa using hsign
      · exact fun hc => htype (Text.mem_of_mem_trim hc)
      · exact fun hc => hr' (hmem _ (.inl (Text.mem_of_mem_trim hc)))
      · exact fun x hx => hends x (Text.mem_of_mem_trim hx)
      · exact fun hc => hr' (hmem _ (.inr (hin _ (Text.mem_of_mem_trim hc))))
    · cases h
  · cases h

theorem Property.wellFormed_of_ofLine? {number : Int} {line : Text} {p : Property}
    (hline : '\n' ∉ line) (h : ofLine? number line = some p) : p.WellFormed := by
  unfold ofLine? at h
  split at h
  next rest hrest =>
    have hrest' : '\n' ∉ rest := by
      intro hc
      apply hline
      apply Text.mem_of_mem_skipBlanks
      rw [Text.after?_eq_some hrest]
      exact List.mem_append_right _ hc
    rcases Option.or_eq_some_iff.mp h with h | ⟨-, h⟩
    · unfold withAttributes? at h
      split at h
      next inner tail hparen =>
        obtain ⟨declaration, hdecl, rfl⟩ := Option.map_eq_some_iff.mp h
        obtain ⟨hinner, hmem⟩ := parenthesised?_eq_some hparen
        obtain ⟨hends, hin⟩ := nonemptyBefore?_eq_some hdecl
        refine ⟨.inr ⟨inner, rfl, hinner, fun hc => hrest' (hmem _ (.inl hc))⟩,
          Text.trim_trim _, ?_, ?_⟩
        · intro hc
          simpa using hends _ (Text.mem_of_mem_trim hc)
        · exact fun hc => hrest' (hmem _ (.inr (hin _ (Text.mem_of_mem_trim hc))))
      · cases h
    · obtain ⟨declaration, hdecl, rfl⟩ := Option.map_eq_some_iff.mp h
      obtain ⟨hends, hin⟩ := nonemptyBefore?_eq_some hdecl
      refine ⟨.inl rfl, Text.trim_trim _, ?_, ?_⟩
      · intro hc
        simpa using hends _ (Text.mem_of_mem_trim hc)
      · exact fun hc => hrest' (hin _ (Text.mem_of_mem_trim hc))
  · cases h

theorem Field.wellFormed_of_ofLine? {line : Text} {f : Field} (h : ofLine? line = some f) :
    f.WellFormed := by
  unfold ofLine? at h
  simp only at h
  split_ifs at h
  unfold ofDeclaration? at h
  split at h
  next type r htype =>
    split at h
    next isPointer r' _ =>
      split at h
      next name r'' hname =>
        split at h
        · cases h
          have hword := (Text.word?_eq_some htype).1
          refine ⟨?_, (Text.word?_eq_some hname).1⟩
          cases isPointer with
          | true => exact .inr ⟨type, hword, rfl⟩
          | false => exact .inl hword
        · cases h
      · cases h
    · cases h
  · cases h

namespace Header

theorem supertype?_eq_some {t supertype rest : Text} (h : supertype? t = some (supertype, rest)) :
    Text.IsWord supertype ∧ ∀ c ∈ rest, c ∈ t := by
  have hafter : ∀ r, (∀ c ∈ r, c ∈ t) → (∃ r', Text.skipBlanks r = ':' :: r' ∧
      Text.word? (Text.skipBlanks r') = some (supertype, rest)) →
      Text.IsWord supertype ∧ ∀ c ∈ rest, c ∈ t := by
    rintro r hsub ⟨r', hr, hword⟩
    obtain ⟨hsuper, heq⟩ := Text.word?_eq_some hword
    refine ⟨hsuper, fun c hc => hsub c (Text.mem_of_mem_skipBlanks ?_)⟩
    have hin : c ∈ Text.skipBlanks r' := by simp [heq, hc]
    rw [hr]
    exact List.mem_cons_of_mem _ (Text.mem_of_mem_skipBlanks hin)
  unfold supertype? at h
  cases hangled : angled? t with
  | none =>
    simp only [hangled] at h
    split at h
    next r' hr => exact hafter t (fun _ hc => hc) ⟨r', hr, h⟩
    · cases h
  | some x =>
    obtain ⟨inner, r⟩ := x
    simp only [hangled] at h
    split at h
    next r' hr =>
      exact hafter r (fun c hc => (angled?_eq_some hangled).2 c (.inr hc)) ⟨r', hr, h⟩
    · cases h

/-- The entries of a list without closing bracket and line end. -/
theorem isListedName_of_mem {list name : Text} (hclose : '>' ∉ list) (hline : '\n' ∉ list)
    (h : name ∈ listedNames list) : IsListedName name := by
  unfold listedNames at h
  obtain ⟨hmem, hne⟩ := List.mem_filter.mp h
  obtain ⟨piece, hpiece, rfl⟩ := List.mem_map.mp hmem
  have hsub : ∀ c ∈ Text.trim piece, c ∈ list ∧ c ≠ ',' := fun c hc =>
    Text.mem_of_mem_split hpiece (Text.mem_of_mem_trim hc)
  refine ⟨by simpa using hne, Text.trim_trim piece, ?_, ?_, ?_⟩
  · exact fun hc => (hsub _ hc).2 rfl
  · exact fun hc => hclose (hsub _ hc).1
  · exact fun hc => hline (hsub _ hc).1

theorem isListedName_of_mem_protocolsOf {t name : Text} (hline : '\n' ∉ t)
    (h : name ∈ (protocolsOf t).1) : IsListedName name := by
  unfold protocolsOf at h
  split at h
  next c list r hangled =>
    obtain ⟨hclose, hmem⟩ := angled?_eq_some hangled
    exact isListedName_of_mem hclose (fun hc => hline (hmem _ (.inl hc))) h
  · cases h

theorem wellFormed_of_categoryOf? {keyword : Kind} {t : Text} {h : Header} (hline : '\n' ∉ t)
    (hkeyword : keyword = .interface ∨ keyword = .implementation)
    (heq : categoryOf? keyword t = some h) : h.WellFormed := by
  unfold categoryOf? at heq
  split at heq
  next name r hname =>
    split at heq
    next category rest hparen =>
      cases heq
      obtain ⟨hword, hsub⟩ := name?_eq_some hname
      obtain ⟨hclose, hmem⟩ := parenthesised?_eq_some hparen
      refine ⟨.inr ⟨rfl, hkeyword⟩, hword, by simp, by simp, by simp, fun _ => rfl,
        Text.trim_trim _, ?_, ?_⟩
      · exact fun hc => hclose (Text.mem_of_mem_trim hc)
      · exact fun hc => hline (hsub _ (hmem _ (.inl (Text.mem_of_mem_trim hc))))
    · cases heq
  · cases heq

theorem wellFormed_of_interface? {t : Text} {h : Header} (hline : '\n' ∉ t)
    (heq : interface? t = some h) : h.WellFormed := by
  unfold interface? at heq
  split at heq
  next name r hname =>
    obtain ⟨hword, hsub⟩ := name?_eq_some hname
    split at heq
    next supertype r' hsuper =>
      cases heq
      obtain ⟨hsuper', hrest⟩ := supertype?_eq_some hsuper
      refine ⟨.inl ⟨rfl, .inl rfl⟩, hword, ?_, fun _ => rfl, ?_, by simp, rfl, by simp⟩
      · rintro s hs
        cases hs
        exact hsuper'
      · intro p hp
        exact isListedName_of_mem_protocolsOf (fun hc => hline (hsub _ (hrest _ hc))) hp
    · cases heq
      refine ⟨.inl ⟨rfl, .inl rfl⟩, hword, by simp, fun _ => rfl, ?_, by simp, rfl, by simp⟩
      intro p hp
      exact isListedName_of_mem_protocolsOf (fun hc => hline (hsub _ hc)) hp
  · cases heq

theorem wellFormed_of_ofTrimmed? {t : Text} {h : Header} (hline : '\n' ∉ t)
    (heq : ofTrimmed? t = some h) : h.WellFormed := by
  unfold ofTrimmed? at heq
  rcases Option.or_eq_some_iff.mp heq with heq | ⟨-, heq⟩
  · exact wellFormed_of_categoryOf? hline (.inl rfl) heq
  rcases Option.or_eq_some_iff.mp heq with heq | ⟨-, heq⟩
  · exact wellFormed_of_categoryOf? hline (.inr rfl) heq
  rcases Option.or_eq_some_iff.mp heq with heq | ⟨-, heq⟩
  · exact wellFormed_of_interface? hline heq
  rcases Option.or_eq_some_iff.mp heq with heq | ⟨-, heq⟩
  · unfold implementation? at heq
    split at heq
    next name rest hname =>
      cases heq
      exact ⟨.inl ⟨rfl, .inr (.inl rfl)⟩, (name?_eq_some hname).1, by simp, by simp, by simp,
        by simp, rfl, by simp⟩
    · cases heq
  · unfold protocol? at heq
    split at heq
    next name rest hname =>
      split_ifs at heq
      cases heq
      exact ⟨.inl ⟨rfl, .inr (.inr rfl)⟩, (name?_eq_some hname).1, by simp, by simp, by simp,
        by simp, rfl, by simp⟩
    · cases heq

end Header

/-- What holds of every block, where `rootType` is the supertype of an interface that names none. -/
structure Block.WellFormed (rootType : Text) (b : Block) : Prop where
  keyword : (b.keyword = b.kind ∧
      (b.kind = .interface ∨ b.kind = .implementation ∨ b.kind = .protocol)) ∨
    (b.kind = .category ∧ (b.keyword = .interface ∨ b.keyword = .implementation))
  name : Text.IsWord b.name
  supertype : b.kind = .interface → Text.IsWord b.supertype ∨ b.supertype = rootType
  supertype_kind : b.kind ≠ .interface → b.supertype = []
  protocols_kind : b.protocols ≠ [] → b.kind = .interface
  protocols : ∀ p ∈ b.protocols, Header.IsListedName p
  category_kind : b.category ≠ [] → b.kind = .category
  trim_category : Text.trim b.category = b.category
  category_free : ')' ∉ b.category ∧ '\n' ∉ b.category
  fields_kind : b.kind = .protocol → b.fields = []
  fields : ∀ f ∈ b.fields, f.WellFormed
  properties : ∀ p ∈ b.properties, p.WellFormed
  methods : ∀ m ∈ b.methods, m.WellFormed

theorem Text.mem_of_mem_dropReturn {c : Char} {line : Text} (h : c ∈ Text.dropReturn line) :
    c ∈ line := by
  unfold Text.dropReturn at h
  split_ifs at h
  · exact (List.dropLast_prefix line).mem h
  · exact h

theorem SourceLine.not_mem_text {src : Text} {l : SourceLine} (h : l ∈ SourceLine.ofText src) :
    '\n' ∉ l.text := by
  obtain ⟨i, raw, hraw, rfl⟩ := SourceLine.mem_place.mp h
  intro hc
  exact Text.not_mem_of_mem_lines (List.mem_of_getElem? hraw) (Text.mem_of_mem_dropReturn hc)

/-- What a mark holds has the shape of its pattern. -/
def Mark.WellFormed : Mark → Prop
  | .closer _ => True
  | .method m => m.WellFormed
  | .property p => p.WellFormed
  | .opener o => o.header.WellFormed

theorem Mark.wellFormed_of_mem {src : Text} {m : Mark} (h : m ∈ Mark.ofText src) :
    m.WellFormed := by
  obtain ⟨l, hl, hm⟩ := List.mem_filterMap.mp h
  have hline := SourceLine.not_mem_text hl
  unfold Mark.ofLine? at hm
  split_ifs at hm
  · cases hm
    trivial
  rcases Option.or_eq_some_iff.mp hm with hm | ⟨-, hm⟩
  · obtain ⟨x, hx, rfl⟩ := Option.map_eq_some_iff.mp hm
    exact Method.wellFormed_of_ofLine? hline hx
  rcases Option.or_eq_some_iff.mp hm with hm | ⟨-, hm⟩
  · obtain ⟨x, hx, rfl⟩ := Option.map_eq_some_iff.mp hm
    exact Property.wellFormed_of_ofLine? hline hx
  · obtain ⟨x, hx, rfl⟩ := Option.map_eq_some_iff.mp hm
    obtain ⟨header, hheader, rfl⟩ := Option.map_eq_some_iff.mp hx
    exact Header.wellFormed_of_ofTrimmed? (fun hc => hline (Text.mem_of_mem_trim hc)) hheader

theorem wellFormed_of_mem_methods {rootType path src : Text} {m : Method}
    (h : m ∈ (Skeleton.ofSource rootType path src).methods) : m.WellFormed := by
  obtain ⟨x, hx, hm⟩ := List.mem_filterMap.mp h
  cases x <;> cases hm
  exact Mark.wellFormed_of_mem hx

theorem wellFormed_of_mem_properties {rootType path src : Text} {p : Property}
    (h : p ∈ (Skeleton.ofSource rootType path src).properties) : p.WellFormed := by
  obtain ⟨x, hx, hp⟩ := List.mem_filterMap.mp h
  cases x <;> cases hp
  exact Mark.wellFormed_of_mem hx

theorem Block.wellFormed_fieldsOf {src : Text} {o : Opener} {f : Field}
    (h : f ∈ fieldsOf src o) : f.WellFormed := by
  unfold fieldsOf at h
  split_ifs at h
  · cases h
  split at h
  next body _ =>
    obtain ⟨line, -, hf⟩ := List.mem_filterMap.mp h
    exact Field.wellFormed_of_ofLine? hf
  · cases h

/-- The members of a block are members of the file. -/
theorem mem_methods_of_mem_blocks {rootType path src : Text} {b : Block}
    (hb : b ∈ (Skeleton.ofSource rootType path src).blocks) {m : Method} (hm : m ∈ b.methods) :
    m ∈ (Skeleton.ofSource rootType path src).methods := by
  obtain ⟨i, hi⟩ := List.getElem?_of_mem hb
  rw [getElem?_blocks] at hi
  obtain ⟨c, -, rfl⟩ := Option.map_eq_some_iff.mp hi
  exact List.mem_of_mem_filter hm

theorem mem_properties_of_mem_blocks {rootType path src : Text} {b : Block}
    (hb : b ∈ (Skeleton.ofSource rootType path src).blocks) {p : Property}
    (hp : p ∈ b.properties) : p ∈ (Skeleton.ofSource rootType path src).properties := by
  obtain ⟨i, hi⟩ := List.getElem?_of_mem hb
  rw [getElem?_blocks] at hi
  obtain ⟨c, -, rfl⟩ := Option.map_eq_some_iff.mp hi
  exact List.mem_of_mem_filter hp

/-- Every block that extraction finds is well formed. -/
theorem wellFormed_of_mem_blocks {rootType path src : Text} {b : Block}
    (h : b ∈ (Skeleton.ofSource rootType path src).blocks) :
    b.WellFormed (effectiveRootType rootType) := by
  have hproperties : ∀ p ∈ b.properties, p.WellFormed := fun p hp =>
    wellFormed_of_mem_properties (mem_properties_of_mem_blocks h hp)
  have hmethods : ∀ m ∈ b.methods, m.WellFormed := fun m hm =>
    wellFormed_of_mem_methods (mem_methods_of_mem_blocks h hm)
  obtain ⟨i, hi⟩ := List.getElem?_of_mem h
  rw [getElem?_blocks] at hi
  obtain ⟨c, hc, rfl⟩ := Option.map_eq_some_iff.mp hi
  obtain ⟨o, ho, rfl⟩ := List.mem_map.mp (List.mem_of_getElem? hc)
  have hheader : o.header.WellFormed := Mark.wellFormed_of_mem (mem_openers.mp ho)
  refine ⟨hheader.keyword, hheader.name, ?_, ?_, hheader.protocols_kind, hheader.protocols,
    hheader.category_kind, hheader.trim_category, hheader.category_free, ?_,
    fun _ hf => Block.wellFormed_fieldsOf hf, hproperties, hmethods⟩
  · intro hkind
    simp only [Block.ofOpener, Block.supertypeOf] at hkind ⊢
    rw [if_pos hkind]
    cases hsuper : o.header.supertype with
    | none => exact .inr rfl
    | some s => exact .inl (hheader.supertype s hsuper)
  · intro hkind
    simp only [Block.ofOpener, Block.supertypeOf] at hkind ⊢
    rw [if_neg hkind]
  · intro hkind
    simp only [Block.ofOpener, Block.fieldsOf] at hkind ⊢
    rw [if_pos hkind]

def Method.texts (m : Method) : List Text := [m.sigil, m.returnType, m.signature]

def Property.texts (p : Property) : List Text := [p.attributes, p.declaration]

def Field.texts (f : Field) : List Text := [f.type, f.name]

/-- The texts of a block and of its members, other than its supertype. -/
def Block.texts (b : Block) : List Text :=
  b.kind.toText :: b.keyword.toText :: b.name :: b.category :: (b.protocols ++
    (b.fields.flatMap Field.texts ++
      (b.properties.flatMap Property.texts ++ b.methods.flatMap Method.texts)))

/-- The texts of a skeleton, other than its path and the supertypes of its blocks. -/
def Skeleton.texts (s : Skeleton) : List Text :=
  s.blocks.flatMap Block.texts ++
    (s.properties.flatMap Property.texts ++ s.methods.flatMap Method.texts)

/-- What holds of every skeleton that is read from a text, where `rootType` is the supertype of an
interface that names none. -/
structure Skeleton.WellFormed (rootType : Text) (s : Skeleton) : Prop where
  blocks : ∀ b ∈ s.blocks, b.WellFormed rootType
  supertype_ne_nil : ∀ b ∈ s.blocks, b.supertype ≠ [] ↔ b.kind = .interface
  properties : ∀ p ∈ s.properties, p.WellFormed
  methods : ∀ m ∈ s.methods, m.WellFormed
  texts_free : ∀ t ∈ s.texts, '\n' ∉ t
  supertype_free : ∀ b ∈ s.blocks, '\n' ∈ b.supertype → b.supertype = rootType

theorem Method.WellFormed.texts_free {m : Method} (h : m.WellFormed) : ∀ t ∈ m.texts, '\n' ∉ t := by
  simp only [Method.texts, List.forall_mem_cons, List.not_mem_nil, false_imp_iff, implies_true,
    and_true]
  refine ⟨?_, h.returnType_free.2, h.signature_free.2⟩
  rcases h.sigil with hsigil | hsigil <;> simp [hsigil]

theorem Property.WellFormed.texts_free {p : Property} (h : p.WellFormed) :
    ∀ t ∈ p.texts, '\n' ∉ t := by
  simp only [Property.texts, List.forall_mem_cons, List.not_mem_nil, false_imp_iff, implies_true,
    and_true]
  refine ⟨?_, h.declaration_free.2⟩
  rcases h.attributes with hattributes | ⟨inner, hattributes, -, hinner⟩ <;>
    simp_all

theorem Field.WellFormed.texts_free {f : Field} (h : f.WellFormed) : ∀ t ∈ f.texts, '\n' ∉ t := by
  simp only [Field.texts, List.forall_mem_cons, List.not_mem_nil, false_imp_iff, implies_true,
    and_true]
  refine ⟨?_, h.name.not_mem⟩
  rcases h.type with htype | ⟨word, hword, htype⟩
  · exact htype.not_mem
  · simp [htype, hword.not_mem]

/-- Every kind that a header can have is named by a word. -/
theorem Block.WellFormed.kind_free {rootType : Text} {b : Block} (h : b.WellFormed rootType) :
    '\n' ∉ b.kind.toText ∧ '\n' ∉ b.keyword.toText := by
  rcases h.keyword with ⟨hkeyword, hkind | hkind | hkind⟩ | ⟨hkind, hkeyword | hkeyword⟩ <;>
    rw [hkeyword, hkind] <;> decide

theorem Block.WellFormed.texts_free {rootType : Text} {b : Block} (h : b.WellFormed rootType) :
    ∀ t ∈ b.texts, '\n' ∉ t := by
  simp only [Block.texts, List.forall_mem_cons, List.forall_mem_append, List.mem_flatMap]
  refine ⟨h.kind_free.1, h.kind_free.2, h.name.not_mem, h.category_free.2, ?_, ?_, ?_, ?_⟩
  · exact fun p hp => (h.protocols p hp).free.2.2
  · rintro t ⟨f, hf, ht⟩
    exact (h.fields f hf).texts_free t ht
  · rintro t ⟨p, hp, ht⟩
    exact (h.properties p hp).texts_free t ht
  · rintro t ⟨m, hm, ht⟩
    exact (h.methods m hm).texts_free t ht

theorem effectiveRootType_ne_nil (rootType : Text) : effectiveRootType rootType ≠ [] := by
  unfold effectiveRootType
  split_ifs with h
  · decide
  · simpa using h

theorem Block.WellFormed.supertype_ne_nil_iff {rootType : Text} (hroot : rootType ≠ []) {b : Block}
    (h : b.WellFormed rootType) : b.supertype ≠ [] ↔ b.kind = .interface := by
  constructor
  · intro hne
    by_contra hkind
    exact hne (h.supertype_kind hkind)
  · intro hkind
    rcases h.supertype hkind with hword | hsuper
    · exact hword.1
    · rw [hsuper]
      exact hroot

/-- Whatever the root type and the source text are, the skeleton is well formed. -/
theorem wellFormed_ofSource (rootType path src : Text) :
    (Skeleton.ofSource rootType path src).WellFormed (effectiveRootType rootType) := by
  have hblocks : ∀ b ∈ (Skeleton.ofSource rootType path src).blocks,
      b.WellFormed (effectiveRootType rootType) := fun b hb => wellFormed_of_mem_blocks hb
  refine ⟨hblocks, ?_, ?_, ?_, ?_, ?_⟩
  · intro b hb
    exact (hblocks b hb).supertype_ne_nil_iff (effectiveRootType_ne_nil rootType)
  · exact fun p hp => wellFormed_of_mem_properties hp
  · exact fun m hm => wellFormed_of_mem_methods hm
  · simp only [Skeleton.texts, List.forall_mem_append, List.mem_flatMap]
    refine ⟨?_, ?_, ?_⟩
    · rintro t ⟨b, hb, ht⟩
      exact (hblocks b hb).texts_free t ht
    · rintro t ⟨p, hp, ht⟩
      exact (wellFormed_of_mem_properties hp).texts_free t ht
    · rintro t ⟨m, hm, ht⟩
      exact (wellFormed_of_mem_methods hm).texts_free t ht
  · intro b hb hnewline
    by_cases hkind : b.kind = .interface
    · rcases (hblocks b hb).supertype hkind with hword | hsuper
      · exact absurd hnewline hword.not_mem
      · exact hsuper
    · rw [(hblocks b hb).supertype_kind hkind] at hnewline
      cases hnewline

end ObjcOutline
