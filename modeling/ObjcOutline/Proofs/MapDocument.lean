import ObjcOutline.Pipeline.Renderer
import ObjcOutline.Proofs.JsonReading
import ObjcOutline.Proofs.Rereading

/-!
# The document of a symbol map

The document that is rendered for a symbol map is one JSON value and a line feed, and it stands for
the map alone: an object with the path and the list of the symbols in their order. Any characters
may occur in names and paths, and any spaces and tabs in the indent.

Strings and numbers are derived form by form. What stands between brackets is laid out in the same
way in arrays and objects, so it is treated once for both: `one` is the phrase of an element or of a
member, and `many` that of the elements of an array or of the members of an object.
-/
namespace ObjcOutline

/-- The JSON object of a symbol. -/
def Symbol.toJson (s : Symbol) : Json.Value :=
  .object [
    (['n', 'a', 'm', 'e'], .string s.name),
    (['t', 'y', 'p', 'e'], .string s.kind),
    (['l', 'i', 'n', 'e'], .number s.line)]

/-- The JSON object of a symbol map. -/
def SymbolMap.toJson (m : SymbolMap) : Json.Value :=
  .object [
    (['f', 'i', 'l', 'e', 'P', 'a', 't', 'h'], .string m.path),
    (['s', 'y', 'm', 'b', 'o', 'l', 's'], .array (m.symbols.map Symbol.toJson))]

namespace Json

theorem codeUnit?_hex {n : Nat} (h : n < 0x20 ∨ n = 0x2028 ∨ n = 0x2029) :
    codeUnit? (Text.hex 4 n) = some n := by
  rcases h with h | rfl | rfl
  · revert n
    decide
  · decide
  · decide

/-- Every character is written in one of its forms. -/
theorem stringChar_form (c : Char) : StringChar (stringChar c) c := by
  have hc := Char.ofNat_toNat c
  unfold stringChar
  split
  next h => rw [← hc, h]; exact .escaped rfl
  next h => rw [← hc, h]; exact .escaped rfl
  next h => rw [← hc, h]; exact .escaped rfl
  next h => rw [← hc, h]; exact .escaped rfl
  next h => rw [← hc, h]; exact .escaped rfl
  next h => rw [← hc, h]; exact .escaped rfl
  next h => rw [← hc, h]; exact .escaped rfl
  next hquote hback _ _ _ _ _ =>
    split_ifs with h
    · simp only [Bool.or_eq_true, decide_eq_true_eq] at h
      have hvalid : c.toNat.isValidChar := c.valid
      have hunit := StringChar.unit (codeUnit?_hex (by omega)) hvalid
      rwa [hc] at hunit
    · simp only [Bool.or_eq_true, decide_eq_true_eq] at h
      refine .plain ?_
      simp only [isPlain, Bool.and_eq_true, decide_eq_true_eq, bne_iff_ne]
      refine ⟨⟨by omega, ?_⟩, ?_⟩
      · rintro rfl
        exact hquote rfl
      · rintro rfl
        exact hback rfl

theorem stringBody_form (t : Text) : StringBody (t.flatMap stringChar) t := by
  induction t with
  | nil => exact .nil
  | cons c t ih => exact .cons (stringChar_form c) ih

theorem derives_string (t : Text) : Derives (string t) (.value (.string t)) :=
  .string (stringBody_form t)

theorem head?_toDigits_ne {n : Nat} (hn : 0 < n) : (Nat.toDigits 10 n).head? ≠ some '0' := by
  induction n using Nat.strongRecOn with
  | ind n ih =>
    by_cases hsmall : n < 10
    · rw [Nat.toDigits_of_lt_base hsmall]
      have hdigit : ∀ n < 10, 0 < n → [Nat.digitChar n].head? ≠ some '0' := by decide
      exact hdigit n hsmall hn
    · rw [Nat.toDigits_of_base_le (by decide) (Nat.le_of_not_lt hsmall),
        List.head?_append_of_ne_nil _ Nat.toDigits_ne_nil]
      exact ih (n / 10) (by omega) (by omega)

theorem whole_ofNat (n : Nat) : Whole (Text.ofNat n) n := by
  cases n with
  | zero => exact .zero
  | succ n =>
    have hdigits : IsDigits (Text.ofNat (n + 1)) :=
      ⟨Nat.toDigits_ne_nil, fun c hc => Nat.isDigit_of_mem_toDigits (by decide) (by decide) hc⟩
    have hwhole := Whole.digits hdigits (head?_toDigits_ne (Nat.succ_pos n))
    rwa [digitsValue, Text.ofNat, Nat.ofDigitChars_ten_toDigits] at hwhole

theorem magnitude_ofNat (n : Nat) : Magnitude (Text.ofNat n) n := by
  have h := Magnitude.mk (whole_ofNat n) .none .none
  rwa [List.append_nil, List.append_nil, Rat.zpow_zero, Rat.add_zero, Rat.mul_one] at h

theorem derives_ofInt (n : Int) : Derives (Text.ofInt n) (.value (.number n)) := by
  refine .number ?_
  cases n with
  | ofNat n => exact .positive (magnitude_ofNat n)
  | negSucc n =>
    have hvalue : (Int.negSucc n : Rat) = -((n + 1 : Nat) : Rat) := by
      rw [Int.negSucc_eq, Rat.intCast_neg]
      rfl
    rw [hvalue]
    exact .negative (magnitude_ofNat (n + 1))

theorem isSpacing_nil : IsSpacing [] := fun _ hc => absurd hc List.not_mem_nil

theorem isSpacing_newline {indent : Text} (h : Text.IsIndent indent) (depth : Nat) :
    IsSpacing (newline indent depth) := by
  intro c hc
  rcases List.mem_cons.mp hc with rfl | hc
  · decide
  · obtain ⟨part, hpart, hc⟩ := List.mem_flatten.mp hc
    rw [List.eq_of_mem_replicate hpart] at hc
    rcases h c hc with rfl | rfl <;> decide

/-- The text stands for one of several things between brackets, with any spacing around it. -/
def IsItem {α : Type} (one : α → Phrase) (t : Text) (a : α) : Prop :=
  ∀ before after, IsSpacing before → IsSpacing after →
    Derives (before ++ (t ++ after)) (one a)

theorem Derives.isItem {t : Text} {v : Value} (h : Derives t (.value v)) : IsItem .value t v :=
  fun _ _ hbefore hafter => .spaced hbefore h hafter

theorem isItem_member {t : Text} {v : Value} (h : Derives t (.value v)) (key : Text) :
    IsItem .member (member key t) (key, v) := by
  intro before after hbefore hafter
  have hspace : IsSpacing [' '] := by simp [IsSpacing, isSpacing]
  have hmember := Derives.member hbefore (stringBody_form key) isSpacing_nil
    (.spaced hspace h hafter)
  simpa [member, string] using hmember

section Items

variable {α : Type} {one : α → Phrase} {many : List α → Phrase}

/-- Items with a comma between neighbours and the same spacing before each. -/
theorem derives_items
    (last : ∀ {t a}, Derives t (one a) → Derives t (many [a]))
    (more : ∀ {t a r as}, Derives t (one a) → Derives r (many as) →
      Derives (t ++ ',' :: r) (many (a :: as)))
    {before after : Text} (hbefore : IsSpacing before) (hafter : IsSpacing after)
    {texts : List Text} {as : List α} (hne : texts ≠ [])
    (h : List.Forall₂ (IsItem one) texts as) :
    Derives (before ++ (Text.join (',' :: before) texts ++ after)) (many as) := by
  induction h with
  | nil => exact absurd rfl hne
  | @cons t a texts as hitem hrest ih =>
    cases hrest with
    | nil =>
      have hlast := last (hitem before after hbefore hafter)
      simpa [Text.join] using hlast
    | @cons t' _ texts _ _ _ =>
      have hmore := more (hitem before [] hbefore isSpacing_nil) (ih (List.cons_ne_nil _ _))
      simpa [Text.join] using hmore

/-- Items between brackets, each on a line of its own. -/
theorem derives_lined {wrap : List α → Value} {opening closing : Char}
    (last : ∀ {t a}, Derives t (one a) → Derives t (many [a]))
    (more : ∀ {t a r as}, Derives t (one a) → Derives r (many as) →
      Derives (t ++ ',' :: r) (many (a :: as)))
    (empty : Derives [opening, closing] (.value (wrap [])))
    (bracket : ∀ {t as}, Derives t (many as) →
      Derives (opening :: (t ++ [closing])) (.value (wrap as)))
    {indent : Text} (hindent : Text.IsIndent indent) (depth : Nat)
    {texts : List Text} {as : List α} (h : List.Forall₂ (IsItem one) texts as) :
    Derives (lined indent depth opening closing texts) (.value (wrap as)) := by
  cases h with
  | nil => exact empty
  | @cons t a texts as hitem hrest =>
    have hitems := derives_items last more (isSpacing_newline hindent (depth + 1))
      (isSpacing_newline hindent depth) (List.cons_ne_nil t texts) (.cons hitem hrest)
    simpa [lined] using bracket hitems

end Items

section Lined

variable {indent : Text} (hindent : Text.IsIndent indent) (depth : Nat)
include hindent

theorem derives_linedArray {texts : List Text} {vs : List Value}
    (h : List.Forall₂ (IsItem .value) texts vs) :
    Derives (lined indent depth '[' ']' texts) (.value (.array vs)) :=
  derives_lined .lastElement .element (.emptyArray isSpacing_nil) .array hindent depth h

theorem derives_linedObject {texts : List Text} {ms : List (Text × Value)}
    (h : List.Forall₂ (IsItem .member) texts ms) :
    Derives (lined indent depth '\x7b' '\x7d' texts) (.value (.object ms)) :=
  derives_lined .lastMember .members (.emptyObject isSpacing_nil) .object hindent depth h

theorem derives_symbol (s : Symbol) :
    Derives (symbol indent depth s) (.value s.toJson) := by
  refine derives_linedObject hindent depth (.cons ?_ (.cons ?_ (.cons ?_ .nil)))
  · exact isItem_member (derives_string s.name) _
  · exact isItem_member (derives_string s.kind) _
  · exact isItem_member (derives_ofInt s.line) _

theorem derives_symbols (symbols : List Symbol) :
    Derives (lined indent depth '[' ']' (symbols.map (symbol indent (depth + 1))))
      (.value (.array (symbols.map Symbol.toJson))) := by
  refine derives_linedArray hindent depth ?_
  induction symbols with
  | nil => exact .nil
  | cons s symbols ih => exact .cons (derives_symbol hindent (depth + 1) s).isItem ih

/-- The document without its final line feed is a JSON text. -/
theorem document_eq_derives (m : SymbolMap) :
    ∃ body, document indent m = body ++ ['\n'] ∧ Derives body (.value m.toJson) := by
  refine ⟨_, rfl, derives_linedObject hindent 0 (.cons ?_ (.cons ?_ .nil))⟩
  · exact isItem_member (derives_string m.path) _
  · exact isItem_member (derives_symbols hindent 1 m.symbols) _

end Lined

end Json

theorem Symbol.toJson_injective : Function.Injective Symbol.toJson := by
  intro s s' h
  cases s
  cases s'
  simpa [Symbol.toJson] using h

theorem SymbolMap.toJson_injective : Function.Injective SymbolMap.toJson := by
  intro m m' h
  cases m
  cases m'
  simpa [SymbolMap.toJson, Symbol.toJson_injective.list_map.eq_iff] using h

/-- Different maps have different documents, whatever indents they are written with. -/
theorem Json.document_injective {indent indent' : Text} (hindent : Text.IsIndent indent)
    (hindent' : Text.IsIndent indent') {m m' : SymbolMap}
    (h : document indent m = document indent' m') : m = m' := by
  obtain ⟨body, hdocument, hbody⟩ := document_eq_derives hindent m
  obtain ⟨body', hdocument', hbody'⟩ := document_eq_derives hindent' m'
  have hsame : body = body' := by
    rw [hdocument, hdocument'] at h
    exact List.append_cancel_right h
  subst hsame
  exact SymbolMap.toJson_injective (hbody.value_unique hbody')

namespace Renderer

/-- What the renderer writes for a skeleton is one JSON text and a line feed. It stands for the
symbol map of the skeleton and for nothing else. -/
theorem symbolMap_content_derives (withProperties : Bool) {indent : Text}
    (hindent : Text.IsIndent indent) (context : Context) (s : Skeleton) :
    ∃ artifact body, (symbolMap withProperties indent).render context s = pure artifact ∧
      artifact.content = body ++ ['\n'] ∧
      Json.Derives body (.value (SymbolMap.ofSkeleton s withProperties).toJson) ∧
      ∀ v, Json.Derives artifact.content (.value v) ↔
        v = (SymbolMap.ofSkeleton s withProperties).toJson := by
  obtain ⟨body, hcontent, hbody⟩ := Json.document_eq_derives (isIndent_effectiveIndent hindent)
    (SymbolMap.ofSkeleton s withProperties)
  refine ⟨_, body, rfl, hcontent, hbody, fun v => ?_⟩
  have hspaced : Json.Derives (body ++ ['\n'])
      (.value (SymbolMap.ofSkeleton s withProperties).toJson) :=
    .spaced Json.isSpacing_nil hbody (by simp [Json.IsSpacing, Json.isSpacing])
  constructor
  · intro hv
    rw [hcontent] at hv
    exact hv.value_unique hspaced
  · rintro rfl
    exact hcontent ▸ hspaced

/-- A path with characters that are escaped, and a method before a property. -/
theorem symbolMap_content_of_escaped_path :
    let file : Skeleton := {
      path := "a\"\\\n\u2028😀.m"
      methods := [⟨"-", "id", "run", 1⟩]
      properties := [⟨[], "void (^done)(int)", 2⟩] }
    Text.IsIndent "\t" ∧
      SymbolMap.ofSkeleton file true =
        ⟨file.path, [⟨"-run", "method", 1⟩, ⟨"done", "property", 2⟩]⟩ ∧
      ∃ artifact body, (symbolMap true "\t").render .live file = pure artifact ∧
        artifact.content = body ++ ['\n'] ∧
        Json.Derives body (.value (SymbolMap.ofSkeleton file true).toJson) ∧
        ∀ v, Json.Derives artifact.content (.value v) ↔
          v = (SymbolMap.ofSkeleton file true).toJson := by
  intro file
  have hindent : Text.IsIndent "\t" := by decide
  have hgathered : SymbolMap.gathered file true =
      [⟨"done", "property", 2⟩, ⟨"-run", "method", 1⟩] := by decide +kernel
  have hmap : SymbolMap.ofSkeleton file true =
      ⟨file.path, [⟨"-run", "method", 1⟩, ⟨"done", "property", 2⟩]⟩ := by
    rw [SymbolMap.ofSkeleton, hgathered]
    simp [List.mergeSort]
  exact ⟨hindent, hmap, symbolMap_content_derives true hindent .live file⟩

end Renderer

end ObjcOutline
