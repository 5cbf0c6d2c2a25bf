import ObjcOutline.Text.Utf8
import Mathlib.Tactic.SplitIfs

/-!
# Shortest forms

The decoder reads bytes by ranges. What it reads is said here without ranges: a character starts at
a byte exactly when the bytes from there on begin with the form that encoding gives the character.
So bytes consist of encoded characters and of bytes at which no character starts, in one way only,
and an induction on bytes goes by these pieces.

Decoding therefore gives back every encoded text, up to the one byte-order mark that it drops, and
encoding what was decoded leaves no invalid byte.
-/
namespace ObjcOutline.Utf8

theorem isTail_iff (b : UInt8) : isTail b = true ↔ 0x80 ≤ b.toNat ∧ b.toNat ≤ 0xBF := by
  simp only [isTail, Bool.and_eq_true, decide_eq_true_eq, UInt8.le_iff_toNat_le, UInt8.reduceToNat]

theorem isSecondOfThree_iff (a b : UInt8) : isSecondOfThree a b = true ↔
    (0x80 ≤ b.toNat ∧ b.toNat ≤ 0xBF) ∧
      (a.toNat = 0xE0 → 0xA0 ≤ b.toNat) ∧ (a.toNat = 0xED → b.toNat ≤ 0x9F) := by
  simp only [isSecondOfThree, ← UInt8.toNat_inj, UInt8.reduceToNat]
  split_ifs <;>
    simp only [isTail_iff, Bool.and_eq_true, decide_eq_true_eq, UInt8.le_iff_toNat_le,
      UInt8.reduceToNat] <;>
    omega

theorem isSecondOfFour_iff (a b : UInt8) : isSecondOfFour a b = true ↔
    (0x80 ≤ b.toNat ∧ b.toNat ≤ 0xBF) ∧
      (a.toNat = 0xF0 → 0x90 ≤ b.toNat) ∧ (a.toNat = 0xF4 → b.toNat ≤ 0x8F) := by
  simp only [isSecondOfFour, ← UInt8.toNat_inj, UInt8.reduceToNat]
  split_ifs <;>
    simp only [isTail_iff, Bool.and_eq_true, decide_eq_true_eq, UInt8.le_iff_toNat_le,
      UInt8.reduceToNat] <;>
    omega

/-- The form of a character, by the size of its number. -/
theorem utf8EncodeChar_eq (c : Char) :
    String.utf8EncodeChar c =
      if c.toNat ≤ 0x7F then [UInt8.ofNat c.toNat]
      else if c.toNat ≤ 0x7FF then
        [UInt8.ofNat (c.toNat / 64 % 32 + 0xC0), UInt8.ofNat (c.toNat % 64 + 0x80)]
      else if c.toNat ≤ 0xFFFF then
        [UInt8.ofNat (c.toNat / 4096 % 16 + 0xE0), UInt8.ofNat (c.toNat / 64 % 64 + 0x80),
          UInt8.ofNat (c.toNat % 64 + 0x80)]
      else
        [UInt8.ofNat (c.toNat / 262144 % 8 + 0xF0), UInt8.ofNat (c.toNat / 4096 % 64 + 0x80),
          UInt8.ofNat (c.toNat / 64 % 64 + 0x80), UInt8.ofNat (c.toNat % 64 + 0x80)] := rfl

/-- The byte of an ASCII character stands in no form but its own. -/
theorem eq_of_mem_utf8EncodeChar {a c : Char} (ha : a.toNat ≤ 0x7F)
    (h : UInt8.ofNat a.toNat ∈ String.utf8EncodeChar c) : c = a := by
  suffices hn : c.toNat = a.toNat by
    rw [← Char.ofNat_toNat c, hn, Char.ofNat_toNat]
  rw [utf8EncodeChar_eq] at h
  split_ifs at h <;>
    simp only [List.mem_cons, List.not_mem_nil, or_false, ← UInt8.toNat_inj,
      UInt8.toNat_ofNat'] at h <;>
    omega

theorem utf8Size_eq (c : Char) :
    c.utf8Size =
      if c.toNat ≤ 0x7F then 1 else if c.toNat ≤ 0x7FF then 2
      else if c.toNat ≤ 0xFFFF then 3 else 4 := rfl

theorem toNat_ofNat {n : Nat} (h : n.isValidChar) : (Char.ofNat n).toNat = n := by
  rw [Char.ofNat, dif_pos h]
  rfl

/-- The decoder reads every form back, whatever follows it. -/
theorem head?_utf8EncodeChar_append (c : Char) (r : Bytes) :
    head? (String.utf8EncodeChar c ++ r) = some (c, c.utf8Size) := by
  have hvalid : c.toNat.isValidChar := c.valid
  have hc := Char.ofNat_toNat c
  rw [utf8EncodeChar_eq, utf8Size_eq]
  generalize c.toNat = n at *
  unfold Nat.isValidChar at hvalid
  split_ifs with h₁ h₂ h₃
  · simp only [List.cons_append, List.nil_append, head?, UInt8.lt_iff_toNat_lt,
      UInt8.toNat_ofNat', UInt8.reduceToNat]
    rw [if_pos (by omega), Nat.mod_eq_of_lt (by omega), hc]
  · simp only [List.cons_append, List.nil_append, head?, tailBits, isTail_iff, Bool.and_eq_true,
      decide_eq_true_eq, UInt8.lt_iff_toNat_lt, UInt8.le_iff_toNat_le, UInt8.toNat_ofNat',
      UInt8.reduceToNat]
    rw [if_neg (by omega), if_pos (by omega), if_pos (by omega), ← hc]
    congr 3
    omega
  · simp only [List.cons_append, List.nil_append, head?, tailBits, isTail_iff,
      isSecondOfThree_iff, Bool.and_eq_true, decide_eq_true_eq, UInt8.lt_iff_toNat_lt,
      UInt8.le_iff_toNat_le, UInt8.toNat_ofNat', UInt8.reduceToNat]
    rw [if_neg (by omega), if_neg (by omega), if_pos (by omega), if_pos (by omega), ← hc]
    congr 3
    omega
  · simp only [List.cons_append, List.nil_append, head?, tailBits, isTail_iff,
      isSecondOfFour_iff, Bool.and_eq_true, decide_eq_true_eq, UInt8.lt_iff_toNat_lt,
      UInt8.le_iff_toNat_le, UInt8.toNat_ofNat', UInt8.reduceToNat]
    rw [if_neg (by omega), if_neg (by omega), if_neg (by omega), if_pos (by omega),
      if_pos (by omega), ← hc]
    congr 3
    omega

/-- What the decoder reads is the form of the character. -/
theorem exists_append_of_head? {data : Bytes} {c : Char} {n : Nat}
    (h : head? data = some (c, n)) : ∃ r, data = String.utf8EncodeChar c ++ r := by
  revert h
  fun_cases head? data with
  | case2 a r h₁ =>
    rintro ⟨⟩
    simp only [UInt8.lt_iff_toNat_lt, UInt8.reduceToNat] at h₁
    refine ⟨r, ?_⟩
    rw [utf8EncodeChar_eq, toNat_ofNat (Or.inl (by omega)), if_pos (by omega), UInt8.ofNat_toNat]
    rfl
  | case3 a h₁ h₂ b r hb =>
    rintro ⟨⟩
    simp only [isTail_iff, Bool.and_eq_true, decide_eq_true_eq, UInt8.lt_iff_toNat_lt,
      UInt8.le_iff_toNat_le, UInt8.reduceToNat] at h₁ h₂ hb
    refine ⟨r, ?_⟩
    rw [tailBits, utf8EncodeChar_eq, toNat_ofNat (Or.inl (by omega)), if_neg (by omega),
      if_pos (by omega)]
    simp only [List.cons_append, List.nil_append, List.cons.injEq, ← UInt8.toNat_inj,
      UInt8.toNat_ofNat', and_true]
    omega
  | case6 a h₁ h₂ h₃ b c r hbc =>
    rintro ⟨⟩
    simp only [isTail_iff, isSecondOfThree_iff, Bool.and_eq_true, decide_eq_true_eq,
      UInt8.lt_iff_toNat_lt, UInt8.le_iff_toNat_le, UInt8.reduceToNat] at h₁ h₂ h₃ hbc
    refine ⟨r, ?_⟩
    rw [tailBits, tailBits, utf8EncodeChar_eq, toNat_ofNat (by unfold Nat.isValidChar; omega),
      if_neg (by omega), if_neg (by omega), if_pos (by omega)]
    simp only [List.cons_append, List.nil_append, List.cons.injEq, ← UInt8.toNat_inj,
      UInt8.toNat_ofNat', and_true]
    omega
  | case9 a h₁ h₂ h₃ h₄ b c d r hbcd =>
    rintro ⟨⟩
    simp only [isTail_iff, isSecondOfFour_iff, Bool.and_eq_true, decide_eq_true_eq,
      UInt8.lt_iff_toNat_lt, UInt8.le_iff_toNat_le, UInt8.reduceToNat] at h₁ h₂ h₃ h₄ hbcd
    refine ⟨r, ?_⟩
    rw [tailBits, tailBits, tailBits, utf8EncodeChar_eq,
      toNat_ofNat (by unfold Nat.isValidChar; omega), if_neg (by omega), if_neg (by omega),
      if_neg (by omega)]
    simp only [List.cons_append, List.nil_append, List.cons.injEq, ← UInt8.toNat_inj,
      UInt8.toNat_ofNat', and_true]
    omega
  | _ => rintro ⟨⟩

/-- Whether the form of some character stands at the start of the bytes. -/
def StartsCharacter (data : Bytes) : Prop := ∃ c, String.utf8EncodeChar c <+: data

theorem head?_eq_none_iff (data : Bytes) : head? data = none ↔ ¬ StartsCharacter data := by
  rw [Option.eq_none_iff_forall_ne_some]
  constructor
  · rintro h ⟨c, r, rfl⟩
    exact h _ (head?_utf8EncodeChar_append c r)
  · rintro h ⟨c, n⟩ hc
    obtain ⟨r, rfl⟩ := exists_append_of_head? hc
    exact h ⟨c, r, rfl⟩

theorem unitsFrom_eq_units_drop (skip : Nat) (data : Bytes) :
    unitsFrom skip data = units (data.drop skip) := by
  induction skip generalizing data with
  | zero => rfl
  | succ skip ih =>
    cases data with
    | nil => rfl
    | cons b r => exact ih r

@[simp] theorem units_nil : units [] = [] := rfl

@[simp] theorem units_utf8EncodeChar_append (c : Char) (r : Bytes) :
    units (String.utf8EncodeChar c ++ r) = some c :: units r := by
  have hhead := head?_utf8EncodeChar_append c r
  have hlength := String.length_utf8EncodeChar c
  obtain ⟨b, tail, hform⟩ := List.exists_cons_of_ne_nil (String.utf8EncodeChar_ne_nil (c := c))
  rw [hform, List.length_cons] at hlength
  rw [hform, List.cons_append] at hhead ⊢
  rw [units, unitsFrom, hhead]
  simp only [unitsFrom_eq_units_drop, ← hlength, Nat.add_sub_cancel, List.drop_left]

theorem units_cons_of_invalid {b : UInt8} {r : Bytes} (h : ¬ StartsCharacter (b :: r)) :
    units (b :: r) = none :: units r := by
  rw [units, unitsFrom, (head?_eq_none_iff _).mpr h]
  rfl

/-- Bytes are built from the end by putting the form of a character, or a byte at which no character
starts, before them. -/
theorem pieces_induction {P : Bytes → Prop} (nil : P [])
    (char : ∀ c r, P r → P (String.utf8EncodeChar c ++ r))
    (invalid : ∀ b r, ¬ StartsCharacter (b :: r) → P r → P (b :: r)) (data : Bytes) : P data := by
  induction hn : data.length using Nat.strongRecOn generalizing data with
  | ind n ih =>
    subst hn
    by_cases h : StartsCharacter data
    · obtain ⟨c, r, rfl⟩ := h
      refine char c r (ih r.length ?_ r rfl)
      have := List.length_pos_iff.mpr (String.utf8EncodeChar_ne_nil (c := c))
      rw [List.length_append]
      omega
    · cases data with
      | nil => exact nil
      | cons b r => exact invalid b r h (ih r.length (Nat.lt_succ_self _) r rfl)

@[simp] theorem encode_cons (c : Char) (t : Text) :
    encode (c :: t) = String.utf8EncodeChar c ++ encode t := rfl

theorem encode_append (a b : Text) : encode (a ++ b) = encode a ++ encode b := List.flatMap_append

@[simp] theorem units_encode (t : Text) : units (encode t) = t.map some := by
  induction t with
  | nil => rfl
  | cons c t ih => rw [encode_cons, units_utf8EncodeChar_append, ih, List.map_cons]

theorem decodeEach_encode (t : Text) : decodeEach (encode t) = t := by
  rw [decodeEach, units_encode, List.map_map]
  exact List.map_id t

theorem mergeRuns_map_some (inRun : Bool) (t : Text) : mergeRuns inRun (t.map some) = t := by
  induction t generalizing inRun with
  | nil => cases inRun <;> rfl
  | cons c t ih => cases inRun <;> simp only [List.map_cons, mergeRuns, ih]

theorem dropMark_eq (t : Text) : dropMark t = if t.head? = some mark then t.tail else t := by
  cases t with
  | nil => rfl
  | cons c t => simp only [dropMark, List.head?_cons, Option.some.injEq, List.tail_cons]

theorem decode_encode (t : Text) : decode (encode t) = dropMark t := by
  rw [decode, units_encode, mergeRuns_map_some]

theorem dropMark_eq_self_iff (t : Text) : dropMark t = t ↔ t.head? ≠ some mark := by
  rw [dropMark_eq]
  split_ifs with h
  · obtain ⟨r, rfl⟩ := List.head?_eq_some_iff.mp h
    simp
  · simp [h]

/-- The standard library's check agrees: an encoded text is valid. -/
theorem validateUTF8_encode (t : Text) : (encode t).toByteArray.validateUTF8 = true :=
  ByteArray.validateUTF8_eq_true_iff.mpr ByteArray.isValidUTF8_utf8Encode

/-- Decoding inverts encoding up to one leading byte-order mark. Whatever the bytes, the decoded
text is encoded without an invalid byte, and is read back as itself unless it still starts with a
mark. -/
theorem decode_inverts_encode :
    (∀ t : Text, decode (encode t) = if t.head? = some mark then t.tail else t) ∧
      (∀ data : Bytes, none ∉ units (encode (decode data)) ∧
        (encode (decode data)).toByteArray.validateUTF8 = true) ∧
      ∀ data : Bytes,
        decode (encode (decode data)) = decode data ↔ (decode data).head? ≠ some mark := by
  refine ⟨fun t => ?_, fun data => ⟨?_, validateUTF8_encode _⟩, fun data => ?_⟩
  · rw [decode_encode, dropMark_eq]
  · simp
  · rw [decode_encode, dropMark_eq_self_iff]

end ObjcOutline.Utf8
