import ObjcOutline.Proofs.ShownSymbols

/-!
# Selecting symbols before and after the sort

A list of symbols that is sorted by line is determined by what stands on each line. A stable sort
keeps what stands on each line, so symbols may be selected before it or after it, by any test. Two
selections are of interest. A query gives the same symbols either way. And the properties can be
taken out of a finished symbol map, because no block and no method has the kind of a property.
-/
namespace ObjcOutline.SymbolMap

theorem mem_iff_of_filter_line_eq {xs ys : List Symbol}
    (h : ∀ line, xs.filter (fun s => s.line = line) = ys.filter fun s => s.line = line)
    (x : Symbol) : x ∈ xs ↔ x ∈ ys := by
  have hline := congrArg (x ∈ ·) (h x.line)
  simpa using hline

/-- Lists in the order of their lines are equal when each line has the same symbols in both. -/
theorem eq_of_filter_line_eq {xs ys : List Symbol} (hxs : xs.Pairwise fun a b => a.line ≤ b.line)
    (hys : ys.Pairwise fun a b => a.line ≤ b.line)
    (h : ∀ line, xs.filter (fun s => s.line = line) = ys.filter fun s => s.line = line) :
    xs = ys := by
  have hmem := mem_iff_of_filter_line_eq h
  induction xs generalizing ys with
  | nil => exact (List.eq_nil_iff_forall_not_mem.mpr fun s hs => by simpa using (hmem s).mpr hs).symm
  | cons x xs ih =>
    cases ys with
    | nil => exact absurd ((hmem x).mp List.mem_cons_self) List.not_mem_nil
    | cons y ys =>
      obtain ⟨hfirst, hxs⟩ := List.pairwise_cons.mp hxs
      obtain ⟨hfirst', hys⟩ := List.pairwise_cons.mp hys
      have hyx : y.line ≤ x.line := by
        rcases List.mem_cons.mp ((hmem x).mp List.mem_cons_self) with heq | hin
        · exact (congrArg Symbol.line heq).ge
        · exact hfirst' x hin
      have hxy : x.line ≤ y.line := by
        rcases List.mem_cons.mp ((hmem y).mpr List.mem_cons_self) with heq | hin
        · exact (congrArg Symbol.line heq).ge
        · exact hfirst y hin
      have hhead := h x.line
      rw [List.filter_cons_of_pos (by simp), List.filter_cons_of_pos (by simp; omega)] at hhead
      have htail (line : Int) :
          xs.filter (fun s => s.line = line) = ys.filter fun s => s.line = line := by
        have hline := h line
        by_cases heq : x.line = line
        · rw [List.filter_cons_of_pos (by simpa using heq),
            List.filter_cons_of_pos (by simp; omega)] at hline
          exact (List.cons.inj hline).2
        · rwa [List.filter_cons_of_neg (by simpa using heq),
            List.filter_cons_of_neg (by simp; omega)] at hline
      rw [(List.cons.inj hhead).1, ih hxs hys htail (mem_iff_of_filter_line_eq htail)]

/-- A stable sort and a selection may change places. -/
theorem filter_mergeSort (p : Symbol → Bool) (symbols : List Symbol) :
    (symbols.mergeSort fun a b => a.line ≤ b.line).filter p =
      (symbols.filter p).mergeSort fun a b => a.line ≤ b.line := by
  have hsorted (l : List Symbol) :
      (l.mergeSort fun a b => a.line ≤ b.line).Pairwise fun a b => a.line ≤ b.line :=
    (List.pairwise_mergeSort line_le_trans line_le_total l).imp of_decide_eq_true
  apply eq_of_filter_line_eq ((hsorted symbols).filter p) (hsorted (symbols.filter p))
  intro line
  rw [filter_line_mergeSort, List.filter_comm, filter_line_mergeSort, List.filter_comm]

theorem kind_ne_propertyKind {b : Block} (h : b.openingKeyword ∈ keywordOrder) :
    (Symbol.ofBlock b).kind ≠ Symbol.propertyKind := by
  have hkind : b.kind = .category ∨ b.kind ∈ keywordOrder := by
    by_cases hcategory : b.kind = .category
    · exact .inl hcategory
    · rw [Block.openingKeyword, if_neg hcategory] at h
      exact .inr h
  simp only [keywordOrder, List.mem_cons, List.not_mem_nil, or_false] at hkind
  have hword : b.kind.toText ≠ Symbol.propertyKind := by
    rcases hkind with heq | heq | heq | heq <;> rw [heq] <;> decide
  exact hword

theorem kind_ne_of_mem_blockSymbols {blocks : List Block} {x : Symbol}
    (h : x ∈ blockSymbols blocks) : x.kind ≠ Symbol.propertyKind := by
  obtain ⟨keyword, hkeyword, hx⟩ := List.mem_flatMap.mp h
  obtain ⟨b, hb, rfl⟩ := List.mem_map.mp hx
  have hopened := of_decide_eq_true (List.mem_filter.mp hb).2
  exact kind_ne_propertyKind (hopened ▸ hkeyword)

theorem gathered_false (s : Skeleton) :
    gathered s false = (gathered s true).filter fun x => x.kind ≠ Symbol.propertyKind := by
  have hblocks : (blockSymbols s.blocks).filter (fun x => x.kind ≠ Symbol.propertyKind) =
      blockSymbols s.blocks :=
    List.filter_eq_self.mpr fun x hx => decide_eq_true (kind_ne_of_mem_blockSymbols hx)
  have hproperties : (s.properties.map Symbol.ofProperty).filter
      (fun x => x.kind ≠ Symbol.propertyKind) = [] := by
    simp [List.filter_map, Symbol.ofProperty, Function.comp_def]
  have hmethods : (s.methods.map Symbol.ofMethod).filter
      (fun x => x.kind ≠ Symbol.propertyKind) = s.methods.map Symbol.ofMethod := by
    apply List.filter_eq_self.mpr
    intro x hx
    obtain ⟨m, -, rfl⟩ := List.mem_map.mp hx
    have hword : Symbol.methodKind ≠ Symbol.propertyKind := by decide
    exact decide_eq_true hword
  unfold gathered
  rw [List.filter_append, List.filter_append, hblocks, hmethods, if_pos rfl, hproperties]
  rfl

/-- What a query asks of a symbol: the kind that is named, if one is, and a name that contains the
given text. -/
theorem isSelected_iff {kind name : Text} {x : Symbol} :
    x.isSelected kind name = true ↔ (kind = [] ∨ x.kind = kind) ∧ name <:+: x.name := by
  have hname : (name.isEmpty || Text.occursIn name x.name) = true ↔ name <:+: x.name := by
    rw [Bool.or_eq_true, Text.occursIn_iff, List.isEmpty_iff, or_iff_right_iff_imp]
    intro hempty
    rw [hempty]
    exact List.nil_infix
  rw [Symbol.isSelected, Bool.and_eq_true, hname, Bool.or_eq_true, List.isEmpty_iff, beq_iff_eq]

/-- A symbol map without properties is the one with properties less its properties, in the same
order; and a query of a symbol map gives what is left when the other symbols are discarded before
the sort. -/
theorem selection_before_sorting (s : Skeleton) :
    (ofSkeleton s false).symbols =
        ((ofSkeleton s true).symbols.filter fun x => x.kind ≠ Symbol.propertyKind) ∧
      ∀ withProperties kind name, (ofSkeleton s withProperties).query kind name =
        ((gathered s withProperties).filter fun x =>
          (kind = [] ∨ x.kind = kind) ∧ name <:+: x.name).mergeSort fun a b => a.line ≤ b.line := by
  constructor
  · unfold ofSkeleton
    rw [gathered_false, filter_mergeSort]
  · intro withProperties kind name
    have hselected (x : Symbol) : x.isSelected kind name =
        decide ((kind = [] ∨ x.kind = kind) ∧ name <:+: x.name) := by
      rw [Bool.eq_iff_iff, isSelected_iff, decide_eq_true_iff]
    rw [query, funext hselected]
    exact filter_mergeSort _ (gathered s withProperties)

end ObjcOutline.SymbolMap
