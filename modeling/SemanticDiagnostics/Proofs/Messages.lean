import SemanticDiagnostics.Kind.Cursor

/-! # Messages tell kinds apart

A message is a fixed wording around the data of its kind: an opening, for the errors on parameters a
number and a middle part, then the subject and a closing. The subject is any text and may look like
more wording. Still the ends of a message, which hold no data, show which wording it is, and so the
number and the subject can be read from it. -/
namespace SemanticDiagnostics

/-! ## Numerals -/

theorem takeWhile_isDigit_toString (n : Nat) {cs : List Char}
    (h : ∀ c ∈ cs.head?, c.isDigit = false) :
    ((toString n).toList ++ cs).takeWhile Char.isDigit = Nat.toDigits 10 n := by
  have hdigits : ∀ c ∈ Nat.toDigits 10 n, c.isDigit = true := fun c hc =>
    Nat.isDigit_of_mem_toDigits (by decide) (by decide) hc
  have hrest : cs.takeWhile Char.isDigit = [] := by
    cases cs with
    | nil => rfl
    | cons c cs => exact List.takeWhile_cons_of_neg (by simp [h c rfl])
  rw [Nat.toString_eq_repr, Nat.toList_repr, List.takeWhile_append_of_pos hdigits, hrest,
    List.append_nil]

theorem head_not_isDigit {c : Char} (h : c.isDigit = false) (cs : List Char) :
    ∀ d ∈ (c :: cs).head?, d.isDigit = false := by
  intro d hd
  obtain rfl := Option.some.inj hd
  exact h

/-- A number is read back from its numeral if what follows is not a digit. -/
theorem toString_append_inj {m n : Nat} {as bs : List Char}
    (ha : ∀ c ∈ as.head?, c.isDigit = false) (hb : ∀ c ∈ bs.head?, c.isDigit = false)
    (h : (toString m).toList ++ as = (toString n).toList ++ bs) : m = n ∧ as = bs := by
  have hdigits : Nat.toDigits 10 m = Nat.toDigits 10 n := by
    rw [← takeWhile_isDigit_toString m ha, h, takeWhile_isDigit_toString n hb]
  have hnumber : m = n := by
    rw [← Nat.ofDigitChars_ten_toDigits (n := m), hdigits, Nat.ofDigitChars_ten_toDigits]
  subst hnumber
  exact ⟨rfl, List.append_cancel_left h⟩

namespace Kind

/-! ## Wording -/

def opening : Kind → String
  | declaredIdent _ | undeclaredIdent _ | isNotCallable _ | isNotProcedure _ | isNotFunction _ =>
    "identifier `"
  | incompatibleOperator _ => "operator `"
  | numberOfParameters _ => "the number of parameters in the call to `"
  | incompatibleParameter _ _ | referenceableParameter _ _ => "parameter #"
  | k => k.message

def number : Kind → String
  | incompatibleParameter index _ | referenceableParameter index _ => toString index
  | _ => ""

def middle : Kind → String
  | incompatibleParameter _ _ => " with incompatible types in call to `"
  | referenceableParameter _ _ => " is expected to be referenceable in call to `"
  | _ => ""

def closing : Kind → String
  | declaredIdent _ => "` already declared"
  | undeclaredIdent _ => "` is undeclared"
  | isNotCallable _ => "` is not callable"
  | isNotProcedure _ => "` is not a procedure"
  | isNotFunction _ => "` is not a function"
  | incompatibleOperator _ => "` with incompatible types"
  | numberOfParameters _ => "` does not match"
  | incompatibleParameter _ _ | referenceableParameter _ _ => "`"
  | _ => ""

theorem message_eq (k : Kind) :
    k.message = k.opening ++ (k.number ++ (k.middle ++ (k.subject ++ k.closing))) := by
  have hnamed (a b c : String) : a ++ b ++ c = a ++ ("" ++ ("" ++ (b ++ c))) := by
    rw [String.empty_append, String.empty_append, String.append_assoc]
  have hnumbered (a b c d e : String) :
      a ++ b ++ c ++ d ++ e = a ++ (b ++ (c ++ (d ++ e))) := by
    simp only [String.append_assoc]
  have hfixed (a : String) : a = a ++ ("" ++ ("" ++ ("" ++ ""))) := by
    simp only [String.append_empty]
  cases k with
  | declaredIdent | undeclaredIdent | isNotCallable | isNotProcedure | isNotFunction
  | incompatibleOperator | numberOfParameters => exact hnamed ..
  | incompatibleParameter | referenceableParameter => exact hnumbered ..
  | _ => exact hfixed _

theorem toList_message (k : Kind) :
    k.message.toList = k.opening.toList ++ (k.number.toList ++
      (k.middle.toList ++ (k.subject.toList ++ k.closing.toList))) := by
  rw [message_eq]
  simp only [String.toList_append]

theorem opening_isPrefix (k : Kind) : k.opening.toList <+: k.message.toList :=
  ⟨_, k.toList_message.symm⟩

theorem closing_isSuffix (k : Kind) : k.closing.toList <:+ k.message.toList := by
  refine ⟨k.opening.toList ++ (k.number.toList ++ (k.middle.toList ++ k.subject.toList)), ?_⟩
  rw [toList_message]
  simp only [List.append_assoc]

theorem opening_bare (k : Kind) : k.bare.opening = k.opening := by cases k <;> rfl

theorem middle_bare (k : Kind) : k.bare.middle = k.middle := by cases k <;> rfl

theorem closing_bare (k : Kind) : k.bare.closing = k.closing := by cases k <;> rfl

/-! ## The kinds pair by pair -/

theorem ends_of_mem_all : ∀ a ∈ all, ∀ b ∈ all,
    (a.opening.toList <+: b.opening.toList ∨ b.opening.toList <+: a.opening.toList) →
    (a.closing.toList <:+ b.closing.toList ∨ b.closing.toList <:+ a.closing.toList) →
    a.opening = b.opening ∧ a.closing = b.closing ∧ (a.middle = "" ↔ b.middle = "") := by
  decide +kernel

theorem eq_of_mem_all : ∀ a ∈ all, ∀ b ∈ all, a.opening = b.opening → a.closing = b.closing →
    (a.middle.toList <+: b.middle.toList ∨ b.middle.toList <+: a.middle.toList) → a = b := by
  decide +kernel

/-- The ends of a message hold no data and show how it opens and closes. -/
theorem ends_of_message_eq {a b : Kind} (h : a.message = b.message) :
    a.opening = b.opening ∧ a.closing = b.closing ∧ (a.middle = "" ↔ b.middle = "") := by
  have hopening := List.prefix_or_prefix_of_prefix a.opening_isPrefix (h ▸ b.opening_isPrefix)
  have hclosing := List.suffix_or_suffix_of_suffix a.closing_isSuffix (h ▸ b.closing_isSuffix)
  have hends := ends_of_mem_all a.bare a.bare_mem_all b.bare b.bare_mem_all
  simp only [opening_bare, closing_bare, middle_bare] at hends
  exact hends hopening hclosing

theorem bare_eq_of_middle {a b : Kind} (hopening : a.opening = b.opening)
    (hclosing : a.closing = b.closing)
    (hmiddle : a.middle.toList <+: b.middle.toList ∨ b.middle.toList <+: a.middle.toList) :
    a.bare = b.bare := by
  have heq := eq_of_mem_all a.bare a.bare_mem_all b.bare b.bare_mem_all
  simp only [opening_bare, closing_bare, middle_bare] at heq
  exact heq hopening hclosing hmiddle

/-! ## Reading a message -/

theorem number_of_middle_eq {k : Kind} (h : k.middle = "") : k.number = "" ∧ k.index = 0 := by
  cases k with
  | incompatibleParameter | referenceableParameter => simp [middle] at h
  | _ => exact ⟨rfl, rfl⟩

theorem number_of_middle_ne {k : Kind} (h : k.middle ≠ "") :
    k.number = toString k.index ∧ ∃ cs, k.middle.toList = ' ' :: cs := by
  cases k with
  | incompatibleParameter | referenceableParameter => exact ⟨rfl, by simp [middle]⟩
  | _ => exact absurd rfl h

/-- The number is read off, if there is one. -/
theorem index_eq_of_append_eq {a b : Kind} {as bs : List Char}
    (hmiddle : a.middle = "" ↔ b.middle = "")
    (h : a.number.toList ++ (a.middle.toList ++ as) =
      b.number.toList ++ (b.middle.toList ++ bs)) :
    a.index = b.index ∧ a.middle.toList ++ as = b.middle.toList ++ bs := by
  by_cases ha : a.middle = ""
  · obtain ⟨hnumber, hindex⟩ := number_of_middle_eq ha
    obtain ⟨hnumber', hindex'⟩ := number_of_middle_eq (hmiddle.1 ha)
    rw [hnumber, hnumber'] at h
    exact ⟨hindex.trans hindex'.symm, h⟩
  · obtain ⟨hnumber, cs, hcs⟩ := number_of_middle_ne ha
    obtain ⟨hnumber', ds, hds⟩ := number_of_middle_ne fun hb => ha (hmiddle.2 hb)
    have hspace (es : List Char) : ∀ c ∈ (' ' :: es).head?, c.isDigit = false :=
      head_not_isDigit rfl es
    rw [hnumber, hnumber', hcs, hds] at h
    rw [hcs, hds]
    exact toString_append_inj (hspace _) (hspace _) h

/-- **A message shows its kind**, the number and the subject included, whatever the subject is. -/
theorem message_injective : Function.Injective message := by
  intro a b h
  obtain ⟨hopening, hclosing, hmiddle⟩ := ends_of_message_eq h
  have hlists := congrArg String.toList h
  rw [toList_message, toList_message, hopening, hclosing] at hlists
  obtain ⟨hindex, hrest⟩ := index_eq_of_append_eq hmiddle (List.append_cancel_left hlists)
  have hbare : a.bare = b.bare := by
    refine bare_eq_of_middle hopening hclosing ?_
    exact List.prefix_or_prefix_of_prefix (List.prefix_append _ _) ⟨_, hrest.symm⟩
  have hsame : a.middle = b.middle := by rw [← middle_bare, hbare, middle_bare]
  rw [hsame] at hrest
  have hsubject : a.subject.toList = b.subject.toList :=
    List.append_cancel_right (List.append_cancel_left hrest)
  exact eq_of_bare_eq hbare hindex (String.toList_inj.1 hsubject)

end Kind
end SemanticDiagnostics
