/-!
Texts measured and cut. Offsets into a source and the room of a writer are counted in bytes of UTF-8.
Cutting a text at a byte succeeds only between two characters. A run of characters is cut off the end of
a text as far as it reaches.
-/

namespace SemanticDiagnostics.Text

def byteLength : List Char → Nat
  | [] => 0
  | c :: cs => c.utf8Size + byteLength cs

@[simp] theorem byteLength_nil : byteLength [] = 0 := rfl

@[simp] theorem byteLength_cons (c : Char) (cs : List Char) :
    byteLength (c :: cs) = c.utf8Size + byteLength cs := rfl

@[simp] theorem byteLength_append (as bs : List Char) :
    byteLength (as ++ bs) = byteLength as + byteLength bs := by
  induction as with
  | nil => exact (Nat.zero_add _).symm
  | cons c as ih =>
    rw [List.cons_append, byteLength_cons, byteLength_cons, ih, Nat.add_assoc]

theorem byteLength_eq_zero_iff {cs : List Char} : byteLength cs = 0 ↔ cs = [] := by
  cases cs with
  | nil => simp
  | cons c cs =>
    have hsize := c.utf8Size_pos
    rw [byteLength_cons]
    simp only [reduceCtorEq, iff_false]
    omega

theorem length_le_byteLength (cs : List Char) : cs.length ≤ byteLength cs := by
  induction cs with
  | nil => exact Nat.le_refl 0
  | cons c cs ih =>
    have hsize := c.utf8Size_pos
    rw [List.length_cons, byteLength_cons]
    omega

/-- A character of a text starts before the end of the text. -/
theorem byteLength_take_lt {cs : List Char} {index : Nat} {c : Char} (h : cs[index]? = some c) :
    byteLength (cs.take index) < byteLength cs := by
  obtain ⟨hindex, -⟩ := List.getElem?_eq_some_iff.1 h
  have hsize := (cs[index]).utf8Size_pos
  have hsplit := congrArg byteLength (List.take_append_drop index cs)
  rw [byteLength_append, List.drop_eq_getElem_cons hindex, byteLength_cons] at hsplit
  omega

/-! ## Cutting at a byte -/

/-- What is left after exactly `n` bytes, if a character starts there or the text ends there. -/
def dropBytes : List Char → Nat → Option (List Char)
  | cs, 0 => some cs
  | [], _ + 1 => none
  | c :: cs, n + 1 => if c.utf8Size ≤ n + 1 then dropBytes cs (n + 1 - c.utf8Size) else none

/-- The first `n` bytes, if they are whole characters. -/
def takeBytes : List Char → Nat → Option (List Char)
  | _, 0 => some []
  | [], _ + 1 => none
  | c :: cs, n + 1 =>
    if c.utf8Size ≤ n + 1 then (takeBytes cs (n + 1 - c.utf8Size)).map (c :: ·) else none

/-- A rest exists exactly when some characters at the front take the bytes that are dropped. -/
theorem dropBytes_eq_some_iff {cs rest : List Char} {n : Nat} :
    dropBytes cs n = some rest ↔ ∃ front, cs = front ++ rest ∧ byteLength front = n := by
  fun_induction dropBytes cs n with
  | case1 cs =>
    constructor
    · intro h
      exact ⟨[], by simpa using h, rfl⟩
    · rintro ⟨front, rfl, h⟩
      cases front with
      | nil => rfl
      | cons c front =>
        have := c.utf8Size_pos
        rw [byteLength_cons] at h
        omega
  | case2 n =>
    simp only [reduceCtorEq, false_iff]
    rintro ⟨front, h, h'⟩
    obtain ⟨rfl, rfl⟩ := List.append_eq_nil_iff.1 h.symm
    simp at h'
  | case3 c cs n hfit ih =>
    rw [ih]
    clear ih
    constructor
    · rintro ⟨front, rfl, h⟩
      exact ⟨c :: front, rfl, by rw [byteLength_cons]; omega⟩
    · rintro ⟨front, h, h'⟩
      cases front with
      | nil => simp at h'
      | cons d front =>
        obtain ⟨rfl, rfl⟩ := List.cons.inj h
        rw [byteLength_cons] at h'
        exact ⟨front, rfl, by omega⟩
  | case4 c cs n hfit =>
    simp only [reduceCtorEq, false_iff]
    rintro ⟨front, h, h'⟩
    cases front with
    | nil => simp at h'
    | cons d front =>
      obtain ⟨rfl, rfl⟩ := List.cons.inj h
      rw [byteLength_cons] at h'
      omega

/-- A front exists exactly when it takes the bytes that are asked for. -/
theorem takeBytes_eq_some_iff {cs front : List Char} {n : Nat} :
    takeBytes cs n = some front ↔ ∃ rest, cs = front ++ rest ∧ byteLength front = n := by
  fun_induction takeBytes cs n generalizing front with
  | case1 cs =>
    constructor
    · intro h
      obtain rfl := Option.some.inj h
      exact ⟨cs, rfl, rfl⟩
    · rintro ⟨rest, _, h⟩
      cases front with
      | nil => rfl
      | cons c front =>
        have := c.utf8Size_pos
        rw [byteLength_cons] at h
        omega
  | case2 n =>
    simp only [reduceCtorEq, false_iff]
    rintro ⟨rest, h, h'⟩
    obtain ⟨rfl, rfl⟩ := List.append_eq_nil_iff.1 h.symm
    simp at h'
  | case3 c cs n hfit ih =>
    rw [Option.map_eq_some_iff]
    constructor
    · rintro ⟨tail, h, rfl⟩
      obtain ⟨rest, rfl, h'⟩ := ih.1 h
      exact ⟨rest, rfl, by rw [byteLength_cons]; clear ih; omega⟩
    · rintro ⟨rest, h, h'⟩
      cases front with
      | nil => simp at h'
      | cons d front =>
        obtain ⟨rfl, rfl⟩ := List.cons.inj h
        rw [byteLength_cons] at h'
        exact ⟨front, ih.2 ⟨rest, rfl, by clear ih; omega⟩, rfl⟩
  | case4 c cs n hfit =>
    simp only [reduceCtorEq, false_iff]
    rintro ⟨rest, h, h'⟩
    cases front with
    | nil => simp at h'
    | cons d front =>
      obtain ⟨rfl, rfl⟩ := List.cons.inj h
      rw [byteLength_cons] at h'
      omega

/-! ## The bytes themselves -/

def bytes (s : String) : List UInt8 := s.toList.flatMap String.utf8EncodeChar

@[simp] theorem bytes_empty : bytes "" = [] := by simp [bytes]

@[simp] theorem bytes_append (s t : String) : bytes (s ++ t) = bytes s ++ bytes t := by
  simp [bytes]

/-- The bytes of texts put together are their bytes put together. -/
theorem bytes_join (ss : List String) : bytes (String.join ss) = (ss.map bytes).flatten := by
  induction ss with
  | nil => simp
  | cons s ss ih => simp [String.join_cons, ih]

/-! ## Cutting off a run at the end -/

/-- The characters without the longest run at their end that lies in `p`. -/
def dropTrailing (p : Char → Bool) (cs : List Char) : List Char :=
  (cs.reverse.dropWhile p).reverse

/-- The longest run of characters in `p` at the end. -/
def trailing (p : Char → Bool) (cs : List Char) : List Char :=
  (cs.reverse.takeWhile p).reverse

/-- Nothing is lost between what stays and what is cut. -/
theorem dropTrailing_append_trailing (p : Char → Bool) (cs : List Char) :
    dropTrailing p cs ++ trailing p cs = cs := by
  rw [dropTrailing, trailing, ← List.reverse_append, List.takeWhile_append_dropWhile,
    List.reverse_reverse]

/-- Only characters in `p` are cut. -/
theorem of_mem_trailing {p : Char → Bool} {cs : List Char} {c : Char} (h : c ∈ trailing p cs) :
    p c = true := by
  simp only [trailing, List.mem_reverse] at h
  exact List.all_eq_true.1 (List.all_takeWhile ..) c h

/-- What stays does not end in `p`. -/
theorem getLast_dropTrailing {p : Char → Bool} {cs : List Char} {c : Char}
    (h : (dropTrailing p cs).getLast? = some c) : p c = false := by
  rw [dropTrailing, List.getLast?_reverse] at h
  exact Bool.eq_false_iff.2 fun hc => by
    have := List.head?_dropWhile_not p cs.reverse
    simp [h, hc] at this

theorem dropTrailing_isPrefix (p : Char → Bool) (cs : List Char) : dropTrailing p cs <+: cs :=
  ⟨_, dropTrailing_append_trailing p cs⟩

theorem trailing_subset (p : Char → Bool) (cs : List Char) : trailing p cs ⊆ cs := by
  intro c hc
  rw [← dropTrailing_append_trailing p cs]
  exact List.mem_append_right _ hc

theorem dropTrailing_concat {p : Char → Bool} {c : Char} (h : p c = true) (cs : List Char) :
    dropTrailing p (cs ++ [c]) = dropTrailing p cs := by
  unfold dropTrailing
  rw [List.reverse_append, List.reverse_singleton, List.singleton_append,
    List.dropWhile_cons_of_pos h]

theorem trailing_concat {p : Char → Bool} {c : Char} (h : p c = true) (cs : List Char) :
    trailing p (cs ++ [c]) = trailing p cs ++ [c] := by
  rw [trailing, List.reverse_append, List.reverse_singleton, List.singleton_append,
    List.takeWhile_cons_of_pos h, List.reverse_cons, trailing]

theorem dropWhile_isSuffix {p q : Char → Bool} (h : ∀ c, p c = true → q c = true) :
    ∀ cs : List Char, cs.dropWhile q <:+ cs.dropWhile p
  | [] => List.suffix_rfl
  | c :: cs => by
    cases hp : p c with
    | true =>
      rw [List.dropWhile_cons_of_pos hp, List.dropWhile_cons_of_pos (h c hp)]
      exact dropWhile_isSuffix h cs
    | false =>
      have hstay : (c :: cs).dropWhile p = c :: cs := List.dropWhile_cons_of_neg (by simp [hp])
      rw [hstay]
      exact List.dropWhile_suffix q

/-- The more characters may be cut, the less stays. -/
theorem dropTrailing_isPrefix_of_imp {p q : Char → Bool} (h : ∀ c, p c = true → q c = true)
    (cs : List Char) : dropTrailing q cs <+: dropTrailing p cs :=
  List.reverse_prefix.2 (dropWhile_isSuffix h cs.reverse)

end SemanticDiagnostics.Text
