import Mathlib.Data.List.Basic
import SemanticDiagnostics.Proofs.Decoding

/-! # Inspected values

An inspected value is shown by a text with names, brackets, commas and quotes around the parts of the
value. Strings among the parts may be texts of the same sort. Still every part shows where it ends, so
that it can be told from what follows, and so the whole value can be told from its text. -/
namespace SemanticDiagnostics

/-! ## Writing that shows where it ends -/

/-- Whatever follows a value that is written so, the value and what follows can be told apart. -/
def SelfDelimiting {α : Type} (write : α → List Char) : Prop :=
  ∀ ⦃a b : α⦄ ⦃as bs : List Char⦄, write a ++ as = write b ++ bs → a = b ∧ as = bs

namespace SelfDelimiting

variable {α : Type} {write : α → List Char}

theorem injective (h : SelfDelimiting write) : Function.Injective write := by
  intro a b heq
  exact (h (congrArg (· ++ []) heq)).1

theorem of_reader (read : List Char → Option (α × List Char))
    (h : ∀ a rest, read (write a ++ rest) = some (a, rest)) : SelfDelimiting write := by
  intro a b as bs heq
  have hread := h a as
  rw [heq, h b bs] at hread
  obtain ⟨rfl, rfl⟩ := Prod.mk.inj (Option.some.inj hread)
  exact ⟨rfl, rfl⟩

theorem after (h : SelfDelimiting write) (opening : List Char) :
    SelfDelimiting fun a => opening ++ write a := by
  intro a b as bs heq
  rw [List.append_assoc, List.append_assoc] at heq
  exact h (List.append_cancel_left heq)

/-- A list of items ends at a sign with which no item begins. -/
theorem list {stop : Char} (h : SelfDelimiting write)
    (hstop : ∀ a, ∃ c cs, write a = c :: cs ∧ c ≠ stop) :
    SelfDelimiting fun xs : List α => xs.flatMap write ++ [stop] := by
  have hclash (a : α) (as bs : List Char) : write a ++ as ≠ stop :: bs := by
    obtain ⟨c, cs, hwrite, hc⟩ := hstop a
    rw [hwrite]
    exact fun heq => hc (List.cons.inj heq).1
  intro xs ys as bs heq
  rw [List.append_assoc, List.append_assoc] at heq
  induction xs generalizing ys with
  | nil =>
    cases ys with
    | nil => exact ⟨rfl, List.append_cancel_left heq⟩
    | cons y ys => exact absurd (by simpa using heq.symm) (hclash y (ys.flatMap write ++ stop :: bs) as)
  | cons x xs ih =>
    cases ys with
    | nil => exact absurd (by simpa using heq) (hclash x (xs.flatMap write ++ stop :: as) bs)
    | cons y ys =>
      rw [List.flatMap_cons, List.flatMap_cons, List.append_assoc, List.append_assoc] at heq
      obtain ⟨rfl, hrest⟩ := h heq
      obtain ⟨rfl, rfl⟩ := ih hrest
      exact ⟨rfl, rfl⟩

end SelfDelimiting

/-! ## Quoted texts -/

namespace Text.Quoted

def hexValue (c : Char) : Nat := if c.isDigit then c.toNat - '0'.toNat else c.toNat - 'a'.toNat + 10

/-- Reads a number in hexadecimal up to a closing brace, after digits that make `n`. -/
def readHex : Nat → List Char → Option (Nat × List Char)
  | _, [] => none
  | n, c :: cs => if c = '\x7d' then some (n, cs) else readHex (16 * n + hexValue c) cs

theorem readHex_digitChar {d : Nat} (h : d < 16) (n : Nat) (cs : List Char) :
    readHex n (d.digitChar :: cs) = readHex (16 * n + d) cs := by
  have hdigit : ∀ d < 16, d.digitChar ≠ '\x7d' ∧ hexValue d.digitChar = d := by decide
  obtain ⟨hbrace, hvalue⟩ := hdigit d h
  rw [readHex, if_neg hbrace, hvalue]

theorem readHex_toDigits (n : Nat) (cs : List Char) :
    readHex 0 (Nat.toDigits 16 n ++ cs) = readHex n cs := by
  induction n using Nat.strongRecOn generalizing cs with
  | ind n ih =>
    rw [Nat.toDigits_eq_if (by decide)]
    split
    · rename_i hn
      rw [List.singleton_append, readHex_digitChar hn, Nat.mul_zero, Nat.zero_add]
    · rename_i hn
      rw [List.append_assoc, ih (n / 16) (by omega), List.singleton_append,
        readHex_digitChar (Nat.mod_lt n (by decide)), Nat.div_add_mod]

/-- The character whose escape has this letter. -/
def ofLetter? (letter : Char) : Option Char :=
  ['\x00', '\t', '\r', '\n', '"', '\\'].find? fun c => letter? c = some letter

theorem ofLetter?_of_letter? {c letter : Char} (h : letter? c = some letter) :
    ofLetter? letter = some c := by
  unfold letter? at h
  split_ifs at h <;> cases h <;> subst c <;> decide

/-- The character whose escaped form a text begins with, and what follows the form. -/
def unescape? : List Char → Option (Char × List Char)
  | '\\' :: 'u' :: '\x7b' :: cs => (readHex 0 cs).map fun x => (Char.ofNat x.1, x.2)
  | '\\' :: letter :: cs => (ofLetter? letter).map fun c => (c, cs)
  | c :: cs => some (c, cs)
  | [] => none

theorem unescape?_byCodePoint (c : Char) (rest : List Char) :
    unescape? (byCodePoint c ++ rest) = some (c, rest) := by
  simp [unescape?, byCodePoint, readHex_toDigits, readHex]

theorem unescape?_escape (c : Char) (rest : List Char) :
    unescape? (escape c ++ rest) = some (c, rest) := by
  unfold escape
  split
  · rename_i letter hletter
    have hu : letter ≠ 'u' := by
      unfold letter? at hletter
      split_ifs at hletter <;> cases hletter <;> decide
    simp [unescape?, hu, ofLetter?_of_letter? hletter]
  · rename_i hletter
    split
    · exact unescape?_byCodePoint c rest
    · have hc : c ≠ '\\' := by
        rintro rfl
        cases hletter
      simp [unescape?, hc]

theorem selfDelimiting_escape : SelfDelimiting escape :=
  .of_reader unescape? unescape?_escape

/-- No escaped form begins with a quote. -/
theorem escape_ne_quote (c : Char) : ∃ d ds, escape c = d :: ds ∧ d ≠ '"' := by
  unfold escape
  split
  · exact ⟨_, _, rfl, by decide⟩
  · rename_i hletter
    split
    · exact ⟨_, _, rfl, by decide⟩
    · refine ⟨c, [], rfl, ?_⟩
      rintro rfl
      cases hletter

theorem selfDelimiting_quote : SelfDelimiting fun s : String => (quote s).toList := by
  intro s t as bs h
  simp only [quote, String.toList_ofList, List.cons_append] at h
  obtain ⟨hchars, hrest⟩ := selfDelimiting_escape.list escape_ne_quote (List.cons.inj h).2
  exact ⟨String.toList_inj.1 hchars, hrest⟩

end Text.Quoted

/-! ## Values -/

theorem Position.render_append_inj {p q : Position} {stop : Char} {as bs : List Char}
    (hstop : stop.isDigit = false)
    (h : p.render.toList ++ stop :: as = q.render.toList ++ stop :: bs) : p = q ∧ as = bs := by
  have hpoint : ".".toList = ['.'] := rfl
  simp only [render, String.toList_append, hpoint, List.append_assoc, List.cons_append,
    List.nil_append] at h
  obtain ⟨hline, hrest⟩ :=
    toString_append_inj (head_not_isDigit rfl _) (head_not_isDigit rfl _) h
  obtain ⟨hcolumn, hrest⟩ :=
    toString_append_inj (head_not_isDigit hstop as) (head_not_isDigit hstop bs) (List.cons.inj hrest).2
  exact ⟨Position.ext hline hcolumn, (List.cons.inj hrest).2⟩

theorem Token.selfDelimiting_inspect : SelfDelimiting fun t : Token => t.inspect.toList := by
  intro s t as bs h
  have hclose : ")".toList = [')'] := rfl
  simp only [inspect, Position.inspect, String.toList_append, hclose, List.append_assoc,
    List.append_cancel_left_eq, List.cons_append, List.nil_append] at h
  obtain ⟨htext, hrest⟩ := Text.Quoted.selfDelimiting_quote h
  rw [List.append_cancel_left_eq, List.append_cancel_left_eq] at hrest
  obtain ⟨hposition, hrest⟩ := Position.render_append_inj rfl hrest
  exact ⟨Token.ext htext hposition, (List.cons.inj hrest).2⟩

namespace Record

theorem selfDelimiting_inspect : SelfDelimiting fun r : Record => r.inspect.toList := by
  intro r s as bs h
  have hcomma : ", ".toList = [',', ' '] := rfl
  unfold inspect at h
  simp only [String.toList_append, hcomma, List.append_assoc, List.cons_append, List.nil_append,
    List.append_cancel_left_eq] at h
  obtain ⟨hposition, h⟩ := Position.render_append_inj rfl h
  simp only [List.cons.injEq, true_and] at h
  obtain ⟨hcode, h⟩ := Text.Quoted.selfDelimiting_quote h
  simp only [List.cons.injEq, true_and] at h
  obtain ⟨hmessage, h⟩ := Text.Quoted.selfDelimiting_quote h
  exact ⟨Record.ext hposition hcode hmessage, List.append_cancel_left h⟩

theorem toList_intercalate_cons (separator s : String) (ss : List String) :
    (separator.intercalate (s :: ss)).toList =
      s.toList ++ ss.flatMap fun t => separator.toList ++ t.toList := by
  induction ss generalizing s with
  | nil => simp
  | cons t ts ih => rw [String.intercalate_cons_cons]; simp [ih]

/-- The records behind the first have a comma and a blank in front of them. -/
theorem selfDelimiting_further : SelfDelimiting fun rs : List Record =>
    (rs.flatMap fun r => [',', ' '] ++ r.inspect.toList) ++ [']'] :=
  (selfDelimiting_inspect.after [',', ' ']).list fun r =>
    ⟨',', ' ' :: r.inspect.toList, rfl, by decide⟩

theorem toList_inspectList_cons (r : Record) (rs : List Record) : (inspectList (r :: rs)).toList =
    '[' :: (r.inspect.toList ++ ((rs.flatMap fun r => [',', ' '] ++ r.inspect.toList) ++ [']'])) := by
  have hopen : "[".toList = ['['] := rfl
  have hclose : "]".toList = [']'] := rfl
  have hcomma : ", ".toList = [',', ' '] := rfl
  unfold inspectList
  rw [List.map_cons, String.toList_append, String.toList_append, toList_intercalate_cons, hopen, hclose,
    hcomma, List.flatMap_map, List.append_assoc, List.append_assoc, List.singleton_append]

theorem exists_toList_inspect (r : Record) : ∃ cs, r.inspect.toList = 'D' :: cs := by
  unfold inspect
  simp only [String.toList_append, List.append_assoc]
  exact ⟨_, rfl⟩

theorem selfDelimiting_inspectList :
    SelfDelimiting fun rs : List Record => (inspectList rs).toList := by
  have hempty : (inspectList []).toList = ['[', ']'] := rfl
  have hclash (r : Record) (rs : List Record) (as bs : List Char) :
      (inspectList (r :: rs)).toList ++ as ≠ (inspectList []).toList ++ bs := by
    obtain ⟨cs, hhead⟩ := exists_toList_inspect r
    rw [toList_inspectList_cons, hempty, hhead]
    simp
  intro rs ss as bs h
  change (inspectList rs).toList ++ as = (inspectList ss).toList ++ bs at h
  cases rs with
  | nil =>
    cases ss with
    | nil =>
      rw [List.append_cancel_left_eq] at h
      exact ⟨rfl, h⟩
    | cons s ss => exact absurd h.symm (hclash s ss bs as)
  | cons r rs =>
    cases ss with
    | nil => exact absurd h (hclash r rs as bs)
    | cons s ss =>
      rw [toList_inspectList_cons, toList_inspectList_cons, List.cons_append, List.cons_append,
        List.append_assoc r.inspect.toList, List.append_assoc s.inspect.toList] at h
      obtain ⟨rfl, hrest⟩ := selfDelimiting_inspect (List.cons.inj h).2
      obtain ⟨rfl, hlast⟩ := selfDelimiting_further hrest
      exact ⟨rfl, hlast⟩

end Record

theorem Token.inspect_injective : Function.Injective Token.inspect := by
  intro a b h
  exact selfDelimiting_inspect.injective (congrArg String.toList h)

theorem Record.inspect_injective : Function.Injective Record.inspect := by
  intro a b h
  exact selfDelimiting_inspect.injective (congrArg String.toList h)

/-- The records of a sink or a report stand between fixed texts. -/
theorem Record.inspectList_between_inj (opening closing : String) {rs ss : List Record}
    (h : opening ++ inspectList rs ++ closing = opening ++ inspectList ss ++ closing) : rs = ss := by
  have hlist := congrArg String.toList h
  simp only [String.toList_append, List.append_assoc, List.append_cancel_left_eq] at hlist
  exact (selfDelimiting_inspectList hlist).1

/-- **An inspected value shows all that there is to it**, whatever texts it holds. Records are the same
if they are shown alike, and so are tokens; sinks have the same records in the same order if they are
shown alike, and so have reports. -/
theorem inspected_values_are_told_apart :
    (∀ a b : Record, a.inspect = b.inspect ↔ a = b) ∧
    (∀ a b : Token, a.inspect = b.inspect ↔ a = b) ∧
    (∀ a b : Sink, a.inspect = b.inspect ↔ a.records = b.records) ∧
    ∀ a b : Report, a.inspect = b.inspect ↔ a.records = b.records := by
  refine ⟨fun _ _ => Record.inspect_injective.eq_iff, fun _ _ => Token.inspect_injective.eq_iff,
    ?_, ?_⟩
  · intro a b
    refine ⟨Record.inspectList_between_inj _ _, ?_⟩
    intro h
    unfold Sink.inspect
    rw [h]
  · intro a b
    refine ⟨Record.inspectList_between_inj _ _, ?_⟩
    intro h
    unfold Report.inspect
    rw [h]

end SemanticDiagnostics
