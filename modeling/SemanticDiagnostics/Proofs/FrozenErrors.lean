import SemanticDiagnostics.Proofs.Decoding

/-! # Errors behind frozen texts

A record keeps the message of its error as a text, and plain output a line. Neither loses anything. A
message is read by trying the wordings of all kinds: what stands between the parts of a wording is
taken for the data, and if the kind with these data has the message, it is the one that was frozen. A
line is read in the same manner, with the place in front. -/
namespace SemanticDiagnostics

/-! ## The readers -/

namespace Kind

/-- The index at the front of a text, and what follows it. A wording without a middle part has none. -/
def readIndex? (wording : Kind) (cs : List Char) : Option (Nat × List Char) :=
  if wording.middle = "" then some (0, cs) else Entry.readNumber? cs

/-- Takes a text for a message with the wording of this kind. -/
def ofWording? (wording : Kind) (cs : List Char) : Option Kind := do
  let cs ← wording.opening.toList.isPrefixOf? cs
  let (index, cs) ← wording.readIndex? cs
  let cs ← wording.middle.toList.isPrefixOf? cs
  let cs ← wording.closing.toList.isSuffixOf? cs
  return wording.withData index (String.ofList cs)

/-- The kind that has this message. A wording may fit with data of which the message is another, for
a number can be written with more zeros, so the kinds that are read are compared with the message. -/
def ofMessage? (message : String) : Option Kind :=
  (all.filterMap (ofWording? · message.toList)).find? fun k => k.message = message

end Kind

/-- The error and the place of which a line of plain output is read to tell. -/
def Entry.finding? (e : Entry) : Option (Kind × Position) := do
  let kind ← Kind.ofMessage? e.message
  let position ← (Position.ofCoordinates e.line e.column).toOption
  return (kind, position)

/-- The error and the place of which this is the line in plain output. -/
def Record.findingOfLine? (line : String) : Option (Kind × Position) :=
  ((Entry.ofLine? line.toList).bind Entry.finding?).filter fun x =>
    (ofKind x.1 x.2).render = line

/-! ## Messages -/

namespace Kind

theorem eq_of_name_eq : ∀ a ∈ all, ∀ b ∈ all, a.name = b.name → a = b := by decide +kernel

/-- Data of the same kind are the same if they are listed alike. -/
theorem eq_of_bare_eq_of_payload_eq {a b : Kind} (h : a.bare = b.bare)
    (hpayload : a.payload = b.payload) : a = b := by
  have hdata (index : Nat) (subject : String) :
      (b.bare.withData index subject).payload = b.payload → b.bare.withData index subject = b := by
    cases b <;> simp [bare, withData, payload]
  rw [← a.withData_bare, h] at hpayload ⊢
  exact hdata a.index a.subject hpayload

/-- The name and the data are all there is to a kind. -/
theorem eq_iff_name_payload {a b : Kind} :
    a = b ↔ a.name = b.name ∧ a.payload = b.payload := by
  constructor
  · rintro rfl
    exact ⟨rfl, rfl⟩
  · rintro ⟨hname, hpayload⟩
    rw [← a.name_bare, ← b.name_bare] at hname
    have hbare : a.bare = b.bare := eq_of_name_eq _ a.bare_mem_all _ b.bare_mem_all hname
    exact eq_of_bare_eq_of_payload_eq hbare hpayload

theorem readIndex?_message (k : Kind) (cs : List Char) :
    k.bare.readIndex? (k.number.toList ++ (k.middle.toList ++ cs)) =
      some (k.index, k.middle.toList ++ cs) := by
  unfold readIndex?
  rw [middle_bare]
  by_cases h : k.middle = ""
  · obtain ⟨hnumber, hindex⟩ := number_of_middle_eq h
    rw [if_pos h, hnumber, hindex]
    rfl
  · obtain ⟨hnumber, ds, hmiddle⟩ := number_of_middle_ne h
    rw [if_neg h, hnumber, hmiddle]
    exact Entry.readNumber?_toString (head_not_isDigit rfl _)

/-- Its own wording reads a message as it was meant. -/
theorem ofWording?_message (k : Kind) : k.bare.ofWording? k.message.toList = some k := by
  have hsuffix (as bs : List Char) : bs.isSuffixOf? (as ++ bs) = some as :=
    List.isSuffixOf?_eq_some_iff_append_eq.2 rfl
  rw [toList_message]
  simp only [ofWording?, opening_bare, middle_bare, closing_bare, readIndex?_message,
    isPrefixOf?_append, hsuffix, Option.bind_eq_bind, Option.bind_some, String.ofList_toList, withData_bare]
  rfl

/-- What is read from a message has this message. -/
theorem message_of_ofMessage? {message : String} {k : Kind} (h : ofMessage? message = some k) :
    k.message = message := by
  have hfound : decide (k.message = message) = true :=
    List.find?_some (p := fun k : Kind => k.message = message) h
  exact of_decide_eq_true hfound

/-- A message is read as a kind exactly if the kind has this message. -/
theorem ofMessage?_eq_some_iff {message : String} {k : Kind} :
    ofMessage? message = some k ↔ k.message = message := by
  constructor
  · exact message_of_ofMessage?
  · rintro rfl
    have hread : k ∈ all.filterMap (ofWording? · k.message.toList) :=
      List.mem_filterMap.2 ⟨k.bare, k.bare_mem_all, k.ofWording?_message⟩
    -- What is found need not be what this wording reads, but it has the same message.
    cases hfound : ofMessage? k.message with
    | none => exact absurd (decide_eq_true rfl) (List.find?_eq_none.1 hfound k hread)
    | some found => rw [message_injective (message_of_ofMessage? hfound)]

/-- The subject may look like wording, and even like another message. -/
example : ofMessage? "parameter #7 with incompatible types in call to `` is undeclared`" =
    some (incompatibleParameter 7 "` is undeclared") := by decide +kernel

end Kind

/-! ## Lines -/

theorem Entry.finding?_entry (kind : Kind) (p : Position) :
    (Record.ofKind kind p).entry.finding? = some (kind, p) := by
  have hkind : Kind.ofMessage? (Record.ofKind kind p).entry.message = some kind :=
    Kind.ofMessage?_eq_some_iff.2 rfl
  have hplace : Position.ofCoordinates (Record.ofKind kind p).entry.line
      (Record.ofKind kind p).entry.column = .ok p := p.ofCoordinates_self
  rw [finding?, hkind, hplace]
  rfl

/-- A line is read as an error at a place exactly if the record of the error has this line. -/
theorem Record.findingOfLine?_eq_some_iff {line : String} {kind : Kind} {p : Position} :
    findingOfLine? line = some (kind, p) ↔ (ofKind kind p).render = line := by
  constructor
  · intro h
    exact of_decide_eq_true (Option.filter_eq_some_iff.1 h).2
  · rintro rfl
    refine Option.filter_eq_some_iff.2 ⟨?_, decide_eq_true rfl⟩
    rw [Entry.ofLine?_render, Option.bind_some, Entry.finding?_entry]

/-- **Messages identify errors.** Two errors have one message only if they are of one name and have the
same data, whatever texts these are. So records of errors are the same, and so are their lines, exactly
if the errors and the places are; and the error can be read from its message, the error and the place
from the line. -/
theorem messages_identify_errors (a b : Kind) (p q : Position) :
    (a.message = b.message ↔ a = b) ∧
    (a = b ↔ a.name = b.name ∧ a.payload = b.payload) ∧
    (Record.ofKind a p = Record.ofKind b q ↔ a = b ∧ p = q) ∧
    ((Record.ofKind a p).render = (Record.ofKind b q).render ↔ a = b ∧ p = q) ∧
    (∀ message, Kind.ofMessage? message = some a ↔ a.message = message) ∧
    ∀ line, Record.findingOfLine? line = some (a, p) ↔ (Record.ofKind a p).render = line := by
  have hline : (Record.ofKind a p).render = (Record.ofKind b q).render → a = b ∧ p = q := by
    intro h
    have hfirst : Record.findingOfLine? (Record.ofKind b q).render = some (a, p) :=
      Record.findingOfLine?_eq_some_iff.2 h
    have hsecond : Record.findingOfLine? (Record.ofKind b q).render = some (b, q) :=
      Record.findingOfLine?_eq_some_iff.2 rfl
    exact Prod.mk.inj (Option.some.inj (hfirst.symm.trans hsecond))
  refine ⟨Kind.message_injective.eq_iff, Kind.eq_iff_name_payload, ⟨?_, ?_⟩, ⟨hline, ?_⟩,
    fun _ => Kind.ofMessage?_eq_some_iff, fun _ => Record.findingOfLine?_eq_some_iff⟩
  · intro h
    exact hline (congrArg Record.render h)
  · rintro ⟨rfl, rfl⟩
    rfl
  · rintro ⟨rfl, rfl⟩
    rfl

end SemanticDiagnostics
