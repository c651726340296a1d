import SemanticDiagnostics.Text.Cutting

/-!
Output. Pieces are texts, and changes of the style in which a terminal shows them. A medium without
styles drops the changes; one with styles writes them as escape sequences. What comes of them is
written, cut into chunks, to a writer that may run full. The writer takes what it has room for, a part
of a chunk included; the chunk that does not fit is the last that it is offered.
-/

namespace SemanticDiagnostics.Output

/-! ## Pieces -/

inductive Color where
  | blue
  | red
  | brightRed
  deriving DecidableEq, Repr

/-- How a terminal shows a text. The default is neither bold nor colored. -/
structure Style where
  bold : Bool := false
  color : Option Color := none
  deriving DecidableEq, Repr

inductive Piece where
  | text (s : String)
  | style (s : Style)
  deriving DecidableEq, Repr

/-- What a writer can show. -/
inductive Medium where
  | plain
  | ansi
  deriving DecidableEq, Repr

def sequence (parameters : String) : String := "\x1b[" ++ parameters ++ "m"

def Color.escape : Color → String
  | .blue => sequence "34"
  | .red => sequence "31"
  | .brightRed => sequence "38;5;9"

/-- The escape sequences of a style: back to the default, then what differs from it. -/
def Style.escape (s : Style) : String :=
  sequence "0" ++ (if s.bold then sequence "1" else "") ++ (s.color.map Color.escape).getD ""

def Piece.render : Medium → Piece → String
  | _, .text s => s
  | .plain, .style _ => ""
  | .ansi, .style s => s.escape

def Piece.reset : Piece := .style {}

/-- A text in a style, followed by the default style. -/
def Piece.styled (style : Style) (s : String) : List Piece := [.style style, .text s, .reset]

/-! ## Writers -/

/-- How a sequence of chunks went down a writer. -/
structure Delivery where
  accepted : List UInt8
  complete : Bool
  /-- How many chunks it was offered. -/
  offered : Nat
  deriving DecidableEq, Repr

namespace Delivery

/-- A delivery after one more chunk that went through before it. -/
def after (chunk : List UInt8) (d : Delivery) : Delivery :=
  { d with accepted := chunk ++ d.accepted, offered := d.offered + 1 }

end Delivery

/-- Offers chunks to a writer with room for so many bytes until one does not fit. -/
def deliver : Nat → List (List UInt8) → Delivery
  | _, [] => { accepted := [], complete := true, offered := 0 }
  | room, chunk :: rest =>
    if chunk.length ≤ room then (deliver (room - chunk.length) rest).after chunk
    else { accepted := chunk.take room, complete := false, offered := 1 }

/-- What a writer takes does not depend on how the bytes are cut into chunks. -/
theorem accepted_deliver (room : Nat) (chunks : List (List UInt8)) :
    (deliver room chunks).accepted = chunks.flatten.take room := by
  induction chunks generalizing room with
  | nil => simp [deliver]
  | cons chunk rest ih =>
    simp only [deliver, List.flatten_cons, List.take_append]
    split
    · rename_i h
      simp [Delivery.after, ih, List.take_of_length_le h]
    · rename_i h
      simp [Nat.sub_eq_zero_of_le (Nat.le_of_not_le h)]

/-- A delivery is complete exactly when there is room for all bytes. -/
theorem complete_deliver_iff (room : Nat) (chunks : List (List UInt8)) :
    (deliver room chunks).complete = true ↔ chunks.flatten.length ≤ room := by
  induction chunks generalizing room with
  | nil => simp [deliver]
  | cons chunk rest ih =>
    simp only [deliver, List.flatten_cons, List.length_append]
    split
    · rename_i h
      simp only [Delivery.after, ih]
      omega
    · rename_i h
      simp
      omega

/-- The end of a write: the whole text is out, or the writer ran full having taken these bytes. -/
inductive Written where
  | complete (text : String)
  | full (accepted : List UInt8)
  deriving DecidableEq, Repr

/-- Writes chunks to a writer with room for `limit` bytes, or for any number of them. -/
def write (limit : Option Nat) (chunks : List String) : Written :=
  match limit with
  | none => .complete (String.join chunks)
  | some room =>
    let delivery := deliver room (chunks.map Text.bytes)
    if delivery.complete then .complete (String.join chunks) else .full delivery.accepted

end SemanticDiagnostics.Output
