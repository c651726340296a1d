import SemanticDiagnostics.Proofs.PlainPaths
import SemanticDiagnostics.Proofs.Reading

/-! # Writers that run full

A writer may take only a part of what a call offers it, and when it has no room left, the next call
fails. Output goes down such a writer chunk by chunk: what is left of a chunk is offered again until
it is all taken or a call fails, and after a call has failed there is no other. What the writer has
taken then depends on the text and on the room: neither on the chunks nor on how much it takes in a
call. -/
namespace SemanticDiagnostics
open Output

namespace Output

/-! ## Chunks that are offered -/

theorem offered_of_complete {room : Nat} {chunks : List (List UInt8)}
    (h : (deliver room chunks).complete = true) : (deliver room chunks).offered = chunks.length := by
  fun_induction deliver room chunks with
  | case1 => rfl
  | case2 room chunk rest _ ih => exact congrArg (· + 1) (ih h)
  | case3 => cases h

/-- An incomplete delivery ends with the first chunk that does not fit. -/
theorem exists_of_incomplete {room : Nat} {chunks : List (List UInt8)}
    (h : (deliver room chunks).complete = false) :
    ∃ before chunk rest, chunks = before ++ chunk :: rest ∧
      (deliver room chunks).offered = before.length + 1 ∧
      before.flatten.length ≤ room ∧ room < (before ++ [chunk]).flatten.length := by
  fun_induction deliver room chunks with
  | case1 => cases h
  | case2 room chunk rest hfit ih =>
    obtain ⟨before, last, after, hrest, hoffered, hbefore, hlast⟩ := ih h
    refine ⟨chunk :: before, last, after, ?_, ?_, ?_, ?_⟩
    · rw [hrest, List.cons_append]
    · exact congrArg (· + 1) hoffered
    · rw [List.flatten_cons, List.length_append]
      omega
    · rw [List.cons_append, List.flatten_cons, List.length_append]
      omega
  | case3 room chunk rest hfull =>
    exact ⟨[], chunk, rest, rfl, rfl, Nat.zero_le _, by simpa using hfull⟩

/-! ## Calls to a writer -/

/-- A call to a writer: the bytes that it was offered and how many of them it took, if it took any. -/
structure Call where
  offered : List UInt8
  taken : Option Nat
  deriving DecidableEq

def Call.failed (c : Call) : Bool := c.taken.isNone

def Call.accepted (c : Call) : List UInt8 := c.offered.take (c.taken.getD 0)

/-- A writer between two calls. -/
structure Device where
  /-- How many bytes it can still take. -/
  room : Nat
  /-- The calls so far, the earliest first. -/
  calls : List Call
  deriving DecidableEq

namespace Device

def ofRoom (room : Nat) : Device := { room, calls := [] }

/-- The bytes that the writer has taken. -/
def accepted (d : Device) : List UInt8 := d.calls.flatMap Call.accepted

/-- No call has failed yet. -/
def Intact (d : Device) : Prop := ∀ c ∈ d.calls, c.failed = false

/-- Takes the first `n` of the bytes that it is offered. -/
def take (d : Device) (bytes : List UInt8) (n : Nat) : Device :=
  { room := d.room - n, calls := d.calls ++ [⟨bytes, some n⟩] }

/-- Fails when it is offered some bytes. -/
def refuse (d : Device) (bytes : List UInt8) : Device :=
  { d with calls := d.calls ++ [⟨bytes, none⟩] }

/-- Offers what is left of some bytes in one call after the other, until all are taken or a call
fails. A writer that is not full takes one byte at least, and `greed` more if there are so many and
there is room for them. -/
def writeAll (greed : Nat → Nat) (d : Device) (bytes : List UInt8) : Device × Bool :=
  if bytes = [] then (d, true)
  else if d.room = 0 then (d.refuse bytes, false)
  else
    let n := min (greed d.calls.length + 1) (min d.room bytes.length)
    writeAll greed (d.take bytes n) (bytes.drop n)
termination_by bytes.length
decreasing_by
  have hlength := List.length_pos_iff.2 ‹bytes ≠ []›
  rw [List.length_drop]
  omega

/-- Writes one chunk after the other. What follows a failure is not offered. -/
def send (greed : Nat → Nat) (d : Device) : List (List UInt8) → Device × Bool
  | [] => (d, true)
  | chunk :: rest =>
    let (next, through) := d.writeAll greed chunk
    if through then next.send greed rest else (next, false)

/-! ## What calls add up to -/

/-- What has become of a writer that was offered some bytes in any number of calls: `e` is the writer
afterwards, and `through` says whether it has taken all of them. -/
structure Sent (d : Device) (bytes : List UInt8) (e : Device) (through : Bool) : Prop where
  accepted : e.accepted = d.accepted ++ bytes.take d.room
  room : e.room = d.room - bytes.length
  through_iff : through = true ↔ bytes.length ≤ d.room
  intact_iff : d.Intact → (e.Intact ↔ through = true)
  last_failed : d.Intact → ∀ c ∈ e.calls.dropLast, c.failed = false

variable {d e f : Device} {bytes more : List UInt8} {through : Bool} {n : Nat}

theorem accepted_take : (d.take bytes n).accepted = d.accepted ++ bytes.take n := by
  simp [accepted, take, Call.accepted]

theorem accepted_refuse : (d.refuse bytes).accepted = d.accepted := by
  simp [accepted, refuse, Call.accepted]

theorem Intact.dropLast (h : d.Intact) : ∀ c ∈ d.calls.dropLast, c.failed = false :=
  fun c hc => h c (List.dropLast_subset _ hc)

namespace Sent

theorem nothing : Sent d [] d true where
  accepted := by rw [List.take_nil, List.append_nil]
  room := rfl
  through_iff := iff_of_true rfl (Nat.zero_le _)
  intact_iff h := iff_of_true h rfl
  last_failed h := h.dropLast

/-- One call that goes through. -/
theorem taken (hroom : n ≤ d.room) (hlength : n ≤ bytes.length) :
    Sent d (bytes.take n) (d.take bytes n) true where
  accepted := by
    rw [accepted_take, List.take_take, Nat.min_eq_right hroom]
  room := by
    rw [List.length_take, Nat.min_eq_left hlength]
    rfl
  through_iff := iff_of_true rfl (by rw [List.length_take]; omega)
  intact_iff h := by
    refine iff_of_true ?_ rfl
    intro c hc
    rcases List.mem_append.1 hc with hc | hc
    · exact h c hc
    · obtain rfl := List.mem_singleton.1 hc
      rfl
  last_failed h := by
    show ∀ c ∈ (d.calls ++ _).dropLast, _
    rw [List.dropLast_concat]
    exact h

/-- One call that fails. -/
theorem refused (hroom : d.room = 0) (hbytes : bytes ≠ []) :
    Sent d bytes (d.refuse bytes) false where
  accepted := by rw [accepted_refuse, hroom, List.take_zero, List.append_nil]
  room := by
    show d.room = _
    rw [hroom, Nat.zero_sub]
  through_iff := by
    have hlength := List.length_pos_iff.2 hbytes
    exact iff_of_false Bool.false_ne_true (by omega)
  intact_iff _ := by
    refine iff_of_false ?_ Bool.false_ne_true
    intro h
    cases h ⟨bytes, none⟩ List.mem_concat_self
  last_failed h := by
    show ∀ c ∈ (d.calls ++ _).dropLast, _
    rw [List.dropLast_concat]
    exact h

/-- Bytes that have all been taken, and those that were offered next. -/
theorem trans (h : Sent d bytes e true) (h' : Sent e more f through) :
    Sent d (bytes ++ more) f through := by
  have hfit : bytes.length ≤ d.room := h.through_iff.1 rfl
  refine ⟨?_, ?_, ?_, ?_, ?_⟩
  · rw [h'.accepted, h.accepted, h.room, List.take_append, List.append_assoc]
  · rw [h'.room, h.room, List.length_append, Nat.sub_add_eq]
  · rw [h'.through_iff, h.room, List.length_append]
    omega
  · exact fun hd => h'.intact_iff ((h.intact_iff hd).2 rfl)
  · exact fun hd => h'.last_failed ((h.intact_iff hd).2 rfl)

/-- Bytes that were not all taken, and those behind them, which were not offered. -/
theorem stop (h : Sent d bytes e false) (more : List UInt8) : Sent d (bytes ++ more) e false := by
  have hfull : ¬ bytes.length ≤ d.room := fun hfit => Bool.false_ne_true (h.through_iff.2 hfit)
  refine ⟨?_, ?_, ?_, h.intact_iff, h.last_failed⟩
  · rw [h.accepted, List.take_append_of_le_length (by omega)]
  · rw [h.room, List.length_append]
    omega
  · rw [List.length_append]
    exact iff_of_false Bool.false_ne_true (by omega)

end Sent

theorem sent_writeAll (greed : Nat → Nat) (d : Device) (bytes : List UInt8) :
    Sent d bytes (d.writeAll greed bytes).1 (d.writeAll greed bytes).2 := by
  fun_induction writeAll greed d bytes with
  | case1 d => exact .nothing
  | case2 d bytes hbytes hroom => exact .refused hroom hbytes
  | case3 d bytes hbytes hroom n ih =>
    have htaken : Sent d (bytes.take n) (d.take bytes n) true := .taken (by omega) (by omega)
    have hboth := htaken.trans ih
    rwa [List.take_append_drop] at hboth

/-- It makes no difference to a writer into which chunks some bytes are cut. -/
theorem sent_send (greed : Nat → Nat) (d : Device) (chunks : List (List UInt8)) :
    Sent d chunks.flatten (d.send greed chunks).1 (d.send greed chunks).2 := by
  induction chunks generalizing d with
  | nil => exact .nothing
  | cons chunk rest ih =>
    have hchunk := sent_writeAll greed d chunk
    rw [List.flatten_cons, send]
    generalize d.writeAll greed chunk = sent at hchunk
    obtain ⟨next, through⟩ := sent
    cases through with
    | true => exact hchunk.trans (ih next)
    | false => exact hchunk.stop rest.flatten

end Device

/-! ## Output to a writer with a limit -/

namespace Written

/-- Whether the whole text was written. -/
def succeeded : Written → Bool
  | complete _ => true
  | full _ => false

/-- The bytes that the writer has taken. -/
def accepted : Written → List UInt8
  | complete text => Text.bytes text
  | full bytes => bytes

end Written

theorem succeeded_writeWhole_iff (room : Nat) (text : String) :
    (writeWhole (some room) text).succeeded = true ↔ (Text.bytes text).length ≤ room := by
  by_cases h : (Text.bytes text).length ≤ room
  · rw [writeWhole, if_pos h]
    exact iff_of_true rfl h
  · rw [writeWhole, if_neg h]
    exact iff_of_false Bool.false_ne_true h

theorem accepted_writeWhole (room : Nat) (text : String) :
    (writeWhole (some room) text).accepted = (Text.bytes text).take room := by
  by_cases h : (Text.bytes text).length ≤ room
  · rw [writeWhole, if_pos h]
    exact (List.take_of_length_le h).symm
  · rw [writeWhole, if_neg h]
    rfl

/-- The ways to write to a writer of the caller's. -/
inductive Outlet where
  | sink (s : Sink)
  | report (r : Report)
  | emission (r : Report) (file : SourceFile) (config : EmitConfig) (medium : Medium)

namespace Outlet

/-- Writes to a writer that may have a limit. -/
def write (limit : Option Nat) : Outlet → Written
  | sink s => s.write limit
  | report r => r.write limit
  | emission r file config medium => (r.emit file config medium limit).value

/-- The chunks in which the output is offered. -/
def chunks : Outlet → List String
  | sink s => Record.plainChunks s.sorted
  | report r => Record.plainChunks r.records
  | emission r file config medium => r.chunks file config.style medium

theorem write_eq (o : Outlet) (limit : Option Nat) :
    o.write limit = Output.write limit o.chunks := by
  cases o <;> rfl

end Outlet

end Output

/-- **A writer that runs full has taken a prefix.** A sink or a report is written, or a report is
emitted in any style for any medium. Let `text` be what a writer without a limit gets. A writer with
room for fewer bytes makes the output fail, any other does not, and in either case it has taken as
much of the front of `text` as it has room for. The same becomes of any writer with this room, however
much it takes in a call and into whatever pieces `text` is cut for it, and only the last call that is
made to it can have failed. Of the chunks that the output is made of, no one is offered behind the
first that does not fit. -/
theorem full_writer_takes_a_prefix (o : Outlet) :
    ∃ text, o.write none = .complete text ∧ ∀ room,
      let all := Text.bytes text
      let written := o.write (some room)
      let chunks := o.chunks.map Text.bytes
      let delivery := deliver room chunks
      (written.succeeded = true ↔ all.length ≤ room) ∧
      written.accepted = all.take (min room all.length) ∧
      (∀ (greed : Nat → Nat) (cut : List (List UInt8)), cut.flatten = all →
        let (device, through) := (Device.ofRoom room).send greed cut
        through = written.succeeded ∧ device.accepted = written.accepted ∧
          (device.Intact ↔ through = true) ∧
          ∀ c ∈ device.calls.dropLast, c.failed = false) ∧
      chunks.flatten = all ∧
      delivery.complete = written.succeeded ∧ delivery.accepted = written.accepted ∧
      (delivery.complete = true → delivery.offered = chunks.length) ∧
      (delivery.complete = false → ∃ before chunk rest, chunks = before ++ chunk :: rest ∧
        delivery.offered = before.length + 1 ∧
        before.flatten.length ≤ room ∧ room < (before ++ [chunk]).flatten.length) := by
  refine ⟨String.join o.chunks, o.write_eq none, ?_⟩
  intro room all written chunks delivery
  have hwritten : written = writeWhole (some room) (String.join o.chunks) := by
    rw [← write_eq_writeWhole]
    exact o.write_eq (some room)
  have hchunks : chunks.flatten = all := (Text.bytes_join o.chunks).symm
  have hsucceeded : written.succeeded = true ↔ all.length ≤ room := by
    rw [hwritten]
    exact succeeded_writeWhole_iff ..
  have haccepted : written.accepted = all.take room := by
    rw [hwritten]
    exact accepted_writeWhole ..
  have hcomplete : delivery.complete = true ↔ all.length ≤ room := by
    rw [← hchunks]
    exact complete_deliver_iff room chunks
  have hdelivered : delivery.accepted = all.take room := by
    rw [← hchunks]
    exact accepted_deliver room chunks
  refine ⟨hsucceeded, ?_, ?_, hchunks, ?_, ?_, offered_of_complete, exists_of_incomplete⟩
  · rw [haccepted, List.take_eq_take_min]
  · intro greed cut hcut
    have hsent := Device.sent_send greed (.ofRoom room) cut
    have hfresh : (Device.ofRoom room).Intact := fun c hc => nomatch hc
    rw [hcut] at hsent
    refine ⟨?_, ?_, hsent.intact_iff hfresh, hsent.last_failed hfresh⟩
    · rw [Bool.eq_iff_iff, hsucceeded]
      exact hsent.through_iff
    · rw [haccepted]
      exact hsent.accepted
  · rw [Bool.eq_iff_iff, hsucceeded]
    exact hcomplete
  · rw [haccepted]
    exact hdelivered

/-- A report whose plain output has a character of two bytes. -/
def accented : Report where
  records := [.ofKind (.undeclaredIdent "é") (.behind 0 0)]
  ordered := List.pairwise_singleton ..

def accentedText : String := "1.1: identifier `é` is undeclared\n"

/-- With room for 18 bytes, the writer has taken the first of the two bytes of a character. -/
theorem full_writer_takes_a_prefix_of_accented :
    let o : Outlet := .report accented
    let cut := (Text.bytes accentedText).map fun b => [b]
    o.write none = .complete accentedText ∧ cut.flatten = Text.bytes accentedText ∧
      (o.write (some 18)).succeeded = false ∧
      (o.write (some 18)).accepted = Text.bytes "1.1: identifier `" ++ [0xC3] ∧
      ((Device.ofRoom 18).send (fun _ => 4) cut).1.accepted =
        Text.bytes "1.1: identifier `" ++ [0xC3] := by
  intro o cut
  have htext : o.write none = .complete accentedText := by decide +kernel
  have hcut : cut.flatten = Text.bytes accentedText := by decide +kernel
  have hprefix : (Text.bytes accentedText).take 18 = Text.bytes "1.1: identifier `" ++ [0xC3] := by
    decide +kernel
  have hlong : ¬ (Text.bytes accentedText).length ≤ 18 := by decide +kernel
  obtain ⟨text, hwritten, hroom⟩ := full_writer_takes_a_prefix o
  obtain rfl : accentedText = text := Written.complete.inj (htext.symm.trans hwritten)
  obtain ⟨hsucceeded, haccepted, hsent, -⟩ := hroom 18
  obtain ⟨-, hdevice, -⟩ := hsent (fun _ => 4) cut hcut
  have hfront : (o.write (some 18)).accepted = _ :=
    haccepted.trans ((List.take_eq_take_min ..).symm.trans hprefix)
  exact ⟨htext, hcut, Bool.eq_false_iff.2 (mt hsucceeded.1 hlong), hfront, hdevice.trans hfront⟩

end SemanticDiagnostics
