import Mathlib.Data.List.Basic
import SemanticDiagnostics.Proofs.LineRanges

/-! # Lines in the text

A line of a text can be told without a table of lines: in front of it stand as many line feeds as its
index says, the last of them right before it; its own characters end in line feeds and carriage
returns, which are not counted to its text; and what follows begins behind its line feed. No other part
of the text is like this, and every line of a file is such a part of the source. -/
namespace SemanticDiagnostics

/-- A text cut at the bounds of one of its lines. -/
@[ext]
structure Line.Cut (cs : List Char) (index : Nat) where
  /-- The lines in front. -/
  front : List Char
  text : List Char
  /-- The terminators at the end of the line. -/
  ending : List Char
  /-- The lines behind. -/
  back : List Char
  whole : cs = front ++ (text ++ (ending ++ back))
  count_front : front.count '\n' = index
  front_ends : ∀ c ∈ front.getLast?, c = '\n'
  feed_not_mem_text : '\n' ∉ text
  text_stays : ∀ c ∈ text.getLast?, isTerminator c = false
  terminators : ∀ c ∈ ending, isTerminator c = true
  /-- A line feed is the last of the terminators, and only the last line is without one. -/
  ending_ends : (∃ returns, ending = returns ++ ['\n'] ∧ '\n' ∉ returns) ∨ '\n' ∉ ending ∧ back = []

namespace Line.Cut

variable {cs : List Char} {index : Nat} (cut : Line.Cut cs index)

/-- The offset at which the line starts. -/
def start : Nat := Text.byteLength cut.front

/-- The offset at which the text of the line ends. -/
def textEnd : Nat := cut.start + Text.byteLength cut.text

/-- The offset at which the line ends. -/
def past : Nat := cut.textEnd + Text.byteLength cut.ending

/-- Whether the offset lies on the line. To the last line belong all offsets behind it. -/
def Holds (offset : Nat) : Prop := cut.start ≤ offset ∧ ('\n' ∈ cut.ending → offset < cut.past)

theorem textEnd_le : cut.textEnd ≤ Text.byteLength cs := by
  have hwhole := congrArg Text.byteLength cut.whole
  simp only [Text.byteLength_append] at hwhole
  rw [textEnd, start]
  omega

end Line.Cut

/-! ## A line has one cut -/

/-- Two cuts of a list are one if neither front part goes on behind the other. -/
theorem eq_of_append_eq_append {α : Type} {as bs cs ds : List α} (h : as ++ bs = cs ++ ds)
    (hcs : ∀ more, cs = as ++ more → bs = more ++ ds → more = [])
    (has : ∀ more, as = cs ++ more → ds = more ++ bs → more = []) : as = cs ∧ bs = ds := by
  have hfront : as = cs := by
    rcases List.append_eq_append_iff.1 h with ⟨more, hmore, hrest⟩ | ⟨more, hmore, hrest⟩
    · rw [hmore, hcs more hmore hrest, List.append_nil]
    · rw [hmore, has more hmore hrest, List.append_nil]
  exact ⟨hfront, List.append_cancel_left (hfront ▸ h)⟩

/-- A text that ends in a line feed is longer than its front part by at least this line feed. -/
theorem eq_nil_of_count_feed {front more : List Char}
    (hcount : (front ++ more).count '\n' = front.count '\n')
    (hends : ∀ c ∈ (front ++ more).getLast?, c = '\n') : more = [] := by
  rcases List.eq_nil_or_concat' more with hmore | ⟨init, c, rfl⟩
  · exact hmore
  · have hc : c = '\n' := hends c (by simp)
    rw [List.count_append, Nat.add_eq_left, List.count_eq_zero] at hcount
    exact absurd (List.mem_append_right init (by simp [hc])) hcount

namespace Line.Cut

variable {cs more rest : List Char} {index : Nat} (a b : Line.Cut cs index)

theorem front_no_longer (h : b.front = a.front ++ more) : more = [] := by
  have hcount : (a.front ++ more).count '\n' = a.front.count '\n' := by
    rw [← h, a.count_front, b.count_front]
  exact eq_nil_of_count_feed hcount fun c hc => b.front_ends c (h ▸ hc)

/-- What stands behind the text is a terminator, up to the first line feed. -/
theorem prefix_ending (hfeed : '\n' ∉ more) (h : a.ending ++ a.back = more ++ rest) :
    more <+: a.ending := by
  rcases a.ending_ends with ⟨returns, hreturns, -⟩ | ⟨-, hback⟩
  · rcases List.append_eq_append_iff.1 h with ⟨gap, hmore, -⟩ | ⟨gap, hending, -⟩
    · exact absurd (by simp [hmore, hreturns]) hfeed
    · exact ⟨gap, hending.symm⟩
  · rw [hback, List.append_nil] at h
    exact ⟨rest, h.symm⟩

theorem text_no_longer (h : b.text = a.text ++ more)
    (hrest : a.ending ++ a.back = more ++ (b.ending ++ b.back)) : more = [] := by
  have hfeed : '\n' ∉ more := fun hmem => b.feed_not_mem_text (h ▸ List.mem_append_right _ hmem)
  have hending := a.prefix_ending hfeed hrest
  rcases List.eq_nil_or_concat' more with hmore | ⟨init, c, rfl⟩
  · exact hmore
  · have hstays : isTerminator c = false := b.text_stays c (by simp [h])
    have hends : isTerminator c = true := a.terminators c (hending.subset (by simp))
    exact Bool.noConfusion (hstays.symm.trans hends)

theorem ending_no_longer (h : b.ending = a.ending ++ more) (hrest : a.back = more ++ b.back) :
    more = [] := by
  rcases a.ending_ends with ⟨returns, hreturns, -⟩ | ⟨-, hback⟩
  · rcases List.eq_nil_or_concat' more with hmore | ⟨init, c, rfl⟩
    · exact hmore
    · have hfeed : '\n' ∈ a.ending ++ init := by simp [hreturns]
      rw [← List.append_assoc] at h
      rcases b.ending_ends with ⟨returns', hreturns', hnone⟩ | ⟨hnone, -⟩
      · rw [hreturns'] at h
        exact absurd ((List.append_inj' h rfl).1 ▸ hfeed) hnone
      · exact absurd (h ▸ List.mem_append_left [c] hfeed) hnone
  · rw [hback] at hrest
    exact (List.append_eq_nil_iff.1 hrest.symm).1

/-- Only one cut is at the bounds of a line, so what is said of a cut is said of the line. -/
instance : Subsingleton (Line.Cut cs index) where
  allEq a b := by
    obtain ⟨hfront, hrest⟩ := eq_of_append_eq_append (a.whole.symm.trans b.whole)
      (fun _ h _ => front_no_longer a b h) fun _ h _ => front_no_longer b a h
    obtain ⟨htext, hrest⟩ := eq_of_append_eq_append hrest
      (fun _ => text_no_longer a b) fun _ => text_no_longer b a
    obtain ⟨hending, hback⟩ := eq_of_append_eq_append hrest
      (fun _ => ending_no_longer a b) fun _ => ending_no_longer b a
    exact Line.Cut.ext hfront htext hending hback

end Line.Cut

/-! ## The lines of a file are cuts -/

namespace Position

theorem after_concat (p : Position) (cs : List Char) (c : Char) :
    p.after (cs ++ [c]) = (p.after cs).advance c := after_append p cs [c]

/-- Every line feed that is read leads to the next line. -/
theorem line_after (p : Position) (cs : List Char) :
    (p.after cs).line = p.line + cs.count '\n' := by
  induction cs generalizing p with
  | nil => rfl
  | cons c cs ih =>
    have hcons : (p.after (c :: cs)).line = ((p.advance c).after cs).line := rfl
    rw [hcons, ih, advance]
    by_cases hc : c = '\n'
    · rw [if_pos hc, hc, List.count_cons_self]
      show p.line + 1 + _ = _
      omega
    · rw [if_neg hc, List.count_cons_of_ne hc]

/-- Only a line feed leads to the start of a line. -/
theorem eq_feed_of_after_concat {p : Position} {cs : List Char} {c : Char} {index : Nat}
    (h : p.after (cs ++ [c]) = lineStart index) : c = '\n' := by
  rw [after_concat, advance] at h
  by_cases hc : c = '\n'
  · exact hc
  · rw [if_neg hc] at h
    have hcolumn : (p.after cs).column + 1 = 1 := congrArg column h
    have hreal := (p.after cs).one_le_column
    omega

end Position

namespace Line

/-- The terminators of a line end in its line feed, if it has one. -/
theorem terminators_ends {l : Line} {back : List Char}
    (h : '\n' ∉ l.chars ∧ back = [] ∨ ∃ body, '\n' ∉ body ∧ l.chars = body ++ ['\n']) :
    (∃ returns, l.terminators = returns ++ ['\n'] ∧ '\n' ∉ returns) ∨
      '\n' ∉ l.terminators ∧ back = [] := by
  rcases h with ⟨hfeed, hback⟩ | ⟨body, hbody, hchars⟩
  · exact .inr ⟨fun hmem => hfeed (Text.trailing_subset _ _ hmem), hback⟩
  · refine .inl ⟨Text.trailing isTerminator body, ?_, ?_⟩
    · rw [terminators, hchars, Text.trailing_concat rfl]
    · exact fun hmem => hbody (Text.trailing_subset _ _ hmem)

end Line

namespace SourceFile

variable {f : SourceFile} {index offset : Nat} {l : Line}

/-- An offset that is looked up to lie on a line with a line feed does not lie behind it. -/
theorem lt_end_of_lineIndex (hline : f.lines[index]? = some l) (hfeed : '\n' ∈ l.chars)
    (h : f.lineIndex offset = index) : offset < l.start + Text.byteLength l.chars := by
  have hindex := hline
  rw [f.lines_eq, List.getElem?_toArray] at hindex
  obtain ⟨-, -, -, -, -, ⟨hnone, -⟩ | ⟨-, next, -, -, hnext, hstart⟩⟩ :=
    Line.exists_of_getElem? hindex
  · exact absurd hfeed hnone
  · rw [← hstart]
    refine lt_start_of_lineIndex (f := f) ?_
    rw [h, f.lines_eq, List.getElem?_toArray]
    exact hnext

/-- The line with an index is a cut of the source, and what is looked up to lie on it does. -/
theorem exists_cut (hline : f.lines[index]? = some l) :
    ∃ cut : Line.Cut f.source.toList index,
      cut.start = l.start ∧ cut.text = l.text ∧
        cut.textEnd = l.start + Text.byteLength l.text ∧
        ∀ offset, f.lineIndex offset = index → cut.Holds offset := by
  have hindex := hline
  rw [f.lines_eq, List.getElem?_toArray] at hindex
  obtain ⟨front, back, hsource, hstart, hafter, hend⟩ := Line.exists_of_getElem? hindex
  rw [Nat.zero_add] at hstart
  have hfront : (Position.lineStart 0).after front = .lineStart index := by
    rw [hafter, Nat.zero_add]
  have hcount : front.count '\n' = index := by
    have hread := Position.line_after (.lineStart 0) front
    rw [hfront] at hread
    have hlines : index + 1 = 0 + 1 + front.count '\n' := hread
    omega
  have hends : ∀ c ∈ front.getLast?, c = '\n' := by
    intro c hc
    obtain ⟨cs, rfl⟩ := List.getLast?_eq_some_iff.1 hc
    exact Position.eq_feed_of_after_concat hfront
  have hwhole : f.source.toList = front ++ (l.text ++ (l.terminators ++ back)) := by
    rw [hsource, ← List.append_assoc l.text, l.text_append_terminators]
  -- The line is the last one or ends in its line feed; so do its terminators.
  have hterminators := Line.terminators_ends <| hend.imp_right
    fun ⟨body, _, hbody, hchars, _⟩ => ⟨body, hbody, hchars⟩
  let cut : Line.Cut f.source.toList index :=
    { front, back
      text := l.text
      ending := l.terminators
      whole := hwhole
      count_front := hcount
      front_ends := hends
      feed_not_mem_text := feed_not_mem_text hline
      text_stays := fun c hc => Text.getLast_dropTrailing hc
      terminators := fun c hc => Text.of_mem_trailing hc
      ending_ends := hterminators }
  have hcut : cut.start = l.start := hstart.symm
  have htextEnd : cut.textEnd = l.start + Text.byteLength l.text := by rw [Line.Cut.textEnd, hcut]
  refine ⟨cut, hcut, rfl, htextEnd, fun offset hoffset => ⟨?_, ?_⟩⟩
  · have hle := f.start_lineAt_le offset
    rw [lineAt_of_positionAt hline rfl (congrArg Nat.succ hoffset)] at hle
    rw [hcut]
    exact hle
  · intro hfeed
    have hlt := lt_end_of_lineIndex hline (Text.trailing_subset _ _ hfeed) hoffset
    rw [← l.text_append_terminators, Text.byteLength_append, hstart, ← Nat.add_assoc] at hlt
    exact hlt

end SourceFile

end SemanticDiagnostics
