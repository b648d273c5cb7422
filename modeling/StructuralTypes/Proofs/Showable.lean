import StructuralTypes.Report.Basic
import StructuralTypes.Tree.Access

/-!
Which places a report can show. Coordinates are taken from the tree as they are, so a place may have
coordinates that are no numbers, or numbers that count nothing. A place is named by its four
coordinates, each cut down to an integer; it is quoted by its line, which has to be counted, and
underlined by carets, which have to be counted too. Places of integers can be shown, unless the
carets are too many for any text.
-/

namespace StructuralTypes

namespace Numeral

/-- A number that an integer is left of when its fraction is cut off. -/
def Finite : Numeral → Prop
  | .whole _ => True
  | .real x => ∃ n, Decimal.truncate x = some n

/-- A number above zero and not above `count`. -/
def Counts (count : Nat) (row : Numeral) : Prop :=
  (whole 0).lt row ∧ ¬ (whole count).lt row

/-- A number of carets that can be drawn. One is drawn in any case. -/
def Drawable : Numeral → Prop
  | .whole n => n < lengthLimit
  | .real x => ¬ (whole 1).lt (.real x)

/-- The whole numbers up to the count are those of the lines. -/
theorem counts_whole_iff {α : Type} {lines : List α} {n : Int} :
    Counts lines.length (.whole n) ↔ 0 < n ∧ ∃ line, lines[n.toNat - 1]? = some line := by
  have hcounts : Counts lines.length (.whole n) ↔ 0 < n ∧ n ≤ lines.length := by
    simp [Counts, lt]
  have hline : (∃ line, lines[n.toNat - 1]? = some line) ↔ n.toNat - 1 < lines.length := by
    rw [← Option.isSome_iff_exists, isSome_getElem?]
  rw [hcounts, hline]
  omega

end Numeral

namespace Span

def coordinates (s : Span) : List Json :=
  [s.start.line, s.start.column, s.stop.line, s.stop.column]

def Writable (s : Span) : Prop :=
  ∀ c ∈ s.coordinates, ∃ n, Numeral.ofJson c = .ok n ∧ n.Finite

end Span

/-- A place that can be shown beside the lines of a source text, if there is one. -/
inductive Showable : Option (List (List Char)) → Option Span → Prop
  | absent {lines : Option (List (List Char))} : Showable lines none
  /-- Without a source text the place is named. -/
  | named {span : Span} (hwritable : span.Writable) : Showable none (some span)
  /-- It is named, too, if the text has no such line. -/
  | outside {lines : List (List Char)} {span : Span} {row : Numeral}
      (hrow : Numeral.ofJson span.start.line = .ok row) (houtside : ¬ row.Counts lines.length)
      (hwritable : span.Writable) : Showable (some lines) (some span)
  | quoted {lines : List (List Char)} {span : Span} {row column : Int} {line : List Char}
      {width : Numeral} (hrow : Numeral.ofJson span.start.line = .ok (.whole row))
      (hpos : 0 < row) (hline : lines[row.toNat - 1]? = some line)
      (hcolumn : Numeral.ofJson span.start.column = .ok (.whole column))
      (hwidth : span.widthOnFirstLine = .ok width)
      (hcarets : (fitted width (line.length - column)).Drawable) :
      Showable (some lines) (some span)

/-! ### Coordinates and carets -/

theorem wholeCoordinate_eq_ok_iff {c : Json} {n : Int} :
    wholeCoordinate c = .ok n ↔ Numeral.ofJson c = .ok (.whole n) := by
  rw [wholeCoordinate, bind_eq_ok_iff]
  constructor
  · rintro ⟨m | x, hc, h⟩
    · cases h
      exact hc
    · cases h
  · intro hc
    exact ⟨.whole n, hc, rfl⟩

theorem exists_showCoordinate_iff {c : Json} :
    (∃ text, Position.showCoordinate c = .ok text) ↔
      ∃ n, Numeral.ofJson c = .ok n ∧ n.Finite := by
  simp only [Position.showCoordinate, bind_eq_ok_iff]
  constructor
  · rintro ⟨text, m | x, hc, h⟩
    · exact ⟨_, hc, trivial⟩
    · cases hx : Decimal.truncate x with
      | some n => exact ⟨_, hc, n, hx⟩
      | none =>
          simp only [hx] at h
          cases h
  · rintro ⟨m | x, hc, hfinite⟩
    · exact ⟨_, _, hc, rfl⟩
    · obtain ⟨n, hx⟩ := hfinite
      refine ⟨toString n, _, hc, ?_⟩
      simp only [hx]
      rfl

theorem Span.exists_render_iff {s : Span} : (∃ text, s.render = .ok text) ↔ s.Writable := by
  simp only [Writable, coordinates, List.forall_mem_cons, List.not_mem_nil, false_imp_iff,
    implies_true, and_true, ← exists_showCoordinate_iff, Span.render, Position.render,
    bind_eq_ok_iff]
  constructor
  · rintro ⟨-, -, ⟨line, hline, column, hcolumn, -⟩, -, ⟨line', hline', column', hcolumn', -⟩, -⟩
    exact ⟨⟨line, hline⟩, ⟨column, hcolumn⟩, ⟨line', hline'⟩, ⟨column', hcolumn'⟩⟩
  · rintro ⟨⟨line, hline⟩, ⟨column, hcolumn⟩, ⟨line', hline'⟩, ⟨column', hcolumn'⟩⟩
    exact ⟨_, _, ⟨line, hline, column, hcolumn, rfl⟩, _,
      ⟨line', hline', column', hcolumn', rfl⟩, rfl⟩

theorem exists_caretCount_iff {width : Numeral} {room : Int} :
    (∃ n, caretCount width room = .ok n) ↔ (fitted width room).Drawable := by
  rw [caretCount]
  cases fitted width room with
  | whole n =>
      have hlimit : (1 : Int) < lengthLimit := by decide
      by_cases hn : n < lengthLimit
      · by_cases hone : 1 < n
        · simp [Numeral.Drawable, Numeral.lt, hn, hone]
        · simp [Numeral.Drawable, Numeral.lt, hn, hone]
      · have hone : 1 < n := by omega
        simp [Numeral.Drawable, Numeral.lt, hn, hone]
  | real x =>
      by_cases hone : (Numeral.whole 1).lt (.real x)
      · simp [Numeral.Drawable, hone]
      · simp [Numeral.Drawable, hone]

theorem exists_illustration_iff {row column : Int} {line : List Char} {width : Numeral}
    {caption : String} :
    (∃ text, illustration row line column width caption = .ok text) ↔
      (fitted width (line.length - column)).Drawable := by
  rw [← exists_caretCount_iff]
  simp only [illustration, bind_eq_ok_iff]
  constructor
  · rintro ⟨-, n, hn, -⟩
    exact ⟨n, hn⟩
  · rintro ⟨n, hn⟩
    exact ⟨_, n, hn, rfl⟩

/-! ### Callouts -/

namespace Callout

variable {caption : String} {lines : Option (List (List Char))}

theorem exists_named_iff {span : Span} :
    (∃ text, named ⟨some span, caption, lines⟩ = .ok text) ↔ span.Writable := by
  rw [← Span.exists_render_iff]
  simp only [named, Span.describe, bind_eq_ok_iff]
  constructor
  · rintro ⟨-, place, hplace, -⟩
    exact ⟨place, hplace⟩
  · rintro ⟨place, hplace⟩
    exact ⟨_, place, hplace, rfl⟩

theorem showable_of_illustrate {span : Option Span} {text : String}
    (h : illustrate ⟨span, caption, lines⟩ = .ok text) : Showable lines span := by
  rcases span with - | span
  · exact .absent
  rcases lines with - | lines
  · exact .named (exists_named_iff.mp ⟨text, h⟩)
  obtain ⟨row, hrow, h⟩ := bind_eq_ok_iff.mp h
  split at h
  · next hcounts =>
      obtain ⟨n, hn, h⟩ := bind_eq_ok_iff.mp h
      rw [wholeCoordinate_eq_ok_iff] at hn
      cases hrow.symm.trans hn
      obtain ⟨hpos, line, hline⟩ : 0 < n ∧ ∃ line, lines[n.toNat - 1]? = some line := by
        rw [← Numeral.counts_whole_iff]
        simpa [Numeral.Counts] using hcounts
      simp only [hline, bind_eq_ok_iff] at h
      obtain ⟨width, hwidth, column, hcolumn, h⟩ := h
      rw [wholeCoordinate_eq_ok_iff] at hcolumn
      exact .quoted hn hpos hline hcolumn hwidth (exists_illustration_iff.mp ⟨text, h⟩)
  · next houtside =>
      refine .outside hrow ?_ (exists_named_iff.mp ⟨text, h⟩)
      simpa [Numeral.Counts] using houtside

theorem exists_illustrate_of_showable {span : Option Span} (caption : String)
    (h : Showable lines span) : ∃ text, illustrate ⟨span, caption, lines⟩ = .ok text := by
  cases h with
  | absent => exact ⟨_, rfl⟩
  | named hwritable => exact exists_named_iff.mpr hwritable
  | @outside lines span row hrow houtside hwritable =>
      obtain ⟨text, htext⟩ := exists_named_iff.mpr hwritable
      refine ⟨text, bind_eq_ok_iff.mpr ⟨row, hrow, ?_⟩⟩
      rw [if_neg]
      · exact htext
      · simpa [Numeral.Counts] using houtside
  | @quoted lines span row column line width hrow hpos hline hcolumn hwidth hcarets =>
      have hcounts : (Numeral.whole row).Counts lines.length :=
        Numeral.counts_whole_iff.mpr ⟨hpos, line, hline⟩
      obtain ⟨text, htext⟩ := exists_illustration_iff.mpr hcarets
      refine ⟨text, bind_eq_ok_iff.mpr ⟨.whole row, hrow, ?_⟩⟩
      rw [if_pos]
      · refine bind_eq_ok_iff.mpr ⟨row, wholeCoordinate_eq_ok_iff.mpr hrow, ?_⟩
        simp only [hline, bind_eq_ok_iff]
        exact ⟨width, hwidth, column, wholeCoordinate_eq_ok_iff.mpr hcolumn, htext⟩
      · simpa [Numeral.Counts] using hcounts

end Callout

/-- An issue with one callout shows the place under its introduction. -/
theorem Issue.text_ok (intro : String) {c : Callout} {place : String}
    (h : c.illustrate = .ok place) :
    Issue.text ⟨intro, [c], []⟩ = .ok (intro ++ "\n" ++ place) := by
  simp [Issue.text, h, bind, Except.bind, pure, Except.pure]

theorem Issue.text_error (intro : String) {c : Callout} {reason : Unshowable}
    (h : c.illustrate = .error reason) : Issue.text ⟨intro, [c], []⟩ = .error reason := by
  simp [Issue.text, h, bind, Except.bind]

/-! ### Places of integers -/

/-- A place as it should be, with integers for coordinates. It is no wider than a text can be. -/
inductive Span.Ordinary : Option Span → Prop
  | absent : Ordinary none
  | integers {line column line' column' : Int} (hwidth : column' - column < lengthLimit) :
      Ordinary (some ⟨⟨.int line, .int column⟩, ⟨.int line', .int column'⟩⟩)

/-- Between integers the width is the distance of the columns, or one across lines. -/
theorem Span.widthOnFirstLine_integers (line column line' column' : Int) :
    Span.widthOnFirstLine ⟨⟨.int line, .int column⟩, ⟨.int line', .int column'⟩⟩ =
      .ok (.whole (if line = line' then max 1 (column' - column) else 1)) := by
  by_cases hline : line = line'
  · subst hline
    by_cases hwidth : column' - column < 1
    · have hmax : max 1 (column' - column) = 1 := by omega
      simp [widthOnFirstLine, sameCoordinate, Numeral.ofJson, Numeral.same, Numeral.sub, Numeral.lt,
        hwidth, hmax, bind, Except.bind, pure, Except.pure]
    · have hmax : max 1 (column' - column) = column' - column := by omega
      simp [widthOnFirstLine, sameCoordinate, Numeral.ofJson, Numeral.same, Numeral.sub, Numeral.lt,
        hwidth, hmax, bind, Except.bind, pure, Except.pure]
  · simp [widthOnFirstLine, sameCoordinate, Numeral.ofJson, Numeral.same, hline]

theorem drawable_fitted {width room : Int} (h : width < lengthLimit) :
    (fitted (.whole width) room).Drawable := by
  by_cases hroom : room < width
  · have hlimit : room < lengthLimit := by omega
    simpa [fitted, Numeral.lt, hroom, Numeral.Drawable] using hlimit
  · simpa [fitted, Numeral.lt, hroom, Numeral.Drawable] using h

theorem Span.Ordinary.showable {span : Option Span} (h : Ordinary span)
    (lines : Option (List (List Char))) : Showable lines span := by
  cases h with
  | absent => exact .absent
  | @integers line column line' column' hwidth =>
      have hwritable :
          Span.Writable ⟨⟨.int line, .int column⟩, ⟨.int line', .int column'⟩⟩ := by
        simp [Writable, coordinates, Numeral.ofJson, Numeral.Finite]
      rcases lines with - | lines
      · exact .named hwritable
      by_cases hcounts : (Numeral.whole line).Counts lines.length
      · obtain ⟨hpos, text, htext⟩ := Numeral.counts_whole_iff.mp hcounts
        have hlimit : (if line = line' then max 1 (column' - column) else 1) < lengthLimit := by
          have hone : (1 : Int) < lengthLimit := by decide
          split
          · exact Int.max_lt.mpr ⟨hone, hwidth⟩
          · exact hone
        exact .quoted rfl hpos htext rfl (widthOnFirstLine_integers line column line' column')
          (drawable_fitted hlimit)
      · exact .outside rfl hcounts hwritable

end StructuralTypes
