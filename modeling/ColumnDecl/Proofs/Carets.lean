import ColumnDecl.Diagnostic.Render

/-
Where the markers of a drawn diagnostic stand.

A label is drawn on the line of the declaration that holds its start: a locator with the line's number and the start's
column, the line with its tabs expanded behind a gutter that holds the line number, and a row of markers behind a bar.
The markers start as far into their row as the expanded text before the start reaches into the line, so they stand
under the label's text exactly when the gutter and the bar are equally wide: when the line number prints in at most
four digits.

- `LinePlace.locate_lineOf`: the line that the drawing finds is the line of the text that holds the offset, between
  line feeds or the ends of the text;
- `Text.expandTabsFrom_append`: expanding the tabs of a line is expanding those of a prefix, then those of the rest
  from the column the prefix reaches;
- `Label.draw_plain`: the rows that draw a label, read off its line;
- `Label.draw_markers_under_start`: for every label of a diagnostic within the declaration, the locator, the source
  row and the marker row, and the markers stand under the label's start exactly when the line number has at most four
  digits;
- `markers_shift_on_line_10000`: on line 10000 the markers stand one column left of the label's text.
-/

namespace ColumnDecl

namespace Text

/-! ## The offsets of a character -/

/-- The offsets that `lastBefore` compares, counted from `k`, for a list that starts with `x`. -/
theorem lastOccurrence_cons (c x : Char) (L : List Char) (k : Nat) :
    (((x :: L).zipIdx k).filter (·.1 == c)).getLast?.map (·.2) =
      ((((L.zipIdx (k + 1)).filter (·.1 == c)).getLast?.map (·.2)).or (if x = c then some k else none)) := by
  rw [List.zipIdx_cons, ← List.singleton_append, List.filter_append, List.getLast?_append]
  by_cases hx : x = c
  · cases ((L.zipIdx (k + 1)).filter (·.1 == c)).getLast? <;> simp [hx]
  · cases ((L.zipIdx (k + 1)).filter (·.1 == c)).getLast? <;> simp [hx]

/-- The last occurrence of `c` in `L`, with offsets counted from `k`: none when `c` does not occur, and otherwise an
offset of `c` after which `c` does not occur again. -/
theorem lastOccurrence_spec (c : Char) (L : List Char) (k : Nat) :
    ((((L.zipIdx k).filter (·.1 == c)).getLast?.map (·.2)) = none → c ∉ L) ∧
      ∀ i, (((L.zipIdx k).filter (·.1 == c)).getLast?.map (·.2)) = some i →
        k ≤ i ∧ L[i - k]? = some c ∧ c ∉ L.drop (i - k + 1) := by
  induction L generalizing k with
  | nil => simp
  | cons x L ih =>
    rw [lastOccurrence_cons]
    obtain ⟨ih_none, ih_some⟩ := ih (k + 1)
    cases hL : (((L.zipIdx (k + 1)).filter (·.1 == c)).getLast?.map (·.2)) with
    | some j =>
      -- an occurrence in the tail is the last one
      obtain ⟨hk, hj, hafter⟩ := ih_some j hL
      refine ⟨by simp, fun i hi => ?_⟩
      simp only [Option.some_or, Option.some.injEq] at hi
      subst hi
      have e : j - k = (j - (k + 1)) + 1 := by omega
      refine ⟨by omega, by rw [e]; exact hj, ?_⟩
      rw [e, List.drop_succ_cons]
      exact hafter
    | none =>
      -- no occurrence in the tail: the head is the last one, or there is none
      have hnot := ih_none hL
      by_cases hx : x = c
      · subst hx
        refine ⟨by simp, fun i hi => ?_⟩
        simp only [Option.none_or, if_pos, Option.some.injEq] at hi
        subst hi
        simpa using hnot
      · refine ⟨fun _ => ?_, fun i hi => by simp [hx] at hi⟩
        simp only [List.mem_cons, not_or]
        exact ⟨fun e => hx e.symm, hnot⟩

/-- No `c` stands before `k` when `lastBefore` finds none. -/
theorem lastBefore_eq_none {c : Char} {cs : List Char} {k : Nat} (h : lastBefore c cs k = none) : c ∉ cs.take k :=
  (lastOccurrence_spec c (cs.take k) 0).1 h

/-- The `c` that `lastBefore` finds stands before `k`, and no `c` stands between it and `k`. -/
theorem lastBefore_eq_some {c : Char} {cs : List Char} {k i : Nat} (h : lastBefore c cs k = some i) :
    i < k ∧ cs[i]? = some c ∧ c ∉ between cs (i + 1) k := by
  obtain ⟨-, hi, hafter⟩ := (lastOccurrence_spec c (cs.take k) 0).2 i h
  simp only [Nat.sub_zero] at hi hafter
  have hik : i < k := by
    have := (List.getElem?_eq_some_iff.1 hi).1
    simp at this
    omega
  refine ⟨hik, by rw [List.getElem?_take_of_lt hik] at hi; exact hi, ?_⟩
  rw [between, List.drop_take] at *
  exact hafter

/-- No `c` stands from `k` on when `firstFrom` finds none. -/
theorem firstFrom_eq_none {c : Char} {cs : List Char} {k : Nat} (h : firstFrom c cs k = none) : c ∉ cs.drop k := by
  simp only [firstFrom, Option.map_eq_none_iff, List.findIdx?_eq_none_iff] at h
  intro hc
  simpa using h c hc

/-- The `c` that `firstFrom` finds stands at or after `k`, and no `c` stands between `k` and it. -/
theorem firstFrom_eq_some {c : Char} {cs : List Char} {k i : Nat} (h : firstFrom c cs k = some i) :
    k ≤ i ∧ cs[i]? = some c ∧ c ∉ between cs k i := by
  simp only [firstFrom, Option.map_eq_some_iff] at h
  obtain ⟨j, hj, rfl⟩ := h
  obtain ⟨hlt, hc, hbefore⟩ := List.findIdx?_eq_some_iff_getElem.1 hj
  refine ⟨by omega, ?_, ?_⟩
  · have : (cs.drop k)[j]? = cs[k + j]? := List.getElem?_drop
    simp only [List.getElem?_eq_getElem hlt] at this
    rw [Nat.add_comm, ← this]
    simpa using hc
  · rw [between, Nat.add_sub_cancel]
    intro hm
    obtain ⟨m, hm, hmc⟩ := List.getElem_of_mem hm
    simp only [List.length_take] at hm
    have := hbefore m (by omega)
    simp only [List.getElem_take] at hmc
    simp [hmc] at this

/-- The characters between `a` and `c` are those between `a` and `b`, then those between `b` and `c`. -/
theorem between_append {cs : List Char} {a b c : Nat} (hab : a ≤ b) (hbc : b ≤ c) :
    between cs a c = between cs a b ++ between cs b c := by
  simp only [between]
  rw [show c - a = (b - a) + (c - b) by omega, List.take_add, List.drop_drop, Nat.add_sub_cancel' hab]

theorem mem_between {cs : List Char} {a b i : Nat} (ha : a ≤ i) (hb : i < b) (hi : i < cs.length) :
    cs[i] ∈ between cs a b := by
  have h : (between cs a b)[i - a]? = some cs[i] := by
    rw [between, List.getElem?_take_of_lt (by omega), List.getElem?_drop, Nat.add_sub_cancel' ha,
      List.getElem?_eq_getElem hi]
  exact List.mem_of_getElem? h

end Text

/-! ## The line of an offset -/

/-- `[start, stop)` is the line of `cs` that holds offset `k`: no line feed stands in it, and each of its ends is an
end of the text or a line feed. An offset at a line feed belongs to the line that the feed ends. -/
structure LineOf (cs : List Char) (k start stop : Nat) : Prop where
  start_le : start ≤ k
  le_stop : k ≤ stop
  stop_le : stop ≤ cs.length
  no_feed : '\n' ∉ Text.between cs start stop
  after_feed : start = 0 ∨ cs[start - 1]? = some '\n'
  before_feed : stop = cs.length ∨ cs[stop]? = some '\n'

/-- The line that the drawing finds for an offset within the text is the line that holds it. -/
theorem LinePlace.locate_lineOf {cs : List Char} {k : Nat} (hk : k ≤ cs.length) :
    LineOf cs k (LinePlace.locate cs k).start (LinePlace.locate cs k).stop := by
  -- the line starts after the last line feed before `k` and ends at the first one from `k`
  have hstart : (LinePlace.locate cs k).start ≤ k ∧ '\n' ∉ Text.between cs (LinePlace.locate cs k).start k ∧
      ((LinePlace.locate cs k).start = 0 ∨ cs[(LinePlace.locate cs k).start - 1]? = some '\n') := by
    simp only [LinePlace.locate]
    cases h : Text.lastBefore '\n' cs k with
    | none =>
      refine ⟨Nat.zero_le k, ?_, .inl rfl⟩
      simpa [Text.between] using Text.lastBefore_eq_none h
    | some i =>
      obtain ⟨hik, hi, hafter⟩ := Text.lastBefore_eq_some h
      exact ⟨hik, hafter, .inr (by simpa using hi)⟩
  have hstop : k ≤ (LinePlace.locate cs k).stop ∧ (LinePlace.locate cs k).stop ≤ cs.length ∧
      '\n' ∉ Text.between cs k (LinePlace.locate cs k).stop ∧
      ((LinePlace.locate cs k).stop = cs.length ∨ cs[(LinePlace.locate cs k).stop]? = some '\n') := by
    simp only [LinePlace.locate]
    cases h : Text.firstFrom '\n' cs k with
    | none =>
      refine ⟨hk, Nat.le_refl _, ?_, .inl rfl⟩
      have := Text.firstFrom_eq_none h
      simp only [Text.between]
      exact fun hm => this (List.mem_of_mem_take hm)
    | some j =>
      obtain ⟨hkj, hj, hbefore⟩ := Text.firstFrom_eq_some h
      have hjl : j < cs.length := (List.getElem?_eq_some_iff.1 hj).1
      exact ⟨hkj, Nat.le_of_lt hjl, hbefore, .inr hj⟩
  obtain ⟨h1, h2, h3⟩ := hstart
  obtain ⟨h4, h5, h6, h7⟩ := hstop
  refine ⟨h1, h4, h5, ?_, h3, h7⟩
  rw [Text.between_append h1 h4, List.mem_append, not_or]
  exact ⟨h2, h6⟩

/-! ## Expanding the tabs of a line in two parts -/

namespace Text

/-- The column that expanding the tabs of `cs` from column `col` reaches. -/
def columnAfter (col : Nat) : List Char → Nat
  | [] => col
  | c :: r =>
    if c = '\t' then columnAfter (col + (tabWidth - col % tabWidth)) r
    else if c = '\n' ∨ c = '\r' then columnAfter 0 r
    else columnAfter (col + 1) r

/-- Expanding the tabs of `a ++ b` expands those of `a`, then those of `b` from the column that `a` reaches. -/
theorem expandTabsFrom_append (col : Nat) (a b : List Char) :
    expandTabsFrom col (a ++ b) = expandTabsFrom col a ++ expandTabsFrom (columnAfter col a) b := by
  induction a generalizing col with
  | nil => rfl
  | cons c r ih =>
    by_cases ht : c = '\t'
    · simp [expandTabsFrom, columnAfter, ht, ih]
    · by_cases hn : c = '\n' ∨ c = '\r'
      · simp [expandTabsFrom, columnAfter, ht, hn, ih]
      · simp [expandTabsFrom, columnAfter, ht, hn, ih]

end Text

/-! ## The rows that draw a label -/

/-- The character that marks a label's text: `^` under the primary label, `-` under a secondary one. -/
def LabelStyle.marker : LabelStyle → Char
  | .primary => '^'
  | .secondary => '-'

theorem toList_padLeft (w : Nat) (s : String) :
    (padLeft w s).toList = List.replicate (w - s.length) ' ' ++ s.toList := by
  simp [padLeft]

theorem LinePlace.locate_number (cs : List Char) (k : Nat) :
    (LinePlace.locate cs k).number = (cs.take k).count '\n' + 1 := rfl

/-- Up to `b`, a line that starts at `a` and goes on to `c` shows as wide as the expanded text from `a` to `b`. -/
theorem shownWidth_between {cs : List Char} {a b c : Nat} (hab : a ≤ b) (hbc : b ≤ c) :
    shownWidth (Text.between cs a c) ((b : Int) - a) = (Text.expandTabs (Text.between cs a b)).length := by
  rw [show (b : Int) - a = ((b - a : Nat) : Int) by omega, shownWidth, Text.prefixTo_of_nonneg]
  simp only [Text.between, List.take_take]
  rw [Nat.min_eq_left (by omega)]

/-- The rows that draw a label without colour, for a start `k` and an end `e` within the text, on the line from `ls`
to `le`: the locator with the line number and the column, the bar, the expanded line behind a gutter four digits
wide, and the markers, as many as the line shows between `k` and the label's end on it, at least one, behind the bar
and as many blanks as the line shows before `k`; then the message, if there is one, as far in as the markers. -/
theorem Label.draw_plain {cs : List Char} {l : Label} {k e ls le : Nat} (hk : l.span.start = k)
    (he : l.span.stop = e) (hke : k ≤ e) (hel : e ≤ cs.length) (hls : (LinePlace.locate cs k).start = ls)
    (hle : (LinePlace.locate cs k).stop = le) :
    Label.draw Palette.plain cs l =
      ["  --> <input>:" ++ toString ((cs.take k).count '\n' + 1) ++ ":" ++ toString (k - ls + 1), "       |",
        "  " ++ padLeft 4 (toString ((cs.take k).count '\n' + 1)) ++ " | " ++
          String.ofList (Text.expandTabs (Text.between cs ls le)),
        "       | " ++ String.ofList
          (List.replicate (Text.expandTabs (Text.between cs ls k)).length ' ' ++
            List.replicate (max 1 ((Text.expandTabs (Text.between cs ls (min e le))).length -
              (Text.expandTabs (Text.between cs ls k)).length)) l.style.marker)] ++
      (if l.message.isEmpty then [] else
        ["       | " ++ String.ofList (List.replicate (Text.expandTabs (Text.between cs ls k)).length ' ') ++
          l.message]) := by
  have hline := @LinePlace.locate_lineOf cs k (by omega)
  rw [hls, hle] at hline
  have hres : Text.resolveIndex cs.length l.span.start = k := by
    rw [hk, Text.resolveIndex, if_neg (by omega), Int.toNat_natCast]
    omega
  -- the widths of the line before the start and before the end, and the column of the start
  have hpad : shownWidth (Text.between cs ls le) (l.span.start - ls) =
      (Text.expandTabs (Text.between cs ls k)).length := by
    rw [hk]
    exact shownWidth_between hline.start_le hline.le_stop
  have hstop : shownWidth (Text.between cs ls le) (min l.span.stop le - ls) =
      (Text.expandTabs (Text.between cs ls (min e le))).length := by
    rw [he, show min (e : Int) (le : Int) = ((min e le : Nat) : Int) by omega]
    exact shownWidth_between (by have := hline.start_le; have := hline.le_stop; omega) (Nat.min_le_right e le)
  have hcol : toString (l.span.start - (ls : Int) + 1) = toString (k - ls + 1) := by
    have := hline.start_le
    rw [show l.span.start - (ls : Int) + 1 = ((k - ls + 1 : Nat) : Int) by omega]
    rfl
  have hmarkers : (max 1 (((Text.expandTabs (Text.between cs ls (min e le))).length : Int) -
      (Text.expandTabs (Text.between cs ls k)).length)).toNat =
      max 1 ((Text.expandTabs (Text.between cs ls (min e le))).length -
        (Text.expandTabs (Text.between cs ls k)).length) := by
    omega
  simp only [Label.draw, hres, hls, hle, LinePlace.locate_number, hpad, hstop, hcol, hmarkers]
  simp [Palette.plain, String.append_assoc]
  -- the marker that the style picks
  cases l.style <;> rfl

/-! ## Where the markers stand -/

/-- The marker row: the first marker follows the bar and the blanks, when no marker stands among them. -/
theorem findIdx_markers {B : List Char} {P m : Nat} {x : Char} (hB : x ∉ B) (hx : x ≠ ' ') (hm : 0 < m) :
    (B ++ List.replicate P ' ' ++ List.replicate m x).findIdx (· == x) = B.length + P := by
  have hnone : (B ++ List.replicate P ' ').findIdx (· == x) = (B ++ List.replicate P ' ').length := by
    rw [List.findIdx_eq_length]
    intro y hy
    rcases List.mem_append.1 hy with hy | hy
    · have hyx : y ≠ x := fun e => hB (e ▸ hy)
      simpa using hyx
    · rw [List.eq_of_mem_replicate hy]
      simpa using fun e => hx e.symm
  obtain ⟨m', rfl⟩ : ∃ m', m = m' + 1 := ⟨m - 1, by omega⟩
  rw [List.findIdx_append, hnone, if_neg (Nat.lt_irrefl _), List.replicate_succ, List.findIdx_cons]
  simp

/-- A row that holds a gutter, then an expanded prefix and the expanded rest of a line: dropping `n` characters and
the prefix leaves the rest exactly when the gutter is `n` wide. -/
theorem drop_gutter_iff {G X Y : List Char} {n : Nat} (hn : n ≤ G.length) :
    (G ++ X ++ Y).drop (n + X.length) = Y ↔ G.length = n := by
  constructor
  · intro h
    have hl := congrArg List.length h
    simp only [List.length_drop, List.length_append] at hl
    omega
  · intro h
    rw [← h]
    exact List.drop_left' (by simp)

/-- Each label's rows stand together in the drawing of its diagnostic. -/
theorem Label.draw_infix (p : Palette) {d : Diagnostic} {decl : String} {l : Label} (hl : l ∈ d.labels) :
    Label.draw p decl.toList l <:+: d.draw p decl := by
  have h : Label.draw p decl.toList l <:+: d.labels.flatMap (Label.draw p decl.toList) := by
    rw [List.flatMap_def]
    exact List.infix_of_mem_flatten (List.mem_map_of_mem hl)
  simp only [Diagnostic.draw]
  exact List.infix_cons (h.trans (List.prefix_append _ _).isInfix)

/-- The first marker of a marker row stands after the bar, a blank and the blanks before the label's start. -/
theorem findIdx_marker_row (st : LabelStyle) (P m : Nat) (hm : 0 < m) :
    ("       | " ++ String.ofList (List.replicate P ' ' ++ List.replicate m st.marker)).toList.findIdx
      (· == st.marker) = 9 + P := by
  simp only [String.toList_append, String.toList_ofList]
  rw [← List.append_assoc]
  exact findIdx_markers (by cases st <;> decide) (by cases st <;> decide) hm

/-- The source row: its gutter, then the line expanded before the label's start, then the line expanded from the start
on. -/
theorem toList_source_row (g : String) {cs : List Char} {ls k le : Nat} (hls : ls ≤ k) (hle : k ≤ le) :
    (g ++ String.ofList (Text.expandTabs (Text.between cs ls le))).toList =
      g.toList ++ Text.expandTabs (Text.between cs ls k) ++
        Text.expandTabsFrom (Text.columnAfter 0 (Text.between cs ls k)) (Text.between cs k le) := by
  rw [String.toList_append, String.toList_ofList, Text.expandTabs, Text.between_append hls hle,
    Text.expandTabsFrom_append, List.append_assoc]
  rfl

/-- The gutter of a source row: two blanks, the line number right-aligned in four columns, then a blank, a bar and a
blank. -/
theorem length_gutter (s : String) : ("  " ++ padLeft 4 s ++ " | ").toList.length = 5 + max 4 s.length := by
  simp only [String.toList_append, List.length_append, toList_padLeft, List.length_replicate, String.length_toList]
  rw [show "  ".length = 2 from rfl, show " | ".length = 3 from rfl]
  omega

/-- The gutter of a source row is as wide as the bar exactly when the line number has at most four digits. -/
theorem length_gutter_iff (s : String) : ("  " ++ padLeft 4 s ++ " | ").toList.length = 9 ↔ s.length ≤ 4 := by
  rw [length_gutter]
  omega

/-- The drawing of a diagnostic without colour, for each label whose span lies within the declaration: the locator
names the line of the label's start, counted from one by the line feeds before it, and the start's column on that
line; the source row shows that line, tabs expanded, behind a gutter that holds its number; the marker row holds as
many markers as the line shows between the start and the label's end on it, at least one, behind the bar and as many
blanks as the line shows before the start. From the first marker on, the source row shows the line from the label's
start on, exactly when the line number prints in at most four digits: only then do the markers stand under the
label's text. -/
theorem Label.draw_markers_under_start (d : Diagnostic) (decl : String) (l : Label) (hl : l ∈ d.labels)
    (h0 : 0 ≤ l.span.start) (h1 : l.span.start ≤ l.span.stop) (h2 : l.span.stop ≤ decl.length) :
    ∃ k e ls le : Nat, l.span.start = k ∧ l.span.stop = e ∧ LineOf decl.toList k ls le ∧
      ∃ src car rest,
        Label.draw Palette.plain decl.toList l =
          ("  --> <input>:" ++ toString ((decl.toList.take k).count '\n' + 1) ++ ":" ++ toString (k - ls + 1)) ::
            "       |" :: src :: car :: rest ∧
        Label.draw Palette.plain decl.toList l <:+: d.draw Palette.plain decl ∧
        src.toList = ("  " ++ padLeft 4 (toString ((decl.toList.take k).count '\n' + 1)) ++ " | ").toList ++
          Text.expandTabs (Text.between decl.toList ls le) ∧
        car.toList = "       | ".toList ++
          List.replicate (Text.expandTabs (Text.between decl.toList ls k)).length ' ' ++
          List.replicate (max 1 ((Text.expandTabs (Text.between decl.toList ls (min e le))).length -
            (Text.expandTabs (Text.between decl.toList ls k)).length)) l.style.marker ∧
        (src.toList.drop (car.toList.findIdx (· == l.style.marker)) =
            Text.expandTabsFrom (Text.columnAfter 0 (Text.between decl.toList ls k)) (Text.between decl.toList k le) ↔
          (toString ((decl.toList.take k).count '\n' + 1)).length ≤ 4) := by
  obtain ⟨k, hk⟩ : ∃ k : Nat, l.span.start = k := ⟨l.span.start.toNat, by omega⟩
  obtain ⟨e, he⟩ : ∃ e : Nat, l.span.stop = e := ⟨l.span.stop.toNat, by omega⟩
  have hke : k ≤ e := by omega
  have hel : e ≤ decl.toList.length := by simp only [String.length_toList]; omega
  obtain ⟨ls, hls⟩ : ∃ ls, (LinePlace.locate decl.toList k).start = ls := ⟨_, rfl⟩
  obtain ⟨le, hle⟩ : ∃ le, (LinePlace.locate decl.toList k).stop = le := ⟨_, rfl⟩
  have hline := @LinePlace.locate_lineOf decl.toList k (by omega)
  rw [hls, hle] at hline
  refine ⟨k, e, ls, le, hk, he, hline, _, _, _, Label.draw_plain hk he hke hel hls hle, Label.draw_infix _ hl,
    by simp, by simp, ?_⟩
  -- the first marker stands nine characters and the blanks before the start into its row; the text from the start
  -- stands as far into the source row as the gutter and the expanded text before the start reach
  rw [findIdx_marker_row _ _ _ (by omega), toList_source_row _ hline.start_le hline.le_stop,
    drop_gutter_iff (by rw [length_gutter]; omega), length_gutter_iff]

/-- A label after a tab, on the second line. -/
theorem markers_under_label_after_tab :
    let d : Diagnostic := ⟨"E105", "expected a type name", [⟨⟨4, 5⟩, "", .primary⟩], []⟩
    let l : Label := ⟨⟨4, 5⟩, "", .primary⟩
    let decl := "a,\n\t>"
    (l ∈ d.labels ∧ 0 ≤ l.span.start ∧ l.span.start ≤ l.span.stop ∧ l.span.stop ≤ decl.length) ∧
    ∃ k e ls le : Nat, l.span.start = k ∧ l.span.stop = e ∧ LineOf decl.toList k ls le ∧
      ∃ src car rest,
        Label.draw Palette.plain decl.toList l =
          ("  --> <input>:" ++ toString ((decl.toList.take k).count '\n' + 1) ++ ":" ++ toString (k - ls + 1)) ::
            "       |" :: src :: car :: rest ∧
        Label.draw Palette.plain decl.toList l <:+: d.draw Palette.plain decl ∧
        src.toList = ("  " ++ padLeft 4 (toString ((decl.toList.take k).count '\n' + 1)) ++ " | ").toList ++
          Text.expandTabs (Text.between decl.toList ls le) ∧
        car.toList = "       | ".toList ++
          List.replicate (Text.expandTabs (Text.between decl.toList ls k)).length ' ' ++
          List.replicate (max 1 ((Text.expandTabs (Text.between decl.toList ls (min e le))).length -
            (Text.expandTabs (Text.between decl.toList ls k)).length)) l.style.marker ∧
        (src.toList.drop (car.toList.findIdx (· == l.style.marker)) =
            Text.expandTabsFrom (Text.columnAfter 0 (Text.between decl.toList ls k)) (Text.between decl.toList k le) ↔
          (toString ((decl.toList.take k).count '\n' + 1)).length ≤ 4) := by
  intro d l decl
  have hl : l ∈ d.labels := List.mem_singleton_self l
  have h0 : 0 ≤ l.span.start := by decide
  have h1 : l.span.start ≤ l.span.stop := by decide
  have h2 : l.span.stop ≤ decl.length := by decide
  exact ⟨⟨hl, h0, h1, h2⟩, Label.draw_markers_under_start d decl l hl h0 h1 h2⟩

/-- After `n` line feeds, a last character that is no line feed makes a line of its own. -/
theorem lineOf_after_feeds {n a b : Nat} {c : Char} (hc : c ≠ '\n')
    (h : LineOf (List.replicate n '\n' ++ [c]) n a b) : a = n ∧ b = n + 1 := by
  have hlen : (List.replicate n '\n' ++ [c]).length = n + 1 := by simp
  have hb := h.stop_le
  rw [hlen] at hb
  refine ⟨Nat.le_antisymm h.start_le (Nat.not_lt.1 fun hlt => ?_), ?_⟩
  · -- a line that starts before `n` holds the line feed at `n - 1`
    have hmem := @Text.mem_between (List.replicate n '\n' ++ [c]) a b (n - 1) (by omega)
      (by have := h.le_stop; omega) (by omega)
    rw [List.getElem_append_left (by simp; omega), List.getElem_replicate] at hmem
    exact h.no_feed hmem
  · -- the line ends at the end of the text, since the last character is no line feed
    rcases h.before_feed with hend | hfeed
    · omega
    · have hbn : b = n := by
        have := h.le_stop
        have hlt : b < n + 1 := by
          have := (List.getElem?_eq_some_iff.1 hfeed).1
          rw [hlen] at this
          exact this
        omega
      subst hbn
      rw [List.getElem?_append_right (by simp), List.length_replicate, Nat.sub_self] at hfeed
      exact absurd (by simpa using hfeed) hc

/-- A label that covers the last character, after `n` line feeds: it is drawn on line `n + 1`, in column one. -/
theorem draw_after_feeds (n : Nat) {c : Char} (hc : c ≠ '\n') (l : Label) (hk : l.span.start = n)
    (he : l.span.stop = n + 1) :
    Label.draw Palette.plain (List.replicate n '\n' ++ [c]) l =
      ["  --> <input>:" ++ toString (n + 1) ++ ":" ++ toString 1, "       |",
        "  " ++ padLeft 4 (toString (n + 1)) ++ " | " ++ String.ofList (Text.expandTabs [c]),
        "       | " ++ String.ofList (List.replicate 0 ' ' ++
          List.replicate (max 1 ((Text.expandTabs [c]).length - 0)) l.style.marker)] ++
      (if l.message.isEmpty then [] else ["       | " ++ String.ofList (List.replicate 0 ' ') ++ l.message]) := by
  have hlen : (List.replicate n '\n' ++ [c]).length = n + 1 := by
    rw [List.length_append, List.length_replicate, List.length_singleton]
  obtain ⟨hls, hle⟩ := lineOf_after_feeds hc (@LinePlace.locate_lineOf (List.replicate n '\n' ++ [c]) n
    (by omega))
  have hrows := Label.draw_plain (k := n) (e := n + 1) hk he (Nat.le_succ n) (by omega) hls hle
  -- the line feeds before the label, and the line of the label
  have hcount : ((List.replicate n '\n' ++ [c]).take n).count '\n' = n := by
    rw [List.take_left' (List.length_replicate ..), List.count_replicate_self]
  have hline : Text.between (List.replicate n '\n' ++ [c]) n (n + 1) = [c] := by
    rw [Text.between, List.drop_left' (List.length_replicate ..), Nat.add_sub_cancel_left]
    rfl
  have hbefore : Text.between (List.replicate n '\n' ++ [c]) n n = [] := by
    rw [Text.between, Nat.sub_self, List.take_zero]
  rw [hrows, hcount, Nat.min_self, hline, hbefore, Nat.sub_self, Nat.zero_add]
  rfl

/-- On line 10000 the gutter holds five digits and pushes the line one column right of the markers: the marker meant
for the `A` stands under the blank before it. -/
theorem markers_shift_on_line_10000 :
    Diagnostic.render false ⟨"E105", "expected a type name", [⟨⟨9999, 10000⟩, "", .primary⟩], []⟩
        (String.ofList (List.replicate 9999 '\n' ++ ['A'])) =
      "error[E105]: expected a type name\n  --> <input>:10000:1\n       |\n  10000 | A\n       | ^" := by
  have h := draw_after_feeds 9999 (c := 'A') (by decide) ⟨⟨9999, 10000⟩, "", .primary⟩ rfl rfl
  rw [Diagnostic.render, Diagnostic.draw, String.toList_ofList]
  rw [List.flatMap_cons, List.flatMap_nil, List.append_nil, List.map_nil, List.append_nil,
    show Palette.ofColor false = Palette.plain from rfl, h]
  decide

end ColumnDecl
