/-
The lines of a text are the only cut of it in which no body holds a line feed, a body before a bare
line feed ends in no carriage return, only the last line is unterminated, and every line has
characters. A line without characters vanishes when the lines are put together and cut again.
-/
import ShaderText.Text.Lines

namespace ShaderText

/-! ## Lines that stand in a text -/

/-- The body stops where the ending starts. -/
structure TextLine.BodyStops (line : TextLine) : Prop where
  noFeed : '\n' ∉ line.body
  noReturn : line.ending = .lf → line.body.getLast? ≠ some '\r'

/-- Lines as they stand one behind the other in a text: only the last may be unterminated. -/
def Separated : List TextLine → Prop
  | [] => True
  | line :: lines => line.BodyStops ∧ (line.ending = .none → lines = []) ∧ Separated lines

theorem TextLine.chars_eq_nil_iff (line : TextLine) : line.chars = [] ↔ line = ⟨[], .none⟩ := by
  obtain ⟨body, ending⟩ := line
  cases ending <;> simp [chars, LineEnding.chars]

theorem joinLines_append (xs ys : List TextLine) :
    joinLines (xs ++ ys) = joinLines xs ++ joinLines ys := by
  simp [joinLines]

theorem separated_consTo {c : Char} {lines : List TextLine} (hc : c ≠ '\n')
    (h : Separated lines) : Separated (TextLine.consTo c lines) := by
  have hfeed : '\n' ∉ [c] := by simpa using Ne.symm hc
  unfold TextLine.consTo
  split
  · exact ⟨⟨hfeed, nofun⟩, fun _ => rfl, trivial⟩
  · rename_i line lines
    obtain ⟨hstops, hlast, hlines⟩ := h
    split
    · exact ⟨⟨List.not_mem_nil, nofun⟩, nofun, hlines⟩
    · rename_i body ending hno
      refine ⟨⟨?_, fun he => ?_⟩, hlast, hlines⟩
      · rw [List.mem_cons, not_or]
        exact ⟨Ne.symm hc, hstops.noFeed⟩
      · -- a return directly before a bare line feed would have joined the ending
        simp only at he
        subst he
        cases body with
        | nil =>
          rw [List.getLast?_singleton]
          intro hr
          cases hr
          exact hno rfl rfl rfl
        | cons d ds => rw [List.getLast?_cons_cons]; exact hstops.noReturn rfl

theorem separated_textLines (cs : List Char) : Separated (textLines cs) := by
  induction cs with
  | nil => trivial
  | cons c cs ih =>
    simp only [textLines]
    split
    · refine ⟨⟨List.not_mem_nil, fun _ => by simp⟩, fun he => ?_, ih⟩
      cases he
    · exact separated_consTo ‹_› ih

theorem chars_ne_nil_of_mem_textLines (cs : List Char) :
    ∀ line ∈ textLines cs, line.chars ≠ [] := by
  induction cs with
  | nil => simp [textLines]
  | cons c cs ih =>
    intro line hline
    simp only [textLines] at hline
    rw [Ne, TextLine.chars_eq_nil_iff]
    split at hline
    · rcases List.mem_cons.1 hline with rfl | hline
      · simp
      · exact fun hnil => ih line hline ((TextLine.chars_eq_nil_iff line).2 hnil)
    · unfold TextLine.consTo at hline
      split at hline
      · rw [List.mem_singleton.1 hline]; simp
      · rename_i head lines hlines
        have htail : line ∈ lines → line ≠ ⟨[], .none⟩ := fun hl hnil =>
          ih line (hlines ▸ List.mem_cons_of_mem _ hl) ((TextLine.chars_eq_nil_iff line).2 hnil)
        split at hline <;> rcases List.mem_cons.1 hline with rfl | hline
        · simp
        · exact htail hline
        · simp
        · exact htail hline

/-! ## Cutting what was put together -/

theorem textLines_cons {c : Char} (cs : List Char) (hc : c ≠ '\n') :
    textLines (c :: cs) = TextLine.consTo c (textLines cs) := by
  simp [textLines, hc]

theorem consTo_cons {c : Char} {body : List Char} {ending : LineEnding} (lines : List TextLine)
    (h : TextLine.BodyStops ⟨c :: body, ending⟩) :
    TextLine.consTo c (⟨body, ending⟩ :: lines) = ⟨c :: body, ending⟩ :: lines := by
  simp only [TextLine.consTo]
  split
  · rename_i heq
    cases heq
    exact absurd rfl (h.noReturn rfl)
  · rename_i heq
    cases heq
    rfl

theorem TextLine.BodyStops.tail {c : Char} {body : List Char} {ending : LineEnding}
    (h : BodyStops ⟨c :: body, ending⟩) : c ≠ '\n' ∧ BodyStops ⟨body, ending⟩ := by
  have hfeed := h.noFeed
  rw [List.mem_cons, not_or] at hfeed
  refine ⟨Ne.symm hfeed.1, hfeed.2, fun he => ?_⟩
  cases body with
  | nil => simp
  | cons d ds =>
    have := h.noReturn he
    rwa [List.getLast?_cons_cons] at this

/-- A terminated line in front of a text is its first line. -/
theorem textLines_chars_append {line : TextLine} (h : line.BodyStops) (hend : line.ending ≠ .none)
    (rest : List Char) : textLines (line.chars ++ rest) = line :: textLines rest := by
  obtain ⟨body, ending⟩ := line
  induction body with
  | nil =>
    cases ending with
    | none => exact absurd rfl hend
    | lf => rfl
    | crlf => rfl
  | cons c body ih =>
    obtain ⟨hc, htail⟩ := h.tail
    have hrest := ih htail hend
    simp only [TextLine.chars, List.cons_append] at hrest ⊢
    rw [textLines_cons _ hc, hrest, consTo_cons _ h]

/-- A text without a line feed is one line, unless it is empty. -/
theorem textLines_body {body : List Char} (h : '\n' ∉ body) :
    textLines body = if body = [] then [] else [⟨body, .none⟩] := by
  induction body with
  | nil => rfl
  | cons c body ih =>
    rw [List.mem_cons, not_or] at h
    rw [textLines_cons _ (Ne.symm h.1), ih h.2]
    cases body with
    | nil => rfl
    | cons d ds => exact consTo_cons _ ⟨by simpa using h, nofun⟩

/-- Put together and cut again, separated lines are those of them that have characters. -/
theorem textLines_joinLines {lines : List TextLine} (h : Separated lines) :
    textLines (joinLines lines) = lines.filter (fun line => line.chars ≠ []) := by
  induction lines with
  | nil => rfl
  | cons line lines ih =>
    obtain ⟨hstops, hlast, hlines⟩ := h
    have hjoin : joinLines (line :: lines) = line.chars ++ joinLines lines := rfl
    by_cases hend : line.ending = .none
    · obtain ⟨body, ending⟩ := line
      simp only at hend
      subst hend
      rw [hjoin, hlast rfl]
      simp only [joinLines, List.flatMap_nil, TextLine.chars, LineEnding.chars, List.append_nil]
      rw [textLines_body hstops.noFeed]
      by_cases hbody : body = [] <;> simp [hbody]
    · have hchars : line.chars ≠ [] := fun hnil =>
        hend (by rw [(TextLine.chars_eq_nil_iff line).1 hnil])
      rw [hjoin, textLines_chars_append hstops hend, ih hlines, List.filter_cons]
      simp [hchars]

/-- The lines of a text are the only separated lines with characters that make it up. -/
theorem textLines_eq_iff (cs : List Char) (lines : List TextLine) :
    textLines cs = lines ↔
      joinLines lines = cs ∧ Separated lines ∧ ∀ line ∈ lines, line.chars ≠ [] := by
  constructor
  · rintro rfl
    exact ⟨joinLines_textLines cs, separated_textLines cs, chars_ne_nil_of_mem_textLines cs⟩
  · rintro ⟨rfl, hsep, hchars⟩
    rw [textLines_joinLines hsep, List.filter_eq_self]
    intro line hline
    simpa using hchars line hline

/-- Of separated lines at most the last has no characters. -/
theorem Separated.filter_chars {lines : List TextLine} (h : Separated lines) :
    lines.filter (fun line => line.chars ≠ []) = lines ∨
      lines = lines.filter (fun line => line.chars ≠ []) ++ [⟨[], .none⟩] := by
  induction lines with
  | nil => exact .inl rfl
  | cons line lines ih =>
    obtain ⟨-, hlast, hlines⟩ := h
    by_cases hchars : line.chars = []
    · have hline := (TextLine.chars_eq_nil_iff line).1 hchars
      rw [hlast (by rw [hline]), hline]
      exact .inr rfl
    · rw [List.filter_cons, if_pos (by simpa using hchars)]
      rcases ih hlines with hih | hih
      · exact .inl (by rw [hih])
      · exact .inr (by rw [List.cons_append, ← hih])

/-- Lines written with a line feed behind each are read back, if none holds a line feed or ends in
a carriage return. -/
theorem lineBodies_flatMap_feed {lines : List (List Char)}
    (h : ∀ line ∈ lines, '\n' ∉ line ∧ line.getLast? ≠ some '\r') :
    lineBodies (lines.flatMap (· ++ ['\n'])) = lines := by
  have hcut : textLines (lines.flatMap (· ++ ['\n'])) = lines.map (⟨·, .lf⟩) := by
    induction lines with
    | nil => rfl
    | cons line lines ih =>
      obtain ⟨hfeed, hreturn⟩ := h line (List.mem_cons_self ..)
      have hstops : TextLine.BodyStops ⟨line, .lf⟩ := ⟨hfeed, fun _ => hreturn⟩
      have hline := textLines_chars_append hstops (by simp) (lines.flatMap (· ++ ['\n']))
      rw [List.flatMap_cons, List.map_cons, ← ih fun l hl => h l (List.mem_cons_of_mem _ hl)]
      exact hline
  rw [lineBodies, hcut, List.map_map]
  exact List.map_id lines

end ShaderText
