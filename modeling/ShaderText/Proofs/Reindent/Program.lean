/-
Structured programs. A program is made of statements, of blocks in braces that hold programs one level
deeper, and of lines without significant tokens; a statement that is not ended on its first line goes on
one level deeper, and so does the statement behind a header without braces. Indenting such a program
anew gives every line as many units as it is levels deep, and leaves the root alone.

Every part of a program is written from a ground, and behind it the nesting is that ground again.
-/
import ShaderText.Proofs.Document.Reindent
import ShaderText.Proofs.Lexing.Signals

namespace ShaderText

/-! ## Lines and their depths -/

/-- A line of a program with the depth at which it stands. -/
structure NestedLine where
  text : List Char
  depth : Nat
  deriving DecidableEq, Repr

/-- The line indented by its depth; a blank line is empty. -/
def NestedLine.indented (unit : Nat) (line : NestedLine) : List Char :=
  if trimLeading line.text = [] then []
  else List.replicate (unit * line.depth) ' ' ++ trimLeading line.text

/-- Lines of which all but the first stand one level deeper. -/
def hanging (depth : Nat) : List (List Char) → List NestedLine
  | [] => []
  | line :: lines => ⟨line, depth⟩ :: lines.map (⟨·, depth + 1⟩)

namespace Mode

/-! ## Programs -/

/-- The lines on which a statement goes on that has started, to the semicolon that ends it. On each of
them stands a token. -/
inductive Continuation (m : Mode) : List (List Char) → Prop
  | last {line : List Char} {xs : List (Option Signal)} : Outside goesOn xs →
      m.HasSignals line (xs ++ [some .semicolon]) → Continuation m [line]
  | more {line : List Char} {lines : List (List Char)} {xs : List (Option Signal)} : Outside goesOn xs →
      xs ≠ [] → m.HasSignals line xs → Continuation m lines → Continuation m (line :: lines)

/-- The lines of a statement: a first token that satisfies `p`, tokens that go on with the statement, and
the semicolon that ends it. -/
inductive Statement (m : Mode) (p : Option Signal → Bool) : List (List Char) → Prop
  | oneLine {line : List Char} {x : Option Signal} {xs : List (Option Signal)} : p x = true →
      Outside goesOn xs → m.HasSignals line (x :: xs ++ [some .semicolon]) → Statement m p [line]
  | manyLines {line : List Char} {lines : List (List Char)} {x : Option Signal}
      {xs : List (Option Signal)} : p x = true → Outside goesOn xs → m.HasSignals line (x :: xs) →
      m.Continuation lines → Statement m p (line :: lines)

/-- The lines of a header and of the brace that opens a block. The brace stands behind the header, which
may be empty, or at the start of the next line. -/
inductive Opening (m : Mode) : List (List Char) → Prop
  | sameLine {line : List Char} {xs : List (Option Signal)} : Outside goesOnInHeader xs →
      m.HasSignals line (xs ++ [some (.opening .brace)]) → Opening m [line]
  | nextLine {header line : List Char} {xs : List (Option Signal)} : Outside goesOnInHeader xs →
      xs ≠ [] → m.HasSignals header xs → (trimLeading line).head? = some '\x7b' →
      m.HasSignals line [some (.opening .brace)] → Opening m [header, line]

mutual

/-- The lines of a program at a depth. -/
inductive Program (m : Mode) : Nat → List NestedLine → Prop
  | nil (depth : Nat) : Program m depth []
  /-- A blank line, or one with nothing but comments or a directive. -/
  | mute {depth : Nat} {line : List Char} {rest : List NestedLine} : m.HasSignals line [] →
      Program m depth rest → Program m depth (⟨line, depth⟩ :: rest)
  /-- A statement on one line, or on several. -/
  | statement {depth : Nat} {lines : List (List Char)} {rest : List NestedLine} :
      m.Statement goesOnInHeader lines → Program m depth rest → Program m depth (hanging depth lines ++ rest)
  /-- A header without braces, and the statement that it introduces. -/
  | guarded {depth : Nat} {header : List Char} {xs : List (Option Signal)} {body : List (List Char)}
      {rest : List NestedLine} : Outside goesOn xs → m.HasSignals header (some .blockKeyword :: xs) →
      m.Statement goesOn body → Program m depth rest →
      Program m depth (hanging depth (header :: body) ++ rest)
  /-- A block in braces, or a chain of such blocks. -/
  | block {depth : Nat} {opening : List (List Char)} {inner rest : List NestedLine} :
      m.Opening opening → Block m depth inner → Program m depth rest →
      Program m depth (opening.map (⟨·, depth⟩) ++ inner ++ rest)

/-- The lines behind an opening brace, to the line that starts with its closing brace. Where a header and
another opening brace follow on that line, the block goes on behind them. -/
inductive Block (m : Mode) : Nat → List NestedLine → Prop
  | close {depth : Nat} {inside : List NestedLine} {line : List Char} : Program m (depth + 1) inside →
      (trimLeading line).head? = some '\x7d' → m.HasSignals line [some (.closing .brace)] →
      Block m depth (inside ++ [⟨line, depth⟩])
  | goOn {depth : Nat} {inside inner : List NestedLine} {line : List Char} {xs : List (Option Signal)} :
      Program m (depth + 1) inside → (trimLeading line).head? = some '\x7d' → Outside goesOnInHeader xs →
      m.HasSignals line (some (.closing .brace) :: xs ++ [some (.opening .brace)]) →
      Block m depth inner → Block m depth (inside ++ ⟨line, depth⟩ :: inner)

end

/-- A statement goes on with all of its lines where another one has started. -/
theorem Statement.continuation {m : Mode} {lines : List (List Char)} (h : m.Statement goesOn lines) :
    m.Continuation lines := by
  cases h with
  | oneLine hx hxs hline => exact .last (.token hx hxs) hline
  | manyLines hx hxs hline hlines => exact .more (.token hx hxs) (List.cons_ne_nil _ _) hline hlines

/-! ## Writing lines -/

/-- Indenting the lines anew from a state gives each the indentation of its depth, and leads to another
state. -/
inductive Lays (m : Mode) : State → List NestedLine → State → Prop
  | nil (s : State) : Lays m s [] s
  | cons {s s' : State} {line : NestedLine} {lines : List NestedLine} :
      m.reindentLine s line.text = line.indented m.indentUnit →
      Lays m (m.lexLine (line.indented m.indentUnit) s).2 lines s' → Lays m s (line :: lines) s'

theorem Lays.append {m : Mode} {s s' s'' : State} {xs ys : List NestedLine} (h : m.Lays s xs s')
    (h' : m.Lays s' ys s'') : m.Lays s (xs ++ ys) s'' := by
  induction h with
  | nil s => exact h'
  | cons hline _ ih => exact .cons hline (ih h')

theorem Lays.reindentLines {m : Mode} {s s' : State} {xs : List NestedLine} (h : m.Lays s xs s')
    {lines : List TextLine} (hlines : lines.map TextLine.body = xs.map NestedLine.text) :
    m.reindentLines lines s = (withEndings (xs.map (·.indented m.indentUnit)) lines, s') := by
  induction h generalizing lines with
  | nil s =>
    obtain rfl := List.map_eq_nil_iff.1 hlines
    rfl
  | @cons s s' x xs hline _ ih =>
    cases lines with
    | nil => cases hlines
    | cons line lines =>
      obtain ⟨hbody, hrest⟩ := List.cons.inj hlines
      simp only [Mode.reindentLines, hbody, hline, ih hrest]
      rfl

end Mode

/-- Between two lines the text is code, and the next line starts in this nesting. -/
structure State.Rests (s : State) (n : Nesting) : Prop where
  region : s.region = .code
  nesting : s.nesting.settle false = n

theorem State.Rests.inLiteral_eq {s : State} {n : Nesting} (h : s.Rests n) : s.inLiteral = false := by
  rw [State.inLiteral, h.region]
  rfl

namespace Mode

variable {m : Mode}

/-- The indentation of lines at a depth is a signed number of 64 bits. -/
def Fits (m : Mode) (depth : Nat) : Prop := 2 * (m.indentUnit * depth) < UInt64.size

/-- A line for which its depth is proposed is written at its depth, and its tokens are read there. -/
theorem lays_line (h : m.hooks.OnlyDirectives) {s : State} {n : Nesting} (hs : s.Rests n)
    {line : List Char} {depth : Nat} (hfits : m.Fits depth) {xs : List (Option Signal)}
    (hline : m.HasSignals line xs)
    (hne : trimLeading line ≠ [])
    (hindent : n.proposal (trimLeading line).head? m.indentUnit = (m.indentUnit * depth : Nat)) :
    ∃ s', m.Lays s [⟨line, depth⟩] s' ∧ s'.region = .code ∧
      Layout.Takes ⟨n, m.indentUnit * depth⟩ xs s'.layout := by
  have hliteral := hs.inLiteral_eq
  have hwritten : (NestedLine.mk line depth).indented m.indentUnit =
      List.replicate (m.indentUnit * depth) ' ' ++ trimLeading line := if_neg hne
  have hcolumn : m.indent s line = m.indentUnit * depth := by
    rw [indent, hliteral, if_neg Bool.false_ne_true, Nesting.indentation,
      ← Nesting.proposal_settle_false, hs.nesting, hindent, Int.toNat_natCast]
  refine ⟨_, .cons ?_ (.nil _), ?_⟩
  · rw [hwritten, m.reindentLine_of_content hliteral hne, hcolumn]
  · have hnonempty : List.replicate (m.indentUnit * depth) ' ' ++ trimLeading line ≠ [] := by simp [hne]
    have hindentation : m.indentationOf (List.replicate (m.indentUnit * depth) ' ' ++ trimLeading line) =
        m.indentUnit * depth := by
      have hlt : m.indentUnit * depth < UInt64.size := by
        unfold Fits at hfits
        omega
      rw [indentationOf, leadingBlanks_replicate_append, leadingBlanks_trimLeading, List.append_nil,
        columnWidth_replicate m.tabSize hlt]
    obtain ⟨hsignals, hregion⟩ := hline.anywhere h (trimLeading_replicate_append _ _) hne hs.region
    have htakes := m.takes_lineSteps hnonempty s
    rw [hsignals, hs.nesting, hindentation] at htakes
    rw [hwritten]
    exact ⟨hregion, htakes⟩

/-! ## Grounds of a depth -/

/-- The ground that lines at a depth stand on. Where it is in braces, a closing brace can be read. -/
structure AtDepth (m : Mode) (depth : Nat) (n : Nesting) : Prop where
  ground : n.Ground
  indented : n.top.indented = (m.indentUnit * depth : Nat) - m.indentUnit
  closes : n.top.kind = .bracket .brace → m.hooks.contains '\x7d' = false

section

variable {depth : Nat} {n : Nesting} {s : State} {line : List Char} {xs : List (Option Signal)}

theorem AtDepth.proposal (hunit : 2 * m.indentUnit < UInt64.size) (hn : m.AtDepth depth n)
    {first : Option Char} (hfirst : n.top.kind = .bracket .brace → first ≠ some '\x7d') :
    n.proposal first m.indentUnit = (m.indentUnit * depth : Nat) := by
  rw [hn.ground.proposal hfirst, hn.indented, signed_of_lt hunit]
  omega

/-- A line that does not close the braces it stands in is written at the depth of the ground. -/
theorem AtDepth.lays_line (h : m.hooks.OnlyDirectives) (hunit : 2 * m.indentUnit < UInt64.size)
    (hfits : m.Fits depth) (hn : m.AtDepth depth n) (hs : s.Rests n) (hline : m.HasSignals line xs)
    (hne : trimLeading line ≠ []) (hxs : xs.head? ≠ some (some (.closing .brace))) :
    ∃ s', m.Lays s [⟨line, depth⟩] s' ∧ s'.region = .code ∧
      Layout.Takes ⟨n, m.indentUnit * depth⟩ xs s'.layout := by
  refine Mode.lays_line h hs hfits hline hne (hn.proposal hunit fun hkind hfirst => ?_)
  rcases hline.brace h (.inr rfl) hfirst with ⟨hhook, -⟩ | ⟨-, hhead⟩
  · rw [hn.closes hkind] at hhook
    cases hhook
  · exact hxs hhead

/-- A first brace is a signal of its line if the line has signals at all. -/
theorem HasSignals.head?_ne (h : m.hooks.OnlyDirectives) (hline : m.HasSignals line xs) (hxs : xs ≠ [])
    (hhead : xs.head? ≠ some (some (.opening .brace))) :
    (trimLeading line).head? ≠ some '\x7b' := by
  intro hfirst
  rcases hline.brace h (.inl rfl) hfirst with ⟨-, hnil⟩ | ⟨-, hbrace⟩
  · exact hxs hnil
  · exact hhead hbrace

/-! ## Parts of programs -/

/-- The lines lead from a state back to its ground, or leave the nesting as it is. -/
def Returns (m : Mode) (s : State) (lines : List NestedLine) (n : Nesting) : Prop :=
  ∃ s', m.Lays s lines s' ∧ s'.region = .code ∧ (s'.nesting = s.nesting ∨ s'.nesting = n)

theorem Returns.append (hn : n.Ground) (hs : s.Rests n) {xs ys : List NestedLine}
    (hxs : m.Returns s xs n) (hys : ∀ s' : State, s'.Rests n → m.Returns s' ys n) :
    m.Returns s (xs ++ ys) n := by
  obtain ⟨s₁, hlays, hregion, hnesting⟩ := hxs
  have hrests : s₁.Rests n := by
    refine ⟨hregion, ?_⟩
    rcases hnesting with heq | heq
    · rw [heq, hs.nesting]
    · rw [heq, Nesting.settle_of_aligned hn.aligned]
  obtain ⟨s₂, hlays', hregion', hnesting'⟩ := hys s₁ hrests
  refine ⟨s₂, hlays.append hlays', hregion', ?_⟩
  rcases hnesting' with heq | heq
  · rw [heq]
    exact hnesting
  · exact .inr heq

/-- A line without signals leaves the ground. -/
theorem HasSignals.returns (h : m.hooks.OnlyDirectives) (hunit : 2 * m.indentUnit < UInt64.size)
    (hfits : m.Fits depth) (hline : m.HasSignals line []) (hn : m.AtDepth depth n) (hs : s.Rests n) :
    m.Returns s [⟨line, depth⟩] n := by
  by_cases hblank : trimLeading line = []
  · have hindented : (NestedLine.mk line depth).indented m.indentUnit = [] := if_pos hblank
    refine ⟨_, .cons ?_ (.nil _), ?_⟩
    · rw [hindented, m.reindentLine_of_blank hs.inLiteral_eq hblank]
    · rw [hindented, lexLine_nil]
      exact ⟨hs.region, .inl rfl⟩
  · obtain ⟨s', hlays, hregion, htakes⟩ := hn.lays_line h hunit hfits hs hline hblank (by simp)
    exact ⟨s', hlays, hregion, .inr (congrArg Layout.nesting htakes.eq_of_nil)⟩

/-- A line on which a statement goes on is written one level deeper than the statement. -/
theorem lays_continuation_line (h : m.hooks.OnlyDirectives) (hunit : 2 * m.indentUnit < UInt64.size)
    (hfits : m.Fits (depth + 1)) (hs : s.region = .code)
    (hpiled : Nesting.Piled n (m.indentUnit * depth) 1 (s.nesting.settle false))
    (hline : m.HasSignals line xs) (hne : xs ≠ []) (hhead : xs.head? ≠ some (some (.opening .brace))) :
    ∃ s', m.Lays s [⟨line, depth + 1⟩] s' ∧ s'.region = .code ∧
      Layout.Takes ⟨s.nesting.settle false, m.indentUnit * (depth + 1)⟩ xs s'.layout := by
  refine Mode.lays_line h ⟨hs, rfl⟩ hfits hline (hline.trimLeading_ne_nil hne) ?_
  rw [hpiled.proposal_goesOn (hline.head?_ne h hne hhead), signed_of_lt hunit, Nat.mul_succ,
    Int.natCast_add]

/-- The lines on which a statement goes on lead to its ground. -/
theorem Continuation.lays (h : m.hooks.OnlyDirectives) (hunit : 2 * m.indentUnit < UInt64.size)
    {lines : List (List Char)} (hlines : m.Continuation lines)
    (hfits : ∀ line ∈ lines.map (NestedLine.mk · (depth + 1)), m.Fits line.depth) (hn : n.Ground)
    (hs : s.region = .code)
    (hpiled : Nesting.Piled n (m.indentUnit * depth) 1 (s.nesting.settle false)) :
    ∃ s', m.Lays s (lines.map (⟨·, depth + 1⟩)) s' ∧ s'.region = .code ∧ s'.nesting = n := by
  induction hlines generalizing s with
  | @last line xs hxs hline =>
    have hhead : (xs ++ [some Signal.semicolon]).head? ≠ some (some (.opening .brace)) :=
      hxs.head?_append_ne (.inl rfl) rfl (by simp)
    have hdepth : m.Fits (depth + 1) := hfits _ (List.mem_cons_self ..)
    obtain ⟨s', hlays, hregion, htakes⟩ :=
      lays_continuation_line h hunit hdepth hs hpiled hline (by simp) hhead
    exact ⟨s', hlays, hregion, (hpiled.takes_semicolon hn hxs htakes).eq_ground⟩
  | @more line lines xs hxs hne hline _ ih =>
    have hhead : xs.head? ≠ some (some (.opening .brace)) := hxs.head?_ne (.inl rfl) rfl
    obtain ⟨hdepth, hfits⟩ := List.forall_mem_cons.1 hfits
    obtain ⟨s₁, hlays, hregion, htakes⟩ :=
      lays_continuation_line h hunit hdepth hs hpiled hline hne hhead
    obtain ⟨s₂, hlays', hdone⟩ := ih hfits hregion ((hpiled.takes_goesOn hn hxs htakes).settle hn false)
    exact ⟨s₂, hlays.append hlays', hdone⟩

theorem Statement.fits {p : Option Signal → Bool} {lines : List (List Char)} (hlines : m.Statement p lines)
    (hfits : ∀ line ∈ hanging depth lines, m.Fits line.depth) : m.Fits depth := by
  cases hlines with
  | oneLine => exact hfits _ (List.mem_cons_self ..)
  | manyLines => exact hfits _ (List.mem_cons_self ..)

/-- A statement leads back to its ground. -/
theorem Statement.returns (h : m.hooks.OnlyDirectives) (hunit : 2 * m.indentUnit < UInt64.size)
    {lines : List (List Char)} (hlines : m.Statement goesOnInHeader lines)
    (hfits : ∀ line ∈ hanging depth lines, m.Fits line.depth) (hn : m.AtDepth depth n) (hs : s.Rests n) :
    m.Returns s (hanging depth lines) n := by
  have hdepth := hlines.fits hfits
  have hfirst : ∀ {x : Option Signal} {xs : List (Option Signal)}, goesOnInHeader x = true →
      (x :: xs).head? ≠ some (some (.closing .brace)) := by
    rintro x xs hx ⟨⟩
    cases hx
  cases hlines with
  | @oneLine line x xs hx hxs hline =>
    obtain ⟨s', hlays, hregion, htakes⟩ := hn.lays_line h hunit hdepth hs hline
      (hline.trimLeading_ne_nil (by simp)) (hfirst hx)
    obtain ⟨l, hstart, hend⟩ := htakes.append_inv
    have hpiled := Nesting.Piled.takes_first hn.ground hdepth hx hxs hstart
    exact ⟨s', hlays, hregion, .inr (hpiled.takes_semicolon hn.ground .nil hend).eq_ground⟩
  | @manyLines line lines x xs hx hxs hline hlines =>
    obtain ⟨s₁, hlays, hregion, htakes⟩ := hn.lays_line h hunit hdepth hs hline
      (hline.trimLeading_ne_nil (by simp)) (hfirst hx)
    have hpiled := (Nesting.Piled.takes_first hn.ground hdepth hx hxs htakes).settle hn.ground false
    obtain ⟨-, hfits⟩ := List.forall_mem_cons.1 hfits
    obtain ⟨s₂, hlays', hregion', hnesting⟩ := hlines.lays h hunit hfits hn.ground hregion hpiled
    exact ⟨s₂, hlays.append hlays', hregion', .inr hnesting⟩

/-- A header and its brace lead from the ground into a block. -/
theorem Opening.lays (h : m.hooks.OnlyDirectives) (hunit : 2 * m.indentUnit < UInt64.size)
    {lines : List (List Char)} (hlines : m.Opening lines) (hfits : m.Fits depth)
    (hn : m.AtDepth depth n) (hs : s.Rests n) :
    ∃ s', m.Lays s (lines.map (⟨·, depth⟩)) s' ∧ s'.region = .code ∧
      Nesting.Braced n (m.indentUnit * depth) s'.nesting := by
  cases hlines with
  | @sameLine line xs hxs hline =>
    have hhead : (xs ++ [some (Signal.opening .brace)]).head? ≠ some (some (.closing .brace)) :=
      hxs.head?_append_ne (.inr rfl) rfl (by simp)
    obtain ⟨s', hlays, hregion, htakes⟩ :=
      hn.lays_line h hunit hfits hs hline (hline.trimLeading_ne_nil (by simp)) hhead
    exact ⟨s', hlays, hregion, Nesting.Piled.ground.takes_opening hn.ground hfits rfl hxs htakes⟩
  | @nextLine header line xs hxs hne hheader hfirst hline =>
    have hhead : xs.head? ≠ some (some (.closing .brace)) := hxs.head?_ne (.inr rfl) rfl
    obtain ⟨s₁, hlays, hregion, htakes⟩ :=
      hn.lays_line h hunit hfits hs hheader (hheader.trimLeading_ne_nil hne) hhead
    obtain ⟨⟨k, hpiled⟩, -⟩ := Nesting.Piled.ground.takes_header hn.ground hfits rfl hxs htakes
    replace hpiled := hpiled.settle hn.ground false
    -- the brace on the next line stands at the depth of the header, whether or not that is empty
    have hindent : (s₁.nesting.settle false).proposal (trimLeading line).head? m.indentUnit =
        (m.indentUnit * depth : Nat) := by
      rw [hfirst]
      cases k with
      | zero =>
        rw [show s₁.nesting.settle false = n from hpiled.eq_ground]
        exact hn.proposal hunit fun _ => by simp
      | succ k => exact hpiled.proposal_opening _
    obtain ⟨s₂, hlays', hregion', htakes'⟩ :=
      Mode.lays_line h ⟨hregion, rfl⟩ hfits hline (hline.trimLeading_ne_nil (by simp)) hindent
    exact ⟨s₂, hlays.append hlays', hregion', hpiled.takes_opening hn.ground hfits rfl .nil htakes'⟩

/-- Inside a block the ground is one level deeper. -/
theorem AtDepth.inside (hn : Nesting.Braced n (m.indentUnit * depth) s.nesting)
    (hcloses : m.hooks.contains '\x7d' = false) :
    m.AtDepth (depth + 1) (s.nesting.settle false) := by
  refine ⟨hn.ground_settle, ?_, fun _ => hcloses⟩
  rw [hn.settle.indented_top, Nat.mul_succ, Int.natCast_add]
  omega

/-- The line of a closing brace is written at the depth of the block that it closes. -/
theorem lays_closing_line (h : m.hooks.OnlyDirectives) (hfits : m.Fits depth) (hs : s.region = .code)
    (hn : n.Ground)
    (hbraced : Nesting.Braced n (m.indentUnit * depth) s.nesting)
    (hfirst : (trimLeading line).head? = some '\x7d')
    (hline : m.HasSignals line (some (.closing .brace) :: xs)) :
    ∃ s', m.Lays s [⟨line, depth⟩] s' ∧ s'.region = .code ∧
      Layout.Takes ⟨n, m.indentUnit * depth⟩ xs s'.layout := by
  obtain ⟨s', hlays, hregion, htakes⟩ := Mode.lays_line h ⟨hs, rfl⟩ hfits hline
    (hline.trimLeading_ne_nil (by simp)) (hfirst ▸ hbraced.settle.proposal_closing _)
  refine ⟨s', hlays, hregion, ?_⟩
  rw [← List.singleton_append] at htakes
  obtain ⟨l, hclosing, hrest⟩ := htakes.append_inv
  rwa [hbraced.settle.takes_closing hn hclosing] at hrest

/-- Where a line starts with a closing brace that is read as one, no hook takes it. -/
theorem HasSignals.closes (h : m.hooks.OnlyDirectives)
    (hline : m.HasSignals line (some (.closing .brace) :: xs))
    (hfirst : (trimLeading line).head? = some '\x7d') : m.hooks.contains '\x7d' = false := by
  rcases hline.brace h (.inr rfl) hfirst with ⟨-, hnil⟩ | ⟨hno, -⟩
  · cases hnil
  · exact hno

theorem Opening.fits {lines : List (List Char)} (hlines : m.Opening lines)
    (hfits : ∀ line ∈ lines.map (NestedLine.mk · depth), m.Fits line.depth) : m.Fits depth := by
  cases hlines with
  | sameLine => exact hfits _ (List.mem_cons_self ..)
  | nextLine => exact hfits _ (List.mem_cons_self ..)

end

/-! ## Whole programs -/

mutual

/-- A program leads back to the ground that it stands on. -/
theorem Program.returns (h : m.hooks.OnlyDirectives) (hunit : 2 * m.indentUnit < UInt64.size)
    {depth : Nat} {lines : List NestedLine} (hlines : m.Program depth lines)
    (hfits : ∀ line ∈ lines, m.Fits line.depth) {n : Nesting} (hn : m.AtDepth depth n) {s : State}
    (hs : s.Rests n) : m.Returns s lines n := by
  match hlines with
  | .nil _ => exact ⟨s, .nil s, hs.region, .inl rfl⟩
  | .mute hline hrest =>
    obtain ⟨hdepth, hfits⟩ := List.forall_mem_cons.1 hfits
    exact (hline.returns h hunit hdepth hn hs).append hn.ground hs fun s' hs' =>
      hrest.returns h hunit hfits hn hs'
  | .statement hstatement hrest =>
    obtain ⟨hfits, hfits'⟩ := List.forall_mem_append.1 hfits
    exact (hstatement.returns h hunit hfits hn hs).append hn.ground hs fun s' hs' =>
      hrest.returns h hunit hfits' hn hs'
  | .guarded hxs hheader hbody hrest =>
    -- the header and its body read as one statement that starts with a block keyword
    obtain ⟨hfits, hfits'⟩ := List.forall_mem_append.1 hfits
    have hstatement := Statement.manyLines (p := goesOnInHeader) rfl hxs hheader hbody.continuation
    exact (hstatement.returns h hunit hfits hn hs).append hn.ground hs fun s' hs' =>
      hrest.returns h hunit hfits' hn hs'
  | .block hopening hinner hrest =>
    obtain ⟨hfits, hfits'⟩ := List.forall_mem_append.1 hfits
    obtain ⟨hfitsOpening, hfitsInner⟩ := List.forall_mem_append.1 hfits
    have hdepth := hopening.fits hfitsOpening
    obtain ⟨s₁, hlays, hregion, hbraced⟩ := hopening.lays h hunit hdepth hn hs
    obtain ⟨s₂, hlays', hregion', hnesting⟩ :=
      hinner.lays h hunit hfitsInner hn.ground hregion hbraced
    exact Returns.append hn.ground hs ⟨s₂, hlays.append hlays', hregion', .inr hnesting⟩ fun s' hs' =>
      hrest.returns h hunit hfits' hn hs'

/-- What follows an opening brace leads back to the ground below the brace. -/
theorem Block.lays (h : m.hooks.OnlyDirectives) (hunit : 2 * m.indentUnit < UInt64.size)
    {depth : Nat} {lines : List NestedLine} (hlines : m.Block depth lines)
    (hfits : ∀ line ∈ lines, m.Fits line.depth) {n : Nesting} (hn : n.Ground) {s : State}
    (hs : s.region = .code) (hbraced : Nesting.Braced n (m.indentUnit * depth) s.nesting) :
    ∃ s', m.Lays s lines s' ∧ s'.region = .code ∧ s'.nesting = n := by
  -- the program inside may decide the alignment of the brace
  have hstill : ∀ {s' : State}, s'.nesting = s.nesting ∨ s'.nesting = s.nesting.settle false →
      Nesting.Braced n (m.indentUnit * depth) s'.nesting := by
    rintro s' (heq | heq)
    · exact heq ▸ hbraced
    · exact heq ▸ hbraced.settle
  match hlines with
  | .close hinside hfirst hline =>
    obtain ⟨hfits, hclosing⟩ := List.forall_mem_append.1 hfits
    have hdepth := hclosing _ (List.mem_singleton_self _)
    obtain ⟨s₁, hlays, hregion, hnesting⟩ :=
      hinside.returns h hunit hfits (.inside hbraced (hline.closes h hfirst)) ⟨hs, rfl⟩
    obtain ⟨s₂, hlays', hregion', htakes⟩ :=
      lays_closing_line h hdepth hregion hn (hstill hnesting) hfirst hline
    exact ⟨s₂, hlays.append hlays', hregion', congrArg Layout.nesting htakes.eq_of_nil⟩
  | .goOn hinside hfirst hxs hline hinner =>
    obtain ⟨hfits, hfits'⟩ := List.forall_mem_append.1 hfits
    obtain ⟨hdepth, hfitsInner⟩ := List.forall_mem_cons.1 hfits'
    obtain ⟨s₁, hlays, hregion, hnesting⟩ :=
      hinside.returns h hunit hfits (.inside hbraced (hline.closes h hfirst)) ⟨hs, rfl⟩
    obtain ⟨s₂, hlays', hregion', htakes⟩ :=
      lays_closing_line h hdepth hregion hn (hstill hnesting) hfirst hline
    have hbraced' := Nesting.Piled.ground.takes_opening hn hdepth rfl hxs htakes
    obtain ⟨s₃, hlays'', hdone⟩ := hinner.lays h hunit hfitsInner hn hregion' hbraced'
    exact ⟨s₃, hlays.append (hlays'.append hlays''), hdone⟩

end

/-- Before any text the ground is the root. -/
theorem atDepth_start (m : Mode) (hunit : 2 * m.indentUnit < UInt64.size) :
    m.AtDepth 0 (m.start 0).nesting := by
  refine ⟨⟨.inl rfl, rfl⟩, ?_, nofun⟩
  have hindented : (m.start 0).nesting.top.indented = signed 0 - signed m.indentUnit := rfl
  rw [hindented, signed_of_lt hunit, Nat.mul_zero]
  rfl

/-- A program indented anew has every line at its depth, with the ending that it had, and leaves the
root alone. -/
theorem reindent_program (m : Mode) (h : m.hooks.OnlyDirectives)
    (hunit : 2 * m.indentUnit < UInt64.size) {lines : List NestedLine} (hlines : m.Program 0 lines)
    (hfits : ∀ line ∈ lines, 2 * (m.indentUnit * line.depth) < UInt64.size) {text : List Char}
    (htext : lineBodies text = lines.map NestedLine.text) :
    m.reindent text =
        joinLines (withEndings (lines.map (·.indented m.indentUnit)) (textLines text)) ∧
      (m.reindentLines (textLines text) (m.start 0)).2.nesting = (m.start 0).nesting ∧
      (m.reindentLines (textLines text) (m.start 0)).2.region = .code := by
  obtain ⟨s', hlays, hregion, hnesting⟩ :=
    hlines.returns h hunit hfits (m.atDepth_start hunit) (s := m.start 0) ⟨rfl, rfl⟩
  have hwritten := hlays.reindentLines htext
  refine ⟨?_, ?_, ?_⟩
  · rw [reindent, hwritten]
  · rw [hwritten]
    exact hnesting.elim id id
  · rw [hwritten]
    exact hregion

/-- A chain of two blocks with a directive, a statement on two lines and one behind a header without
braces. -/
theorem reindent_program_blocks :
    let isIf : WordTable := fun word => word == ['i', 'f']
    let m : Mode := { shader with grammar := { Grammar.empty with keywords := isIf, blockKeywords := isIf } }
    let lines : List NestedLine :=
      [⟨['i', 'f', '(', ')'], 0⟩, ⟨['\x7b'], 0⟩, ⟨['#'], 1⟩, ⟨[' ', 'x'], 1⟩, ⟨['y', ';'], 2⟩,
        ⟨['\x7d', 'z', '\x7b'], 0⟩, ⟨['i', 'f'], 1⟩, ⟨['x', ';'], 2⟩, ⟨[' ', '\x7d'], 0⟩]
    let text := joinLines (lines.map fun line => ⟨line.text, .lf⟩)
    m.Program 0 lines ∧
      m.reindent text = joinLines (lines.map fun line => ⟨line.indented 2, .lf⟩) ∧
      (m.reindentLines (textLines text) (m.start 0)).2.nesting = (m.start 0).nesting := by
  intro isIf m lines text
  have hheader : m.HasSignals ['i', 'f', '(', ')']
      [some .blockKeyword, some (.opening .paren), some (.closing .paren)] :=
    ⟨by decide +kernel, by decide +kernel⟩
  have hbrace : m.HasSignals ['\x7b'] [some (.opening .brace)] := ⟨by decide +kernel, by decide +kernel⟩
  have hdirective : m.HasSignals ['#'] [] := ⟨by decide +kernel, by decide +kernel⟩
  have hx : m.HasSignals [' ', 'x'] [none] := ⟨by decide +kernel, by decide +kernel⟩
  have hy : m.HasSignals ['y', ';'] [none, some .semicolon] := ⟨by decide +kernel, by decide +kernel⟩
  have hchain : m.HasSignals ['\x7d', 'z', '\x7b']
      [some (.closing .brace), none, some (.opening .brace)] := ⟨by decide +kernel, by decide +kernel⟩
  have hif : m.HasSignals ['i', 'f'] [some .blockKeyword] := ⟨by decide +kernel, by decide +kernel⟩
  have hz : m.HasSignals ['x', ';'] [none, some .semicolon] := ⟨by decide +kernel, by decide +kernel⟩
  have hclose : m.HasSignals [' ', '\x7d'] [some (.closing .brace)] :=
    ⟨by decide +kernel, by decide +kernel⟩
  have hgroup : Outside goesOnInHeader
      [some .blockKeyword, some (.opening .paren), some (.closing .paren)] :=
    .token rfl (.group (by decide) .nil .nil)
  have hword : Outside goesOn [none] := .token rfl .nil
  have hopening : m.Opening [['i', 'f', '(', ')'], ['\x7b']] :=
    .nextLine hgroup (by decide) hheader rfl hbrace
  have hlong : m.Statement goesOnInHeader [[' ', 'x'], ['y', ';']] :=
    .manyLines rfl .nil hx (.last hword hy)
  have hshort : m.Statement goesOn [['x', ';']] := .oneLine rfl .nil hz
  have hfirst : m.Program 1 [⟨['#'], 1⟩, ⟨[' ', 'x'], 1⟩, ⟨['y', ';'], 2⟩] :=
    .mute hdirective (.statement hlong (.nil 1))
  have hsecond : m.Program 1 [⟨['i', 'f'], 1⟩, ⟨['x', ';'], 2⟩] := .guarded .nil hif hshort (.nil 1)
  have hblock := Block.goOn hfirst rfl (.token rfl .nil) hchain (.close hsecond rfl hclose)
  have hlines : m.Program 0 lines := .block hopening hblock (.nil 0)
  obtain ⟨hreindent, hnesting, -⟩ := m.reindent_program HookTable.onlyDirectives_shader (by decide) hlines
    (by decide) (show lineBodies text = lines.map NestedLine.text by decide +kernel)
  refine ⟨hlines, hreindent.trans ?_, hnesting⟩
  decide +kernel

end Mode

end ShaderText
