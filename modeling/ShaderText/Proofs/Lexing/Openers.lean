/-
Levels and their openers. Every level was opened by a token, and while it stands nothing but its alignment
changes: it is aligned if another token follows on the line of the opener, it is not if the next line starts
first, and until then that is unknown, which only the innermost level can be. So all lines that start where
a level is innermost are indented alike.
-/
import ShaderText.Proofs.Lexing.Layout
import ShaderText.Proofs.Lexing.Reachable

namespace ShaderText

/-! ## Where a level stands -/

namespace Nesting

/-- The level stands in the nesting, on the levels `below`. -/
def HasLevel (n : Nesting) (l : Level) (below : List Level) : Prop := ∃ above, n.inner = above ++ l :: below

variable {n : Nesting} {l : Level} {below : List Level}

/-- Of a level that is not innermost the alignment is known. -/
theorem Decided.aligned_isSome {b : Bool} (h : (n.settle b).Decided) {above : List Level}
    (hn : n.inner = above ++ l :: below) (habove : above ≠ []) : l.aligned.isSome = true := by
  obtain ⟨root, inner⟩ := n
  obtain ⟨x, above, rfl⟩ := List.exists_cons_of_ne_nil habove
  obtain rfl : inner = x :: (above ++ l :: below) := hn
  obtain ⟨-, hinner⟩ := List.forall_mem_cons.1 h.inner
  exact hinner l (List.mem_append_right _ (List.mem_cons_self ..))

/-- Deciding an alignment leaves every level where it stands. -/
theorem HasLevel.of_settle {b : Bool} (hdecided : (n.settle b).Decided)
    (h : (n.settle b).HasLevel l below) :
    ∃ aligned, n.HasLevel { l with aligned := aligned } below ∧ l.aligned = aligned.or (some b) := by
  obtain ⟨above, habove⟩ := h
  obtain ⟨root, _ | ⟨x, xs⟩⟩ := n
  · cases above <;> cases habove
  · -- only the innermost level changes, and the alignment of all others is known
    cases above with
    | nil =>
      obtain ⟨rfl, rfl⟩ := List.cons.inj habove
      refine ⟨x.aligned, ⟨[], rfl⟩, ?_⟩
      cases hx : x.aligned <;> simp [Level.settle, hx]
    | cons y above =>
      obtain ⟨-, hxs⟩ := List.cons.inj habove
      have hknown := hdecided.inner l (by simp [settle, mapTop, hxs])
      obtain ⟨aligned, haligned⟩ := Option.isSome_iff_exists.1 hknown
      refine ⟨l.aligned, ⟨x :: above, by rw [hxs]; rfl⟩, ?_⟩
      rw [haligned]
      rfl

/-- Whether a level is aligned is all that a proposal sees of its alignment. -/
theorem proposal_congr {n' : Nesting} (hkind : n.top.kind = n'.top.kind)
    (hindented : n.top.indented = n'.top.indented) (hcolumn : n.top.column = n'.top.column)
    (haligned : n.top.aligned = some true ↔ n'.top.aligned = some true) (first : Option Char) (unit : Nat) :
    n.proposal first unit = n'.proposal first unit := by
  simp only [proposal, hkind, hindented, hcolumn, haligned]

/-- A level that stands behind a token stood before it, or the token opened it. -/
theorem HasLevel.of_update {signal : Option Signal} {column indented : Nat}
    (h : (n.update signal column indented).1.HasLevel l below) :
    n.HasLevel l below ∨
      ((n.update signal column indented).1 = n.push l ∧ l.aligned = none ∧ n.inner = below) := by
  obtain ⟨above, habove⟩ := h
  rcases n.update_cases signal column indented with ⟨kind, heq⟩ | ⟨ls, ⟨more, hmore⟩, heq⟩
  · rw [heq] at habove ⊢
    cases above with
    | nil =>
      obtain ⟨rfl, rfl⟩ := List.cons.inj habove
      exact .inr ⟨rfl, rfl, rfl⟩
    | cons x above =>
      obtain ⟨-, hinner⟩ := List.cons.inj habove
      exact .inl ⟨above, hinner⟩
  · rw [heq] at habove
    refine .inl ⟨more ++ above, ?_⟩
    rw [← hmore, show ls = above ++ l :: below from habove, List.append_assoc]

end Nesting

namespace Mode

variable {m : Mode}

/-! ## What one step does to a level -/

/-- The step is the first in its line. -/
def Step.startsLine (r : Step) : Bool := r.cursor.behind.isEmpty

/-- How a step decides the alignment of the level that is innermost before it: by the start of a line, or
else by a token. -/
def Step.decides? (r : Step) : Option Bool :=
  if r.startsLine then some false else if r.signal?.isSome then some true else none

theorem startsLine_step (m : Mode) (c : Cursor) (s : State) : (m.step c s).startsLine = c.atLineStart :=
  (m.lineStart_step c s).1

theorem hasLevel_enter {s : State} (hs : s.Regular) {c : Cursor} {l : Level} {below : List Level}
    (h : (s.enter c).nesting.HasLevel l below) :
    ∃ aligned, s.nesting.HasLevel { l with aligned := aligned } below ∧
      l.aligned = aligned.or (if c.atLineStart then some false else none) := by
  by_cases hstart : c.atLineStart = true
  · rw [s.enter_of_atLineStart hstart] at h
    rw [if_pos hstart]
    exact Nesting.HasLevel.of_settle (hs.decided false) h
  · rw [s.enter_of_not_atLineStart (by simpa using hstart)] at h
    rw [if_neg hstart]
    exact ⟨l.aligned, h, by rw [Option.or_none]⟩

/-- A level that stands behind a step stood before it, and the step at most decided its alignment; or the
step opened it with the token that it read. -/
theorem hasLevel_step {s : State} (hs : s.Regular) {c : Cursor} {l : Level} {below : List Level}
    (h : (m.step c s).state.nesting.HasLevel l below) :
    (∃ aligned, s.nesting.HasLevel { l with aligned := aligned } below ∧
      l.aligned = aligned.or (m.step c s).decides?) ∨
    ((m.step c s).signal?.isSome = true ∧ l.aligned = none ∧
      (m.step c s).state.nesting = ((s.enter c).nesting.settle true).push l ∧
      ((s.enter c).nesting.settle true).inner = below) := by
  rw [Step.decides?, startsLine_step]
  cases hsignal : (m.step c s).signal? with
  | none =>
    have hlayout := m.layout_step c s
    rw [events_step, hsignal, Layout.afterAll_append, ← layout_enter] at hlayout
    have hnesting : (m.step c s).state.nesting = (s.enter c).nesting := congrArg Layout.nesting hlayout
    rw [hnesting] at h
    exact .inl (hasLevel_enter hs h)
  | some signal =>
    have hlayout := m.layout_step_of_signal c s hsignal
    have hnesting : (m.step c s).state.nesting = (((s.enter c).nesting.settle true).update signal
      c.startToken.column (s.enter c).indented).1 := congrArg Layout.nesting hlayout
    rw [hnesting] at h
    rcases h.of_update with hkept | ⟨hpushed, hunknown, hbelow⟩
    · obtain ⟨aligned, hentered, heq⟩ := hkept.of_settle ((hs.enter c).decided true)
      obtain ⟨aligned', hbefore, heq'⟩ := hasLevel_enter hs hentered
      refine .inl ⟨aligned', hbefore, ?_⟩
      rw [heq, show aligned = _ from heq']
      cases aligned' <;> cases c.atLineStart <;> rfl
    · exact .inr ⟨rfl, hunknown, hnesting.trans hpushed, hbelow⟩

/-! ## What a run does to a level -/

/-- The steps that go on with the line: those before another line starts. -/
def sameLine (rs : List Step) : List Step := rs.takeWhile (!·.startsLine)

/-- How a level is aligned some steps behind its opener: it is if a significant token was read on the same
line, else it is not if another line was started, and else that is unknown. -/
def alignmentOver (rs : List Step) : Option Bool :=
  if (sameLine rs).any (·.signal?.isSome) then some true
  else if rs.any Step.startsLine then some false
  else none

theorem alignmentOver_cons (r : Step) (rs : List Step) :
    alignmentOver (r :: rs) = r.decides?.or (alignmentOver rs) := by
  unfold alignmentOver sameLine Step.decides?
  cases hstart : r.startsLine with
  | true => simp [hstart]
  | false => cases hsignal : r.signal?.isSome <;> simp [hstart, hsignal]

theorem alignmentOver_append (rs rs' : List Step) :
    alignmentOver (rs ++ rs') = (alignmentOver rs).or (alignmentOver rs') := by
  induction rs with
  | nil => rfl
  | cons r rs ih => rw [List.cons_append, alignmentOver_cons, alignmentOver_cons, ih, Option.or_assoc]

/-- Until the alignment is known, no significant token is read. -/
theorem signal?_eq_none_of_alignmentOver {rs : List Step} (h : alignmentOver rs = none) :
    ∀ r ∈ rs, r.signal? = none := by
  induction rs with
  | nil => exact fun r hr => absurd hr List.not_mem_nil
  | cons r rs ih =>
    rw [alignmentOver_cons, Option.or_eq_none_iff, Step.decides?] at h
    obtain ⟨hdecides, hrest⟩ := h
    refine List.forall_mem_cons.2 ⟨?_, ih hrest⟩
    cases hsignal : r.signal? with
    | none => rfl
    | some signal =>
      rw [hsignal] at hdecides
      split at hdecides <;> cases hdecides

/-- A run goes on behind each of its steps. -/
theorem Reads.behind {c c' : Cursor} {s s' : State} {early late : List Step} {r : Step}
    (h : m.Reads c s (early ++ r :: late) c' s') : m.Reads r.cursor r.state late c' s' := by
  generalize hrs : early ++ r :: late = rs at h
  induction h generalizing early with
  | stop c s => cases early <;> cases hrs
  | step _ hreads ih =>
    cases early with
    | nil =>
      cases hrs
      exact hreads
    | cons x early =>
      cases hrs
      exact ih rfl
  | newLine line _ _ ih => exact ih hrs

theorem Reads.regular {c c' : Cursor} {s s' : State} {rs : List Step} (h : m.Reads c s rs c' s')
    (hs : s.Regular) : s'.Regular := by
  induction h with
  | stop c s => exact hs
  | step _ _ ih => exact ih (hs.step m _)
  | newLine line _ _ ih => exact ih hs

/-- Behind the end of a line no token decides an alignment before a line starts. -/
theorem Reads.alignmentOver_ne {c c' : Cursor} {s s' : State} {rs : List Step}
    (h : m.Reads c s rs c' s') (hc : c.rest = [] ∨ c.atLineStart = true) :
    alignmentOver rs ≠ some true := by
  induction h with
  | stop c s => exact nofun
  | @step c c' s s' rs hrest _ _ =>
    rcases hc with hend | hstart
    · exact absurd hend hrest
    · rw [alignmentOver_cons, Step.decides?, startsLine_step, if_pos hstart]
      exact nofun
  | newLine line _ _ ih => exact ih (.inr rfl)

/-- Over the steps the level stands on the levels `below`, aligned as `aligned` says and else as the steps
decide. -/
def Stays (l : Level) (below : List Level) (aligned : Option Bool) (rs : List Step) : Prop :=
  ∀ early r late, rs = early ++ r :: late →
    r.state.nesting.HasLevel { l with aligned := aligned.or (alignmentOver (early ++ [r])) } below

theorem Stays.cons {l : Level} {below : List Level} {aligned : Option Bool} {r : Step} {rs : List Step}
    (hr : r.state.nesting.HasLevel { l with aligned := aligned.or r.decides? } below)
    (h : Stays l below (aligned.or r.decides?) rs) : Stays l below aligned (r :: rs) := by
  rintro (_ | ⟨x, early⟩) r' late heq
  · cases heq
    rwa [List.nil_append, alignmentOver_cons, show alignmentOver [] = none from rfl, Option.or_none]
  · obtain ⟨rfl, hrs⟩ := List.cons.inj heq
    have hstands := h early r' late hrs
    rwa [Option.or_assoc, ← alignmentOver_cons] at hstands

/-- A level that stands at the end of a run stood at its start and through all of it, or a step of the run
opened it and it stood since. -/
theorem Reads.hasLevel {c c' : Cursor} {s s' : State} {rs : List Step} (h : m.Reads c s rs c' s')
    (hs : s.Regular) {l : Level} {below : List Level} (hl : s'.nesting.HasLevel l below) :
    (∃ aligned, s.nesting.HasLevel { l with aligned := aligned } below ∧ Stays l below aligned rs ∧
      l.aligned = aligned.or (alignmentOver rs)) ∨
    ∃ before c₁ s₁ since, rs = before ++ m.step c₁ s₁ :: since ∧ m.Reads c s before c₁ s₁ ∧
      c₁.rest ≠ [] ∧ (m.step c₁ s₁).signal?.isSome = true ∧
      (m.step c₁ s₁).state.nesting =
        ((s₁.enter c₁).nesting.settle true).push { l with aligned := none } ∧
      ((s₁.enter c₁).nesting.settle true).inner = below ∧
      Stays l below none since ∧ l.aligned = alignmentOver since := by
  induction h with
  | stop c s =>
    refine .inl ⟨l.aligned, hl, fun early r late heq => ?_, (Option.or_none ..).symm⟩
    cases early <;> cases heq
  | @step c c' s s' rs hrest hreads ih =>
    -- the level stood behind the first step already, or a later one opened it
    rcases ih (hs.step m c) hl with ⟨aligned, hstep, hstays, heq⟩ |
      ⟨before, c₁, s₁, since, rfl, hbefore, hopened⟩
    · rcases hasLevel_step hs hstep with ⟨aligned', hstart, hdecides⟩ | ⟨htoken, hunknown, hpushed, hbelow⟩
      · obtain rfl : aligned = aligned'.or (m.step c s).decides? := hdecides
        refine .inl ⟨aligned', hstart, hstays.cons hstep, ?_⟩
        rw [heq, alignmentOver_cons, Option.or_assoc]
      · obtain rfl : aligned = none := hunknown
        exact .inr ⟨[], c, s, rs, rfl, .stop c s, hrest, htoken, hpushed, hbelow, hstays, heq⟩
    · exact .inr ⟨_ :: before, c₁, s₁, since, rfl, .step hrest hbefore, hopened⟩
  | newLine line hrest _ ih =>
    rcases ih hs hl with hkept | ⟨before, c₁, s₁, since, rfl, hbefore, hopened⟩
    · exact .inl hkept
    · exact .inr ⟨before, c₁, s₁, since, rfl, .newLine line hrest hbefore, hopened⟩

/-! ## Levels and lines -/

/-- The step ends its line in code with the level innermost, so that the next line starts there. -/
structure Step.LeadsInto (r : Step) (l : Level) (below : List Level) : Prop where
  lineEnd : r.cursor.rest = []
  code : r.state.region = .code
  innermost : ∃ aligned, r.state.nesting.inner = { l with aligned := aligned } :: below

/-- What becomes of a level from the step at a cursor in a state, which opens it, through the steps since. -/
structure History (m : Mode) (l : Level) (below : List Level) (c : Cursor) (s : State)
    (since : List Step) : Prop where
  /-- A significant token opens the level, on the levels below it. -/
  token : (m.step c s).signal?.isSome = true
  opened : (m.step c s).state.nesting = ((s.enter c).nesting.settle true).push { l with aligned := none }
  place : ((s.enter c).nesting.settle true).inner = below
  /-- Behind every step since, the level stands where it was opened, and it is what it was but for its
  alignment. -/
  stays : ∀ early r late, since = early ++ r :: late → ∃ above, r.state.nesting.inner =
    above ++ { l with aligned := alignmentOver (early ++ [r]) } :: below
  aligned : l.aligned = alignmentOver since
  /-- An alignment that is known does not change. -/
  known : ∀ early late b, alignmentOver early = some b → alignmentOver (early ++ late) = some b
  /-- As long as the alignment is unknown, no significant token stands behind the opener. -/
  last : l.aligned = none → ∀ r ∈ since, r.signal? = none
  /-- All lines that start in code with the level innermost are indented alike. -/
  indent : ∀ r ∈ m.step c s :: since, ∀ r' ∈ m.step c s :: since, r.LeadsInto l below →
    r'.LeadsInto l below → ∀ text, m.indent r.state text = m.indent r'.state text

theorem Step.LeadsInto.indent_eq {r r' : Step} {l : Level} {below : List Level} (h : r.LeadsInto l below)
    (h' : r'.LeadsInto l below)
    (haligned : r.state.nesting.top.aligned = some true ↔ r'.state.nesting.top.aligned = some true)
    (text : List Char) : m.indent r.state text = m.indent r'.state text := by
  have htop {r : Step} (h : r.LeadsInto l below) :
      ∃ aligned, r.state.nesting.top = { l with aligned := aligned } := by
    obtain ⟨aligned, hinner⟩ := h.innermost
    exact ⟨aligned, by rw [Nesting.top, hinner, List.headD_cons]⟩
  obtain ⟨aligned, hl⟩ := htop h
  obtain ⟨aligned', hl'⟩ := htop h'
  have hproposal := Nesting.proposal_congr (by rw [hl, hl']) (by rw [hl, hl']) (by rw [hl, hl']) haligned
    (trimLeading text).head? m.indentUnit
  simp only [Mode.indent, State.inLiteral, h.code, h'.code, Nesting.indentation, hproposal]

/-- A line that starts with the level innermost starts with it aligned just if it is aligned in the end. -/
theorem Stays.aligned_iff {opener r : Step} {l : Level} {below : List Level} {since : List Step}
    {c : Cursor} {s : State} (hreads : m.Reads opener.cursor opener.state since c s)
    (hopened : opener.state.nesting.inner = { l with aligned := none } :: below)
    (hstays : Stays l below none since) (hl : l.aligned = alignmentOver since) (hr : r ∈ opener :: since)
    (h : r.LeadsInto l below) : r.state.nesting.top.aligned = some true ↔ l.aligned = some true := by
  rcases List.mem_cons.1 hr with rfl | hr
  · -- behind the opener the alignment is unknown, and no token of its line can decide it any more
    have hne := hreads.alignmentOver_ne (.inl h.lineEnd)
    rw [Nesting.top, hopened, List.headD_cons, hl]
    simp [hne]
  · obtain ⟨early, late, rfl⟩ := List.append_of_mem hr
    obtain ⟨above, habove⟩ := hstays early r late rfl
    obtain ⟨aligned, hinner⟩ := h.innermost
    have hnone : above = [] := by
      have hlength := congrArg List.length (habove.symm.trans hinner)
      simp only [List.length_append, List.length_cons] at hlength
      exact List.length_eq_zero_iff.1 (by omega)
    have hne := hreads.behind.alignmentOver_ne (.inl h.lineEnd)
    rw [List.append_cons, alignmentOver_append] at hl
    rw [Nesting.top, habove, hnone, List.nil_append, List.headD_cons, Option.none_or, hl]
    cases alignmentOver (early ++ [r]) with
    | none => simp [hne]
    | some b => simp

/-- At any place in a text that is read from a base column, every level but the root has a history: a token
opened it and nothing but its alignment changed since. It is aligned if a significant token followed on the
line of its opener, else it is not if another line was started, and else that is unknown, which it is of the
innermost level alone. -/
theorem exists_history (m : Mode) {base : Nat} {rs : List Step} {c : Cursor} {s : State}
    (h : m.Reads (m.cursor []) (m.start base) rs c s) {above below : List Level} {l : Level}
    (hl : s.nesting.inner = above ++ l :: below) :
    (∃ before c₁ s₁ since, rs = before ++ m.step c₁ s₁ :: since ∧
      m.Reads (m.cursor []) (m.start base) before c₁ s₁ ∧ c₁.rest ≠ [] ∧
      m.Reads (m.step c₁ s₁).cursor (m.step c₁ s₁).state since c s ∧ m.History l below c₁ s₁ since) ∧
    (l.aligned = none → above = []) := by
  have hstart := State.regular_start m base
  refine ⟨?_, fun hunknown => ?_⟩
  · rcases h.hasLevel hstart ⟨above, hl⟩ with ⟨aligned, ⟨above', hroot⟩, -⟩ |
      ⟨before, c₁, s₁, since, rfl, hbefore, hrest, htoken, hopened, hbelow, hstays, haligned⟩
    · -- nothing but the root stands at the start
      have hnil : (m.start base).nesting.inner = [] := rfl
      rw [hnil] at hroot
      cases above' <;> cases hroot
    · have hsince := h.behind
      have hinner : (m.step c₁ s₁).state.nesting.inner = { l with aligned := none } :: below := by
        rw [hopened, Nesting.push, hbelow]
      refine ⟨before, c₁, s₁, since, rfl, hbefore, hrest, hsince, htoken, hopened, hbelow, hstays, haligned,
        ?_, ?_, ?_⟩
      · intro early late b hknown
        rw [alignmentOver_append, hknown, Option.some_or]
      · intro hunknown
        exact signal?_eq_none_of_alignmentOver (haligned.symm.trans hunknown)
      · intro r hr r' hr' hleads hleads' text
        refine hleads.indent_eq hleads' ?_ text
        rw [Stays.aligned_iff hsince hinner hstays haligned hr hleads,
          Stays.aligned_iff hsince hinner hstays haligned hr' hleads']
  · by_contra habove
    have hknown := ((h.regular hstart).decided false).aligned_isSome hl habove
    rw [hunknown] at hknown
    cases hknown

/-- In `(x` the parenthesis is aligned, for a word follows on its line. -/
theorem exists_history_paren :
    let opener := bare.step (bare.cursor ['(', 'x']) (bare.start 0)
    let word := bare.step opener.cursor opener.state
    let l : Level := ⟨0, 0, .bracket .paren, some true⟩
    bare.Reads (bare.cursor []) (bare.start 0) [opener, word] word.cursor word.state ∧
      word.state.nesting.inner = [] ++ l :: [] ∧
      ∃ c s since, (bare.step c s).signal?.isSome = true ∧ alignmentOver since = some true := by
  intro opener word l
  have hreads : bare.Reads (bare.cursor []) (bare.start 0) [opener, word] word.cursor word.state :=
    .newLine _ rfl (.step (by decide) (.step (by decide +kernel) (.stop _ _)))
  have hl : word.state.nesting.inner = [] ++ l :: [] := by decide +kernel
  obtain ⟨⟨before, c, s, since, -, -, -, -, hhistory⟩, -⟩ := bare.exists_history hreads hl
  exact ⟨hreads, hl, c, s, since, hhistory.token, hhistory.aligned.symm⟩

end Mode

end ShaderText
