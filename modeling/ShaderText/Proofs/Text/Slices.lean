/-
Slices of a text by byte offsets. A text is cut at the boundaries between its characters and nowhere else, so
there is a slice between two offsets just if both are boundaries and the first is not behind the second; it is
the text between them.
-/
import ShaderText.Proofs.Text.Columns

namespace ShaderText

/-! ## Cuts -/

/-- A text cut at a byte offset; there is no cut inside a character or past the end. -/
def cutAt? : List Char → Nat → Option (List Char × List Char)
  | cs, 0 => some ([], cs)
  | [], _ + 1 => none
  | c :: cs, n + 1 =>
    if c.utf8Size ≤ n + 1 then
      (cutAt? cs (n + 1 - c.utf8Size)).map fun (front, back) => (c :: front, back)
    else none

theorem cutAt?_byteLength (front back : List Char) :
    cutAt? (front ++ back) (byteLength front) = some (front, back) := by
  induction front with
  | nil => cases back <;> rfl
  | cons c front ih =>
    have hpos := c.utf8Size_pos
    obtain ⟨n, hn⟩ : ∃ n, byteLength (c :: front) = n + 1 := ⟨byteLength (c :: front) - 1, by
      simp only [byteLength]; omega⟩
    have hle : c.utf8Size ≤ n + 1 := by
      rw [← hn, byteLength]; omega
    have hrest : n + 1 - c.utf8Size = byteLength front := by
      rw [← hn, byteLength]; omega
    rw [hn, List.cons_append, cutAt?, if_pos hle, hrest, ih]
    rfl

theorem eq_append_of_cutAt? {cs front back : List Char} {n : Nat} (h : cutAt? cs n = some (front, back)) :
    cs = front ++ back ∧ n = byteLength front := by
  induction cs generalizing n front with
  | nil =>
    cases n with
    | zero => cases h; exact ⟨rfl, rfl⟩
    | succ n => cases h
  | cons c cs ih =>
    cases n with
    | zero => cases h; exact ⟨rfl, rfl⟩
    | succ n =>
      rw [cutAt?] at h
      split at h
      · rename_i hle
        obtain ⟨⟨front', back'⟩, hcut, hparts⟩ := Option.map_eq_some_iff.1 h
        cases hparts
        obtain ⟨rfl, hn⟩ := ih hcut
        refine ⟨rfl, ?_⟩
        rw [byteLength]; omega
      · cases h

/-- A text can be cut just between two of its characters and at its ends. -/
theorem isBoundary_iff_isSome_cutAt? {cs : List Char} {offset : Nat} :
    IsBoundary cs offset ↔ (cutAt? cs offset).isSome = true := by
  constructor
  · rintro ⟨front, back, rfl, rfl⟩
    rw [cutAt?_byteLength]
    rfl
  · intro h
    obtain ⟨⟨front, back⟩, hcut⟩ := Option.isSome_iff_exists.1 h
    exact ⟨front, back, eq_append_of_cutAt? hcut⟩

instance (cs : List Char) (offset : Nat) : Decidable (IsBoundary cs offset) :=
  decidable_of_iff _ isBoundary_iff_isSome_cutAt?.symm

/-! ## Reading some bytes -/

theorem charsBefore_of_byteLength_le {cs : List Char} {bytes : Nat} (h : byteLength cs ≤ bytes) :
    charsBefore cs bytes = cs := by
  induction cs generalizing bytes with
  | nil => rfl
  | cons c cs ih =>
    have hpos := c.utf8Size_pos
    rw [byteLength] at h
    rw [charsBefore, if_neg (by omega), ih (by omega)]

/-- The bytes of some whole characters hold just these, and more bytes than a text has hold it all. -/
theorem charsBefore_of_min_eq {front back : List Char} {bytes : Nat}
    (h : min bytes (byteLength (front ++ back)) = byteLength front) : charsBefore (front ++ back) bytes = front := by
  by_cases hle : byteLength (front ++ back) ≤ bytes
  · rw [charsBefore_of_byteLength_le hle]
    cases back with
    | nil => exact List.append_nil front
    | cons c back =>
      have hpos := c.utf8Size_pos
      rw [Nat.min_eq_right hle, byteLength_append, byteLength] at h
      omega
  · rw [Nat.min_eq_left (by omega)] at h
    rw [h, charsBefore_byteLength]

/-! ## Slices -/

/-- The part of a text between two byte offsets; there is none unless both are boundaries and the first is not
behind the second. -/
def slice? (cs : List Char) (start stop : Nat) : Option (List Char) := do
  let (front, _) ← cutAt? cs stop
  let (_, piece) ← cutAt? front start
  some piece

theorem slice?_byteLength (front piece back : List Char) :
    slice? (front ++ piece ++ back) (byteLength front) (byteLength (front ++ piece)) = some piece := by
  unfold slice?
  rw [cutAt?_byteLength]
  show (cutAt? (front ++ piece) (byteLength front)).bind _ = some piece
  rw [cutAt?_byteLength]
  rfl

/-- A slice is the text between its two offsets. -/
theorem slice?_eq_some_iff {cs piece : List Char} {start stop : Nat} :
    slice? cs start stop = some piece ↔
      ∃ front back, cs = front ++ piece ++ back ∧ start = byteLength front ∧
        stop = byteLength (front ++ piece) := by
  constructor
  · intro h
    unfold slice? at h
    obtain ⟨⟨front, back⟩, hstop, h⟩ := Option.bind_eq_some_iff.1 h
    obtain ⟨⟨front', piece'⟩, hstart, h⟩ := Option.bind_eq_some_iff.1 h
    cases h
    obtain ⟨rfl, rfl⟩ := eq_append_of_cutAt? hstop
    obtain ⟨rfl, rfl⟩ := eq_append_of_cutAt? hstart
    exact ⟨front', back, rfl, rfl, rfl⟩
  · rintro ⟨front, back, rfl, rfl, rfl⟩
    exact slice?_byteLength front piece back

/-- There is a slice just between two boundaries in order. -/
theorem isSome_slice?_iff {cs : List Char} {start stop : Nat} :
    (slice? cs start stop).isSome = true ↔ IsBoundary cs start ∧ IsBoundary cs stop ∧ start ≤ stop := by
  constructor
  · intro h
    obtain ⟨piece, hpiece⟩ := Option.isSome_iff_exists.1 h
    obtain ⟨front, back, rfl, rfl, rfl⟩ := slice?_eq_some_iff.1 hpiece
    refine ⟨⟨front, piece ++ back, List.append_assoc .., rfl⟩, ⟨front ++ piece, back, rfl, rfl⟩, ?_⟩
    rw [byteLength_append]; omega
  · rintro ⟨⟨front, back, rfl, rfl⟩, ⟨front', back', hcs, rfl⟩, hle⟩
    rcases List.append_eq_append_iff.1 hcs with ⟨piece, rfl, rfl⟩ | ⟨more, rfl, rfl⟩
    · rw [← List.append_assoc, slice?_byteLength]
      rfl
    · -- the second cut is not behind the first, so nothing lies between them
      cases more with
      | nil =>
        have hslice := slice?_byteLength front' [] back
        simp only [List.append_nil] at hslice ⊢
        rw [hslice]
        rfl
      | cons c more =>
        have hpos := c.utf8Size_pos
        rw [byteLength_append, byteLength] at hle
        omega

end ShaderText
