import CommentTemplate.Text.Blank

/-!
# Pieces of a text

A piece recognises something at the start of a text and splits the text there: it answers what it
read, the characters it read it from, and the rest.  Tags are built from pieces by sequence,
choice and option.

## Design decisions

**The split is part of the type.**  A piece carries the proof that its spelling and the rest make
up the text (`Piece.splits`).  Every scanner built from pieces therefore loses nothing, whatever
the pieces are.

**No backtracking.**  A run of characters takes all it can.  In every form used by this library
the character after a run is outside the run's class, so a shorter run could not be continued and
the first answer is the only one.

**A recogniser reads something.**  `Recognizer` is a piece whose spelling is never empty, which is
what a scanner needs to advance.
-/

namespace CommentTemplate

/-- A reader of something at the start of a text: what was read, its spelling and the rest. -/
structure Piece (α : Type) where
  /-- The reading function. -/
  run : Text → Option (α × Text × Text)
  /-- The spelling and the rest make up the text. -/
  splits : ∀ {s a raw rest}, run s = some (a, raw, rest) → raw ++ rest = s

namespace Piece

variable {α β : Type}

/-- The characters of `w`, exactly. -/
def exact (w : Text) : Piece Unit where
  run s := if w.isPrefixOf s then some ((), w, s.drop w.length) else none
  splits := by
    intro s a raw rest h
    simp only [Option.ite_none_right_eq_some, Option.some.injEq, Prod.mk.injEq] at h
    obtain ⟨hp, -, rfl, rfl⟩ := h
    obtain ⟨t, rfl⟩ := List.isPrefixOf_iff_prefix.1 hp
    simp

/-- The word `w`, given in lower case, its letters in either ASCII case. -/
def keyword (w : Text) : Piece Unit where
  run s :=
    if (s.take w.length).map Char.toLower = w then some ((), s.take w.length, s.drop w.length)
    else none
  splits := by
    intro s a raw rest h
    simp only [Option.ite_none_right_eq_some, Option.some.injEq, Prod.mk.injEq] at h
    obtain ⟨-, -, rfl, rfl⟩ := h
    exact List.take_append_drop ..

/-- One character of the class `p`. -/
def one (p : Char → Bool) : Piece Char where
  run
    | [] => none
    | c :: s => if p c then some (c, [c], s) else none
  splits := by
    intro s a raw rest h
    cases s with
    | nil => simp at h
    | cons c s =>
      simp only [Option.ite_none_right_eq_some, Option.some.injEq, Prod.mk.injEq] at h
      obtain ⟨-, -, rfl, rfl⟩ := h
      rfl

/-- All leading characters of the class `p`, possibly none. -/
def many (p : Char → Bool) : Piece Text where
  run s := some (s.takeWhile p, s.takeWhile p, s.dropWhile p)
  splits := by
    intro s a raw rest h
    simp only [Option.some.injEq, Prod.mk.injEq] at h
    obtain ⟨-, rfl, rfl⟩ := h
    exact List.takeWhile_append_dropWhile

/-- All leading characters of the class `p`, at least one. -/
def many1 (p : Char → Bool) : Piece Text where
  run s :=
    if s.takeWhile p = [] then none else some (s.takeWhile p, s.takeWhile p, s.dropWhile p)
  splits := by
    intro s a raw rest h
    simp only [Option.ite_none_left_eq_some, Option.some.injEq, Prod.mk.injEq] at h
    obtain ⟨-, -, rfl, rfl⟩ := h
    exact List.takeWhile_append_dropWhile

/-- One piece and then another. -/
def andThen (p : Piece α) (q : Piece β) : Piece (α × β) where
  run s := do
    let (a, raw, s) ← p.run s
    let (b, raw', s) ← q.run s
    some ((a, b), raw ++ raw', s)
  splits := by
    intro s a raw rest h
    simp only [Option.bind_eq_bind, Option.bind_eq_some_iff, Prod.exists, Option.some.injEq,
      Prod.mk.injEq] at h
    obtain ⟨a₁, raw₁, s₁, h₁, a₂, raw₂, s₂, h₂, -, rfl, rfl⟩ := h
    rw [List.append_assoc, q.splits h₂, p.splits h₁]

/-- The same piece with another reading of what was read. -/
def map (f : α → β) (p : Piece α) : Piece β where
  run s := (p.run s).map fun r => (f r.1, r.2.1, r.2.2)
  splits := by
    intro s a raw rest h
    simp only [Option.map_eq_some_iff, Prod.exists, Prod.mk.injEq] at h
    obtain ⟨a₁, raw₁, s₁, h₁, -, rfl, rfl⟩ := h
    exact p.splits h₁

/-- The first piece, or the second where the first reads nothing. -/
def orElse (p q : Piece α) : Piece α where
  run s := (p.run s).or (q.run s)
  splits := by
    intro s a raw rest h
    rcases Option.or_eq_some_iff.1 h with h | ⟨-, h⟩
    · exact p.splits h
    · exact q.splits h

/-- The piece if it is there. -/
def optional (p : Piece α) : Piece (Option α) where
  run s := match p.run s with
    | some (a, raw, rest) => some (some a, raw, rest)
    | none => some (none, [], s)
  splits := by
    intro s a raw rest h
    cases hp : p.run s with
    | none => simp_all
    | some r =>
      obtain ⟨a', raw', rest'⟩ := r
      simp only [hp, Option.some.injEq, Prod.mk.injEq] at h
      obtain ⟨-, rfl, rfl⟩ := h
      exact p.splits hp

/-- One or more blank characters. -/
def blanks : Piece Text := many1 isBlank

end Piece

/-- A piece that never reads the empty text. -/
structure Recognizer (α : Type) extends Piece α where
  /-- At least one character is read. -/
  nonempty : ∀ {s a raw rest}, run s = some (a, raw, rest) → raw ≠ []

namespace Recognizer

variable {α β : Type}

/-- A recogniser leaves less than it was given. -/
theorem rest_lt (r : Recognizer α) {s a raw rest} (h : r.run s = some (a, raw, rest)) :
    rest.length < s.length := by
  have hs := r.splits h
  have hn := List.length_pos_iff.2 (r.nonempty h)
  rw [← hs, List.length_append]
  omega

/-- An opening word that is not empty, and then any piece. -/
def opening (w : Text) (hw : w ≠ []) (p : Piece α) : Recognizer α where
  toPiece := ((Piece.exact w).andThen p).map Prod.snd
  nonempty := by
    intro s a raw rest h
    simp only [Piece.map, Piece.andThen, Piece.exact, Option.map_eq_some_iff, Option.bind_eq_bind,
      Option.bind_eq_some_iff, Prod.exists, Option.some.injEq, Prod.mk.injEq,
      Option.ite_none_right_eq_some] at h
    obtain ⟨_, _, _, _, ⟨_, _, _, ⟨-, -, rfl, -⟩, _, _, _, _, -, rfl, -⟩, -, rfl, -⟩ := h
    simp [hw]

end Recognizer

end CommentTemplate
