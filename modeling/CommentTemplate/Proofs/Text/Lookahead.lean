import CommentTemplate.Proofs.Text.Digits
import CommentTemplate.Tag.Form

/-!
# How far a piece looks ahead

A text is scanned more than once: the body of a block is cut out and scanned again, and so is
what follows the block.  That this finds the same tags rests on how little of the text a piece
looks at.  A tag looks at nothing behind what it reads, and where two pieces are tried one after
the other the first character decides which of them can read.

## Main definitions

* `Piece.Closed` — a reading does not depend on what follows it
* `Piece.StartsWith` — what a piece reads begins with a character of some class

## Main statements

* `Piece.run_map`, `Piece.run_andThen` — the readings of composed pieces
* `Piece.StartsWith.run_eq_none` — pieces that begin with different characters
* `run_keywordDelimiter_eq_none` — where a bracket is read there is no keyword
-/

namespace CommentTemplate

namespace Piece

variable {α β : Type}

/-- A reading is the same whatever follows it. -/
def Closed (p : Piece α) : Prop :=
  ∀ ⦃s a raw rest⦄, p.run s = some (a, raw, rest) → ∀ u : Text, p.run (raw ++ u) = some (a, raw, u)

/-- Nothing is read unless a character of the class comes first. -/
def StartsWith (p : Piece α) (first : Char → Prop) : Prop :=
  ∀ ⦃s r⦄, p.run s = some r → ∃ c t, s = c :: t ∧ first c

/-! ## Readings of composed pieces -/

/-- The readings of a piece whose reading is given another meaning. -/
theorem run_map {p : Piece α} {f : α → β} {s raw rest : Text} {b : β} :
    (p.map f).run s = some (b, raw, rest) ↔ ∃ a, p.run s = some (a, raw, rest) ∧ f a = b := by
  simp only [Piece.map, Option.map_eq_some_iff, Prod.exists, Prod.mk.injEq]
  constructor
  · rintro ⟨a, _, _, h, rfl, rfl, rfl⟩
    exact ⟨a, h, rfl⟩
  · rintro ⟨a, h, rfl⟩
    exact ⟨a, raw, rest, h, rfl, rfl, rfl⟩

/-- The two readings of a sequence. -/
theorem run_andThen {p : Piece α} {q : Piece β} {s : Text} {c : α × β} {raw rest : Text} :
    (p.andThen q).run s = some (c, raw, rest) ↔ ∃ w t w', p.run s = some (c.1, w, t) ∧
      q.run t = some (c.2, w', rest) ∧ raw = w ++ w' := by
  obtain ⟨a, b⟩ := c
  simp only [andThen, Option.bind_eq_bind, Option.bind_eq_some_iff, Prod.exists, Option.some.injEq,
    Prod.mk.injEq]
  constructor
  · rintro ⟨a', w, t, hp, b', w', t', hq, ⟨rfl, rfl⟩, rfl, rfl⟩
    exact ⟨w, t, w', hp, hq, rfl⟩
  · rintro ⟨w, t, w', hp, hq, rfl⟩
    exact ⟨a, w, t, hp, b, w', rest, hq, ⟨rfl, rfl⟩, rfl, rfl⟩

theorem run_optional_of_some {p : Piece α} {s raw rest : Text} {a : α}
    (h : p.run s = some (a, raw, rest)) : (optional p).run s = some (some a, raw, rest) := by
  simp [optional, h]

theorem run_optional_of_none {p : Piece α} {s : Text} (h : p.run s = none) :
    (optional p).run s = some (none, [], s) := by
  simp [optional, h]

/-! ## The first character -/

theorem startsWith_exact (c : Char) (w : Text) : (exact (c :: w)).StartsWith (· = c) := by
  intro s r h
  simp only [exact, Option.ite_none_right_eq_some] at h
  obtain ⟨t, rfl⟩ := List.isPrefixOf_iff_prefix.1 h.1
  exact ⟨c, w ++ t, rfl, rfl⟩

theorem startsWith_keyword (c : Char) (w : Text) :
    (keyword (c :: w)).StartsWith (fun d => d.toLower = c) := by
  intro s r h
  simp only [keyword, Option.ite_none_right_eq_some] at h
  obtain ⟨hs, -⟩ := h
  cases s with
  | nil => simp at hs
  | cons d s =>
    simp only [List.length_cons, List.take_succ_cons, List.map_cons, List.cons.injEq] at hs
    exact ⟨d, s, rfl, hs.1⟩

theorem StartsWith.map {p : Piece α} {first : Char → Prop} (h : p.StartsWith first) (f : α → β) :
    (p.map f).StartsWith first := by
  intro s r hs
  obtain ⟨q, hq, -⟩ := Option.map_eq_some_iff.1 hs
  exact h hq

theorem StartsWith.andThen {p : Piece α} {first : Char → Prop} (h : p.StartsWith first)
    (q : Piece β) : (p.andThen q).StartsWith first := by
  rintro s ⟨c, raw, rest⟩ hs
  obtain ⟨w, t, w', hw, -, -⟩ := run_andThen.1 hs
  exact h hw

theorem StartsWith.orElse {p q : Piece α} {first second : Char → Prop} (hp : p.StartsWith first)
    (hq : q.StartsWith second) : (p.orElse q).StartsWith (fun c => first c ∨ second c) := by
  intro s r hs
  rcases Option.or_eq_some_iff.1 hs with hs | ⟨-, hs⟩
  · obtain ⟨c, t, rfl, hc⟩ := hp hs
    exact ⟨c, t, rfl, .inl hc⟩
  · obtain ⟨c, t, rfl, hc⟩ := hq hs
    exact ⟨c, t, rfl, .inr hc⟩

/-- Pieces that begin with characters of different classes never read the same text. -/
theorem StartsWith.run_eq_none {p q : Piece α} {first second : Char → Prop}
    (hp : p.StartsWith first) (hq : q.StartsWith second) (h : ∀ c, first c → ¬second c) (s : Text)
    (r : α × Text × Text) (hs : q.run s = some r) : p.run s = none := by
  rw [Option.eq_none_iff_forall_ne_some]
  intro r' hs'
  obtain ⟨c, t, rfl, hc⟩ := hp hs'
  obtain ⟨d, t', heq, hd⟩ := hq hs
  cases heq
  exact h c hc hd

end Piece

open Piece

/-! ## Tags -/

/-- A comment tag begins with an angle bracket. -/
theorem startsWith_commentTag {α : Type} (content : Piece α) :
    (commentTag content).StartsWith (· = '<') :=
  ((startsWith_exact '<' "!--".toList).andThen _).map Prod.snd

theorem startsWith_keyworded {α : Type} (c : Char) (word : Text) (p : Piece α) :
    (keyworded (c :: word) p).StartsWith (fun d => d.toLower = c) :=
  ((startsWith_keyword c word).andThen _).map _

/-- Of two words that begin with different letters at most one is read. -/
theorem run_eq_none_of_letter {α : Type} {p q : Piece α} {c d : Char} (hcd : c ≠ d)
    (hp : p.StartsWith fun e => e.toLower = c) (hq : q.StartsWith fun e => e.toLower = d) (s : Text)
    (r : α × Text × Text) (hs : q.run s = some r) : p.run s = none :=
  hp.run_eq_none hq (fun _ hc hd => hcd (hc.symm.trans hd)) s r hs

/-- A word begins with `b` or `e`, and a name in brackets does not. -/
theorem run_keywordDelimiter_eq_none (s : Text) (r : Delimiter × Text × Text)
    (hs : bracketDelimiter.run s = some r) : keywordDelimiter.run s = none := by
  refine StartsWith.run_eq_none
    (((startsWith_keyworded 'b' "egin".toList _).map _).orElse
      ((startsWith_keyworded 'e' "nd".toList _).map _))
    ((((startsWith_exact '[' []).andThen _).andThen _).map _) ?_ s r hs
  rintro c hc rfl
  revert hc
  decide

end CommentTemplate
