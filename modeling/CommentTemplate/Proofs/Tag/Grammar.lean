import CommentTemplate.Proofs.Tag.Rescan

/-!
# The grammar of tags

Each form of a tag is a language of texts.  The languages are given here without a word about how a
text is read, and the recognisers of `CommentTemplate.Tag.Form` read exactly these texts: of a text
from the beginning, the part that is in the language, and nothing if no part is.

A piece that repeats characters of a class reads as many as there are.  It reads the texts of its
language only where the class ends, so what follows it must not begin with such a character, and
each law about two pieces one behind the other asks for that.

## Main definitions

* `IncludeText` — the include tags, by the path
* `BlockEnd`, `ReplaceEnd` — what stands in the comment at an end of a block or a replacement tag
* `PlaceholderText` — the placeholders
* `Piece.Reads` — a piece reads the texts of a language, in front of texts of some kind

## Main statements

* `Piece.Reads.andThen`, `Piece.Reads.orElse`, `Piece.Reads.optional` — the languages of composed
  pieces
* `reads_includeTag`, `reads_blockDelimiter`, `reads_replaceDelimiter`, `reads_placeholderTag` —
  the recognisers read exactly their grammar
-/

namespace CommentTemplate

/-! ## Words -/

/-- One or more characters of a class. -/
def IsRun (p : Char → Bool) (t : Text) : Prop := t ≠ [] ∧ ∀ c ∈ t, p c = true

/-- The characters of a class end here. -/
def EndsRun (p : Char → Bool) (rest : Text) : Prop := ∀ c ∈ rest.head?, p c = false

/-- A lower-case word with its letters in either ASCII case. -/
def SpellsWord (word t : Text) : Prop := t.map Char.toLower = word

/-- A comment with some content that is set off by blanks on both sides. -/
inductive InComment {α : Type} (content : α → Text → Prop) (a : α) : Text → Prop where
  | intro {gap t gap' : Text} (hgap : IsRun isBlank gap) (ht : content a t)
    (hgap' : IsRun isBlank gap') :
    InComment content a ("<!--".toList ++ (gap ++ (t ++ (gap' ++ "-->".toList))))

/-- A keyword, blanks and what the keyword is about. -/
inductive Keyworded {α : Type} (word : Text) (about : α → Text → Prop) (a : α) : Text → Prop where
  | intro {w gap t : Text} (hw : SpellsWord word w) (hgap : IsRun isBlank gap) (ht : about a t) :
    Keyworded word about a (w ++ (gap ++ t))

/-- A run of characters as it is read. -/
def RunOf (p : Char → Bool) (a t : Text) : Prop := a = t ∧ IsRun p t

/-- An include tag with its path. -/
abbrev IncludeText : Text → Text → Prop :=
  InComment (Keyworded "include".toList (RunOf fun c => !isBlank c))

/-- The content of an end of a block, in the keyword style or in the bracket style. -/
inductive BlockEnd : Delimiter → Text → Prop where
  | keywordOpener {name t : Text} (h : Keyworded "begin".toList (RunOf isNameChar) name t) :
    BlockEnd ⟨.keyword, true, name⟩ t
  | keywordCloser {name t : Text} (h : Keyworded "end".toList (RunOf isNameChar) name t) :
    BlockEnd ⟨.keyword, false, name⟩ t
  | bracketOpener {name : Text} (h : IsRun isBracketNameChar name) :
    BlockEnd ⟨.bracket, true, name⟩ ('[' :: (name ++ [']']))
  | bracketCloser {name : Text} (h : IsRun isBracketNameChar name) :
    BlockEnd ⟨.bracket, false, name⟩ ('[' :: '/' :: (name ++ [']']))

/-- The content of an end of a replacement tag. -/
inductive ReplaceEnd : Delimiter → Text → Prop where
  | opener {name t : Text} (h : Keyworded "replace".toList (RunOf isNameChar) name t) :
    ReplaceEnd ⟨.replacement, true, name⟩ t
  | closer {t : Text} (h : SpellsWord "/replace".toList t) : ReplaceEnd ⟨.replacement, false, []⟩ t

/-- A name of a function: one character of a class and any more of another one. -/
inductive IsFunctionName : Text → Prop where
  | intro {c : Char} {t : Text} (hc : isFunctionStart c = true)
    (ht : ∀ d ∈ t, isFunctionChar d = true) : IsFunctionName (c :: t)

/-- The text of a placeholder. -/
inductive PlaceholderText : Placeholder → Text → Prop where
  | plain {name : Text} (h : IsRun isPlaceholderChar name) :
    PlaceholderText ⟨name, none⟩ ('{' :: (name ++ ['}']))
  | applied {name function : Text} (h : IsRun isPlaceholderChar name)
    (hfunction : IsFunctionName function) :
    PlaceholderText ⟨name, some function⟩ ('{' :: (name ++ ':' :: (function ++ ['}'])))

/-! ## What the words are made of -/

theorem IsRun.notMem {p : Char → Bool} {t : Text} {c : Char} (h : IsRun p t) (hc : p c = false) :
    c ∉ t := by
  intro hmem
  cases hc.symm.trans (h.2 c hmem)

/-- The characters of a word are known by their lower case. -/
theorem SpellsWord.notMem {word t : Text} {c : Char} (h : SpellsWord word t)
    (hc : c.toLower ∉ word) : c ∉ t :=
  fun hmem => hc (h ▸ List.mem_map_of_mem hmem)

theorem InComment.exists_content {α : Type} {content : α → Text → Prop} {a : α} {raw : Text}
    (h : InComment content a raw) : ∃ t, content a t := by
  obtain ⟨-, ht, -⟩ := h
  exact ⟨_, ht⟩

/-- The end of a block is no end of a replacement tag. -/
theorem BlockEnd.style_ne {d : Delimiter} {t : Text} (h : BlockEnd d t) :
    d.style ≠ .replacement := by
  cases h <;> nofun

theorem ReplaceEnd.style_eq {d : Delimiter} {t : Text} (h : ReplaceEnd d t) :
    d.style = .replacement := by
  cases h <;> rfl

/-! ## Readings -/

namespace Piece

variable {α β : Type} {p : Piece α} {q : Piece β} {L : α → Text → Prop} {M : β → Text → Prop}
  {F G : Text → Prop}

/-- In front of texts of some kind a piece reads exactly the texts of a language. -/
def Reads (p : Piece α) (L : α → Text → Prop) (F : Text → Prop) : Prop :=
  ∀ ⦃s a raw rest⦄, F rest → (p.run s = some (a, raw, rest) ↔ s = raw ++ rest ∧ L a raw)

theorem Reads.mono (h : p.Reads L F) (hG : ∀ rest, G rest → F rest) : p.Reads L G :=
  fun _ _ _ rest hrest => h (hG rest hrest)

theorem Reads.congr {L' : α → Text → Prop} (h : p.Reads L F) (hL : ∀ a t, L a t ↔ L' a t) :
    p.Reads L' F :=
  fun _ a raw _ hrest => (h hrest).trans (and_congr_right fun _ => hL a raw)

/-- What is read in front of every text is read the same whatever follows it. -/
theorem Reads.closed (h : p.Reads L fun _ => True) : p.Closed := by
  intro s a raw rest hs u
  obtain ⟨-, ha⟩ := (h trivial).1 hs
  exact (h trivial).2 ⟨rfl, ha⟩

theorem reads_exact (w : Text) (F : Text → Prop) : (exact w).Reads (fun _ t => t = w) F := by
  intro s a raw rest _
  simp only [exact, Option.ite_none_right_eq_some, Option.some.injEq, Prod.mk.injEq, true_and,
    List.isPrefixOf_iff_prefix]
  constructor
  · rintro ⟨⟨t, rfl⟩, rfl, rfl⟩
    simp
  · rintro ⟨rfl, rfl⟩
    simp

theorem reads_keyword (word : Text) (F : Text → Prop) :
    (keyword word).Reads (fun _ t => SpellsWord word t) F := by
  intro s a raw rest _
  simp only [keyword, Option.ite_none_right_eq_some, Option.some.injEq, Prod.mk.injEq, true_and]
  constructor
  · rintro ⟨h, rfl, rfl⟩
    exact ⟨(List.take_append_drop ..).symm, h⟩
  · rintro ⟨rfl, rfl⟩
    simp

theorem reads_one (p : Char → Bool) (F : Text → Prop) :
    (one p).Reads (fun c t => t = [c] ∧ p c = true) F := by
  intro s a raw rest _
  cases s with
  | nil => simp only [one, reduceCtorEq, false_iff]; rintro ⟨h, rfl, -⟩; cases h
  | cons c s =>
      simp only [one, Option.ite_none_right_eq_some, Option.some.injEq, Prod.mk.injEq]
      constructor
      · rintro ⟨hc, rfl, rfl, rfl⟩
        exact ⟨rfl, rfl, hc⟩
      · rintro ⟨h, rfl, hc⟩
        obtain ⟨rfl, rfl⟩ := List.cons.inj h
        exact ⟨hc, rfl, rfl, rfl⟩

theorem reads_many (p : Char → Bool) :
    (many p).Reads (fun a t => a = t ∧ ∀ c ∈ t, p c = true) (EndsRun p) := by
  intro s a raw rest hrest
  simp only [many, Option.some.injEq, Prod.mk.injEq]
  constructor
  · rintro ⟨rfl, rfl, rfl⟩
    exact ⟨List.takeWhile_append_dropWhile.symm, rfl, List.all_eq_true.1 List.all_takeWhile⟩
  · rintro ⟨rfl, rfl, ha⟩
    obtain ⟨htake, hdrop⟩ := Text.takeWhile_append_of_head ha hrest
    exact ⟨htake, htake, hdrop⟩

theorem reads_many1 (p : Char → Bool) : (many1 p).Reads (RunOf p) (EndsRun p) := by
  intro s a raw rest hrest
  have hmany := @reads_many p s a raw rest hrest
  simp only [many, Option.some.injEq, Prod.mk.injEq] at hmany
  simp only [many1, Option.ite_none_left_eq_some, Option.some.injEq, Prod.mk.injEq, hmany, RunOf,
    IsRun]
  constructor
  · rintro ⟨hne, rfl, rfl, ha⟩
    obtain ⟨htake, -⟩ := Text.takeWhile_append_of_head ha hrest
    exact ⟨rfl, rfl, htake ▸ hne, ha⟩
  · rintro ⟨rfl, rfl, hne, ha⟩
    obtain ⟨htake, -⟩ := Text.takeWhile_append_of_head ha hrest
    exact ⟨htake.symm ▸ hne, rfl, rfl, ha⟩

theorem Reads.map (h : p.Reads L F) (f : α → β) :
    (p.map f).Reads (fun b t => ∃ a, L a t ∧ f a = b) F := by
  intro s b raw rest hrest
  rw [run_map]
  simp only [h hrest, and_assoc, exists_and_left]

/-- The first piece has to read in front of what the second one reads. -/
theorem Reads.andThen (hp : p.Reads L F) (hq : q.Reads M G)
    (h : ∀ b t rest, M b t → G rest → F (t ++ rest)) :
    (p.andThen q).Reads (fun c t => ∃ w w', L c.1 w ∧ M c.2 w' ∧ t = w ++ w') G := by
  intro s c raw rest hrest
  rw [run_andThen]
  constructor
  · rintro ⟨w, t, w', hw, ht, rfl⟩
    obtain ⟨rfl, hM⟩ := (hq hrest).1 ht
    obtain ⟨rfl, hL⟩ := (hp (h _ _ _ hM hrest)).1 hw
    exact ⟨(List.append_assoc ..).symm, w, w', hL, hM, rfl⟩
  · rintro ⟨rfl, w, w', hL, hM, rfl⟩
    exact ⟨w, w' ++ rest, w', (hp (h _ _ _ hM hrest)).2 ⟨List.append_assoc .., hL⟩,
      (hq hrest).2 ⟨rfl, hM⟩, rfl⟩

/-- Of two pieces at most one reads. -/
theorem Reads.orElse {q : Piece α} {M : α → Text → Prop} (hp : p.Reads L F) (hq : q.Reads M F)
    (h : ∀ s r, q.run s = some r → p.run s = none) :
    (p.orElse q).Reads (fun a t => L a t ∨ M a t) F := by
  intro s a raw rest hrest
  rw [and_or_left, ← hp hrest, ← hq hrest, Piece.orElse, Option.or_eq_some_iff]
  exact or_congr_right ⟨fun hs => hs.2, fun hs => ⟨h _ _ hs, hs⟩⟩

/-- A piece that may be left out has to be there where it can be read. -/
theorem Reads.optional (hp : p.Reads L F) (h : ∀ rest, F rest → p.run rest = none) :
    p.optional.Reads (fun o t => o.elim (t = []) fun a => L a t) F := by
  intro s o raw rest hrest
  cases hs : p.run s with
  | none =>
      rw [run_optional_of_none hs, Option.some.injEq, Prod.mk.injEq, Prod.mk.injEq]
      cases o with
      | none =>
          constructor
          · rintro ⟨-, rfl, rfl⟩
            exact ⟨rfl, rfl⟩
          · rintro ⟨rfl, rfl⟩
            exact ⟨rfl, rfl, rfl⟩
      | some a =>
          simp only [reduceCtorEq, false_and, Option.elim_some, false_iff]
          intro h'
          cases hs.symm.trans ((hp hrest).2 h')
  | some r =>
      obtain ⟨a, w, t⟩ := r
      rw [run_optional_of_some hs, Option.some.injEq, Prod.mk.injEq, Prod.mk.injEq]
      cases o with
      | none =>
          simp only [reduceCtorEq, false_and, Option.elim_none, false_iff]
          rintro ⟨rfl, rfl⟩
          cases hs.symm.trans (h _ hrest)
      | some b => simp [Option.elim_some, ← hp hrest, hs]

/-- A piece that begins with some character reads nothing where another character stands. -/
theorem StartsWith.run_eq_none_of_endsRun {c : Char} {rest : Text} (h : p.StartsWith (· = c))
    (hrest : EndsRun (· = c) rest) : p.run rest = none := by
  rw [Option.eq_none_iff_forall_ne_some]
  intro r hr
  obtain ⟨_, t, rfl, rfl⟩ := h hr
  simpa using hrest _ rfl

end Piece

open Piece

/-- The spellings of a tag are its texts. -/
theorem Recognizer.isSpelling_iff {α : Type} {r : Recognizer α} {L : α → Text → Prop}
    (hr : r.Reads L fun _ => True) {tag : α} {raw : Text} : r.IsSpelling tag raw ↔ L tag raw :=
  (hr trivial).trans (by simp)

section Tags

variable {α : Type} {p content : Piece α} {L : α → Text → Prop} {F : Text → Prop}

/-- A text that begins with a blank. -/
def BlankFirst (t : Text) : Prop := ∃ c rest, t = c :: rest ∧ isBlank c = true

theorem IsRun.blankFirst {gap : Text} (h : IsRun isBlank gap) (rest : Text) :
    BlankFirst (gap ++ rest) := by
  obtain ⟨c, gap, rfl⟩ := List.exists_cons_of_ne_nil h.1
  exact ⟨c, gap ++ rest, rfl, h.2 c List.mem_cons_self⟩

theorem reads_keyworded (word : Text) (hp : p.Reads L F)
    (hhead : ∀ a t rest, L a t → EndsRun isBlank (t ++ rest)) :
    (keyworded word p).Reads (Keyworded word L) F := by
  have habout := (reads_many1 isBlank).andThen hp fun a t rest ht _ => hhead a t rest ht
  have hword := ((reads_keyword word fun _ => True).andThen habout fun _ _ _ _ _ => trivial).map
    fun r => r.2.2
  refine hword.congr fun a t => ⟨?_, ?_⟩
  · rintro ⟨⟨_, _, a⟩, ⟨w, _, hw, ⟨gap, t, ⟨-, hgap⟩, ht, rfl⟩, rfl⟩, rfl⟩
    exact .intro hw hgap ht
  · rintro ⟨hw, hgap, ht⟩
    exact ⟨((), _, a), ⟨_, _, hw, ⟨_, _, ⟨rfl, hgap⟩, ht, rfl⟩, rfl⟩, rfl⟩

theorem reads_commentTag (h : content.Reads L BlankFirst)
    (hhead : ∀ a t rest, L a t → EndsRun isBlank (t ++ rest)) :
    (commentTag content).Reads (InComment L) fun _ => True := by
  have hend := (reads_many1 isBlank).andThen (reads_exact "-->".toList fun _ => True)
    fun _ t rest ht _ => by
      subst ht
      rintro c ⟨⟩
      decide
  have hcontent := (reads_many1 isBlank).andThen h fun a t rest ht _ => hhead a t rest ht
  have hinside := (hcontent.andThen hend (by
    rintro _ t rest ⟨gap, _, ⟨-, hgap⟩, -, rfl⟩ -
    rw [List.append_assoc]
    exact hgap.blankFirst _)).map fun r => r.1.2
  have htag := ((reads_exact "<!--".toList fun _ => True).andThen hinside
    fun _ _ _ _ _ => trivial).map Prod.snd
  refine htag.congr fun a t => ⟨?_, ?_⟩
  · rintro ⟨⟨_, _⟩, ⟨_, _, rfl, ⟨⟨⟨_, _⟩, _, _⟩, ⟨_, _, ⟨gap, t, ⟨-, hgap⟩, ht, rfl⟩,
      ⟨gap', _, ⟨-, hgap'⟩, rfl, rfl⟩, rfl⟩, rfl⟩, rfl⟩, rfl⟩
    rw [List.append_assoc]
    exact .intro hgap ht hgap'
  · rintro ⟨hgap, ht, hgap'⟩
    exact ⟨((), a), ⟨_, _, rfl, ⟨((_, a), _, ()), ⟨_, _, ⟨_, _, ⟨rfl, hgap⟩, ht, rfl⟩,
      ⟨_, _, ⟨rfl, hgap'⟩, rfl, rfl⟩, (List.append_assoc ..).symm⟩, rfl⟩, rfl⟩, rfl⟩

end Tags

/-! ## Characters -/

/-- Where the letters and digits are. -/
theorem toNat_of_isAlphanum {c : Char} (h : c.isAlphanum = true) :
    48 ≤ c.toNat ∧ c.toNat ≤ 122 := by
  have hupper (h : c.isUpper = true) : 65 ≤ c.toNat ∧ c.toNat ≤ 90 := of_decide_eq_true h
  have hlower (h : c.isLower = true) : 97 ≤ c.toNat ∧ c.toNat ≤ 122 :=
    (Bool.and_eq_true_iff.1 h).imp of_decide_eq_true of_decide_eq_true
  have hdigit (h : c.isDigit = true) : 48 ≤ c.toNat ∧ c.toNat ≤ 57 :=
    (Bool.and_eq_true_iff.1 h).imp of_decide_eq_true of_decide_eq_true
  rcases Bool.or_eq_true_iff.1 h with h | h
  · rcases Bool.or_eq_true_iff.1 h with h | h
    · have := hupper h
      omega
    · have := hlower h
      omega
  · have := hdigit h
    omega

/-- Letters, digits and the other characters of a name lie between the blank characters. -/
theorem isBlank_of_isNameChar {c : Char} (h : isNameChar c = true) : isBlank c = false := by
  simp only [isNameChar, isAsciiAlphanum, Bool.or_eq_true, decide_eq_true_eq] at h
  rcases h with (((h | rfl) | rfl) | rfl) | rfl
  · have hc := toNat_of_isAlphanum h
    rw [Bool.eq_false_iff, isBlank, ne_eq, inRanges_iff]
    rintro ⟨r, hr, hlo, hhi⟩
    have hout : ∀ r ∈ blankRanges, r.2 < 48 ∨ 122 < r.1 := by decide
    have := hout r hr
    omega
  all_goals decide

/-- No blank is an upper-case letter. -/
theorem toLower_of_isBlank {c : Char} (h : isBlank c = true) : c.toLower = c := by
  refine dif_neg fun hupper => ?_
  have hc : 65 ≤ c.toNat ∧ c.toNat ≤ 90 := hupper
  obtain ⟨r, hr, hlo, hhi⟩ := inRanges_iff.1 h
  have hout : ∀ r ∈ blankRanges, r.2 < 65 ∨ 90 < r.1 := by decide
  have := hout r hr
  omega

theorem IsRun.endsRun {p q : Char → Bool} {t : Text} (h : IsRun p t)
    (hpq : ∀ c, p c = true → q c = false) (rest : Text) : EndsRun q (t ++ rest) := by
  obtain ⟨c, t, rfl⟩ := List.exists_cons_of_ne_nil h.1
  rintro _ ⟨⟩
  exact hpq c (h.2 c List.mem_cons_self)

theorem BlankFirst.endsRun {p : Char → Bool} {t : Text} (h : BlankFirst t)
    (hp : ∀ c, p c = true → isBlank c = false) : EndsRun p t := by
  obtain ⟨c, rest, rfl, hc⟩ := h
  rintro _ ⟨⟩
  rw [Bool.eq_false_iff]
  intro hpc
  cases hc.symm.trans (hp c hpc)

/-- A word does not begin with a blank. -/
theorem SpellsWord.endsRun {c : Char} {word t : Text} (h : SpellsWord (c :: word) t)
    (hc : isBlank c = false) (rest : Text) : EndsRun isBlank (t ++ rest) := by
  cases t with
  | nil => cases h
  | cons d t =>
      obtain ⟨rfl, -⟩ := List.cons.inj h
      rintro _ ⟨⟩
      rw [Bool.eq_false_iff]
      intro hd
      rw [toLower_of_isBlank hd] at hc
      cases hc.symm.trans hd

/-! ## The forms -/

theorem reads_includeTag : includeTag.Reads IncludeText fun _ => True := by
  have hpath : (many1 fun c => !isBlank c).Reads (RunOf fun c => !isBlank c) BlankFirst :=
    (reads_many1 _).mono fun rest hrest => hrest.endsRun fun c hc => by simpa using hc
  refine reads_commentTag (reads_keyworded "include".toList hpath ?_) ?_
  · rintro _ t rest ⟨rfl, ht⟩
    exact ht.endsRun (fun c hc => by simpa using hc) rest
  · rintro path _ rest ⟨hw, -, -⟩
    rw [List.append_assoc]
    exact hw.endsRun (by decide) _

/-- A keyword with a name. -/
theorem reads_named (word : Text) :
    (keyworded word (many1 isNameChar)).Reads (Keyworded word (RunOf isNameChar)) BlankFirst := by
  refine reads_keyworded word ((reads_many1 isNameChar).mono fun rest hrest =>
    hrest.endsRun fun c hc => isBlank_of_isNameChar hc) ?_
  rintro _ t rest ⟨rfl, ht⟩
  exact ht.endsRun (fun c hc => isBlank_of_isNameChar hc) rest

/-- The content of an end of a block begins with a letter or a bracket. -/
theorem BlockEnd.endsRun {d : Delimiter} {t : Text} (h : BlockEnd d t) (rest : Text) :
    EndsRun isBlank (t ++ rest) := by
  have hword {c : Char} {word name t : Text} (hc : isBlank c = false)
      (h : Keyworded (c :: word) (RunOf isNameChar) name t) : EndsRun isBlank (t ++ rest) := by
    obtain ⟨hw, -, -⟩ := h
    rw [List.append_assoc]
    exact hw.endsRun hc _
  cases h with
  | keywordOpener h => exact hword (by decide) h
  | keywordCloser h => exact hword (by decide) h
  | bracketOpener => rintro _ ⟨⟩; decide
  | bracketCloser => rintro _ ⟨⟩; decide

theorem reads_keywordDelimiter : keywordDelimiter.Reads
    (fun d t => d.style = .keyword ∧ BlockEnd d t) BlankFirst := by
  have hboth := ((reads_named "begin".toList).map (Delimiter.mk .keyword true)).orElse
    ((reads_named "end".toList).map (Delimiter.mk .keyword false))
    (run_eq_none_of_letter (by decide) ((startsWith_keyworded 'b' "egin".toList _).map _)
      ((startsWith_keyworded 'e' "nd".toList _).map _))
  refine hboth.congr fun d t => ⟨?_, ?_⟩
  · rintro (⟨name, h, rfl⟩ | ⟨name, h, rfl⟩)
    · exact ⟨rfl, .keywordOpener h⟩
    · exact ⟨rfl, .keywordCloser h⟩
  · rintro ⟨hstyle, h⟩
    cases h with
    | keywordOpener h => exact .inl ⟨_, h, rfl⟩
    | keywordCloser h => exact .inr ⟨_, h, rfl⟩
    | bracketOpener => cases hstyle
    | bracketCloser => cases hstyle

theorem reads_bracketDelimiter : bracketDelimiter.Reads
    (fun d t => d.style = .bracket ∧ BlockEnd d t) fun _ => True := by
  have hname := (reads_many1 isBracketNameChar).andThen (reads_exact [']'] fun _ => True)
    fun _ t rest ht _ => by
      subst ht
      rintro c ⟨⟩
      decide
  have hslash := (reads_exact ['/'] _).optional fun _ =>
    StartsWith.run_eq_none_of_endsRun (startsWith_exact '/' [])
  have hopen := (reads_exact ['['] fun _ => True).andThen hslash fun _ _ _ _ _ => trivial
  -- A name does not begin with a slash, so a slash that is there belongs to the bracket.
  have hall := (hopen.andThen hname (by
    rintro _ t rest ⟨name, _, ⟨-, hname⟩, -, rfl⟩ -
    rw [List.append_assoc]
    refine hname.endsRun (fun c hc => decide_eq_false ?_) _
    rintro rfl
    cases hc)).map fun r => (⟨.bracket, r.1.2.isNone, r.2.1⟩ : Delimiter)
  refine hall.congr fun d t => ⟨?_, ?_⟩
  · rintro ⟨⟨⟨_, slash⟩, _, _⟩,
      ⟨_, _, ⟨_, _, rfl, hs, rfl⟩, ⟨name, _, ⟨rfl, h⟩, rfl, rfl⟩, rfl⟩, rfl⟩
    cases slash with
    | none =>
        obtain rfl : _ = [] := hs
        exact ⟨rfl, .bracketOpener h⟩
    | some u =>
        obtain rfl : _ = ['/'] := hs
        exact ⟨rfl, .bracketCloser h⟩
  · rintro ⟨hstyle, h⟩
    cases h with
    | keywordOpener h => cases hstyle
    | keywordCloser h => cases hstyle
    | bracketOpener h =>
        exact ⟨(((), none), (_, ())), ⟨['['], _, ⟨['['], [], rfl, rfl, rfl⟩,
          ⟨_, _, ⟨rfl, h⟩, rfl, rfl⟩, rfl⟩, rfl⟩
    | bracketCloser h =>
        exact ⟨(((), some ()), (_, ())), ⟨['[', '/'], _, ⟨['['], ['/'], rfl, rfl, rfl⟩,
          ⟨_, _, ⟨rfl, h⟩, rfl, rfl⟩, rfl⟩, rfl⟩

/-- **The ends of blocks.** -/
theorem reads_blockDelimiter : blockDelimiter.Reads (InComment BlockEnd) fun _ => True := by
  have hboth := reads_keywordDelimiter.orElse (reads_bracketDelimiter.mono fun _ _ => trivial)
    run_keywordDelimiter_eq_none
  refine reads_commentTag (hboth.congr fun d t => ⟨?_, fun h => ?_⟩)
    fun _ _ rest h => h.endsRun rest
  · rintro (⟨-, h⟩ | ⟨-, h⟩)
    · exact h
    · exact h
  · cases h with
    | keywordOpener h => exact .inl ⟨rfl, .keywordOpener h⟩
    | keywordCloser h => exact .inl ⟨rfl, .keywordCloser h⟩
    | bracketOpener h => exact .inr ⟨rfl, .bracketOpener h⟩
    | bracketCloser h => exact .inr ⟨rfl, .bracketCloser h⟩

/-- **The ends of replacement tags.** -/
theorem reads_replaceDelimiter : replaceDelimiter.Reads (InComment ReplaceEnd) fun _ => True := by
  have hboth := ((reads_named "replace".toList).map (Delimiter.mk .replacement true)).orElse
    ((reads_keyword "/replace".toList BlankFirst).map
      fun _ => (⟨.replacement, false, []⟩ : Delimiter))
    (run_eq_none_of_letter (by decide) ((startsWith_keyworded 'r' "eplace".toList _).map _)
      ((startsWith_keyword '/' "replace".toList).map _))
  refine reads_commentTag (hboth.congr fun d t => ⟨?_, fun h => ?_⟩) ?_
  · rintro (⟨name, h, rfl⟩ | ⟨_, h, rfl⟩)
    · exact .opener h
    · exact .closer h
  · cases h with
    | opener h => exact .inl ⟨_, h, rfl⟩
    | closer h => exact .inr ⟨(), h, rfl⟩
  · intro d t rest h
    cases h with
    | opener h =>
        obtain ⟨hw, -, -⟩ := h
        rw [List.append_assoc]
        exact hw.endsRun (by decide) _
    | closer h => exact h.endsRun (by decide) rest

theorem reads_functionName :
    functionName.Reads (fun a t => a = t ∧ IsFunctionName t) (EndsRun isFunctionChar) := by
  have hboth := ((reads_one isFunctionStart fun _ => True).andThen (reads_many isFunctionChar)
    fun _ _ _ _ _ => trivial).map fun r => r.1 :: r.2
  refine hboth.congr fun a t => ⟨?_, ?_⟩
  · rintro ⟨⟨c, _⟩, ⟨_, t, ⟨rfl, hc⟩, ⟨rfl, ht⟩, rfl⟩, rfl⟩
    exact ⟨rfl, .intro hc ht⟩
  · rintro ⟨rfl, hc, ht⟩
    exact ⟨(_, _), ⟨[_], _, ⟨rfl, hc⟩, ⟨rfl, ht⟩, rfl⟩, rfl⟩

/-- **Placeholders.** -/
theorem reads_placeholderTag : placeholderTag.Reads PlaceholderText fun _ => True := by
  have hsuffix := ((reads_exact [':'] fun _ => True).andThen reads_functionName
    fun _ _ _ _ _ => trivial).map Prod.snd
  have hoptional := (hsuffix.mono (G := fun rest => ∃ u, rest = '}' :: u) (by
      rintro _ ⟨u, rfl⟩ _ ⟨⟩
      decide)).optional (by
    rintro _ ⟨u, rfl⟩
    refine StartsWith.run_eq_none_of_endsRun (((startsWith_exact ':' []).andThen _).map _) ?_
    rintro _ ⟨⟩
    decide)
  -- The name ends at a colon or at the closing brace.
  have hname := (reads_many1 isPlaceholderChar).andThen hoptional (by
    rintro (_ | _) _ _ h ⟨u, rfl⟩
    · obtain rfl : _ = [] := h
      rintro _ ⟨⟩
      decide
    · obtain ⟨_, ⟨_, _, rfl, -, rfl⟩, -⟩ := h
      rintro _ ⟨⟩
      decide)
  have hinside := (hname.andThen (reads_exact ['}'] fun _ => True) (by
    rintro _ _ rest rfl -
    exact ⟨rest, rfl⟩)).map fun r => (⟨r.1.1, r.1.2⟩ : Placeholder)
  have htag := ((reads_exact ['{'] fun _ => True).andThen hinside fun _ _ _ _ _ => trivial).map
    Prod.snd
  refine htag.congr fun p t => ⟨?_, ?_⟩
  · rintro ⟨⟨_, _⟩, ⟨_, _, rfl, ⟨⟨⟨_, o⟩, _⟩, ⟨_, _, ⟨name, _, ⟨rfl, hn⟩, ho, rfl⟩, rfl, rfl⟩, rfl⟩,
      rfl⟩, rfl⟩
    cases o with
    | none =>
        obtain rfl : _ = [] := ho
        rw [List.append_nil]
        exact .plain hn
    | some f =>
        obtain ⟨⟨_, _⟩, ⟨_, _, rfl, ⟨rfl, hf⟩, rfl⟩, rfl⟩ := ho
        rw [List.append_assoc]
        exact .applied hn hf
  · rintro (⟨hn⟩ | ⟨hn, hf⟩)
    · refine ⟨((), _), ⟨['{'], _, rfl, ⟨((_, none), ()), ⟨_, _, ⟨_, [], ⟨rfl, hn⟩, rfl, rfl⟩,
        rfl, rfl⟩, rfl⟩, ?_⟩, rfl⟩
      simp
    · refine ⟨((), _), ⟨['{'], _, rfl, ⟨((_, some _), ()), ⟨_, _, ⟨_, _, ⟨rfl, hn⟩,
        ⟨((), _), ⟨[':'], _, rfl, ⟨rfl, hf⟩, rfl⟩, rfl⟩, rfl⟩, rfl, rfl⟩, rfl⟩, ?_⟩, rfl⟩
      simp

/-! ## What follows a tag -/

theorem closed_includeTag : includeTag.Closed := reads_includeTag.closed

/-- **The ends of blocks are closed**: cutting a text behind one of them changes nothing about
it. -/
theorem closed_blockDelimiter : blockDelimiter.Closed := reads_blockDelimiter.closed

theorem closed_replaceDelimiter : replaceDelimiter.Closed := reads_replaceDelimiter.closed

theorem closed_placeholderTag : placeholderTag.Closed := reads_placeholderTag.closed

end CommentTemplate
