import Mathlib.Tactic.MkIffOfInductiveProp
import CommentTemplate.Proofs.Tag.Stack
import CommentTemplate.Proofs.Text.Between
import CommentTemplate.Tag.Locate

/-!
# The closer of an opening delimiter

The search for a complete tag goes through the delimiters with a counter of open tags.  What it
finds can be told without the counter: the closer of an opening delimiter is the first delimiter at
which the closing ends of the same tag are more than the opening ones, and the search stops at the
leftmost opening delimiter that has a closer.  Delimiters of other tags play no part.

## Main definitions

* `Delimiter.Closes` — a delimiter that closes a tag, by the number of opening and closing ends
* `Unclosed` — opening delimiters without a closer
* `LocatedTag.IsFirst` — the tag of the leftmost opening delimiter that has a closer
* `LocatedTag.Finds` — what a search for a complete tag answers

## Main statements

* `Delimiter.closes_cons_of_opening`, `Delimiter.closes_cons_of_closing` — what one more delimiter
  in front does to the count
* `splitAtCloser_eq_some_iff`, `firstPair_eq_none_iff`, `closes_of_firstPair` — the search finds the
  closers
* `LocatedTag.finds_first` — the first block and the first replacement tag from some byte on
-/

namespace CommentTemplate

/-! ## Counting -/

namespace Delimiter

/-- How many of some delimiters open a tag that `d` may be an end of. -/
def openings (d : Delimiter) (ds : List Delimiter) : Nat :=
  ds.countP fun e => e.sameTag d && e.opening

/-- How many of some delimiters close a tag that `d` may be an end of. -/
def closings (d : Delimiter) (ds : List Delimiter) : Nat :=
  ds.countP fun e => e.sameTag d && !e.opening

/-- Behind some inner delimiters `c` closes the tag of `d`: it is the first delimiter at which the
closing ends of the tag outnumber the opening ones and the `depth` ones that are open already. -/
@[mk_iff] structure Closes (d : Delimiter) (depth : Nat) (inner : List Delimiter) (c : Delimiter) :
    Prop where
  outnumbered : d.openings (inner ++ [c]) + depth < d.closings (inner ++ [c])
  first : ∀ ds, ds <+: inner → d.closings ds ≤ d.openings ds + depth

/-- One of the delimiters behind `d` closes its tag. -/
def HasCloser (d : Delimiter) (later : List Delimiter) : Prop :=
  ∃ inner c rest, later = inner ++ c :: rest ∧ d.Closes 0 inner c

/-- No opening delimiter of the first list has a closer behind it, be it in this list or among the
later delimiters. -/
def Unclosed : List Delimiter → List Delimiter → Prop
  | [], _ => True
  | d :: ds, later => (d.opening = true → ¬d.HasCloser (ds ++ later)) ∧ Unclosed ds later

variable {d c e : Delimiter} {ds inner : List Delimiter} {depth : Nat}

theorem openings_cons : d.openings (e :: ds) =
    d.openings ds + if e.sameTag d = true ∧ e.opening = true then 1 else 0 := by
  simp [openings, List.countP_cons]

theorem closings_cons : d.closings (e :: ds) =
    d.closings ds + if e.sameTag d = true ∧ e.opening = false then 1 else 0 := by
  simp [closings, List.countP_cons]

/-- With no delimiter in between, the closer is one that closes the tag itself. -/
theorem closes_nil_iff : d.Closes depth [] c ↔
    c.sameTag d = true ∧ c.opening = false ∧ depth = 0 := by
  have hopenings : d.openings [] = 0 := rfl
  have hclosings : d.closings [] = 0 := rfl
  simp only [closes_iff, List.nil_append, List.prefix_nil, forall_eq, openings_cons, closings_cons,
    hopenings, hclosings]
  cases c.sameTag d <;> cases c.opening <;> simp

/-- A delimiter in front counts at every delimiter behind it. -/
theorem closes_cons_iff : d.Closes depth (e :: inner) c ↔
    d.openings (e :: (inner ++ [c])) + depth < d.closings (e :: (inner ++ [c])) ∧
      ∀ ds, ds <+: inner → d.closings (e :: ds) ≤ d.openings (e :: ds) + depth := by
  rw [closes_iff, List.cons_append]
  refine and_congr_right fun _ => ⟨fun h ds hds => h _ ((List.prefix_cons_inj e).2 hds), ?_⟩
  intro h ds hds
  rcases List.prefix_cons_iff.1 hds with rfl | ⟨front, rfl, hfront⟩
  · exact Nat.zero_le _
  · exact h front hfront

theorem closes_cons_of_other (he : e.sameTag d = false) :
    d.Closes depth (e :: inner) c ↔ d.Closes depth inner c := by
  rw [closes_cons_iff, closes_iff]
  simp only [openings_cons, closings_cons, he, Bool.false_eq_true,
    false_and, ↓reduceIte, Nat.add_zero]

/-- Behind an opening end one tag more is open. -/
theorem closes_cons_of_opening (he : e.sameTag d = true) (ho : e.opening = true) :
    d.Closes depth (e :: inner) c ↔ d.Closes (depth + 1) inner c := by
  rw [closes_cons_iff, closes_iff]
  simp only [openings_cons, closings_cons, he, ho, Bool.true_eq_false,
    and_self, and_false, ↓reduceIte, Nat.add_zero, Nat.add_assoc, Nat.add_comm 1 depth]

/-- Behind a closing end one tag less is open, if there is one. -/
theorem closes_cons_of_closing (he : e.sameTag d = true) (ho : e.opening = false) :
    d.Closes (depth + 1) (e :: inner) c ↔ d.Closes depth inner c := by
  rw [closes_cons_iff, closes_iff]
  simp only [openings_cons, closings_cons, he, ho, Bool.false_eq_true,
    and_self, and_false, ↓reduceIte, Nat.add_zero, ← Nat.add_assoc, Nat.add_lt_add_iff_right,
    Nat.add_le_add_iff_right]

/-- If no inner tag is open, there is nothing behind a closing end that closes the tag. -/
theorem not_closes_cons_of_closing (he : e.sameTag d = true) (ho : e.opening = false) :
    ¬d.Closes 0 (e :: inner) c := by
  intro h
  have hfirst := (closes_cons_iff.1 h).2 [] List.nil_prefix
  simp [openings, closings, he, ho] at hfirst

end Delimiter

open Delimiter

/-! ## The first pair -/

variable {d : Delimiter} {fs inner rest : List (Found Delimiter)} {c : Found Delimiter}

/-- **The cut at a closer** is where the closing ends outnumber the opening ones. -/
theorem splitAtCloser_eq_some_iff {depth : Nat} :
    splitAtCloser d depth fs = some (inner, c, rest) ↔
      fs = inner ++ c :: rest ∧ d.Closes depth (inner.map Found.tag) c.tag := by
  induction fs generalizing depth inner with
  | nil => simp [splitAtCloser]
  | cons f fs ih =>
      -- A delimiter that is not the closer is the first of the inner ones.
      have step {n : Nat} (hcons : ∀ gs : List Delimiter,
            d.Closes depth (f.tag :: gs) c.tag ↔ d.Closes n gs c.tag)
          (hnil : ¬d.Closes depth [] f.tag) :
          (splitAtCloser d n fs).map (fun r => (f :: r.1, r.2)) = some (inner, c, rest) ↔
            f :: fs = inner ++ c :: rest ∧ d.Closes depth (inner.map Found.tag) c.tag := by
        cases inner with
        | nil =>
            simp only [Option.map_eq_some_iff, Prod.mk.injEq, reduceCtorEq, false_and, and_false,
              exists_false, List.nil_append, List.cons.injEq, List.map_nil, false_iff, not_and]
            rintro ⟨rfl, -⟩
            exact hnil
        | cons g inner =>
            have hih : splitAtCloser d n fs = some (inner, c, rest) ↔
                fs = inner ++ c :: rest ∧ d.Closes n (inner.map Found.tag) c.tag := ih
            simp only [Option.map_eq_some_iff, Prod.exists, Prod.mk.injEq, List.cons.injEq,
              List.cons_append, List.map_cons]
            constructor
            · rintro ⟨_, _, _, h, ⟨rfl, rfl⟩, rfl, rfl⟩
              obtain ⟨hfs, hclose⟩ := hih.1 h
              exact ⟨⟨rfl, hfs⟩, (hcons _).2 hclose⟩
            · rintro ⟨⟨rfl, hfs⟩, hclose⟩
              exact ⟨_, _, _, hih.2 ⟨hfs, (hcons _).1 hclose⟩, ⟨rfl, rfl⟩, rfl, rfl⟩
      unfold splitAtCloser
      by_cases hsame : f.tag.sameTag d = true
      · by_cases hopening : f.tag.opening = true
        · rw [if_pos hsame, if_pos hopening]
          exact step (fun gs => closes_cons_of_opening hsame hopening)
            (by simp [closes_nil_iff, hopening])
        · have hclosing : f.tag.opening = false := Bool.not_eq_true _ ▸ hopening
          rw [if_pos hsame, if_neg hopening]
          cases depth with
          | zero =>
              constructor
              · rintro ⟨⟩
                exact ⟨rfl, closes_nil_iff.2 ⟨hsame, hclosing, rfl⟩⟩
              · rintro ⟨hfs, hclose⟩
                cases inner with
                | nil =>
                    obtain ⟨rfl, rfl⟩ := List.cons.inj hfs
                    rfl
                | cons g inner =>
                    obtain ⟨rfl, -⟩ := List.cons.inj hfs
                    exact absurd hclose (not_closes_cons_of_closing hsame hclosing)
          | succ depth =>
              exact step (fun gs => closes_cons_of_closing hsame hclosing)
                (by simp [closes_nil_iff])
      · have hother : f.tag.sameTag d = false := Bool.not_eq_true _ ▸ hsame
        rw [if_neg hsame]
        exact step (fun gs => closes_cons_of_other hother) (by simp [closes_nil_iff, hother])

/-- There is no cut if there is no closer. -/
theorem splitAtCloser_eq_none_iff :
    splitAtCloser d 0 fs = none ↔ ¬d.HasCloser (fs.map Found.tag) := by
  constructor
  · rintro hnone ⟨_, _, _, hfs, hclose⟩
    obtain ⟨inner, _, rfl, rfl, hrest⟩ := List.map_eq_append_iff.1 hfs
    obtain ⟨c, rest, rfl, rfl, rfl⟩ := List.map_eq_cons_iff.1 hrest
    cases hnone.symm.trans (splitAtCloser_eq_some_iff.2 ⟨rfl, hclose⟩)
  · intro h
    rw [Option.eq_none_iff_forall_ne_some]
    rintro ⟨inner, c, rest⟩ hsome
    obtain ⟨rfl, hclose⟩ := splitAtCloser_eq_some_iff.1 hsome
    exact h ⟨inner.map Found.tag, c.tag, rest.map Found.tag, by simp, hclose⟩

/-- **There is no pair** if no opening delimiter has a closer. -/
theorem firstPair_eq_none_iff : firstPair fs = none ↔ Unclosed (fs.map Found.tag) [] := by
  induction fs with
  | nil => simp [firstPair, Unclosed]
  | cons f fs ih =>
      rw [List.map_cons, Unclosed, List.append_nil, ← ih, ← splitAtCloser_eq_none_iff, firstPair]
      by_cases hopening : f.tag.opening = true
      · cases hsplit : splitAtCloser f.tag 0 fs <;> simp [hopening]
      · simp [hopening]

/-- The first pair is an opening delimiter with its closer, and no opening one in front of it has
one. -/
theorem closes_of_firstPair {p : DelimiterPair} (h : firstPair fs = some p) :
    p.opener.tag.Closes 0 (p.inner.map Found.tag) p.closer.tag ∧
      Unclosed (p.skipped.map Found.tag)
        ((p.opener :: (p.inner ++ p.closer :: p.rest)).map Found.tag) := by
  induction fs generalizing p with
  | nil => simp [firstPair] at h
  | cons f fs ih =>
      have later (hf : f.tag.opening = true → ¬f.tag.HasCloser (fs.map Found.tag))
          (h : (firstPair fs).map (fun p => { p with skipped := f :: p.skipped }) = some p) :
          p.opener.tag.Closes 0 (p.inner.map Found.tag) p.closer.tag ∧
            Unclosed (p.skipped.map Found.tag)
              ((p.opener :: (p.inner ++ p.closer :: p.rest)).map Found.tag) := by
        obtain ⟨q, hq, rfl⟩ := Option.map_eq_some_iff.1 h
        obtain ⟨hclose, hskipped⟩ := ih hq
        refine ⟨hclose, ?_, hskipped⟩
        rwa [← List.map_append, firstPair_spec hq]
      rw [firstPair] at h
      split at h
      · split at h
        · next hsplit =>
            cases h
            exact ⟨(splitAtCloser_eq_some_iff.1 hsplit).2, trivial⟩
        · next hsplit => exact later (fun _ => splitAtCloser_eq_none_iff.1 hsplit) h
      · next hclosing => exact later (fun hopening => absurd hopening hclosing) h

/-! ## Where the first pair stands -/

open Scan (spans)

/-- The places of the delimiters around a pair, the pair being where `DelimiterPair.ends` says. -/
theorem spans_of_firstPair {p : DelimiterPair} (h : firstPair fs = some p) (start : Nat) :
    let e := p.ends start
    spans start fs = spans start p.skipped ++
      e.1 :: (spans e.1.2.2 p.inner ++ e.2 :: spans e.2.2.2 p.rest) := by
  rw [← firstPair_spec h, spans_append, spans_cons, spans_append, spans_cons]
  rfl

namespace LocatedTag

/-- A tag between the leftmost opening delimiter that has a closer and this closer, for the
delimiters of a text with their places. -/
inductive IsFirst (kind : TagKind) (s : Text) (ends : List EndSpan) : LocatedTag → Prop where
  | intro {skipped inner rest : List EndSpan} {o c : EndSpan} {body : Text}
    (hends : ends = skipped ++ o :: (inner ++ c :: rest)) (hopening : o.1.opening = true)
    (hcloses : o.1.Closes 0 (inner.map Prod.fst) c.1)
    (hskipped : Unclosed (skipped.map Prod.fst) ((o :: (inner ++ c :: rest)).map Prod.fst))
    (hbody : s.Between o.2.2 c.2.1 body) :
    IsFirst kind s ends ⟨kind, o.1.name, none, some body, o.2.1, c.2.2⟩

/-- What is found of a kind of tag in the text from a byte on, for the delimiters behind this
byte. -/
structure Finds (kind : TagKind) (s : Text) (offset : Nat) (ends : List EndSpan)
    (answer : Option LocatedTag) : Prop where
  eq_none_iff : answer = none ↔ Unclosed (ends.map Prod.fst) []
  isFirst : ∀ m ∈ answer, IsFirst kind s ends m
  between : ∀ m ∈ answer, ∃ t, s.Between m.start m.stop t
  within : ∀ m ∈ answer, offset ≤ m.start ∧ m.start < m.stop ∧ m.stop ≤ Text.utf8Size s

variable {r : Recognizer Delimiter} {p : TextPair} {front back : Text} {kind : TagKind}

/-- The text of a pair stands where the pair is located. -/
theorem between_ofPair (kind : TagKind) (front : Text) (h : p.text = back) :
    let m := ofPair kind (Text.utf8Size front) p
    (front ++ back).Between m.start m.stop (p.opener ++ (p.body ++ p.closer)) :=
  ⟨front ++ p.before, p.after, by simp [← h, TextPair.text], by simp [ofPair],
    by simp [ofPair, Nat.add_assoc]⟩

/-- The body of a pair stands between its ends. -/
theorem between_body (front : Text) (h : p.text = back) :
    let first := Text.utf8Size front + Text.utf8Size p.before + Text.utf8Size p.opener
    (front ++ back).Between first (first + Text.utf8Size p.body) p.body :=
  ⟨front ++ (p.before ++ p.opener), p.closer ++ p.after, by simp [← h, TextPair.text],
    by simp [Nat.add_assoc], by simp [Nat.add_assoc]⟩

/-- The tag of a pair begins with its first delimiter and ends with the second one. -/
theorem ofPair_toText (kind : TagKind) (offset : Nat) (q : DelimiterPair) (tail : Text) :
    let e := q.ends offset
    ofPair kind offset (q.toText tail) =
      ⟨kind, e.1.1.name, none, some (q.toText tail).body, e.1.2.1, e.2.2.2⟩ := by
  simp [ofPair, DelimiterPair.toText, DelimiterPair.ends, Found.endSpan, Nat.add_assoc]

/-- **The first pair of a text is located** behind the text in front of it. -/
theorem isFirst_of_firstPair {q : DelimiterPair} (hq : firstPair (r.scan back).found = some q) :
    let offset := Text.utf8Size front
    IsFirst kind (front ++ back) (spans offset (r.scan back).found)
      (ofPair kind offset (q.toText (r.scan back).tail)) := by
  intro offset
  obtain ⟨hcloses, hskipped⟩ := closes_of_firstPair hq
  have htext := nextPair_spells (Option.map_eq_some_iff.2 ⟨q, hq, rfl⟩)
  have hbody := between_body front htext
  rw [ofPair_toText]
  refine .intro (spans_of_firstPair hq offset) (firstPair_ends hq).1 ?_ ?_ ?_
  · rwa [map_spans]
  · simp only [List.map_cons, List.map_append, map_spans] at hskipped ⊢
    exact hskipped
  · simpa [DelimiterPair.ends, DelimiterPair.toText, Found.endSpan, Nat.add_assoc] using hbody

/-- What is found among the delimiters of one recogniser. -/
theorem finds_nextPair (r : Recognizer Delimiter) (kind : TagKind) (front back : Text) :
    let offset := Text.utf8Size front
    Finds kind (front ++ back) offset (spans offset (r.scan back).found)
      ((nextPair r back).map (ofPair kind offset)) := by
  intro offset
  refine ⟨?_, ?_, ?_, ?_⟩
  · rw [Option.map_eq_none_iff, nextPair, Option.map_eq_none_iff, firstPair_eq_none_iff, map_spans]
  · intro m hm
    obtain ⟨_, hpair, rfl⟩ := Option.map_eq_some_iff.1 hm
    obtain ⟨q, hq, rfl⟩ := Option.map_eq_some_iff.1 hpair
    exact isFirst_of_firstPair hq
  · intro m hm
    obtain ⟨p, hpair, rfl⟩ := Option.map_eq_some_iff.1 hm
    exact ⟨_, between_ofPair kind front (nextPair_spells hpair)⟩
  · intro m hm
    obtain ⟨p, hpair, rfl⟩ := Option.map_eq_some_iff.1 hm
    have hbetween := between_ofPair kind front (nextPair_spells hpair)
    exact ⟨Nat.le_add_right _ _, hbetween.lt (by simp [nextPair_opener_ne_nil hpair]),
      hbetween.le.2⟩

/-- **The first complete tag** of a text from some byte on is the one between the leftmost opening
delimiter that has a closer and this closer, and there is none exactly if no opening delimiter has
one.  Its places are at the borders of characters, behind that byte and within the text. -/
theorem finds_first (front back : Text) :
    let s := front ++ back
    let offset := Text.utf8Size front
    Finds .block s offset (spans offset (blockDelimiter.scan back).found)
        (nextBlockFrom s offset) ∧
      Finds .replacement s offset (spans offset (replaceDelimiter.scan back).found)
        (nextReplaceFrom s offset) := by
  intro s offset
  rw [nextBlockFrom, nextReplaceFrom, Text.dropBytes_append]
  exact ⟨finds_nextPair blockDelimiter .block front back,
    finds_nextPair replaceDelimiter .replacement front back⟩

/-- The tag `a` is not closed, the end of a tag in another style does not count, and the inner tag
`b` takes the first of the closing ends. -/
example :
    let inner := "1<!-- END b --><!-- [b] -->2<!-- [/b] -->3".toList
    nextBlockFrom
      ("é<!-- BEGIN a --><!-- [b] -->".toList ++ (inner ++ "<!-- [/b] -->".toList)) 2 =
        some ⟨.block, "b".toList, none, some inner, 18, 85⟩ := by
  decide +kernel

end LocatedTag

end CommentTemplate
