import CommentTemplate.Proofs.Tag.Closers
import CommentTemplate.Proofs.Tag.Leftmost

/-!
# Tags scanned again

The search for a complete tag scans the text from some byte on.  What is done with the tag scans
its body again, cut out of the text, and then the text from the end of the tag on.  A cut could
spoil a delimiter or make a new one, at either end.  It does neither: both scans find what the first
one found between the ends of the tag and behind it, at the same bytes.

## Main definitions

* `Recognizer.endsFrom` — the delimiters of a text from some byte on
* `EndSpan.movedBy` — the place of a delimiter of a part in the whole
* `LocatedTag.Coherent` — a tag whose inside and whose remainder are scanned again alike

## Main statements

* `Apart.filter_inside`, `Apart.filter_behind` — which delimiters stand between two of them, and
  which behind both
* `LocatedTag.coherent_next` — the first block and the first replacement tag from some byte on
-/

namespace CommentTemplate

open Scan (spans)

/-- The delimiters of a text from byte `offset` on, with their places in the text. -/
def Recognizer.endsFrom (r : Recognizer Delimiter) (s : Text) (offset : Nat) : List EndSpan :=
  spans offset (r.scan (Text.dropBytes offset s)).found

/-- A delimiter of a part of a text with its place in the whole, where the part begins at byte
`start`. -/
def EndSpan.movedBy (start : Nat) (e : EndSpan) : EndSpan := (e.1, start + e.2.1, start + e.2.2)

/-- From the end of a leading piece on there are the delimiters of what follows it. -/
theorem Recognizer.endsFrom_append (r : Recognizer Delimiter) (front back : Text) :
    r.endsFrom (front ++ back) (Text.utf8Size front) =
      spans (Text.utf8Size front) (r.scan back).found := by
  rw [endsFrom, Text.dropBytes_append]

/-- Found delimiters are moved with the text in which they were found. -/
theorem map_movedBy_spans (start first : Nat) (fs : List (Found Delimiter)) :
    (spans first fs).map (EndSpan.movedBy start) = spans (start + first) fs := by
  induction fs generalizing first with
  | nil => rfl
  | cons f fs ih => simp [spans, EndSpan.movedBy, ih, Nat.add_assoc]

/-- The delimiters of a text alone, moved to where the text stands. -/
theorem Recognizer.map_movedBy_endsFrom (r : Recognizer Delimiter) (start : Nat) (s : Text) :
    (r.endsFrom s 0).map (EndSpan.movedBy start) = spans start (r.scan s).found := by
  have hends := r.endsFrom_append [] s
  rw [Text.utf8Size_nil, List.nil_append] at hends
  rw [hends, map_movedBy_spans, Nat.add_zero]

/-! ## Delimiters in the order of the text -/

/-- Delimiters that stand one behind the other, with two of them picked out. -/
structure Apart (front : List EndSpan) (o : EndSpan) (inner : List EndSpan) (c : EndSpan)
    (back : List EndSpan) : Prop where
  lt : ∀ e ∈ front ++ o :: (inner ++ c :: back), e.2.1 < e.2.2
  front_le : ∀ e ∈ front, e.2.2 ≤ o.2.1
  le : o.2.2 ≤ c.2.1
  le_inner : ∀ e ∈ inner, o.2.2 ≤ e.2.1
  inner_le : ∀ e ∈ inner, e.2.2 ≤ c.2.1
  le_back : ∀ e ∈ back, c.2.2 ≤ e.2.1

namespace Apart

variable {front inner back : List EndSpan} {o c : EndSpan}

theorem of_pairwise
    (hlt : ∀ e ∈ front ++ o :: (inner ++ c :: back), e.2.1 < e.2.2)
    (h : (front ++ o :: (inner ++ c :: back)).Pairwise fun x y => x.2.2 ≤ y.2.1) :
    Apart front o inner c back := by
  obtain ⟨-, hopener, hfront⟩ := List.pairwise_append.1 h
  obtain ⟨ho, hrest⟩ := List.pairwise_cons.1 hopener
  obtain ⟨-, hcloser, hinner⟩ := List.pairwise_append.1 hrest
  refine ⟨hlt, ?_, ?_, ?_, ?_, (List.pairwise_cons.1 hcloser).1⟩
  · intro e he
    exact hfront e he o List.mem_cons_self
  · exact ho c (by simp)
  · intro e he
    exact ho e (by simp [he])
  · intro e he
    exact hinner e he c List.mem_cons_self

variable (h : Apart front o inner c back)

include h

/-- Between the two delimiters stand those that come between them in the list. -/
theorem filter_inside :
    (front ++ o :: (inner ++ c :: back)).filter (fun e => o.2.2 ≤ e.2.1 ∧ e.2.2 ≤ c.2.1) =
      inner := by
  have hlt := h.lt
  simp only [List.forall_mem_append, List.forall_mem_cons] at hlt
  obtain ⟨hltFront, hltOpener, -, hltCloser, hltBack⟩ := hlt
  have hfront : ∀ e ∈ front, ¬(o.2.2 ≤ e.2.1 ∧ e.2.2 ≤ c.2.1) := by
    rintro e he ⟨hle, -⟩
    have := hltFront e he
    have := h.front_le e he
    omega
  have hinner : ∀ e ∈ inner, o.2.2 ≤ e.2.1 ∧ e.2.2 ≤ c.2.1 :=
    fun e he => ⟨h.le_inner e he, h.inner_le e he⟩
  have hback : ∀ e ∈ back, ¬(o.2.2 ≤ e.2.1 ∧ e.2.2 ≤ c.2.1) := by
    rintro e he ⟨-, hle⟩
    have := hltBack e he
    have := h.le_back e he
    omega
  rw [List.filter_append, List.filter_eq_nil_iff.2 (by simpa using hfront),
    List.filter_cons_of_neg (by simp; omega), List.filter_append,
    List.filter_eq_self.2 (by simpa using hinner), List.filter_cons_of_neg (by simp; omega),
    List.filter_eq_nil_iff.2 (by simpa using hback), List.nil_append, List.append_nil]

/-- Behind the second delimiter stand those that come after it in the list. -/
theorem filter_behind :
    (front ++ o :: (inner ++ c :: back)).filter (fun e => c.2.2 ≤ e.2.1) = back := by
  have hlt := h.lt
  simp only [List.forall_mem_append, List.forall_mem_cons] at hlt
  obtain ⟨hltFront, hltOpener, hltInner, hltCloser, -⟩ := hlt
  have hle := h.le
  have hfront : ∀ e ∈ front, ¬c.2.2 ≤ e.2.1 := by
    intro e he
    have := hltFront e he
    have := h.front_le e he
    omega
  have hinner : ∀ e ∈ inner, ¬c.2.2 ≤ e.2.1 := by
    intro e he
    have := hltInner e he
    have := h.inner_le e he
    omega
  rw [List.filter_append, List.filter_eq_nil_iff.2 (by simpa using hfront),
    List.filter_cons_of_neg (by simp; omega), List.filter_append,
    List.filter_eq_nil_iff.2 (by simpa using hinner), List.filter_cons_of_neg (by simp; omega),
    List.filter_eq_self.2 (by simpa using h.le_back), List.nil_append, List.nil_append]

end Apart

/-- The delimiters of a scan stand one behind the other. -/
theorem apart_of_firstPair {r : Recognizer Delimiter} {L : Delimiter → Text → Prop}
    (hr : r.Reads L fun _ => True) (front : Text) {back : Text} {q : DelimiterPair}
    (hq : firstPair (r.scan back).found = some q) :
    let offset := Text.utf8Size front
    let e := q.ends offset
    Apart (spans offset q.skipped) e.1 (spans e.1.2.2 q.inner) e.2 (spans e.2.2.2 q.rest) := by
  intro offset e
  have hends := spans_of_firstPair hq offset
  have hlocates := locates_scan hr front back
  rw [hends] at hlocates
  exact .of_pairwise (fun x hx => (hlocates.spelled x hx).1) hlocates.apart

/-! ## Tags -/

namespace LocatedTag

/-- A tag found from byte `offset` on, with its ends `o` and `c` among the delimiters found there
and its body.  The delimiters of the body alone, moved to where the body stands, are those between
the two ends, and the delimiters from the end of the tag on are those behind it. -/
structure Coherent (r : Recognizer Delimiter) (s : Text) (offset : Nat) (m : LocatedTag)
    (o c : EndSpan) (body : Text) : Prop where
  opener_mem : o ∈ r.endsFrom s offset
  opening : o.1.opening = true
  start_eq : o.2.1 = m.start
  closer_mem : c ∈ r.endsFrom s offset
  closing : c.1.opening = false
  stop_eq : c.2.2 = m.stop
  body_eq : m.body = some body
  between : s.Between o.2.2 c.2.1 body
  inside : (r.endsFrom body 0).map (EndSpan.movedBy o.2.2) =
    (r.endsFrom s offset).filter fun e => o.2.2 ≤ e.2.1 ∧ e.2.2 ≤ c.2.1
  behind : r.endsFrom s m.stop = (r.endsFrom s offset).filter fun e => m.stop ≤ e.2.1

variable {r : Recognizer Delimiter} {L : Delimiter → Text → Prop} {front back : Text}

/-- From the end of a pair on there are the delimiters of what follows it. -/
theorem endsFrom_stop (r : Recognizer Delimiter) (kind : TagKind) (front : Text) (p : TextPair) :
    let stop := (ofPair kind (Text.utf8Size front) p).stop
    r.endsFrom (front ++ p.text) stop = spans stop (r.scan p.after).found := by
  intro stop
  have htext : front ++ p.text =
      (front ++ (p.before ++ (p.opener ++ (p.body ++ p.closer)))) ++ p.after := by
    simp [TextPair.text]
  have hstop : stop =
      Text.utf8Size (front ++ (p.before ++ (p.opener ++ (p.body ++ p.closer)))) := by
    simp [stop, ofPair, Nat.add_assoc]
  rw [htext, hstop, r.endsFrom_append]

/-- **The first pair of a text is coherent**, behind any text in front of it. -/
theorem coherent_of_firstPair (hr : r.Reads L fun _ => True) (kind : TagKind) {q : DelimiterPair}
    (hq : firstPair (r.scan back).found = some q) :
    let offset := Text.utf8Size front
    let e := q.ends offset
    let p := q.toText (r.scan back).tail
    Coherent r (front ++ back) offset (ofPair kind offset p) e.1 e.2 p.body := by
  intro offset e p
  have htext : p.text = back := nextPair_spells (Option.map_eq_some_iff.2 ⟨q, hq, rfl⟩)
  have htag := ofPair_toText kind offset q (r.scan back).tail
  have hstop : (ofPair kind offset p).stop = e.2.2.2 := congrArg LocatedTag.stop htag
  have hends : r.endsFrom (front ++ back) offset = spans offset q.skipped ++
      e.1 :: (spans e.1.2.2 q.inner ++ e.2 :: spans e.2.2.2 q.rest) :=
    (r.endsFrom_append front back).trans (spans_of_firstPair hq offset)
  have hapart := apart_of_firstPair hr front hq
  obtain ⟨hopening, hclosing, -⟩ := firstPair_ends hq
  obtain ⟨-, hbody, hafter⟩ := r.scan_of_firstPair hr.closed hq
  refine ⟨?_, hopening, ?_, ?_, hclosing, hstop.symm, rfl, ?_, ?_, ?_⟩
  · simp [hends]
  · exact (congrArg LocatedTag.start htag).symm
  · simp [hends]
  · simpa [e, p, offset, DelimiterPair.ends, DelimiterPair.toText, Found.endSpan, Nat.add_assoc]
      using between_body front htext
  · rw [hends, hapart.filter_inside, r.map_movedBy_endsFrom, hbody]
  · have hbehind := endsFrom_stop r kind front p
    rw [htext, hafter] at hbehind
    rw [hbehind, hends, hstop, hapart.filter_behind]

/-- Every answer of a search for a pair is coherent. -/
theorem coherent_nextPair (hr : r.Reads L fun _ => True) (kind : TagKind) (front back : Text) :
    let offset := Text.utf8Size front
    ∀ m ∈ (nextPair r back).map (ofPair kind offset), ∃ o c body,
      Coherent r (front ++ back) offset m o c body := by
  intro offset m hm
  obtain ⟨p, hp, rfl⟩ := Option.map_eq_some_iff.1 hm
  obtain ⟨q, hq, rfl⟩ := Option.map_eq_some_iff.1 hp
  exact ⟨_, _, _, coherent_of_firstPair hr kind hq⟩

/-- **Scanning again is coherent**: for the complete block and the complete replacement tag that are
found from some byte on, the delimiters of the body are those found between the ends of the tag, and
the delimiters from the end of the tag on are those found behind it. -/
theorem coherent_next (front back : Text) :
    let s := front ++ back
    let offset := Text.utf8Size front
    (∀ m ∈ nextBlockFrom s offset, ∃ o c body, Coherent blockDelimiter s offset m o c body) ∧
      ∀ m ∈ nextReplaceFrom s offset, ∃ o c body,
        Coherent replaceDelimiter s offset m o c body := by
  intro s offset
  rw [nextBlockFrom, nextReplaceFrom, Text.dropBytes_append]
  exact ⟨coherent_nextPair reads_blockDelimiter .block front back,
    coherent_nextPair reads_replaceDelimiter .replacement front back⟩

/-- The body of a block with an opening end of another block, a replacement tag, and the beginning
of a comment that is cut off. -/
def noticeBody : Text :=
  "1<!-- [b] --><!-- REPLACE x -->2<!-- /REPLACE --><!-- ".toList

/-- A block, behind which the other block is closed. -/
def notice : Text :=
  "<!-- BEGIN a -->".toList ++ noticeBody ++ "<!-- END a --><!-- [/b] -->".toList

/-- In the notice, behind a character of two bytes, both tags are found and are coherent. -/
theorem coherent_notice :
    let s := "é".toList ++ notice
    let block : LocatedTag := ⟨.block, "a".toList, none, some noticeBody, 2, 86⟩
    let tag : LocatedTag := ⟨.replacement, "x".toList, none, some "2".toList, 31, 67⟩
    (nextBlockFrom s 2 = some block ∧ ∃ o c body, Coherent blockDelimiter s 2 block o c body) ∧
      nextReplaceFrom s 2 = some tag ∧ ∃ o c body, Coherent replaceDelimiter s 2 tag o c body := by
  intro s block tag
  have hblock : nextBlockFrom s 2 = some block := by decide +kernel
  have htag : nextReplaceFrom s 2 = some tag := by decide +kernel
  obtain ⟨hblocks, htags⟩ := coherent_next "é".toList notice
  exact ⟨⟨hblock, hblocks block hblock⟩, htag, htags tag htag⟩

end LocatedTag

end CommentTemplate
