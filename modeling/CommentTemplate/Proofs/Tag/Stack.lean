import CommentTemplate.Proofs.Tag.Ends

/-!
# Pairing with a stack

The delimiters of a text can be paired in one pass: an opening one is put on a stack, and a closing
one goes with the opening one that it finds on top.  The search of `CommentTemplate.Tag.Pair` has
no stack and counts delimiters, from every opening one anew.  Where all delimiters belong to one
tag, as those of replacement tags do, both find the same tags.

## Main definitions

* `TagSpan` — the places of a complete tag and of its ends
* `matchEnds` — the pass over the delimiters: the tags found, and the delimiters left over
* `Forest.places` — the places of the trees of a forest, with their depths

## Main statements

* `matchEnds_append_cons` — a delimiter on the stack is taken by its closer
* `matchEnds_eq_firstPair` — the pass finds the first pair, and goes on behind it as from the start
* `tags_matchEnds` — the pass finds the trees of the forest

## Design decisions

**The stack in the middle.**  What happens to an opening delimiter does not depend on those below
it, and those above it are closed before.  The law is therefore about a delimiter with others
above and below it, and the number of those above is the depth from which the search counts.
-/

namespace CommentTemplate

/-- A complete tag by its place in a text, in bytes. -/
structure TagSpan where
  /-- The name at its opening end. -/
  name : Text
  /-- Where the tag begins. -/
  start : Nat
  /-- Where the opening end is over. -/
  bodyStart : Nat
  /-- Where the closing end begins. -/
  bodyStop : Nat
  /-- Where the tag is over. -/
  stop : Nat
deriving DecidableEq, Repr

/-- A delimiter with the bytes at which it begins and at which it is over. -/
abbrev EndSpan := Delimiter × Nat × Nat

/-- The tag between two ends. -/
def TagSpan.ofEnds (o c : EndSpan) : TagSpan := ⟨o.1.name, o.2.1, o.2.2, c.2.1, c.2.2⟩

/-- The result of pairing delimiters. -/
structure Matching where
  /-- The complete tags, in the order of their closing ends. -/
  tags : List TagSpan
  /-- The delimiters that belong to no tag, in the order of the text. -/
  orphans : List EndSpan
deriving DecidableEq, Repr

/-- One pass over delimiters with a stack of open ones: an opening delimiter goes on top, and a
closing one takes the top away and makes a tag with it. -/
def matchEnds : List EndSpan → List EndSpan → Matching
  | stack, [] => ⟨[], stack.reverse⟩
  | stack, e :: es =>
    if e.1.opening then matchEnds (e :: stack) es
    else
      match stack with
      | [] =>
        let m := matchEnds [] es
        ⟨m.tags, e :: m.orphans⟩
      | o :: stack =>
        let m := matchEnds stack es
        ⟨.ofEnds o e :: m.tags, m.orphans⟩

section Step

variable {e o : EndSpan} {stack es : List EndSpan}

theorem matchEnds_of_opening (h : e.1.opening = true) :
    matchEnds stack (e :: es) = matchEnds (e :: stack) es := by
  simp [matchEnds, h]

theorem matchEnds_nil_of_closing (h : e.1.opening = false) :
    matchEnds [] (e :: es) = ⟨(matchEnds [] es).tags, e :: (matchEnds [] es).orphans⟩ := by
  simp [matchEnds, h]

theorem matchEnds_cons_of_closing (h : e.1.opening = false) :
    matchEnds (o :: stack) (e :: es) =
      ⟨.ofEnds o e :: (matchEnds stack es).tags, (matchEnds stack es).orphans⟩ := by
  simp [matchEnds, h]

end Step

/-! ## The stack and the count -/

/-- Delimiters that all belong to one tag. -/
def OneTag (fs : List (Found Delimiter)) : Prop :=
  ∀ f ∈ fs, ∀ g ∈ fs, f.tag.sameTag g.tag = true

theorem OneTag.mono {fs gs : List (Found Delimiter)} (h : OneTag gs) (hsub : fs ⊆ gs) :
    OneTag fs :=
  fun f hf g hg => h f (hsub hf) g (hsub hg)

theorem OneTag.head {f : Found Delimiter} {fs : List (Found Delimiter)} (h : OneTag (f :: fs)) :
    ∀ g ∈ fs, g.tag.sameTag f.tag = true :=
  fun g hg => h g (List.mem_cons_of_mem f hg) f List.mem_cons_self

open Scan (spans)

/-- Where a found delimiter stands that follows others. -/
def Found.endSpan (start : Nat) (f : Found Delimiter) : EndSpan :=
  (f.tag, start + Text.utf8Size f.before, start + Text.utf8Size f.before + Text.utf8Size f.raw)

theorem spans_cons (start : Nat) (f : Found Delimiter) (fs : List (Found Delimiter)) :
    spans start (f :: fs) = f.endSpan start :: spans (f.endSpan start).2.2 fs := rfl

theorem spans_append {α : Type} (start : Nat) (fs gs : List (Found α)) :
    spans start (fs ++ gs) =
      spans start fs ++ spans (start + Text.utf8Size (Found.texts fs)) gs := by
  induction fs generalizing start with
  | nil => rfl
  | cons f fs ih => simp [spans, ih, Nat.add_assoc]

theorem map_spans {α : Type} (start : Nat) (fs : List (Found α)) :
    (spans start fs).map Prod.fst = fs.map Found.tag := by
  induction fs generalizing start with
  | nil => rfl
  | cons f fs ih => simp [spans, ih]

/-- **A delimiter on the stack is taken by its closer**, whatever stands above and below it; then
the pass goes on with what was below.  If it has no closer, it is left over with all below it. -/
theorem matchEnds_append_cons {d : Delimiter} {fs : List (Found Delimiter)}
    (hd : ∀ f ∈ fs, f.tag.sameTag d = true) (o : EndSpan) (above below : List EndSpan)
    (start : Nat) :
    matchEnds (above ++ o :: below) (spans start fs) =
      match splitAtCloser d above.length fs with
      | none =>
        let m := matchEnds above (spans start fs)
        ⟨m.tags, below.reverse ++ o :: m.orphans⟩
      | some (inner, c, rest) =>
        let e := c.endSpan (start + Text.utf8Size (Found.texts inner))
        let m := matchEnds below (spans e.2.2 rest)
        ⟨(matchEnds above (spans start inner)).tags ++ .ofEnds o e :: m.tags, m.orphans⟩ := by
  induction fs generalizing above start with
  | nil => simp [splitAtCloser, spans, matchEnds]
  | cons f fs ih =>
      have hsame := hd f List.mem_cons_self
      have hfs := fun g hg => hd g (List.mem_cons_of_mem f hg)
      -- A delimiter before the closer goes to the inner ones, and the offsets are the same.
      have hstart (inner : List (Found Delimiter)) :
          start + Text.utf8Size (Found.texts (f :: inner)) =
            (f.endSpan start).2.2 + Text.utf8Size (Found.texts inner) := by
        simp [Found.endSpan, Nat.add_assoc]
      rw [spans_cons]
      unfold splitAtCloser
      rw [if_pos hsame]
      by_cases hopening : f.tag.opening = true
      · have hpush (stack : List EndSpan) (fs : List (Found Delimiter)) :
            matchEnds stack (f.endSpan start :: spans (f.endSpan start).2.2 fs) =
              matchEnds (f.endSpan start :: stack) (spans (f.endSpan start).2.2 fs) :=
          matchEnds_of_opening hopening
        rw [if_pos hopening, hpush, ← List.cons_append, ih hfs, List.length_cons]
        cases splitAtCloser d (above.length + 1) fs with
        | none => rw [Option.map_none, hpush]
        | some r => simp only [Option.map_some, hstart, spans_cons, hpush]
      · have hclosing : (f.endSpan start).1.opening = false := Bool.not_eq_true _ ▸ hopening
        rw [if_neg hopening]
        cases above with
        | nil =>
            rw [List.nil_append, matchEnds_cons_of_closing hclosing]
            simp [spans, matchEnds]
        | cons a above =>
            have hpop (stack : List EndSpan) (fs : List (Found Delimiter)) :
                matchEnds (a :: stack) (f.endSpan start :: spans (f.endSpan start).2.2 fs) =
                  ⟨.ofEnds a (f.endSpan start) ::
                      (matchEnds stack (spans (f.endSpan start).2.2 fs)).tags,
                    (matchEnds stack (spans (f.endSpan start).2.2 fs)).orphans⟩ :=
              matchEnds_cons_of_closing hclosing
            rw [List.cons_append, hpop, ih hfs]
            simp only [List.length_cons]
            cases splitAtCloser d above.length fs with
            | none => rw [Option.map_none, hpop]
            | some r => simp only [Option.map_some, hstart, spans_cons, hpop, List.cons_append]

/-- The pair that the search finds, where it stands. -/
def DelimiterPair.ends (p : DelimiterPair) (start : Nat) : EndSpan × EndSpan :=
  let o := p.opener.endSpan (start + Text.utf8Size (Found.texts p.skipped))
  (o, p.closer.endSpan (o.2.2 + Text.utf8Size (Found.texts p.inner)))

/-- The delimiters `fs` paired, if it is known which pair comes first: the tags inside that pair,
the pair, and the tags behind it.  The delimiters in front of the pair are left over. -/
def Matching.ofFirst (start : Nat) (fs : List (Found Delimiter)) : Option DelimiterPair → Matching
  | none => ⟨[], spans start fs⟩
  | some p =>
    let e := p.ends start
    let m := matchEnds [] (spans e.2.2.2 p.rest)
    ⟨(matchEnds [] (spans e.1.2.2 p.inner)).tags ++ .ofEnds e.1 e.2 :: m.tags,
      spans start p.skipped ++ m.orphans⟩

/-- A delimiter in front that does not belong to the pair is one more that is left over. -/
theorem Matching.ofFirst_skipped (start : Nat) (f : Found Delimiter) (fs : List (Found Delimiter))
    (pair : Option DelimiterPair) :
    ofFirst start (f :: fs) (pair.map fun p => { p with skipped := f :: p.skipped }) =
      let m := ofFirst (f.endSpan start).2.2 fs pair
      ⟨m.tags, f.endSpan start :: m.orphans⟩ := by
  cases pair with
  | none => rfl
  | some p =>
      have hends : ({ p with skipped := f :: p.skipped } : DelimiterPair).ends start =
          p.ends (f.endSpan start).2.2 := by
        simp [DelimiterPair.ends, Found.endSpan, Nat.add_assoc]
      simp only [ofFirst, Option.map_some, hends, spans_cons, List.cons_append]

/-- **The pass finds the first pair**, and goes on behind it as from the start. -/
theorem matchEnds_eq_firstPair {fs : List (Found Delimiter)} (hfs : OneTag fs) (start : Nat) :
    matchEnds [] (spans start fs) = .ofFirst start fs (firstPair fs) := by
  induction fs generalizing start with
  | nil => rfl
  | cons f fs ih =>
      have hrest := ih (hfs.mono (List.subset_cons_self f fs)) (f.endSpan start).2.2
      rw [firstPair, spans_cons]
      by_cases hopening : f.tag.opening = true
      · have hlaw := matchEnds_append_cons hfs.head (f.endSpan start) [] [] (f.endSpan start).2.2
        rw [List.length_nil, List.nil_append] at hlaw
        rw [if_pos hopening, matchEnds_of_opening hopening, hlaw]
        cases splitAtCloser f.tag 0 fs with
        | none => simp only [Matching.ofFirst_skipped, ← hrest, List.reverse_nil, List.nil_append]
        | some r => simp [Matching.ofFirst, DelimiterPair.ends, spans]
      · have hclosing : (f.endSpan start).1.opening = false := Bool.not_eq_true _ ▸ hopening
        rw [if_neg hopening, matchEnds_nil_of_closing hclosing, Matching.ofFirst_skipped, hrest]

/-! ## The places of a forest -/

/-- The tag of the given pieces, in a text that begins at byte `start`. -/
def TagSpan.ofPieces (start : Nat) (before name opener body closer : Text) : TagSpan :=
  let first := start + Text.utf8Size before
  let bodyFirst := first + Text.utf8Size opener
  let bodyLast := bodyFirst + Text.utf8Size body
  ⟨name, first, bodyFirst, bodyLast, bodyLast + Text.utf8Size closer⟩

/-- The places of the trees with their depths, the trees inside a tree before it, for a forest
whose text begins at byte `start`. -/
def Forest.places (depth start : Nat) : Forest → List (TagSpan × Nat)
  | leaf _ => []
  | tree before name opener body closer after =>
    let t := TagSpan.ofPieces start before name opener body.text closer
    body.places (depth + 1) t.bodyStart ++ (t, depth) :: after.places depth t.stop

/-- **The pass finds the trees of the forest**, a tree after those inside it. -/
theorem tags_matchEnds {s : Scan Delimiter} (hs : OneTag s.found) (depth start : Nat) :
    (matchEnds [] (spans start s.found)).tags = (s.forest.places depth start).map Prod.fst := by
  induction s using Scan.forest.induct generalizing depth start with
  | case1 s h =>
      rw [matchEnds_eq_firstPair hs, h, Scan.forest_of_none h]
      rfl
  | case2 s p h _ _ ihInner ihRest =>
      rw [← firstPair_spec h] at hs
      have hinner : OneTag p.inner := hs.mono fun f hf => by simp [hf]
      have hrest : OneTag p.rest := hs.mono fun f hf => by simp [hf]
      rw [matchEnds_eq_firstPair (firstPair_spec h ▸ hs), h, Scan.forest_of_some h,
        Matching.ofFirst]
      simp [Forest.places, TagSpan.ofPieces, ihInner hinner (depth + 1), ihRest hrest depth,
        DelimiterPair.ends, Found.endSpan, TagSpan.ofEnds, Scan.text, Nat.add_assoc]

end CommentTemplate
