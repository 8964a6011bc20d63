import CommentTemplate.Proofs.Replace.Joined

/-!
# What an extraction leaves

The extraction of replacement tags joins the texts in front of the tags and behind them, and does
not scan the result.  The delimiters that stay have no partner among themselves.  A complete tag
is therefore left exactly if a delimiter comes about where texts are joined and has a partner, and
that can happen: a tag may stand in the middle of what becomes a delimiter once the tag is gone.

## Main definitions

* `Forest.pieces` — the texts around the trees of a forest
* `Forest.bodies` — the bodies of all its trees
* `Forest.Apart` — no delimiter comes about where a tree is taken out

## Main statements

* `tags_pieces` — the texts around the trees have the delimiters left over by the pass
* `nextReplace_outside_iff` — a text without its trees has a complete tag exactly if one comes about
* `nextReplace_of_extracted` — the same for all that an extraction returns
* `extractReplacements_leaves_tag` — a text of which the extraction leaves a complete tag
-/

namespace CommentTemplate

/-! ## Texts without their trees -/

namespace Forest

/-- The texts around the trees, the trees being taken out. -/
def pieces : Forest → List Text
  | leaf t => [t]
  | tree before _ _ _ _ after => before :: after.pieces

/-- The bodies of all trees, those inside other trees included. -/
def bodies : Forest → List Forest
  | leaf _ => []
  | tree _ _ _ body _ after => body.bodies ++ body :: after.bodies

/-- No delimiter comes about where a tree is taken out of a forest. -/
inductive Apart (r : Recognizer Delimiter) : Forest → Prop where
  | leaf (t : Text) : Apart r (.leaf t)
  | tree {before : Text} {body after : Forest} (name opener closer : Text)
    (joint : ¬r.Straddles before after.outside) (hbody : Apart r body) (hafter : Apart r after) :
    Apart r (.tree before name opener body closer after)

variable {r : Recognizer Delimiter} {f g : Forest}

theorem flatten_pieces (f : Forest) : f.pieces.flatten = f.outside := by
  induction f with
  | leaf t => simp [pieces, outside]
  | tree before name opener body closer after _ ihAfter => simp [pieces, outside, ihAfter]

/-- What is bound to a name is left of the body of a tree, if no tree is too deep. -/
theorem exists_body_of_mem_contents {limit depth : Nat}
    (hshallow : ∀ e ∈ f.postorder depth, e.2 < limit) {e : Text × Text}
    (he : e ∈ f.contents limit depth) : ∃ g ∈ f.bodies, e.2 = g.outside := by
  induction f generalizing depth with
  | leaf t => simp [contents] at he
  | tree before name opener body closer after ihBody ihAfter =>
      simp only [postorder_tree, List.forall_mem_append, List.forall_mem_cons] at hshallow
      obtain ⟨hinner, hdepth, hlater⟩ := hshallow
      rw [contents, if_pos hdepth, List.mem_append, List.mem_cons] at he
      rcases he with he | rfl | he
      · obtain ⟨g, hg, heq⟩ := ihBody hinner he
        exact ⟨g, List.mem_append_left _ hg, heq⟩
      · exact ⟨body, by simp [bodies], stripped_of_shallow hinner⟩
      · obtain ⟨g, hg, heq⟩ := ihAfter hlater he
        exact ⟨g, by simp [bodies, hg], heq⟩

/-- What is apart is apart around the trees. -/
theorem Apart.seamless (h : f.Apart r) : r.Seamless f.pieces := by
  induction h with
  | leaf t =>
      refine ⟨?_, trivial⟩
      rintro ⟨front, u, v, back, tag, -, hnil, -, hv, -⟩
      exact hv (List.append_eq_nil_iff.1 hnil.symm).1
  | tree name opener closer joint _ _ _ ihAfter =>
      refine ⟨?_, ihAfter⟩
      rwa [flatten_pieces]

/-- What is apart is apart in the bodies of the trees. -/
theorem Apart.of_mem_bodies (h : f.Apart r) (hg : g ∈ f.bodies) : g.Apart r := by
  induction h with
  | leaf t => cases hg
  | tree name opener closer joint hbody _ ihBody ihAfter =>
      rcases List.mem_append.1 hg with hg | hg
      · exact ihBody hg
      · rcases List.mem_cons.1 hg with rfl | hg
        · exact hbody
        · exact ihAfter hg

end Forest

/-- A delimiter begins with an angle bracket, so no other text can become the beginning of one. -/
theorem not_straddles_of_not_mem {a b : Text} (h : '<' ∉ a) : ¬replaceDelimiter.Straddles a b := by
  rintro ⟨front, u, v, back, tag, rfl, -, hu, -, htag⟩
  obtain ⟨c, rest, hc, rfl⟩ := startsWith_commentTag _ htag
  obtain ⟨d, u, rfl⟩ := List.exists_cons_of_ne_nil hu
  obtain ⟨rfl, -⟩ := List.cons.inj hc
  exact h (by simp)

/-! ## The delimiters left over -/

/-- **The texts around the trees have the delimiters left over** by the pass over the text. -/
theorem tags_pieces (s : Text) (start : Nat) : pieceTags (replaceDelimiter.forest s).pieces =
    (matchEnds [] (Scan.spans start (replaceDelimiter.scan s).found)).orphans.map Prod.fst := by
  induction s using nextPair_induction replaceDelimiter generalizing start with
  | leaf s hs =>
      have hpair : firstPair (replaceDelimiter.scan s).found = none := Option.map_eq_none_iff.1 hs
      rw [Recognizer.forest_of_nextPair_none hs,
        matchEnds_eq_firstPair (oneTag_scan_replaceDelimiter s), hpair, Forest.pieces, pieceTags,
        List.flatMap_singleton]
      exact (map_spans start _).symm
  | tree s p hs _ ihAfter =>
      rw [Recognizer.forest_of_nextPair closed_replaceDelimiter hs]
      obtain ⟨q, hq, rfl⟩ := Option.map_eq_some_iff.1 hs
      obtain ⟨hbefore, -, hrest⟩ := Recognizer.scan_of_firstPair closed_replaceDelimiter hq
      have hafter := ihAfter (q.ends start).2.2.2
      rw [pieceTags] at hafter
      rw [matchEnds_eq_firstPair (oneTag_scan_replaceDelimiter s), hq, Matching.ofFirst,
        Forest.pieces, pieceTags, List.flatMap_cons, hafter, hbefore, hrest]
      simp [Scan.tags, map_spans]

/-- Around the trees of a text, and around those in the bodies of its trees, the closing delimiters
come first. -/
theorem closersFirst_pieces (s : Text) : ∀ g ∈
    replaceDelimiter.forest s :: (replaceDelimiter.forest s).bodies,
      ClosersFirst (pieceTags g.pieces) := by
  have houtside (s : Text) : ClosersFirst (pieceTags (replaceDelimiter.forest s).pieces) := by
    rw [tags_pieces s 0]
    exact closersFirst_orphans (List.forall_mem_nil _) _
  induction s using nextPair_induction replaceDelimiter with
  | leaf s hs =>
      rw [List.forall_mem_cons]
      refine ⟨houtside s, ?_⟩
      rw [Recognizer.forest_of_nextPair_none hs]
      exact List.forall_mem_nil _
  | tree s p hs ihBody ihAfter =>
      rw [List.forall_mem_cons] at ihBody ihAfter ⊢
      refine ⟨houtside s, ?_⟩
      rw [Recognizer.forest_of_nextPair closed_replaceDelimiter hs, Forest.bodies,
        List.forall_mem_append, List.forall_mem_cons]
      exact ⟨ihBody.2, ihBody.1, ihAfter.2⟩

/-- **A text without its trees has a complete tag exactly if one comes about**, and so do the bodies
of its trees. -/
theorem nextReplace_outside_iff {s : Text} {g : Forest}
    (hg : g ∈ replaceDelimiter.forest s :: (replaceDelimiter.forest s).bodies) :
    nextReplace g.outside = none ↔ ¬TagArises g.pieces := by
  rw [← Forest.flatten_pieces]
  exact nextReplace_flatten_eq_none_iff (closersFirst_pieces s g hg)

/-- No complete tag comes about where no delimiter does. -/
theorem nextReplace_outside {s : Text} (h : (replaceDelimiter.forest s).Apart replaceDelimiter)
    {g : Forest} (hg : g ∈ replaceDelimiter.forest s :: (replaceDelimiter.forest s).bodies) :
    nextReplace g.outside = none := by
  have hapart : g.Apart replaceDelimiter := by
    rcases List.mem_cons.1 hg with rfl | hg
    · exact h
    · exact h.of_mem_bodies hg
  rw [← Forest.flatten_pieces, nextReplace_eq_none_iff, tags_scan_flatten hapart.seamless]
  exact closersFirst_pieces s g hg

/-! ## Extracting again -/

/-- **No complete tag is left exactly if none comes about**, by an extraction that cuts off nothing.
The text that is returned is joined from the texts around the trees, and each content from those
around the trees in the body of a tree.  There is no complete tag in it exactly if none comes about
at a joint; then extracting again changes nothing.  In particular there is none if no delimiter
comes about where a tree is taken out. -/
theorem nextReplace_of_extracted {limit : Nat} {s t u : Text} {found : Replacements}
    (h : extractReplacements ⟨true, limit⟩ s = .ok (t, found))
    (hu : u = t ∨ ∃ name, found.find? name = some u) :
    let f := replaceDelimiter.forest s
    ∃ g ∈ f :: f.bodies, (u = t → g = f) ∧ u = g.pieces.flatten ∧
      (nextReplace u = none ↔ ¬TagArises g.pieces) ∧
      (nextReplace u = none →
        ∀ policy : Policy, extractReplacements policy u = .ok (u, Dict.empty)) ∧
      (f.Apart replaceDelimiter → nextReplace u = none) := by
  intro f
  have hshallow := shallow_of_extractAt rfl h
  rw [extractReplacements, extractAt_of_shallow fun _ => hshallow,
    Forest.stripped_of_shallow hshallow, Except.ok.injEq, Prod.mk.injEq] at h
  obtain ⟨rfl, rfl⟩ := h
  obtain ⟨g, hg, htext, hout⟩ : ∃ g ∈ f :: f.bodies, (u = f.outside → g = f) ∧ u = g.outside := by
    by_cases htext : u = f.outside
    · exact ⟨f, List.mem_cons_self, fun _ => rfl, htext⟩
    · obtain ⟨name, hname⟩ := hu.resolve_left htext
      obtain ⟨g, hg, hout⟩ :=
        Forest.exists_body_of_mem_contents hshallow (Dict.mem_of_find?_ofList hname)
      exact ⟨g, List.mem_cons_of_mem f hg, fun h => absurd h htext, hout⟩
  subst hout
  exact ⟨g, hg, htext, g.flatten_pieces.symm, nextReplace_outside_iff hg,
    fun hnone policy => extractReplacements_of_no_tag hnone,
    fun hapart => nextReplace_outside hapart hg⟩

/-- A text with one replacement tag in another one. -/
def nestedTags : Text :=
  "x<!-- REPLACE a -->b<!-- REPLACE c -->d<!-- /REPLACE -->e<!-- /REPLACE -->y".toList

/-- Nothing is left to be extracted from the contents of the two tags and the text around them. -/
theorem nextReplace_nestedTags :
    extractReplacements ⟨true, 2⟩ nestedTags =
      .ok ("xy".toList, Dict.ofList [("a".toList, "be".toList), ("c".toList, "d".toList)]) ∧
    (replaceDelimiter.forest nestedTags).Apart replaceDelimiter ∧
    ∀ u ∈ ["xy".toList, "be".toList, "d".toList], nextReplace u = none ∧
      ∀ policy : Policy, extractReplacements policy u = .ok (u, Dict.empty) := by
  have hextract : extractReplacements ⟨true, 2⟩ nestedTags =
      .ok ("xy".toList, Dict.ofList [("a".toList, "be".toList), ("c".toList, "d".toList)]) := by
    decide +kernel
  have hforest : replaceDelimiter.forest nestedTags =
      .tree "x".toList "a".toList "<!-- REPLACE a -->".toList
        (.tree "b".toList "c".toList "<!-- REPLACE c -->".toList (.leaf "d".toList)
          "<!-- /REPLACE -->".toList (.leaf "e".toList))
        "<!-- /REPLACE -->".toList (.leaf "y".toList) := by
    decide +kernel
  have hapart : (replaceDelimiter.forest nestedTags).Apart replaceDelimiter := by
    rw [hforest]
    exact .tree _ _ _ (not_straddles_of_not_mem (by decide))
      (.tree _ _ _ (not_straddles_of_not_mem (by decide)) (.leaf _) (.leaf _)) (.leaf _)
  have hleft {u : Text} (hu : u = "xy".toList ∨
      ∃ name, (Dict.ofList [("a".toList, "be".toList), ("c".toList, "d".toList)]).find? name =
        some u) : nextReplace u = none ∧
      ∀ policy : Policy, extractReplacements policy u = .ok (u, Dict.empty) := by
    obtain ⟨_, -, -, -, -, hagain, hnone⟩ := nextReplace_of_extracted hextract hu
    exact ⟨hnone hapart, hagain (hnone hapart)⟩
  refine ⟨hextract, hapart, ?_⟩
  simp only [List.forall_mem_cons]
  exact ⟨hleft (.inl rfl), hleft (.inr ⟨"a".toList, by decide +kernel⟩),
    hleft (.inr ⟨"c".toList, by decide +kernel⟩), List.forall_mem_nil _⟩

/-- **A complete tag can be left.**  Here a tag stands inside what is a delimiter without it. -/
theorem extractReplacements_leaves_tag :
    extractReplacements ⟨true, 10⟩
        "<!-- REPLACE<!-- REPLACE a -->x<!-- /REPLACE --> b -->y<!-- /REPLACE -->".toList =
      .ok ("<!-- REPLACE b -->y<!-- /REPLACE -->".toList, Dict.ofList [("a".toList, "x".toList)]) ∧
    nextReplace "<!-- REPLACE b -->y<!-- /REPLACE -->".toList ≠ none := by
  decide +kernel

end CommentTemplate
