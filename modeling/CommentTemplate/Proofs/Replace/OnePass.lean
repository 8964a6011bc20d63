import Mathlib.Control.Monad.Basic
import CommentTemplate.Proofs.Replace.Extraction
import CommentTemplate.Proofs.Tag.Places

/-!
# Extraction with one pass

The extraction of replacement tags looks for a pair, takes it out, and starts anew on the body and
on what follows.  The same comes out if the delimiters are paired once, with a stack, and all spans
are cut from the text at their places.

## Main definitions

* `Text.keep` — the characters of a text at some of the bytes
* `Text.without` — the text without some tags
* `TagSpan.content` — the body of a tag without those of some tags that lie in it

## Main statements

* `keep_eq_stripped` — what is left of a forest
* `contents_eq_places` — what is left of the bodies of its trees
* `extractReplacements_eq_onePass` — the extraction, for every text and policy
-/

namespace CommentTemplate

/-! ## Text at some of the bytes -/

namespace Text

/-- The characters of a text that begin at bytes with a property, for a text that begins at byte
`start` itself. -/
def keep (p : Nat → Bool) (start : Nat) : Text → Text
  | [] => []
  | c :: t =>
    if p start then c :: keep p (start + c.utf8Size) t else keep p (start + c.utf8Size) t

variable {p q : Nat → Bool} {start : Nat} {t : Text}

theorem keep_append (p : Nat → Bool) (start : Nat) (a b : Text) :
    keep p start (a ++ b) = keep p start a ++ keep p (start + utf8Size a) b := by
  induction a generalizing start with
  | nil => rfl
  | cons c a ih => by_cases h : p start = true <;> simp [keep, h, ih, Nat.add_assoc]

/-- Only the bytes of the text matter. -/
theorem keep_congr (h : ∀ i, start ≤ i → i < start + utf8Size t → p i = q i) :
    keep p start t = keep q start t := by
  induction t generalizing start with
  | nil => rfl
  | cons c t ih =>
      have hc := Char.utf8Size_pos c
      rw [utf8Size_cons] at h
      rw [keep, keep, h start (Nat.le_refl _) (by omega), ih fun i _ _ => h i (by omega) (by omega)]

theorem keep_true (start : Nat) (t : Text) : keep (fun _ => true) start t = t := by
  induction t generalizing start with
  | nil => rfl
  | cons c t ih => simp [keep, ih]

theorem keep_false (start : Nat) (t : Text) : keep (fun _ => false) start t = [] := by
  induction t generalizing start with
  | nil => rfl
  | cons c t ih => simp [keep, ih]

theorem keep_eq_self (h : ∀ i, start ≤ i → i < start + utf8Size t → p i = true) :
    keep p start t = t :=
  (keep_congr h).trans (keep_true start t)

theorem keep_eq_nil (h : ∀ i, start ≤ i → i < start + utf8Size t → p i = false) :
    keep p start t = [] :=
  (keep_congr h).trans (keep_false start t)

/-- The text without the bytes of some tags. -/
def without (tags : List TagSpan) (t : Text) : Text :=
  t.keep (fun i => ∀ u ∈ tags, ¬u.Covers i) 0

end Text

/-- What is left of the body of a tag without those of some tags that lie in it, for a text that
begins at byte `start`. -/
def TagSpan.content (tags : List TagSpan) (start : Nat) (s : Text) (t : TagSpan) : Text :=
  s.keep (fun i => t.bodyStart ≤ i ∧ i < t.bodyStop ∧ ∀ u ∈ tags, t.Encloses u → ¬u.Covers i) start

/-- Of the text and of the other tags, only what lies in the body matters. -/
theorem TagSpan.content_eq_of_middle {t : TagSpan} {tags tags' : List TagSpan} {start : Nat}
    {a b c : Text} (hstart : start + Text.utf8Size a ≤ t.bodyStart)
    (hstop : t.bodyStop ≤ start + Text.utf8Size a + Text.utf8Size b)
    (htags : ∀ u, t.Encloses u → (u ∈ tags ↔ u ∈ tags')) :
    t.content tags start (a ++ (b ++ c)) = t.content tags' (start + Text.utf8Size a) b := by
  have hfront : Text.keep (fun i => t.bodyStart ≤ i ∧ i < t.bodyStop ∧
      ∀ u ∈ tags, t.Encloses u → ¬u.Covers i) start a = [] :=
    Text.keep_eq_nil fun i _ hi => decide_eq_false fun h => by omega
  have hback : Text.keep (fun i => t.bodyStart ≤ i ∧ i < t.bodyStop ∧
      ∀ u ∈ tags, t.Encloses u → ¬u.Covers i) (start + Text.utf8Size a + Text.utf8Size b) c = [] :=
    Text.keep_eq_nil fun i hi _ => decide_eq_false fun h => by omega
  rw [content, Text.keep_append, Text.keep_append, hfront, hback, List.nil_append, List.append_nil]
  refine Text.keep_congr fun i _ _ => decide_eq_decide.2 ?_
  have hsame : (∀ u ∈ tags, t.Encloses u → ¬u.Covers i) ↔
      ∀ u ∈ tags', t.Encloses u → ¬u.Covers i :=
    ⟨fun h u hu henc => h u ((htags u henc).2 hu) henc,
      fun h u hu henc => h u ((htags u henc).1 hu) henc⟩
  rw [hsame]

namespace Forest

namespace Nest

variable {start last : Nat} {t u : TagSpan} {inner later : List TagSpan} {a b : Text}

theorem content_self (h : Nest last t inner later) (hbegin : t.bodyStart = start + Text.utf8Size a)
    (hover : t.bodyStop = t.bodyStart + Text.utf8Size b) (c : Text) :
    t.content (inner ++ t :: later) start (a ++ (b ++ c)) = t.content inner t.bodyStart b := by
  rw [hbegin] at hover ⊢
  refine TagSpan.content_eq_of_middle (Nat.le_of_eq hbegin.symm) (Nat.le_of_eq hover)
    fun v henc => ?_
  have hv : v ≠ t := fun hv => h.tag.not_encloses_self (hv ▸ henc)
  have hvlater : v ∉ later := fun hv => (h.later_apart hv).1 henc
  simp [hv, hvlater]

theorem content_inner (h : Nest last t inner later) (hu : u ∈ inner)
    (hbegin : t.bodyStart = start + Text.utf8Size a)
    (hover : t.bodyStop = t.bodyStart + Text.utf8Size b) (c : Text) :
    u.content (inner ++ t :: later) start (a ++ (b ++ c)) = u.content inner t.bodyStart b := by
  have hwithin := h.inner u hu
  rw [hover, hbegin] at hwithin
  rw [hbegin]
  refine TagSpan.content_eq_of_middle hwithin.le_bodyStart hwithin.bodyStop_le fun v henc => ?_
  have hv : v ≠ t := fun hv => h.not_inner_encloses hu (hv ▸ henc)
  have hvlater : v ∉ later := fun hv => (h.inner_later_apart hu hv).1 henc
  simp [hv, hvlater]

theorem content_later (h : Nest last t inner later) (hu : u ∈ later)
    (hstop : t.stop = start + Text.utf8Size a) (hlast : last = t.stop + Text.utf8Size b) :
    u.content (inner ++ t :: later) start (a ++ (b ++ [])) = u.content later t.stop b := by
  have hwithin := h.later u hu
  rw [hlast, hstop] at hwithin
  rw [hstop]
  refine TagSpan.content_eq_of_middle hwithin.le_bodyStart hwithin.bodyStop_le fun v henc => ?_
  have hv : v ≠ t := fun hv => (h.later_apart hu).2 (hv ▸ henc)
  have hvinner : v ∉ inner := fun hv => (h.inner_later_apart hv hu).2 henc
  simp [hv, hvinner]

end Nest

variable {r : Recognizer Delimiter} {f : Forest} {limit depth start : Nat}

/-- The trees above the limit, where they stand. -/
def kept (limit depth start : Nat) (f : Forest) : List TagSpan :=
  ((f.places depth start).filter fun e => e.2 < limit).map Prod.fst

theorem kept_of_le (h : limit ≤ depth) : f.kept limit depth start = [] := by
  rw [kept, List.map_eq_nil_iff, List.filter_eq_nil_iff]
  intro e he
  simpa using Nat.le_trans h (le_of_mem_places he)

/-- The trees above the limit are those in the body, the tree itself and those behind it. -/
theorem kept_tree (h : depth < limit) (before name opener : Text) (body : Forest) (closer : Text)
    (after : Forest) :
    (tree before name opener body closer after).kept limit depth start =
      let t := TagSpan.ofPieces start before name opener body.text closer
      body.kept limit (depth + 1) t.bodyStart ++ t :: after.kept limit depth t.stop := by
  simp [kept, places, h]

theorem kept_subset (limit : Nat) :
    f.kept limit depth start ⊆ (f.places depth start).map Prod.fst :=
  List.map_subset _ List.filter_sublist.subset

/-- **The text without the trees above the limit** is the text at the bytes of none of them. -/
theorem keep_eq_stripped (hf : f.Delimited r) {p : Nat → Bool}
    (hp : ∀ i, start ≤ i → i < start + Text.utf8Size f.text →
      (p i = true ↔ ∀ t ∈ f.kept limit depth start, ¬t.Covers i)) :
    f.text.keep p start = f.stripped limit depth := by
  rcases Nat.lt_or_ge depth limit with hd | hd
  · rw [stripped_of_lt hd]
    induction hf generalizing start with
    | leaf t => exact Text.keep_eq_self fun i hi hlt => (hp i hi hlt).2 fun u hu => nomatch hu
    | @tree before name opener closer body after ends hbody hafter ihBody ihAfter =>
        have hnest := (nest_tree before ends hbody hafter depth start).mono
          (kept_subset limit) (kept_subset limit)
        have htext : (tree before name opener body closer after).text =
            before ++ ((opener ++ (body.text ++ closer)) ++ after.text) := by simp
        have hstart := TagSpan.start_ofPieces start before name opener body.text closer
        have hstop := TagSpan.stop_ofPieces start before name opener body.text closer
        rw [kept_tree hd, htext] at hp
        generalize TagSpan.ofPieces start before name opener body.text closer = t at *
        simp only [Text.utf8Size_append] at hp hstop
        have hlast : t.start + Text.utf8Size (opener ++ (body.text ++ closer)) = t.stop := by
          simp only [Text.utf8Size_append]
          omega
        have hbefore : Text.keep p start before = before :=
          Text.keep_eq_self fun i hi hlt =>
            (hp i hi (by omega)).2 (hnest.not_covers_before (hstart ▸ hlt))
        have htag : Text.keep p t.start (opener ++ (body.text ++ closer)) = [] := by
          refine Text.keep_eq_nil fun i hi hlt => Bool.not_eq_true _ ▸ fun htrue => ?_
          exact (hp i (by omega) (by omega)).1 htrue t (by simp) ⟨hi, hlast ▸ hlt⟩
        have hrest : Text.keep p t.stop after.text = after.outside :=
          ihAfter fun i hi hlt =>
            (hp i (by omega) (by omega)).trans (hnest.not_covers_behind_iff hi)
        rw [htext, Text.keep_append, Text.keep_append, ← hstart, hlast, hbefore, htag, hrest]
        rfl
  · rw [stripped_of_le hd]
    refine Text.keep_eq_self fun i hi hlt => (hp i hi hlt).2 ?_
    simp [kept_of_le hd]

/-- **What is left of the bodies** is read off the places as well. -/
theorem contents_eq_places (hf : f.Delimited r) (depth start : Nat) :
    f.contents limit depth = (f.kept limit depth start).map fun t =>
      (t.name, t.content (f.kept limit depth start) start f.text) := by
  induction hf generalizing depth start with
  | leaf t => rfl
  | @tree before name opener closer body after ends hbody hafter ihBody ihAfter =>
      rcases Nat.lt_or_ge depth limit with hd | hd
      · have hnest := (nest_tree before ends hbody hafter depth start).mono
          (kept_subset limit) (kept_subset limit)
        have hmiddle : (tree before name opener body closer after).text =
            (before ++ opener) ++ (body.text ++ (closer ++ after.text)) := by simp
        have hend : (tree before name opener body closer after).text =
            (before ++ (opener ++ (body.text ++ closer))) ++ (after.text ++ []) := by simp
        have hbegin := TagSpan.bodyStart_ofPieces start before name opener body.text closer
        have hover := TagSpan.bodyStop_ofPieces start before name opener body.text closer
        have hstop := TagSpan.stop_ofPieces start before name opener body.text closer
        have hname : (TagSpan.ofPieces start before name opener body.text closer).name = name := rfl
        rw [contents, if_pos hd, kept_tree hd]
        dsimp only
        generalize TagSpan.ofPieces start before name opener body.text closer = t at *
        subst hname
        have hbare : t.content (body.kept limit (depth + 1) t.bodyStart) t.bodyStart body.text =
            body.stripped limit (depth + 1) :=
          keep_eq_stripped hbody fun i hi hlt => by
            rw [← hover] at hlt
            simp only [hi, hlt, true_and, decide_eq_true_eq]
            exact forall₂_congr fun u hu => by simp [hnest.encloses_inner hu]
        rw [ihBody (depth + 1) t.bodyStart, ihAfter depth t.stop, ← hbare, List.map_append,
          List.map_cons]
        congr 1
        · refine List.map_congr_left fun u hu => ?_
          rw [hmiddle, hnest.content_inner hu hbegin hover]
        · congr 1
          · rw [hmiddle, hnest.content_self hbegin hover]
          · refine List.map_congr_left fun u hu => ?_
            rw [hend, hnest.content_later hu hstop rfl]
      · rw [contents_of_le hd, kept_of_le hd]
        rfl

/-! ### Depths counted on the places -/

/-- The trees above the limit are the tags with fewer tags around them. -/
theorem filter_depthIn (hf : f.Delimited r) (limit start : Nat) :
    let tags := (f.places 0 start).map Prod.fst
    (tags.filter fun t => t.depthIn tags < limit) = f.kept limit 0 start := by
  dsimp only
  rw [kept, List.filter_map]
  refine congrArg _ (List.filter_congr fun e he => ?_)
  have hdepth := depthIn_places hf he
  rw [Nat.add_zero] at hdepth
  simp [hdepth]

/-- A tag with many tags around it is a tree that is deep. -/
theorem exists_depthIn_iff (hf : f.Delimited r) (limit start : Nat) :
    let tags := (f.places 0 start).map Prod.fst
    (∃ t ∈ tags, limit ≤ t.depthIn tags) ↔ ∃ e ∈ f.postorder 0, limit ≤ e.2 := by
  dsimp only
  simp only [← map_places f 0 start, List.mem_map, exists_exists_and_eq_and]
  refine exists_congr fun e => and_congr_right fun he => ?_
  have hdepth := depthIn_places hf he
  rw [Nat.add_zero] at hdepth
  rw [hdepth]

/-- Cutting out the outermost tags leaves what is left of the forest. -/
theorem without_outermost (hf : f.Delimited r) (limit : Nat) :
    let tags := (f.places 0 0).map Prod.fst
    f.text.without ((tags.filter fun t => t.depthIn tags < limit).filter
      fun t => t.depthIn tags = 0) = f.stripped limit 0 := by
  dsimp only
  -- The outermost tags are those above the limit one, which leaves the same text if there is any.
  have hkept : ((((f.places 0 0).map Prod.fst).filter fun t =>
      t.depthIn ((f.places 0 0).map Prod.fst) < limit).filter
        fun t => t.depthIn ((f.places 0 0).map Prod.fst) = 0) = f.kept (min limit 1) 0 0 := by
    rw [← filter_depthIn hf, List.filter_filter]
    refine List.filter_congr fun t _ => ?_
    rw [← Bool.decide_and]
    exact decide_eq_decide.2 (by omega)
  have hstripped : f.stripped limit 0 = f.stripped (min limit 1) 0 := by
    have hlimit : 0 < limit ↔ 0 < min limit 1 := by omega
    simp only [stripped, hlimit]
  rw [hkept, hstripped]
  exact keep_eq_stripped hf fun i _ _ => by simp

end Forest

/-! ## The extraction -/

/-- All delimiters of replacement tags belong together. -/
theorem oneTag_scan_replaceDelimiter (s : Text) : OneTag (replaceDelimiter.scan s).found := by
  have hstyle {f} (hf : f ∈ (replaceDelimiter.scan s).found) : f.tag.style = .replacement := by
    have hraw := Recognizer.isSpelling_of_mem_scan closed_replaceDelimiter hf
    obtain ⟨_, hcontent⟩ :=
      ((Recognizer.isSpelling_iff reads_replaceDelimiter).1 hraw).exists_content
    exact hcontent.style_eq
  intro f hf g hg
  simp [Delimiter.sameTag, hstyle hf, hstyle hg]

/-- Among tags in the order of their ends the one of a name that closes last is the one bound. -/
theorem find?_ofList_of_last {tags : List TagSpan} {t : TagSpan} (content : TagSpan → Text)
    (htags : tags.Pairwise fun t u => t.stop < u.stop) (ht : t ∈ tags)
    (hlast : ∀ u ∈ tags, u.name = t.name → u.stop ≤ t.stop) :
    (Dict.ofList (tags.map fun t => (t.name, content t))).find? t.name = some (content t) := by
  obtain ⟨front, back, rfl⟩ := List.append_of_mem ht
  obtain ⟨-, hback, -⟩ := List.pairwise_append.1 htags
  have hbehind := (List.pairwise_cons.1 hback).1
  rw [List.map_append, List.map_cons]
  refine Dict.find?_ofList_append_cons (List.forall_mem_map.2 fun u hu hname => ?_)
  exact Nat.not_lt.2 (hlast u (by simp [hu]) hname) (hbehind u hu)

/-- **Extraction with one pass.**  The delimiters of a text are paired with a stack.  The extraction
fails if nesting too deep is an error and a tag lies in as many others as the limit says or more.
Otherwise such tags are text; the outermost of the others are cut from the text, and each name is
bound to what is left of the body of the tag of that name that closes last. -/
theorem extractReplacements_eq_onePass (policy : Policy) (s : Text) :
    let tags := (matchEnds [] (Scan.spans 0 (replaceDelimiter.scan s).found)).tags
    let kept := tags.filter fun t => t.depthIn tags < policy.limit
    let outermost := kept.filter fun t => t.depthIn tags = 0
    if policy.strict = true ∧ ∃ t ∈ tags, policy.limit ≤ t.depthIn tags then
      extractReplacements policy s = .error (.recursionLimit .replacement policy.limit)
    else ∃ found, extractReplacements policy s = .ok (s.without outermost, found) ∧
      (∀ name, found.contains name = true ↔ ∃ t ∈ kept, t.name = name) ∧
      ∀ t ∈ kept, (∀ u ∈ kept, u.name = t.name → u.stop ≤ t.stop) →
        found.find? t.name = some (t.content kept 0 s) := by
  have hf := delimited_forest closed_replaceDelimiter s
  have htags : (matchEnds [] (Scan.spans 0 (replaceDelimiter.scan s).found)).tags =
      ((replaceDelimiter.forest s).places 0 0).map Prod.fst :=
    tags_matchEnds (oneTag_scan_replaceDelimiter s) 0 0
  rw [htags]
  intro tags kept outermost
  have hdeep : (∃ t ∈ tags, policy.limit ≤ t.depthIn tags) ↔
      ∃ e ∈ (replaceDelimiter.forest s).postorder 0, policy.limit ≤ e.2 :=
    Forest.exists_depthIn_iff hf policy.limit 0
  split
  · next h => exact extractAt_of_deep h.1 (hdeep.1 h.2)
  · next h =>
      have hshallow : policy.strict = true →
          ∀ e ∈ (replaceDelimiter.forest s).postorder 0, e.2 < policy.limit := fun hstrict e he =>
        Nat.not_le.1 fun hle => h ⟨hstrict, hdeep.2 ⟨e, he, hle⟩⟩
      have htext : s.without outermost = (replaceDelimiter.forest s).stripped policy.limit 0 := by
        rw [← Forest.without_outermost hf, replaceDelimiter.text_forest]
      have hfound : (Dict.empty : Replacements).insertAll
            ((replaceDelimiter.forest s).contents policy.limit 0) =
          Dict.ofList (kept.map fun t => (t.name, t.content kept 0 s)) := by
        have hkept : kept = (replaceDelimiter.forest s).kept policy.limit 0 0 :=
          Forest.filter_depthIn hf policy.limit 0
        rw [Forest.contents_eq_places hf 0 0, replaceDelimiter.text_forest, ← hkept]
        rfl
      have hstops : kept.Pairwise fun t u => t.stop < u.stop :=
        (Forest.stop_lt_places hf 0 0).filter _
      refine ⟨_, by rw [htext, ← hfound]; exact extractAt_of_shallow hshallow, fun name => ?_,
        fun t ht hlast => find?_ofList_of_last _ hstops ht hlast⟩
      simp only [Dict.contains_ofList, List.mem_map, exists_exists_and_eq_and]

/-- Of two tags of one name, one inside the other, the outer one closes last. -/
example : extractReplacements ⟨true, 2⟩
    "<!-- REPLACE a -->x<!-- REPLACE a -->y<!-- /REPLACE --><!-- /REPLACE -->".toList =
      .ok ([], Dict.ofList [("a".toList, "x".toList)]) := by
  decide +kernel

end CommentTemplate
