import CommentTemplate.Proofs.Tag.Ends
import CommentTemplate.Proofs.Tag.Stack

/-!
# How the places of tags are nested

Of two complete tags of a text either one lies in the body of the other or they lie apart.  The
depth of a tag in the forest can therefore be counted on the places alone: it is the number of tags
in whose bodies the tag lies.

## Main definitions

* `TagSpan.Covers`, `TagSpan.Encloses` — a byte of a tag, and a tag in the body of another one
* `TagSpan.depthIn` — the number of tags that enclose a tag
* `TagSpan.Within` — a tag between two bytes, its parts in order
* `Forest.Nest` — a tag with the tags inside it and those behind it

## Main statements

* `Forest.within_of_mem_places` — the places of a forest are within its text
* `Forest.depthIn_places` — the number of enclosing tags is the depth in the forest
* `Forest.stop_lt_places` — of two trees in postorder the second one closes behind the first
-/

namespace CommentTemplate

namespace TagSpan

/-- A byte belongs to a tag. -/
def Covers (t : TagSpan) (i : Nat) : Prop := t.start ≤ i ∧ i < t.stop
deriving Decidable

/-- The second tag lies in the body of the first one. -/
def Encloses (t u : TagSpan) : Prop := t.bodyStart ≤ u.start ∧ u.stop ≤ t.bodyStop
deriving Decidable

/-- The number of tags among `tags` in whose bodies a tag lies. -/
def depthIn (tags : List TagSpan) (t : TagSpan) : Nat := tags.countP fun u => u.Encloses t

/-- The places at which the parts of a tag begin. -/
theorem start_ofPieces (start : Nat) (before name opener body closer : Text) :
    (ofPieces start before name opener body closer).start = start + Text.utf8Size before := rfl

theorem bodyStart_ofPieces (start : Nat) (before name opener body closer : Text) :
    (ofPieces start before name opener body closer).bodyStart =
      start + Text.utf8Size (before ++ opener) := by
  simp [ofPieces, Nat.add_assoc]

theorem bodyStop_ofPieces (start : Nat) (before name opener body closer : Text) :
    (ofPieces start before name opener body closer).bodyStop =
      (ofPieces start before name opener body closer).bodyStart + Text.utf8Size body := rfl

theorem stop_ofPieces (start : Nat) (before name opener body closer : Text) :
    (ofPieces start before name opener body closer).stop =
      start + Text.utf8Size (before ++ (opener ++ (body ++ closer))) := by
  simp [ofPieces, Nat.add_assoc]

/-- A tag lies between two bytes, and its two ends are not empty. -/
structure Within (first last : Nat) (t : TagSpan) : Prop where
  le_start : first ≤ t.start
  start_lt : t.start < t.bodyStart
  body_le : t.bodyStart ≤ t.bodyStop
  body_lt : t.bodyStop < t.stop
  stop_le : t.stop ≤ last

section

variable {first last first' last' : Nat} {tags tags' : List TagSpan} {t u : TagSpan}

theorem Within.mono (h : t.Within first last) (hfirst : first' ≤ first) (hlast : last ≤ last') :
    t.Within first' last' :=
  ⟨Nat.le_trans hfirst h.le_start, h.start_lt, h.body_le, h.body_lt, Nat.le_trans h.stop_le hlast⟩

theorem Within.start_lt_stop (h : t.Within first last) : t.start < t.stop :=
  Nat.lt_of_lt_of_le h.start_lt (Nat.le_trans h.body_le (Nat.le_of_lt h.body_lt))

theorem Within.le_bodyStart (h : t.Within first last) : first ≤ t.bodyStart :=
  Nat.le_trans h.le_start (Nat.le_of_lt h.start_lt)

theorem Within.bodyStop_le (h : t.Within first last) : t.bodyStop ≤ last :=
  Nat.le_trans (Nat.le_of_lt h.body_lt) h.stop_le

/-- No tag lies in its own body. -/
theorem Within.not_encloses_self (h : t.Within first last) : ¬t.Encloses t :=
  fun he => Nat.not_le.2 h.start_lt he.1

/-- A tag within the body of another one does not enclose it. -/
theorem Within.not_encloses (h : t.Within u.bodyStart last) (hu : u.start < u.bodyStart) :
    ¬t.Encloses u := by
  intro he
  have := h.le_start
  have := h.start_lt
  have := he.1
  omega

/-- Tags that lie one behind the other do not enclose each other. -/
theorem Within.not_encloses_of_le (h : t.Within first last) (hu : u.Within first' last')
    (hle : last ≤ first') : ¬t.Encloses u ∧ ¬u.Encloses t := by
  have htu : t.stop ≤ u.start := Nat.le_trans h.stop_le (Nat.le_trans hle hu.le_start)
  have ht := h.body_lt
  have hu' := hu.start_lt_stop
  have hstart := hu.start_lt
  constructor
  · rintro ⟨-, hstop⟩
    omega
  · rintro ⟨hbegin, -⟩
    have := h.start_lt_stop
    omega

theorem depthIn_append (tags tags' : List TagSpan) (t : TagSpan) :
    t.depthIn (tags ++ tags') = t.depthIn tags + t.depthIn tags' :=
  List.countP_append

theorem depthIn_cons_of_encloses (h : u.Encloses t) :
    t.depthIn (u :: tags) = t.depthIn tags + 1 :=
  List.countP_cons_of_pos (decide_eq_true h)

theorem depthIn_cons_of_not_encloses (h : ¬u.Encloses t) :
    t.depthIn (u :: tags) = t.depthIn tags :=
  List.countP_cons_of_neg (by simpa using h)

theorem depthIn_eq_zero (h : ∀ u ∈ tags, ¬u.Encloses t) : t.depthIn tags = 0 :=
  List.countP_eq_zero.2 fun u hu => by simpa using h u hu

end

end TagSpan

namespace Forest

variable {r : Recognizer Delimiter} {f : Forest} {depth start : Nat}

/-- The places with their names alone are the trees in postorder. -/
theorem map_places (f : Forest) (depth start : Nat) :
    (f.places depth start).map (fun e => (e.1.name, e.2)) = f.postorder depth := by
  induction f generalizing depth start with
  | leaf t => rfl
  | tree before name opener body closer after ihBody ihAfter =>
      simp [places, ihBody, ihAfter, TagSpan.ofPieces]

/-- No tree is less deep than the forest it stands in. -/
theorem le_of_mem_places {e : TagSpan × Nat} (he : e ∈ f.places depth start) : depth ≤ e.2 := by
  have hmem : (e.1.name, e.2) ∈ f.postorder depth :=
    map_places f depth start ▸ List.mem_map_of_mem he
  exact le_of_mem_postorder hmem

/-- The places of a forest lie within its text. -/
theorem within_of_mem_places (hf : f.Delimited r) {e : TagSpan × Nat}
    (he : e ∈ f.places depth start) :
    e.1.Within start (start + Text.utf8Size f.text) := by
  induction hf generalizing depth start with
  | leaf t => cases he
  | tree before ends _ _ ihBody ihAfter =>
      have hopener := Text.utf8Size_pos ends.ne_nil.1
      have hcloser := Text.utf8Size_pos ends.ne_nil.2
      simp only [text_tree, Text.utf8Size_append]
      simp only [places, TagSpan.ofPieces, List.mem_append, List.mem_cons] at he
      rcases he with he | rfl | he
      · exact (ihBody he).mono (by omega) (by omega)
      · constructor <;> dsimp only <;> omega
      · exact (ihAfter he).mono (by omega) (by omega)

/-- A tag with some tags inside it and some behind it, up to byte `last`. -/
structure Nest (last : Nat) (t : TagSpan) (inner later : List TagSpan) : Prop where
  tag : t.Within t.start t.stop
  inner : ∀ u ∈ inner, u.Within t.bodyStart t.bodyStop
  later : ∀ u ∈ later, u.Within t.stop last

namespace Nest

variable {last : Nat} {t u v : TagSpan} {inner later inner' later' : List TagSpan}

theorem mono (h : Nest last t inner later) (hinner : inner' ⊆ inner) (hlater : later' ⊆ later) :
    Nest last t inner' later' :=
  ⟨h.tag, fun u hu => h.inner u (hinner hu), fun u hu => h.later u (hlater hu)⟩

theorem encloses_inner (h : Nest last t inner later) (hu : u ∈ inner) : t.Encloses u :=
  ⟨(h.inner u hu).le_start, (h.inner u hu).stop_le⟩

theorem not_inner_encloses (h : Nest last t inner later) (hu : u ∈ inner) : ¬u.Encloses t :=
  (h.inner u hu).not_encloses h.tag.start_lt

/-- In front of the tag there is none of the others. -/
theorem not_covers_before (h : Nest last t inner later) {i : Nat} (hi : i < t.start) :
    ∀ u ∈ inner ++ t :: later, ¬u.Covers i := by
  have hle {u : TagSpan} (hu : t.start ≤ u.start) : ¬u.Covers i :=
    fun hcovers => Nat.not_lt.2 (Nat.le_trans hu hcovers.1) hi
  simp only [List.forall_mem_append, List.forall_mem_cons]
  refine ⟨fun u hu => hle ?_, hle (Nat.le_refl _), fun u hu => hle ?_⟩
  · exact Nat.le_of_lt (Nat.lt_of_lt_of_le h.tag.start_lt (h.inner u hu).le_start)
  · exact Nat.le_trans (Nat.le_of_lt h.tag.start_lt_stop) (h.later u hu).le_start

/-- Behind the tag the tags inside it play no part. -/
theorem not_covers_behind_iff (h : Nest last t inner later) {i : Nat} (hi : t.stop ≤ i) :
    (∀ u ∈ inner ++ t :: later, ¬u.Covers i) ↔ ∀ u ∈ later, ¬u.Covers i := by
  have hle {u : TagSpan} (hu : u.stop ≤ t.stop) : ¬u.Covers i :=
    fun hcovers => Nat.not_lt.2 (Nat.le_trans hu hi) hcovers.2
  simp only [List.forall_mem_append, List.forall_mem_cons]
  refine ⟨fun hall => hall.2.2, fun hlater => ⟨fun u hu => hle ?_, hle (Nat.le_refl _), hlater⟩⟩
  exact Nat.le_trans (h.inner u hu).stop_le (Nat.le_of_lt h.tag.body_lt)

theorem later_apart (h : Nest last t inner later) (hu : u ∈ later) :
    ¬t.Encloses u ∧ ¬u.Encloses t :=
  h.tag.not_encloses_of_le (h.later u hu) (Nat.le_refl _)

theorem inner_later_apart (h : Nest last t inner later) (hu : u ∈ inner) (hv : v ∈ later) :
    ¬u.Encloses v ∧ ¬v.Encloses u :=
  (h.inner u hu).not_encloses_of_le (h.later v hv) (Nat.le_of_lt h.tag.body_lt)

end Nest

/-- The places of a tree, those inside it and those behind it. -/
theorem nest_tree (before : Text) {name opener closer : Text} {body after : Forest}
    (ends : r.Ends name opener closer) (hbody : body.Delimited r) (hafter : after.Delimited r)
    (depth start : Nat) :
    let t := TagSpan.ofPieces start before name opener body.text closer
    Nest (t.stop + Text.utf8Size after.text) t
      ((body.places (depth + 1) t.bodyStart).map Prod.fst)
      ((after.places depth t.stop).map Prod.fst) where
  tag := by
    have hopener := Text.utf8Size_pos ends.ne_nil.1
    have hcloser := Text.utf8Size_pos ends.ne_nil.2
    constructor <;> simp only [TagSpan.ofPieces] <;> omega
  inner := List.forall_mem_map.2 fun _ he => within_of_mem_places hbody he
  later := List.forall_mem_map.2 fun _ he => within_of_mem_places hafter he

/-- **The number of the tags around a tag** is its depth in the forest. -/
theorem depthIn_places (hf : f.Delimited r) {e : TagSpan × Nat} (he : e ∈ f.places depth start) :
    e.1.depthIn ((f.places depth start).map Prod.fst) + depth = e.2 := by
  induction hf generalizing depth start with
  | leaf t => cases he
  | @tree before name opener closer body after ends hbody hafter ihBody ihAfter =>
      have hnest := nest_tree before ends hbody hafter depth start
      rw [places] at he ⊢
      generalize TagSpan.ofPieces start before name opener body.text closer = t at he hnest ⊢
      -- The count is taken group by group: the tags inside the tree, the tree, and those behind.
      simp only [List.map_append, List.map_cons, TagSpan.depthIn_append]
      rcases List.mem_append.1 he with he | he
      · have hin := List.mem_map_of_mem (f := Prod.fst) he
        rw [TagSpan.depthIn_cons_of_encloses (hnest.encloses_inner hin),
          TagSpan.depthIn_eq_zero fun u hu => (hnest.inner_later_apart hin hu).2, ← ihBody he]
        omega
      · rcases List.mem_cons.1 he with rfl | he
        · rw [TagSpan.depthIn_eq_zero fun u hu => hnest.not_inner_encloses hu,
            TagSpan.depthIn_cons_of_not_encloses hnest.tag.not_encloses_self,
            TagSpan.depthIn_eq_zero fun u hu => (hnest.later_apart hu).2]
          omega
        · have hin := List.mem_map_of_mem (f := Prod.fst) he
          rw [TagSpan.depthIn_eq_zero fun u hu => (hnest.inner_later_apart hu hin).1,
            TagSpan.depthIn_cons_of_not_encloses (hnest.later_apart hin).1, Nat.zero_add,
            ihAfter he]

/-- **Of two trees in postorder the second one closes behind the first.** -/
theorem stop_lt_places (hf : f.Delimited r) (depth start : Nat) :
    ((f.places depth start).map Prod.fst).Pairwise fun t u => t.stop < u.stop := by
  induction hf generalizing depth start with
  | leaf t => exact .nil
  | @tree before name opener closer body after ends hbody hafter ihBody ihAfter =>
      have hnest := nest_tree before ends hbody hafter depth start
      rw [places, List.map_append, List.map_cons]
      generalize TagSpan.ofPieces start before name opener body.text closer = t at hnest ⊢
      have hinner {u} (hu : u ∈ (body.places (depth + 1) t.bodyStart).map Prod.fst) :
          u.stop < t.stop :=
        Nat.lt_of_le_of_lt (hnest.inner u hu).stop_le hnest.tag.body_lt
      have hlater {u} (hu : u ∈ (after.places depth t.stop).map Prod.fst) : t.stop < u.stop :=
        Nat.lt_of_le_of_lt (hnest.later u hu).le_start (hnest.later u hu).start_lt_stop
      refine List.pairwise_append.2 ⟨ihBody (depth + 1) t.bodyStart,
        List.pairwise_cons.2 ⟨fun u hu => hlater hu, ihAfter depth t.stop⟩, fun u hu v hv => ?_⟩
      rcases List.mem_cons.1 hv with rfl | hv
      · exact hinner hu
      · exact Nat.lt_trans (hinner hu) (hlater hv)

end Forest

end CommentTemplate
