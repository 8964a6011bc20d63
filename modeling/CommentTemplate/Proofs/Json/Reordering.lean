import Mathlib.Data.List.Nodup
import CommentTemplate.Proofs.Json.Nesting
import CommentTemplate.Proofs.Text.ByteOrder

/-!
# The order of members does not count

Two values are equal up to the order of members if one becomes the other by reordering the members
of objects, wherever they stand.  As long as no object has a name twice, that is the case exactly
if the values have one canonical form.  The canonical form itself is among the reorderings, the one
in which the names increase.

## Main definitions

* `Value.Distinct` — values in which no object has a name twice
* `Value.Reordered` — values that differ in the order of members
* `Value.Increasing` — values in which the names of every object increase, byte by byte

## Main statements

* `Value.Distinct.reordered_iff` — values with one canonical form
* `Value.Integral.increasing_canonical` — the names of a canonical form increase
* `canonicalText_canonical` — the canonical document as a canonical form of values
-/

namespace CommentTemplate

/-! ## Bindings in any order -/

namespace Dict

variable {α : Type} {es fs : List (Text × α)}

/-- Where no name is bound twice, the value found for a name is the one it is bound to. -/
theorem lookup_eq_some_iff (h : (es.map Prod.fst).Nodup) {k : Text} {v : α} :
    lookup k es = some v ↔ (k, v) ∈ es := by
  refine ⟨mem_of_lookup, fun hmem => ?_⟩
  obtain ⟨front, back, rfl⟩ := List.append_of_mem hmem
  have hfront : lookup k front = none := lookup_eq_none_iff.2 fun e he heq => by
    rw [List.map_append, List.nodup_append] at h
    exact h.2.2 e.1 (List.mem_map_of_mem he) k (by simp) heq
  rw [lookup_append, hfront]
  simp [lookup]

theorem find?_ofList_eq_some_iff (h : (es.map Prod.fst).Nodup) {k : Text} {v : α} :
    (ofList es).find? k = some v ↔ (k, v) ∈ es := by
  have hreverse : (es.reverse.map Prod.fst).Nodup := by
    rwa [List.map_reverse, List.nodup_reverse]
  rw [ofList, find?_insertAll, find?_empty, Option.or_none, lookup_eq_some_iff hreverse,
    List.mem_reverse]

/-- The order of bindings does not count where no name is bound twice. -/
theorem ofList_eq_of_perm (hperm : es.Perm fs) (h : (es.map Prod.fst).Nodup) :
    ofList es = ofList fs :=
  ext_find? fun k => Option.ext fun v => by
    rw [find?_ofList_eq_some_iff h,
      find?_ofList_eq_some_iff ((hperm.map Prod.fst).nodup h), hperm.mem_iff]

theorem nodup_names (d : Dict α) : (d.entries.map Prod.fst).Nodup := by
  refine List.pairwise_map.2 (d.sorted.imp ?_)
  intro e f hlt heq
  exact List.lt_irrefl f.1 (heq ▸ hlt)

/-- Sorting the bindings of different names reorders them. -/
theorem perm_entries_ofList (h : (es.map Prod.fst).Nodup) : es.Perm (ofList es).entries := by
  refine (List.perm_ext_iff_of_nodup (.of_map _ h) (.of_map _ (ofList es).nodup_names)).2 ?_
  rintro ⟨k, v⟩
  rw [← find?_ofList_eq_some_iff h, find?, lookup_eq_some_iff (ofList es).nodup_names]

end Dict

namespace Json

namespace Value

/-! ## Reordered values -/

/-- Values in which no object has a name twice. -/
inductive Distinct : Value → Prop where
  | null : Distinct .null
  | bool (b : Bool) : Distinct (.bool b)
  | number (n : Number) : Distinct (.number n)
  | string (s : Text) : Distinct (.string s)
  | array {items : List Value} (h : ∀ v ∈ items, Distinct v) : Distinct (.array items)
  | object {members : List (Text × Value)} (names : (members.map Prod.fst).Nodup)
    (h : ∀ m ∈ members, Distinct m.2) : Distinct (.object members)

/-- Values that differ in the order of the members of objects, wherever these stand. -/
inductive Reordered : Value → Value → Prop where
  | refl (v : Value) : Reordered v v
  | trans {u v w : Value} (h : Reordered u v) (h' : Reordered v w) : Reordered u w
  | members {ms ns : List (Text × Value)} (h : ms.Perm ns) : Reordered (.object ms) (.object ns)
  | item (front back : List Value) {v w : Value} (h : Reordered v w) :
    Reordered (.array (front ++ v :: back)) (.array (front ++ w :: back))
  | member (front back : List (Text × Value)) (name : Text) {v w : Value} (h : Reordered v w) :
    Reordered (.object (front ++ (name, v) :: back)) (.object (front ++ (name, w) :: back))

namespace Reordered

variable {v w : Value}

theorem symm (h : Reordered v w) : Reordered w v := by
  induction h with
  | refl v => exact .refl v
  | trans _ _ ih ih' => exact ih'.trans ih
  | members h => exact .members h.symm
  | item front back _ ih => exact .item front back ih
  | member front back name _ ih => exact .member front back name ih

/-- Items are reordered one after the other. -/
theorem array {f : Value → Value} {vs : List Value} (h : ∀ v ∈ vs, Reordered v (f v)) :
    Reordered (.array vs) (.array (vs.map f)) := by
  suffices hfront : ∀ front, Reordered (.array (front ++ vs)) (.array (front ++ vs.map f)) from
    hfront []
  induction vs with
  | nil => exact fun front => .refl _
  | cons v vs ih =>
      intro front
      rw [List.forall_mem_cons] at h
      refine (Reordered.item front vs h.1).trans ?_
      simpa using ih h.2 (front ++ [f v])

/-- The values of members are reordered one after the other. -/
theorem object {f : Value → Value} {ms : List (Text × Value)}
    (h : ∀ m ∈ ms, Reordered m.2 (f m.2)) :
    Reordered (.object ms) (.object (ms.map fun m => (m.1, f m.2))) := by
  suffices hfront : ∀ front, Reordered (.object (front ++ ms))
      (.object (front ++ ms.map fun m => (m.1, f m.2))) from hfront []
  induction ms with
  | nil => exact fun front => .refl _
  | cons m ms ih =>
      intro front
      rw [List.forall_mem_cons] at h
      refine (Reordered.member front ms m.1 h.1).trans ?_
      simpa using ih h.2 (front ++ [(m.1, f m.2)])

theorem distinct (h : Reordered v w) (hv : v.Distinct) : w.Distinct := by
  induction h with
  | refl => exact hv
  | trans _ _ ih ih' => exact ih' (ih hv)
  | members h =>
      obtain _ | _ | _ | _ | _ | ⟨names, hms⟩ := hv
      exact .object ((h.map Prod.fst).nodup names) fun n hn => hms n (h.mem_iff.2 hn)
  | item front back _ ih =>
      obtain _ | _ | _ | _ | hvs := hv
      simp only [List.forall_mem_append, List.forall_mem_cons] at hvs
      exact .array (by simpa only [List.forall_mem_append, List.forall_mem_cons] using
        ⟨hvs.1, ih hvs.2.1, hvs.2.2⟩)
  | member front back name _ ih =>
      obtain _ | _ | _ | _ | _ | ⟨names, hms⟩ := hv
      simp only [List.forall_mem_append, List.forall_mem_cons] at hms
      refine .object (by simpa using names) ?_
      simpa only [List.forall_mem_append, List.forall_mem_cons] using
        ⟨hms.1, ih hms.2.1, hms.2.2⟩

theorem fits (h : Reordered v w) (hv : v.Fits) : w.Fits := by
  induction h with
  | refl => exact hv
  | trans _ _ ih ih' => exact ih' (ih hv)
  | members h =>
      obtain _ | _ | _ | _ | _ | hms := hv
      exact .object fun n hn => hms n (h.mem_iff.2 hn)
  | item front back _ ih =>
      obtain _ | _ | _ | _ | hvs := hv
      simp only [List.forall_mem_append, List.forall_mem_cons] at hvs
      exact .array (by simpa only [List.forall_mem_append, List.forall_mem_cons] using
        ⟨hvs.1, ih hvs.2.1, hvs.2.2⟩)
  | member front back name _ ih =>
      obtain _ | _ | _ | _ | _ | hms := hv
      simp only [List.forall_mem_append, List.forall_mem_cons] at hms
      exact .object (by simpa only [List.forall_mem_append, List.forall_mem_cons] using
        ⟨hms.1, ih hms.2.1, hms.2.2⟩)

theorem depth_eq (h : Reordered v w) : v.depth = w.depth := by
  induction h with
  | refl => rfl
  | trans _ _ ih ih' => exact ih.trans ih'
  | members h => rw [depth, depth, depthMembers_eq_of_perm h]
  | item front back _ ih => simp only [depth, depthItems_append, depthItems, ih]
  | member front back name _ ih => simp only [depth, depthMembers_append, depthMembers, ih]

/-- Values that differ in the order of members have one canonical form. -/
theorem canonical_eq (h : Reordered v w) (hv : v.Distinct) : v.canonical = w.canonical := by
  induction h with
  | refl => rfl
  | trans h _ ih ih' => exact (ih hv).trans (ih' (h.distinct hv))
  | members h =>
      obtain _ | _ | _ | _ | _ | ⟨names, -⟩ := hv
      rw [canonical_object, canonical_object, Dict.ofList_eq_of_perm (h.map _)]
      simpa [List.map_map, Function.comp_def] using names
  | item front back _ ih =>
      obtain _ | _ | _ | _ | hvs := hv
      have hitem := ih (hvs _ (by simp))
      simp only [canonical, canonicalItems_eq_map, List.map_append, List.map_cons, hitem]
  | member front back name _ ih =>
      obtain _ | _ | _ | _ | _ | ⟨-, hms⟩ := hv
      have hmember := ih (hms (name, _) (by simp))
      simp only [canonical_object, List.map_append, List.map_cons, hmember]

end Reordered

namespace Distinct

variable {v w : Value}

/-- The canonical form is a reordering. -/
theorem reordered_canonical (h : v.Distinct) : Reordered v v.canonical := by
  induction h with
  | array _ ih =>
      rw [canonical, canonicalItems_eq_map]
      exact .array ih
  | object names _ ih =>
      rw [canonical_object]
      refine (Reordered.object ih).trans (.members (Dict.perm_entries_ofList ?_))
      simpa [List.map_map, Function.comp_def] using names
  | _ => exact .refl _

/-- **Two values have one canonical form if they differ in the order of members only**, and in no
other case. -/
theorem reordered_iff (hv : v.Distinct) (hw : w.Distinct) :
    Reordered v w ↔ v.canonical = w.canonical := by
  refine ⟨fun h => h.canonical_eq hv, fun h => ?_⟩
  have hcanonical := hv.reordered_canonical
  rw [h] at hcanonical
  exact hcanonical.trans hw.reordered_canonical.symm

/-- A canonical form is its own canonical form. -/
theorem canonical_canonical (h : v.Distinct) : v.canonical.canonical = v.canonical :=
  (h.reordered_canonical.canonical_eq h).symm

end Distinct

/-! ## Increasing names -/

/-- Values in which the names of every object increase, compared byte by byte. -/
inductive Increasing : Value → Prop where
  | null : Increasing .null
  | bool (b : Bool) : Increasing (.bool b)
  | number (n : Number) : Increasing (.number n)
  | string (s : Text) : Increasing (.string s)
  | array {items : List Value} (h : ∀ v ∈ items, Increasing v) : Increasing (.array items)
  | object {members : List (Text × Value)}
    (names : members.Pairwise fun m n => Text.utf8 m.1 < Text.utf8 n.1)
    (h : ∀ m ∈ members, Increasing m.2) : Increasing (.object members)

/-- The names of a canonical form increase. -/
theorem Integral.increasing_canonical {v : Value} (h : v.Integral) : v.canonical.Increasing := by
  induction h with
  | null => exact .null
  | bool b => exact .bool b
  | integer n => exact .number _
  | string s => exact .string s
  | array _ ih =>
      rw [Value.canonical, canonicalItems_eq_map]
      exact .array (List.forall_mem_map.2 ih)
  | @object ms _ ih =>
      rw [canonical_object]
      refine .object ((Dict.sorted _).imp Text.utf8_lt_utf8) fun n hn => ?_
      rcases mem_of_mem_insertAll hn with hn | hn
      · cases hn
      · obtain ⟨m, hm, rfl⟩ := List.mem_map.1 hn
        exact ih m hm

end Value

/-! ## Canonical documents -/

open Value

/-- **The canonical document is a canonical form.**  Values with integers of sixty-four bits and
without a name given twice have one canonical document exactly if they are equal up to the order of
members.  The document is the compact one of a reordering in which names increase.  It is read back
as that reordering, so its canonical document is itself, unless it is nested too deep for a
reader. -/
theorem canonicalText_canonical {v w : Value} (hv : v.Fits) (hw : w.Fits) (dv : v.Distinct)
    (dw : w.Distinct) :
    (v.canonicalText = w.canonicalText ↔ Reordered v w) ∧
      ∃ u, v.canonicalText = u.compact ∧ Reordered v u ∧ u.Increasing ∧
        (v.depth ≤ maxNesting →
          Value.parse v.canonicalText = .ok u ∧ u.canonicalText = v.canonicalText) ∧
        (maxNesting < v.depth →
          ∃ e, Value.parse v.canonicalText = .error e ∧ e.cause = .tooDeep) := by
  have hreordered := dv.reordered_canonical
  have hdocument : IsDocument v.canonicalText v.canonical := isDocument_print isBlank_compact _
  have hfits := hreordered.fits hv
  refine ⟨?_, v.canonical, rfl, hreordered, hv.integral.increasing_canonical, fun hdepth => ?_,
    fun hdepth => ?_⟩
  · rw [hv.integral.canonicalText_eq_iff hw.integral, dv.reordered_iff dw]
  · rw [hreordered.depth_eq] at hdepth
    refine ⟨?_, ?_⟩
    · rw [parse_document hdocument hfits hdepth, dv.canonical_canonical]
    · rw [canonicalText, dv.canonical_canonical, canonicalText]
  · rw [hreordered.depth_eq] at hdepth
    exact parse_deep hdocument hfits hdepth

/-- A value with an object inside an array, and the same with all its members in another order. -/
theorem canonicalText_invoice :
    let lines (members : List (Text × Value)) : Value := .array [.object members, .null]
    let v : Value := .object [("total".toList, .int 12), ("lines".toList,
      lines [("price".toList, .int (-3)), ("é".toList, .bool true), ("name".toList, .string [])])]
    let w : Value := .object [("lines".toList,
      lines [("é".toList, .bool true), ("name".toList, .string []), ("price".toList, .int (-3))]),
      ("total".toList, .int 12)]
    v.canonicalText = w.canonicalText ∧ Reordered v w ∧
      ∃ u, Value.parse v.canonicalText = .ok u ∧ Reordered v u ∧ u.Increasing := by
  intro lines v w
  have hint {n : Int} (h : -Nat.pow 2 63 ≤ n ∧ n < Nat.pow 2 64) : (Value.int n).Fits :=
    .integer h.1 h.2
  have hlines {ms : List (Text × Value)} (h : ∀ m ∈ ms, m.2.Fits) : (lines ms).Fits :=
    .array (by simpa [Fits.null] using Fits.object h)
  have dlines {ms : List (Text × Value)} (names : (ms.map Prod.fst).Nodup)
      (h : ∀ m ∈ ms, m.2.Distinct) : (lines ms).Distinct :=
    .array (by simpa [Distinct.null] using Distinct.object names h)
  have hv : v.Fits := .object (by simp [hint, hlines, Fits.bool, Fits.string])
  have hw : w.Fits := .object (by simp [hint, hlines, Fits.bool, Fits.string])
  have dv : v.Distinct := .object (by decide) <| List.forall_mem_cons.2 ⟨.number _,
    List.forall_mem_singleton.2
      (dlines (by decide) (by simp [Value.int, Distinct.number, Distinct.bool, Distinct.string]))⟩
  have dw : w.Distinct := .object (by decide) <| List.forall_mem_cons.2
    ⟨dlines (by decide) (by simp [Value.int, Distinct.number, Distinct.bool, Distinct.string]),
      List.forall_mem_singleton.2 (.number _)⟩
  obtain ⟨hiff, u, -, hreordered, hincreasing, hread, -⟩ := canonicalText_canonical hv hw dv dw
  have htext : v.canonicalText = w.canonicalText := by decide
  exact ⟨htext, hiff.1 htext, u, (hread (by decide)).1, hreordered, hincreasing⟩

/-- Empty brackets inside `n` others. -/
def brackets : Nat → Value
  | 0 => .array []
  | n + 1 => .array [brackets n]

theorem fits_brackets (n : Nat) : (brackets n).Fits := by
  induction n with
  | zero => exact .array (List.forall_mem_nil _)
  | succ n ih => exact .array (List.forall_mem_singleton.2 ih)

theorem distinct_brackets (n : Nat) : (brackets n).Distinct := by
  induction n with
  | zero => exact .array (List.forall_mem_nil _)
  | succ n ih => exact .array (List.forall_mem_singleton.2 ih)

theorem depth_brackets (n : Nat) : (brackets n).depth = n + 1 := by
  induction n with
  | zero => rfl
  | succ n ih => rw [brackets, depth, depthItems, depthItems, ih, Nat.max_zero]

/-- The canonical document of brackets nested 128 deep is not read back. -/
theorem parse_canonicalText_brackets : (brackets 127).Fits ∧ (brackets 127).Distinct ∧
    ¬∃ u, Value.parse (brackets 127).canonicalText = .ok u := by
  have hreordered := (distinct_brackets 127).reordered_canonical
  have hdepth : maxNesting < (brackets 127).canonical.depth := by
    rw [← hreordered.depth_eq, depth_brackets, maxNesting]
    omega
  obtain ⟨e, he, -⟩ := parse_deep (isDocument_print isBlank_compact _)
    (hreordered.fits (fits_brackets 127)) hdepth
  refine ⟨fits_brackets 127, distinct_brackets 127, ?_⟩
  rintro ⟨u, hu⟩
  rw [canonicalText, compact, he] at hu
  cases hu

end Json

end CommentTemplate
