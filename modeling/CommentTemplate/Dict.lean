import CommentTemplate.Text.Basic

/-!
# Dictionaries

A dictionary is a finite map from texts to values.  It keeps its bindings in increasing order of
name, so its order of listing does not depend on how it was built, and two dictionaries with the
same bindings are the same dictionary (`Dict.ext_find?`).

## Main definitions

* `Dict.insert`, `Dict.erase`, `Dict.find?`, `Dict.overriddenBy`, `Dict.ofList`
* `NameSet` — a finite set of names, as a dictionary without values

## Main statements

* `Dict.find?_insert`, `Dict.find?_erase`, `Dict.find?_overriddenBy` — what each operation does to
  the map that a dictionary stands for
-/

namespace CommentTemplate

/-- A finite map from texts, its bindings in increasing order of name. -/
@[ext] structure Dict (α : Type) where
  /-- The bindings. -/
  entries : List (Text × α)
  /-- Names increase, so no name is bound twice. -/
  sorted : entries.Pairwise fun a b => a.1 < b.1
deriving DecidableEq, Repr

namespace Dict

variable {α : Type}

/-! ## Sorted bindings -/

/-- The value bound to a name in a list of bindings; the first one counts. -/
def lookup (k : Text) : List (Text × α) → Option α
  | [] => none
  | (n, v) :: es => if n = k then some v else lookup k es

/-- A binding put in its place among sorted ones, instead of one of the same name. -/
def insertSorted (k : Text) (v : α) : List (Text × α) → List (Text × α)
  | [] => [(k, v)]
  | (n, w) :: es =>
    if k < n then (k, v) :: (n, w) :: es
    else if k = n then (k, v) :: es
    else (n, w) :: insertSorted k v es

theorem mem_insertSorted {k : Text} {v : α} {es : List (Text × α)} {e : Text × α}
    (h : e ∈ insertSorted k v es) : e = (k, v) ∨ e ∈ es := by
  induction es with
  | nil => simpa [insertSorted] using h
  | cons f es ih =>
    obtain ⟨n, w⟩ := f
    rw [insertSorted] at h
    split at h
    · simpa using h
    · split at h
      · rcases List.mem_cons.1 h with h | h
        · exact .inl h
        · exact .inr (List.mem_cons_of_mem _ h)
      · rcases List.mem_cons.1 h with h | h
        · exact .inr (by simp [h])
        · exact (ih h).imp_right (List.mem_cons_of_mem _)

theorem sorted_insertSorted (k : Text) (v : α) {es : List (Text × α)}
    (h : es.Pairwise fun a b => a.1 < b.1) :
    (insertSorted k v es).Pairwise fun a b => a.1 < b.1 := by
  induction es with
  | nil => simp [insertSorted]
  | cons f es ih =>
    obtain ⟨n, w⟩ := f
    obtain ⟨hn, hes⟩ := List.pairwise_cons.1 h
    rw [insertSorted]
    split
    · next hk =>
      refine List.pairwise_cons.2 ⟨fun e he => ?_, h⟩
      rcases List.mem_cons.1 he with rfl | he
      · exact hk
      · exact List.lt_trans hk (hn e he)
    · next hk =>
      split
      · next hkn =>
        subst hkn
        exact List.pairwise_cons.2 ⟨hn, hes⟩
      · next hkn =>
        refine List.pairwise_cons.2 ⟨fun e he => ?_, ih hes⟩
        rcases mem_insertSorted he with rfl | he
        · rcases Text.lt_or_eq_or_lt k n with h | h | h
          · exact absurd h hk
          · exact absurd h hkn
          · exact h
        · exact hn e he

theorem lookup_insertSorted (k j : Text) (v : α) (es : List (Text × α)) :
    lookup j (insertSorted k v es) = if j = k then some v else lookup j es := by
  induction es with
  | nil => simp [insertSorted, lookup, eq_comm]
  | cons f es ih =>
    obtain ⟨n, w⟩ := f
    rw [insertSorted]
    split
    · by_cases h : j = k
      · subst h; simp [lookup]
      · simp [lookup, h, Ne.symm h]
    · split
      · next hkn =>
        subst hkn
        by_cases h : j = k
        · subst h; simp [lookup]
        · simp [lookup, h, Ne.symm h]
      · next hkn =>
        by_cases h : j = k
        · subst h; simp [lookup, ih, Ne.symm hkn]
        · simp [lookup, ih, h]

/-- Of two lists of bindings the first one counts. -/
theorem lookup_append (k : Text) (es fs : List (Text × α)) :
    lookup k (es ++ fs) = (lookup k es).or (lookup k fs) := by
  induction es with
  | nil => rfl
  | cons e es ih => by_cases h : e.1 = k <;> simp [lookup, h, ih]

/-- A name that no binding has is not bound. -/
theorem lookup_eq_none_iff {k : Text} {es : List (Text × α)} :
    lookup k es = none ↔ ∀ e ∈ es, e.1 ≠ k := by
  induction es with
  | nil => simp [lookup]
  | cons e es ih => by_cases h : e.1 = k <;> simp [lookup, h, ih]

/-- What is found is one of the bindings. -/
theorem mem_of_lookup {k : Text} {v : α} {es : List (Text × α)} (h : lookup k es = some v) :
    (k, v) ∈ es := by
  induction es with
  | nil => cases h
  | cons e es ih =>
    by_cases he : e.1 = k
    · rw [lookup, if_pos he, Option.some.injEq] at h
      exact List.mem_cons.2 (.inl (Prod.ext he.symm h.symm))
    · rw [lookup, if_neg he] at h
      exact List.mem_cons_of_mem e (ih h)

/-- A name below every bound name is not bound. -/
theorem lookup_eq_none {k : Text} {es : List (Text × α)} (h : ∀ e ∈ es, k < e.1) :
    lookup k es = none :=
  lookup_eq_none_iff.2 fun e he heq => List.lt_irrefl k (heq ▸ h e he)

/-! ## Dictionaries -/

/-- The dictionary without bindings. -/
def empty : Dict α := ⟨[], .nil⟩

instance : Inhabited (Dict α) := ⟨empty⟩
instance : EmptyCollection (Dict α) := ⟨empty⟩

/-- The value bound to a name. -/
def find? (k : Text) (d : Dict α) : Option α := lookup k d.entries

/-- Whether a name is bound. -/
def contains (k : Text) (d : Dict α) : Bool := (d.find? k).isSome

/-- The bound names in increasing order. -/
def keys (d : Dict α) : List Text := d.entries.map Prod.fst

/-- The dictionary with a name bound to a value, whatever it was bound to before. -/
def insert (k : Text) (v : α) (d : Dict α) : Dict α :=
  ⟨insertSorted k v d.entries, sorted_insertSorted k v d.sorted⟩

/-- The dictionary without a binding for a name. -/
def erase (k : Text) (d : Dict α) : Dict α :=
  ⟨d.entries.filter fun e => e.1 ≠ k, d.sorted.filter _⟩

/-- The dictionary with bindings added one after the other, a later one of a name winning. -/
def insertAll (d : Dict α) (es : List (Text × α)) : Dict α :=
  es.foldl (fun d e => d.insert e.1 e.2) d

/-- The dictionary of a list of bindings, a later one of a name winning. -/
def ofList (es : List (Text × α)) : Dict α := empty.insertAll es

/-- The bindings of two dictionaries, those of the second winning. -/
def overriddenBy (d e : Dict α) : Dict α := d.insertAll e.entries

@[simp] theorem find?_empty (k : Text) : (empty : Dict α).find? k = none := rfl

@[simp] theorem find?_insert (k j : Text) (v : α) (d : Dict α) :
    (d.insert k v).find? j = if j = k then some v else d.find? j :=
  lookup_insertSorted ..

theorem lookup_filter_ne (k j : Text) (es : List (Text × α)) :
    lookup j (es.filter fun e => e.1 ≠ k) = if j = k then none else lookup j es := by
  induction es with
  | nil => simp [lookup]
  | cons f es ih =>
    by_cases hf : f.1 = k
    · by_cases hj : j = k
      · subst hj; simpa [hf] using ih
      · have : ¬k = j := fun h => hj h.symm
        simpa [hf, hj, lookup, this] using ih
    · by_cases hj : j = k
      · subst hj; simpa [hf, lookup] using ih
      · by_cases hfj : f.1 = j <;> simp_all [lookup]

@[simp] theorem find?_erase (k j : Text) (d : Dict α) :
    (d.erase k).find? j = if j = k then none else d.find? j :=
  lookup_filter_ne ..

/-- Two dictionaries that bind the same values to the same names are equal. -/
theorem ext_find? {d e : Dict α} (h : ∀ k, d.find? k = e.find? k) : d = e := by
  obtain ⟨ds, hd⟩ := d
  obtain ⟨es, he⟩ := e
  simp only [find?] at h
  suffices ds = es by subst this; rfl
  induction ds generalizing es with
  | nil =>
    cases es with
    | nil => rfl
    | cons f es => simpa [lookup] using h f.1
  | cons f ds ih =>
    obtain ⟨hf, hds⟩ := List.pairwise_cons.1 hd
    cases es with
    | nil => simpa [lookup] using h f.1
    | cons g es =>
      obtain ⟨hg, hes⟩ := List.pairwise_cons.1 he
      have hfg : f.1 = g.1 := by
        rcases Text.lt_or_eq_or_lt f.1 g.1 with hl | hl | hl
        · have hn : lookup f.1 (g :: es) = none := lookup_eq_none fun e he' => by
            rcases List.mem_cons.1 he' with rfl | he'
            · exact hl
            · exact List.lt_trans hl (hg e he')
          have := (h f.1).trans hn
          simp [lookup] at this
        · exact hl
        · have hn : lookup g.1 (f :: ds) = none := lookup_eq_none fun e he' => by
            rcases List.mem_cons.1 he' with rfl | he'
            · exact hl
            · exact List.lt_trans hl (hf e he')
          have := (h g.1).symm.trans hn
          simp [lookup] at this
      have hv : f = g := by
        have := h f.1
        simp only [lookup, ↓reduceIte, hfg, Option.some.injEq] at this
        exact Prod.ext hfg this
      subst hv
      rw [ih hds es hes fun k => ?_]
      have := h k
      by_cases hk : f.1 = k
      · subst hk
        rw [lookup_eq_none hf, lookup_eq_none hg]
      · simpa [lookup, hk] using this

/-- What a dictionary binds after bindings were added: the last of them for a name, if any. -/
theorem find?_insertAll (d : Dict α) (es : List (Text × α)) (k : Text) :
    (d.insertAll es).find? k = (lookup k es.reverse).or (d.find? k) := by
  induction es generalizing d with
  | nil => simp [insertAll, lookup]
  | cons e es ih =>
    have := ih (d.insert e.1 e.2)
    simp only [insertAll, List.foldl_cons] at this ⊢
    rw [this, List.reverse_cons, lookup_append, find?_insert]
    by_cases h : e.1 = k
    · simp [lookup, h]
    · simp [lookup, h, Ne.symm h]

/-- Of a list of bindings the last one for a name is found. -/
theorem find?_ofList_append_cons {k : Text} {v : α} {es fs : List (Text × α)}
    (h : ∀ e ∈ fs, e.1 ≠ k) : (ofList (es ++ (k, v) :: fs)).find? k = some v := by
  have hfs : lookup k fs.reverse = none := lookup_eq_none_iff.2 fun e he => h e (by simpa using he)
  rw [ofList, find?_insertAll, List.reverse_append, List.reverse_cons, lookup_append, lookup_append,
    hfs]
  simp [lookup]

theorem mem_of_find?_ofList {k : Text} {v : α} {es : List (Text × α)}
    (h : (ofList es).find? k = some v) : (k, v) ∈ es := by
  rw [ofList, find?_insertAll, find?_empty, Option.or_none] at h
  exact List.mem_reverse.1 (mem_of_lookup h)

/-- The names of a list of bindings are bound. -/
theorem contains_ofList {k : Text} {es : List (Text × α)} :
    (ofList es).contains k = true ↔ ∃ e ∈ es, e.1 = k := by
  rw [contains, ofList, find?_insertAll, find?_empty, Option.or_none, Option.isSome_iff_ne_none,
    ne_eq, lookup_eq_none_iff]
  simp

/-- In sorted bindings a look-up finds the same in either direction. -/
theorem lookup_reverse {es : List (Text × α)} (h : es.Pairwise fun a b => a.1 < b.1)
    (k : Text) : lookup k es.reverse = lookup k es := by
  induction es with
  | nil => rfl
  | cons e es ih =>
    obtain ⟨he, hes⟩ := List.pairwise_cons.1 h
    rw [List.reverse_cons, lookup_append, ih hes]
    by_cases hk : e.1 = k
    · subst hk
      simp [lookup, lookup_eq_none he]
    · simp [lookup, hk]

/-- The bindings of the second dictionary win. -/
@[simp] theorem find?_overriddenBy (d e : Dict α) (k : Text) :
    (d.overriddenBy e).find? k = (e.find? k).or (d.find? k) := by
  rw [overriddenBy, find?_insertAll, lookup_reverse e.sorted]
  rfl

/-- A dictionary is built again from its bindings. -/
@[simp] theorem ofList_entries (d : Dict α) : ofList d.entries = d :=
  ext_find? fun k => by
    rw [ofList, find?_insertAll, lookup_reverse d.sorted, find?_empty, Option.or_none]
    rfl

end Dict

/-- A finite set of names. -/
abbrev NameSet := Dict Unit

namespace NameSet

/-- The set with more names. -/
def insertAll (s : NameSet) (names : List Text) : NameSet :=
  Dict.insertAll s (names.map fun n => (n, ()))

/-- The set of some names. -/
def ofList (names : List Text) : NameSet := insertAll Dict.empty names

end NameSet

end CommentTemplate
