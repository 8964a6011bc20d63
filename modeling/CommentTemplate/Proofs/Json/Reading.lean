import Mathlib.Data.List.Forall2
import CommentTemplate.Proofs.Json.Printed

/-!
# Printed documents are read back

A reader reads a value if it answers the same on every document of that value, with whatever
blanks between the tokens and whatever comes after it.  Readers of arrays and of records read
their values if the readers of the parts do.

## Main definitions

* `Layout.IsBlank` — layouts that put nothing but blanks between the tokens
* `Reads` — a reader reads a value as something
* `StepReads` — a step reads a member, and changes a state by it
* `Folds`, `Fills` — what reading some members one after the other makes of a state
* `IsDocument` — a text is a document of a value

## Main statements

* `reads_expecting` — strings
* `reads_array` — arrays
* `Folds.reads_record`, `Fills.reads_record` — records
* `parse_of_reads` — a whole document
-/

namespace CommentTemplate.Json

variable {α σ : Type}

/-! ## Blanks -/

/-- Nothing but blanks stands between the tokens. -/
structure Layout.IsBlank (l : Layout) : Prop where
  newline : ∀ level, ∀ c ∈ l.newline level, isSpace c = true
  gap : ∀ c ∈ l.gap, isSpace c = true

theorem isBlank_pretty : Layout.pretty.IsBlank where
  newline level c hc := by
    rcases List.mem_cons.1 hc with rfl | hc
    · rfl
    · rw [List.eq_of_mem_replicate hc]
      rfl
  gap c hc := by
    obtain rfl : c = ' ' := by simpa [Layout.pretty] using hc
    rfl

theorem isBlank_compact : Layout.compact.IsBlank where
  newline _ := List.forall_mem_nil _
  gap := List.forall_mem_nil _

section Blanks

variable {blanks : Text}

theorem skipSpace_append (hblanks : ∀ c ∈ blanks, isSpace c = true) (t : Text) :
    skipSpace (blanks ++ t) = skipSpace t :=
  List.dropWhile_append_of_pos hblanks

theorem skipSpace_blanks (hblanks : ∀ c ∈ blanks, isSpace c = true) : skipSpace blanks = [] := by
  rw [← List.append_nil blanks, skipSpace_append hblanks]
  rfl

theorem skipSpace_cons {c : Char} (hc : isSpace c = false) (t : Text) :
    skipSpace (c :: t) = c :: t :=
  List.dropWhile_cons_of_neg (by simp [hc])

theorem skipSpace_append_cons (hblanks : ∀ c ∈ blanks, isSpace c = true) {c : Char}
    (hc : isSpace c = false) (t : Text) : skipSpace (blanks ++ c :: t) = c :: t := by
  rw [skipSpace_append hblanks, skipSpace_cons hc]

/-- No blank goes on with a number. -/
theorem delimits_blank {b : Char} (hb : isSpace b = true) (rest : Text) : Delimits (b :: rest) := by
  intro d hd
  obtain rfl : b = d := by simpa using hd
  simp only [isSpace, Bool.or_eq_true, decide_eq_true_eq] at hb
  rcases hb with ((rfl | rfl) | rfl) | rfl <;> decide

/-- A value ends in front of blanks. -/
theorem delimits_of_blanks (hblanks : ∀ c ∈ blanks, isSpace c = true) : Delimits blanks := by
  cases blanks with
  | nil => exact delimits_nil
  | cons b blanks => exact delimits_blank (hblanks b List.mem_cons_self) blanks

/-- A value ends in front of blanks with a comma or a closing bracket behind them. -/
theorem delimits_append_cons (hblanks : ∀ c ∈ blanks, isSpace c = true) {c : Char}
    (hc : c ∈ [',', ':', ']', '}']) (rest : Text) : Delimits (blanks ++ c :: rest) := by
  cases blanks with
  | nil => exact delimits_cons hc rest
  | cons b blanks => exact delimits_blank (hblanks b List.mem_cons_self) _

end Blanks

/-- A document is a token right away, and no closing bracket. -/
theorem Value.Integral.exists_print {v : Value} (h : v.Integral) (l : Layout) (level : Nat)
    (rest : Text) : ∃ c t, v.print l level ++ rest = c :: t ∧ isSpace c = false ∧ c ≠ ']' := by
  obtain ⟨c, hc, hlead⟩ := h.exists_head_print l level rest
  obtain ⟨t, ht⟩ := List.head?_eq_some_iff.1 hc
  refine ⟨c, t, ht, ?_, ?_⟩
  · rw [Bool.eq_false_iff]
    intro hspace
    simp only [isSpace, Bool.or_eq_true, decide_eq_true_eq] at hspace
    have hmem := v.lead_mem
    rw [← hlead] at hmem
    rcases hspace with ((rfl | rfl) | rfl) | rfl <;> exact absurd hmem (by decide)
  · rintro rfl
    have hmem := v.lead_mem
    rw [← hlead] at hmem
    exact absurd hmem (by decide)

/-! ## Readers -/

/-- A reader reads a value as `a`: whatever the layout, the blanks in front and what follows. -/
def Reads (r : Reader α) (v : Value) (a : α) : Prop :=
  ∀ ⦃l : Layout⦄, l.IsBlank → ∀ (level : Nat) ⦃blanks rest : Text⦄,
    (∀ c ∈ blanks, isSpace c = true) → Delimits rest →
      r (blanks ++ (v.print l level ++ rest)) = .ok (a, rest)

/-- Nothing has to stand in front of a value. -/
theorem Reads.print {r : Reader α} {v : Value} {a : α} (h : Reads r v a) {l : Layout}
    (hl : l.IsBlank) (level : Nat) {rest : Text} (hrest : Delimits rest) :
    r (v.print l level ++ rest) = .ok (a, rest) :=
  h hl level (List.forall_mem_nil _) hrest

/-- A reader reads what another one does if it goes on from there without reading. -/
theorem Reads.of_ok {β : Type} {r : Reader α} {r' : Reader β} {v : Value} {a : α} {b : β}
    (h : Reads r v a) (hr : ∀ s rest, r s = .ok (a, rest) → r' s = .ok (b, rest)) :
    Reads r' v b :=
  fun _ hl level _ _ hblanks hrest => hr _ _ (h hl level hblanks hrest)

theorem scalar_quoted (s rest : Text) : scalar (quoted s ++ rest) = .ok (.string s, rest) := by
  have hquoted : quoted s ++ rest = '"' :: (s.flatMap escape ++ '"' :: rest) := by
    simp [quoted]
  rw [hquoted, scalar, stringBody_flatMap_escape]
  rfl

theorem skipSpace_quoted {blanks : Text} (hblanks : ∀ c ∈ blanks, isSpace c = true)
    (s rest : Text) : skipSpace (blanks ++ (quoted s ++ rest)) = quoted s ++ rest :=
  skipSpace_append_cons hblanks (by decide) _

/-- A string is read where a string of its kind is expected. -/
theorem reads_expecting {expected : Text} {f : Seen → Option α} {s : Text} {a : α}
    (h : f (.string s) = some a) : Reads (expecting expected f) (.string s) a := by
  intro l _ level blanks rest hblanks _
  rw [Value.print, expecting, skipSpace_quoted hblanks, scalar_quoted]
  simp only [bind, Except.bind, h]
  rfl

theorem reads_string (s : Text) : Reads string (.string s) s := reads_expecting rfl

/-- A string is read as a value. -/
theorem reads_value_string (levels : Nat) (s : Text) :
    Reads (value levels) (.string s) (.string s) := by
  intro l _ level blanks rest hblanks _
  cases levels <;>
    rw [Value.print, value, skipSpace_quoted hblanks, scalar_quoted] <;> rfl

/-! ## Arrays -/

section Arrays

variable {l : Layout} {blanks : Text}

theorem hasItem_closed (first : Bool) (hblanks : ∀ c ∈ blanks, isSpace c = true) (rest : Text) :
    hasItem first (blanks ++ ']' :: rest) = .ok (false, ']' :: rest) := by
  rw [hasItem, skipSpace_append_cons hblanks (by decide)]
  rfl

theorem hasItem_first {v : Value} (hv : v.Integral) (hblanks : ∀ c ∈ blanks, isSpace c = true)
    (l : Layout) (level : Nat) (rest : Text) :
    hasItem true (blanks ++ (v.print l level ++ rest)) = .ok (true, v.print l level ++ rest) := by
  obtain ⟨c, t, hprint, hspace, hclosed⟩ := hv.exists_print l level rest
  rw [hprint, hasItem, skipSpace_append_cons hblanks hspace]
  simp [hclosed]

theorem hasItem_next {v : Value} (hv : v.Integral) (hblanks : ∀ c ∈ blanks, isSpace c = true)
    (l : Layout) (level : Nat) (rest : Text) :
    hasItem false (',' :: (blanks ++ (v.print l level ++ rest))) =
      .ok (true, v.print l level ++ rest) := by
  obtain ⟨c, t, hprint, hspace, hclosed⟩ := hv.exists_print l level rest
  rw [hprint, hasItem, skipSpace_cons (by decide)]
  simp [skipSpace_append_cons hblanks hspace, hclosed]

/-- The first item of an array is read as any further one is after its comma. -/
theorem items_first {item : Reader α} {v : Value} (hv : v.Integral)
    (hblanks : ∀ c ∈ blanks, isSpace c = true) (level fuel : Nat) (rest : Text) :
    items item (fuel + 1) true (blanks ++ (v.print l level ++ rest)) =
      items item (fuel + 1) false (',' :: (blanks ++ (v.print l level ++ rest))) := by
  rw [items, items, hasItem_first hv hblanks, hasItem_next hv hblanks]

theorem length_le_printItems (l : Layout) (level : Nat) (vs : List Value) :
    vs.length ≤ (Value.printItems l level vs).length := by
  induction vs with
  | nil => exact Nat.zero_le _
  | cons v vs ih =>
      simp only [Value.printItems, List.length_cons, List.length_append]
      omega

theorem delimits_items (hl : l.IsBlank) (level outer : Nat) (vs : List Value) (rest : Text) :
    Delimits (Value.printItems l level vs ++ (l.newline outer ++ ']' :: rest)) := by
  cases vs with
  | nil => exact delimits_append_cons (hl.newline outer) (by decide) rest
  | cons v vs => exact delimits_cons (by decide) _

/-- Further items are read one after the other, up to the closing bracket. -/
theorem items_printItems {item : Reader α} {vs : List Value} {xs : List α}
    (h : List.Forall₂ (Reads item) vs xs) (hvs : ∀ v ∈ vs, v.Integral) (hl : l.IsBlank)
    (level outer : Nat) {fuel : Nat} (hfuel : vs.length < fuel) (rest : Text) :
    items item fuel false (Value.printItems l level vs ++ (l.newline outer ++ ']' :: rest)) =
      .ok (xs, rest) := by
  induction h generalizing fuel with
  | nil =>
      obtain ⟨fuel, rfl⟩ := Nat.exists_eq_add_of_lt hfuel
      rw [items, Value.printItems, List.nil_append, hasItem_closed false (hl.newline outer)]
      rfl
  | @cons v x vs xs hv _ ih =>
      obtain ⟨fuel, rfl⟩ := Nat.exists_eq_add_of_lt hfuel
      rw [List.forall_mem_cons] at hvs
      simp only [Value.printItems, List.cons_append, List.append_assoc]
      rw [items, hasItem_next hvs.1 (hl.newline level)]
      have hread := hv.print hl level (delimits_items hl level outer vs rest)
      simp only [bind, Except.bind, ↓reduceIte, hread]
      rw [ih hvs.2 (by simp only [List.length_cons]; omega)]
      rfl

/-- An array is read item by item. -/
theorem reads_array {item : Nat → Reader α} {levels : Nat} {vs : List Value} {xs : List α}
    (h : List.Forall₂ (Reads (item levels)) vs xs) (hvs : ∀ v ∈ vs, v.Integral) :
    Reads (array item (levels + 1)) (.array vs) xs := by
  intro l hl level blanks rest hblanks _
  cases h with
  | nil =>
      have hclosed : hasItem true (']' :: rest) = .ok (false, ']' :: rest) := rfl
      simp only [Value.print, List.cons_append, List.nil_append, array,
        skipSpace_append_cons hblanks (show isSpace '[' = false by decide), scalar, bind,
        Except.bind, List.drop_succ_cons, List.drop_zero, items, hclosed]
      rfl
  | @cons v x vs xs hv h =>
      have hlength := length_le_printItems l (level + 1) vs
      have hread (fuel) (hfuel : (v :: vs).length < fuel) :=
        items_printItems (.cons hv h) hvs hl (level + 1) level hfuel rest
      simp only [Value.printItems, List.cons_append, List.append_assoc] at hread
      simp only [Value.print, List.cons_append, List.append_assoc, List.nil_append, array,
        skipSpace_append_cons hblanks (show isSpace '[' = false by decide), scalar, bind,
        Except.bind, List.drop_succ_cons, List.drop_zero,
        items_first (hvs v List.mem_cons_self) (hl.newline (level + 1))]
      refine hread _ ?_
      simp only [List.length_cons, List.length_append]
      omega

end Arrays

/-! ## Objects -/

section Objects

variable {l : Layout} {blanks : Text}

theorem hasMember_closed (first : Bool) (hblanks : ∀ c ∈ blanks, isSpace c = true) (rest : Text) :
    hasMember first (blanks ++ '}' :: rest) = .ok (false, '}' :: rest) := by
  rw [hasMember, skipSpace_append_cons hblanks (by decide)]
  rfl

theorem hasMember_first (hblanks : ∀ c ∈ blanks, isSpace c = true) (rest : Text) :
    hasMember true (blanks ++ '"' :: rest) = .ok (true, rest) := by
  rw [hasMember, skipSpace_append_cons hblanks (by decide)]
  rfl

theorem hasMember_next (hblanks : ∀ c ∈ blanks, isSpace c = true) (rest : Text) :
    hasMember false (',' :: (blanks ++ '"' :: rest)) = .ok (true, rest) := by
  rw [hasMember, skipSpace_cons (by decide)]
  simp [skipSpace_append_cons hblanks (show isSpace '"' = false by decide)]

theorem colon_cons (s : Text) : colon (':' :: s) = .ok s := by
  rw [colon, skipSpace_cons (by decide)]
  rfl

/-- The first member of an object is read as any further one is after its comma. -/
theorem foldMembers_first {step : σ → Text → Reader σ} {st : σ}
    (hblanks : ∀ c ∈ blanks, isSpace c = true) (fuel : Nat) (rest : Text) :
    foldMembers step (fuel + 1) true st (blanks ++ '"' :: rest) =
      foldMembers step (fuel + 1) false st (',' :: (blanks ++ '"' :: rest)) := by
  rw [foldMembers, foldMembers, hasMember_first hblanks, hasMember_next hblanks]

theorem length_le_printMembers (l : Layout) (level : Nat) (ms : List (Text × Value)) :
    ms.length ≤ (Value.printMembers l level ms).length := by
  induction ms with
  | nil => exact Nat.zero_le _
  | cons m ms ih =>
      simp only [Value.printMembers, List.length_cons, List.length_append]
      omega

theorem delimits_members (hl : l.IsBlank) (level outer : Nat) (ms : List (Text × Value))
    (rest : Text) :
    Delimits (Value.printMembers l level ms ++ (l.newline outer ++ '}' :: rest)) := by
  cases ms with
  | nil => exact delimits_append_cons (hl.newline outer) (by decide) rest
  | cons m ms => exact delimits_cons (by decide) _

/-- A step that reads the value of a member behind its colon, in whatever layout. -/
def StepReads (step : σ → Text → Reader σ) (st : σ) (m : Text × Value) (st' : σ) : Prop :=
  ∀ ⦃l : Layout⦄, l.IsBlank → ∀ (level : Nat) ⦃rest : Text⦄, Delimits rest →
    step st m.1 (':' :: (l.gap ++ (m.2.print l level ++ rest))) = .ok (st', rest)

/-- What a step makes of a state when it reads some members one after the other. -/
inductive Folds (step : σ → Text → Reader σ) : σ → List (Text × Value) → σ → Prop where
  | nil (st : σ) : Folds step st [] st
  | cons {st st₁ st₂ : σ} {m : Text × Value} {ms : List (Text × Value)}
    (head : StepReads step st m st₁) (tail : Folds step st₁ ms st₂) : Folds step st (m :: ms) st₂

variable {step : σ → Text → Reader σ} {st st' : σ} {ms : List (Text × Value)}

theorem Folds.append {front back : List (Text × Value)} {st₁ st₂ : σ}
    (h : Folds step st front st₁) (h' : Folds step st₁ back st₂) :
    Folds step st (front ++ back) st₂ := by
  induction h with
  | nil => exact h'
  | cons head _ ih => exact .cons head (ih h')

/-- Further members are read one after the other, up to the closing brace. -/
theorem Folds.foldMembers_printMembers (h : Folds step st ms st') (hl : l.IsBlank)
    (level outer : Nat) {fuel : Nat} (hfuel : ms.length < fuel) (rest : Text) :
    foldMembers step fuel false st
      (Value.printMembers l level ms ++ (l.newline outer ++ '}' :: rest)) =
      .ok (st', '}' :: rest) := by
  induction h generalizing fuel with
  | nil st =>
      obtain ⟨fuel, rfl⟩ := Nat.exists_eq_add_of_lt hfuel
      rw [foldMembers, Value.printMembers, List.nil_append,
        hasMember_closed false (hl.newline outer)]
      rfl
  | @cons st st₁ st₂ m ms head _ ih =>
      obtain ⟨fuel, rfl⟩ := Nat.exists_eq_add_of_lt hfuel
      have hread := head hl level (delimits_members hl level outer ms rest)
      simp only [Value.printMembers, quoted, List.cons_append, List.append_assoc,
        List.nil_append]
      rw [foldMembers, hasMember_next (hl.newline level)]
      simp only [bind, Except.bind, ↓reduceIte, stringBody_flatMap_escape, hread]
      exact ih (by simp only [List.length_cons]; omega)

/-- The members of an object are read one after the other. -/
theorem Folds.foldMembers_object (h : Folds step st ms st') (hl : l.IsBlank) (level : Nat)
    (rest : Text) : ∃ t, (Value.object ms).print l level ++ rest = '{' :: t ∧
      ∀ fuel, t.length < fuel → foldMembers step fuel true st t = .ok (st', '}' :: rest) := by
  cases h with
  | nil =>
      refine ⟨'}' :: rest, by simp [Value.print], fun fuel hfuel => ?_⟩
      obtain ⟨fuel, rfl⟩ := Nat.exists_eq_add_of_lt hfuel
      have hclosed : hasMember true ('}' :: rest) = .ok (false, '}' :: rest) := rfl
      rw [foldMembers, hclosed]
      rfl
  | @cons _ st₁ _ m ms head tail =>
      have hlength := length_le_printMembers l (level + 1) ms
      have hread (fuel) (hfuel : (m :: ms).length < fuel) :=
        (Folds.cons head tail).foldMembers_printMembers hl (level + 1) level hfuel rest
      simp only [Value.printMembers, quoted, List.cons_append, List.append_assoc,
        List.nil_append] at hread
      refine ⟨l.newline (level + 1) ++ '"' :: (m.1.flatMap escape ++ '"' :: ':' ::
        (l.gap ++ (m.2.print l (level + 1) ++ (Value.printMembers l (level + 1) ms ++
          (l.newline level ++ '}' :: rest))))), by simp [Value.print, quoted],
        fun fuel hfuel => ?_⟩
      simp only [List.length_cons, List.length_append] at hfuel
      obtain ⟨fuel, rfl⟩ := Nat.exists_eq_add_of_lt hfuel
      rw [foldMembers_first (hl.newline (level + 1))]
      exact hread _ (by simp only [List.length_cons]; omega)

theorem scalar_brace (s : Text) : scalar ('{' :: s) = .ok (.object, '{' :: s) := rfl

end Objects

/-! ## Records -/

section Records

variable {fields : List (Field σ)} {levels : Nat}

/-- What reading some members makes of a partial record, if each is the value of a field that was
not given before. -/
inductive Fills (fields : List (Field σ)) (levels : Nat) : σ → List (Text × Value) → σ → Prop where
  | nil (st : σ) : Fills fields levels st [] st
  | cons {st st₁ st₂ : σ} {f : Field σ} {name : Text} {v : Value} {ms : List (Text × Value)}
    (field : fields.find? (·.name = name) = some f) (fresh : f.given st = false)
    (head : Reads (f.read levels st) v st₁) (tail : Fills fields levels st₁ ms st₂) :
    Fills fields levels st ((name, v) :: ms) st₂

variable {st st' : σ} {ms : List (Text × Value)}

/-- A field is read that was not given before. -/
theorem stepReads_field {f : Field σ} {name : Text} {v : Value} {st₁ : σ}
    (field : fields.find? (·.name = name) = some f) (fresh : f.given st = false)
    (h : Reads (f.read levels st) v st₁) :
    StepReads (recordMember fields levels) st (name, v) st₁ := by
  intro l hl level rest hrest
  simp only [recordMember, field, fresh, Bool.false_eq_true, ↓reduceIte, bind, Except.bind,
    colon_cons]
  exact h hl level hl.gap hrest

theorem Fills.folds (h : Fills fields levels st ms st') :
    Folds (recordMember fields levels) st ms st' := by
  induction h with
  | nil st => exact .nil st
  | cons field fresh head _ ih => exact .cons (stepReads_field field fresh head) ih

section Record

variable {expected : Text} {start : σ} {finish : σ → Except Cause α}

/-- A record is made from an object once all its members are read, and may be refused then. -/
theorem Folds.record_object (h : Folds (recordMember fields levels) start ms st) {l : Layout}
    (hl : l.IsBlank) (level : Nat) {blanks : Text} (hblanks : ∀ c ∈ blanks, isSpace c = true)
    (rest : Text) :
    record expected fields start finish (levels + 1)
      (blanks ++ ((Value.object ms).print l level ++ rest)) =
      match finish st with
      | .ok a => .ok (a, rest)
      | .error c => .error (.before c rest) := by
  obtain ⟨t, hprint, hmembers⟩ := h.foldMembers_object hl level rest
  have hread := hmembers (('{' :: t).length + 1) (by simp only [List.length_cons]; omega)
  rw [hprint, record, skipSpace_append_cons hblanks (by decide), scalar_brace]
  simp only [bind, Except.bind, List.drop_succ_cons, List.drop_zero, hread]
  cases finish st <;> rfl

/-- A record is read from an object with its fields. -/
theorem Folds.reads_record {a : α} (h : Folds (recordMember fields levels) start ms st)
    (hfinish : finish st = .ok a) :
    Reads (record expected fields start finish (levels + 1)) (.object ms) a := by
  intro l hl level blanks rest hblanks _
  rw [h.record_object hl level hblanks, hfinish]

theorem Fills.reads_record {a : α} (h : Fills fields levels start ms st)
    (hfinish : finish st = .ok a) :
    Reads (record expected fields start finish (levels + 1)) (.object ms) a :=
  h.folds.reads_record hfinish

end Record

/-- A field is read if its value is. -/
theorem reads_fieldOf {name : Text} {required : Bool} {get : σ → Option α} {set : α → σ → σ}
    {item : Nat → Reader α} {v : Value} {a : α} (h : Reads (item levels) v a) (st : σ) :
    Reads ((Field.of name required get set item).read levels st) v (set a st) :=
  h.of_ok fun s rest hs => by
    simp only [Field.of, hs, bind, Except.bind]
    rfl

/-- A field is read that was not given before, if its value is. -/
theorem stepReads_fieldOf {name : Text} {required : Bool} {get : σ → Option α} {set : α → σ → σ}
    {item : Nat → Reader α} {v : Value} {a : α} {st : σ}
    (field : fields.find? (·.name = name) = some (.of name required get set item))
    (fresh : get st = none) (h : Reads (item levels) v a) :
    StepReads (recordMember fields levels) st (name, v) (set a st) :=
  stepReads_field field (Option.isSome_eq_false_iff.2 (by simp [fresh])) (reads_fieldOf h st)

end Records

/-! ## Documents -/

/-- A text is a document of a value: printed in some layout, with blanks around it. -/
def IsDocument (t : Text) (v : Value) : Prop :=
  ∃ (l : Layout) (before after : Text), l.IsBlank ∧ (∀ c ∈ before, isSpace c = true) ∧
    (∀ c ∈ after, isSpace c = true) ∧ t = before ++ (v.print l 0 ++ after)

theorem isDocument_print {l : Layout} (hl : l.IsBlank) (v : Value) : IsDocument (v.print l 0) v :=
  ⟨l, [], [], hl, List.forall_mem_nil _, List.forall_mem_nil _, by simp⟩

/-- **A document is read back** if the reader reads its value. -/
theorem parse_of_reads {reader : Nat → Reader α} {v : Value} {a : α}
    (h : Reads (reader maxNesting) v a) {t : Text} (ht : IsDocument t v) :
    parse reader t = .ok a := by
  obtain ⟨l, before, after, hl, hbefore, hafter, rfl⟩ := ht
  have hread := h hl 0 hbefore (delimits_of_blanks hafter)
  simp only [parse, hread, skipSpace_blanks hafter]

theorem parse_pretty {reader : Nat → Reader α} {v : Value} {a : α}
    (h : Reads (reader maxNesting) v a) : parse reader v.pretty = .ok a :=
  parse_of_reads h (isDocument_print isBlank_pretty v)

end CommentTemplate.Json
