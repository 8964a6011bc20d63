import CommentTemplate.Proofs.Json.Values

/-!
# Skipped values

The document of a value is skipped up to its end, whatever the layout and however deep the value
is nested.  So a member that a record does not know leaves no trace in it.

## Main definitions

* `Skips` — an operation passes over the documents of a value

## Main statements

* `skipString_flatMap_escape`, `skipNumber_ofNat` — strings and numbers
* `skips` — values of any type and nesting
* `stepReads_unknown` — members that a record does not know
-/

namespace CommentTemplate.Json

variable {rest : Text}

/-! ## Strings -/

/-- An escape of one letter is skipped. -/
theorem skipString_letter {c : Char} (h : (letterEscape? c).isSome = true) (rest : Text) :
    skipString ('\\' :: c :: rest) = skipString rest := by
  have hu : c ≠ 'u' := by
    rintro rfl
    cases h
  rw [skipString.eq_def]
  simp only [hu, h, ↓reduceIte]

/-- An escape in four hexadecimal digits is skipped. -/
theorem skipString_hex {a b c d : Char} (h : (hexNumber? [a, b, c, d]).isSome = true)
    (rest : Text) : skipString ('\\' :: 'u' :: a :: b :: c :: d :: rest) = skipString rest := by
  rw [skipString.eq_def]
  simp only [h, ↓reduceIte]

/-- A character that stands for itself is skipped. -/
theorem skipString_plain {c : Char} (hbackslash : c ≠ '\\') (hquote : c ≠ '"')
    (hcontrol : ¬c.toNat < 0x20) (rest : Text) : skipString (c :: rest) = skipString rest := by
  rw [skipString.eq_def]
  split
  · next heq => cases heq
  · next heq => cases heq; exact absurd rfl hbackslash
  · next heq => cases heq; exact absurd rfl hbackslash
  · next heq =>
      cases heq
      rw [if_neg hquote, if_neg hcontrol]

/-- The spelling of a character inside a string is skipped. -/
theorem skipString_escape (c : Char) (rest : Text) :
    skipString (escape c ++ rest) = skipString rest := by
  unfold escape
  split
  · exact skipString_letter rfl rest
  split
  · exact skipString_letter rfl rest
  split
  · exact skipString_letter rfl rest
  split
  · exact skipString_letter rfl rest
  split
  · exact skipString_letter rfl rest
  split
  · exact skipString_letter rfl rest
  split
  · exact skipString_letter rfl rest
  split
  · next h =>
      have hzero : hexValue? '0' = some 0 := rfl
      refine skipString_hex ?_ rest
      simp [hexNumber?, hzero, hexValue?_hexDigit (show c.toNat / 16 < 16 by omega),
        hexValue?_hexDigit (show c.toNat % 16 < 16 by omega)]
  · next hquote hbackslash _ _ _ _ _ hcontrol =>
      exact skipString_plain hbackslash hquote hcontrol rest

/-- A string is skipped up to its closing quote. -/
theorem skipString_flatMap_escape (s rest : Text) :
    skipString (s.flatMap escape ++ '"' :: rest) = .ok rest := by
  induction s with
  | nil => simp [skipString.eq_def]
  | cons c s ih => rw [List.flatMap_cons, List.append_assoc, skipString_escape, ih]

/-! ## Numbers -/

theorem skipExponent_of_delimits (h : Delimits rest) : skipExponent rest = .ok rest := by
  unfold skipExponent
  split
  · exact absurd rfl (h _ rfl).2.2.1
  · exact absurd rfl (h _ rfl).2.2.2
  · rfl

/-- The digits of a number are skipped. -/
theorem skipNumber_ofNat (n : Nat) (h : Delimits rest) :
    skipNumber (Text.ofNat n ++ rest) = .ok rest := by
  have hdigits : ∀ c ∈ rest.head?, c.isDigit = false := fun c hc => (h c hc).1
  have hexponent := skipExponent_of_delimits h
  have hpoint : ∀ t, rest ≠ '.' :: t := fun t heq => (h '.' (heq ▸ rfl)).2.1 rfl
  rcases Nat.eq_zero_or_pos n with rfl | hpos
  · cases rest with
    | nil => rfl
    | cons d rest =>
        have hzero : Text.ofNat 0 ++ d :: rest = '0' :: d :: rest := rfl
        rw [hzero, skipNumber.eq_1, if_neg (by simp [hdigits d rfl])]
        beta_reduce
        split
        · next heq => exact absurd heq (hpoint _)
        · exact hexponent
  · obtain ⟨htake, hdrop⟩ := Text.takeWhile_ofNat n hdigits
    have hzero : ∀ t, Text.ofNat n ++ rest ≠ '0' :: t := by
      intro t heq
      refine head?_ofNat_ne_zero hpos ?_
      rw [← List.head?_append_of_ne_nil _ (Text.ofNat_ne_nil n), heq, List.head?_cons]
    rw [skipNumber.eq_def]
    split
    · next heq => exact absurd heq (hzero _)
    · rw [htake, if_neg (Text.ofNat_ne_nil n), hdrop]
      beta_reduce
      split
      · exact absurd rfl (hpoint _)
      · exact hexponent

/-! ## Values -/

/-- An operation passes over the documents of a value. -/
def Skips (item : Text → Except Fault Text) (v : Value) : Prop :=
  ∀ ⦃l : Layout⦄, l.IsBlank → ∀ (level : Nat) ⦃blanks rest : Text⦄,
    (∀ c ∈ blanks, isSpace c = true) → Delimits rest →
      item (blanks ++ (v.print l level ++ rest)) = .ok rest

variable {item : Text → Except Fault Text} {l : Layout}

/-- The items of an array are skipped one after the other, up to the closing bracket. -/
theorem skipItems_print {v : Value} {vs : List Value} (h : ∀ w ∈ v :: vs, Skips item w)
    (hl : l.IsBlank) (level outer : Nat) {fuel : Nat} (hfuel : vs.length < fuel)
    {blanks : Text} (hblanks : ∀ c ∈ blanks, isSpace c = true) (rest : Text) :
    skipItems item fuel (blanks ++ (v.print l level ++ (Value.printItems l level vs ++
      (l.newline outer ++ ']' :: rest)))) = .ok rest := by
  induction vs generalizing v fuel blanks with
  | nil =>
      obtain ⟨fuel, rfl⟩ := Nat.exists_eq_add_of_lt hfuel
      rw [List.forall_mem_cons] at h
      rw [skipItems, h.1 hl level hblanks (delimits_items hl level outer [] rest)]
      simp only [bind, Except.bind, Value.printItems, List.nil_append,
        skipSpace_append_cons (hl.newline outer) (show isSpace ']' = false by decide)]
      rfl
  | cons w vs ih =>
      obtain ⟨fuel, rfl⟩ := Nat.exists_eq_add_of_lt hfuel
      rw [List.forall_mem_cons] at h
      rw [skipItems, h.1 hl level hblanks (delimits_items hl level outer (w :: vs) rest)]
      simp only [bind, Except.bind, Value.printItems, List.cons_append, List.append_assoc,
        skipSpace_cons (show isSpace ',' = false by decide), Char.reduceEq, ↓reduceIte]
      exact ih h.2 (by simp only [List.length_cons]; omega) (hl.newline level)

/-- The members of an object are skipped one after the other, up to the closing brace. -/
theorem skipMembers_print {m : Text × Value} {ms : List (Text × Value)}
    (h : ∀ n ∈ m :: ms, Skips item n.2) (hl : l.IsBlank) (level outer : Nat) {fuel : Nat}
    (hfuel : ms.length < fuel) {blanks : Text} (hblanks : ∀ c ∈ blanks, isSpace c = true)
    (rest : Text) :
    skipMembers item fuel (blanks ++ (quoted m.1 ++ ':' :: (l.gap ++ (m.2.print l level ++
      (Value.printMembers l level ms ++ (l.newline outer ++ '}' :: rest)))))) = .ok rest := by
  induction ms generalizing m fuel blanks with
  | nil =>
      obtain ⟨fuel, rfl⟩ := Nat.exists_eq_add_of_lt hfuel
      rw [List.forall_mem_cons] at h
      have hitem := h.1 hl level hl.gap (delimits_members hl level outer [] rest)
      rw [skipMembers, skipSpace_quoted hblanks]
      simp only [quoted, List.cons_append, List.append_assoc, List.nil_append, ↓reduceIte,
        skipString_flatMap_escape, colon_cons, bind, Except.bind, hitem]
      simp only [Value.printMembers, List.nil_append,
        skipSpace_append_cons (hl.newline outer) (show isSpace '}' = false by decide)]
      rfl
  | cons n ms ih =>
      obtain ⟨fuel, rfl⟩ := Nat.exists_eq_add_of_lt hfuel
      rw [List.forall_mem_cons] at h
      have hitem := h.1 hl level hl.gap (delimits_members hl level outer (n :: ms) rest)
      rw [skipMembers, skipSpace_quoted hblanks]
      simp only [quoted, List.cons_append, List.append_assoc, List.nil_append, ↓reduceIte,
        skipString_flatMap_escape, colon_cons, bind, Except.bind, hitem]
      have hlength : ms.length < (n :: ms).length + fuel := by
        simp only [List.length_cons]
        omega
      have hmembers := ih h.2 hlength (hl.newline level)
      simpa only [Value.printMembers, List.cons_append, List.append_assoc,
        skipSpace_cons (show isSpace ',' = false by decide), Char.reduceEq, ↓reduceIte]
        using hmembers

theorem isSpace_of_isDigit {c : Char} (h : c.isDigit = true) : isSpace c = false := by
  rw [Bool.eq_false_iff]
  intro hspace
  simp only [isSpace, Bool.or_eq_true, decide_eq_true_eq] at hspace
  rcases hspace with ((rfl | rfl) | rfl) | rfl <;> cases h

/-- In front of a digit a number is skipped. -/
theorem skipNested_of_isDigit {s t : Text} {c : Char} (h : skipSpace s = c :: t)
    (hc : c.isDigit = true) (fuel : Nat) : skipNested (fuel + 1) s = skipNumber (c :: t) := by
  rw [skipNested, h]
  split
  case h_1 heq => cases heq
  case h_9 heq =>
      cases heq
      exact if_pos hc
  all_goals
    next heq =>
      cases heq
      cases hc

theorem skips_integer (n : Int) (fuel : Nat) :
    Skips (skipNested (fuel + 1)) (.number (.integer n)) := by
  intro l _ level blanks rest hblanks hrest
  rw [Value.print, Number.text, integerText]
  split
  · rw [skipNested, List.cons_append, skipSpace_append_cons hblanks (by decide)]
    exact skipNumber_ofNat _ hrest
  · obtain ⟨c, hc, hdigit⟩ := Text.exists_head_ofNat n.natAbs rest
    obtain ⟨t, ht⟩ := List.head?_eq_some_iff.1 hc
    have hskip : skipSpace (blanks ++ (Text.ofNat n.natAbs ++ rest)) = c :: t := by
      rw [ht, skipSpace_append_cons hblanks (isSpace_of_isDigit hdigit)]
    rw [skipNested_of_isDigit hskip hdigit, ← ht, skipNumber_ofNat _ hrest]

theorem skips_array {vs : List Value} {fuel : Nat} (hvs : ∀ v ∈ vs, v.Integral)
    (h : ∀ v ∈ vs, Skips (skipNested fuel) v) : Skips (skipNested (fuel + 1)) (.array vs) := by
  intro l hl level blanks rest hblanks _
  cases vs with
  | nil =>
      simp only [Value.print, List.cons_append, List.nil_append, skipNested,
        skipSpace_append_cons hblanks (show isSpace '[' = false by decide),
        skipSpace_cons (show isSpace ']' = false by decide), ↓reduceIte]
  | cons v vs =>
      obtain ⟨c, t, hprint, hspace, hclosed⟩ := (hvs v List.mem_cons_self).exists_print l
        (level + 1) (Value.printItems l (level + 1) vs ++ (l.newline level ++ ']' :: rest))
      have hlength := length_le_printItems l (level + 1) vs
      simp only [Value.print, List.cons_append, List.append_assoc, List.nil_append, skipNested,
        skipSpace_append_cons hblanks (show isSpace '[' = false by decide), hprint,
        skipSpace_append_cons (hl.newline (level + 1)) hspace, hclosed, ↓reduceIte]
      rw [← hprint]
      have hnone : ∀ c ∈ ([] : Text), isSpace c = true := List.forall_mem_nil _
      refine skipItems_print h hl (level + 1) level ?_ hnone rest
      simp only [List.length_append, List.length_cons]
      omega

theorem skips_object {ms : List (Text × Value)} {fuel : Nat}
    (h : ∀ m ∈ ms, Skips (skipNested fuel) m.2) : Skips (skipNested (fuel + 1)) (.object ms) := by
  intro l hl level blanks rest hblanks _
  cases ms with
  | nil =>
      simp only [Value.print, List.cons_append, List.nil_append, skipNested,
        skipSpace_append_cons hblanks (show isSpace '{' = false by decide),
        skipSpace_cons (show isSpace '}' = false by decide), ↓reduceIte]
  | cons m ms =>
      have hlength := length_le_printMembers l (level + 1) ms
      simp only [Value.print, quoted, List.cons_append, List.append_assoc, List.nil_append,
        skipNested, skipSpace_append_cons hblanks (show isSpace '{' = false by decide),
        skipSpace_append_cons (hl.newline (level + 1)) (show isSpace '"' = false by decide),
        Char.reduceEq, ↓reduceIte]
      have hmembers (fuel') (hfuel : ms.length < fuel') :=
        skipMembers_print h hl (level + 1) level hfuel (List.forall_mem_nil _) rest
      simp only [quoted, List.cons_append, List.append_assoc, List.nil_append] at hmembers
      refine hmembers _ ?_
      simp only [List.length_append, List.length_cons]
      omega

/-- A value is skipped if the fuel suffices for its nesting. -/
theorem skips_skipNested {v : Value} (h : v.Integral) {fuel : Nat} (hfuel : v.depth < fuel) :
    Skips (skipNested fuel) v := by
  induction h generalizing fuel with
  | null =>
      obtain ⟨fuel, rfl⟩ := Nat.exists_eq_add_of_lt hfuel
      intro l _ level blanks rest hblanks _
      rw [skipNested, skipSpace_append hblanks]
      rfl
  | bool b =>
      obtain ⟨fuel, rfl⟩ := Nat.exists_eq_add_of_lt hfuel
      intro l _ level blanks rest hblanks _
      rw [skipNested, skipSpace_append hblanks]
      cases b <;> rfl
  | integer n =>
      obtain ⟨fuel, rfl⟩ := Nat.exists_eq_add_of_lt hfuel
      exact skips_integer n _
  | string s =>
      obtain ⟨fuel, rfl⟩ := Nat.exists_eq_add_of_lt hfuel
      intro l _ level blanks rest hblanks _
      rw [skipNested, Value.print, skipSpace_quoted hblanks]
      simp only [quoted, List.cons_append, List.append_assoc, List.nil_append,
        skipString_flatMap_escape]
  | @array vs hvs ih =>
      obtain ⟨fuel, rfl⟩ := Nat.exists_eq_add_of_lt hfuel
      have hdepth := Value.depthItems_le_iff.1 (Nat.le_refl (Value.depthItems vs))
      refine skips_array hvs fun v hv => ih v hv (Nat.lt_of_le_of_lt (hdepth v hv) ?_)
      rw [Value.depth]
      omega
  | @object ms hms ih =>
      obtain ⟨fuel, rfl⟩ := Nat.exists_eq_add_of_lt hfuel
      have hdepth := Value.depthMembers_le_iff.1 (Nat.le_refl (Value.depthMembers ms))
      refine skips_object fun m hm => ih m hm (Nat.lt_of_le_of_lt (hdepth m hm) ?_)
      rw [Value.depth]
      omega

/-! ## Nesting -/

section Nesting

variable {level : Nat}

theorem depthItems_le_length {vs : List Value} (h : ∀ v ∈ vs, v.depth ≤ (v.print l level).length) :
    Value.depthItems vs ≤ (Value.printItems l level vs).length := by
  induction vs with
  | nil => exact Nat.zero_le _
  | cons v vs ih =>
      rw [List.forall_mem_cons] at h
      have hitems := ih h.2
      simp only [Value.depthItems, Value.printItems, List.length_cons, List.length_append]
      omega

theorem depthMembers_le_length {ms : List (Text × Value)}
    (h : ∀ m ∈ ms, m.2.depth ≤ (m.2.print l level).length) :
    Value.depthMembers ms ≤ (Value.printMembers l level ms).length := by
  induction ms with
  | nil => exact Nat.zero_le _
  | cons m ms ih =>
      rw [List.forall_mem_cons] at h
      have hmembers := ih h.2
      simp only [Value.depthMembers, Value.printMembers, List.length_cons, List.length_append]
      omega

end Nesting

/-- A document has at least as many characters as its value has levels. -/
theorem depth_le_length_print {v : Value} (h : v.Integral) (l : Layout) (level : Nat) :
    v.depth ≤ (v.print l level).length := by
  induction h generalizing level with
  | @array vs _ ih =>
      cases vs with
      | nil => exact Nat.le_succ 1
      | cons v vs =>
          have hitems := fun w (hw : w ∈ v :: vs) => ih w hw (level + 1)
          rw [List.forall_mem_cons] at hitems
          have hrest := depthItems_le_length hitems.2
          simp only [Value.depth, Value.depthItems, Value.print, List.length_cons,
            List.length_append]
          omega
  | @object ms _ ih =>
      cases ms with
      | nil => exact Nat.le_succ 1
      | cons m ms =>
          have hmembers := fun n (hn : n ∈ m :: ms) => ih n hn (level + 1)
          rw [List.forall_mem_cons] at hmembers
          have hrest := depthMembers_le_length hmembers.2
          simp only [Value.depth, Value.depthMembers, Value.print, List.length_cons,
            List.length_append]
          omega
  | _ => exact Nat.zero_le _

/-- **A value is skipped**, whatever it is. -/
theorem skips {v : Value} (h : v.Integral) : Skips skip v := by
  intro l hl level blanks rest hblanks hrest
  refine skips_skipNested h ?_ hl level hblanks hrest
  have hlength := depth_le_length_print h l level
  simp only [List.length_append]
  omega

/-! ## Unknown members -/

section Records

variable {σ : Type} {fields : List (Field σ)} {levels : Nat}

/-- A member that a record does not know is skipped. -/
theorem stepReads_unknown {name : Text} {v : Value} {st : σ}
    (hname : fields.find? (·.name = name) = none) (h : v.Integral) :
    StepReads (recordMember fields levels) st (name, v) st := by
  intro l hl level rest hrest
  simp only [recordMember, hname, colon_cons, skips h hl level hl.gap hrest, bind, Except.bind]
  rfl

/-- Members that a record does not know leave no trace. -/
theorem folds_unknown {ms : List (Text × Value)} {st : σ}
    (h : ∀ m ∈ ms, fields.find? (·.name = m.1) = none ∧ m.2.Integral) :
    Folds (recordMember fields levels) st ms st := by
  induction ms with
  | nil => exact .nil st
  | cons m ms ih =>
      rw [List.forall_mem_cons] at h
      exact .cons (stepReads_unknown h.1.1 h.1.2) (ih h.2)

end Records

end CommentTemplate.Json
