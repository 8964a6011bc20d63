import CommentTemplate.Proofs.Json.Canonical
import CommentTemplate.Proofs.Json.Reading

/-!
# Values are read back

A document of a value is read as the canonical form of the value: the reader sorts the members of
every object as it meets them.  It takes integers of sixty-four bits for what they are, and it
goes down as many levels of nesting as it was allowed.

## Main definitions

* `Value.Fits` — values whose numbers are integers of sixty-four bits
* `Value.depth` — how deep the brackets of a value are nested

## Main statements

* `scalar_integerText` — integers
* `reads_dict` — objects as dictionaries
* `reads_value` — values of any type
-/

namespace CommentTemplate.Json

open Text

/-! ## Integers -/

theorem le_ofDigitChars (ds : Text) (n : Nat) : n ≤ Nat.ofDigitChars 10 ds n := by
  induction ds generalizing n with
  | nil => exact Nat.le_refl n
  | cons d ds ih =>
      rw [Nat.ofDigitChars_cons]
      exact Nat.le_trans (by omega) (ih _)

/-- Digits whose number stays within the bound are taken to the last one. -/
theorem absorb_of_le {bound n : Nat} {ds : Text} (h : Nat.ofDigitChars 10 ds n ≤ bound) :
    absorb bound n ds = (Nat.ofDigitChars 10 ds n, 0) := by
  induction ds generalizing n with
  | nil => rfl
  | cons d ds ih =>
      rw [Nat.ofDigitChars_cons] at h ⊢
      have hd : 10 * n + (d.toNat - '0'.toNat) ≤ bound := Nat.le_trans (le_ofDigitChars ds _) h
      rw [absorb]
      simp only [hd, ↓reduceIte]
      exact ih h

/-- No positive number begins with a zero. -/
theorem head?_ofNat_ne_zero {n : Nat} (h : 0 < n) : (Text.ofNat n).head? ≠ some '0' := by
  induction n using Nat.strongRecOn with
  | ind n ih =>
      rw [Text.ofNat, Nat.toDigits_eq_if (by decide)]
      split
      · next hlt =>
          have hdigit : ∀ n < 10, 0 < n → [n.digitChar].head? ≠ some '0' := by decide
          exact hdigit n hlt h
      · rw [List.head?_append_of_ne_nil _ Nat.toDigits_ne_nil]
        exact ih (n / 10) (by omega) (by omega)

theorem afterInteger_of_delimits {negative : Bool} {n : Nat} {rest : Text} (h : Delimits rest) :
    afterInteger negative n 0 rest = if !negative then .ok (.integer n, rest)
      else if n = 0 ∨ Nat.pow 2 63 < n then .ok (.float (-n.toUInt64.toFloat).toBits, rest)
      else .ok (.integer (-n), rest) := by
  unfold afterInteger
  split
  · exact absurd rfl (h _ rfl).2.1
  · exact absurd rfl (h _ rfl).2.2.1
  · exact absurd rfl (h _ rfl).2.2.2
  · rfl

/-- The digits of a number that fits sixty-four bits are read as that number. -/
theorem number_ofNat {negative : Bool} {n : Nat} (hn : n ≤ maxWord) {rest : Text}
    (h : Delimits rest) :
    number negative (Text.ofNat n ++ rest) = afterInteger negative n 0 rest := by
  have hdigits : ∀ c ∈ rest.head?, c.isDigit = false := fun c hc => (h c hc).1
  rcases Nat.eq_zero_or_pos n with rfl | hpos
  · cases rest with
    | nil => rfl
    | cons d rest =>
        have hd : d.isDigit = false := hdigits d rfl
        have : Text.ofNat 0 ++ d :: rest = '0' :: d :: rest := rfl
        rw [this, number, if_neg (by simp [hd])]
  · obtain ⟨c, hc, hdigit⟩ := Text.exists_head_ofNat n rest
    obtain ⟨t, ht⟩ := List.head?_eq_some_iff.1 hc
    have hzero : c ≠ '0' := by
      rintro rfl
      refine head?_ofNat_ne_zero hpos ?_
      rw [← hc, List.head?_append_of_ne_nil _ (Text.ofNat_ne_nil n)]
    obtain ⟨htake, hdrop⟩ := Text.takeWhile_ofNat n hdigits
    have habsorb : absorb maxWord 0 (Text.ofNat n) = (n, 0) := by
      have hvalue : Nat.ofDigitChars 10 (Text.ofNat n) 0 = n := Nat.ofDigitChars_ten_toDigits
      rw [absorb_of_le (by rwa [hvalue]), hvalue]
    rw [ht] at htake hdrop ⊢
    unfold number
    split
    · next heq => cases heq
    · next heq => exact absurd (List.cons.inj heq).1 hzero
    · next heq =>
        cases heq
        simp only [hdigit, ↓reduceIte, htake, hdrop, habsorb]

theorem scalar_of_isDigit {c : Char} (h : c.isDigit = true) (s : Text) :
    scalar (c :: s) = (number false (c :: s)).map fun r => (.number r.1, r.2) := by
  unfold scalar
  split
  case h_1 heq => cases heq
  case h_9 heq =>
      cases heq
      exact if_pos h
  all_goals
    next heq =>
      cases heq
      cases h

/-- An integer of sixty-four bits is read back. -/
theorem scalar_integerText {n : Int} (hlo : -Nat.pow 2 63 ≤ n) (hhi : n < Nat.pow 2 64)
    {rest : Text} (h : Delimits rest) :
    scalar (integerText n ++ rest) = .ok (.number (.integer n), rest) := by
  have hpow : Nat.pow 2 63 = 9223372036854775808 ∧ Nat.pow 2 64 = 18446744073709551616 := by decide
  have hword : n.natAbs ≤ maxWord := by
    rw [maxWord]
    omega
  unfold integerText
  split
  · have hvalue : -(n.natAbs : Int) = n := by omega
    rw [List.cons_append, scalar, number_ofNat hword h, afterInteger_of_delimits h,
      if_neg (by simp), if_neg (by omega), hvalue]
    rfl
  · have hvalue : (n.natAbs : Int) = n := by omega
    obtain ⟨c, hc, hdigit⟩ := Text.exists_head_ofNat n.natAbs rest
    obtain ⟨t, ht⟩ := List.head?_eq_some_iff.1 hc
    rw [ht, scalar_of_isDigit hdigit, ← ht, number_ofNat hword h, afterInteger_of_delimits h,
      hvalue]
    rfl

/-! ## Sizes of values -/

namespace Value

/-- Values whose numbers are integers of sixty-four bits, with or without a sign. -/
inductive Fits : Value → Prop where
  | null : Fits .null
  | bool (b : Bool) : Fits (.bool b)
  | integer {n : Int} (lower : -Nat.pow 2 63 ≤ n) (upper : n < Nat.pow 2 64) :
    Fits (.number (.integer n))
  | string (s : Text) : Fits (.string s)
  | array {items : List Value} (h : ∀ v ∈ items, Fits v) : Fits (.array items)
  | object {members : List (Text × Value)} (h : ∀ m ∈ members, Fits m.2) : Fits (.object members)

theorem Fits.integral {v : Value} (h : v.Fits) : v.Integral := by
  induction h with
  | null => exact .null
  | bool b => exact .bool b
  | integer => exact .integer _
  | string s => exact .string s
  | array _ ih => exact .array ih
  | object _ ih => exact .object ih

mutual

/-- The number of brackets that something in a value stands in. -/
def depth : Value → Nat
  | .array items => depthItems items + 1
  | .object members => depthMembers members + 1
  | .null | .bool _ | .number _ | .string _ => 0

/-- The depth of the deepest of some items. -/
def depthItems : List Value → Nat
  | [] => 0
  | v :: vs => max (depth v) (depthItems vs)

/-- The depth of the deepest of the values of some members. -/
def depthMembers : List (Text × Value) → Nat
  | [] => 0
  | (_, v) :: ms => max (depth v) (depthMembers ms)

end

theorem depthItems_le_iff {vs : List Value} {n : Nat} :
    depthItems vs ≤ n ↔ ∀ v ∈ vs, v.depth ≤ n := by
  induction vs with
  | nil => simp [depthItems]
  | cons v vs ih => rw [depthItems, Nat.max_le, ih, List.forall_mem_cons]

theorem depthMembers_le_iff {ms : List (Text × Value)} {n : Nat} :
    depthMembers ms ≤ n ↔ ∀ m ∈ ms, m.2.depth ≤ n := by
  induction ms with
  | nil => simp [depthMembers]
  | cons m ms ih =>
      obtain ⟨k, v⟩ := m
      rw [depthMembers, Nat.max_le, ih, List.forall_mem_cons]

/-- Items are nested deeper than `n` if one of them is. -/
theorem lt_depthItems_iff {vs : List Value} {n : Nat} :
    n < depthItems vs ↔ ∃ v ∈ vs, n < v.depth := by
  rw [← Nat.not_le, depthItems_le_iff]
  simp only [not_forall, Nat.not_le, exists_prop]

/-- Members are nested deeper than `n` if the value of one of them is. -/
theorem lt_depthMembers_iff {ms : List (Text × Value)} {n : Nat} :
    n < depthMembers ms ↔ ∃ m ∈ ms, n < m.2.depth := by
  rw [← Nat.not_le, depthMembers_le_iff]
  simp only [not_forall, Nat.not_le, exists_prop]

theorem depthItems_append (vs ws : List Value) :
    depthItems (vs ++ ws) = max (depthItems vs) (depthItems ws) := by
  induction vs with
  | nil => simp [depthItems]
  | cons v vs ih => simp only [List.cons_append, depthItems, ih, Nat.max_assoc]

theorem depthMembers_append (ms ns : List (Text × Value)) :
    depthMembers (ms ++ ns) = max (depthMembers ms) (depthMembers ns) := by
  induction ms with
  | nil => simp [depthMembers]
  | cons m ms ih => simp only [List.cons_append, depthMembers, ih, Nat.max_assoc]

theorem depthMembers_eq_of_perm {ms ns : List (Text × Value)} (h : ms.Perm ns) :
    depthMembers ms = depthMembers ns :=
  Nat.le_antisymm
    (depthMembers_le_iff.2 fun m hm => depthMembers_le_iff.1 (Nat.le_refl _) m (h.mem_iff.1 hm))
    (depthMembers_le_iff.2 fun m hm => depthMembers_le_iff.1 (Nat.le_refl _) m (h.mem_iff.2 hm))

end Value

/-! ## Objects as dictionaries -/

section Dictionaries

variable {α : Type} {item : Nat → Reader α} {levels : Nat}

/-- The step that reads a member into a dictionary. -/
def insertMember (item : Reader α) (d : Dict α) (name : Text) : Reader (Dict α) := fun s => do
  let s ← colon s
  let (x, s) ← item s
  return (d.insert name x, s)

theorem dictBody_eq (item : Reader α) (s : Text) : dictBody item s = (do
    let (d, s) ← foldMembers (insertMember item) (s.length + 1) true Dict.empty s
    return (d, s.drop 1)) := rfl

theorem stepReads_insertMember {item : Reader α} {d : Dict α} {m : Text × Value} {x : α}
    (h : Reads item m.2 x) : StepReads (insertMember item) d m (d.insert m.1 x) := by
  intro l hl level rest hrest
  have hread := h hl level hl.gap hrest
  simp only [insertMember, colon_cons, hread, bind, Except.bind]
  rfl

/-- Members are put into a dictionary one after the other. -/
theorem folds_insertMember {item : Reader α} {ms : List (Text × Value)} {f : Value → α}
    (h : ∀ m ∈ ms, Reads item m.2 (f m.2)) (d : Dict α) :
    Folds (insertMember item) d ms (d.insertAll (ms.map fun m => (m.1, f m.2))) := by
  induction ms generalizing d with
  | nil => exact .nil d
  | cons m ms ih =>
      rw [List.forall_mem_cons] at h
      exact .cons (stepReads_insertMember h.1) (ih h.2 _)

/-- An object is read as the dictionary of its members. -/
theorem reads_dict {ms : List (Text × Value)} {f : Value → α}
    (h : ∀ m ∈ ms, Reads (item levels) m.2 (f m.2)) :
    Reads (dict item (levels + 1)) (.object ms) (Dict.ofList (ms.map fun m => (m.1, f m.2))) := by
  intro l hl level blanks rest hblanks _
  obtain ⟨t, hprint, hmembers⟩ :=
    (folds_insertMember h Dict.empty).foldMembers_object hl level rest
  rw [hprint, dict, skipSpace_append_cons hblanks (by decide), scalar_brace]
  simp only [bind, Except.bind, List.drop_succ_cons, List.drop_zero, dictBody_eq,
    hmembers _ (Nat.lt_succ_self _)]
  rfl

end Dictionaries

/-! ## Values of any type -/

section Values

variable {v : Value} {levels : Nat} {s : Text}

/-- A scalar is a value. -/
theorem value_of_scalar {seen : Seen} {rest : Text} (h : scalar (skipSpace s) = .ok (seen, rest))
    (harray : seen ≠ .array) (hobject : seen ≠ .object) :
    value levels s = .ok (seen.value, rest) := by
  cases levels <;> simp only [value, h, bind, Except.bind]
  all_goals cases seen <;> rfl

/-- A value whose document is read as a scalar. -/
theorem reads_value_scalar (seen : Seen) (hv : v.Integral)
    (h : ∀ (l : Layout) (level : Nat) (rest : Text), Delimits rest →
      scalar (v.print l level ++ rest) = .ok (seen, rest))
    (harray : seen ≠ .array) (hobject : seen ≠ .object) : Reads (value levels) v seen.value := by
  intro l _ level blanks rest hblanks hrest
  obtain ⟨c, t, hprint, hspace, -⟩ := hv.exists_print l level rest
  have hscalar := h l level rest hrest
  rw [hprint] at hscalar ⊢
  exact value_of_scalar (by rw [skipSpace_append_cons hblanks hspace, hscalar]) harray hobject

/-- After an opening bracket a value is an array. -/
theorem value_of_bracket {t : Text} (h : skipSpace s = '[' :: t) :
    value (levels + 1) s = (array value (levels + 1) s).map fun r => (.array r.1, r.2) := by
  simp only [value, array, h, scalar, bind, Except.bind]
  cases items (value levels) (('[' :: t).length + 1) true (('[' :: t).drop 1) <;> rfl

/-- After an opening brace a value is an object. -/
theorem value_of_brace {t : Text} (h : skipSpace s = '{' :: t) :
    value (levels + 1) s = (dict value (levels + 1) s).map fun r => (.ofDict r.1, r.2) := by
  simp only [value, dict, h, scalar, bind, Except.bind]
  cases dictBody (value levels) (('{' :: t).drop 1) <;> rfl

theorem exists_print_array (vs : List Value) (l : Layout) (level : Nat) (rest : Text) :
    ∃ t, (Value.array vs).print l level ++ rest = '[' :: t := by
  cases vs <;> exact ⟨_, rfl⟩

theorem exists_print_object (ms : List (Text × Value)) (l : Layout) (level : Nat) (rest : Text) :
    ∃ t, (Value.object ms).print l level ++ rest = '{' :: t := by
  cases ms <;> exact ⟨_, rfl⟩

theorem canonical_object (ms : List (Text × Value)) :
    (Value.object ms).canonical = .ofDict (Dict.ofList (ms.map fun m => (m.1, m.2.canonical))) := by
  rw [Value.canonical, Value.canonicalMembers_eq_map, Value.ofDict]

/-- **A value is read in its canonical form**, if it is not nested too deep. -/
theorem reads_value (h : v.Fits) (hdepth : v.depth ≤ levels) :
    Reads (value levels) v v.canonical := by
  induction h generalizing levels with
  | null => exact reads_value_scalar .null .null (fun _ _ _ _ => rfl) nofun nofun
  | bool b =>
      refine reads_value_scalar (.bool b) (.bool b) (fun _ _ _ _ => ?_) nofun nofun
      cases b <;> rfl
  | @integer n lower upper =>
      refine reads_value_scalar (.number (.integer n)) (.integer n) (fun _ _ _ hrest => ?_)
        nofun nofun
      exact scalar_integerText lower upper hrest
  | string s => exact reads_value_string levels s
  | @array vs hvs ih =>
      cases levels with
      | zero => exact absurd hdepth (Nat.not_succ_le_zero _)
      | succ levels =>
      have hitems := Value.depthItems_le_iff.1 (Nat.le_of_succ_le_succ hdepth)
      have hread : Reads (array value (levels + 1)) (.array vs) (vs.map Value.canonical) :=
        reads_array
          (List.forall₂_map_right_iff.2 (List.forall₂_same.2 fun v hv => ih v hv (hitems v hv)))
          fun v hv => (hvs v hv).integral
      intro l hl level blanks rest hblanks hrest
      obtain ⟨t, ht⟩ := exists_print_array vs l level rest
      rw [value_of_bracket (by rw [ht, skipSpace_append_cons hblanks (by decide)]),
        hread hl level hblanks hrest, Value.canonical, Value.canonicalItems_eq_map]
      rfl
  | @object ms hms ih =>
      cases levels with
      | zero => exact absurd hdepth (Nat.not_succ_le_zero _)
      | succ levels =>
      have hmembers := Value.depthMembers_le_iff.1 (Nat.le_of_succ_le_succ hdepth)
      have hread : Reads (dict value (levels + 1)) (.object ms) _ :=
        reads_dict fun m hm => ih m hm (hmembers m hm)
      intro l hl level blanks rest hblanks hrest
      obtain ⟨t, ht⟩ := exists_print_object ms l level rest
      rw [value_of_brace (by rw [ht, skipSpace_append_cons hblanks (by decide)]),
        hread hl level hblanks hrest, canonical_object]
      rfl

end Values

end CommentTemplate.Json
