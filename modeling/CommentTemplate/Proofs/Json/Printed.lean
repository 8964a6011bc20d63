import CommentTemplate.Json.Reader
import CommentTemplate.Proofs.Text.Digits

/-!
# Printed documents

What the document of a value looks like from its front: which character it begins with, where a
string ends, where a number ends.  Nothing else is needed to see that a document without blanks
has one reading, so different values have different documents.

## Main definitions

* `Delimits` — a text in front of which every printed value ends
* `Value.Integral` — values whose numbers are integers
* `Value.lead` — the kind of character that the document of a value begins with

## Main statements

* `stringBody_flatMap_escape` — a string is read back from its escaped characters
* `eq_of_integerText_append` — an integer ends where no digit follows
* `Value.Integral.unambiguous` — documents without blanks are unambiguous
-/

namespace CommentTemplate.Json

/-! ## Where a value ends -/

/-- A text in front of which a number is complete: no digit, point or exponent follows. -/
def Delimits (rest : Text) : Prop :=
  ∀ c ∈ rest.head?, c.isDigit = false ∧ c ≠ '.' ∧ c ≠ 'e' ∧ c ≠ 'E'

theorem delimits_nil : Delimits [] := nofun

theorem delimits_cons {c : Char} (h : c ∈ [',', ':', ']', '}']) (rest : Text) :
    Delimits (c :: rest) := by
  have hall : ∀ c ∈ [',', ':', ']', '}'], c.isDigit = false ∧ c ≠ '.' ∧ c ≠ 'e' ∧ c ≠ 'E' := by
    simp
  intro d hd
  obtain rfl : c = d := by simpa using hd
  exact hall c h

/-! ## Strings -/

theorem hexValue?_hexDigit {n : Nat} (h : n < 16) : hexValue? (hexDigit n) = some n := by
  have hall : ∀ n < 16, hexValue? (hexDigit n) = some n := by decide
  exact hall n h

/-- Four digits are read back as the number they write. -/
theorem hexEscape_hexDigits {a b : Nat} (ha : a < 16) (hb : b < 16) (rest : Text) :
    hexEscape ('0' :: '0' :: hexDigit a :: hexDigit b :: rest) = .ok (16 * a + b, rest) := by
  have hsize : ¬Text.utf8Size ['0', '0', hexDigit a, hexDigit b] < 4 := by
    have := Char.utf8Size_pos (hexDigit a)
    have := Char.utf8Size_pos (hexDigit b)
    simp only [Text.utf8Size_cons, Text.utf8Size_nil]
    have : '0'.utf8Size = 1 := rfl
    omega
  have hnumber : hexNumber? ['0', '0', hexDigit a, hexDigit b] = some (16 * a + b) := by
    have hzero : hexValue? '0' = some 0 := rfl
    simp [hexNumber?, hexValue?_hexDigit ha, hexValue?_hexDigit hb, hzero]
  have htake : List.take 4 ('0' :: '0' :: hexDigit a :: hexDigit b :: rest) =
      ['0', '0', hexDigit a, hexDigit b] := rfl
  rw [hexEscape, htake, if_neg hsize, hnumber]
  rfl

/-- A control character is read back from its escape in hexadecimal digits. -/
theorem escapedChar_control {c : Char} (h : c.toNat < 0x20) (rest : Text) :
    escapedChar ('u' :: '0' :: '0' :: hexDigit (c.toNat / 16) :: hexDigit (c.toNat % 16) :: rest) =
      .ok (c, rest) := by
  have hu : letterEscape? 'u' = none := rfl
  have htrailing : isTrailingSurrogate c.toNat = false := by
    simp only [isTrailingSurrogate, Bool.and_eq_false_iff, decide_eq_false_iff_not]
    omega
  have hleading : isLeadingSurrogate c.toNat = false := by
    simp only [isLeadingSurrogate, Bool.and_eq_false_iff, decide_eq_false_iff_not]
    omega
  have hvalue : 16 * (c.toNat / 16) + c.toNat % 16 = c.toNat := by omega
  rw [escapedChar, hu]
  simp only [↓reduceIte]
  rw [unicodeEscape, hexEscape_hexDigits (by omega) (by omega), hvalue]
  simp [bind, Except.bind, htrailing, hleading, pure, Except.pure]

/-- An escape after a backslash stands for the character read from it. -/
theorem stringBody_backslash {s rest : Text} {c : Char} (h : escapedChar s = .ok (c, rest)) :
    stringBody ('\\' :: s) = (stringBody rest).map fun r => (c :: r.1, r.2) := by
  rw [stringBody]
  simp only [Char.reduceEq, ↓reduceIte]
  split
  · next hf => rw [h] at hf; cases hf
  · next hok =>
      rw [h] at hok
      cases hok
      rfl

/-- A character is read back from its spelling inside a string. -/
theorem stringBody_escape (c : Char) (rest : Text) :
    stringBody (escape c ++ rest) = (stringBody rest).map fun r => (c :: r.1, r.2) := by
  unfold escape
  split
  · next h => subst h; exact stringBody_backslash rfl
  split
  · next h => subst h; exact stringBody_backslash rfl
  split
  · next h => subst h; exact stringBody_backslash rfl
  split
  · next h => subst h; exact stringBody_backslash rfl
  split
  · next h => subst h; exact stringBody_backslash rfl
  split
  · next h => subst h; exact stringBody_backslash rfl
  split
  · next h => subst h; exact stringBody_backslash rfl
  split
  · next h => exact stringBody_backslash (escapedChar_control h rest)
  · next hquote hbackslash _ _ _ _ _ hcontrol =>
      rw [List.singleton_append, stringBody, if_neg hquote, if_neg hbackslash, if_neg hcontrol]

/-- A string is read back from its escaped characters and the closing quote. -/
theorem stringBody_flatMap_escape (s rest : Text) :
    stringBody (s.flatMap escape ++ '"' :: rest) = .ok (s, rest) := by
  induction s with
  | nil => simp [stringBody]
  | cons c s ih =>
      rw [List.flatMap_cons, List.append_assoc, stringBody_escape, ih]
      rfl

/-- Two quoted strings in front of something are the same string. -/
theorem eq_of_quoted_append {s t rest rest' : Text}
    (h : quoted s ++ rest = quoted t ++ rest') : s = t ∧ rest = rest' := by
  simp only [quoted, List.cons_append, List.append_assoc, List.nil_append, List.cons.injEq,
    true_and] at h
  have hs := stringBody_flatMap_escape s rest
  rw [h, stringBody_flatMap_escape, Except.ok.injEq, Prod.mk.injEq] at hs
  exact ⟨hs.1.symm, hs.2.symm⟩

/-! ## Integers -/

/-- An integer begins with a digit or a sign. -/
theorem exists_head_integerText (n : Int) (rest : Text) : ∃ c,
    (integerText n ++ rest).head? = some c ∧ (c = '-' ∨ c.isDigit = true) := by
  unfold integerText
  split
  · exact ⟨'-', rfl, .inl rfl⟩
  · obtain ⟨c, hc, hd⟩ := Text.exists_head_ofNat n.natAbs rest
    exact ⟨c, hc, .inr hd⟩

/-- No number begins with a sign of its own. -/
theorem ofNat_append_ne_minus (n : Nat) (u rest : Text) : Text.ofNat n ++ u ≠ '-' :: rest := by
  intro h
  obtain ⟨c, hc, hd⟩ := Text.exists_head_ofNat n u
  rw [h] at hc
  cases hc
  cases hd

/-- Two integers in front of something that ends them are the same integer. -/
theorem eq_of_integerText_append {m n : Int} {rest rest' : Text} (hrest : Delimits rest)
    (hrest' : Delimits rest') (h : integerText m ++ rest = integerText n ++ rest') :
    m = n ∧ rest = rest' := by
  have hdigits {j k : Nat} (h : Text.ofNat j ++ rest = Text.ofNat k ++ rest') :
      j = k ∧ rest = rest' :=
    Text.eq_of_ofNat_append (fun c hc => (hrest c hc).1) (fun c hc => (hrest' c hc).1) h
  unfold integerText at h
  -- Both integers have a sign or neither has one, since a sign is no digit.
  split at h <;> split at h
  · obtain ⟨hnat, hrest⟩ := hdigits (List.cons.inj h).2
    exact ⟨by omega, hrest⟩
  · exact absurd h.symm (ofNat_append_ne_minus _ _ _)
  · exact absurd h (ofNat_append_ne_minus _ _ _)
  · obtain ⟨hnat, hrest⟩ := hdigits h
    exact ⟨by omega, hrest⟩

/-! ## Values -/

namespace Value

/-- Values whose numbers are integers. -/
inductive Integral : Value → Prop where
  | null : Integral .null
  | bool (b : Bool) : Integral (.bool b)
  | integer (n : Int) : Integral (.number (.integer n))
  | string (s : Text) : Integral (.string s)
  | array {items : List Value} (h : ∀ v ∈ items, Integral v) : Integral (.array items)
  | object {members : List (Text × Value)} (h : ∀ m ∈ members, Integral m.2) :
    Integral (.object members)

/-- The kind of character that the document of a value begins with; a digit stands for any digit
and for the sign. -/
def lead : Value → Char
  | .null => 'n'
  | .bool true => 't'
  | .bool false => 'f'
  | .number _ => '0'
  | .string _ => '"'
  | .array _ => '['
  | .object _ => '{'

/-- The kind of a character at the beginning of a document. -/
def leadOf (c : Char) : Char := if c = '-' ∨ c.isDigit = true then '0' else c

/-- A document begins as its value does. -/
theorem Integral.exists_head_print {v : Value} (h : v.Integral) (l : Layout) (level : Nat)
    (rest : Text) :
    ∃ c, (v.print l level ++ rest).head? = some c ∧ leadOf c = v.lead := by
  cases h with
  | null => exact ⟨'n', rfl, rfl⟩
  | bool b => cases b <;> exact ⟨_, rfl, rfl⟩
  | integer n =>
      obtain ⟨c, hc, hd⟩ := exists_head_integerText n rest
      exact ⟨c, by rwa [print], if_pos hd⟩
  | string s => exact ⟨'"', rfl, rfl⟩
  | @array items _ => cases items <;> exact ⟨'[', rfl, rfl⟩
  | @object members _ => cases members <;> exact ⟨'{', rfl, rfl⟩

/-- Two documents that are the same text, up to what follows them, begin in the same way. -/
theorem Integral.lead_eq {v w : Value} (hv : v.Integral) (hw : w.Integral) {l : Layout}
    {level : Nat} {rest rest' : Text} (h : v.print l level ++ rest = w.print l level ++ rest') :
    v.lead = w.lead := by
  obtain ⟨c, hc, hlead⟩ := hv.exists_head_print l level rest
  obtain ⟨d, hd, hlead'⟩ := hw.exists_head_print l level rest'
  rw [h, hd, Option.some.injEq] at hc
  rw [← hlead, ← hlead', hc]

/-- No document begins with a blank, a comma or a closing bracket. -/
theorem lead_mem (v : Value) : v.lead ∈ ['n', 't', 'f', '0', '"', '[', '{'] := by
  cases v with
  | bool b => cases b <;> decide
  | _ => simp [lead]

theorem Integral.print_append_ne {v : Value} (h : v.Integral) {c : Char}
    (hc : leadOf c ∉ ['n', 't', 'f', '0', '"', '[', '{']) (l : Layout) (level : Nat)
    (rest rest' : Text) : v.print l level ++ rest ≠ c :: rest' := by
  intro heq
  obtain ⟨d, hd, hlead⟩ := h.exists_head_print l level rest
  rw [heq] at hd
  cases hd
  exact hc (hlead ▸ v.lead_mem)

/-! ### Arrays and objects without blanks -/

@[simp] theorem newline_compact (level : Nat) : Layout.compact.newline level = [] := rfl

@[simp] theorem gap_compact : Layout.compact.gap = [] := rfl

theorem delimits_printItems (level : Nat) (vs : List Value) (rest : Text) :
    Delimits (printItems .compact level vs ++ ']' :: rest) := by
  cases vs <;> exact delimits_cons (by decide) _

theorem delimits_printMembers (level : Nat) (ms : List (Text × Value)) (rest : Text) :
    Delimits (printMembers .compact level ms ++ '}' :: rest) := by
  cases ms <;> exact delimits_cons (by decide) _

/-- A value that can be told from every other one with integers only by its document, up to a text
that ends it. -/
def Unambiguous (v : Value) : Prop :=
  ∀ ⦃w : Value⦄, w.Integral → ∀ ⦃level : Nat⦄ ⦃rest rest' : Text⦄, Delimits rest →
    Delimits rest' → v.print .compact level ++ rest = w.print .compact level ++ rest' →
      v = w ∧ rest = rest'

/-- Further items of an array can be told apart if each of them can. -/
theorem eq_of_printItems_append {vs ws : List Value} (hvs : ∀ v ∈ vs, v.Unambiguous)
    (hws : ∀ w ∈ ws, w.Integral) {level : Nat} {rest rest' : Text}
    (h : printItems .compact level vs ++ ']' :: rest =
      printItems .compact level ws ++ ']' :: rest') : vs = ws ∧ rest = rest' := by
  induction vs generalizing ws with
  | nil =>
      cases ws with
      | nil => exact ⟨rfl, by simpa [printItems] using h⟩
      | cons w ws => simp [printItems] at h
  | cons v vs ih =>
      cases ws with
      | nil => simp [printItems] at h
      | cons w ws =>
          simp only [printItems, newline_compact, List.nil_append, List.cons_append,
            List.append_assoc, List.cons.injEq, true_and] at h
          rw [List.forall_mem_cons] at hvs hws
          obtain ⟨rfl, hitems⟩ := hvs.1 hws.1 (delimits_printItems level vs rest)
            (delimits_printItems level ws rest') h
          obtain ⟨rfl, hrest⟩ := ih hvs.2 hws.2 hitems
          exact ⟨rfl, hrest⟩

/-- Further members of an object can be told apart if their values can. -/
theorem eq_of_printMembers_append {ms ns : List (Text × Value)}
    (hms : ∀ m ∈ ms, m.2.Unambiguous) (hns : ∀ n ∈ ns, n.2.Integral) {level : Nat}
    {rest rest' : Text} (h : printMembers .compact level ms ++ '}' :: rest =
      printMembers .compact level ns ++ '}' :: rest') : ms = ns ∧ rest = rest' := by
  induction ms generalizing ns with
  | nil =>
      cases ns with
      | nil => exact ⟨rfl, by simpa [printMembers] using h⟩
      | cons n ns => simp [printMembers] at h
  | cons m ms ih =>
      obtain ⟨k, v⟩ := m
      cases ns with
      | nil => simp [printMembers] at h
      | cons n ns =>
          obtain ⟨j, w⟩ := n
          simp only [printMembers, newline_compact, gap_compact, List.nil_append,
            List.cons_append, List.append_assoc, List.cons.injEq, true_and] at h
          rw [List.forall_mem_cons] at hms hns
          obtain ⟨rfl, hvalue⟩ := eq_of_quoted_append h
          obtain ⟨hvw, hmembers⟩ := hms.1 hns.1 (delimits_printMembers level ms rest)
            (delimits_printMembers level ns rest') (List.cons.inj hvalue).2
          obtain ⟨rfl, hrest⟩ := ih hms.2 hns.2 hmembers
          exact ⟨by rw [show v = w from hvw], hrest⟩

theorem unambiguous_array {items : List Value} (h : (Value.array items).Integral)
    (hitems : ∀ v ∈ items, v.Unambiguous) : (Value.array items).Unambiguous := by
  intro w hw level rest rest' _ _ heq
  have hlead := h.lead_eq hw heq
  cases hw with
  | @array items' hitems' =>
      cases items with
      | nil =>
          cases items' with
          | nil => exact ⟨rfl, List.append_cancel_left heq⟩
          | cons v' vs' =>
              simp only [print, newline_compact, List.nil_append, List.cons_append,
                List.append_assoc, List.cons.injEq, true_and] at heq
              exact absurd heq.symm
                ((hitems' v' List.mem_cons_self).print_append_ne (by decide) _ _ _ _)
      | cons v vs =>
          cases h with
          | array h =>
          cases items' with
          | nil =>
              simp only [print, newline_compact, List.nil_append, List.cons_append,
                List.append_assoc, List.cons.injEq, true_and] at heq
              exact absurd heq ((h v List.mem_cons_self).print_append_ne (by decide) _ _ _ _)
          | cons v' vs' =>
              -- With a comma in front, both are further items of an array.
              have hprinted : printItems .compact (level + 1) (v :: vs) ++ ']' :: rest =
                  printItems .compact (level + 1) (v' :: vs') ++ ']' :: rest' := by
                simpa [print, printItems] using heq
              obtain ⟨hvs, hrest⟩ := eq_of_printItems_append hitems hitems' hprinted
              exact ⟨by rw [hvs], hrest⟩
  | bool b => cases b <;> cases hlead
  | _ => cases hlead

theorem unambiguous_object {members : List (Text × Value)} (h : (Value.object members).Integral)
    (hmembers : ∀ m ∈ members, m.2.Unambiguous) : (Value.object members).Unambiguous := by
  intro w hw level rest rest' _ _ heq
  have hlead := h.lead_eq hw heq
  cases hw with
  | @object members' hmembers' =>
      cases members with
      | nil =>
          cases members' with
          | nil => exact ⟨rfl, List.append_cancel_left heq⟩
          | cons m' ms' => simp [print, quoted] at heq
      | cons m ms =>
          cases members' with
          | nil => simp [print, quoted] at heq
          | cons m' ms' =>
              have hprinted : printMembers .compact (level + 1) (m :: ms) ++ '}' :: rest =
                  printMembers .compact (level + 1) (m' :: ms') ++ '}' :: rest' := by
                simpa [print, printMembers] using heq
              obtain ⟨hms, hrest⟩ := eq_of_printMembers_append hmembers hmembers' hprinted
              exact ⟨by rw [hms], hrest⟩
  | bool b => cases b <;> cases hlead
  | _ => cases hlead

/-- **Documents without blanks are unambiguous.**  The first character says which kind of value the
other one is, and what is inside is told apart piece by piece. -/
theorem Integral.unambiguous {v : Value} (hv : v.Integral) : v.Unambiguous := by
  induction hv with
  | array h ih => exact unambiguous_array (.array h) ih
  | object h ih => exact unambiguous_object (.object h) ih
  | null =>
      intro w hw level rest rest' _ _ heq
      have hlead := Integral.null.lead_eq hw heq
      cases hw with
      | null => exact ⟨rfl, List.append_cancel_left heq⟩
      | bool b => cases b <;> cases hlead
      | _ => cases hlead
  | bool b =>
      intro w hw level rest rest' _ _ heq
      have hlead := (Integral.bool b).lead_eq hw heq
      cases hw with
      | bool b' =>
          obtain rfl : b = b' := by cases b <;> cases b' <;> first | rfl | cases hlead
          exact ⟨rfl, List.append_cancel_left heq⟩
      | _ => cases b <;> cases hlead
  | integer n =>
      intro w hw level rest rest' hrest hrest' heq
      have hlead := (Integral.integer n).lead_eq hw heq
      cases hw with
      | integer n' =>
          simp only [print, Number.text] at heq
          obtain ⟨rfl, hrest⟩ := eq_of_integerText_append hrest hrest' heq
          exact ⟨rfl, hrest⟩
      | bool b => cases b <;> cases hlead
      | _ => cases hlead
  | string s =>
      intro w hw level rest rest' _ _ heq
      have hlead := (Integral.string s).lead_eq hw heq
      cases hw with
      | string s' =>
          simp only [print] at heq
          obtain ⟨rfl, hrest⟩ := eq_of_quoted_append heq
          exact ⟨rfl, hrest⟩
      | bool b => cases b <;> cases hlead
      | _ => cases hlead

/-- Different values with integers only have different documents. -/
theorem Integral.eq_of_compact_eq {v w : Value} (hv : v.Integral) (hw : w.Integral)
    (h : v.compact = w.compact) : v = w :=
  (hv.unambiguous hw delimits_nil delimits_nil (congrArg (· ++ []) h)).1

end Value

end CommentTemplate.Json
