import CommentTemplate.Proofs.Json.Values

/-!
# Values nested too deep

The reader of values goes down a given number of levels.  A document of a value that is nested
deeper is refused at the first bracket below that, and for no other reason.  So a value can be read
back exactly if it is not nested deeper than the reader goes.

## Main definitions

* `Refuses` — a reader refuses every document of a value as nested too deep

## Main statements

* `value_refuses` — values nested too deep are refused
* `parse_document`, `parse_deep` — a whole document of a value
-/

namespace CommentTemplate.Json

variable {α : Type} {item : Reader α} {l : Layout}

/-- A reader refuses every document of a value because it is nested too deep. -/
def Refuses (r : Reader α) (v : Value) : Prop :=
  ∀ ⦃l : Layout⦄, l.IsBlank → ∀ (level : Nat) ⦃blanks rest : Text⦄,
    (∀ c ∈ blanks, isSpace c = true) → Delimits rest →
      ∃ f, r (blanks ++ (v.print l level ++ rest)) = .error f ∧ f.cause = .tooDeep

theorem Refuses.not_reads {r : Reader α} {v : Value} {a : α} (h : Refuses r v) : ¬Reads r v a := by
  intro hread
  obtain ⟨f, hf, -⟩ := h isBlank_compact 0 (List.forall_mem_nil _) delimits_nil
  rw [hread isBlank_compact 0 (List.forall_mem_nil _) delimits_nil] at hf
  cases hf

/-! ## Items and members -/

/-- Items of which one is refused are refused, if those in front of it are read. -/
theorem items_refused {vs : List Value} (hvs : ∀ v ∈ vs, v.Integral)
    (h : ∀ v ∈ vs, (∃ x, Reads item v x) ∨ Refuses item v) (hdeep : ∃ v ∈ vs, Refuses item v)
    (hl : l.IsBlank) (level outer : Nat) {fuel : Nat} (hfuel : vs.length < fuel) (rest : Text) :
    ∃ f, items item fuel false
      (Value.printItems l level vs ++ (l.newline outer ++ ']' :: rest)) = .error f ∧
        f.cause = .tooDeep := by
  induction vs generalizing fuel with
  | nil => simp at hdeep
  | cons v vs ih =>
      obtain ⟨fuel, rfl⟩ := Nat.exists_eq_add_of_lt hfuel
      rw [List.forall_mem_cons] at hvs h
      have hrest := delimits_items hl level outer vs rest
      simp only [Value.printItems, List.cons_append, List.append_assoc]
      rw [items, hasItem_next hvs.1 (hl.newline level)]
      simp only [bind, Except.bind, ↓reduceIte]
      rcases h.1 with ⟨x, hx⟩ | hv
      · obtain ⟨w, hw, hdeep⟩ := hdeep
        have hmem : w ∈ vs :=
          (List.mem_cons.1 hw).resolve_left fun heq => (heq ▸ hdeep).not_reads hx
        have hlength : vs.length < (v :: vs).length + fuel := by
          simp only [List.length_cons]
          omega
        obtain ⟨f, hf, hcause⟩ := ih hvs.2 h.2 ⟨w, hmem, hdeep⟩ hlength
        exact ⟨f, by simp only [hx.print hl level hrest, hf], hcause⟩
      · obtain ⟨f, hf, hcause⟩ := hv hl level (List.forall_mem_nil _) hrest
        exact ⟨f, by rw [List.nil_append] at hf; simp only [hf], hcause⟩

/-- Members of which one is refused are refused, if those in front of it are read. -/
theorem members_refused {ms : List (Text × Value)}
    (h : ∀ m ∈ ms, (∃ x, Reads item m.2 x) ∨ Refuses item m.2)
    (hdeep : ∃ m ∈ ms, Refuses item m.2) (hl : l.IsBlank) (level outer : Nat) (d : Dict α)
    {fuel : Nat} (hfuel : ms.length < fuel) (rest : Text) :
    ∃ f, foldMembers (insertMember item) fuel false d
      (Value.printMembers l level ms ++ (l.newline outer ++ '}' :: rest)) = .error f ∧
        f.cause = .tooDeep := by
  induction ms generalizing fuel d with
  | nil => simp at hdeep
  | cons m ms ih =>
      obtain ⟨fuel, rfl⟩ := Nat.exists_eq_add_of_lt hfuel
      rw [List.forall_mem_cons] at h
      have hrest := delimits_members hl level outer ms rest
      simp only [Value.printMembers, quoted, List.cons_append, List.append_assoc, List.nil_append]
      rw [foldMembers, hasMember_next (hl.newline level)]
      simp only [bind, Except.bind, ↓reduceIte, stringBody_flatMap_escape]
      rcases h.1 with ⟨x, hx⟩ | hm
      · obtain ⟨n, hn, hdeep⟩ := hdeep
        have hmem : n ∈ ms :=
          (List.mem_cons.1 hn).resolve_left fun heq => (heq ▸ hdeep).not_reads hx
        have hlength : ms.length < (m :: ms).length + fuel := by
          simp only [List.length_cons]
          omega
        obtain ⟨f, hf, hcause⟩ := ih h.2 ⟨n, hmem, hdeep⟩ (d.insert m.1 x) hlength
        have hread := stepReads_insertMember (d := d) hx hl level hrest
        exact ⟨f, by simp only [hread, hf], hcause⟩
      · obtain ⟨f, hf, hcause⟩ := hm hl level hl.gap hrest
        exact ⟨f, by simp only [insertMember, colon_cons, hf, bind, Except.bind], hcause⟩

/-! ## Values -/

/-- An array with an item that is refused is refused. -/
theorem array_refuses {item : Nat → Reader α} {levels : Nat} {vs : List Value}
    (hvs : ∀ v ∈ vs, v.Integral)
    (h : ∀ v ∈ vs, (∃ x, Reads (item levels) v x) ∨ Refuses (item levels) v)
    (hdeep : ∃ v ∈ vs, Refuses (item levels) v) :
    Refuses (array item (levels + 1)) (.array vs) := by
  intro l hl level blanks rest hblanks _
  cases vs with
  | nil => simp at hdeep
  | cons v vs =>
      have hlength := length_le_printItems l (level + 1) vs
      have hrefused (fuel) (hfuel : (v :: vs).length < fuel) :=
        items_refused hvs h hdeep hl (level + 1) level hfuel rest
      simp only [Value.printItems, List.cons_append, List.append_assoc] at hrefused
      simp only [Value.print, List.cons_append, List.append_assoc, List.nil_append, array,
        skipSpace_append_cons hblanks (show isSpace '[' = false by decide), scalar, bind,
        Except.bind, List.drop_succ_cons, List.drop_zero,
        items_first (hvs v List.mem_cons_self) (hl.newline (level + 1))]
      refine hrefused _ ?_
      simp only [List.length_cons, List.length_append]
      omega

/-- An object with a member that is refused is refused. -/
theorem dict_refuses {item : Nat → Reader α} {levels : Nat} {ms : List (Text × Value)}
    (h : ∀ m ∈ ms, (∃ x, Reads (item levels) m.2 x) ∨ Refuses (item levels) m.2)
    (hdeep : ∃ m ∈ ms, Refuses (item levels) m.2) :
    Refuses (dict item (levels + 1)) (.object ms) := by
  intro l hl level blanks rest hblanks _
  cases ms with
  | nil => simp at hdeep
  | cons m ms =>
      have hlength := length_le_printMembers l (level + 1) ms
      have hrefused (fuel) (hfuel : (m :: ms).length < fuel + 1) :=
        members_refused h hdeep hl (level + 1) level Dict.empty hfuel rest
      simp only [Value.printMembers, quoted, List.cons_append, List.append_assoc, List.nil_append,
        ← foldMembers_first (hl.newline (level + 1))] at hrefused
      simp only [Value.print, quoted, List.cons_append, List.append_assoc, List.nil_append, dict,
        skipSpace_append_cons hblanks (show isSpace '{' = false by decide), scalar_brace, bind,
        Except.bind, List.drop_succ_cons, List.drop_zero, dictBody_eq]
      have hlong : (m :: ms).length < (l.newline (level + 1) ++ '"' ::
          (m.1.flatMap escape ++ '"' :: ':' :: (l.gap ++ (m.2.print l (level + 1) ++
            (Value.printMembers l (level + 1) ms ++ (l.newline level ++ '}' :: rest)))))).length +
              1 := by
        simp only [List.length_cons, List.length_append]
        omega
      obtain ⟨f, hf, hcause⟩ := hrefused _ hlong
      exact ⟨f, by rw [hf], hcause⟩

/-- Without any levels left every bracket is refused. -/
theorem value_zero_refuses {v : Value} (h : v.Integral) (hdepth : 0 < v.depth) :
    Refuses (value 0) v := by
  intro l _ level blanks rest hblanks _
  cases h with
  | @array vs _ =>
      obtain ⟨t, ht⟩ := exists_print_array vs l level rest
      rw [ht, value, skipSpace_append_cons hblanks (by decide)]
      exact ⟨_, rfl, rfl⟩
  | @object ms _ =>
      obtain ⟨t, ht⟩ := exists_print_object ms l level rest
      rw [ht, value, skipSpace_append_cons hblanks (by decide)]
      exact ⟨_, rfl, rfl⟩
  | _ => exact absurd hdepth (Nat.not_lt_zero _)

/-- A value that is not nested too deep is read. -/
theorem reads_or_refuses {v : Value} {levels : Nat} (h : v.Fits)
    (hdeep : levels < v.depth → Refuses (value levels) v) :
    (∃ x, Reads (value levels) v x) ∨ Refuses (value levels) v :=
  (Nat.lt_or_ge levels v.depth).symm.imp (fun hle => ⟨_, reads_value h hle⟩) hdeep

/-- **A value nested too deep is refused.** -/
theorem value_refuses {v : Value} {levels : Nat} (h : v.Fits) (hdepth : levels < v.depth) :
    Refuses (value levels) v := by
  induction h generalizing levels with
  | @array vs hvs ih =>
      cases levels with
      | zero => exact value_zero_refuses (Value.Fits.array hvs).integral hdepth
      | succ levels =>
      obtain ⟨w, hw, hlt⟩ := Value.lt_depthItems_iff.1 (Nat.lt_of_succ_lt_succ hdepth)
      have hrefuses : Refuses (array value (levels + 1)) (.array vs) :=
        array_refuses (fun v hv => (hvs v hv).integral)
          (fun v hv => reads_or_refuses (hvs v hv) (ih v hv)) ⟨w, hw, ih w hw hlt⟩
      intro l hl level blanks rest hblanks hrest
      obtain ⟨t, ht⟩ := exists_print_array vs l level rest
      obtain ⟨f, hf, hcause⟩ := hrefuses hl level hblanks hrest
      refine ⟨f, ?_, hcause⟩
      rw [value_of_bracket (by rw [ht, skipSpace_append_cons hblanks (by decide)]), hf]
      rfl
  | @object ms hms ih =>
      cases levels with
      | zero => exact value_zero_refuses (Value.Fits.object hms).integral hdepth
      | succ levels =>
      obtain ⟨n, hn, hlt⟩ := Value.lt_depthMembers_iff.1 (Nat.lt_of_succ_lt_succ hdepth)
      have hrefuses : Refuses (dict value (levels + 1)) (.object ms) :=
        dict_refuses (fun m hm => reads_or_refuses (hms m hm) (ih m hm)) ⟨n, hn, ih n hn hlt⟩
      intro l hl level blanks rest hblanks hrest
      obtain ⟨t, ht⟩ := exists_print_object ms l level rest
      obtain ⟨f, hf, hcause⟩ := hrefuses hl level hblanks hrest
      refine ⟨f, ?_, hcause⟩
      rw [value_of_brace (by rw [ht, skipSpace_append_cons hblanks (by decide)]), hf]
      rfl
  | _ => exact absurd hdepth (Nat.not_lt_zero _)

/-! ## Documents -/

/-- A document of a value is read as the canonical form of the value. -/
theorem parse_document {v : Value} {t : Text} (ht : IsDocument t v) (h : v.Fits)
    (hdepth : v.depth ≤ maxNesting) : Value.parse t = .ok v.canonical :=
  parse_of_reads (reads_value h hdepth) ht

/-- A document that is nested too deep is refused. -/
theorem parse_deep {v : Value} {t : Text} (ht : IsDocument t v) (h : v.Fits)
    (hdepth : maxNesting < v.depth) : ∃ e, Value.parse t = .error e ∧ e.cause = .tooDeep := by
  obtain ⟨l, before, after, hl, hbefore, hafter, rfl⟩ := ht
  obtain ⟨f, hf, hcause⟩ :=
    value_refuses h hdepth hl 0 hbefore (delimits_of_blanks hafter)
  exact ⟨_, by rw [Value.parse, Json.parse, hf], hcause⟩

end CommentTemplate.Json
