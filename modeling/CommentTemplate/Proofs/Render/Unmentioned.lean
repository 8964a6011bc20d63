import CommentTemplate.Proofs.Render.SideBySide

/-!
# Names that a program does not mention

A rendering looks up the names of variables and of loops, and no others.  So bindings that agree on
these names are as good as each other, whatever else they bind: among the values, among the blocks,
and in the scopes of single turns.

## Main definitions

* `Dict.AgreeOn`, `Bindings.AgreeOn` — the same for some names

## Main statements

* `lookupScopes_agreeOn` — scopes that agree show the same for these names
* `render_agreeOn` — bindings that agree on all names of a program render it to the same
* `render_unmentioned` — a single name that a program does not mention

## Design decisions

**Values inside values.**  Scopes agree if they bind these names to equal values.  A collection
among the values is such a value: the scopes of its turns are not changed.
-/

namespace CommentTemplate

open Json (Scope)

/-- Two dictionaries bind some names alike. -/
def Dict.AgreeOn {α : Type} (S : Text → Prop) (d e : Dict α) : Prop :=
  ∀ name, S name → d.find? name = e.find? name

/-- Two bindings agree on some names: among the values, among the blocks, and in each turn of a
block with such a name. -/
structure Bindings.AgreeOn (S : Text → Prop) (b b' : Bindings) : Prop where
  values : b.values.AgreeOn S b'.values
  turns : ∀ block, S block →
    List.Forall₂ (Dict.AgreeOn S) (b.turnsOf block) (b'.turnsOf block)

section AgreeOn

variable {α : Type} {S : Text → Prop}

theorem Dict.AgreeOn.refl (d : Dict α) : d.AgreeOn S d := fun _ _ => rfl

/-- A name may be bound to anything if it is none of those. -/
theorem Dict.agreeOn_insert {k : Text} (hk : ¬S k) (v : α) (d : Dict α) :
    d.AgreeOn S (d.insert k v) := by
  intro name hname
  have hne : name ≠ k := fun heq => hk (heq ▸ hname)
  rw [find?_insert, if_neg hne]

/-- A name may be forgotten if it is none of those. -/
theorem Dict.agreeOn_erase {k : Text} (hk : ¬S k) (d : Dict α) : d.AgreeOn S (d.erase k) := by
  intro name hname
  have hne : name ≠ k := fun heq => hk (heq ▸ hname)
  rw [find?_erase, if_neg hne]

/-- Scopes that agree one by one show the same for these names. -/
theorem lookupScopes_agreeOn {scopes scopes' : List Scope}
    (h : List.Forall₂ (Dict.AgreeOn S) scopes scopes') {name : Text} (hname : S name) :
    lookupScopes name scopes = lookupScopes name scopes' := by
  induction h with
  | nil => rfl
  | cons hscope _ ih => rw [lookupScopes_cons, lookupScopes_cons, hscope name hname, ih]

/-- A loop whose block is one of these names has turns that agree. -/
theorem agrees_collection {b b' : Bindings} (h : b.AgreeOn S b') {scopes scopes' : List Scope}
    (hscopes : List.Forall₂ (Dict.AgreeOn S) scopes scopes') {block : Text} (hblock : S block) :
    Agrees (fun _ => False) (List.Forall₂ (Dict.AgreeOn S)) (collection b block scopes)
      (collection b' block scopes') := by
  have hlookup := lookupScopes_agreeOn hscopes hblock
  cases hfound : lookupScopes block scopes with
  | none =>
      rw [collection_of_none hfound, collection_of_none (hlookup ▸ hfound)]
      exact .ok (h.turns block hblock)
  | some v =>
      -- The turns are those of the value that both have in common.
      exact agrees_of_eq (fun turns => List.forall₂_same.2 fun turn _ => .refl turn)
        (collection_of_some hfound (hlookup ▸ hfound))

/-- **Bindings that agree on all names of a program** render it to the same. -/
theorem render_agreeOn {p : Program} (hvariables : ∀ name ∈ variableNames p.nodes, S name)
    (hloops : ∀ block ∈ p.loops, S block) {b b' : Bindings} (h : b.AgreeOn S b')
    (strict : Bool) : render strict p b = render strict p b' := by
  have hstep : InStep (fun _ => False) strict strict b b' (List.Forall₂ (Dict.AgreeOn S))
      p.nodes := by
    refine ⟨fun {name function scopes scopes'} hn hscopes => ?_,
      fun {block scopes scopes'} hn hscopes => ?_⟩
    · have hname := hvariables name (mem_variableNames.2 ⟨function, hn⟩)
      rw [showVariable, lookupScopes_agreeOn hscopes hname]
      exact agrees_iff_eq.2 rfl
    · have hturns := agrees_collection h hscopes (hloops block (Program.mem_loops.2 hn))
      exact hturns.mono fun _ _ hall => hall.imp fun _ _ hturn => .cons hturn hscopes
  exact agrees_iff_eq.1 (hstep.render (.cons h.values .nil))

end AgreeOn

/-- **Rendering ignores names that the program does not mention.**  If a name is neither that of a
variable nor that of a loop, bindings that agree on all other names render the program to the same
text or to the same error.  Closing markers bring no further names: they have those of the loops,
or else the program is not rendered with any bindings. -/
theorem render_unmentioned {p : Program} {x : Text} (hvariables : x ∉ variableNames p.nodes)
    (hloops : x ∉ p.loops) {b b' : Bindings} (h : b.AgreeOn (· ≠ x) b') (strict : Bool) :
    render strict p b = render strict p b' := by
  refine render_agreeOn ?_ ?_ h strict
  · rintro name hname rfl
    exact hvariables hname
  · rintro block hblock rfl
    exact hloops hblock

/-- Two rows, the second of which has a note. -/
def notedRows : Bindings where
  blocks := Dict.empty.insert "row".toList [Dict.ofList [("n".toList, .int 1)],
    Dict.ofList [("n".toList, .int 2), ("note".toList, .string "late".toList)]]

/-- The same rows with a note in the first one only, another note for all of them, and a block of
notes. -/
def otherNotes : Bindings where
  values := notedRows.values.insert "note".toList (.bool true)
  blocks := (Dict.empty.insert "row".toList
    [(Dict.ofList [("n".toList, .int 1)]).insert "note".toList .null,
      (Dict.ofList [("n".toList, .int 2), ("note".toList, .string "late".toList)]).erase
        "note".toList]).insert "note".toList [Dict.empty]

/-- The timetable has no notes, so it is written as it was. -/
theorem render_otherNotes :
    "note".toList ∉ variableNames timetable.nodes ∧
    "note".toList ∉ Program.loops ⟨timetable.nodes⟩ ∧
    notedRows.AgreeOn (· ≠ "note".toList) otherNotes ∧
    render false ⟨timetable.nodes⟩ notedRows = .ok "| 1: | 2: | ".toList ∧
    render false ⟨timetable.nodes⟩ otherNotes = .ok "| 1: | 2: | ".toList := by
  have hvariables : "note".toList ∉ variableNames timetable.nodes := by decide
  have hloops : "note".toList ∉ Program.loops ⟨timetable.nodes⟩ := by decide
  have hagree : notedRows.AgreeOn (· ≠ "note".toList) otherNotes := by
    refine ⟨Dict.agreeOn_insert (by simp) _ _, fun block hblock => ?_⟩
    by_cases hrow : block = "row".toList
    · subst hrow
      exact .cons (Dict.agreeOn_insert (by simp) _ _)
        (.cons (Dict.agreeOn_erase (by simp) _) .nil)
    · have hempty : notedRows.turnsOf block = [] := by
        simp only [Bindings.turnsOf, notedRows, Dict.find?_insert, if_neg hrow, Dict.find?_empty,
          Option.getD_none]
      have hempty' : otherNotes.turnsOf block = [] := by
        simp only [Bindings.turnsOf, otherNotes, Dict.find?_insert, if_neg hrow, if_neg hblock,
          Dict.find?_empty, Option.getD_none]
      rw [hempty, hempty']
      exact .nil
  have hrender : render false ⟨timetable.nodes⟩ notedRows = .ok "| 1: | 2: | ".toList := by
    decide +kernel
  have hsame := render_unmentioned (p := ⟨timetable.nodes⟩) hvariables hloops hagree false
  exact ⟨hvariables, hloops, hagree, hrender, hsame.symm.trans hrender⟩

end CommentTemplate
