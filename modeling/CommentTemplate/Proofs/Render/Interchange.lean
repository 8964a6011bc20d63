import CommentTemplate.Proofs.Render.SideBySide

/-!
# Two ways to bind a block

The turns of a block are given turn by turn, or as an array of objects among the values.  The two
are found in different ways: values are looked up in the scopes and checked, while the turns of
blocks are what remains if no scope has the name.  A program that mentions the name in loops only
cannot tell them apart.

## Main definitions

* `Bindings.turnsAsValue` — bindings with the turns of a block moved to the values

## Main statements

* `collection_turnsAsValue` — within any scopes, every loop has the same turns
* `render_turnsAsValue` — every program without that variable renders to the same
-/

namespace CommentTemplate

open Json (Scope)

/-- The bindings with the turns of a block as an array of objects among the values instead. -/
def Bindings.turnsAsValue (b : Bindings) (block : Text) : Bindings :=
  { b with blocks := b.blocks.erase block }.set block (.array ((b.turnsOf block).map scopeJson))

/-- The turns in an array of objects are the scopes it was made of. -/
theorem mapM_scopeOf_map (turns : List Scope) :
    (turns.map Bindings.scopeJson).mapM scopeOf = some turns := by
  induction turns with
  | nil => rfl
  | cons turn turns ih =>
      have hturn : scopeOf (Bindings.scopeJson turn) = some turn :=
        congrArg some (Dict.ofList_entries turn)
      rw [List.map_cons, List.mapM_cons, hturn, ih]
      rfl

/-- A name that stands for such an array has the scopes as its turns. -/
theorem collection_of_turns {b : Bindings} {block : Text} {scopes turns : List Scope}
    (h : lookupScopes block scopes = some (.array (turns.map Bindings.scopeJson))) :
    collection b block scopes = .ok turns := by
  rw [collection, h]
  simp only [mapM_scopeOf_map]

section Interchange

variable {b : Bindings} {block : Text}

theorem find?_turnsAsValue_self (b : Bindings) (block : Text) :
    (b.turnsAsValue block).values.find? block =
      some (.array ((b.turnsOf block).map Bindings.scopeJson)) := by
  simp [Bindings.turnsAsValue, Bindings.set]

/-- Any other name stands for what it stood for. -/
theorem find?_turnsAsValue_of_ne {name : Text} (h : name ≠ block) :
    (b.turnsAsValue block).values.find? name = b.values.find? name := by
  simp [Bindings.turnsAsValue, Bindings.set, h]

/-- Any other block has the turns it had. -/
theorem turnsOf_turnsAsValue_of_ne {name : Text} (h : name ≠ block) :
    (b.turnsAsValue block).turnsOf name = b.turnsOf name := by
  simp [Bindings.turnsAsValue, Bindings.set, Bindings.turnsOf, h]

theorem lookupScopes_turnsAsValue_of_ne {name : Text} (h : name ≠ block) (inner : List Scope) :
    lookupScopes name (inner ++ [(b.turnsAsValue block).values]) =
      lookupScopes name (inner ++ [b.values]) := by
  rw [lookupScopes_concat, lookupScopes_concat, find?_turnsAsValue_of_ne h]

/-- **Within any scopes, every loop has the same turns** either way.  Scopes around the loop that
bind the name come first in both. -/
theorem collection_turnsAsValue (h : b.values.contains block = false) (name : Text)
    (inner : List Scope) :
    collection (b.turnsAsValue block) name (inner ++ [(b.turnsAsValue block).values]) =
      collection b name (inner ++ [b.values]) := by
  by_cases hname : name = block
  · subst hname
    have hnone : b.values.find? name = none := by simpa [Dict.contains] using h
    cases hinner : lookupScopes name inner with
    | some v =>
        have hfound (base : List Scope) : lookupScopes name (inner ++ base) = some v := by
          rw [lookupScopes_append, hinner, Option.some_or]
        exact collection_of_some (hfound _) (hfound _)
    | none =>
        have hunbound : lookupScopes name (inner ++ [b.values]) = none := by
          rw [lookupScopes_concat, hinner, hnone, Option.none_or]
        have hbound : lookupScopes name (inner ++ [(b.turnsAsValue name).values]) =
            some (.array ((b.turnsOf name).map Bindings.scopeJson)) := by
          rw [lookupScopes_concat, hinner, find?_turnsAsValue_self, Option.none_or]
        rw [collection_of_turns hbound, collection_of_none hunbound]
  · exact collection_congr (lookupScopes_turnsAsValue_of_ne hname inner)
      (turnsOf_turnsAsValue_of_ne hname)

/-- **The two ways to bind a block are interchangeable.**  If a block is not bound among the values
and the program has no variable of its name, its turns may be moved to the values: every rendering
has the same outcome, the same text or the same error. -/
theorem render_turnsAsValue {p : Program} (hvalues : b.values.contains block = false)
    (hvariables : block ∉ variableNames p.nodes) (strict : Bool) :
    render strict p (b.turnsAsValue block) = render strict p b := by
  refine render_congr (fun name hname inner => ?_)
    fun name _ inner => collection_turnsAsValue hvalues name inner
  have hne : name ≠ block := fun heq => hvariables (heq ▸ hname)
  rw [showVariable, showVariable, lookupScopes_turnsAsValue_of_ne hne]

/-- A loop over items in a loop over items. -/
def itemList : Script :=
  .loop "item".toList (.varRef "n".toList none (.literal "(".toList
    (.loop "item".toList (.varRef "n".toList none .done) (.literal ")".toList .done)))) .done

/-- Two items, of which the second has an item of its own. -/
def itemBindings : Bindings :=
  (Bindings.pushIteration {} "item".toList (Dict.ofList [("n".toList, .int 1)])).pushIteration
    "item".toList (Dict.ofList [("n".toList, .int 2),
      ("item".toList, .array [.object [("n".toList, .int 3)]])])

/-- The first item lists both of them, given turn by turn or as an array, and the second its own. -/
theorem render_itemList :
    itemBindings.values.contains "item".toList = false ∧
    "item".toList ∉ variableNames itemList.nodes ∧
    render true ⟨itemList.nodes⟩ itemBindings = .ok "1(12)2(3)".toList ∧
    render true ⟨itemList.nodes⟩ (itemBindings.turnsAsValue "item".toList) =
      .ok "1(12)2(3)".toList := by
  have hvalues : itemBindings.values.contains "item".toList = false := by decide
  have hvariables : "item".toList ∉ variableNames itemList.nodes := by decide
  have hrender : render true ⟨itemList.nodes⟩ itemBindings = .ok "1(12)2(3)".toList := by
    decide +kernel
  exact ⟨hvalues, hvariables, hrender,
    (render_turnsAsValue (p := ⟨itemList.nodes⟩) hvalues hvariables true).trans hrender⟩

end Interchange

end CommentTemplate
