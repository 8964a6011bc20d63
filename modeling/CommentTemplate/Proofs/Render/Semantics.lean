import Mathlib.Data.List.Forall2
import CommentTemplate.Proofs.Program.Nested

/-!
# What a program means

The meaning of a program is given by rules on its tree: what a name stands for within some scopes,
over which scopes a loop runs, and which text, or which error, a sequence of steps has.  The rules
know neither positions nor partners.  The renderer follows them exactly.

## Main definitions

* `Binds`, `Unbound` — what a name stands for, the innermost scope first
* `Spells` — the text of a value
* `Iterates`, `Refused` — the scopes of a loop, or that there is no collection
* `Evaluates` — the outcome of a script, by rules

## Main statements

* `Script.nodes_injective` — a flat form has one tree
* `evaluates_iff_eval_eq` — the rules give exactly one outcome, the one computed on the tree
* `render_nested` — rendering a properly nested sequence has the outcome of its tree

## Design decisions

**Failures are outcomes.**  A rule for a step passes the outcome of what follows it on, so the
first failure in the order of evaluation is the failure of the whole, and nothing else is.
-/

namespace CommentTemplate

open Json (Scope)

/-! ## One tree for a flat form -/

/-- No step but none at all starts with a closing marker. -/
theorem Script.eq_done_of_nodes_append {t : Script} {rest rest' : List Node}
    (hrest : ∀ n ∈ rest.head?, ∃ block, n = .loopClose block) (h : t.nodes ++ rest' = rest) :
    t = done := by
  subst h
  cases t with
  | done => rfl
  | literal | varRef | loop =>
      obtain ⟨block, hblock⟩ := hrest _ rfl
      cases hblock

/-- Steps in front of a closing marker, or of nothing, end where it stands. -/
theorem Script.eq_of_nodes_append_eq {t u : Script} {rest rest' : List Node}
    (hrest : ∀ n ∈ rest.head?, ∃ block, n = .loopClose block)
    (hrest' : ∀ n ∈ rest'.head?, ∃ block, n = .loopClose block)
    (h : t.nodes ++ rest = u.nodes ++ rest') : t = u ∧ rest = rest' := by
  induction t generalizing u rest rest' with
  | done =>
      obtain rfl := eq_done_of_nodes_append hrest h.symm
      exact ⟨rfl, h⟩
  | literal text next ih =>
      cases u with
      | done => cases eq_done_of_nodes_append hrest' h
      | literal text' next' =>
          simp only [nodes, List.cons_append, List.cons.injEq, Node.literal.injEq] at h
          obtain ⟨rfl, hnext⟩ := ih hrest hrest' h.2
          exact ⟨by rw [h.1], hnext⟩
      | varRef | loop => simp [nodes] at h
  | varRef name function next ih =>
      cases u with
      | done => cases eq_done_of_nodes_append hrest' h
      | varRef name' function' next' =>
          simp only [nodes, List.cons_append, List.cons.injEq, Node.varRef.injEq] at h
          obtain ⟨rfl, hnext⟩ := ih hrest hrest' h.2
          exact ⟨by rw [h.1.1, h.1.2], hnext⟩
      | literal | loop => simp [nodes] at h
  | loop block body next ihBody ihNext =>
      cases u with
      | done => cases eq_done_of_nodes_append hrest' h
      | loop block' body' next' =>
          simp only [nodes, List.cons_append, List.append_assoc, List.cons.injEq,
            Node.loopOpen.injEq] at h
          obtain ⟨rfl, hclose⟩ := ihBody (by simp) (by simp) h.2
          simp only [List.cons.injEq, Node.loopClose.injEq] at hclose
          obtain ⟨rfl, hnext⟩ := ihNext hrest hrest' hclose.2
          exact ⟨by rw [h.1], hnext⟩
      | literal | varRef => simp [nodes] at h

/-- A flat form has one tree. -/
theorem Script.nodes_injective {t u : Script} (h : t.nodes = u.nodes) : t = u := by
  have happend : t.nodes ++ [] = u.nodes ++ [] := by rw [h]
  exact (eq_of_nodes_append_eq (by simp) (by simp) happend).1

/-! ## Names within scopes -/

/-- Within some scopes a name stands for a value: the one that the innermost scope with that name
binds it to. -/
inductive Binds (name : Text) : List Scope → Json.Value → Prop where
  | inner {scope : Scope} {scopes : List Scope} {v : Json.Value}
    (h : scope.find? name = some v) : Binds name (scope :: scopes) v
  | outer {scope : Scope} {scopes : List Scope} {v : Json.Value}
    (h : scope.find? name = none) (hv : Binds name scopes v) : Binds name (scope :: scopes) v

/-- No scope binds a name. -/
def Unbound (name : Text) (scopes : List Scope) : Prop :=
  ∀ scope ∈ scopes, scope.find? name = none

theorem lookupScopes_cons (name : Text) (scope : Scope) (scopes : List Scope) :
    lookupScopes name (scope :: scopes) =
      (scope.find? name).or (lookupScopes name scopes) := by
  rw [lookupScopes, List.findSome?_cons]
  cases scope.find? name <;> rfl

theorem lookupScopes_single (name : Text) (scope : Scope) :
    lookupScopes name [scope] = scope.find? name := by
  rw [lookupScopes_cons]
  exact Option.or_none

theorem lookupScopes_append (name : Text) (inner base : List Scope) :
    lookupScopes name (inner ++ base) =
      (lookupScopes name inner).or (lookupScopes name base) := by
  rw [lookupScopes, List.findSome?_append]
  rfl

theorem lookupScopes_concat (name : Text) (inner : List Scope) (scope : Scope) :
    lookupScopes name (inner ++ [scope]) = (lookupScopes name inner).or (scope.find? name) := by
  rw [lookupScopes_append, lookupScopes_single]

theorem binds_iff {name : Text} {scopes : List Scope} {v : Json.Value} :
    Binds name scopes v ↔ lookupScopes name scopes = some v := by
  constructor
  · intro h
    induction h with
    | inner h => rw [lookupScopes_cons, h, Option.some_or]
    | outer h _ ih => rw [lookupScopes_cons, h, Option.none_or, ih]
  · intro h
    induction scopes with
    | nil => cases h
    | cons scope scopes ih =>
        rw [lookupScopes_cons] at h
        cases hscope : scope.find? name with
        | none =>
            rw [hscope, Option.none_or] at h
            exact .outer hscope (ih h)
        | some w =>
            rw [hscope, Option.some_or] at h
            exact .inner (hscope.trans h)

theorem unbound_iff {name : Text} {scopes : List Scope} :
    Unbound name scopes ↔ lookupScopes name scopes = none := by
  rw [Unbound, lookupScopes, List.findSome?_eq_none_iff]

/-- The text of a value: a string stands for itself, null for nothing, and any other value for its
document without blanks. -/
inductive Spells : Json.Value → Text → Prop where
  | string (s : Text) : Spells (.string s) s
  | null : Spells .null []
  | bool (b : Bool) : Spells (.bool b) (Json.Value.bool b).compact
  | number (n : Json.Number) : Spells (.number n) (Json.Value.number n).compact
  | array (items : List Json.Value) : Spells (.array items) (Json.Value.array items).compact
  | object (members : List (Text × Json.Value)) :
    Spells (.object members) (Json.Value.object members).compact

theorem spells_iff {v : Json.Value} {text : Text} : Spells v text ↔ showValue v = text := by
  constructor
  · intro h
    cases h <;> rfl
  · rintro rfl
    cases v <;> constructor

/-! ## The scopes of a loop -/

/-- An item of a collection is an object, and its turn binds the members. -/
def IsTurn (item : Json.Value) (turn : Scope) : Prop :=
  ∃ members, item = .object members ∧ turn = Dict.ofList members

/-- Within some scopes a loop over a block has these turns: those of the array that the name of
the block stands for, or else those bound to the block itself, or else none. -/
inductive Iterates (b : Bindings) (block : Text) (scopes : List Scope) : List Scope → Prop where
  | bound {items : List Json.Value} {turns : List Scope} (h : Binds block scopes (.array items))
    (hturns : List.Forall₂ IsTurn items turns) : Iterates b block scopes turns
  | topLevel {turns : List Scope} (h : Unbound block scopes)
    (hturns : b.blocks.find? block = some turns) : Iterates b block scopes turns
  | nowhere (h : Unbound block scopes) (hnone : b.blocks.find? block = none) :
    Iterates b block scopes []

/-- Within some scopes the name of a block stands for something else than an array of objects. -/
def Refused (block : Text) (scopes : List Scope) : Prop :=
  ∃ v, Binds block scopes v ∧ ¬∃ items turns, v = .array items ∧ List.Forall₂ IsTurn items turns

theorem isTurn_iff {item : Json.Value} {turn : Scope} :
    IsTurn item turn ↔ scopeOf item = some turn := by
  cases item <;> simp [IsTurn, scopeOf, eq_comm]

theorem forall₂_isTurn_iff {items : List Json.Value} {turns : List Scope} :
    List.Forall₂ IsTurn items turns ↔ items.mapM scopeOf = some turns := by
  induction items generalizing turns with
  | nil => simp [eq_comm]
  | cons item items ih =>
      rw [List.mapM_cons, Option.bind_eq_bind, Option.bind_eq_some_iff]
      constructor
      · rintro (_ | ⟨hturn, hturns⟩)
        exact ⟨_, isTurn_iff.1 hturn, by rw [ih.1 hturns]; rfl⟩
      · rintro ⟨turn, hturn, h⟩
        rw [Option.bind_eq_bind, Option.bind_eq_some_iff] at h
        obtain ⟨rest, hrest, h⟩ := h
        cases h
        exact .cons (isTurn_iff.2 hturn) (ih.2 hrest)

variable {b : Bindings} {block : Text} {scopes turns : List Scope}

theorem iterates_iff : Iterates b block scopes turns ↔ collection b block scopes = .ok turns := by
  constructor
  · intro h
    unfold collection
    cases h with
    | bound h hturns => rw [binds_iff.1 h]; simp only [forall₂_isTurn_iff.1 hturns]
    | topLevel h hturns => rw [unbound_iff.1 h]; simp only [hturns, Option.getD_some]
    | nowhere h hnone => rw [unbound_iff.1 h]; simp only [hnone, Option.getD_none]
  · intro h
    unfold collection at h
    split at h
    · next items hitems =>
        split at h
        · next turns' hturns =>
            cases h
            exact .bound (binds_iff.2 hitems) (forall₂_isTurn_iff.2 hturns)
        · cases h
    · cases h
    · next hnone =>
        cases h
        cases hblock : b.blocks.find? block with
        | none => exact .nowhere (unbound_iff.2 hnone) hblock
        | some turns => exact .topLevel (unbound_iff.2 hnone) hblock

theorem refused_iff :
    Refused block scopes ↔ collection b block scopes = .error (.notACollection block) := by
  constructor
  · rintro ⟨v, hv, hno⟩
    unfold collection
    rw [binds_iff.1 hv]
    cases v with
    | array items =>
        cases hturns : items.mapM scopeOf with
        | none => simp only [hturns]
        | some turns => exact absurd ⟨items, turns, rfl, forall₂_isTurn_iff.2 hturns⟩ hno
    | _ => rfl
  · intro h
    unfold collection at h
    split at h
    · next items hitems =>
        split at h
        · cases h
        · next hnone =>
            refine ⟨_, binds_iff.2 hitems, ?_⟩
            rintro ⟨items', turns, heq, hturns⟩
            cases heq
            rw [forall₂_isTurn_iff.1 hturns] at hnone
            cases hnone
    · next v hnot hv =>
        refine ⟨v, binds_iff.2 hv, ?_⟩
        rintro ⟨items, turns, rfl, -⟩
        exact hnot items rfl
    · cases h

/-! ## The outcome of a script -/

mutual

/-- The outcome of a script within some scopes.  The steps are taken in order, and the outcome of a
step that fails is the outcome of the whole. -/
inductive Evaluates (strict : Bool) (b : Bindings) :
    Script → List Scope → Except RenderError Text → Prop where
  | done {scopes : List Scope} : Evaluates strict b .done scopes (.ok [])
  | literal {text : Text} {next : Script} {scopes : List Scope}
    {outcome : Except RenderError Text} (hnext : Evaluates strict b next scopes outcome) :
    Evaluates strict b (.literal text next) scopes (outcome.map (text ++ ·))
  | value {name : Text} {function : Option Text} {next : Script} {scopes : List Scope}
    {v : Json.Value} {text : Text} {outcome : Except RenderError Text}
    (hv : Binds name scopes v) (htext : Spells v text)
    (hnext : Evaluates strict b next scopes outcome) :
    Evaluates strict b (.varRef name function next) scopes (outcome.map (text ++ ·))
  | noValue {name : Text} {function : Option Text} {next : Script} {scopes : List Scope}
    {outcome : Except RenderError Text} (hstrict : strict = false) (h : Unbound name scopes)
    (hnext : Evaluates strict b next scopes outcome) :
    Evaluates strict b (.varRef name function next) scopes outcome
  | undefined {name : Text} {function : Option Text} {next : Script} {scopes : List Scope}
    (hstrict : strict = true) (h : Unbound name scopes) :
    Evaluates strict b (.varRef name function next) scopes (.error (.undefinedVariable name))
  | loop {block : Text} {body next : Script} {scopes turns : List Scope} {text : Text}
    {outcome : Except RenderError Text} (hturns : Iterates b block scopes turns)
    (hbody : Repeats strict b body scopes turns (.ok text))
    (hnext : Evaluates strict b next scopes outcome) :
    Evaluates strict b (.loop block body next) scopes (outcome.map (text ++ ·))
  | broken {block : Text} {body next : Script} {scopes turns : List Scope} {e : RenderError}
    (hturns : Iterates b block scopes turns)
    (hbody : Repeats strict b body scopes turns (.error e)) :
    Evaluates strict b (.loop block body next) scopes (.error e)
  | refused {block : Text} {body next : Script} {scopes : List Scope}
    (h : Refused block scopes) :
    Evaluates strict b (.loop block body next) scopes (.error (.notACollection block))

/-- The outcome of a body that is evaluated once for each of some turns, within the scopes around
the loop and the scope of that turn alone. -/
inductive Repeats (strict : Bool) (b : Bindings) :
    Script → List Scope → List Scope → Except RenderError Text → Prop where
  | done {body : Script} {scopes : List Scope} : Repeats strict b body scopes [] (.ok [])
  | turn {body : Script} {scopes turns : List Scope} {scope : Scope} {text : Text}
    {outcome : Except RenderError Text} (h : Evaluates strict b body (scope :: scopes) (.ok text))
    (hturns : Repeats strict b body scopes turns outcome) :
    Repeats strict b body scopes (scope :: turns) (outcome.map (text ++ ·))
  | broken {body : Script} {scopes turns : List Scope} {scope : Scope} {e : RenderError}
    (h : Evaluates strict b body (scope :: scopes) (.error e)) :
    Repeats strict b body scopes (scope :: turns) (.error e)

end

/-- The texts of the turns of a body, one after the other. -/
def repeatTurns (strict : Bool) (b : Bindings) (body : Script) (scopes turns : List Scope) :
    Except RenderError Text := do
  let texts ← turns.mapM fun turn => body.eval strict b (turn :: scopes)
  return texts.flatten

section Evaluates

variable {strict : Bool} {body next : Script} {scope : Scope} {outcome : Except RenderError Text}

theorem eval_literal (text : Text) : (Script.literal text next).eval strict b scopes =
    (next.eval strict b scopes).map (text ++ ·) := by
  rw [Script.eval]
  cases next.eval strict b scopes <;> rfl

theorem eval_varRef (name : Text) (function : Option Text) :
    (Script.varRef name function next).eval strict b scopes =
      (showVariable strict name scopes).bind fun text =>
        (next.eval strict b scopes).map (text ++ ·) := by
  rw [Script.eval]
  cases showVariable strict name scopes <;> cases next.eval strict b scopes <;> rfl

theorem eval_loop (block : Text) : (Script.loop block body next).eval strict b scopes =
    (collection b block scopes).bind fun turns =>
      (repeatTurns strict b body scopes turns).bind fun text =>
        (next.eval strict b scopes).map (text ++ ·) := by
  rw [Script.eval]
  cases collection b block scopes with
  | error e => rfl
  | ok turns =>
      simp only [repeatTurns, bind, Except.bind]
      cases turns.mapM fun turn => body.eval strict b (turn :: scopes) with
      | error e => rfl
      | ok texts => cases next.eval strict b scopes <;> rfl

theorem repeatTurns_cons : repeatTurns strict b body scopes (scope :: turns) =
    (body.eval strict b (scope :: scopes)).bind fun text =>
      (repeatTurns strict b body scopes turns).map (text ++ ·) := by
  simp only [repeatTurns, List.mapM_cons, bind, Except.bind]
  cases body.eval strict b (scope :: scopes) with
  | error e => rfl
  | ok text => cases turns.mapM fun turn => body.eval strict b (turn :: scopes) <;> rfl

/-- If the rules for a body give what is computed, so do those for its turns. -/
theorem repeats_iff (hbody : ∀ scopes outcome,
      Evaluates strict b body scopes outcome ↔ body.eval strict b scopes = outcome) :
    Repeats strict b body scopes turns outcome ↔
      repeatTurns strict b body scopes turns = outcome := by
  induction turns generalizing outcome with
  | nil =>
      constructor
      · rintro ⟨⟩
        rfl
      · rintro rfl
        exact .done
  | cons scope turns ih =>
      rw [repeatTurns_cons]
      constructor
      · rintro (_ | ⟨h, hturns⟩ | h)
        · rw [(hbody _ _).1 h, ← ih.1 hturns]
          rfl
        · rw [(hbody _ _).1 h]
          rfl
      · rintro rfl
        cases h : body.eval strict b (scope :: scopes) with
        | error e => exact .broken ((hbody _ _).2 h)
        | ok text => exact .turn ((hbody _ _).2 h) (ih.2 rfl)

/-- **The rules give exactly one outcome**, the one computed by recursion on the tree. -/
theorem evaluates_iff_eval_eq {t : Script} :
    Evaluates strict b t scopes outcome ↔ t.eval strict b scopes = outcome := by
  induction t generalizing scopes outcome with
  | done =>
      constructor
      · intro h
        cases h
        rfl
      · rintro rfl
        exact .done
  | literal text next ih =>
      rw [eval_literal]
      constructor
      · intro h
        cases h with
        | literal hnext => rw [ih.1 hnext]
      · rintro rfl
        exact .literal (ih.2 rfl)
  | varRef name function next ih =>
      rw [eval_varRef, showVariable]
      -- A variable that stands for nothing has the empty text, which is not seen in front.
      have hempty (x : Except RenderError Text) : x.map ([] ++ ·) = x := by cases x <;> rfl
      constructor
      · intro h
        cases h with
        | value hv htext hnext =>
            rw [binds_iff.1 hv, ih.1 hnext, ← spells_iff.1 htext]
            rfl
        | noValue hstrict h hnext =>
            rw [unbound_iff.1 h, ih.1 hnext, hstrict]
            exact hempty outcome
        | undefined hstrict h =>
            rw [unbound_iff.1 h, hstrict]
            rfl
      · rintro rfl
        cases h : lookupScopes name scopes with
        | some v => exact .value (binds_iff.2 h) (spells_iff.2 rfl) (ih.2 rfl)
        | none =>
            cases strict with
            | true => exact .undefined rfl (unbound_iff.2 h)
            | false => exact .noValue rfl (unbound_iff.2 h) (ih.2 (hempty _).symm)
  | loop block body next ihBody ihNext =>
      rw [eval_loop]
      have hrepeats {turns : List Scope} {outcome : Except RenderError Text} :
          Repeats strict b body scopes turns outcome ↔
            repeatTurns strict b body scopes turns = outcome := repeats_iff fun _ _ => ihBody
      constructor
      · intro h
        cases h with
        | loop hturns hbody hnext =>
            rw [iterates_iff.1 hturns, ← ihNext.1 hnext]
            simp only [Except.bind, hrepeats.1 hbody]
        | broken hturns hbody =>
            rw [iterates_iff.1 hturns]
            simp only [Except.bind, hrepeats.1 hbody]
        | refused h =>
            rw [refused_iff.1 h]
            rfl
      · rintro rfl
        cases h : collection b block scopes with
        | error e =>
            obtain rfl := collection_eq_error h
            exact .refused (refused_iff.2 h)
        | ok turns =>
            cases hbody : repeatTurns strict b body scopes turns with
            | error e =>
                simp only [Except.bind, hbody]
                exact .broken (iterates_iff.2 h) (hrepeats.2 hbody)
            | ok text =>
                simp only [Except.bind, hbody]
                exact .loop (iterates_iff.2 h) (hrepeats.2 hbody) (ihNext.2 rfl)

end Evaluates

/-! ## Rendering follows the rules -/

/-- **The renderer gives the outcome of the tree.**  A properly nested sequence of nodes is the flat
form of exactly one script, and rendering it has an outcome exactly if the rules give that outcome
for the script, within the values that hold everywhere. -/
theorem render_nested {nodes : List Node} (h : Nested nodes) :
    ∃ t : Script, (∀ u : Script, u.nodes = nodes ↔ u = t) ∧
      ∀ (strict : Bool) (b : Bindings) (outcome : Except RenderError Text),
        render strict ⟨nodes⟩ b = outcome ↔ Evaluates strict b t [b.values] outcome := by
  obtain ⟨t, rfl⟩ := h.exists_script
  refine ⟨t, fun u => ⟨Script.nodes_injective, fun hu => hu ▸ rfl⟩, fun strict b outcome => ?_⟩
  rw [render_nodes, evaluates_iff_eval_eq]

/-- A timetable with a loop over its rows, and in each row one over the cells. -/
def timetable : Script :=
  .literal "| ".toList (.loop "row".toList
    (.varRef "n".toList none (.literal ": ".toList (.loop "cell".toList
      (.varRef "v".toList (some "upper".toList) (.literal " ".toList .done))
      (.literal "| ".toList .done))))
    (.varRef "end".toList none .done))

/-- Rows from the block itself.  The cells of the first row are its own; the second row has none,
so it takes those that hold everywhere. -/
def timetableBindings : Bindings where
  values := Dict.ofList [("cell".toList, .array [.object [("v".toList, .string "-".toList)]])]
  blocks := Dict.ofList [("row".toList, [
    Dict.ofList [("n".toList, .int 1), ("cell".toList, .array [
      .object [("v".toList, .bool true)], .object [("v".toList, .null)], .object []])],
    Dict.ofList [("n".toList, .int 2)]])]

/-- The rows and cells of the timetable are evaluated in turn.  Where a missing value is an error,
the first one is that of the last cell in the first row, before the missing end of the timetable. -/
theorem render_timetable :
    Nested timetable.nodes ∧
    Evaluates false timetableBindings timetable [timetableBindings.values]
      (.ok "| 1: true   | 2: - | ".toList) ∧
    Evaluates true timetableBindings timetable [timetableBindings.values]
      (.error (.undefinedVariable "v".toList)) := by
  have hnested : Nested timetable.nodes :=
    .literal _ (.loop _ (.varRef _ _ (.literal _ (.loop _ (.varRef _ _ (.literal _ .nil))
      (.literal _ .nil)))) (.varRef _ _ .nil))
  obtain ⟨t, htree, hrender⟩ := render_nested hnested
  obtain rfl := (htree timetable).1 rfl
  exact ⟨hnested, (hrender _ _ _).1 (by decide +kernel), (hrender _ _ _).1 (by decide +kernel)⟩

end CommentTemplate
