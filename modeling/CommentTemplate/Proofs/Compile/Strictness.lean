import CommentTemplate.Proofs.Compile.Stages
import CommentTemplate.Proofs.Traced

/-!
# Strict and lenient compilation

A lenient compilation is run once, and what it passes over is noted.  The notes say what every
other compilation of the same template does: a strict one with the same limit fails at the first
fault noted, and where there is none, all compilations with this limit or a higher one give the
same result.

## Main definitions

* `traceInclude`, `traceReplacements`, `traceBlocks` — the stages, with their faults noted
* `Settings.trace` — the lenient compilation of a template, with its faults noted
* `Settings.under` — the settings with another strictness and limit

## Main statements

* `compile_eq_outcome` — a compilation is what its policy makes of the noted one
* `trace_keptBy` — a higher limit changes nothing where no fault was met
* `compile_under_policies` — strict and lenient compilations and higher limits agree

## Design decisions

**The order of the notes is the order of execution.**  A stage notes its faults before the next
stage begins.  Inside a stage the tag itself is first, then what is nested in it, then what
follows it.
-/

namespace CommentTemplate

/-! ## The stages with their faults noted -/

/-- The text of the source that a tag names; none, and a fault, where it is missing or
unreadable. -/
def traceFetch (loader : Option Loader) (path : Text) : Traced (Option Text) :=
  match loader with
  | none => .inspite (.missing path) none
  | some loader =>
    if loader.has path then
      match loader.read path with
      | .ok text => pure (some text)
      | .error failure => .inspite (.unreadable (loader.locate path) failure.message) none
    else .inspite (.missing (loader.locate path)) none

/-- The text of found tags with each tag replaced by what `f` gives for it. -/
def traceFound {α : Type} (f : α → Traced Text) : List (Found α) → Traced Text
  | [] => pure []
  | t :: ts => do
    let content ← f t.tag
    let rest ← traceFound f ts
    return t.before ++ (content ++ rest)

/-- A text with each include tag replaced by what `f` gives for its path. -/
def traceSplice (f : Text → Traced Text) (s : Text) : Traced Text := do
  let front ← traceFound f (includeTag.scan s).found
  return front ++ (includeTag.scan s).tail

/-- What an include tag at some depth is replaced by: nothing, and a fault, at the limit. -/
def traceInclude (loader : Option Loader) (limit depth : Nat) (path : Text) : Traced Text :=
  if _h : depth < limit then do
    match ← traceFetch loader path with
    | none => return []
    | some text => traceSplice (traceInclude loader limit (depth + 1)) text
  else .inspite (.tooDeep .includes) []
termination_by limit - depth

/-- The text without its replacement tags and the contents given by them, added to `found`.  From
a tag at the limit on, which is a fault, the text stays as it is. -/
def traceReplacements (limit depth : Nat) (found : Replacements) (s : Text) :
    Traced (Text × Replacements) :=
  match h : nextReplace s with
  | none => pure (s, found)
  | some tag =>
    have : tag.body.length < s.length := nextPair_body_lt h
    have : tag.after.length < s.length := nextPair_after_lt h
    if depth < limit then do
      let (content, found) ← traceReplacements limit (depth + 1) found tag.body
      let (rest, found) ← traceReplacements limit depth (found.insert tag.name content) tag.after
      return (tag.before ++ rest, found)
    else .inspite (.tooDeep .replacement) (s, found)
termination_by s.length

theorem traceReplacements_of_none {limit depth : Nat} {found : Replacements} {s : Text}
    (h : nextReplace s = none) : traceReplacements limit depth found s = pure (s, found) := by
  rw [traceReplacements]
  split
  · rfl
  · simp_all

theorem traceReplacements_of_some {limit depth : Nat} {found : Replacements} {s : Text}
    {tag : TextPair} (h : nextReplace s = some tag) :
    traceReplacements limit depth found s =
      if depth < limit then do
        let (content, found) ← traceReplacements limit (depth + 1) found tag.body
        let (rest, found) ← traceReplacements limit depth (found.insert tag.name content) tag.after
        return (tag.before ++ rest, found)
      else .inspite (.tooDeep .replacement) (s, found) := by
  rw [traceReplacements]
  split
  · simp_all
  · next p hp =>
      obtain rfl : tag = p := Option.some.inj (h.symm.trans hp)
      rfl

/-- The names of the blocks of a text, and the nodes of the text.  From a block at the limit on,
which is a fault, the text stays as it is. -/
def traceBlocks (replacements : Replacements) (removals : NameSet) (limit depth : Nat) (s : Text) :
    Traced (List Text × List Node) :=
  let rules : BlockRules := ⟨⟨false, limit⟩, replacements, removals⟩
  match h : nextBlock s with
  | none => pure ([], literalNodes s)
  | some block =>
    have : block.body.length < s.length := nextPair_body_lt h
    have : block.after.length < s.length := nextPair_after_lt h
    if depth < limit then do
      let (inside, body) ← traceBlocks replacements removals limit (depth + 1) block.body
      let (behind, after) ← traceBlocks replacements removals limit depth block.after
      return (inside ++ (rules.record block.name ++ behind),
        prependLiteral block.before (joinNodes (rules.nodes block.name body) after))
    else .inspite (.tooDeep .block) ([], literalNodes s)
termination_by s.length

theorem traceBlocks_of_none {replacements : Replacements} {removals : NameSet} {limit depth : Nat}
    {s : Text} (h : nextBlock s = none) :
    traceBlocks replacements removals limit depth s = pure ([], literalNodes s) := by
  rw [traceBlocks]
  split
  · rfl
  · simp_all

theorem traceBlocks_of_some {replacements : Replacements} {removals : NameSet} {limit depth : Nat}
    {s : Text} {block : TextPair} (h : nextBlock s = some block) :
    traceBlocks replacements removals limit depth s =
      let rules : BlockRules := ⟨⟨false, limit⟩, replacements, removals⟩
      if depth < limit then do
        let (inside, body) ← traceBlocks replacements removals limit (depth + 1) block.body
        let (behind, after) ← traceBlocks replacements removals limit depth block.after
        return (inside ++ (rules.record block.name ++ behind),
          prependLiteral block.before (joinNodes (rules.nodes block.name body) after))
      else .inspite (.tooDeep .block) ([], literalNodes s) := by
  rw [traceBlocks]
  split
  · simp_all
  · next p hp =>
      obtain rfl : block = p := Option.some.inj (h.symm.trans hp)
      rfl

/-- The lenient compilation of a template with a limit, its faults noted. -/
def Settings.trace (s : Settings) (loader : Option Loader) (limit : Nat) (t : Text) :
    Traced Compiled := do
  let resolved ← traceSplice (traceInclude loader limit 0) t
  let (stripped, given) ← traceReplacements limit 0 Dict.empty resolved
  let (blocks, nodes) ←
    traceBlocks (s.replacements.overriddenBy given) s.removals limit 0 stripped
  return ⟨⟨expandPlaceholders nodes⟩, blocks, placeholdersOf nodes⟩

/-! ## The outcome of the stages -/

section Outcome

variable {loader : Option Loader} {policy : Policy}

theorem fetch_eq_outcome (loader : Option Loader) (policy : Policy) (path : Text) :
    fetch loader policy.strict path = (traceFetch loader path).outcome policy := by
  unfold fetch traceFetch
  cases loader with
  | none => rfl
  | some loader =>
      by_cases hpath : loader.has path = true
      · simp only [hpath, if_true]
        cases loader.read path with
        | ok text => rfl
        | error failure => rfl
      · simp only [hpath]
        rfl

theorem spliceFound_eq_outcome {α : Type} (policy : Policy) (f : α → Traced Text)
    (found : List (Found α)) : spliceFound (fun a => (f a).outcome policy) found =
      (traceFound f found).outcome policy := by
  induction found with
  | nil => rfl
  | cons t ts ih =>
      simp only [spliceFound, traceFound, ih, Traced.outcome_bind, Traced.outcome_pure]
      rfl

theorem spliceIncludes_eq_outcome (policy : Policy) (f : Text → Traced Text) (s : Text) :
    spliceIncludes (fun path => (f path).outcome policy) s =
      (traceSplice f s).outcome policy := by
  rw [spliceIncludes, traceSplice, Traced.outcome_bind, spliceFound_eq_outcome]
  rfl

/-- Induction over the depths of a recursion that ends at a limit. -/
@[elab_as_elim] theorem depth_induction (limit : Nat) {motive : Nat → Prop}
    (refused : ∀ depth, limit ≤ depth → motive depth)
    (entered : ∀ depth, depth < limit → motive (depth + 1) → motive depth) (depth : Nat) :
    motive depth := by
  by_cases hd : depth < limit
  · exact entered depth hd (depth_induction limit refused entered (depth + 1))
  · exact refused depth (Nat.not_lt.1 hd)
termination_by limit - depth

theorem includeText_eq_outcome (loader : Option Loader) (policy : Policy) (depth : Nat) :
    includeText loader policy depth =
      fun path => (traceInclude loader policy.limit depth path).outcome policy := by
  induction depth using depth_induction policy.limit with
  | refused depth hd =>
      funext path
      rw [includeText_of_refused hd, traceInclude, dif_neg (Nat.not_lt.2 hd)]
      rfl
  | entered depth hd ih =>
      funext path
      rw [includeText_of_entered hd, traceInclude, dif_pos hd, Traced.outcome_bind,
        ← fetch_eq_outcome, ih]
      refine congrArg (fetch loader policy.strict path >>= ·) ?_
      funext found
      cases found with
      | none => rfl
      | some text => exact spliceIncludes_eq_outcome policy _ text

theorem extractAt_eq_outcome (policy : Policy) (depth : Nat) (found : Replacements) (s : Text) :
    extractAt policy depth found s =
      (traceReplacements policy.limit depth found s).outcome policy := by
  induction s using nextPair_induction replaceDelimiter generalizing depth found with
  | leaf s hs =>
      rw [extractAt_of_none hs, traceReplacements_of_none hs]
      rfl
  | tree s tag hs ihBody ihAfter =>
      by_cases hd : depth < policy.limit
      · rw [extractAt_of_entered hs hd, traceReplacements_of_some hs, if_pos hd]
        simp only [Traced.outcome_bind, ihBody, ihAfter]
        rfl
      · rw [extractAt_of_refused hs (Nat.not_lt.1 hd), traceReplacements_of_some hs, if_neg hd]
        rfl

theorem expandBlocksAt_eq_outcome (policy : Policy) (replacements : Replacements)
    (removals : NameSet) (depth : Nat) (s : Text) :
    let expansion := expandBlocksAt ⟨policy, replacements, removals⟩ depth s
    (do let nodes ← expansion.outcome; return (expansion.blocks, nodes)) =
      (traceBlocks replacements removals policy.limit depth s).outcome policy := by
  induction s using nextPair_induction blockDelimiter generalizing depth with
  | leaf s hs =>
      rw [expandBlocksAt_of_none hs, traceBlocks_of_none hs]
      rfl
  | tree s block hs ihBody ihAfter =>
      by_cases hd : depth < policy.limit
      · rw [expandBlocksAt_of_entered hs hd, traceBlocks_of_some hs]
        simp only [hd, if_true, Traced.outcome_bind, ← ihBody, ← ihAfter]
        cases (expandBlocksAt ⟨policy, replacements, removals⟩ (depth + 1) block.body).outcome with
        | error e => rfl
        | ok body =>
            cases (expandBlocksAt ⟨policy, replacements, removals⟩ depth block.after).outcome with
            | error e => rfl
            | ok after => rfl
      · rw [expandBlocksAt_of_refused hs (Nat.not_lt.1 hd), traceBlocks_of_some hs]
        simp only [hd, if_false, Traced.outcome_inspite]
        split <;> rfl

/-- **A compilation is what its policy makes of the noted one.** -/
theorem compile_eq_outcome (s : Settings) (loader : Option Loader) (t : Text) :
    s.compile loader t =
      (s.trace loader s.config.recursionLimit t).outcome s.config.policy := by
  have hinclude : resolveIncludes loader s.config.policy t =
      (traceSplice (traceInclude loader s.config.recursionLimit 0) t).outcome s.config.policy := by
    rw [resolveIncludes, includeText_eq_outcome, spliceIncludes_eq_outcome]
    rfl
  rw [Settings.compile, Settings.trace, Traced.outcome_bind, ← hinclude]
  -- Each stage is peeled off both sides, and the next one is compared on what it gives.
  refine congrArg (resolveIncludes loader s.config.policy t >>= ·) ?_
  funext resolved
  have hextract : extractReplacements s.config.policy resolved =
      (traceReplacements s.config.recursionLimit 0 Dict.empty resolved).outcome s.config.policy :=
    extractAt_eq_outcome _ _ _ _
  rw [Traced.outcome_bind, ← hextract]
  refine congrArg (extractReplacements s.config.policy resolved >>= ·) ?_
  funext extracted
  obtain ⟨stripped, given⟩ := extracted
  have hblocks := expandBlocksAt_eq_outcome s.config.policy
    (s.replacements.overriddenBy given) s.removals 0 stripped
  rw [Traced.outcome_bind]
  show _ = (traceBlocks _ _ s.config.policy.limit 0 stripped).outcome s.config.policy >>= _
  rw [← hblocks, bind_assoc]
  rfl

end Outcome

/-! ## Higher limits -/

section Higher

variable {loader : Option Loader} {limit limit' : Nat}

open Traced (KeptBy inspite_keptBy)

theorem traceFound_keptBy {α : Type} {f g : α → Traced Text} (h : ∀ a, (f a).KeptBy (g a))
    (found : List (Found α)) : (traceFound f found).KeptBy (traceFound g found) := by
  induction found with
  | nil => exact .refl _
  | cons t ts ih => exact (h t.tag).bind fun _ => ih.bind fun _ => .refl _

theorem traceSplice_keptBy {f g : Text → Traced Text} (h : ∀ path, (f path).KeptBy (g path))
    (s : Text) : (traceSplice f s).KeptBy (traceSplice g s) :=
  (traceFound_keptBy h _).bind fun _ => .refl _

theorem traceInclude_keptBy (hle : limit ≤ limit') (depth : Nat) (path : Text) :
    (traceInclude loader limit depth path).KeptBy (traceInclude loader limit' depth path) := by
  induction depth using depth_induction limit generalizing path with
  | refused depth hd =>
      rw [traceInclude, dif_neg (Nat.not_lt.2 hd)]
      exact inspite_keptBy _ _ _
  | entered depth hd ih =>
      rw [traceInclude, dif_pos hd, traceInclude, dif_pos (Nat.lt_of_lt_of_le hd hle)]
      refine (KeptBy.refl _).bind fun found => ?_
      cases found with
      | none => exact .refl _
      | some text => exact traceSplice_keptBy ih text

theorem traceReplacements_keptBy (hle : limit ≤ limit') (depth : Nat) (found : Replacements)
    (s : Text) : (traceReplacements limit depth found s).KeptBy
      (traceReplacements limit' depth found s) := by
  induction s using nextPair_induction replaceDelimiter generalizing depth found with
  | leaf s hs =>
      rw [traceReplacements_of_none hs, traceReplacements_of_none hs]
      exact .refl _
  | tree s tag hs ihBody ihAfter =>
      rw [traceReplacements_of_some hs, traceReplacements_of_some hs]
      by_cases hd : depth < limit
      · -- Above the lower limit both are entered; below it the one with that limit has a fault.
        rw [if_pos hd, if_pos (Nat.lt_of_lt_of_le hd hle)]
        exact (ihBody _ _).bind fun _ => (ihAfter _ _).bind fun _ => .refl _
      · rw [if_neg hd]
        exact inspite_keptBy _ _ _

theorem traceBlocks_keptBy (hle : limit ≤ limit') (replacements : Replacements)
    (removals : NameSet) (depth : Nat) (s : Text) :
    (traceBlocks replacements removals limit depth s).KeptBy
      (traceBlocks replacements removals limit' depth s) := by
  induction s using nextPair_induction blockDelimiter generalizing depth with
  | leaf s hs =>
      rw [traceBlocks_of_none hs, traceBlocks_of_none hs]
      exact .refl _
  | tree s block hs ihBody ihAfter =>
      rw [traceBlocks_of_some hs, traceBlocks_of_some hs]
      by_cases hd : depth < limit
      · simp only [hd, Nat.lt_of_lt_of_le hd hle, if_true]
        exact (ihBody _).bind fun _ => (ihAfter _).bind fun _ => .refl _
      · simp only [hd, if_false]
        exact inspite_keptBy _ _ _

/-- **A higher limit changes nothing where no fault was met.** -/
theorem trace_keptBy (hle : limit ≤ limit') (s : Settings) (loader : Option Loader) (t : Text) :
    (s.trace loader limit t).KeptBy (s.trace loader limit' t) :=
  (traceSplice_keptBy (traceInclude_keptBy hle 0) t).bind fun resolved =>
    (traceReplacements_keptBy hle 0 Dict.empty resolved).bind fun extracted =>
      (traceBlocks_keptBy hle _ s.removals 0 extracted.1).bind fun _ => .refl _

end Higher

/-! ## The agreement -/

/-- The settings with another strictness and another limit. -/
def Settings.under (s : Settings) (strict : Bool) (limit : Nat) : Settings :=
  { s with config := { s.config with strict := strict, recursionLimit := limit } }

theorem compile_under (s : Settings) (strict : Bool) (limit : Nat) (loader : Option Loader)
    (t : Text) : (s.under strict limit).compile loader t =
      (s.trace loader limit t).outcome ⟨strict, limit⟩ :=
  compile_eq_outcome (s.under strict limit) loader t

/-- **Strict and lenient compilations and higher limits agree.**  The lenient compilation always
succeeds.  The strict one with the same limit succeeds exactly if the lenient one met no fault, and
then every compilation with this limit or a higher one, strict or lenient, gives the same program
and the same names.  Otherwise it fails with the error of the first fault that was met. -/
theorem compile_under_policies (s : Settings) (loader : Option Loader) (t : Text) (limit : Nat) :
    let run := s.trace loader limit t
    (s.under false limit).compile loader t = .ok run.value ∧
    ((∃ r, (s.under true limit).compile loader t = .ok r) ↔ run.faults = []) ∧
    (∀ r, (s.under true limit).compile loader t = .ok r → ∀ strict limit', limit ≤ limit' →
      (s.under strict limit').compile loader t = .ok r) ∧
    (∀ e, (s.under true limit).compile loader t = .error e ↔
      ∃ f, run.faults.head? = some f ∧ e = f.error limit) := by
  intro run
  have herror : ∀ e, (s.under true limit).compile loader t = .error e ↔
      ∃ f, run.faults.head? = some f ∧ e = f.error limit := by
    intro e
    rw [compile_under, Traced.outcome_eq_error_iff]
    exact and_iff_right rfl
  have hok : (∃ r, (s.under true limit).compile loader t = .ok r) ↔ run.faults = [] := by
    constructor
    · rintro ⟨r, hr⟩
      -- A first fault would make the compilation fail.
      refine List.head?_eq_none_iff.1 (Option.eq_none_iff_forall_ne_some.2 fun f hf => ?_)
      rw [(herror (f.error limit)).2 ⟨f, hf, rfl⟩] at hr
      cases hr
    · intro hrun
      exact ⟨run.value, by rw [compile_under, Traced.outcome_of_faultless hrun]⟩
  refine ⟨?_, hok, ?_, herror⟩
  · rw [compile_under, Traced.outcome_of_lenient rfl]
  · intro r hr strict limit' hle
    have hrun : run.faults = [] := hok.1 ⟨r, hr⟩
    rw [compile_under, Traced.outcome_of_faultless hrun] at hr
    rw [compile_under, trace_keptBy hle s loader t hrun, Traced.outcome_of_faultless hrun, hr]

/-- A source that includes itself, and before that one which does not exist. -/
def echo : Loader :=
  .ofSources (Dict.ofList
    [("echo".toList, .ok "<!-- include song -->la<!-- include echo -->".toList)])

/-- A template with three nested blocks behind an include. -/
def chorus : Text :=
  "<!-- include echo --><!-- [a] --><!-- [b] --><!-- [c] -->".toList ++
    "<!-- [/c] --><!-- [/b] --><!-- [/a] -->".toList

/-- The faults of the chorus in order, and the error that the first of them is. -/
theorem compile_chorus :
    (Settings.trace {} (some echo) 2 chorus).faults =
      [.missing "song".toList, .tooDeep .includes, .tooDeep .includes, .tooDeep .block] ∧
    (Settings.under {} true 2).compile (some echo) chorus =
      .error (.includeNotFound "song".toList) := by
  have hfaults : (Settings.trace {} (some echo) 2 chorus).faults =
      [.missing "song".toList, .tooDeep .includes, .tooDeep .includes, .tooDeep .block] := by
    decide +kernel
  obtain ⟨-, -, -, herror⟩ := compile_under_policies {} (some echo) chorus 2
  refine ⟨hfaults, (herror _).2 ⟨.missing "song".toList, ?_, rfl⟩⟩
  rw [hfaults]
  rfl

end CommentTemplate
