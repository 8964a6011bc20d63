import CommentTemplate.Proofs.Compile.Strictness

/-!
# Reached sources

A compilation looks at the sources that are named by its include tags, and at those that are named
in these in turn.  Whatever else a loader has makes no difference to it.

## Main definitions

* `Reached` — the paths that are looked up when a text is compiled
* `Loader.SameAt` — two loaders answer the same for a path

## Main statements

* `resolveIncludes_mapError` — two loaders that differ in their errors alone
* `compile_congr` — a compilation depends on nothing but the reached sources
-/

namespace CommentTemplate

/-- A path that is looked up when the includes of a text are replaced. -/
inductive Reached (loader : Loader) (s : Text) : Text → Prop where
  /-- A tag of the text names it. -/
  | tag {path : Text} (h : path ∈ includedPaths s) : Reached loader s path
  /-- A tag of a source that is reached names it. -/
  | nested {path text inner : Text} (h : Reached loader s path) (hhas : loader.has path = true)
    (hread : loader.read path = .ok text) (hinner : inner ∈ includedPaths text) :
    Reached loader s inner

/-- Two loaders answer the same for a path. -/
structure Loader.SameAt (a b : Loader) (path : Text) : Prop where
  locate : a.locate path = b.locate path
  has : a.has path = b.has path
  read : a.has path = true → a.read path = b.read path

variable {a b : Loader} {policy : Policy} {g : CompileError → CompileError}

theorem spliceFound_mapError {α : Type} {f f' : α → Except CompileError Text}
    {found : List (Found α)} (h : ∀ t ∈ found.map Found.tag, f' t = (f t).mapError g) :
    spliceFound f' found = (spliceFound f found).mapError g := by
  induction found with
  | nil => rfl
  | cons t ts ih =>
      rw [List.map_cons, List.forall_mem_cons] at h
      rw [spliceFound, spliceFound, h.1, ih h.2, mapError_bind]
      congr 1
      funext content
      rw [mapError_bind]
      rfl

theorem spliceIncludes_mapError {f f' : Text → Except CompileError Text} {s : Text}
    (h : ∀ path ∈ includedPaths s, f' path = (f path).mapError g) :
    spliceIncludes f' s = (spliceIncludes f s).mapError g := by
  rw [spliceIncludes, spliceIncludes, spliceFound_mapError h, mapError_bind]
  rfl

theorem fetch_congr {path : Text} (h : a.SameAt b path) (strict : Bool) :
    fetch (some a) strict path = fetch (some b) strict path := by
  by_cases hhas : a.has path = true
  · simp only [fetch, ← h.has, hhas, ↓reduceIte, h.read hhas, h.locate]
  · rw [fetch, fetch, ← h.has, if_neg hhas, if_neg hhas, h.locate]

theorem fetch_eq_ok_some {strict : Bool} {path text : Text}
    (h : fetch (some a) strict path = .ok (some text)) :
    a.has path = true ∧ a.read path = .ok text := by
  simp only [fetch] at h
  split at h
  · next hhas =>
      split at h
      · next hread => exact ⟨hhas, by simpa [hread] using h⟩
      · split at h <;> cases h
  · split at h <;> cases h

section MapError

variable {s : Text}
  (hlimit : ∀ kind limit, g (.recursionLimit kind limit) = .recursionLimit kind limit)
  (h : ∀ path, Reached a s path →
    fetch (some b) policy.strict path = (fetch (some a) policy.strict path).mapError g)

include hlimit h

/-- What stands for a tag is the same with another loader but for the errors, if that is true of
each source that is reached from it. -/
theorem includeText_mapError (depth : Nat) : ∀ path, Reached a s path →
    includeText (some b) policy depth path =
      (includeText (some a) policy depth path).mapError g := by
  induction depth using depth_induction policy.limit with
  | refused depth hd =>
      intro path _
      rw [includeText_of_refused hd, includeText_of_refused hd]
      cases policy.strict
      · rfl
      · exact congrArg Except.error (hlimit .includes policy.limit).symm
  | entered depth hd ih =>
      intro path hpath
      rw [includeText_of_entered hd, includeText_of_entered hd, h path hpath, mapError_bind]
      cases hfound : fetch (some a) policy.strict path with
      | error e => rfl
      | ok found =>
      cases found with
      | none => rfl
      | some text =>
          obtain ⟨hhas, hread⟩ := fetch_eq_ok_some hfound
          exact spliceIncludes_mapError fun inner hinner =>
            ih inner (.nested hpath hhas hread hinner)

/-- Includes are resolved to the same text with another loader, or with the error that stands for
that of the first one. -/
theorem resolveIncludes_mapError : resolveIncludes (some b) policy s =
    (resolveIncludes (some a) policy s).mapError g :=
  spliceIncludes_mapError fun path hpath => includeText_mapError hlimit h 0 path (.tag hpath)

end MapError

/-- **A compilation depends on nothing but the reached sources.** -/
theorem compile_congr {s : Text} (h : ∀ path, Reached a s path → a.SameAt b path)
    (settings : Settings) :
    settings.compile (some a) s = settings.compile (some b) s := by
  have hfetch (path : Text) (hpath : Reached a s path) :
      fetch (some b) settings.config.policy.strict path =
        (fetch (some a) settings.config.policy.strict path).mapError id := by
    rw [mapError_id, fetch_congr (h path hpath)]
  have hres := resolveIncludes_mapError (fun _ _ => rfl) hfetch
  rw [mapError_id] at hres
  rw [Settings.compile, Settings.compile, hres]

end CommentTemplate
