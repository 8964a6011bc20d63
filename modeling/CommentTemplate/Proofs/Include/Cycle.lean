import Mathlib.Control.Monad.Basic
import CommentTemplate.Proofs.Compile.Strictness

/-!
# Sources that include each other in a circle

The resolution of includes goes around a circle of sources until it reaches the limit.  A lenient
resolution has then met as many sources as the limit says, and gives what stands in front of their
tags in the order of the circle, followed by what stands behind them in the opposite order.  A
strict resolution fails.

## Main definitions

* `IncludeCycle` — sources in a circle, each with a single include tag, which names the next one
* `IncludeCycle.unrolled` — the text of some of them on the way around

## Main statements

* `IncludeCycle.includeText_source` — what an include tag at some depth is replaced by
* `IncludeCycle.resolveIncludes_of_spelling` — a template that is an include tag of the first one
-/

namespace CommentTemplate

/-- The text with its only include tag replaced. -/
theorem spliceIncludes_of_single {f : Text → Except CompileError Text}
    {s before path raw after : Text} (h : includeTag.scan s = ⟨[⟨before, path, raw⟩], after⟩) :
    spliceIncludes f s = (f path).map fun content => before ++ (content ++ after) := by
  rw [spliceIncludes, h]
  cases hpath : f path with
  | ok content => simp [spliceFound, hpath, bind, Except.bind, pure, Except.pure, Except.map]
  | error e => simp [spliceFound, hpath, bind, Except.bind, Except.map]

/-- Where one is in a circle of `k` places some steps after the first one. -/
def around {k : Nat} (hk : 0 < k) (steps : Nat) : Fin k := ⟨steps % k, Nat.mod_lt steps hk⟩

theorem around_succ {k : Nat} (hk : 0 < k) (steps : Nat) :
    around hk (steps + 1) = around hk ((around hk steps).val + 1) :=
  Fin.ext (Nat.mod_add_mod steps k 1).symm

/-- A circle of `k` sources, each with a single include tag, which names the next one. -/
structure IncludeCycle (loader : Loader) (k : Nat) where
  /-- There is a source. -/
  pos : 0 < k
  /-- The path of each source. -/
  path : Fin k → Text
  /-- The text in front of its tag. -/
  before : Fin k → Text
  /-- The spelling of its tag. -/
  raw : Fin k → Text
  /-- The text behind its tag. -/
  after : Fin k → Text
  /-- The loader has the source. -/
  has : ∀ i, loader.has (path i) = true
  /-- The source is made of these texts. -/
  read : ∀ i, loader.read (path i) = .ok (before i ++ raw i ++ after i)
  /-- The tag is the only one of the source. -/
  scan : ∀ i, includeTag.scan (before i ++ raw i ++ after i) =
    ⟨[⟨before i, path (around pos (i.val + 1)), raw i⟩], after i⟩

namespace IncludeCycle

variable {loader : Loader} {k : Nat}

/-- The text of `n` sources on the way around, of which the first is met at some depth: what
stands in front of their tags in order, and what stands behind them in the opposite order. -/
def unrolled (c : IncludeCycle loader k) (depth n : Nat) : Text :=
  ((List.range' depth n).flatMap fun i => c.before (around c.pos i)) ++
    (List.range' depth n).reverse.flatMap fun i => c.after (around c.pos i)

variable (c : IncludeCycle loader k)

theorem unrolled_zero (depth : Nat) : c.unrolled depth 0 = [] := rfl

/-- Each source stands around those after it. -/
theorem unrolled_succ (depth n : Nat) : c.unrolled depth (n + 1) =
    c.before (around c.pos depth) ++
      (c.unrolled (depth + 1) n ++ c.after (around c.pos depth)) := by
  simp [unrolled, List.range'_succ]

theorem fetch_source (strict : Bool) (i : Fin k) : fetch (some loader) strict (c.path i) =
    .ok (some (c.before i ++ c.raw i ++ c.after i)) := by
  simp only [fetch, c.has, c.read, if_true]

/-- **Going around once more**: the tag at a depth below the limit that names the source met there
is replaced by the text around its tag, with what replaces that tag in between. -/
theorem includeText_of_entered {policy : Policy} {depth : Nat} (hd : depth < policy.limit) :
    includeText (some loader) policy depth (c.path (around c.pos depth)) =
      (includeText (some loader) policy (depth + 1) (c.path (around c.pos (depth + 1)))).map
        fun content =>
          c.before (around c.pos depth) ++ (content ++ c.after (around c.pos depth)) := by
  rw [CommentTemplate.includeText_of_entered hd, c.fetch_source, around_succ]
  exact spliceIncludes_of_single (c.scan _)

/-- A tag at some depth that names the source met there is replaced by the text of the sources
from there to the limit, or fails if that is to be an error. -/
theorem includeText_source (strict : Bool) (depth n : Nat) :
    includeText (some loader) ⟨strict, depth + n⟩ depth (c.path (around c.pos depth)) =
      if strict = true then .error (.recursionLimit .includes (depth + n))
      else .ok (c.unrolled depth n) := by
  induction n generalizing depth with
  | zero =>
      rw [unrolled_zero]
      exact includeText_of_refused (Nat.le_refl depth)
  | succ n ih =>
      have hnext := ih (depth + 1)
      rw [Nat.add_right_comm] at hnext
      rw [c.includeText_of_entered (show depth < depth + (n + 1) by omega)]
      rw [← Nat.add_assoc, hnext, unrolled_succ]
      cases strict <;> rfl

/-- **A circle is cut off at the limit.**  A template that is an include tag of the first source is
resolved to the texts in front of the tags of as many sources as the limit says, and the texts
behind their tags in the opposite order; a strict resolution fails and names the limit. -/
theorem resolveIncludes_of_spelling (n : Nat) {t : Text}
    (ht : includeTag.IsSpelling (c.path (around c.pos 0)) t) :
    resolveIncludes (some loader) ⟨false, n⟩ t =
      .ok (((List.range n).flatMap fun i => c.before (around c.pos i)) ++
        (List.range n).reverse.flatMap fun i => c.after (around c.pos i)) ∧
    resolveIncludes (some loader) ⟨true, n⟩ t = .error (.recursionLimit .includes n) := by
  have hscan : includeTag.scan t = ⟨[⟨[], c.path (around c.pos 0), t⟩], []⟩ := by
    rw [Recognizer.scan_of_run _ ht, Recognizer.scan_nil]
    rfl
  have hresolve (strict : Bool) : resolveIncludes (some loader) ⟨strict, n⟩ t =
      if strict = true then .error (.recursionLimit .includes n)
      else .ok (c.unrolled 0 n) := by
    have hfirst := c.includeText_source strict 0 n
    rw [Nat.zero_add] at hfirst
    rw [resolveIncludes, spliceIncludes_of_single hscan, hfirst]
    cases strict
    · exact congrArg Except.ok (List.append_nil _)
    · rfl
  rw [List.range_eq_range']
  exact ⟨hresolve false, hresolve true⟩

end IncludeCycle

/-- Two sources that include each other. -/
def bracketSources : Loader :=
  .ofSources (Dict.ofList
    [("round".toList, .ok "(<!-- INCLUDE square -->)".toList),
      ("square".toList, .ok "[<!-- include round -->]".toList)])

/-- The circle that they make. -/
def bracketCycle : IncludeCycle bracketSources 2 where
  pos := Nat.two_pos
  path i := if i.val = 0 then "round".toList else "square".toList
  before i := if i.val = 0 then ['('] else ['[']
  raw i := if i.val = 0 then "<!-- INCLUDE square -->".toList else "<!-- include round -->".toList
  after i := if i.val = 0 then [')'] else [']']
  has := by decide +kernel
  read := by decide +kernel
  scan := by decide +kernel

/-- One and a half rounds of the circle. -/
theorem resolveIncludes_brackets :
    includeTag.IsSpelling (bracketCycle.path (around bracketCycle.pos 0))
      "<!--  Include  round  -->".toList ∧
    resolveIncludes (some bracketSources) ⟨false, 3⟩ "<!--  Include  round  -->".toList =
      .ok "([()])".toList ∧
    resolveIncludes (some bracketSources) ⟨true, 3⟩ "<!--  Include  round  -->".toList =
      .error (.recursionLimit .includes 3) := by
  have hspelling : includeTag.IsSpelling (bracketCycle.path (around bracketCycle.pos 0))
      "<!--  Include  round  -->".toList := by
    rw [Recognizer.IsSpelling]
    decide +kernel
  exact ⟨hspelling, bracketCycle.resolveIncludes_of_spelling 3 hspelling⟩

end CommentTemplate
