import CommentTemplate.Config
import CommentTemplate.Tag.Form

/-!
# The recursion policy

Whether a tag at some depth of nesting may be expanded.  The depth of a tag is the number of tags
of its kind around it, so tags at the top have depth zero.  Every stage of the compilation asks
the same policy, with the depth passed down its own recursion.
-/

namespace CommentTemplate

/-- Why a template cannot be compiled. -/
inductive CompileError where
  /-- An included source does not exist; the place where it was looked for. -/
  | includeNotFound (place : Text)
  /-- Tags of a kind are nested to the limit or beyond. -/
  | recursionLimit (kind : TagKind) (limit : Nat)
  /-- The directory of the includes is no directory. -/
  | invalidIncludeDir (dir : Text)
  /-- An included source exists and cannot be read. -/
  | unreadable (place cause : Text)
deriving DecidableEq, Repr

/-- The words for an error. -/
def CompileError.message : CompileError → Text
  | .includeNotFound place =>
    "Could not INCLUDE template \"".toList ++ place ++
      "\"; Please check that the file exists.".toList
  | .recursionLimit kind limit =>
    "Maximum number of recursive/nested ".toList ++ kind.label ++
      " tags has been reached (limit ".toList ++ Text.ofNat limit ++ ").".toList
  | .invalidIncludeDir dir => dir ++ " is not a valid directory.".toList
  | .unreadable place cause => "Failed to read include ".toList ++ place ++ ": ".toList ++ cause

/-- What to do with a tag at some depth. -/
inductive Descent where
  /-- Expand it. -/
  | enter
  /-- Leave it as it is, or empty. -/
  | truncate
deriving DecidableEq, Repr

/-- How deep tags may nest, and whether nesting deeper is an error. -/
structure Policy where
  /-- Nesting deeper is an error. -/
  strict : Bool
  /-- Tags at this depth and below are not expanded. -/
  limit : Nat
deriving DecidableEq, Repr

/-- The policy of a configuration. -/
def Config.policy (c : Config) : Policy := ⟨c.strict, c.recursionLimit⟩

namespace Policy

/-- What becomes of a tag at some depth. -/
def descend (p : Policy) (kind : TagKind) (depth : Nat) : Except CompileError Descent :=
  if depth < p.limit then .ok .enter
  else if p.strict then .error (.recursionLimit kind p.limit)
  else .ok .truncate

/-- Exactly the tags above the limit are entered. -/
@[simp] theorem descend_eq_enter_iff {p : Policy} {kind : TagKind} {depth : Nat} :
    p.descend kind depth = .ok .enter ↔ depth < p.limit := by
  unfold descend
  by_cases hd : depth < p.limit
  · simp [hd]
  · cases p.strict <;> simp [hd]

/-- Exactly the tags at or below the limit of a lenient policy are cut off. -/
@[simp] theorem descend_eq_truncate_iff {p : Policy} {kind : TagKind} {depth : Nat} :
    p.descend kind depth = .ok .truncate ↔ p.limit ≤ depth ∧ p.strict = false := by
  unfold descend
  by_cases hd : depth < p.limit
  · simp [hd, Nat.not_le.2 hd]
  · cases p.strict <;> simp [hd, Nat.not_lt.1 hd]

/-- A strict policy refuses exactly the tags at or below its limit, and names kind and limit. -/
@[simp] theorem descend_eq_error_iff {p : Policy} {kind : TagKind} {depth : Nat}
    {e : CompileError} : p.descend kind depth = .error e ↔
      p.limit ≤ depth ∧ p.strict = true ∧ e = .recursionLimit kind p.limit := by
  unfold descend
  by_cases hd : depth < p.limit
  · simp [hd, Nat.not_le.2 hd]
  · cases p.strict <;> simp [hd, Nat.not_lt.1 hd, eq_comm]

end Policy

end CommentTemplate
