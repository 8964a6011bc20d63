import Mathlib.Control.Monad.Basic
import CommentTemplate.Proofs.Compile.Strictness

/-!
# The pieces of a resolved text

A text whose includes are resolved is joined from pieces of its sources: the texts between their
include tags.  No piece has an include tag, and the joined text is not scanned.  It has one
therefore exactly if a tag comes about at a joint, which can happen: a tag may stand in the middle
of what becomes a tag once a source with nothing in it has taken its place.

## Main definitions

* `includePieces`, `resolvedPieces` — the pieces in order

## Main statements

* `value_traceInclude` — what an include tag is replaced by, joined from pieces
* `found_of_mem_resolvedPieces` — the pieces have no include tags
* `includedPaths_of_resolved` — a resolved text has no include tag exactly if none comes about
* `resolveIncludes_leaves_tag` — a text of which the resolution leaves a tag
-/

namespace CommentTemplate

/-- The texts in front of found tags, with the pieces that `g` gives for each tag behind them. -/
def foundPieces {α : Type} (g : α → List Text) : List (Found α) → List Text
  | [] => []
  | t :: ts => t.before :: (g t.tag ++ foundPieces g ts)

/-- The texts between the include tags of a text, with the pieces that `g` gives for each path. -/
def splicedPieces (g : Text → List Text) (s : Text) : List Text :=
  foundPieces g (includeTag.scan s).found ++ [(includeTag.scan s).tail]

/-- The pieces that an include tag at some depth is replaced by; none at the limit or where there
is no text for its path. -/
def includePieces (loader : Option Loader) (limit depth : Nat) (path : Text) : List Text :=
  if _h : depth < limit then
    match (traceFetch loader path).value with
    | none => []
    | some text => splicedPieces (includePieces loader limit (depth + 1)) text
  else []
termination_by limit - depth

/-- The pieces of a text with its includes resolved. -/
def resolvedPieces (loader : Option Loader) (limit : Nat) (s : Text) : List Text :=
  splicedPieces (includePieces loader limit 0) s

/-! ## Joining the pieces -/

section Join

variable {f : Text → Traced Text} {g : Text → List Text}

theorem value_traceFound (h : ∀ path, (f path).value = (g path).flatten)
    (found : List (Found Text)) : (traceFound f found).value = (foundPieces g found).flatten := by
  induction found with
  | nil => rfl
  | cons t ts ih =>
      rw [foundPieces, List.flatten_cons, List.flatten_append, ← h, ← ih]
      rfl

theorem value_traceSplice (h : ∀ path, (f path).value = (g path).flatten) (s : Text) :
    (traceSplice f s).value = (splicedPieces g s).flatten := by
  rw [splicedPieces, List.flatten_concat, ← value_traceFound h]
  rfl

/-- What an include tag is replaced by is joined from its pieces. -/
theorem value_traceInclude (loader : Option Loader) (limit depth : Nat) (path : Text) :
    (traceInclude loader limit depth path).value =
      (includePieces loader limit depth path).flatten := by
  induction depth using depth_induction limit generalizing path with
  | refused depth hd =>
      rw [traceInclude, includePieces, dif_neg (Nat.not_lt.2 hd), dif_neg (Nat.not_lt.2 hd)]
      rfl
  | entered depth hd ih =>
      rw [traceInclude, includePieces, dif_pos hd, dif_pos hd]
      show Traced.value (match (traceFetch loader path).value with
        | none => pure []
        | some text => traceSplice (traceInclude loader limit (depth + 1)) text) = _
      cases (traceFetch loader path).value with
      | none => rfl
      | some text => exact value_traceSplice ih text

/-- A text that is resolved at all is joined from its pieces. -/
theorem eq_flatten_of_resolved {loader : Option Loader} {policy : Policy} {s out : Text}
    (h : resolveIncludes loader policy s = .ok out) :
    out = (resolvedPieces loader policy.limit s).flatten := by
  rw [resolveIncludes, includeText_eq_outcome, spliceIncludes_eq_outcome] at h
  rw [resolvedPieces, ← value_traceSplice (value_traceInclude loader policy.limit 0)]
  exact (Traced.value_of_outcome h).symm

end Join

/-! ## Tags in the pieces -/

section Tags

variable {g : Text → List Text} {p s : Text}

theorem mem_foundPieces {found : List (Found Text)} (h : p ∈ foundPieces g found) :
    (∃ t ∈ found, p = t.before) ∨ ∃ path, p ∈ g path := by
  induction found with
  | nil => cases h
  | cons t ts ih =>
      rw [foundPieces, List.mem_cons, List.mem_append] at h
      rcases h with rfl | h | h
      · exact .inl ⟨t, List.mem_cons_self, rfl⟩
      · exact .inr ⟨t.tag, h⟩
      · exact (ih h).imp_left fun ⟨t', ht', hp⟩ => ⟨t', List.mem_cons_of_mem t ht', hp⟩

/-- The texts between the include tags have none. -/
theorem found_of_mem_splicedPieces (hg : ∀ path, ∀ p ∈ g path, (includeTag.scan p).found = [])
    (h : p ∈ splicedPieces g s) : (includeTag.scan p).found = [] := by
  rcases List.mem_append.1 h with h | h
  · rcases mem_foundPieces h with ⟨t, ht, rfl⟩ | ⟨path, hp⟩
    · rw [Recognizer.scan_between closed_includeTag ht]
    · exact hg path p hp
  · rw [List.mem_singleton.1 h, Recognizer.scan_tail]

theorem found_of_mem_includePieces (loader : Option Loader) (limit depth : Nat) (path : Text) :
    ∀ p ∈ includePieces loader limit depth path, (includeTag.scan p).found = [] := by
  induction depth using depth_induction limit generalizing path with
  | refused depth hd =>
      rw [includePieces, dif_neg (Nat.not_lt.2 hd)]
      exact List.forall_mem_nil _
  | entered depth hd ih =>
      rw [includePieces, dif_pos hd]
      cases (traceFetch loader path).value with
      | none => exact List.forall_mem_nil _
      | some text => exact fun p hp => found_of_mem_splicedPieces ih hp

/-- The pieces of a resolved text have no include tags. -/
theorem found_of_mem_resolvedPieces {loader : Option Loader} {limit : Nat}
    (h : p ∈ resolvedPieces loader limit s) : (includeTag.scan p).found = [] :=
  found_of_mem_splicedPieces (found_of_mem_includePieces loader limit 0) h

end Tags

/-! ## Resolving again -/

/-- **A resolved text has no include tag exactly if none comes about** where its pieces are joined.
Then it is resolved already, whatever the loader and the policy. -/
theorem includedPaths_of_resolved {loader : Option Loader} {policy : Policy} {s out : Text}
    (h : resolveIncludes loader policy s = .ok out) :
    (includedPaths out = [] ↔ includeTag.Seamless (resolvedPieces loader policy.limit s)) ∧
    (includeTag.Seamless (resolvedPieces loader policy.limit s) →
      ∀ loader' policy', resolveIncludes loader' policy' out = .ok out) := by
  have hnone : includedPaths out = [] ↔
      includeTag.Seamless (resolvedPieces loader policy.limit s) := by
    rw [includedPaths, List.map_eq_nil_iff, eq_flatten_of_resolved h]
    exact Recognizer.found_flatten_eq_nil_iff closed_includeTag
      fun p hp => found_of_mem_resolvedPieces hp
  exact ⟨hnone, fun hseam _ _ => resolveIncludes_of_no_tag (hnone.2 hseam)⟩

/-- A tag the path of which is included in turn. -/
def includedName : Text := "<!-- INCLUDE <!-- INCLUDE name --> -->".toList

/-- Two sources that make no path together, as there is a blank between them. -/
def blankName : Loader :=
  .ofSources (Dict.ofList
    [("name".toList, .ok "no<!-- include rest -->".toList), ("rest".toList, .ok " part".toList)])

/-- With a blank in it the name is no path, so what is left is no tag. -/
theorem includedPaths_blankName :
    resolveIncludes (some blankName) ⟨true, 2⟩ includedName =
      .ok "<!-- INCLUDE no part -->".toList ∧
    includedPaths "<!-- INCLUDE no part -->".toList = [] ∧
    includeTag.Seamless (resolvedPieces (some blankName) 2 includedName) ∧
    ∀ loader policy, resolveIncludes loader policy "<!-- INCLUDE no part -->".toList =
      .ok "<!-- INCLUDE no part -->".toList := by
  have hresolved : resolveIncludes (some blankName) ⟨true, 2⟩ includedName =
      .ok "<!-- INCLUDE no part -->".toList := by
    decide +kernel
  have hpaths : includedPaths "<!-- INCLUDE no part -->".toList = [] := by decide +kernel
  obtain ⟨hiff, hagain⟩ := includedPaths_of_resolved hresolved
  exact ⟨hresolved, hpaths, hiff.1 hpaths, hagain (hiff.1 hpaths)⟩

/-- Sources one of which has the name of the other one in it. -/
def partName : Loader :=
  .ofSources (Dict.ofList
    [("name".toList, .ok "part".toList), ("part".toList, .ok "the part".toList)])

/-- **A tag can be left.**  Here the name makes a tag of what stands around it, and resolving the
resolved text again gives another text. -/
theorem resolveIncludes_leaves_tag :
    resolveIncludes (some partName) ⟨true, 10⟩ includedName =
      .ok "<!-- INCLUDE part -->".toList ∧
    includedPaths "<!-- INCLUDE part -->".toList = ["part".toList] ∧
    resolveIncludes (some partName) ⟨true, 10⟩ "<!-- INCLUDE part -->".toList =
      .ok "the part".toList := by
  decide +kernel

end CommentTemplate
