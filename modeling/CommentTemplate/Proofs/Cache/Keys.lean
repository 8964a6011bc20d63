import Mathlib.Data.List.Basic
import CommentTemplate.Cache.Key
import CommentTemplate.Proofs.Json.Canonical

/-!
# What a key stands for

A key is a hash of the template and of the settings.  The text that is hashed determines both, so
two compilations have one key only if they are the same, or if two of the texts that were hashed
on the way to the keys have one hash.

## Main definitions

* `Job` — a template with the settings it is compiled under
* `Job.texts` — the texts that are hashed for its key
* `CollisionFree` — no two of some texts have one hash

## Main statements

* `options_injective` — the canonical form of the options determines the settings
* `Job.eq_of_key_eq` — a key determines its job, unless hashes collide
-/

namespace CommentTemplate

open Json

/-! ## The parts of the options -/

theorem Dict.lookup_map {α β : Type} (f : α → β) (k : Text) (es : List (Text × α)) :
    Dict.lookup k (es.map fun e => (e.1, f e.2)) = (Dict.lookup k es).map f := by
  induction es with
  | nil => rfl
  | cons e es ih => by_cases h : e.1 = k <;> simp [Dict.lookup, h, ih]

theorem canonicalMembers_strings (es : List (Text × Text)) :
    Value.canonicalMembers (es.map fun e => (e.1, .string e.2)) =
      es.map fun e => (e.1, .string e.2) := by
  rw [Value.canonicalMembers_eq_map, List.map_map]
  rfl

theorem canonicalItems_strings (ts : List Text) :
    Value.canonicalItems (ts.map .string) = ts.map .string := by
  rw [Value.canonicalItems_eq_map, List.map_map]
  rfl

/-- The canonical form of a configuration determines it. -/
theorem config_injective {c d : Config} (h : c.toJson.canonical = d.toJson.canonical) : c = d := by
  have hstrict := Value.lookup_eq_of_canonical_eq h "strict".toList
  have hdebug := Value.lookup_eq_of_canonical_eq h "debug".toList
  have hlimit := Value.lookup_eq_of_canonical_eq h "recursionLimit".toList
  simp [Value.canonicalMembers, Value.canonical, Dict.lookup, Value.int]
    at hstrict hdebug hlimit
  have hlimit : c.recursionLimit = d.recursionLimit := by omega
  cases c
  cases d
  simp only [Config.mk.injEq]
  exact ⟨hstrict, hdebug, hlimit⟩

/-- The canonical form of the replacements determines them. -/
theorem replacements_injective {d e : Replacements}
    (h : (Value.object (d.entries.map fun e => (e.1, .string e.2))).canonical =
      (Value.object (e.entries.map fun e => (e.1, .string e.2))).canonical) : d = e := by
  refine Dict.ext_find? fun name => ?_
  have hname := Value.lookup_eq_of_canonical_eq h name
  simp only [canonicalMembers_strings, ← List.map_reverse, Dict.lookup_map,
    Dict.lookup_reverse d.sorted, Dict.lookup_reverse e.sorted] at hname
  exact Option.map_injective (fun s t hst => Value.string.inj hst) hname

/-- The canonical form of the removals determines them. -/
theorem removals_injective {d e : NameSet}
    (h : (Value.strings d.keys).canonical = (Value.strings e.keys).canonical) : d = e := by
  simp only [Value.strings, Value.canonical, canonicalItems_strings, Value.array.injEq] at h
  have hkeys : d.keys = e.keys := List.map_injective_iff.2 (fun s t hst => Value.string.inj hst) h
  exact Dict.ext (List.map_injective_iff.2 (fun a b hab => Prod.ext hab rfl) hkeys)

/-- The canonical form of the options determines the settings. -/
theorem options_injective {s u : Settings} (h : s.options.canonical = u.options.canonical) :
    s = u := by
  have hconfig := Value.lookup_eq_of_canonical_eq h "config".toList
  have hreplacements := Value.lookup_eq_of_canonical_eq h "replacements".toList
  have hremovals := Value.lookup_eq_of_canonical_eq h "removals".toList
  simp [Value.canonicalMembers, Dict.lookup] at hconfig hreplacements hremovals
  cases s
  cases u
  simp only [Settings.mk.injEq]
  exact ⟨config_injective hconfig, replacements_injective hreplacements,
    removals_injective hremovals⟩

theorem integral_options (s : Settings) : s.options.Integral := by
  have hconfig : s.config.toJson.Integral := by
    refine .object fun m hm => ?_
    simp only [List.mem_cons, List.not_mem_nil, or_false] at hm
    rcases hm with rfl | rfl | rfl
    · exact .bool _
    · exact .bool _
    · exact .integer _
  refine .object fun m hm => ?_
  simp only [List.mem_cons, List.not_mem_nil, or_false] at hm
  rcases hm with rfl | rfl | rfl | rfl
  · exact .string _
  · exact hconfig
  · refine .object fun m hm => ?_
    obtain ⟨e, -, rfl⟩ := List.mem_map.1 hm
    exact .string _
  · refine .array fun v hv => ?_
    obtain ⟨name, -, rfl⟩ := List.mem_map.1 hv
    exact .string name

/-! ## Keys -/

/-- No two of some texts have one hash. -/
def CollisionFree (texts : List Text) : Prop :=
  ∀ s ∈ texts, ∀ t ∈ texts, sha256Hex s = sha256Hex t → s = t

instance (texts : List Text) : Decidable (CollisionFree texts) :=
  inferInstanceAs (Decidable (∀ s ∈ texts, ∀ t ∈ texts, sha256Hex s = sha256Hex t → s = t))

theorem CollisionFree.mono {texts texts' : List Text} (h : CollisionFree texts')
    (hsub : texts ⊆ texts') : CollisionFree texts :=
  fun s hs t ht => h s (hsub hs) t (hsub ht)

/-- Two texts with two hashes. -/
theorem collisionFree_pair {s t : Text} (h : sha256Hex s ≠ sha256Hex t) :
    CollisionFree [s, t] := by
  simp [CollisionFree, h, Ne.symm h]

/-- A template with the settings it is compiled under. -/
structure Job where
  /-- The settings. -/
  settings : Settings
  /-- The template. -/
  source : Text
deriving DecidableEq, Repr

namespace Job

/-- The key of a job. -/
def key (j : Job) : Text := j.settings.keyFor j.source

/-- What becomes of a job with the includes of a loader. -/
def outcome (loader : Option Loader) (j : Job) : Except CompileError Compiled :=
  j.settings.compile loader j.source

/-- The text whose hash is the key of a job. -/
def keyText (j : Job) : Text := sha256Hex j.source ++ ':' :: j.settings.options.canonicalText

/-- The texts that are hashed for the key of a job. -/
def texts (j : Job) : List Text := [j.source, j.keyText]

/-- **A key determines its job**, if no two of the texts hashed for both keys have one hash. -/
theorem eq_of_key_eq {j k : Job} (hfree : CollisionFree (j.texts ++ k.texts))
    (h : j.key = k.key) : j = k := by
  have hj {t : Text} (ht : t ∈ j.texts) : t ∈ j.texts ++ k.texts := List.mem_append_left _ ht
  have hk {t : Text} (ht : t ∈ k.texts) : t ∈ j.texts ++ k.texts := List.mem_append_right _ ht
  have htext : j.keyText = k.keyText :=
    hfree _ (hj (by simp [texts])) _ (hk (by simp [texts])) h
  -- A hash has sixty-four digits, so the two halves of the text are told apart by their lengths.
  have hlength : (sha256Hex j.source).length = (sha256Hex k.source).length := by
    simp [sha256Hex]
  obtain ⟨hsource, hoptions⟩ := List.append_inj htext hlength
  have hsource : j.source = k.source :=
    hfree _ (hj (by simp [texts])) _ (hk (by simp [texts])) hsource
  have hsettings : j.settings = k.settings :=
    options_injective (((integral_options _).canonicalText_eq_iff (integral_options _)).1
      (List.cons.inj hoptions).2)
  cases j
  cases k
  simp only [mk.injEq]
  exact ⟨hsettings, hsource⟩

end Job

end CommentTemplate
