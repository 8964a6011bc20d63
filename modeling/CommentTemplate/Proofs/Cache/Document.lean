import CommentTemplate.Cache.Entry
import CommentTemplate.Proofs.Instant
import CommentTemplate.Proofs.Program.Document

/-!
# Entries are read back

An entry of the cache is read back from its stored form in every field, whatever characters its
texts are made of.  Only the instant has to be a real one.

## Main statements

* `CacheEntry.reads_toJson` — an entry is read back in every layout
* `CacheEntry.parse_document` — an entry is read back from its stored form
-/

namespace CommentTemplate

open Json

namespace CacheEntry

theorem reads_instantText {text : Text} {i : Instant} (h : Instant.parse? text = some i) :
    Reads instantReader (.string text) i := by
  intro l hl level blanks rest hblanks hrest
  simp only [instantReader]
  rw [reads_expecting (a := text) ?_ hl level hblanks hrest]
  · simp only [bind, Except.bind, h]
    rfl
  · rfl

theorem reads_instant {i : Instant} (h : i.IsReal) : Reads instantReader (.string i.text) i :=
  reads_instantText (Instant.parse?_text h)

theorem reads_names (names : List Text) (levels : Nat) :
    Reads (namesReader (levels + 1)) (.strings names) names := by
  refine reads_array ?_ fun v hv => ?_
  · rw [List.forall₂_map_left_iff, List.forall₂_same]
    exact fun name _ => reads_string name
  · obtain ⟨name, -, rfl⟩ := List.mem_map.1 hv
    exact .string name

/-- An entry is read back. -/
theorem reads_toJson {e : CacheEntry} (h : e.compiledAt.IsReal) (levels : Nat) :
    Reads (reader (levels + 4)) e.toJson e := by
  -- The fields stand in their declared order, and each of them once.
  refine Fills.reads_record (?_ : Fills fields (levels + 3) {} _ ⟨some e.key, some e.engineVersion,
      some e.compiledAt, some e.blocks, some e.placeholders, some e.program⟩) rfl
  refine .cons rfl rfl (reads_fieldOf (reads_string e.key) _) ?_
  refine .cons rfl rfl (reads_fieldOf (reads_string e.engineVersion) _) ?_
  refine .cons rfl rfl (reads_fieldOf (reads_instant h) _) ?_
  refine .cons rfl rfl (reads_fieldOf (reads_names e.blocks _) _) ?_
  refine .cons rfl rfl (reads_fieldOf (reads_names e.placeholders _) _) ?_
  refine .cons rfl rfl (reads_fieldOf (e.program.reads_toJson _) _) ?_
  exact .nil _

/-- **An entry is read back from its stored form.** -/
theorem parse_document {e : CacheEntry} (h : e.compiledAt.IsReal) :
    parse e.document = .ok e :=
  parse_pretty (reads_toJson h 123)

end CacheEntry

end CommentTemplate
