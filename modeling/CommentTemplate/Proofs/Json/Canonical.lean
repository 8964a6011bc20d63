import CommentTemplate.Proofs.Json.Printed

/-!
# Canonical documents

The canonical form of a value keeps its scalars and the order of its items, and it keeps of every
object what each name stands for.  Two values have one canonical document exactly if they have one
canonical form.

## Main statements

* `Value.lookup_eq_of_canonical_eq` — what a canonical object still says about a name
* `Value.Integral.canonicalText_eq_iff` — canonical documents and canonical forms
-/

namespace CommentTemplate.Json.Value

theorem canonicalItems_eq_map (vs : List Value) : canonicalItems vs = vs.map canonical := by
  induction vs with
  | nil => rfl
  | cons v vs ih => rw [canonicalItems, ih, List.map_cons]

theorem canonicalMembers_eq_map (ms : List (Text × Value)) :
    canonicalMembers ms = ms.map fun m => (m.1, m.2.canonical) := by
  induction ms with
  | nil => rfl
  | cons m ms ih => rw [canonicalMembers, ih, List.map_cons]

/-- The canonical form of an object determines the value of each name, its last member. -/
theorem lookup_eq_of_canonical_eq {ms ns : List (Text × Value)}
    (h : (object ms).canonical = (object ns).canonical) (name : Text) :
    Dict.lookup name (canonicalMembers ms).reverse =
      Dict.lookup name (canonicalMembers ns).reverse := by
  have member (ms : List (Text × Value)) :
      (Dict.ofList (canonicalMembers ms)).find? name =
        Dict.lookup name (canonicalMembers ms).reverse := by
    rw [Dict.ofList, Dict.find?_insertAll, Dict.find?_empty, Option.or_none]
  simp only [Value.canonical, Value.object.injEq] at h
  rw [← member, ← member, Dict.find?, Dict.find?, h]

/-- Sorting members makes no new ones. -/
theorem mem_of_mem_insertAll {d : Dict Value} {es : List (Text × Value)} {e : Text × Value}
    (h : e ∈ (d.insertAll es).entries) : e ∈ d.entries ∨ e ∈ es := by
  induction es generalizing d with
  | nil => exact .inl h
  | cons f es ih =>
      rcases ih h with h | h
      · rcases Dict.mem_insertSorted h with rfl | h
        · exact .inr List.mem_cons_self
        · exact .inl h
      · exact .inr (List.mem_cons_of_mem f h)

theorem Integral.canonical {v : Value} (h : v.Integral) : v.canonical.Integral := by
  induction h with
  | null => exact .null
  | bool b => exact .bool b
  | integer n => exact .integer n
  | string s => exact .string s
  | array _ ih =>
      rw [Value.canonical, canonicalItems_eq_map]
      refine .array fun w hw => ?_
      obtain ⟨v, hv, rfl⟩ := List.mem_map.1 hw
      exact ih v hv
  | object _ ih =>
      rw [Value.canonical, canonicalMembers_eq_map]
      refine .object fun n hn => ?_
      rcases mem_of_mem_insertAll hn with hn | hn
      · cases hn
      · obtain ⟨m, hm, rfl⟩ := List.mem_map.1 hn
        exact ih m hm

/-- Values with integers only have one canonical document exactly if they have one canonical
form. -/
theorem Integral.canonicalText_eq_iff {v w : Value} (hv : v.Integral) (hw : w.Integral) :
    v.canonicalText = w.canonicalText ↔ v.canonical = w.canonical :=
  ⟨hv.canonical.eq_of_compact_eq hw.canonical, congrArg compact⟩

end CommentTemplate.Json.Value
