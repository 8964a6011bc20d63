import CommentTemplate.Proofs.Json.Skipping
import CommentTemplate.Proofs.Program.Document

/-!
# The forms of a program

A program need not be written as the program itself would write it.  The fields of an object may
stand in any order and among others that mean nothing, a function may be given as null, and both
nodes and programs may be arrays.  In each of these forms a program is read as what it is, and it
is then written in a form that is read as the same program.

## Main definitions

* `Json.Only`, `Json.Lacks` — a name that an object has once, or not at all
* `Json.Offers` — the value that an object has for a name, if any
* `Node.Written`, `Program.Written` — the values that stand for a node and for a program

## Main statements

* `Node.foldlM_add` — the fields that are taken from members in any order
* `Node.reads_written`, `Program.reads_written` — every form is read
* `Program.parse_toJson` — what is written is read back, and so is what was read
-/

namespace CommentTemplate

open Json

namespace Json

/-! ## Names in an object -/

/-- A name that some members have once, for a value. -/
def Only (ms : List (Text × Value)) (name : Text) (v : Value) : Prop :=
  ms.filter (·.1 = name) = [(name, v)]

/-- A name that none of some members has. -/
def Lacks (ms : List (Text × Value)) (name : Text) : Prop := ms.filter (·.1 = name) = []

variable {ms : List (Text × Value)} {name : Text} {v : Value}

theorem Lacks.ne (h : Lacks ms name) {m : Text × Value} (hm : m ∈ ms) : m.1 ≠ name := by
  simpa using List.filter_eq_nil_iff.1 h m hm

/-- The members around the only one of a name. -/
theorem Only.exists_append (h : Only ms name v) :
    ∃ front back, ms = front ++ (name, v) :: back ∧ Lacks front name ∧ Lacks back name := by
  obtain ⟨front, back, rfl, hfront, -, hback⟩ := List.filter_eq_cons_iff.1 h
  exact ⟨front, back, rfl, List.filter_eq_nil_iff.2 hfront, hback⟩

/-- The value that some members have for a name, which at most one of them has. -/
def Offers (ms : List (Text × Value)) (name : Text) (v : Option Value) : Prop :=
  ms.filter (·.1 = name) = v.toList.map fun v => (name, v)

theorem offers_nil_iff {o : Option Value} : Offers [] name o ↔ o = none := by
  cases o <;> simp [Offers]

theorem offers_cons_of_eq {given : Text} (h : given = name) {o : Option Value} :
    Offers ((given, v) :: ms) name o ↔ some v = o ∧ Lacks ms name := by
  subst h
  rw [Offers, Lacks, List.filter_cons_of_pos (by simp)]
  cases o <;> simp

theorem offers_cons_of_ne {given : Text} (h : given ≠ name) {o : Option Value} :
    Offers ((given, v) :: ms) name o ↔ Offers ms name o := by
  rw [Offers, List.filter_cons_of_neg (by simpa using h)]
  rfl

end Json

/-! ## Nodes -/

namespace Node

variable {levels : Nat}

/-- The members of an object say which function is called. -/
inductive CallsIn (ms : List (Text × Value)) : Option Text → Prop where
  | absent (h : Lacks ms "function".toList) : CallsIn ms none
  | null (h : Only ms "function".toList .null) : CallsIn ms none
  | named {f : Text} (h : Only ms "function".toList (.string f)) : CallsIn ms (some f)

/-- A value stands for a node: an object with its fields among others, in any order, whose values
are nested at most `levels` deep, or an array that begins with the kind of step. -/
inductive Written (levels : Nat) : Value → Node → Prop where
  | object {ms : List (Text × Value)} {kind : NodeKind} {main : Text} {function : Option Text}
    (op : Only ms "op".toList (.string kind.label)) (field : Only ms kind.field (.string main))
    (calls : kind = .varRef → CallsIn ms function)
    (values : ∀ m ∈ ms, m.2.Fits ∧ m.2.depth ≤ levels) :
    Written levels (.object ms) (kind.node main function)
  | array (kind : NodeKind) (main : Text) :
    Written levels (.array [.string kind.label, .string main]) (kind.node main none)
  | arrayNull (name : Text) :
    Written levels (.array [.string NodeKind.varRef.label, .string name, .null])
      (.varRef name none)
  | arrayNamed (name function : Text) :
    Written levels (.array [.string NodeKind.varRef.label, .string name, .string function])
      (.varRef name (some function))

/-- Members besides the kind of step are kept in their canonical forms. -/
theorem folds_members {ms : List (Text × Value)} (hlacks : Lacks ms "op".toList)
    (hvalues : ∀ m ∈ ms, m.2.Fits ∧ m.2.depth ≤ levels) (p : Partial) :
    Folds (readMember levels) p ms
      { p with members := p.members ++ ms.map fun m => (m.1, m.2.canonical) } := by
  induction ms generalizing p with
  | nil => simpa using Folds.nil p
  | cons m ms ih =>
      have hname := hlacks.ne List.mem_cons_self
      rw [List.forall_mem_cons] at hvalues
      have hread := reads_value hvalues.1.1 hvalues.1.2
      have htail := ih (p := { p with members := p.members ++ [(m.1, m.2.canonical)] })
        (List.filter_eq_nil_iff.2 fun n hn => by simpa using hlacks.ne (List.mem_cons_of_mem m hn))
        hvalues.2
      rw [List.append_assoc] at htail
      exact .cons (stepReads_other hname hread) htail

/-- What is kept of some members besides the kind of step. -/
def kept (ms : List (Text × Value)) : List (Text × Value) :=
  (ms.filter (·.1 ≠ "op".toList)).map fun m => (m.1, m.2.canonical)

theorem filter_kept (ms : List (Text × Value)) {name : Text} (hname : name ≠ "op".toList) :
    (kept ms).filter (·.1 = name) =
      (ms.filter (·.1 = name)).map fun m => (m.1, m.2.canonical) := by
  rw [kept, List.filter_map, List.filter_filter]
  congr 1
  refine List.filter_congr fun m _ => Bool.eq_iff_iff.2 ?_
  simp only [Function.comp_apply, Bool.and_eq_true, decide_eq_true_eq, and_iff_left_iff_imp]
  rintro rfl
  exact hname

/-- The members of an object with the kind of step among them. -/
theorem folds_kind {ms : List (Text × Value)} {kind : NodeKind}
    (op : Only ms "op".toList (.string kind.label))
    (hvalues : ∀ m ∈ ms, m.2.Fits ∧ m.2.depth ≤ levels) :
    Folds (readMember levels) {} ms ⟨some kind, kept ms⟩ := by
  obtain ⟨front, back, rfl, hfront, hback⟩ := op.exists_append
  have hkept : kept (front ++ ("op".toList, .string kind.label) :: back) =
      (front ++ back).map fun m => (m.1, m.2.canonical) := by
    have hne {ms : List (Text × Value)} (h : Lacks ms "op".toList) :
        ms.filter (·.1 ≠ "op".toList) = ms :=
      List.filter_eq_self.2 fun m hm => by simpa using h.ne hm
    rw [kept, List.filter_append, List.filter_cons_of_neg (by simp), hne hfront, hne hback]
  simp only [List.forall_mem_append, List.forall_mem_cons] at hvalues
  have htail := folds_members hback hvalues.2.2
    ⟨some kind, front.map fun m => (m.1, m.2.canonical)⟩
  rw [← List.map_append, ← hkept] at htail
  exact (folds_members hfront hvalues.1 {}).append (.cons (stepReads_kind kind rfl) htail)

/-! ### The fields among the members -/

/-- The value that a function, or none, is given as. -/
def functionValue : Option Text → Value
  | none => .null
  | some g => .string g

theorem optionOf_functionValue (g : Option Text) : optionOf (functionValue g) = .ok g := by
  cases g <;> rfl

section Fields

variable {kind : NodeKind} {f : Fields} {ms : List (Text × Value)}

theorem add_main (h : f.main = none) (t : Text) :
    f.add kind (kind.field, .string t) = .ok { f with main := some t } := by
  rw [Fields.add, if_pos rfl, h]
  rfl

theorem add_function (h : f.function = none) (g : Option Text) :
    f.add .varRef ("function".toList, functionValue g) = .ok { f with function := some g } := by
  have hname : "function".toList ≠ NodeKind.varRef.field := by decide
  simp only [Fields.add, hname, ↓reduceIte, and_self, h, Option.isSome_none, Bool.false_eq_true,
    optionOf_functionValue]
  rfl

theorem add_other {m : Text × Value} (h : m.1 ≠ kind.field)
    (hf : kind = .varRef → m.1 ≠ "function".toList) : f.add kind m = .ok f := by
  rw [Fields.add, if_neg h, if_neg fun hm => hf hm.1 hm.2]
  rfl

/-- The fields after some members are those before and the ones that the members give. -/
theorem foldlM_add {main : Option Text} {function : Option (Option Text)}
    (hmain : Offers ms kind.field (main.map .string))
    (hfunction : kind = .varRef → Offers ms "function".toList (function.map functionValue))
    (hother : kind ≠ .varRef → function = none) (hf : f.main = none ∨ main = none)
    (hg : f.function = none ∨ function = none) :
    ms.foldlM (Fields.add kind) f = .ok ⟨f.main.or main, f.function.or function⟩ := by
  induction ms generalizing main function f with
  | nil =>
      obtain rfl : main = none := Option.map_eq_none_iff.1 (offers_nil_iff.1 hmain)
      obtain rfl : function = none := by
        by_cases hkind : kind = .varRef
        · exact Option.map_eq_none_iff.1 (offers_nil_iff.1 (hfunction hkind))
        · exact hother hkind
      rw [Option.or_none, Option.or_none]
      rfl
  | cons m ms ih =>
      obtain ⟨name, v⟩ := m
      rw [List.foldlM_cons]
      by_cases hname : name = kind.field
      · -- The member is the main field, so no other one is, here or before.
        obtain ⟨hv, hlacks⟩ := (offers_cons_of_eq hname).1 hmain
        have hrest : Offers ms kind.field ((none : Option Text).map .string) := hlacks
        obtain ⟨t, rfl, rfl⟩ := Option.map_eq_some_iff.1 hv.symm
        have hnone : f.main = none := hf.resolve_right (Option.some_ne_none t)
        have hcalls (hkind : kind = .varRef) :
            Offers ms "function".toList (function.map functionValue) := by
          subst hkind hname
          exact (offers_cons_of_ne (by decide)).1 (hfunction rfl)
        subst hname
        rw [add_main hnone, hnone]
        exact ih hrest hcalls hother (.inr rfl) hg
      · have hrest := (offers_cons_of_ne hname).1 hmain
        by_cases hcall : kind = .varRef ∧ name = "function".toList
        · obtain ⟨rfl, rfl⟩ := hcall
          obtain ⟨hv, hlacks⟩ := (offers_cons_of_eq rfl).1 (hfunction rfl)
          have hcalls : Offers ms "function".toList
            ((none : Option (Option Text)).map functionValue) := hlacks
          obtain ⟨g, rfl, rfl⟩ := Option.map_eq_some_iff.1 hv.symm
          have hnone : f.function = none := hg.resolve_right (Option.some_ne_none g)
          rw [add_function hnone, hnone]
          exact ih hrest (fun _ => hcalls) (fun _ => rfl) hf (.inr rfl)
        · have hcall (hkind : kind = .varRef) : name ≠ "function".toList :=
            fun h => hcall ⟨hkind, h⟩
          rw [add_other hname hcall]
          exact ih hrest (fun hkind => (offers_cons_of_ne (hcall hkind)).1 (hfunction hkind))
            hother hf hg

/-- The main field and the function are found among the members kept. -/
theorem ofMembers_kept {main : Text} {function : Option Text}
    (field : Only ms kind.field (.string main)) (calls : kind = .varRef → CallsIn ms function) :
    ofMembers kind (kept ms) = .ok (kind.node main function) := by
  have hmain : Offers (kept ms) kind.field (some (.string main)) := by
    rw [Offers, filter_kept ms (by cases kind <;> decide), field]
    rfl
  have hfunction (h : CallsIn ms function) : ∃ g : Option (Option Text),
      Offers (kept ms) "function".toList (g.map functionValue) ∧ g.getD none = function := by
    simp only [Offers, filter_kept ms (show "function".toList ≠ "op".toList by decide)]
    cases h with
    | absent h => exact ⟨none, by rw [h]; rfl, rfl⟩
    | null h => exact ⟨some none, by rw [h]; rfl, rfl⟩
    | @named g h => exact ⟨some (some g), by rw [h]; rfl, rfl⟩
  have hfold {g : Option (Option Text)}
      (hcalls : kind = .varRef → Offers (kept ms) "function".toList (g.map functionValue))
      (hother : kind ≠ .varRef → g = none) :
      (kept ms).foldlM (Fields.add kind) {} = .ok ⟨some main, g⟩ :=
    foldlM_add hmain hcalls hother (.inl rfl) (.inl rfl)
  by_cases hkind : kind = .varRef
  · obtain ⟨g, hcalls, rfl⟩ := hfunction (calls hkind)
    rw [ofMembers, hfold (fun _ => hcalls) (absurd hkind)]
    rfl
  · rw [ofMembers, hfold (absurd · hkind) fun _ => rfl]
    cases kind with
    | varRef => exact absurd rfl hkind
    | _ => rfl

end Fields

/-- A node is read from an array that begins with its kind. -/
theorem reads_array {kind : NodeKind} {vs ws : List Value} {n : Node}
    (h : List.Forall₂ (Reads (value levels)) vs ws) (hvs : ∀ v ∈ vs, v.Integral)
    (hn : ofItems kind ws = .ok n) :
    Reads (reader (levels + 1)) (.array (.string kind.label :: vs)) n := by
  intro l hl level blanks rest hblanks _
  have hkind := (NodeKind.reads_label kind).print hl (level + 1)
    (delimits_items hl (level + 1) level vs rest)
  have hlabel : (Value.string kind.label).Integral := .string _
  simp only [Value.print.eq_7, List.cons_append, List.append_assoc, List.nil_append, reader,
    skipSpace_append_cons hblanks (show isSpace '[' = false by decide), scalar, bind,
    Except.bind, List.drop_succ_cons, List.drop_zero,
    hasItem_first hlabel (hl.newline (level + 1)), ↓reduceIte, hkind]
  rw [items_printItems h hvs hl _ _ ?_]
  · simp only [hn]
    rfl
  · have hlength := length_le_printItems l (level + 1) vs
    simp only [List.length_append]
    omega

/-- A node is read in every form. -/
theorem reads_written {v : Value} {n : Node} (h : Written levels v n) :
    Reads (reader (levels + 1)) v n := by
  have hstring (s : Text) := reads_value_string levels s
  have hnull : Reads (value levels) .null .null := reads_value .null (Nat.zero_le _)
  cases h with
  | object op field calls values =>
      exact reads_object (folds_kind op values) (ofMembers_kept field calls)
  | array kind main =>
      exact reads_array (.cons (hstring main) .nil)
        (List.forall_mem_singleton.2 (.string _)) (by cases kind <;> rfl)
  | arrayNull name =>
      exact reads_array (.cons (hstring name) (.cons hnull .nil))
        (List.forall_mem_cons.2 ⟨.string _, List.forall_mem_singleton.2 .null⟩) rfl
  | arrayNamed name function =>
      exact reads_array (.cons (hstring name) (.cons (hstring function) .nil))
        (List.forall_mem_cons.2 ⟨.string _, List.forall_mem_singleton.2 (.string _)⟩) rfl

theorem Written.integral {v : Value} {n : Node} (h : Written levels v n) : v.Integral := by
  cases h with
  | object _ _ _ values => exact .object fun m hm => (values m hm).1.integral
  | _ => exact .array (by simp [Value.Integral.string, Value.Integral.null])

end Node

/-! ## Programs -/

namespace Program

/-- A value stands for a program: an object in which the nodes stand among fields that mean
nothing, or an array of the nodes alone. -/
inductive Written (levels : Nat) : Value → Program → Prop where
  | object {ms : List (Text × Value)} {vs : List Value} {nodes : List Node}
    (field : Only ms "nodes".toList (.array vs))
    (written : List.Forall₂ (Node.Written levels) vs nodes)
    (values : ∀ m ∈ ms, m.1 ≠ "nodes".toList → m.2.Integral) :
    Written levels (.object ms) ⟨nodes⟩
  | array {vs : List Value} {nodes : List Node}
    (written : List.Forall₂ (Node.Written levels) vs nodes) :
    Written levels (.array [.array vs]) ⟨nodes⟩

variable {levels : Nat} {vs : List Value} {nodes : List Node}

theorem reads_nodes (h : List.Forall₂ (Node.Written levels) vs nodes) :
    Reads (nodesReader (levels + 2)) (.array vs) nodes ∧ (Value.array vs).Integral := by
  have hvs : ∀ v ∈ vs, v.Integral := by
    induction h with
    | nil => exact List.forall_mem_nil _
    | cons hn _ ih => exact List.forall_mem_cons.2 ⟨hn.integral, ih⟩
  exact ⟨Json.reads_array (h.imp fun _ _ hn => Node.reads_written hn) hvs, .array hvs⟩

/-- A program is read from an object with its nodes among fields that mean nothing. -/
theorem reads_object {ms : List (Text × Value)} {v : Value} (field : Only ms "nodes".toList v)
    (h : Reads (nodesReader levels) v nodes)
    (values : ∀ m ∈ ms, m.1 ≠ "nodes".toList → m.2.Integral) :
    Reads (reader (levels + 1)) (.object ms) ⟨nodes⟩ := by
  obtain ⟨front, back, rfl, hfront, hback⟩ := field.exists_append
  have hunknown {ms : List (Text × Value)} (hlacks : Lacks ms "nodes".toList)
      (hms : ∀ m ∈ ms, m.1 ≠ "nodes".toList → m.2.Integral) (m : Text × Value) (hm : m ∈ ms) :
      fields.find? (·.name = m.1) = none ∧ m.2.Integral := by
    refine ⟨?_, hms m hm (hlacks.ne hm)⟩
    simpa [fields, Field.of] using (hlacks.ne hm).symm
  simp only [List.forall_mem_append, List.forall_mem_cons] at values
  have hfolds : Folds (recordMember fields levels) none
      (front ++ ("nodes".toList, v) :: back) (some nodes) :=
    (folds_unknown (hunknown hfront values.1)).append
      (.cons (stepReads_field rfl rfl (reads_fieldOf h _))
        (folds_unknown (hunknown hback values.2.2)))
  exact hfolds.reads_record rfl

/-- A program is read from an array of its nodes. -/
theorem reads_array {v : Value} (hv : v.Integral) (h : Reads (nodesReader levels) v nodes) :
    Reads (reader (levels + 1)) (.array [v]) ⟨nodes⟩ := by
  intro l hl level blanks rest hblanks _
  have hread := h.print hl (level + 1)
    (delimits_append_cons (hl.newline level) (show ']' ∈ [',', ':', ']', '}'] by decide) rest)
  have hend : endArray (l.newline level ++ ']' :: rest) = .ok rest := by
    rw [endArray, skipSpace_append_cons (hl.newline level) (by decide)]
    rfl
  simp only [Value.print, Value.printItems, List.cons_append, List.append_assoc, List.nil_append,
    reader, record, skipSpace_append_cons hblanks (show isSpace '[' = false by decide), scalar,
    bind, Except.bind, List.drop_succ_cons, List.drop_zero, fields, recordItems, decide_true,
    hasItem_first hv (hl.newline (level + 1)), ↓reduceIte, Field.of, hread]
  simp only [pure, Except.pure, require, Except.map, hend]

/-- A program is read in every form. -/
theorem reads_written {v : Value} {p : Program} (h : Written levels v p) :
    Reads (reader (levels + 3)) v p := by
  cases h with
  | object field written values => exact reads_object field (reads_nodes written).1 values
  | array written => exact reads_array (reads_nodes written).2 (reads_nodes written).1

/-- **Programs are read back.**  A program is read from the compact document that it is written as;
so whenever a text is read as a program, what that program is written as is read as the same
program.  All forms of a program are among these texts: a value that stands for a program, and is
not nested too deep in the members of nodes, is read as it from whatever document. -/
theorem parse_toJson :
    (∀ p : Program, parse p.toJson.compact = .ok p) ∧
    (∀ (t : Text) (p : Program), parse t = .ok p → parse p.toJson.compact = .ok p) ∧
    ∀ (v : Value) (p : Program) (t : Text), Written (maxNesting - 3) v p → IsDocument t v →
      parse t = .ok p := by
  have hback (p : Program) : parse p.toJson.compact = .ok p :=
    parse_of_reads (reads_toJson p 124) (isDocument_print isBlank_compact _)
  refine ⟨hback, fun _ p _ => hback p, fun v p t h ht => ?_⟩
  have hread : Reads (reader (maxNesting - 3 + 3)) v p := reads_written h
  exact parse_of_reads hread ht

/-- A program of four nodes, each in another form, behind a field that means nothing. -/
theorem parse_fourForms :
    let nodes : List Value := [
      .object [("block".toList, .string "ROW".toList), ("note".toList, .int (-7)),
        ("op".toList, .string "loop_open".toList)],
      .array [.string "var_ref".toList, .string "NAME".toList, .string "upper".toList],
      .object [("function".toList, .null), ("op".toList, .string "var_ref".toList),
        ("name".toList, .string "\"\n".toList)],
      .array [.string "loop_close".toList, .string "ROW".toList]]
    let v : Value := .object [("made".toList, .array [.null, .object []]),
      ("nodes".toList, .array nodes)]
    let p : Program := ⟨[.loopOpen "ROW".toList, .varRef "NAME".toList (some "upper".toList),
      .varRef "\"\n".toList none, .loopClose "ROW".toList]⟩
    parse v.pretty = .ok p ∧ parse p.toJson.compact = .ok p := by
  intro nodes v p
  have hint : (Value.number (.integer (-7))).Fits := .integer (by decide) (by decide)
  have hwritten : Written (maxNesting - 3) v p := by
    have hopen : Node.Written (maxNesting - 3) nodes[0] (NodeKind.node .loopOpen _ none) :=
      .object rfl rfl nofun (by simp [hint, Value.Fits.string, Value.depth, Value.int])
    have hquote : Node.Written (maxNesting - 3) nodes[2] (NodeKind.node .varRef _ none) :=
      .object rfl rfl (fun _ => .null rfl)
        (by simp [Value.Fits.string, Value.Fits.null, Value.depth])
    have hnodes : List.Forall₂ (Node.Written (maxNesting - 3)) nodes p.nodes :=
      .cons hopen (.cons (.arrayNamed _ _) (.cons hquote (.cons (.array .loopClose _) .nil)))
    exact .object rfl hnodes
      (by simp [Value.Integral.array, Value.Integral.null, Value.Integral.object])
  obtain ⟨-, hagain, hform⟩ := parse_toJson
  have hread := hform v p _ hwritten (isDocument_print isBlank_pretty v)
  exact ⟨hread, hagain _ p hread⟩

end Program

end CommentTemplate
