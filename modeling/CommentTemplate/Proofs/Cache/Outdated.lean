import CommentTemplate.Proofs.Cache.FiniteMap
import CommentTemplate.Proofs.Program.Forms

/-!
# Entries of other engines

The version of an entry is looked at once the entry was read.  So the file of another engine is
passed over and written again if it has all the fields of an entry, whatever else it has.  If it
lacks a field, it cannot be read, and then no template with its key is compiled.

## Main definitions

* `CacheEntry.Gives` — the fields that an object has, in whatever order

## Main statements

* `CacheEntry.parse_of_gives` — an object is an entry if it has all the fields
* `Cache.getOrCompile_of_other`, `Cache.getOrCompile_of_unreadable` — the two ways of a file
* `load_otherEngine` — which files of another engine are passed over
-/

namespace CommentTemplate

open Json

/-! ## Fields of an entry -/

namespace CacheEntry

/-- The names of the fields. -/
def fieldNames : List Text := fields.map (·.name)

/-- Reading the members of an object adds to the fields given: each field once, in any order, among
members of other names. -/
inductive Gives : Partial → List (Text × Value) → Partial → Prop where
  | nil (p : Partial) : Gives p [] p
  | key {p q : Partial} {ms : List (Text × Value)} (key : Text) (fresh : p.key = none)
    (h : Gives { p with key := some key } ms q) : Gives p (("key".toList, .string key) :: ms) q
  | engineVersion {p q : Partial} {ms : List (Text × Value)} (version : Text)
    (fresh : p.engineVersion = none) (h : Gives { p with engineVersion := some version } ms q) :
    Gives p (("engineVersion".toList, .string version) :: ms) q
  | compiledAt {p q : Partial} {ms : List (Text × Value)} {text : Text} {i : Instant}
    (instant : Instant.parse? text = some i) (fresh : p.compiledAt = none)
    (h : Gives { p with compiledAt := some i } ms q) :
    Gives p (("compiledAt".toList, .string text) :: ms) q
  | blocks {p q : Partial} {ms : List (Text × Value)} (names : List Text)
    (fresh : p.blocks = none) (h : Gives { p with blocks := some names } ms q) :
    Gives p (("blocks".toList, .strings names) :: ms) q
  | placeholders {p q : Partial} {ms : List (Text × Value)} (names : List Text)
    (fresh : p.placeholders = none) (h : Gives { p with placeholders := some names } ms q) :
    Gives p (("placeholders".toList, .strings names) :: ms) q
  | program {p q : Partial} {ms : List (Text × Value)} {v : Value} {program : Program}
    (written : Program.Written (maxNesting - 4) v program) (fresh : p.program = none)
    (h : Gives { p with program := some program } ms q) : Gives p (("program".toList, v) :: ms) q
  | other {p q : Partial} {ms : List (Text × Value)} {name : Text} {v : Value}
    (unknown : name ∉ fieldNames) (integral : v.Integral) (h : Gives p ms q) :
    Gives p ((name, v) :: ms) q

theorem Gives.folds {p q : Partial} {ms : List (Text × Value)} (h : Gives p ms q) :
    Folds (recordMember fields (maxNesting - 1)) p ms q := by
  induction h with
  | nil p => exact .nil p
  | key key fresh _ ih => exact .cons (stepReads_fieldOf rfl fresh (reads_string key)) ih
  | engineVersion version fresh _ ih =>
      exact .cons (stepReads_fieldOf rfl fresh (reads_string version)) ih
  | compiledAt instant fresh _ ih =>
      exact .cons (stepReads_fieldOf rfl fresh (reads_instantText instant)) ih
  | blocks names fresh _ ih =>
      exact .cons (stepReads_fieldOf rfl fresh (reads_names names 125)) ih
  | placeholders names fresh _ ih =>
      exact .cons (stepReads_fieldOf rfl fresh (reads_names names 125)) ih
  | program written fresh _ ih =>
      exact .cons (stepReads_fieldOf rfl fresh (Program.reads_written written)) ih
  | @other _ _ _ name _ unknown integral _ ih =>
      refine .cons (stepReads_unknown (List.find?_eq_none.2 fun f hf => ?_) integral) ih
      rw [decide_eq_true_eq]
      rintro rfl
      exact unknown (List.mem_map_of_mem hf)

/-- An object is an entry if it has all the fields; otherwise the first field that is missing is the
fault. -/
theorem parse_of_gives {given : Partial} {ms : List (Text × Value)} {t : Text}
    (h : Gives {} ms given) (ht : IsDocument t (.object ms)) :
    (∀ e, given.complete = .ok e → parse t = .ok e) ∧
    ∀ cause, given.complete = .error cause →
      ∃ error, error.cause = cause ∧ parse t = .error error := by
  obtain ⟨l, before, after, hl, hbefore, hafter, rfl⟩ := ht
  have hread : reader maxNesting (before ++ ((Value.object ms).print l 0 ++ after)) = _ :=
    h.folds.record_object hl 0 hbefore after
  rw [parse, Json.parse, hread]
  constructor
  · intro e he
    simp only [he, skipSpace_blanks hafter]
  · intro cause hcause
    exact ⟨(Fault.before cause after).locate _, rfl, by simp only [hcause]; rfl⟩

/-- The fields of a whole entry were all given. -/
theorem Partial.eq_of_complete {p : Partial} {e : CacheEntry} (h : p.complete = .ok e) :
    p = ⟨some e.key, some e.engineVersion, some e.compiledAt, some e.blocks, some e.placeholders,
      some e.program⟩ := by
  obtain ⟨_ | key, _ | version, _ | instant, _ | blocks, _ | placeholders, _ | program⟩ := p
  all_goals cases h
  rfl

end CacheEntry

/-! ## Files of the cache -/

namespace FileTree

/-- A file is written over. -/
theorem exists_write_of_file {t : FileTree} {path : Text} {old : ByteArray}
    (h : t.status path = .file old) (bytes : ByteArray) :
    ∃ u, t.write path bytes = .ok u ∧ u.status path = .file bytes := by
  cases hresolve : t.resolve path with
  | error why =>
      rw [status, hresolve] at h
      cases h
  | ok p =>
      rw [status_of_resolve hresolve] at h
      have hp : t.isDirAt p = false := by
        rw [← Bool.not_eq_true, ← statusAt_eq_directory_iff, h]
        simp
      refine ⟨_, write_of_resolve hresolve hp (by simp [h]), ?_⟩
      rw [status_of_resolve (resolve_put_eq_ok_iff.2 hresolve), statusAt_put hp, if_pos rfl]

end FileTree

namespace Cache

/-- The file of a key is passed over: nothing is loaded, and a template with that key is compiled
and stored in its place. -/
structure PassesOver (c : Cache) (s : Cache.State) (key : Text) : Prop where
  load : c.load s.tree.status key = .ok none
  getOrCompile (source : Text) (loader : Option Loader) (r : Compiled) (now : Instant)
    (hkey : s.session.settings.keyFor source = key)
    (hr : s.session.settings.compile loader source = .ok r) :
    ∃ tree, c.getOrCompile s loader now source =
        (⟨tree, s.session.after r⟩, .ok (.ofCompiled key now r, .miss)) ∧
      tree.status (c.pathFor key) =
        .file (encodeUtf8 (CacheEntry.ofCompiled key now r).document)

/-- The file of a key is in the way: it cannot be loaded, and no template with that key is
compiled, whatever it is. -/
structure StopsAt (c : Cache) (s : Cache.State) (key : Text) (cause : Json.Error) : Prop where
  load : c.load s.tree.status key = .error (.serialization cause)
  getOrCompile (source : Text) (loader : Option Loader) (now : Instant)
    (hkey : s.session.settings.keyFor source = key) :
    c.getOrCompile s loader now source = (s, .error (.serialization cause))

variable {c : Cache} {s : Cache.State} {key content : Text}

/-- The file of a key, where it was put. -/
theorem Opens.status_put {t : FileTree} {p : Place} (h : c.Opens t p) (hkey : IsKey key)
    (hplace : t.isDirAt (p ++ [fileName key]) = false) (bytes : ByteArray) :
    (t.put (p ++ [fileName key]) bytes).status (c.pathFor key) = .file bytes := by
  rw [FileTree.status_of_resolve (h.put.resolve hkey), FileTree.statusAt_put hplace, if_pos rfl]

/-- An entry of another engine is passed over. -/
theorem passesOver_of_parse
    (hfile : s.tree.status (c.pathFor key) = .file (encodeUtf8 content)) {e : CacheEntry}
    (he : CacheEntry.parse content = .ok e) (hother : ¬SameRelease e.engineVersion) :
    c.PassesOver s key := by
  have hload : c.load s.tree.status key = .ok none := by
    rw [← isCompatible_iff] at hother
    simp only [load, hfile, FileStatus.isFile, ↓reduceIte, FileStatus.text_file, he,
      if_neg hother]
  refine ⟨hload, ?_⟩
  rintro source loader r now rfl hr
  obtain ⟨tree, hwrite, hstatus⟩ := FileTree.exists_write_of_file hfile
    (encodeUtf8 (CacheEntry.ofCompiled (s.session.settings.keyFor source) now r).document)
  have hstore : c.store s.tree (.ofCompiled (s.session.settings.keyFor source) now r) =
      .ok tree := by
    rw [store]
    simp only [CacheEntry.ofCompiled] at hwrite ⊢
    rw [hwrite]
  exact ⟨tree, by simp only [getOrCompile, hload, CacheEntry.compile_of_ok hr, hstore], hstatus⟩

/-- A file that cannot be read is in the way. -/
theorem stopsAt_of_parse
    (hfile : s.tree.status (c.pathFor key) = .file (encodeUtf8 content)) {cause : Json.Error}
    (hcause : CacheEntry.parse content = .error cause) : c.StopsAt s key cause := by
  have hload : c.load s.tree.status key = .error (.serialization cause) := by
    simp only [load, hfile, FileStatus.isFile, ↓reduceIte, FileStatus.text_file, hcause]
  refine ⟨hload, ?_⟩
  rintro source loader now rfl
  simp only [getOrCompile, hload]

end Cache

/-- **Which files of another engine are passed over.**  If the file of a key holds a whole entry of
an engine of another release, it is passed over.  If it does not hold a whole entry, then whatever
version it names, it is in the way.  So an object that names another release, and in which every
field that is given is well formed, is passed over if no field is missing, whatever else it has and
in whatever order, and otherwise it is in the way. -/
theorem load_otherEngine {c : Cache} {s : Cache.State} {key content : Text}
    (hfile : s.tree.status (c.pathFor key) = .file (encodeUtf8 content)) :
    (∀ e, CacheEntry.parse content = .ok e → ¬SameRelease e.engineVersion →
      c.PassesOver s key) ∧
    (∀ cause, CacheEntry.parse content = .error cause → c.StopsAt s key cause) ∧
    ∀ ms given version, CacheEntry.Gives {} ms given → IsDocument content (.object ms) →
      given.engineVersion = some version → ¬SameRelease version →
      (∀ e, given.complete = .ok e → c.PassesOver s key) ∧
      ∀ cause, given.complete = .error cause →
        ∃ error, error.cause = cause ∧ c.StopsAt s key error := by
  refine ⟨fun _ he => Cache.passesOver_of_parse hfile he,
    fun _ hcause => Cache.stopsAt_of_parse hfile hcause, ?_⟩
  intro ms given version hgives hdocument hversion hother
  obtain ⟨hwhole, hmissing⟩ := CacheEntry.parse_of_gives hgives hdocument
  refine ⟨fun e he => ?_, fun cause hcause => ?_⟩
  · rw [CacheEntry.Partial.eq_of_complete he, Option.some.injEq] at hversion
    exact Cache.passesOver_of_parse hfile (hwhole e he) (hversion ▸ hother)
  · obtain ⟨error, herror, hparse⟩ := hmissing cause hcause
    exact ⟨error, herror, Cache.stopsAt_of_parse hfile hparse⟩

/-- The file of an older engine, which counted hits and wrote the version first, is passed over. -/
theorem load_olderEngine :
    let key := Settings.keyFor {} ['x']
    let older : Value := .object [("engineVersion".toList, .string "0.9.0".toList),
      ("hits".toList, .object [("today".toList, .int 3)]), ("program".toList, .array [.array []]),
      ("placeholders".toList, .strings []), ("blocks".toList, .strings ["ROW".toList]),
      ("key".toList, .string key), ("compiledAt".toList, .string Moment.noon.instant.text)]
    let s : Cache.State :=
      ⟨(FileTree.empty []).put [fileName key] (encodeUtf8 older.pretty), .start {}⟩
    Cache.load ⟨['.']⟩ s.tree.status key = .ok none ∧ ∃ s' entry,
      Cache.getOrCompile ⟨['.']⟩ s none Moment.noon.instant ['x'] = (s', .ok (entry, .miss)) := by
  intro key older s
  have hopen : Cache.Opens ⟨['.']⟩ (FileTree.empty []) [] := ⟨FileTree.leads_cwd _, by decide⟩
  have hfile : s.tree.status (Cache.pathFor ⟨['.']⟩ key) = .file (encodeUtf8 older.pretty) :=
    hopen.status_put (isKey_sha256Hex _) rfl _
  have hprogram : Program.Written (maxNesting - 4) (.array [.array []]) ⟨[]⟩ := .array .nil
  have hhits : (Value.object [("today".toList, .int 3)]).Integral :=
    .object (List.forall_mem_singleton.2 (.integer 3))
  have hunknown : "hits".toList ∉ CacheEntry.fieldNames := by decide
  have hgives : CacheEntry.Gives {} _ ⟨some key, some "0.9.0".toList, some Moment.noon.instant,
      some ["ROW".toList], some [], some ⟨[]⟩⟩ :=
    .engineVersion _ rfl <| .other hunknown hhits <| .program hprogram rfl <|
      .placeholders [] rfl <| .blocks ["ROW".toList] rfl <| .key key rfl <|
      .compiledAt (Instant.parse?_text Moment.noon.isReal) rfl <| .nil _
  have holder : ¬SameRelease "0.9.0".toList := by
    rw [← isCompatible_iff]
    decide
  have hpasses := ((load_otherEngine hfile).2.2 _ _ _ hgives (isDocument_print isBlank_pretty _) rfl
    holder).1 _ rfl
  obtain ⟨tree, hanswer, -⟩ := hpasses.getOrCompile ['x'] none ⟨⟨[.literal ['x']]⟩, [], []⟩
    Moment.noon.instant rfl (by decide +kernel)
  exact ⟨hpasses.load, _, _, hanswer⟩

/-- An object with nothing but the version of an older engine is in the way, though the template
with that key can be compiled. -/
theorem load_versionAlone :
    let key := Settings.keyFor {} ['x']
    let older : Value := .object [("engineVersion".toList, .string "0.9.0".toList)]
    let s : Cache.State :=
      ⟨(FileTree.empty []).put [fileName key] (encodeUtf8 older.compact), .start {}⟩
    s.tree.status (Cache.pathFor ⟨['.']⟩ key) = .file (encodeUtf8 older.compact) ∧
    ¬SameRelease "0.9.0".toList ∧ (∃ r, Settings.compile {} none ['x'] = .ok r) ∧
    Cache.load ⟨['.']⟩ s.tree.status key ≠ .ok none ∧
    ∀ now, ∃ cause,
      Cache.getOrCompile ⟨['.']⟩ s none now ['x'] = (s, .error (.serialization cause)) := by
  intro key older s
  have hopen : Cache.Opens ⟨['.']⟩ (FileTree.empty []) [] := ⟨FileTree.leads_cwd _, by decide⟩
  have hfile : s.tree.status (Cache.pathFor ⟨['.']⟩ key) = .file (encodeUtf8 older.compact) :=
    hopen.status_put (isKey_sha256Hex _) rfl _
  have hgives : CacheEntry.Gives {} _ { engineVersion := some "0.9.0".toList } :=
    .engineVersion _ rfl (.nil _)
  obtain ⟨cause, -, hparse⟩ := (CacheEntry.parse_of_gives hgives
    (isDocument_print isBlank_compact older)).2 (.missingField "key".toList) rfl
  have hstops := Cache.stopsAt_of_parse hfile hparse
  refine ⟨hfile, ?_, ⟨⟨⟨[.literal ['x']]⟩, [], []⟩, by decide +kernel⟩, ?_, fun now => ⟨cause, ?_⟩⟩
  · rw [← isCompatible_iff]
    decide
  · rw [hstops.load]
    nofun
  · exact hstops.getOrCompile ['x'] none now rfl

end CommentTemplate
