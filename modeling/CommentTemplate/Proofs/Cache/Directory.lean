import Mathlib.Data.List.Find
import CommentTemplate.Cache
import CommentTemplate.Proofs.Cache.Document
import CommentTemplate.Proofs.Cache.Keys
import CommentTemplate.Proofs.Compile.Session
import CommentTemplate.Proofs.Files.Places

/-!
# The directory of a cache

A directory in which nothing but the cache writes is a finite map: the entry that was stored last
under a key is loaded, and the other keys are not touched.  The work of the cache is described by
what was filed in the directory so far, compilations with their jobs.

## Main definitions

* `IsKey` — the texts that keys are
* `Cache.Opens` — the cache works in the directory at a place, and its paths are short enough
* `Holds` — what there is in a directory after entries were stored
* `Filing` — a compilation that was filed
* `Serves` — the three ways in which the cache serves a session

## Main statements

* `Holds.load`, `Holds.store` — the directory as a finite map
* `Holds.getOrCompile` — what the cache answers and leaves behind, by one of three cases
* `Cache.getOrCompile_of_long` — in a directory whose path is too long nothing new is answered
-/

namespace CommentTemplate

/-! ## The names of the files -/

/-- A key is a hash: sixty-four hexadecimal digits. -/
structure IsKey (key : Text) : Prop where
  length : key.length = 64
  digits : ∀ c ∈ key, c ∈ "0123456789abcdef".toList

theorem isKey_sha256Hex (t : Text) : IsKey (sha256Hex t) :=
  ⟨length_sha256HexOf _, fun _ => mem_sha256HexOf⟩

/-- The name of the file for a key. -/
def fileName (key : Text) : Text := key ++ ".json".toList

theorem fileName_inj {j k : Text} : fileName j = fileName k ↔ j = k := List.append_left_inj _

/-- The number of bytes of the name of a file. -/
def fileNameSize : Nat := 69

theorem utf8Size_of_forall_one {t : Text} (h : ∀ c ∈ t, c.utf8Size = 1) :
    Text.utf8Size t = t.length := by
  induction t with
  | nil => rfl
  | cons c t ih =>
      rw [List.forall_mem_cons] at h
      rw [Text.utf8Size_cons, h.1, ih h.2, List.length_cons, Nat.add_comm]

namespace IsKey

variable {key : Text}

theorem utf8Size_fileName (h : IsKey key) : Text.utf8Size (fileName key) = fileNameSize := by
  have hdigits : ("0123456789abcdef".toList.all fun c => c.utf8Size == 1) = true := by decide
  simp only [List.all_eq_true, beq_iff_eq] at hdigits
  rw [fileName, Text.utf8Size_append,
    utf8Size_of_forall_one fun c hc => hdigits c (h.digits c hc), h.length]
  rfl

theorem isName_fileName (h : IsKey key) : Path.IsName (fileName key) := by
  have hnot {c : Char} (hc : c ∉ "0123456789abcdef".toList) (hc' : c ∉ ".json".toList) :
      c ∉ fileName key := by
    intro hmem
    rcases List.mem_append.1 hmem with hmem | hmem
    · exact hc (h.digits c hmem)
    · exact hc' hmem
  have hlength : (fileName key).length = 69 := by rw [fileName, List.length_append, h.length]; rfl
  refine ⟨hnot (by decide) (by decide), hnot (by decide) (by decide), ?_, ?_, ?_, ?_⟩
  · intro heq
    rw [heq] at hlength
    cases hlength
  · intro heq
    rw [heq] at hlength
    cases hlength
  · intro heq
    rw [heq] at hlength
    cases hlength
  · rw [Path.fits, h.utf8Size_fileName]
    rfl

end IsKey

/-! ## The directory as a finite map -/

/-- A cache works in the directory at a place, and the paths of its files are short enough. -/
structure Cache.Opens (c : Cache) (t : FileTree) (p : Place) : Prop where
  leads : t.Leads c.dir p
  room : Path.room c.dir + fileNameSize < Path.maxSize

theorem Cache.open?_eq_ok_iff {t : FileTree} {dir : Text} {c : Cache} :
    Cache.open? t.status dir = .ok c ↔ c = ⟨dir⟩ ∧ ∃ p, t.Leads dir p := by
  have hdir : (t.status dir).isDir = true ↔ t.status dir = .directory := by
    cases t.status dir <;> simp [FileStatus.isDir]
  rw [Cache.open?, ← FileTree.status_eq_directory_iff, ← hdir]
  split
  · next h => simp [h, eq_comm]
  · next h => simp [h]

/-- In a directory there are the files of some entries, the latest first, and nothing else. -/
structure Holds (t : FileTree) (p : Place) (log : List CacheEntry) : Prop where
  real : ∀ e ∈ log, e.compiledAt.IsReal
  status : ∀ name, t.statusAt (p ++ [name]) =
    match log.find? fun e => fileName e.key = name with
    | some e => .file (encodeUtf8 e.document)
    | none => .absent .missing

section FiniteMap

variable {c : Cache} {t : FileTree} {p : Place} {key : Text} {log : List CacheEntry}

theorem Cache.Opens.resolve (h : c.Opens t p) (hkey : IsKey key) :
    t.resolve (c.pathFor key) = .ok (p ++ [fileName key]) :=
  h.leads.resolve_join hkey.isName_fileName
    (lt_of_eq_of_lt (congrArg _ hkey.utf8Size_fileName) h.room)

theorem Cache.Opens.put (h : c.Opens t p) {q : Place} {bytes : ByteArray} :
    c.Opens (t.put q bytes) p :=
  ⟨h.leads.put, h.room⟩

/-- The entry stored last under a key is loaded, unless it is of another version. -/
theorem Holds.load (h : Holds t p log) (hopen : c.Opens t p) (hkey : IsKey key) :
    c.load t.status key =
      .ok ((log.find? (·.key = key)).filter fun e => isCompatible e.engineVersion) := by
  have hstatus := FileTree.status_of_resolve (hopen.resolve hkey)
  simp only [h.status, fileName_inj] at hstatus
  rw [Cache.load]
  simp only [hstatus]
  cases hfind : log.find? (·.key = key) with
  | none => rfl
  | some e =>
      have hparse := CacheEntry.parse_document (h.real e (List.mem_of_find?_eq_some hfind))
      simp only [FileStatus.isFile, ↓reduceIte, FileStatus.text_file, hparse, Option.filter]

/-- No directory has the place of a file. -/
theorem Holds.isDirAt_eq_false (h : Holds t p log) (name : Text) :
    t.isDirAt (p ++ [name]) = false := by
  rw [← Bool.not_eq_true, ← FileTree.statusAt_eq_directory_iff, h.status]
  split <;> nofun

/-- No file of the directory is sealed. -/
theorem Holds.not_unreadable (h : Holds t p log) (name : Text) (why : ReadFailure) :
    t.statusAt (p ++ [name]) ≠ .unreadable why := by
  rw [h.status]
  split <;> nofun

/-- A stored entry is added to those of the directory. -/
theorem Holds.store (h : Holds t p log) (hopen : c.Opens t p) {e : CacheEntry}
    (hkey : IsKey e.key) (hreal : e.compiledAt.IsReal) :
    c.store t e = .ok (t.put (p ++ [fileName e.key]) (encodeUtf8 e.document)) ∧
      Holds (t.put (p ++ [fileName e.key]) (encodeUtf8 e.document)) p (e :: log) := by
  have hplace := h.isDirAt_eq_false (fileName e.key)
  refine ⟨?_, ⟨?_, fun name => ?_⟩⟩
  · rw [Cache.store]
    simp only [FileTree.write_of_resolve (hopen.resolve hkey) hplace (h.not_unreadable _)]
  · rw [List.forall_mem_cons]
    exact ⟨hreal, h.real⟩
  · rw [FileTree.statusAt_put hplace, List.find?_cons]
    by_cases hname : name = fileName e.key
    · simp [hname]
    · simp [hname, Ne.symm hname, h.status]

end FiniteMap

/-! ## Filed compilations -/

/-- A compilation that was filed: its job, its time and what it gave. -/
structure Filing where
  /-- The job. -/
  job : Job
  /-- The time. -/
  now : Moment
  /-- What the compilation gave. -/
  compiled : Compiled

/-- The entry of a filed compilation. -/
def Filing.entry (f : Filing) : CacheEntry :=
  .ofCompiled f.job.key f.now.instant f.compiled

/-- The running engine can use its own entries. -/
theorem isCompatible_engineVersion : isCompatible engineVersion = true := by
  rw [isCompatible, parse?_engineVersion]
  rfl

theorem Job.isKey_key (j : Job) : IsKey j.key := isKey_sha256Hex _

/-- A filed compilation is found by its key exactly if it is found by its job. -/
theorem find?_entry {filings : List Filing} {j : Job}
    (hfree : CollisionFree (filings.flatMap (·.job.texts) ++ j.texts)) :
    (filings.map Filing.entry).find? (·.key = j.key) =
      (filings.find? (·.job = j)).map Filing.entry := by
  rw [List.find?_map]
  congr 1
  refine List.find?_congr fun f hf => decide_eq_decide.2 ⟨fun hkey => ?_, fun hjob => ?_⟩
  · refine Job.eq_of_key_eq (hfree.mono fun t ht => ?_) hkey
    rcases List.mem_append.1 ht with ht | ht
    · exact List.mem_append_left _ (List.mem_flatMap.2 ⟨f, hf, ht⟩)
    · exact List.mem_append_right _ ht
  · exact hjob ▸ rfl

section Compile

variable {c : Session} {loader : Option Loader} {source key : Text}

theorem CacheEntry.compile_of_ok {r : Compiled} (h : c.settings.compile loader source = .ok r)
    (now : Instant) :
    CacheEntry.compile c loader now source key = (c.after r, .ok (.ofCompiled key now r)) := by
  rw [CacheEntry.compile, Session.compile_of_ok h]
  rfl

theorem CacheEntry.compile_of_error {e : CompileError}
    (h : c.settings.compile loader source = .error e) (now : Instant) :
    CacheEntry.compile c loader now source key = (c, .error e) := by
  rw [CacheEntry.compile, Session.compile_of_error h]
  rfl

end Compile

section GetOrCompile

variable {c : Cache} {p : Place} {filings : List Filing} {s : Cache.State}
  {loader : Option Loader} {source : Text}

/-- What the cache answers when a template is compiled in a session, with the state it leaves, and
what is filed afterwards. -/
inductive Serves (p : Place) (filings : List Filing) (s : Cache.State) (loader : Option Loader)
    (source : Text) :
    Cache.State × Except CacheError (CacheEntry × CacheStatus) → List Filing → Prop where
  /-- A filed compilation is answered, and nothing changes. -/
  | hit {f : Filing} (hf : f ∈ filings) (hjob : f.job = ⟨s.session.settings, source⟩) :
    Serves p filings s loader source (s, .ok (f.entry, .hit)) filings
  /-- A job that was not filed and fails leaves everything as it was. -/
  | failed {e : CompileError} (hnew : ∀ f ∈ filings, f.job ≠ ⟨s.session.settings, source⟩)
    (he : s.session.settings.compile loader source = .error e) :
    Serves p filings s loader source (s, .error (.compile e)) filings
  /-- A job that was not filed and succeeds is filed. -/
  | miss {f : Filing} {bytes : ByteArray}
    (hnew : ∀ f ∈ filings, f.job ≠ ⟨s.session.settings, source⟩)
    (hjob : f.job = ⟨s.session.settings, source⟩)
    (hr : s.session.settings.compile loader source = .ok f.compiled) :
    Serves p filings s loader source
      (⟨s.tree.put (p ++ [fileName f.job.key]) bytes, s.session.after f.compiled⟩,
        .ok (f.entry, .miss)) (f :: filings)

/-- What the cache loads for a job is what was filed for it. -/
theorem Holds.load_key {t : FileTree} (h : Holds t p (filings.map Filing.entry))
    (hopen : c.Opens t p) {j : Job}
    (hfree : CollisionFree (filings.flatMap (·.job.texts) ++ j.texts)) :
    c.load t.status j.key = .ok ((filings.find? (·.job = j)).map Filing.entry) := by
  rw [h.load hopen j.isKey_key, find?_entry hfree]
  cases filings.find? (·.job = j) with
  | none => rfl
  | some f =>
      have hversion : isCompatible f.entry.engineVersion = true := isCompatible_engineVersion
      simp [Option.filter, hversion]

/-- **The cache answers what was filed for a job**, or else compiles and files it. -/
theorem Holds.getOrCompile (h : Holds s.tree p (filings.map Filing.entry))
    (hopen : c.Opens s.tree p)
    (hfree : CollisionFree (filings.flatMap (·.job.texts) ++
      (Job.mk s.session.settings source).texts)) (now : Moment) :
    ∃ filings', Serves p filings s loader source
        (c.getOrCompile s loader now.instant source) filings' ∧
      Holds (c.getOrCompile s loader now.instant source).1.tree p
        (filings'.map Filing.entry) := by
  have hload := h.load_key hopen hfree
  simp only [Job.key] at hload
  cases hfind : filings.find? (·.job = ⟨s.session.settings, source⟩) with
  | some f =>
      have hget : c.getOrCompile s loader now.instant source = (s, .ok (f.entry, .hit)) := by
        simp only [Cache.getOrCompile, hload, hfind, Option.map_some]
      rw [hget]
      have hjob := List.find?_some hfind
      exact ⟨filings, .hit (List.mem_of_find?_eq_some hfind) (of_decide_eq_true hjob), h⟩
  | none =>
      have hnew : ∀ f ∈ filings, f.job ≠ ⟨s.session.settings, source⟩ := by
        simpa using List.find?_eq_none.1 hfind
      cases hr : s.session.settings.compile loader source with
      | error e =>
          have hget : c.getOrCompile s loader now.instant source =
              (s, .error (.compile e)) := by
            simp only [Cache.getOrCompile, hload, hfind, Option.map_none,
              CacheEntry.compile_of_error hr]
          rw [hget]
          exact ⟨filings, .failed hnew hr, h⟩
      | ok r =>
          let f : Filing := ⟨⟨s.session.settings, source⟩, now, r⟩
          have hentry : f.entry = .ofCompiled (s.session.settings.keyFor source) now.instant r :=
            rfl
          obtain ⟨hstore, hholds⟩ := h.store hopen (e := f.entry) f.job.isKey_key now.isReal
          have hget : c.getOrCompile s loader now.instant source =
              (⟨s.tree.put (p ++ [fileName f.job.key]) (encodeUtf8 f.entry.document),
                s.session.after r⟩, .ok (f.entry, .miss)) := by
            rw [hentry] at hstore
            simp only [Cache.getOrCompile, hload, hfind, Option.map_none,
              CacheEntry.compile_of_ok hr, hstore]
            rfl
          rw [hget]
          exact ⟨f :: filings, .miss hnew rfl hr, hholds⟩

namespace Serves

variable {r : Cache.State × Except CacheError (CacheEntry × CacheStatus)} {filings' : List Filing}

theorem opens (h : Serves p filings s loader source r filings') (hopen : c.Opens s.tree p) :
    c.Opens r.1.tree p := by
  cases h with
  | hit => exact hopen
  | failed => exact hopen
  | miss => exact hopen.put

/-- Only the job at hand may be filed. -/
theorem mem (h : Serves p filings s loader source r filings') {f : Filing} (hf : f ∈ filings') :
    f ∈ filings ∨ f.job = ⟨s.session.settings, source⟩ ∧
      s.session.settings.compile loader source = .ok f.compiled := by
  cases h with
  | hit => exact .inl hf
  | failed => exact .inl hf
  | miss _ hjob hr =>
      rcases List.mem_cons.1 hf with rfl | hf
      · exact .inr ⟨hjob, hr⟩
      · exact .inl hf

/-- A job is filed if it was before, or if it is the one at hand and was answered. -/
theorem exists_job_iff (h : Serves p filings s loader source r filings') (j : Job) :
    (∃ f ∈ filings', f.job = j) ↔
      (⟨s.session.settings, source⟩ = j ∧ ∃ a, r.2 = .ok a) ∨ ∃ f ∈ filings, f.job = j := by
  cases h with
  | @hit f hf hjob =>
      refine ⟨.inr, ?_⟩
      rintro (⟨hj, -⟩ | h)
      · exact ⟨f, hf, hjob.trans hj⟩
      · exact h
  | failed => simp
  | miss _ hjob => simp [hjob]

end Serves

end GetOrCompile

/-! ## A directory whose path is too long -/

/-- In a directory whose path is too long no key has a file. -/
theorem Cache.resolve_of_long {c : Cache} {t : FileTree} {p : Place} (hleads : t.Leads c.dir p)
    (hlong : Path.maxSize ≤ Path.room c.dir + fileNameSize) {key : Text} (hkey : IsKey key) :
    t.resolve (c.pathFor key) = .error .nameTooLong :=
  hleads.resolve_join_of_long hkey.isName_fileName
    (le_of_le_of_eq hlong (congrArg _ hkey.utf8Size_fileName.symm))

/-- In a directory whose path is too long nothing is found. -/
theorem Cache.load_of_long {c : Cache} {t : FileTree} {p : Place} (hleads : t.Leads c.dir p)
    (hlong : Path.maxSize ≤ Path.room c.dir + fileNameSize) {key : Text} (hkey : IsKey key) :
    c.load t.status key = .ok none := by
  simp only [Cache.load, FileTree.status, Cache.resolve_of_long hleads hlong hkey]
  rfl

/-- In a directory whose path is too long nothing can be stored. -/
theorem Cache.store_of_long {c : Cache} {t : FileTree} {p : Place} (hleads : t.Leads c.dir p)
    (hlong : Path.maxSize ≤ Path.room c.dir + fileNameSize) {e : CacheEntry} (hkey : IsKey e.key) :
    c.store t e = .error (.io (c.pathFor e.key) ReadFailure.nameTooLong.message) := by
  simp only [Cache.store, FileTree.write, Cache.resolve_of_long hleads hlong hkey]

/-- In a directory whose path is too long a new compilation is not answered, since it cannot be
stored. -/
theorem Cache.getOrCompile_of_long {c : Cache} {s : Cache.State} {p : Place}
    (hleads : s.tree.Leads c.dir p) (hlong : Path.maxSize ≤ Path.room c.dir + fileNameSize)
    {loader : Option Loader} {source : Text} {r : Compiled}
    (hr : s.session.settings.compile loader source = .ok r) (now : Instant) :
    c.getOrCompile s loader now source =
      (⟨s.tree, s.session.after r⟩, .error (.io (c.pathFor (s.session.settings.keyFor source))
        ReadFailure.nameTooLong.message)) := by
  have hkey : IsKey (s.session.settings.keyFor source) := isKey_sha256Hex _
  have hstore (e : CacheEntry) (he : e.key = s.session.settings.keyFor source) :
      c.store s.tree e = .error (.io (c.pathFor (s.session.settings.keyFor source))
        ReadFailure.nameTooLong.message) := by
    rw [← he] at hkey ⊢
    exact Cache.store_of_long hleads hlong hkey
  simp only [Cache.getOrCompile, Cache.load_of_long hleads hlong hkey, CacheEntry.compile_of_ok hr]
  rw [hstore _ rfl]

end CommentTemplate
