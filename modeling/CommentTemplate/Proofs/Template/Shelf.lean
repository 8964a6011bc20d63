import CommentTemplate.Proofs.Template.Twin

/-!
# Templates side by side

Templates of any files below any directories are changed, compiled and rendered in any order, and
share the files.  All that is written on the way are files in the directory of the cache, so what
is elsewhere stays as it is.

## Main definitions

* `Shelf` — templates that share the files
* `Shelf.run`, `Shelf.answers` — what becomes of them in a history, and what they answer
* `FileTree.SameElsewhere` — two trees differ by files in one directory
* `Shelf.Steady` — the files that the templates read stay as they are

## Main statements

* `Cache.getOrCompile_sameElsewhere`, `Template.act_sameElsewhere` — nothing is written elsewhere
* `Shelf.Caching.steady` — files outside the directory of the cache stay as they are
-/

namespace CommentTemplate

open Template (State Action Answer)

/-! ## Shelves -/

/-- Templates that share the files. -/
structure Shelf (ι : Type) where
  /-- The files. -/
  tree : FileTree
  /-- The templates. -/
  templates : ι → Template
  /-- The jobs that the templates had for the cache so far. -/
  jobs : List (ι × Job) := []

/-- The jobs that an action has for the cache. -/
def Template.jobs (s : State) (action : Action) : List Job :=
  if action.moment?.isSome then (job? s).toList else []

/-- The part of a history that is of one template. -/
def own {ι α : Type} [DecidableEq ι] (who : ι) (xs : List (ι × α)) : List α :=
  (xs.filter fun x => x.1 = who).map Prod.snd

section Own

variable {ι α : Type} [DecidableEq ι] {who i : ι} {a : α} {xs : List (ι × α)}

theorem own_cons_self : own who ((who, a) :: xs) = a :: own who xs := by simp [own]

theorem own_cons_of_ne (h : i ≠ who) : own who ((i, a) :: xs) = own who xs := by simp [own, h]

end Own

namespace Shelf

variable {ι : Type}

/-- A shelf of templates for which nothing was done yet. -/
def start (tree : FileTree) (templates : ι → Template) : Shelf ι :=
  { tree := tree, templates := templates }

/-- The files and one of the templates. -/
def state (s : Shelf ι) (who : ι) : State := ⟨s.tree, s.templates who⟩

/-- The texts that were hashed for the jobs so far. -/
def hashed (s : Shelf ι) : List Text := s.jobs.flatMap (·.2.texts)

theorem hashed_subset {s s' : Shelf ι} (h : s.jobs ⊆ s'.jobs) : s.hashed ⊆ s'.hashed := by
  intro t ht
  obtain ⟨x, hx, ht⟩ := List.mem_flatMap.1 ht
  exact List.mem_flatMap.2 ⟨x, h hx, ht⟩

variable [DecidableEq ι]

/-- The templates and files after one action. -/
def perform (s : Shelf ι) (x : ι × Action) : Shelf ι :=
  let r := Template.act (s.state x.1) x.2
  { tree := r.1.tree
    templates := Function.update s.templates x.1 r.1.template
    jobs := s.jobs ++ (Template.jobs (s.state x.1) x.2).map fun job => (x.1, job) }

theorem tree_perform (s : Shelf ι) (x : ι × Action) :
    (s.perform x).tree = (Template.act (s.state x.1) x.2).1.tree := rfl

theorem jobs_perform (s : Shelf ι) (x : ι × Action) : (s.perform x).jobs =
    s.jobs ++ (Template.jobs (s.state x.1) x.2).map fun job => (x.1, job) := rfl

/-- The templates and files after a history. -/
def run (s : Shelf ι) (history : List (ι × Action)) : Shelf ι := history.foldl perform s

/-- The answers to the actions of a history, with the templates that gave them. -/
def answers : Shelf ι → List (ι × Action) → List (ι × Answer)
  | _, [] => []
  | s, x :: history => (x.1, (Template.act (s.state x.1) x.2).2) :: answers (s.perform x) history

theorem jobs_subset_run (s : Shelf ι) (history : List (ι × Action)) :
    s.jobs ⊆ (s.run history).jobs := by
  induction history generalizing s with
  | nil => exact fun _ => id
  | cons x history ih => exact List.Subset.trans (List.subset_append_left _ _) (ih (s.perform x))

end Shelf

/-! ## What is written -/

namespace FileTree

variable {t u v : FileTree} {p : Place} {path : Text}

/-- Two trees have the same paths and directories, and the same files but for those in one
directory. -/
structure SameElsewhere (p : Place) (t u : FileTree) : Prop where
  resolve : ∀ path q, u.resolve path = .ok q ↔ t.resolve path = .ok q
  isDirAt : ∀ q, u.isDirAt q = t.isDirAt q
  statusAt : ∀ q, (∀ name, q ≠ p ++ [name]) → u.statusAt q = t.statusAt q

/-- A path leads to a place that is not in a directory. -/
def Elsewhere (t : FileTree) (p : Place) (path : Text) : Prop :=
  ∃ q, t.resolve path = .ok q ∧ ∀ name, q ≠ p ++ [name]

namespace SameElsewhere

theorem refl (p : Place) (t : FileTree) : SameElsewhere p t t :=
  ⟨fun _ _ => Iff.rfl, fun _ => rfl, fun _ _ => rfl⟩

theorem trans (h : SameElsewhere p t u) (h' : SameElsewhere p u v) : SameElsewhere p t v where
  resolve path q := (h'.resolve path q).trans (h.resolve path q)
  isDirAt q := (h'.isDirAt q).trans (h.isDirAt q)
  statusAt q hq := (h'.statusAt q hq).trans (h.statusAt q hq)

/-- A file in the directory makes no difference elsewhere. -/
theorem put {name : Text} (bytes : ByteArray) (h : t.isDirAt (p ++ [name]) = false) :
    SameElsewhere p t (t.put (p ++ [name]) bytes) where
  resolve _ _ := resolve_put_eq_ok_iff
  isDirAt _ := rfl
  statusAt q hq := by rw [statusAt_put h, if_neg (hq name)]

theorem leads (h : SameElsewhere p t u) {q : Place} (hleads : t.Leads path q) : u.Leads path q :=
  ⟨(h.resolve path q).2 hleads.resolve, (h.isDirAt q).trans hleads.isDirAt⟩

theorem status (h : SameElsewhere p t u) (hpath : t.Elsewhere p path) :
    u.status path = t.status path := by
  obtain ⟨q, hq, helsewhere⟩ := hpath
  rw [status_of_resolve hq, status_of_resolve ((h.resolve path q).2 hq), h.statusAt q helsewhere]

end SameElsewhere

theorem write_eq_ok {bytes : ByteArray} (h : t.write path bytes = .ok u) :
    ∃ q, t.resolve path = .ok q ∧ t.isDirAt q = false ∧ u = t.put q bytes := by
  cases hq : t.resolve path with
  | error why =>
      simp only [write, hq] at h
      cases h
  | ok q =>
      simp only [write, hq] at h
      by_cases hdir : t.isDirAt q = true
      · rw [statusAt_of_isDirAt hdir] at h
        cases h
      · refine ⟨q, rfl, Bool.not_eq_true _ ▸ hdir, ?_⟩
        cases hstatus : t.statusAt q with
        | directory => exact absurd (statusAt_eq_directory_iff.1 hstatus) hdir
        | unreadable why =>
            simp only [hstatus] at h
            cases h
        | _ =>
            simp only [hstatus] at h
            exact (Except.ok.inj h).symm

end FileTree

section Written

open FileTree

variable {c : Cache} {p : Place}

/-- An entry is stored in the directory of the cache. -/
theorem Cache.store_sameElsewhere {t u : FileTree} (h : t.Leads c.dir p) {e : CacheEntry}
    (hkey : IsKey e.key) (hstore : c.store t e = .ok u) : SameElsewhere p t u := by
  rw [Cache.store] at hstore
  split at hstore
  · next tree hwrite =>
      obtain rfl := Except.ok.inj hstore
      obtain ⟨q, hq, hdir, rfl⟩ := write_eq_ok hwrite
      obtain rfl := h.eq_of_resolve_join hkey.isName_fileName hq
      exact .put _ hdir
  · cases hstore

theorem CacheEntry.key_compile {session session' : Session} {loader : Option Loader} {now : Instant}
    {source key : Text} {e : CacheEntry}
    (h : CacheEntry.compile session loader now source key = (session', .ok e)) : e.key = key := by
  cases hr : session.settings.compile loader source with
  | ok r =>
      rw [compile_of_ok hr] at h
      cases h
      rfl
  | error e =>
      rw [compile_of_error hr] at h
      cases h

/-- The cache writes in its directory only. -/
theorem Cache.getOrCompile_sameElsewhere {s : Cache.State} (h : s.tree.Leads c.dir p)
    (loader : Option Loader) (now : Instant) (source : Text) :
    SameElsewhere p s.tree (c.getOrCompile s loader now source).1.tree := by
  simp only [Cache.getOrCompile]
  split
  · exact .refl _ _
  · exact .refl _ _
  · split
    · exact .refl _ _
    · next session e hcompile =>
        split
        · exact .refl _ _
        · next tree hstore =>
            have hkey : IsKey e.key := by
              rw [CacheEntry.key_compile hcompile]
              exact isKey_sha256Hex _
            exact Cache.store_sameElsewhere h hkey hstore

namespace Template

/-- What a template does writes in the directory of its cache only. -/
theorem ensureCompiled_sameElsewhere {s : State} (hcache : s.template.cache = some c)
    (h : s.tree.Leads c.dir p) (now : Instant) :
    SameElsewhere p s.tree (ensureCompiled s now).1.tree ∧
      (ensureCompiled s now).1.template.cache = some c := by
  obtain ⟨tree, t⟩ := s
  cases hkept : t.compiled with
  | some e =>
      rw [ensureCompiled_of_kept hkept]
      exact ⟨.refl _ _, hcache⟩
  | none =>
      cases hread : tree.read t.path with
      | error failure =>
          rw [ensureCompiled_of_error hkept hread]
          exact ⟨.refl _ _, hcache⟩
      | ok source =>
          have hsame := @Cache.getOrCompile_sameElsewhere c p ⟨tree, t.session⟩ h
            (some (t.loader tree)) now source
          simp only [ensureCompiled, hkept]
          rw [compileFile_of_some hread hcache]
          generalize c.getOrCompile ⟨tree, t.session⟩ (some (t.loader tree)) now source = r
            at hsame
          rcases r with ⟨_, e | a⟩ <;> exact ⟨hsame, hcache⟩

/-- What is done with a template makes no difference outside the directory of its cache. -/
theorem act_sameElsewhere {s : State} (hcache : s.template.cache = some c)
    (h : s.tree.Leads c.dir p) (action : Action) : SameElsewhere p s.tree (act s action).1.tree ∧
      (act s action).1.template.cache = some c := by
  cases hmoment : action.moment? with
  | some now =>
      rw [act_of_moment hmoment]
      exact ensureCompiled_sameElsewhere hcache h now.instant
  | none =>
      obtain ⟨htree, hsame⟩ := act_of_no_moment hmoment (s := s)
      rw [htree, hsame]
      exact ⟨.refl _ _, hcache⟩

end Template

end Written

/-! ## Files that stay as they are -/

namespace Shelf

variable {ι : Type} {p : Place} {s : Shelf ι} {dirs paths roots : ι → Text}

/-- Each template of a shelf has a cache in the directory at one place. -/
def Caching (p : Place) (dirs : ι → Text) (s : Shelf ι) : Prop :=
  ∀ i, (s.templates i).cache = some ⟨dirs i⟩ ∧ s.tree.Leads (dirs i) p

variable [DecidableEq ι]

/-- Whatever of a history was done, the files that the templates read are as they were. -/
def Steady (paths roots : ι → Text) (s : Shelf ι) (history : List (ι × Action)) : Prop :=
  ∀ done, done <+: history → ∀ i, Unchanged (paths i) (roots i) s.tree (s.run done).tree

/-- One action makes no difference outside the directory of the cache. -/
theorem Caching.perform (h : s.Caching p dirs) (x : ι × Action) :
    FileTree.SameElsewhere p s.tree (s.perform x).tree ∧ (s.perform x).Caching p dirs := by
  obtain ⟨hcache, hleads⟩ := h x.1
  obtain ⟨hsame, hkept⟩ := Template.act_sameElsewhere (s := s.state x.1) hcache hleads x.2
  refine ⟨hsame, fun i => ⟨?_, hsame.leads (h i).2⟩⟩
  by_cases hi : i = x.1
  · simpa [Shelf.perform, hi] using hkept
  · simpa [Shelf.perform, hi] using (h i).1

/-- A history makes no difference outside the directory of the cache. -/
theorem Caching.run (h : s.Caching p dirs) (history : List (ι × Action)) :
    FileTree.SameElsewhere p s.tree (s.run history).tree := by
  induction history generalizing s with
  | nil => exact .refl p s.tree
  | cons x history ih =>
      obtain ⟨hsame, hcaching⟩ := h.perform x
      exact hsame.trans (ih hcaching)

/-- A template keeps its job while another one is at work. -/
theorem Caching.job?_perform (h : s.Caching p dirs) {i j : ι} (hij : j ≠ i)
    (hpath : s.tree.Elsewhere p (s.templates j).path) (action : Action) :
    Template.job? ((s.perform (i, action)).state j) = Template.job? (s.state j) := by
  obtain ⟨hsame, -⟩ := h.perform (i, action)
  have htemplate : (s.perform (i, action)).templates j = s.templates j :=
    Function.update_of_ne hij _ _
  have hread : (s.perform (i, action)).tree.read (s.templates j).path =
      s.tree.read (s.templates j).path := congrArg FileStatus.text (hsame.status hpath)
  simp only [Template.job?, Shelf.state, htemplate, hread]

/-- The jobs of two templates that are at work one after the other. -/
theorem Caching.jobs_run_pair (h : s.Caching p dirs) {i j : ι} (hij : j ≠ i)
    (hpath : s.tree.Elsewhere p (s.templates j).path) {a b : Action}
    (ha : a.moment?.isSome = true) (hb : b.moment?.isSome = true) {job job' : Job}
    (hi : Template.job? (s.state i) = some job) (hj : Template.job? (s.state j) = some job') :
    (s.run [(i, a), (j, b)]).jobs = s.jobs ++ [(i, job), (j, job')] := by
  have hfirst : (s.perform (i, a)).jobs = s.jobs ++ [(i, job)] := by
    rw [jobs_perform, Template.jobs, if_pos ha, hi]
    rfl
  have hsecond := (h.job?_perform hij hpath a).trans hj
  rw [Shelf.run, List.foldl_cons, List.foldl_cons, List.foldl_nil, jobs_perform, Template.jobs,
    if_pos hb, hsecond, hfirst, List.append_assoc]
  rfl

/-- **Files outside the directory of the cache stay as they are.** -/
theorem Caching.steady (h : s.Caching p dirs) (hpaths : ∀ i, s.tree.Elsewhere p (paths i))
    (hincludes : ∀ i source, s.tree.read (paths i) = .ok source → ∀ inner,
      Reached (.ofDirectory s.tree.status (roots i)) source inner →
        s.tree.Elsewhere p (Path.join (roots i) (includePath inner)))
    (history : List (ι × Action)) : s.Steady paths roots history := fun done _ i =>
  have hsame := h.run done
  ⟨hsame.status (hpaths i), fun source hsource inner hinner =>
    hsame.status (hincludes i source hsource inner hinner)⟩

end Shelf

end CommentTemplate
