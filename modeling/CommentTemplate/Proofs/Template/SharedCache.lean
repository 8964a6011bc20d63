import CommentTemplate.Proofs.Template.Shelf

/-!
# Templates that share a cache

Templates of any files below any directories are given one cache directory, and are changed,
compiled and rendered in any order.  Each of them answers as it would without a cache, as long as
the files that are read stay as they are and templates with the same text and settings have
includes that give the same result.  Otherwise the second one is served what the first one
compiled, since includes are no part of a key.

The templates with the cache and their twins without one are taken through the history side by
side.

## Main definitions

* `SameIncludes` — templates with one job have includes that give the same result
* `Shelf.Beside` — the templates of a shelf have their twins
* `Sharing` — templates as they are opened, alone and with a common cache

## Main statements

* `Shelf.Beside.perform` — an action is answered as by the twin
* `answers_shared` — templates that share a cache answer as they do without one
* `Shelf.answers_of_job_eq` — of two templates with one job the second is served what the first
  compiled

## Design decisions

**Writes do not fail on their own.**  With paths that are short enough every write to the directory
of the cache leads to a place for a file, and no file there is sealed, since it was empty at first.
That is all that `FileTree.write` asks for.  Directories that may not be written to and full disks
are left out: what a template answers after such a failure is not told here.
-/

namespace CommentTemplate

open Template (State Action Answer)

/-- Two templates with one job have includes that give the same result for it, if they give any. -/
def SameIncludes {ι : Type} (loaders : ι → Loader) (jobs : List (ι × Job)) : Prop :=
  ∀ x ∈ jobs, ∀ y ∈ jobs, x.2 = y.2 → ∀ r,
    x.2.outcome (some (loaders x.1)) = .ok r → x.2.outcome (some (loaders y.1)) = .ok r

/-! ## Twins on a shelf -/

namespace Shelf

variable {ι : Type}

/-- What was filed in the common directory is of jobs so far, and the templates of a shelf have
their twins. -/
structure Beside (origin : FileTree) (paths roots dirs : ι → Text) (p : Place) (s : Shelf ι)
    (solo : ι → Template) (filings : List Filing) : Prop where
  caching : s.Caching p dirs
  room : ∀ i, Path.room (dirs i) + fileNameSize < Path.maxSize
  holds : Holds s.tree p (filings.map Filing.entry)
  compiled : ∀ f ∈ filings, ∃ x ∈ s.jobs, x.2 = f.job ∧
    f.job.outcome (some (.ofDirectory origin.status (roots x.1))) = .ok f.compiled
  twin : ∀ i, Twin (paths i) (roots i) (s.templates i) (solo i)

section Beside

variable {origin : FileTree} {paths roots dirs : ι → Text} {p : Place} {s : Shelf ι}
  {solo : ι → Template} {filings : List Filing}

/-- The texts hashed for what was filed were hashed for a job. -/
theorem Beside.texts_subset (h : Beside origin paths roots dirs p s solo filings) :
    filings.flatMap (·.job.texts) ⊆ s.hashed := by
  intro t ht
  obtain ⟨f, hf, ht⟩ := List.mem_flatMap.1 ht
  obtain ⟨x, hx, hjob, -⟩ := h.compiled f hf
  exact List.mem_flatMap.2 ⟨x, hx, hjob ▸ ht⟩

/-- A template of a shelf and its twin come by the same compilation. -/
theorem Beside.obtains (h : Beside origin paths roots dirs p s solo filings) {who : ι}
    (hsame : Unchanged (paths who) (roots who) origin s.tree) {jobs : List (ι × Job)}
    (hjobs : jobs = s.jobs ++ (Template.job? (s.state who)).toList.map fun job => (who, job))
    (hfree : CollisionFree (jobs.flatMap (·.2.texts)))
    (hincludes : SameIncludes (fun i => .ofDirectory origin.status (roots i)) jobs)
    (now : Moment) : ∃ filings',
      Obtains p filings (s.state who) (Template.ensureCompiled (s.state who) now.instant)
        filings' ∧
      Holds (Template.ensureCompiled (s.state who) now.instant).1.tree p
        (filings'.map Filing.entry) ∧
      Echo (paths who) (roots who) origin (Template.ensureCompiled (s.state who) now.instant)
        (Template.ensureCompiled ⟨origin, solo who⟩ now.instant) := by
  obtain ⟨hcache, hleads⟩ := h.caching who
  have htexts : filings.flatMap (·.job.texts) ++
      (Template.job? (s.state who)).toList.flatMap Job.texts ⊆ jobs.flatMap (·.2.texts) := by
    rw [hjobs, List.flatMap_append, List.flatMap_map]
    exact List.append_subset.2 ⟨List.subset_append_of_subset_left _ h.texts_subset,
      List.subset_append_right _ _⟩
  obtain ⟨filings', hobtains, hholds⟩ :=
    Holds.ensureCompiled (s := s.state who) h.holds hcache ⟨hleads, h.room who⟩
      (hfree.mono htexts) now
  refine ⟨filings', hobtains, hholds, hobtains.echo (h.twin who) hsame ?_ now.instant⟩
  -- What was filed for the job came from another template, with includes that give the same.
  intro f hf hown
  obtain ⟨x, hx, hxjob, hcompiled⟩ := h.compiled f hf
  rw [← hxjob] at hcompiled ⊢
  refine hincludes x ?_ (who, x.2) ?_ rfl _ hcompiled
  · rw [hjobs]
    exact List.mem_append_left _ hx
  · rw [hjobs, hxjob]
    exact List.mem_append_right _ (List.mem_map.2 ⟨f.job, Option.mem_toList.2 hown, rfl⟩)

end Beside

variable [DecidableEq ι]

/-- The other templates keep their twins when one of them takes a step with its own. -/
theorem twin_update {paths roots : ι → Text} {ts us : ι → Template} {who : ι} {t u : Template}
    (h : ∀ i, Twin (paths i) (roots i) (ts i) (us i)) (htwin : Twin (paths who) (roots who) t u)
    (i : ι) :
    Twin (paths i) (roots i) (Function.update ts who t i) (Function.update us who u i) := by
  by_cases hi : i = who
  · subst hi
    simpa using htwin
  · simpa [hi] using h i

section Beside

variable {origin : FileTree} {paths roots dirs : ι → Text} {p : Place} {s : Shelf ι}
  {solo : ι → Template} {filings : List Filing}

/-- **An action is answered as by the twin**, and the templates stay beside their twins. -/
theorem Beside.perform (h : Beside origin paths roots dirs p s solo filings) {who : ι}
    {action : Action} (hsame : Unchanged (paths who) (roots who) origin s.tree)
    (hfree : CollisionFree (s.perform (who, action)).hashed)
    (hincludes : SameIncludes (fun i => .ofDirectory origin.status (roots i))
      (s.perform (who, action)).jobs) :
    let r := Template.act ⟨origin, solo who⟩ action
    (Template.act (s.state who) action).2.bare = r.2 ∧ r.1.tree = origin ∧
      ∃ filings', Beside origin paths roots dirs p (s.perform (who, action))
        (Function.update solo who r.1.template) filings' := by
  intro r
  obtain ⟨-, hcaching⟩ := h.caching.perform (who, action)
  cases hmoment : action.moment? with
  | none =>
      obtain ⟨hanswer, htree, htwin⟩ :=
        (h.twin who).act origin s.tree action (by simp [hmoment])
      obtain ⟨htree', -⟩ := Template.act_of_no_moment (s := s.state who) hmoment
      refine ⟨hanswer, htree, filings, hcaching, h.room, ?_, fun f hf => ?_,
        twin_update h.twin htwin⟩
      · rw [tree_perform, htree']
        exact h.holds
      · obtain ⟨x, hx, hf⟩ := h.compiled f hf
        exact ⟨x, List.mem_append_left _ hx, hf⟩
  | some now =>
      have hjobs : (s.perform (who, action)).jobs = s.jobs ++
          (Template.job? (s.state who)).toList.map fun job => (who, job) := by
        simp only [Shelf.perform, Template.jobs, hmoment, Option.isSome_some, ↓reduceIte]
      obtain ⟨filings', hobtains, hholds, -⟩ := h.obtains hsame hjobs hfree hincludes now
      obtain ⟨hanswer, htree, htwin⟩ := (h.twin who).act origin s.tree action fun now' _ => by
        obtain ⟨-, -, -, hecho⟩ := h.obtains hsame hjobs hfree hincludes now'
        exact hecho
      refine ⟨hanswer, htree, filings', hcaching, h.room, ?_, fun f hf => ?_,
        twin_update h.twin htwin⟩
      · rw [tree_perform, Template.act_of_moment hmoment]
        exact hholds
      · rcases hobtains.mem hf with hf | ⟨hjob, hread, hcompiled⟩
        · obtain ⟨x, hx, hf⟩ := h.compiled f hf
          exact ⟨x, List.mem_append_left _ hx, hf⟩
        · have hmem : (who, f.job) ∈ (s.perform (who, action)).jobs := by
            rw [hjobs]
            exact List.mem_append_right _ (List.mem_map.2 ⟨f.job, Option.mem_toList.2 hjob, rfl⟩)
          have hroot : (s.state who).template.root = roots who := (h.twin who).root.1
          have hpath : (s.state who).template.path = paths who := (h.twin who).path.1
          have hread' : origin.read (paths who) = .ok f.job.source := by
            rw [← hread, hpath, ← hsame.read]
            rfl
          rw [hroot] at hcompiled
          exact ⟨_, hmem, rfl, (hsame.compile hread' f.job.settings).symm.trans hcompiled⟩

/-- Whatever is done with templates of a shelf, each of them answers as its twin does. -/
theorem Beside.answers (h : Beside origin paths roots dirs p s solo filings)
    {history : List (ι × Action)}
    (hsame : ∀ done, done <+: history → ∀ i,
      Unchanged (paths i) (roots i) origin (s.run done).tree)
    (hfree : CollisionFree (s.run history).hashed)
    (hincludes : SameIncludes (fun i => .ofDirectory origin.status (roots i))
      (s.run history).jobs) (who : ι) :
    (own who (s.answers history)).map Answer.bare =
      Template.answers ⟨origin, solo who⟩ (own who history) := by
  induction history generalizing s solo filings with
  | nil => rfl
  | cons x history ih =>
      obtain ⟨i, action⟩ := x
      have hjobs : (s.perform (i, action)).jobs ⊆ (s.run ((i, action) :: history)).jobs :=
        jobs_subset_run _ history
      obtain ⟨hanswer, htree, filings', h'⟩ := h.perform (hsame [] (List.nil_prefix) i)
        (hfree.mono (hashed_subset hjobs))
        (fun x hx y hy => hincludes x (hjobs hx) y (hjobs hy))
      have ih := ih h' (fun done hdone => hsame ((i, action) :: done)
        (List.cons_prefix_cons.2 ⟨rfl, hdone⟩)) hfree hincludes
      by_cases hi : i = who
      · subst hi
        rw [Function.update_self] at ih
        rw [Shelf.answers, own_cons_self, own_cons_self, List.map_cons, ih, Template.answers]
        refine congrArg₂ _ hanswer (congrArg (fun r => Template.answers r _) ?_)
        exact congrArg (fun tree => State.mk tree _) htree.symm
      · rw [Function.update_of_ne (Ne.symm hi)] at ih
        rw [Shelf.answers, own_cons_of_ne hi, own_cons_of_ne hi, ih]

end Beside

end Shelf

/-! ## What a template gets to see of another one -/

namespace Shelf

variable {ι : Type} [DecidableEq ι] {p : Place} {s : Shelf ι} {dirs : ι → Text} {i j : ι}

/-- **Of two templates with one job the second is served what the first compiled**, whatever its own
includes would give. -/
theorem answers_of_job_eq (h : s.Caching p dirs)
    (hroom : ∀ i, Path.room (dirs i) + fileNameSize < Path.maxSize)
    (hempty : ∀ name, s.tree.statusAt (p ++ [name]) = .absent .missing) (hij : j ≠ i) {job : Job}
    (hi : Template.job? (s.state i) = some job) (hj : Template.job? (s.state j) = some job)
    (hpath : s.tree.Elsewhere p (s.templates j).path) (hfree : CollisionFree job.texts)
    {r : Compiled} (hr : job.outcome (some ((s.templates i).loader s.tree)) = .ok r)
    (now now' : Moment) :
    s.answers [(i, .compile now), (j, .compile now')] =
      [(i, .program (.ok r.program)), (j, .program (.ok r.program))] := by
  have hfiled {f : Filing} (hf : f.job = job) :
      CollisionFree ([f].flatMap (·.job.texts) ++ (some job).toList.flatMap Job.texts) := by
    simpa [hf] using hfree.mono (by simp)
  obtain ⟨filings, hobtains, hholds⟩ :=
    @Holds.ensureCompiled (s.state i) p [] ⟨by simp, hempty⟩ ⟨dirs i⟩ (h i).1 ⟨(h i).2, hroom i⟩
      (by simpa [hi] using hfree) now
  obtain ⟨f, hjob, rfl, hanswer, rfl⟩ := hobtains.of_new hi (by simp) hr
  -- The first one filed the job, so the second one finds it.
  have hnext := h.job?_perform hij hpath (.compile now)
  obtain ⟨-, hcaching⟩ := h.perform (i, .compile now)
  obtain ⟨filings', hobtains', -⟩ :=
    Holds.ensureCompiled (s := (s.perform (i, .compile now)).state j) hholds (hcaching j).1
      ⟨(hcaching j).2, hroom j⟩ (by rw [hnext, hj]; exact hfiled hjob) now'
  obtain ⟨g, hg, -, hanswer'⟩ := hobtains'.of_filed (hnext.trans hj) ⟨f, by simp, hjob⟩
  obtain rfl := List.mem_singleton.1 hg
  simp only [Shelf.answers, Template.act_compile, hanswer, hanswer']
  rfl

end Shelf

/-- With a cache in a directory whose path is too long a template gives no new program. -/
theorem Template.compile_of_long {s : State} {c : Cache} {p : Place}
    (hcache : s.template.cache = some c) (hleads : s.tree.Leads c.dir p)
    (hlong : Path.maxSize ≤ Path.room c.dir + fileNameSize) {job : Job} (hjob : job? s = some job)
    {r : Compiled} (hr : job.outcome (some (s.template.loader s.tree)) = .ok r) (now : Moment) :
    ∃ path cause, (act s (.compile now)).2 = .program (.error (.cache (.io path cause))) := by
  obtain ⟨tree, t⟩ := s
  obtain ⟨hnone, hread, hown⟩ := job?_eq_some hjob
  rw [hown] at hr
  refine ⟨c.pathFor (t.session.settings.keyFor job.source), ReadFailure.nameTooLong.message, ?_⟩
  have hget := Cache.getOrCompile_of_long (s := ⟨tree, t.session⟩) hleads hlong hr now.instant
  rw [act_compile]
  simp only [ensureCompiled, show t.compiled = none from hnone]
  rw [compileFile_of_some hread hcache]
  dsimp only
  rw [hget]
  rfl

/-! ## Templates as they are opened -/

/-- The path of the file of a template. -/
def filePath {ι : Type} (roots files : ι → Text) (i : ι) : Text := Path.join (roots i) (files i)

/-- Templates of any files below any directories, without a cache and with a common one.  The
directory of the cache is empty at first, and what the templates read stays as it is. -/
structure Sharing {ι : Type} [DecidableEq ι] (tree : FileTree) (p : Place)
    (roots files dirs : ι → Text) (configs : ι → Config) (solo shared : ι → Template)
    (history : List (ι × Action)) : Prop where
  opens : ∀ i, Template.open? tree.status (roots i) (files i) (configs i) = .ok (solo i)
  caching : ∀ i, (solo i).withCacheDir tree.status (dirs i) = .ok (shared i)
  leads : ∀ i, tree.Leads (dirs i) p
  empty : ∀ name, tree.statusAt (p ++ [name]) = .absent .missing
  steady : (Shelf.start tree shared).Steady (filePath roots files) roots history
  collisionFree : CollisionFree ((Shelf.start tree shared).run history).hashed

section Sharing

variable {view : FileView} {dir : Text} {t u : Template}

theorem Template.withCacheDir_eq_ok (h : t.withCacheDir view dir = .ok u) :
    u = { t with cache := some ⟨dir⟩ } := by
  rw [Template.withCacheDir, Cache.open?] at h
  by_cases hdir : (view dir).isDir = true
  · rw [if_pos hdir] at h
    exact (Except.ok.inj h).symm
  · rw [if_neg hdir] at h
    cases h

variable {ι : Type} [DecidableEq ι] {tree : FileTree} {p : Place} {roots files dirs : ι → Text}
  {configs : ι → Config} {solo shared : ι → Template} {history : List (ι × Action)}

/-- As they are opened, the templates are beside their twins. -/
theorem Sharing.beside (h : Sharing tree p roots files dirs configs solo shared history)
    (hroom : ∀ i, Path.room (dirs i) + fileNameSize < Path.maxSize) :
    Shelf.Beside tree (filePath roots files) roots dirs p (Shelf.start tree shared) solo [] := by
  have htemplate (i : ι) : (Shelf.start tree shared).templates i =
      { solo i with cache := some ⟨dirs i⟩ } := Template.withCacheDir_eq_ok (h.caching i)
  refine ⟨fun i => ⟨by rw [htemplate], h.leads i⟩, hroom, ⟨by simp, h.empty⟩, by simp, fun i => ?_⟩
  rw [htemplate, Template.open?_eq_ok (h.opens i)]
  exact ⟨⟨rfl, rfl⟩, ⟨rfl, rfl⟩, rfl, rfl, rfl, rfl⟩

end Sharing

/-- **Templates that share a cache answer as they do without one.**  The templates are those of any
files below any root directories, and all of them use one directory for the cache, which was empty
at first and whose paths are not too long.  What they read stays as it is, and whenever two of them
compile the same text with the same settings, their root directories give the same result for it.
Then each template answers whatever is done with it as if it were alone and without a cache, up to
the wrapping of errors. -/
theorem answers_shared {ι : Type} [DecidableEq ι] {tree : FileTree} {p : Place}
    {roots files dirs : ι → Text} {configs : ι → Config} {solo shared : ι → Template}
    {history : List (ι × Action)}
    (h : Sharing tree p roots files dirs configs solo shared history)
    (hroom : ∀ i, Path.room (dirs i) + fileNameSize < Path.maxSize)
    (hincludes : SameIncludes (fun i => .ofDirectory tree.status (roots i))
      ((Shelf.start tree shared).run history).jobs) (who : ι) :
    (own who ((Shelf.start tree shared).answers history)).map Answer.bare =
      Template.answers ⟨tree, solo who⟩ (own who history) :=
  (h.beside hroom).answers h.steady h.collisionFree hincludes who

/-! ## Two sites -/

namespace Sites

/-- A page that includes the part beside it. -/
def page : Text := "<!-- INCLUDE part -->".toList

/-- The directories of two sites. -/
def root (right : Bool) : Text := if right then "b".toList else "a".toList

/-- The parts of two sites. -/
def part (right : Bool) : Text := if right then "from b".toList else "from a".toList

/-- Two sites with one page and a part each, and an empty directory. -/
def tree (part : Bool → Text) : FileTree where
  cwd := []
  dirs := [["a".toList], ["b".toList], ["cache".toList]]
  files := [(["a".toList, "page".toList], encodeUtf8 page),
    (["a".toList, "part".toList], encodeUtf8 (part false)),
    (["b".toList, "page".toList], encodeUtf8 page),
    (["b".toList, "part".toList], encodeUtf8 (part true))]

/-- The path of the empty directory, with dots behind it. -/
def cacheDir (n : Nat) : Text := Path.dots "cache".toList n

/-- The page of a site without a cache. -/
def alone (right : Bool) : Template where
  path := filePath root (fun _ => "page".toList) right
  root := root right
  session := .start {}

/-- The page of a site with a cache in the empty directory. -/
def cached (n : Nat) (right : Bool) : Template := { alone right with cache := some ⟨cacheDir n⟩ }

/-- The job of both pages. -/
def job : Job := ⟨{}, page⟩

theorem collisionFree_job : CollisionFree job.texts := collisionFree_pair (by decide +kernel)

theorem room_cacheDir (n : Nat) : Path.room (cacheDir (n + 1)) = 2 * n + 8 := by
  rw [cacheDir, Path.room_dots, show Text.utf8Size "cache".toList = 5 from rfl]
  omega

section Tree

variable (part : Bool → Text) {n : Nat}

theorem leads (hn : 5 + 2 * n < Path.maxSize) :
    (tree part).Leads (cacheDir n) ["cache".toList] :=
  FileTree.Leads.dots ⟨rfl, rfl⟩ hn

theorem caching (hn : 5 + 2 * n < Path.maxSize) :
    (Shelf.start (tree part) (cached n)).Caching ["cache".toList] fun _ => cacheDir n :=
  fun _ => ⟨rfl, leads part hn⟩

theorem empty (name : Text) :
    (tree part).statusAt (["cache".toList] ++ [name]) = .absent .missing :=
  FileTree.statusAt_of_unused (by simp [tree]) (by simp [tree]) (by simp [tree]) (by simp [tree])

theorem elsewhere {name : Text} (hname : name = "page".toList ∨ name = "part".toList)
    (right : Bool) : (tree part).Elsewhere ["cache".toList] (Path.join (root right) name) := by
  refine ⟨[root right, name], ?_, by cases right <;> simp [root]⟩
  rcases hname with rfl | rfl <;> cases right <;> rfl

theorem read_page (right : Bool) : (tree part).read (alone right).path = .ok page := by
  have hstatus : (tree part).status (alone right).path = .file (encodeUtf8 page) := by
    cases right <;> rfl
  rw [FileTree.read, hstatus, FileStatus.text_file]

theorem job?_state (right : Bool) :
    Template.job? ((Shelf.start (tree part) (cached n)).state right) = some job := by
  have hread : ((Shelf.start (tree part) (cached n)).state right).tree.read
      ((Shelf.start (tree part) (cached n)).state right).template.path = .ok page :=
    read_page part right
  rw [Template.job?, hread]
  rfl

/-- The jobs of both pages, one after the other. -/
theorem jobs_run (hn : 5 + 2 * n < Path.maxSize) {a b : Action}
    (ha : a.moment?.isSome = true) (hb : b.moment?.isSome = true) :
    ((Shelf.start (tree part) (cached n)).run [(false, a), (true, b)]).jobs =
      [(false, job), (true, job)] :=
  (caching part hn).jobs_run_pair (j := true) (by decide) (elsewhere part (.inl rfl) true) ha hb
    (job?_state part false) (job?_state part true)

/-- With dots enough behind the path of the cache no page gives a program. -/
theorem compile_of_long (hn : 5 + 2 * (n + 1) < Path.maxSize)
    (hlong : Path.maxSize ≤ 2 * n + 8 + fileNameSize) {right : Bool} {r : Compiled}
    (hr : job.outcome (some (.ofDirectory (tree part).status (root right))) = .ok r)
    (now : Moment) : ∃ path cause,
      (Template.act ((Shelf.start (tree part) (cached (n + 1))).state right) (.compile now)).2 =
        .program (.error (.cache (.io path cause))) := by
  rw [← room_cacheDir] at hlong
  obtain ⟨hcache, hleads⟩ := caching part hn right
  exact Template.compile_of_long hcache hleads hlong (job?_state part right) hr now

end Tree

section Plain

variable {part : Bool → Text} {n : Nat}

/-- Besides the page nothing but the part is reached, if that includes nothing. -/
theorem eq_part_of_reached (hpart : ∀ right, includedPaths (part right) = []) {right : Bool}
    {inner : Text} (h : Reached (.ofDirectory (tree part).status (root right)) page inner) :
    inner = "part".toList := by
  have hpage : includedPaths page = ["part".toList] := by decide +kernel
  induction h with
  | tag h => simpa [hpage] using h
  | @nested path text inner h hhas hread hinner ih =>
      subst ih
      have htext : text = decodeUtf8Lossy (encodeUtf8 (part right)) := by
        cases right <;> exact Except.ok.inj hread.symm
      rw [htext, decodeUtf8Lossy_encodeUtf8, hpart] at hinner
      cases hinner

/-- The pages share the cache, and what they read stays as it is. -/
theorem sharing (hpart : ∀ right, includedPaths (part right) = [])
    (hn : 5 + 2 * n < Path.maxSize) {a b : Action} (ha : a.moment?.isSome = true)
    (hb : b.moment?.isSome = true) :
    Sharing (tree part) ["cache".toList] root (fun _ => "page".toList) (fun _ => cacheDir n)
      (fun _ => {}) alone (cached n) [(false, a), (true, b)] where
  opens right := by cases right <;> rfl
  caching right := by
    have hopen : Cache.open? (tree part).status (cacheDir n) = .ok ⟨cacheDir n⟩ :=
      Cache.open?_eq_ok_iff.2 ⟨rfl, _, leads part hn⟩
    rw [Template.withCacheDir, hopen]
    rfl
  leads _ := leads part hn
  empty := empty part
  steady := by
    refine (caching part hn).steady (elsewhere part (.inl rfl)) ?_ _
    intro right source hsource inner hinner
    obtain rfl : page = source := Except.ok.inj ((read_page part right).symm.trans hsource)
    rw [eq_part_of_reached hpart hinner]
    exact elsewhere part (.inr rfl) right
  collisionFree := by
    refine collisionFree_job.mono fun t ht => ?_
    obtain ⟨x, hx, ht⟩ := List.mem_flatMap.1 ht
    rw [jobs_run part hn ha hb] at hx
    simp only [List.mem_cons, List.not_mem_nil, or_false] at hx
    rcases hx with rfl | rfl <;> exact ht

end Plain

end Sites

/-- Two sites with one page and equal parts: the second page is rendered from what the first one
compiled, as it would be without a cache. -/
theorem answers_equalParts :
    let part (_ : Bool) := "from both".toList
    (own true ((Shelf.start (Sites.tree part) (Sites.cached 0)).answers
      [(false, .compile .noon), (true, .render .noon)])).map Answer.bare =
        [.text (.ok "from both".toList)] := by
  intro part
  have hjobs : ((Shelf.start (Sites.tree part) (Sites.cached 0)).run
      [(false, .compile .noon), (true, .render .noon)]).jobs =
        [(false, Sites.job), (true, Sites.job)] := Sites.jobs_run part (by decide) rfl rfl
  have houtcome (right : Bool) :
      Sites.job.outcome (some (.ofDirectory (Sites.tree part).status (Sites.root right))) =
        .ok ⟨⟨[.literal "from both".toList]⟩, [], []⟩ := by
    cases right <;> decide +kernel
  refine (answers_shared (Sites.sharing (by decide +kernel) (by decide) rfl rfl)
    (fun _ => by decide) ?_ true).trans ?_
  · rw [hjobs]
    intro x hx y hy _ r hr
    simp only [List.mem_cons, List.not_mem_nil, or_false] at hx hy
    rcases hx with rfl | rfl <;> rcases hy with rfl | rfl <;> simpa only [houtcome] using hr
  · decide +kernel

/-- Two sites with one page and parts of their own: the second page is served the part of the first
one.  With a cache in a directory whose path is too long a page gives no program. -/
theorem answers_ownParts :
    let dirs (n : Nat) (_ : Bool) := Sites.cacheDir n
    let shelf (n : Nat) := Shelf.start (Sites.tree Sites.part) (Sites.cached n)
    let history : List (Bool × Action) := [(false, .compile .noon), (true, .compile .noon)]
    let sharing (n : Nat) := Sharing (Sites.tree Sites.part) ["cache".toList] Sites.root
      (fun _ => "page".toList) (dirs n) (fun _ => {}) Sites.alone (Sites.cached n) history
    Template.answers ⟨Sites.tree Sites.part, Sites.alone true⟩ (own true history) =
      [.program (.ok ⟨[.literal "from b".toList]⟩)] ∧
    Template.answers ⟨Sites.tree Sites.part, Sites.alone false⟩ (own false history) =
      [.program (.ok ⟨[.literal "from a".toList]⟩)] ∧
    (sharing 0 ∧ (own true ((shelf 0).answers history)).map Answer.bare =
      [.program (.ok ⟨[.literal "from a".toList]⟩)]) ∧
    (sharing 2011 ∧ ∃ path cause, (own false ((shelf 2011).answers history)).map Answer.bare =
      [.program (.error (.cache (.io path cause)))]) := by
  intro dirs shelf history sharing
  have hsharing {n : Nat} (hn : 5 + 2 * n < Path.maxSize) : sharing n :=
    Sites.sharing (by decide +kernel) hn rfl rfl
  have hfirst : Sites.job.outcome
      (some (.ofDirectory (Sites.tree Sites.part).status (Sites.root false))) =
        .ok ⟨⟨[.literal "from a".toList]⟩, [], []⟩ := by decide +kernel
  refine ⟨by decide +kernel, by decide +kernel, ⟨hsharing (by decide), ?_⟩,
    ⟨hsharing (by decide), ?_⟩⟩
  · have hanswers : (shelf 0).answers history = _ :=
      Shelf.answers_of_job_eq (Sites.caching _ (by decide)) (fun _ => by decide) (Sites.empty _)
        (by decide) (Sites.job?_state _ false) (Sites.job?_state _ true)
        (Sites.elsewhere _ (.inl rfl) true) Sites.collisionFree_job hfirst .noon .noon
    rw [hanswers]
    rfl
  · obtain ⟨path, cause, hanswer⟩ := Sites.compile_of_long Sites.part (n := 2010) (by decide)
      (by decide) hfirst .noon
    refine ⟨path, cause, ?_⟩
    rw [Shelf.answers, hanswer, own_cons_self, Shelf.answers, own_cons_of_ne (by decide)]
    rfl

end CommentTemplate
