import CommentTemplate.Proofs.Cache.Directory

/-!
# The cache is transparent

Any number of sessions share one cache in a directory that was empty at first.  Whatever they were
asked before and whatever their settings became meanwhile, a template is answered with what a fresh
compilation gives, and the cache says truly whether it was there already.

The directory is described by the compilations filed in it.  Each of them succeeded, and a job was
filed exactly if a compilation of it was answered before.

## Main definitions

* `Request`, `Pool` — sessions that share a cache, and what is asked of them
* `Exchange` — a compilation that was asked for, and the answer
* `Pool.Filed` — what was filed agrees with what was answered

## Main statements

* `Pool.Filed.perform` — one request keeps the agreement
* `getOrCompile_transparent` — after any history, the cache answers what a compilation gives
* `Cache.getOrCompile_dots` — in a directory whose path is too long the cache answers no success

## Design decisions

**Writes do not fail on their own.**  A write fails where its path does not lead to a place for a
file, or leads to a sealed one (`FileTree.write`).  In a directory that was empty at first only
the length of the paths remains to be asked for.  Directories that may not be written to and full
disks are left out: there a new compilation ends with an error of the cache.
-/

namespace CommentTemplate

/-! ## Sessions that share a cache -/

/-- What is asked of one of several sessions. -/
inductive Request (ι : Type) where
  /-- Its settings are changed. -/
  | change (who : ι) (change : Change)
  /-- A template is compiled through the cache. -/
  | get (who : ι) (source : Text) (now : Moment)

/-- A compilation that was asked for, and the answer. -/
structure Exchange where
  /-- The template, with the settings of the session at that time. -/
  job : Job
  /-- The answer of the cache. -/
  answer : Except CacheError (CacheEntry × CacheStatus)

/-- The answer is no error. -/
def Exchange.Succeeded (x : Exchange) : Prop := ∃ r, x.answer = .ok r

/-- Sessions that share the files. -/
structure Pool (ι : Type) where
  /-- The files. -/
  tree : FileTree
  /-- The sessions. -/
  sessions : ι → Session
  /-- The compilations asked for so far, the latest first. -/
  past : List Exchange := []

namespace Pool

variable {ι : Type}

/-- The files and one of the sessions, as the cache sees them. -/
def state (pool : Pool ι) (who : ι) : Cache.State := ⟨pool.tree, pool.sessions who⟩

/-- The job of a template in one of the sessions. -/
def job (pool : Pool ι) (who : ι) (source : Text) : Job := ⟨(pool.sessions who).settings, source⟩

/-- What the cache does when a template is compiled in one of the sessions. -/
def ask (c : Cache) (loader : Option Loader) (pool : Pool ι) (who : ι) (source : Text)
    (now : Moment) : Cache.State × Except CacheError (CacheEntry × CacheStatus) :=
  c.getOrCompile (pool.state who) loader now.instant source

/-- The texts that were hashed for the compilations so far. -/
def hashed (pool : Pool ι) : List Text := pool.past.flatMap (·.job.texts)

/-- What was filed in the directory of the cache agrees with what was answered. -/
structure Filed (c : Cache) (loader : Option Loader) (p : Place) (pool : Pool ι)
    (filings : List Filing) : Prop where
  opens : c.Opens pool.tree p
  holds : Holds pool.tree p (filings.map Filing.entry)
  compiled : ∀ f ∈ filings, f.job.outcome loader = .ok f.compiled
  answered : ∀ j, (∃ f ∈ filings, f.job = j) ↔ ∃ x ∈ pool.past, x.job = j ∧ x.Succeeded

section Filed

variable {c : Cache} {loader : Option Loader} {p : Place} {pool : Pool ι}
  {filings : List Filing}

/-- Nothing is filed in an empty directory. -/
theorem Filed.start {tree : FileTree} (hopen : c.Opens tree p)
    (hempty : ∀ name, tree.statusAt (p ++ [name]) = .absent .missing) (sessions : ι → Session) :
    Filed c loader p ⟨tree, sessions, []⟩ [] where
  opens := hopen
  holds := ⟨by simp, hempty⟩
  compiled := by simp
  answered := by simp

/-- The texts hashed for what was filed were hashed for an answer. -/
theorem Filed.texts_subset (h : Filed c loader p pool filings) :
    filings.flatMap (·.job.texts) ⊆ pool.hashed := by
  intro t ht
  obtain ⟨f, hf, ht⟩ := List.mem_flatMap.1 ht
  obtain ⟨x, hx, hjob, -⟩ := (h.answered f.job).1 ⟨f, hf, rfl⟩
  exact List.mem_flatMap.2 ⟨x, hx, hjob ▸ ht⟩

/-- The cache serves each session in one of its three ways. -/
theorem Filed.serves (h : Filed c loader p pool filings) (who : ι) (source : Text)
    (hfree : CollisionFree (pool.hashed ++ (pool.job who source).texts)) (now : Moment) :
    ∃ filings', Serves p filings (pool.state who) loader source
        (pool.ask c loader who source now) filings' ∧
      Holds (pool.ask c loader who source now).1.tree p (filings'.map Filing.entry) := by
  have hsub : filings.flatMap (·.job.texts) ++ (pool.job who source).texts ⊆
      pool.hashed ++ (pool.job who source).texts :=
    List.append_subset.2 ⟨List.subset_append_of_subset_left _ h.texts_subset,
      List.subset_append_right _ _⟩
  exact Holds.getOrCompile (s := pool.state who) h.holds h.opens (hfree.mono hsub) now

end Filed

/-! ## Histories -/

variable [DecidableEq ι]

/-- The sessions and files after one request. -/
def perform (c : Cache) (loader : Option Loader) (pool : Pool ι) : Request ι → Pool ι
  | .change who change =>
    { pool with
      sessions := Function.update pool.sessions who ((pool.sessions who).modify change.apply) }
  | .get who source now =>
    let r := pool.ask c loader who source now
    { tree := r.1.tree
      sessions := Function.update pool.sessions who r.1.session
      past := ⟨pool.job who source, r.2⟩ :: pool.past }

/-- The sessions and files after some requests. -/
def run (c : Cache) (loader : Option Loader) (pool : Pool ι) (requests : List (Request ι)) :
    Pool ι :=
  requests.foldl (perform c loader) pool

variable {c : Cache} {loader : Option Loader} {p : Place} {pool : Pool ι}
  {filings : List Filing}

theorem past_get (who : ι) (source : Text) (now : Moment) :
    (pool.perform c loader (.get who source now)).past =
      ⟨pool.job who source, (pool.ask c loader who source now).2⟩ :: pool.past := rfl

theorem hashed_get (who : ι) (source : Text) (now : Moment) :
    (pool.perform c loader (.get who source now)).hashed =
      (pool.job who source).texts ++ pool.hashed := rfl

theorem hashed_subset_perform (request : Request ι) :
    pool.hashed ⊆ (pool.perform c loader request).hashed := by
  cases request with
  | change who change => exact fun _ => id
  | get who source now => exact List.subset_append_right _ _

theorem hashed_subset_run (requests : List (Request ι)) :
    pool.hashed ⊆ (pool.run c loader requests).hashed := by
  induction requests generalizing pool with
  | nil => exact fun _ => id
  | cons request requests ih => exact List.Subset.trans (hashed_subset_perform request) ih

/-- **One request keeps the agreement** of what was filed with what was answered. -/
theorem Filed.perform (h : Filed c loader p pool filings) (request : Request ι)
    (hfree : CollisionFree (pool.perform c loader request).hashed) :
    ∃ filings', Filed c loader p (pool.perform c loader request) filings' := by
  cases request with
  | change who change => exact ⟨filings, h.opens, h.holds, h.compiled, h.answered⟩
  | get who source now =>
      rw [hashed_get] at hfree
      obtain ⟨filings', hserves, hholds⟩ := h.serves who source (hfree.mono (by simp)) now
      refine ⟨filings', hserves.opens h.opens, hholds, fun f hf => ?_, fun j => ?_⟩
      · rcases hserves.mem hf with hf | ⟨hjob, hr⟩
        · exact h.compiled f hf
        · rw [hjob]
          exact hr
      · rw [hserves.exists_job_iff, h.answered, past_get, List.exists_mem_cons_iff]
        rfl

/-- What was filed agrees with what was answered after any history. -/
theorem Filed.run (h : Filed c loader p pool filings) (requests : List (Request ι))
    (hfree : CollisionFree (pool.run c loader requests).hashed) :
    ∃ filings', Filed c loader p (pool.run c loader requests) filings' := by
  induction requests generalizing pool filings with
  | nil => exact ⟨filings, h⟩
  | cons request requests ih =>
      obtain ⟨filings', h'⟩ := h.perform request (hfree.mono (hashed_subset_run requests))
      exact ih h' hfree

end Pool

/-! ## Transparency -/

/-- **The cache is transparent.**  In a directory that was empty at first and whose path is not too
long, after any history of any number of sessions, the answer for a template is what a compilation
of it gives.  It was there already exactly if a compilation of it with the same settings was
answered before, and then nothing changes; nor does anything if the compilation fails. -/
theorem getOrCompile_transparent {ι : Type} [DecidableEq ι] {tree : FileTree} {dir : Text}
    {c : Cache} (hopen : Cache.open? tree.status dir = .ok c) (hempty : tree.IsEmptyDir dir)
    (hroom : Path.room dir + fileNameSize < Path.maxSize) (loader : Option Loader)
    (sessions : ι → Session) (requests : List (Request ι)) (who : ι) (source : Text)
    (now : Moment) {pool : Pool ι} (hpool : pool = Pool.run c loader ⟨tree, sessions, []⟩ requests)
    (hfree : CollisionFree (pool.hashed ++ (pool.job who source).texts)) :
    (∀ r, (pool.job who source).outcome loader = .ok r → ∃ entry status,
      (pool.ask c loader who source now).2 = .ok (entry, status) ∧
      entry.program = r.program ∧ entry.blocks = r.blocks ∧
      entry.placeholders = r.placeholders ∧
      (status = .hit ↔ ∃ x ∈ pool.past, x.job = pool.job who source ∧ x.Succeeded) ∧
      (status = .hit → (pool.ask c loader who source now).1 = pool.state who)) ∧
    (∀ e, (pool.job who source).outcome loader = .error e →
      pool.ask c loader who source now = (pool.state who, .error (.compile e))) := by
  obtain ⟨p, hleads, habsent⟩ := hempty
  obtain ⟨rfl, -⟩ := Cache.open?_eq_ok_iff.1 hopen
  obtain ⟨filings, h⟩ : ∃ filings, Pool.Filed ⟨dir⟩ loader p pool filings := by
    rw [hpool]
    refine (Pool.Filed.start ⟨hleads, hroom⟩ habsent sessions).run requests ?_
    exact hfree.mono (hpool ▸ List.subset_append_left _ _)
  obtain ⟨filings', hserves, -⟩ := h.serves who source hfree now
  have hanswered := h.answered (pool.job who source)
  generalize pool.ask ⟨dir⟩ loader who source now = answer at hserves
  cases hserves with
  | @hit f hf hjob =>
      have hcompiled : (pool.job who source).outcome loader = .ok f.compiled := by
        rw [← h.compiled f hf, hjob]
        rfl
      rw [hcompiled]
      refine ⟨?_, nofun⟩
      rintro _ ⟨⟩
      exact ⟨f.entry, .hit, rfl, rfl, rfl, rfl, by simpa using hanswered.1 ⟨f, hf, hjob⟩,
        fun _ => rfl⟩
  | @failed e hnew he =>
      have hfailed : (pool.job who source).outcome loader = .error e := he
      rw [hfailed]
      refine ⟨nofun, ?_⟩
      rintro _ ⟨⟩
      rfl
  | @miss f bytes hnew hjob hr =>
      have hcompiled : (pool.job who source).outcome loader = .ok f.compiled := hr
      rw [hcompiled]
      refine ⟨?_, nofun⟩
      rintro _ ⟨⟩
      refine ⟨f.entry, .miss, rfl, rfl, rfl, rfl, ⟨nofun, fun hx => ?_⟩, nofun⟩
      obtain ⟨g, hg, hgjob⟩ := hanswered.2 hx
      exact absurd hgjob (hnew g hg)

/-- With dots behind its path a directory can be opened, but nothing can be stored there if the path
is too long for the names of files. -/
theorem Cache.getOrCompile_dots {t : FileTree} {p : Place} {dir : Text} {n : Nat}
    (hleads : t.Leads dir p) (hopen : Text.utf8Size dir + 2 * (n + 1) < Path.maxSize)
    (hlong : Path.maxSize ≤ Text.utf8Size dir + 2 * n + 3 + fileNameSize) {session : Session}
    {loader : Option Loader} {source : Text} {r : Compiled}
    (hr : session.settings.compile loader source = .ok r) (now : Instant) :
    let c : Cache := ⟨Path.dots dir (n + 1)⟩
    Cache.open? t.status c.dir = .ok c ∧ ∃ path cause,
      (c.getOrCompile ⟨t, session⟩ loader now source).2 = .error (.io path cause) := by
  intro c
  have hdots : t.Leads c.dir p := hleads.dots hopen
  refine ⟨Cache.open?_eq_ok_iff.2 ⟨rfl, _, hdots⟩, ?_⟩
  rw [← Path.room_dots] at hlong
  exact ⟨_, _, congrArg Prod.snd
    (Cache.getOrCompile_of_long (c := c) (s := ⟨t, session⟩) hdots hlong hr now)⟩

/-- The working directory is empty, but under a path of 4027 bytes the cache does not answer a plain
text, which can be compiled. -/
theorem getOrCompile_fourThousandDots :
    let dir := Path.dots ['.'] 2013
    (FileTree.empty []).IsEmptyDir dir ∧ CollisionFree (Job.mk {} ['x']).texts ∧
    (Job.mk {} ['x']).outcome none = .ok ⟨⟨[.literal ['x']]⟩, [], []⟩ ∧
    ∀ now : Instant, Cache.open? (FileTree.empty []).status dir = .ok ⟨dir⟩ ∧
      ∃ path cause, (Cache.getOrCompile ⟨dir⟩ ⟨FileTree.empty [], .start {}⟩ none now ['x']).2 =
        .error (.io path cause) := by
  have hcompiled : (Job.mk {} ['x']).outcome none = .ok ⟨⟨[.literal ['x']]⟩, [], []⟩ := by
    decide +kernel
  exact ⟨(FileTree.isEmptyDir_cwd []).dots (by decide), collisionFree_pair (by decide +kernel),
    hcompiled, Cache.getOrCompile_dots (FileTree.leads_cwd _) (by decide) (by decide) hcompiled⟩

/-- Of two authors one changes their mind about removing a block, and is then served what the other
one compiled. -/
theorem getOrCompile_twoAuthors :
    let source := "Dear {NAME}".toList
    let pool := Pool.run ⟨['.']⟩ none
      ⟨FileTree.empty ["cache".toList], fun _ : Bool => .start {}, []⟩
      [.change true (.removals ["AD".toList] true), .get false source .noon,
        .change true (.removals [] false)]
    ∃ entry, (pool.ask ⟨['.']⟩ none true source .noon).2 = .ok (entry, .hit) ∧
      entry.program = ⟨[.literal "Dear ".toList, .varRef "NAME".toList none]⟩ := by
  intro source pool
  let job : Job := ⟨{}, source⟩
  let tree := FileTree.empty ["cache".toList]
  have hopen : Cache.open? tree.status ['.'] = .ok ⟨['.']⟩ := by decide
  have hempty : tree.IsEmptyDir ['.'] := FileTree.isEmptyDir_cwd _
  have hcompiled : job.outcome none =
      .ok ⟨⟨[.literal "Dear ".toList, .varRef "NAME".toList none]⟩, [], ["NAME".toList]⟩ := by
    decide +kernel
  have hfree : CollisionFree job.texts := collisionFree_pair (by decide +kernel)
  -- Both of them ask for the same job, so the first answer decides the second one.
  let first := Pool.run ⟨['.']⟩ none ⟨tree, fun _ : Bool => .start {}, []⟩
    [.change true (.removals ["AD".toList] true)]
  have hpast : pool.past = [⟨job, (first.ask ⟨['.']⟩ none false source .noon).2⟩] := rfl
  have hjob : pool.job true source = job := rfl
  have htexts : first.hashed ++ (first.job false source).texts = job.texts := rfl
  have htexts' : pool.hashed ++ (pool.job true source).texts = job.texts ++ job.texts := by
    rw [Pool.hashed, hpast]
    rfl
  obtain ⟨_, _, hfirst, -⟩ :=
    (getOrCompile_transparent hopen hempty (by decide) none _ _ false source .noon
      (show first = _ from rfl) (htexts ▸ hfree)).1 _ hcompiled
  obtain ⟨entry, status, hanswer, hprogram, -, -, hhit, -⟩ :=
    (getOrCompile_transparent hopen hempty (by decide) none _ _ true source .noon
      (show pool = _ from rfl) (by rw [htexts']; exact hfree.mono (by simp))).1 _ (hjob ▸ hcompiled)
  rw [hpast, hjob] at hhit
  have hhit : status = .hit := hhit.2 ⟨_, List.mem_cons_self, rfl, _, hfirst⟩
  exact ⟨entry, hhit ▸ hanswer, hprogram⟩

end CommentTemplate
