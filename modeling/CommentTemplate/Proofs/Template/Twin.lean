import CommentTemplate.Proofs.Compile.Reached
import CommentTemplate.Proofs.Template.Actions

/-!
# A template with a cache beside one without

A template comes by its compilation in one of five ways: it was kept, it was filed in the cache,
it is compiled and filed now, it fails, or the file cannot be read.  A twin without a cache comes by
the same compilation in each case, as long as the files stay as they are and what was filed is what
the includes of the twin give.

## Main definitions

* `Unchanged` — the file of a template and the includes reached from it are the same in two trees
* `Obtains` — the ways in which a template with a cache comes by its compilation
* `Twin` — a template with a cache and one without that answer the same
* `Echo` — a template and its twin came by the same compilation

## Main statements

* `Holds.ensureCompiled` — a template comes by its compilation in one of these ways
* `Obtains.echo` — whatever way it is, the twin comes by the same compilation
* `Twin.act` — twins answer the same and stay twins
-/

namespace CommentTemplate

/-! ## Files that stay as they are -/

/-- The file of a template and the includes that are reached from it are the same in two trees. -/
structure Unchanged (path root : Text) (tree tree' : FileTree) : Prop where
  file : tree'.status path = tree.status path
  includes : ∀ source, tree.read path = .ok source → ∀ inner,
    Reached (.ofDirectory tree.status root) source inner →
      tree'.status (Path.join root (includePath inner)) =
        tree.status (Path.join root (includePath inner))

section Unchanged

variable {path root source : Text} {tree tree' : FileTree}

theorem Unchanged.read (h : Unchanged path root tree tree') :
    tree'.read path = tree.read path :=
  congrArg FileStatus.text h.file

theorem Unchanged.compile (h : Unchanged path root tree tree') (hread : tree.read path = .ok source)
    (settings : Settings) :
    settings.compile (some (.ofDirectory tree'.status root)) source =
      settings.compile (some (.ofDirectory tree.status root)) source := by
  refine (compile_congr (fun inner hinner => ?_) settings).symm
  have hstatus := h.includes source hread inner hinner
  exact ⟨rfl, congrArg FileStatus.isFile hstatus.symm,
    fun _ => congrArg (fun s => s.bytes.map decodeUtf8Lossy) hstatus.symm⟩

end Unchanged

/-! ## How a template comes by its compilation -/

open Template (State Action Answer)

/-- The ways in which a template with a cache comes by its compilation, with the state afterwards
and what is filed then. -/
inductive Obtains (p : Place) (filings : List Filing) (s : State) :
    State × Except TemplateError CacheEntry → List Filing → Prop where
  /-- It was kept. -/
  | kept {e : CacheEntry} (h : s.template.compiled = some e) :
    Obtains p filings s (s, .ok e) filings
  /-- The file cannot be read. -/
  | unreadable {failure : ReadFailure} (hnone : s.template.compiled = none)
    (h : s.tree.read s.template.path = .error failure) :
    Obtains p filings s (s, .error (.io s.template.path failure.message)) filings
  /-- It was filed. -/
  | hit {source : Text} {f : Filing} (hnone : s.template.compiled = none)
    (h : s.tree.read s.template.path = .ok source) (hf : f ∈ filings)
    (hjob : f.job = ⟨s.template.session.settings, source⟩) :
    Obtains p filings s
      (⟨s.tree, { s.template with compiled := some f.entry }⟩, .ok f.entry) filings
  /-- It fails. -/
  | failed {source : Text} {e : CompileError} (hnone : s.template.compiled = none)
    (h : s.tree.read s.template.path = .ok source)
    (hnew : ∀ f ∈ filings, f.job ≠ ⟨s.template.session.settings, source⟩)
    (he : s.template.session.settings.compile
      (some (.ofDirectory s.tree.status s.template.root)) source = .error e) :
    Obtains p filings s (s, .error (.cache (.compile e))) filings
  /-- It is new, and is filed. -/
  | miss {source : Text} {f : Filing} {bytes : ByteArray} (hnone : s.template.compiled = none)
    (h : s.tree.read s.template.path = .ok source)
    (hnew : ∀ f ∈ filings, f.job ≠ ⟨s.template.session.settings, source⟩)
    (hjob : f.job = ⟨s.template.session.settings, source⟩)
    (hr : s.template.session.settings.compile
      (some (.ofDirectory s.tree.status s.template.root)) source = .ok f.compiled) :
    Obtains p filings s
      (⟨s.tree.put (p ++ [fileName f.job.key]) bytes,
        { s.template with
          session := s.template.session.after f.compiled, compiled := some f.entry }⟩,
        .ok f.entry) (f :: filings)

/-- The job that a template without a kept compilation has for the cache. -/
def Template.job? (s : State) : Option Job :=
  match s.template.compiled, s.tree.read s.template.path with
  | none, .ok source => some ⟨s.template.session.settings, source⟩
  | _, _ => none

section Obtains

variable {p : Place} {filings filings' : List Filing} {s : State}
  {r : State × Except TemplateError CacheEntry}

theorem Obtains.cache (h : Obtains p filings s r filings') :
    r.1.template.cache = s.template.cache := by
  cases h <;> rfl

theorem Obtains.opens (h : Obtains p filings s r filings') {c : Cache} (hopen : c.Opens s.tree p) :
    c.Opens r.1.tree p := by
  cases h with
  | miss => exact hopen.put
  | _ => exact hopen

/-- Only the job of the template may be filed. -/
theorem Obtains.mem (h : Obtains p filings s r filings') {f : Filing} (hf : f ∈ filings') :
    f ∈ filings ∨ Template.job? s = some f.job ∧ s.tree.read s.template.path = .ok f.job.source ∧
      f.job.outcome (some (.ofDirectory s.tree.status s.template.root)) = .ok f.compiled := by
  cases h with
  | @miss source g bytes hnone h hnew hjob hr =>
      rcases List.mem_cons.1 hf with rfl | hf
      · refine .inr ⟨?_, ?_, ?_⟩
        · simp only [Template.job?, hnone, h, hjob]
        · rw [hjob, h]
        · rw [hjob]
          exact hr
      · exact .inl hf
  | _ => exact .inl hf

theorem Template.job?_eq_some {j : Job} (h : job? s = some j) : s.template.compiled = none ∧
    s.tree.read s.template.path = .ok j.source ∧ j = ⟨s.template.session.settings, j.source⟩ := by
  rw [job?] at h
  split at h
  · next hnone hread =>
      obtain rfl := Option.some.inj h
      exact ⟨hnone, hread, rfl⟩
  · cases h

/-- A template gets what was filed for its job. -/
theorem Obtains.of_filed (h : Obtains p filings s r filings') {j : Job}
    (hj : Template.job? s = some j) (hfiled : ∃ f ∈ filings, f.job = j) :
    ∃ f ∈ filings, f.job = j ∧ r.2 = .ok f.entry := by
  obtain ⟨hunkept, hread, hown⟩ := Template.job?_eq_some hj
  have hsource {source : Text} (h : s.tree.read s.template.path = .ok source) :
      source = j.source := Except.ok.inj (h.symm.trans hread)
  cases h with
  | kept h => rw [hunkept] at h; cases h
  | unreadable _ h => rw [hread] at h; cases h
  | @hit source f _ h hf hjob => exact ⟨f, hf, by rw [hjob, hsource h, ← hown], rfl⟩
  | failed _ h hnew | miss _ h hnew =>
      obtain ⟨f, hf, hjob⟩ := hfiled
      exact absurd (by rw [hjob, hsource h, ← hown]) (hnew f hf)

/-- A new job that succeeds is filed. -/
theorem Obtains.of_new (h : Obtains p filings s r filings') {j : Job} {c : Compiled}
    (hj : Template.job? s = some j) (hnew : ∀ f ∈ filings, f.job ≠ j)
    (hc : j.outcome (some (s.template.loader s.tree)) = .ok c) :
    ∃ f, f.job = j ∧ f.compiled = c ∧ r.2 = .ok f.entry ∧ filings' = f :: filings := by
  obtain ⟨hunkept, hread, hown⟩ := Template.job?_eq_some hj
  have hsource {source : Text} (h : s.tree.read s.template.path = .ok source) :
      source = j.source := Except.ok.inj (h.symm.trans hread)
  rw [hown] at hc
  cases h with
  | kept h => rw [hunkept] at h; cases h
  | unreadable _ h => rw [hread] at h; cases h
  | @hit source f _ h hf hjob => exact absurd (by rw [hjob, hsource h, ← hown]) (hnew f hf)
  | failed _ h _ he =>
      rw [hsource h] at he
      cases he.symm.trans hc
  | @miss source f bytes _ h _ hjob hr =>
      rw [hsource h] at hr
      exact ⟨f, by rw [hjob, hsource h, ← hown], Except.ok.inj (hr.symm.trans hc), rfl, rfl⟩

end Obtains

/-- **A template comes by its compilation in one of these ways.** -/
theorem Holds.ensureCompiled {s : State} {p : Place} {filings : List Filing}
    (h : Holds s.tree p (filings.map Filing.entry)) {c : Cache} (hcache : s.template.cache = some c)
    (hopen : c.Opens s.tree p)
    (hfree : CollisionFree (filings.flatMap (·.job.texts) ++
      (Template.job? s).toList.flatMap Job.texts)) (now : Moment) :
    ∃ filings', Obtains p filings s (Template.ensureCompiled s now.instant) filings' ∧
      Holds (Template.ensureCompiled s now.instant).1.tree p (filings'.map Filing.entry) := by
  obtain ⟨tree, t⟩ := s
  cases hnone : t.compiled with
  | some e =>
      rw [Template.ensureCompiled_of_kept hnone]
      exact ⟨filings, .kept hnone, h⟩
  | none =>
      cases hread : tree.read t.path with
      | error failure =>
          rw [Template.ensureCompiled_of_error hnone hread]
          exact ⟨filings, .unreadable hnone hread, h⟩
      | ok source =>
          have hjob : Template.job? ⟨tree, t⟩ = some ⟨t.session.settings, source⟩ := by
            simp only [Template.job?, hnone, hread]
          obtain ⟨filings', hserves, hholds⟩ :=
            @Holds.getOrCompile c p filings ⟨tree, t.session⟩ (some (t.loader tree)) source h hopen
              (by simpa [hjob] using hfree) now
          simp only [Template.ensureCompiled, hnone]
          rw [Template.compileFile_of_some hread hcache]
          generalize c.getOrCompile ⟨tree, t.session⟩ (some (t.loader tree)) now.instant source = r
            at hserves hholds
          cases hserves with
          | hit hf hjob => exact ⟨filings, .hit hnone hread hf hjob, hholds⟩
          | failed hnew he => exact ⟨filings, .failed hnone hread hnew he, hholds⟩
          | miss hnew hjob hr => exact ⟨_, .miss hnone hread hnew hjob hr, hholds⟩

/-! ## Twins -/

/-- A template of a file below a root directory, and one without a cache that answers the same. -/
structure Twin (path root : Text) (t u : Template) : Prop where
  path : t.path = path ∧ u.path = path
  root : t.root = root ∧ u.root = root
  settings : t.session.settings = u.session.settings
  bindings : t.bindings = u.bindings
  uncached : u.cache = none
  compiled : t.compiled.map CacheEntry.compiled = u.compiled.map CacheEntry.compiled

/-- Two templates came by the same compilation, or failed in the same way. -/
structure Echo (path root : Text) (origin : FileTree)
    (r r₀ : State × Except TemplateError CacheEntry) : Prop where
  twin : Twin path root r.1.template r₀.1.template
  tree : r₀.1.tree = origin
  answer : (r.2.map CacheEntry.compiled).mapError TemplateError.bare =
    r₀.2.map CacheEntry.compiled

section Twin

variable {path root source : Text} {origin tree : FileTree} {t u : Template}

/-- A template that comes by what the includes of its twin give echoes the twin. -/
theorem Twin.echo (htwin : Twin path root t u) (hnone : u.compiled = none)
    (hread : origin.read u.path = .ok source) {e : CacheEntry}
    (hcompiled : t.session.settings.compile (some (.ofDirectory origin.status root)) source =
      .ok e.compiled) (tree' : FileTree) (session : Session)
    (hsession : session.settings = t.session.settings) (now : Instant) :
    Echo path root origin (⟨tree', { t with session := session, compiled := some e }⟩, .ok e)
      (Template.ensureCompiled ⟨origin, u⟩ now) := by
  have hown : u.session.settings.compile (some (u.loader origin)) source = .ok e.compiled := by
    rw [← hcompiled, htwin.settings, Template.loader, htwin.root.2]
  rw [Template.ensureCompiled_of_uncached hnone htwin.uncached hread, hown]
  refine ⟨⟨htwin.path, htwin.root, hsession.trans htwin.settings, htwin.bindings,
    htwin.uncached, ?_⟩, rfl, ?_⟩
  · simp only [Option.map_some, CacheEntry.compiled_ofCompiled]
  · simp only [Except.map, Except.mapError, CacheEntry.compiled_ofCompiled]

/-- **Whatever way it is, the twin comes by the same compilation**, if what was filed for the job
is what the includes of the twin give. -/
theorem Obtains.echo {p : Place} {filings filings' : List Filing}
    {r : State × Except TemplateError CacheEntry} (h : Obtains p filings ⟨tree, t⟩ r filings')
    (htwin : Twin path root t u) (hsame : Unchanged path root origin tree)
    (hfiled : ∀ f ∈ filings, Template.job? ⟨tree, t⟩ = some f.job →
      f.job.outcome (some (.ofDirectory origin.status root)) = .ok f.compiled)
    (now : Instant) : Echo path root origin r (Template.ensureCompiled ⟨origin, u⟩ now) := by
  have hunkept (hnone : t.compiled = none) : u.compiled = none := by
    simpa [hnone] using htwin.compiled.symm
  have hread : tree.read t.path = origin.read u.path := by
    rw [htwin.path.1, htwin.path.2, hsame.read]
  have hcompile {source : Text} (h : tree.read t.path = .ok source) :
      t.session.settings.compile (some (.ofDirectory tree.status t.root)) source =
        t.session.settings.compile (some (.ofDirectory origin.status root)) source := by
    rw [htwin.root.1, hsame.compile]
    rw [← h, hread, htwin.path.2]
  cases h with
  | @kept e h =>
      have hcompiled := htwin.compiled
      rw [show t.compiled = some e from h] at hcompiled
      cases hkept : u.compiled with
      | none => simp [hkept] at hcompiled
      | some e' =>
          rw [hkept, Option.map_some, Option.map_some, Option.some.injEq] at hcompiled
          rw [Template.ensureCompiled_of_kept hkept]
          exact ⟨htwin, rfl, congrArg Except.ok hcompiled⟩
  | unreadable hnone h =>
      rw [Template.ensureCompiled_of_error (hunkept hnone) (hread ▸ h)]
      exact ⟨htwin, rfl, by rw [htwin.path.1, htwin.path.2]; rfl⟩
  | @hit source f hnone h hf hjob =>
      have hjob? : Template.job? ⟨tree, t⟩ = some f.job := by
        rw [Template.job?, hnone, h, hjob]
      have hcompiled : t.session.settings.compile (some (.ofDirectory origin.status root))
          source = .ok f.entry.compiled := by
        rw [Filing.compiled_entry, ← hfiled f hf hjob?, hjob]
        rfl
      exact htwin.echo (hunkept hnone) (hread ▸ h) hcompiled tree t.session rfl now
  | @failed source e hnone h hnew he =>
      have hcompiled : u.session.settings.compile (some (u.loader origin)) source = .error e := by
        rw [← he, hcompile h, ← htwin.settings, Template.loader, htwin.root.2]
      rw [Template.ensureCompiled_of_uncached (hunkept hnone) htwin.uncached (hread ▸ h),
        hcompiled]
      exact ⟨htwin, rfl, rfl⟩
  | @miss source f bytes hnone h hnew hjob hr =>
      have hcompiled : t.session.settings.compile (some (.ofDirectory origin.status root))
          source = .ok f.entry.compiled := by
        rw [Filing.compiled_entry, ← hr, ← hcompile h]
      exact htwin.echo (hunkept hnone) (hread ▸ h) hcompiled _ (t.session.after f.compiled) rfl now

theorem Echo.compile {s s₀ : State} {now : Moment} (h : Echo path root origin
    (Template.ensureCompiled s now.instant) (Template.ensureCompiled s₀ now.instant)) :
    (Template.act s (.compile now)).2.bare = (Template.act s₀ (.compile now)).2 := by
  have hanswer := h.answer
  simp only [Template.act, Template.compile, Answer.bare]
  generalize Template.ensureCompiled s now.instant = r at hanswer
  generalize Template.ensureCompiled s₀ now.instant = r₀ at hanswer
  rcases r with ⟨_, e | e⟩ <;> rcases r₀ with ⟨_, e₀ | e₀⟩ <;>
    simp only [Except.map, Except.mapError, Except.error.injEq, Except.ok.injEq,
      reduceCtorEq] at hanswer
  · rw [← hanswer]
    rfl
  · exact congrArg (fun c : Compiled => Answer.program (.ok c.program)) hanswer

theorem Echo.render {s s₀ : State} {now : Moment} (h : Echo path root origin
    (Template.ensureCompiled s now.instant) (Template.ensureCompiled s₀ now.instant)) :
    (Template.act s (.render now)).2.bare = (Template.act s₀ (.render now)).2 := by
  obtain ⟨htwin, -, hanswer⟩ := h
  simp only [Template.act, Template.render]
  generalize Template.ensureCompiled s now.instant = r at htwin hanswer
  generalize Template.ensureCompiled s₀ now.instant = r₀ at htwin hanswer
  rcases r with ⟨s', e | e⟩ <;> rcases r₀ with ⟨s₀', e₀ | e₀⟩ <;>
    simp only [Except.map, Except.mapError, Except.error.injEq, Except.ok.injEq,
      reduceCtorEq] at hanswer
  · exact congrArg (fun e => Answer.text (.error e)) hanswer
  · have hprogram : e.program = e₀.program := congrArg Compiled.program hanswer
    have hsettings : s'.template.session.settings = s₀'.template.session.settings :=
      htwin.settings
    have hbindings : s'.template.bindings = s₀'.template.bindings := htwin.bindings
    simp only [hsettings, hbindings, hprogram]
    cases CommentTemplate.render s₀'.template.session.settings.config.strict e₀.program
      s₀'.template.bindings <;> rfl

/-- Twins that come by the same compilation answer the same, and stay twins. -/
theorem Twin.act (htwin : Twin path root t u) (origin tree : FileTree) (action : Action)
    (hecho : ∀ now, action.moment? = some now → Echo path root origin
      (Template.ensureCompiled ⟨tree, t⟩ now.instant)
      (Template.ensureCompiled ⟨origin, u⟩ now.instant)) :
    (Template.act ⟨tree, t⟩ action).2.bare = (Template.act ⟨origin, u⟩ action).2 ∧
      (Template.act ⟨origin, u⟩ action).1.tree = origin ∧
      Twin path root (Template.act ⟨tree, t⟩ action).1.template
        (Template.act ⟨origin, u⟩ action).1.template := by
  cases action with
  | change change =>
      refine ⟨rfl, rfl, htwin.path, htwin.root, ?_, htwin.bindings, htwin.uncached, rfl⟩
      exact congrArg change.apply htwin.settings
  | turn block scope =>
      refine ⟨rfl, rfl, htwin.path, htwin.root, htwin.settings, ?_, htwin.uncached,
        htwin.compiled⟩
      exact congrArg (·.pushIteration block scope) htwin.bindings
  | values values =>
      refine ⟨rfl, rfl, htwin.path, htwin.root, htwin.settings, ?_, htwin.uncached,
        htwin.compiled⟩
      exact congrArg (·.extendValues values) htwin.bindings
  | compile now =>
      obtain ⟨htwin', htree, -⟩ := hecho now rfl
      exact ⟨(hecho now rfl).compile, htree, htwin'⟩
  | render now =>
      obtain ⟨htwin', htree, -⟩ := hecho now rfl
      refine ⟨(hecho now rfl).render, ?_⟩
      rw [Template.act_of_moment rfl, Template.act_of_moment rfl]
      exact ⟨htree, htwin'⟩

end Twin

end CommentTemplate
