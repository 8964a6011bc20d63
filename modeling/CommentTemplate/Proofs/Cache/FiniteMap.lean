import CommentTemplate.Proofs.Cache.Directory

/-!
# The directory of a cache as a finite map

Entries are stored and loaded in any order in a directory that was empty at first.  What is loaded
for a key is the entry that was stored last under it, in every field, unless that entry is of
another release of the engine.  The other keys do not matter.

## Main definitions

* `Access`, `Cache.serve`, `Cache.answers` — what is asked of the directory, and what it answers
* `SameRelease` — a version that agrees with the running one in major and minor
* `Recalls` — what should be loaded after some entries were stored
* `Cache.Keeps` — the directory keeps the entries that were stored so far

## Main statements

* `Cache.Keeps.serve` — one access keeps the entries
* `Cache.Keeps.run` — so does every history
* `load_after_accesses` — what is loaded after any history

## Design decisions

**Writes are assumed to succeed.**  A write fails if the path of the directory is too long for the
names of files.  Such a directory keeps nothing, so `Cache.Keeps` asks for short paths only once an
entry was stored.  Directories that may not be written to and full disks are left out.
-/

namespace CommentTemplate

/-! ## What is asked of the directory -/

/-- What is asked of the directory of a cache. -/
inductive Access where
  /-- An entry is stored under its key. -/
  | store (entry : CacheEntry)
  /-- The entry of a key is loaded. -/
  | load (key : Text)

namespace Access

/-- What is answered to an access. -/
inductive Answer where
  | stored (r : Except CacheError Unit)
  | loaded (r : Except CacheError (Option CacheEntry))
deriving DecidableEq

/-- Whether an answer tells of a write that failed. -/
def Answer.isFailedWrite : Answer → Bool
  | .stored (.error _) => true
  | _ => false

/-- The entry that an access stores. -/
def entry? : Access → Option CacheEntry
  | store e => some e
  | load _ => none

end Access

/-- The entries that are stored in a history, in order. -/
def stored (accesses : List Access) : List CacheEntry := accesses.filterMap Access.entry?

namespace Cache

/-- The files after an access, and the answer. -/
def serve (c : Cache) (t : FileTree) : Access → FileTree × Access.Answer
  | .store e =>
    match c.store t e with
    | .ok t' => (t', .stored (.ok ()))
    | .error why => (t, .stored (.error why))
  | .load key => (t, .loaded (c.load t.status key))

/-- The files after a history. -/
def filesAfter (c : Cache) (t : FileTree) (accesses : List Access) : FileTree :=
  accesses.foldl (fun t a => (c.serve t a).1) t

/-- The answers to the accesses of a history. -/
def answers (c : Cache) : FileTree → List Access → List Access.Answer
  | _, [] => []
  | t, a :: accesses => (c.serve t a).2 :: answers c (c.serve t a).1 accesses

end Cache

/-! ## What should be loaded -/

/-- A version that agrees with the running one in its first two numbers. -/
def SameRelease (version : Text) : Prop :=
  ∃ v w, Version.parse? version = some v ∧ Version.parse? engineVersion = some w ∧
    v.major = w.major ∧ v.minor = w.minor

theorem isCompatible_iff {version : Text} : isCompatible version = true ↔ SameRelease version := by
  unfold isCompatible SameRelease
  rw [parse?_engineVersion]
  cases Version.parse? version with
  | none => simp
  | some v => simp [Version.compatible]

/-- What should be loaded for a key after some entries were stored, in this order. -/
inductive Recalls (past : List CacheEntry) (key : Text) : Option CacheEntry → Prop where
  /-- Nothing was stored under the key. -/
  | nothing (h : ∀ e ∈ past, e.key ≠ key) : Recalls past key none
  /-- The last entry under the key is of another release. -/
  | outdated {earlier later : List CacheEntry} {e : CacheEntry} (h : past = earlier ++ e :: later)
    (hkey : e.key = key) (hlast : ∀ e' ∈ later, e'.key ≠ key)
    (hrelease : ¬SameRelease e.engineVersion) : Recalls past key none
  /-- The last entry under the key. -/
  | last {earlier later : List CacheEntry} {e : CacheEntry} (h : past = earlier ++ e :: later)
    (hkey : e.key = key) (hlast : ∀ e' ∈ later, e'.key ≠ key)
    (hrelease : SameRelease e.engineVersion) : Recalls past key (some e)

/-- The first usable entry of a log, which has the latest entry first, is what should be loaded. -/
theorem recalls_find? (log : List CacheEntry) (key : Text) : Recalls log.reverse key
    ((log.find? (·.key = key)).filter fun e => isCompatible e.engineVersion) := by
  cases hfind : log.find? (·.key = key) with
  | none =>
      refine .nothing fun e he => ?_
      simpa using List.find?_eq_none.1 hfind e (List.mem_reverse.1 he)
  | some e =>
      obtain ⟨hkey, later, earlier, rfl, hlater⟩ := List.find?_eq_some_iff_append.1 hfind
      have hpast : (later ++ e :: earlier).reverse = earlier.reverse ++ e :: later.reverse := by
        simp
      have hkey : e.key = key := of_decide_eq_true hkey
      have hlast : ∀ e' ∈ later.reverse, e'.key ≠ key := by
        intro e' he'
        simpa using hlater e' (List.mem_reverse.1 he')
      cases hrelease : isCompatible e.engineVersion with
      | true =>
          simp only [Option.filter, hrelease, ↓reduceIte]
          exact .last hpast hkey hlast (isCompatible_iff.1 hrelease)
      | false =>
          simp only [Option.filter, hrelease, Bool.false_eq_true, ↓reduceIte]
          refine .outdated hpast hkey hlast fun h => ?_
          rw [isCompatible_iff.2 h] at hrelease
          cases hrelease

/-- No more than one thing should be loaded. -/
theorem Recalls.unique {past : List CacheEntry} {key : Text} {r r' : Option CacheEntry}
    (h : Recalls past key r) (h' : Recalls past key r') : r = r' := by
  -- Each of the rules says what the search from the end finds.
  have hfound {r : Option CacheEntry} (h : Recalls past key r) :
      r = (past.reverse.find? (·.key = key)).filter fun e => isCompatible e.engineVersion := by
    have hskip {later : List CacheEntry} (hlast : ∀ e' ∈ later, e'.key ≠ key) :
        later.reverse.find? (·.key = key) = none :=
      List.find?_eq_none.2 fun e' he' => by simpa using hlast e' (List.mem_reverse.1 he')
    cases h with
    | nothing h => rw [hskip h, Option.filter_none]
    | outdated hpast hkey hlast hrelease =>
        rw [← isCompatible_iff] at hrelease
        simp [hpast, hskip hlast, hkey, Option.filter_some, hrelease]
    | last hpast hkey hlast hrelease =>
        rw [← isCompatible_iff] at hrelease
        simp [hpast, hskip hlast, hkey, Option.filter_some, hrelease]
  rw [hfound h, hfound h']

/-! ## What the directory keeps -/

/-- A cache keeps some entries in its directory, the latest first.  Once there is an entry the paths
of the files are known to be short enough. -/
structure Cache.Keeps (c : Cache) (t : FileTree) (p : Place) (log : List CacheEntry) : Prop where
  leads : t.Leads c.dir p
  holds : Holds t p log
  room : log ≠ [] → Path.room c.dir + fileNameSize < Path.maxSize

namespace Cache

variable {c : Cache} {t : FileTree} {p : Place} {log : List CacheEntry}

theorem Keeps.start (hleads : t.Leads c.dir p)
    (hempty : ∀ name, t.statusAt (p ++ [name]) = .absent .missing) : c.Keeps t p [] where
  leads := hleads
  holds := ⟨by simp, hempty⟩
  room := nofun

/-- The entry kept last under a key is loaded, unless it is of another release. -/
theorem Keeps.load (h : c.Keeps t p log) {key : Text} (hkey : IsKey key) :
    c.load t.status key =
      .ok ((log.find? (·.key = key)).filter fun e => isCompatible e.engineVersion) := by
  rcases Nat.lt_or_ge (Path.room c.dir + fileNameSize) Path.maxSize with hroom | hlong
  · exact h.holds.load ⟨h.leads, hroom⟩ hkey
  · -- The paths are too long, so nothing was ever stored.
    have hnil : log = [] := by
      by_contra hne
      exact absurd (h.room hne) (Nat.not_lt.2 hlong)
    rw [load_of_long h.leads hlong hkey, hnil]
    rfl

/-- An entry that was stored is kept. -/
theorem Keeps.store (h : c.Keeps t p log) {e : CacheEntry} (hkey : IsKey e.key)
    (hreal : e.compiledAt.IsReal) {t' : FileTree} (hstore : c.store t e = .ok t') :
    c.Keeps t' p (e :: log) := by
  rcases Nat.lt_or_ge (Path.room c.dir + fileNameSize) Path.maxSize with hroom | hlong
  · obtain ⟨hput, hholds⟩ := h.holds.store ⟨h.leads, hroom⟩ hkey hreal
    obtain rfl := Except.ok.inj (hput.symm.trans hstore)
    exact ⟨h.leads.put, hholds, fun _ => hroom⟩
  · rw [store_of_long h.leads hlong hkey] at hstore
    cases hstore

/-- **One access keeps the entries**, and adds the one that it stores. -/
theorem Keeps.serve (h : c.Keeps t p log) (a : Access)
    (hkey : ∀ e ∈ a.entry?, IsKey e.key) (hreal : ∀ e ∈ a.entry?, e.compiledAt.IsReal)
    (hwrite : (c.serve t a).2.isFailedWrite = false) :
    c.Keeps (c.serve t a).1 p (a.entry?.toList ++ log) := by
  cases a with
  | load key => exact h
  | store e =>
      cases hstore : c.store t e with
      | error why =>
          simp only [Cache.serve, hstore] at hwrite
          cases hwrite
      | ok t' =>
          simp only [Cache.serve, hstore]
          exact h.store (hkey e rfl) (hreal e rfl) hstore

/-- **Every history keeps the entries**, and adds those that it stores. -/
theorem Keeps.run (h : c.Keeps t p log) {accesses : List Access}
    (hkeys : ∀ e ∈ stored accesses, IsKey e.key)
    (hreal : ∀ e ∈ stored accesses, e.compiledAt.IsReal)
    (hwrites : ∀ x ∈ c.answers t accesses, x.isFailedWrite = false) :
    c.Keeps (c.filesAfter t accesses) p ((stored accesses).reverse ++ log) := by
  induction accesses generalizing t log with
  | nil => exact h
  | cons a accesses ih =>
      have hstored : stored (a :: accesses) = a.entry?.toList ++ stored accesses := by
        cases a <;> rfl
      rw [hstored] at hkeys hreal ⊢
      simp only [List.forall_mem_append, Option.mem_toList] at hkeys hreal
      rw [Cache.answers, List.forall_mem_cons] at hwrites
      have hlog : (a.entry?.toList ++ stored accesses).reverse ++ log =
          (stored accesses).reverse ++ (a.entry?.toList ++ log) := by
        cases a <;> simp [Access.entry?]
      rw [hlog]
      exact ih (h.serve a hkeys.1 hreal.1 hwrites.1) hkeys.2 hreal.2 hwrites.2

end Cache

/-! ## After any history -/

/-- **The directory of a cache behaves as a finite map.**  After any history of a directory that was
empty at first, in which the entries had keys and real times and no write failed, what is loaded for
a key is no error, and is the entry stored last under the key, or nothing if there is none or it is
of another release.  Another entry that is stored then changes that for its own key only. -/
theorem load_after_accesses {tree : FileTree} {dir : Text} {c : Cache}
    (hopen : Cache.open? tree.status dir = .ok c) (hempty : tree.IsEmptyDir dir)
    {accesses : List Access} (hkeys : ∀ e ∈ stored accesses, IsKey e.key)
    (hreal : ∀ e ∈ stored accesses, e.compiledAt.IsReal)
    (hwrites : ∀ x ∈ c.answers tree accesses, x.isFailedWrite = false)
    {key : Text} (hkey : IsKey key) :
    let t := c.filesAfter tree accesses
    (∃ r, c.load t.status key = .ok r ∧ Recalls (stored accesses) key r) ∧
    ∀ (e : CacheEntry) (t' : FileTree), IsKey e.key → e.compiledAt.IsReal → e.key ≠ key →
      c.store t e = .ok t' → c.load t'.status key = c.load t.status key := by
  intro t
  obtain ⟨p, hleads, habsent⟩ := hempty
  obtain ⟨rfl, -⟩ := Cache.open?_eq_ok_iff.1 hopen
  have hkeeps : Cache.Keeps ⟨dir⟩ t p ((stored accesses).reverse ++ []) :=
    (Cache.Keeps.start hleads habsent).run hkeys hreal hwrites
  rw [List.append_nil] at hkeeps
  refine ⟨⟨_, hkeeps.load hkey, ?_⟩, fun e t' hkey' hreal' hne hstore => ?_⟩
  · simpa using recalls_find? (stored accesses).reverse key
  · rw [(hkeeps.store hkey' hreal' hstore).load hkey, hkeeps.load hkey, List.find?_cons_of_neg]
    simpa using hne

/-- Two menus are stored, then the first one again with another dish, and one for next week by an
older engine.  The other dish is loaded, and next week has no menu. -/
theorem load_menus :
    let today := List.replicate 64 'a'
    let nextWeek := List.replicate 64 'b'
    let menu (key version dish : Text) : CacheEntry :=
      ⟨key, version, Moment.noon.instant, [], ["N".toList],
        ⟨[.literal dish, .varRef "N".toList none, .varRef "N".toList (some "up".toList)]⟩⟩
    let soup := menu today engineVersion "soup".toList
    let rice := menu nextWeek engineVersion "rice".toList
    let stew := menu today "1.0.9-rc.1".toList "\"stew\"".toList
    let fish := menu nextWeek "0.9.0".toList "fish".toList
    let t := Cache.filesAfter ⟨['.']⟩ (FileTree.empty ["cache".toList])
      [.store soup, .store rice, .load today, .store stew, .store fish]
    Cache.load ⟨['.']⟩ t.status today = .ok (some stew) ∧
      Cache.load ⟨['.']⟩ t.status nextWeek = .ok none := by
  intro today nextWeek menu soup rice stew fish t
  let accesses : List Access :=
    [.store soup, .store rice, .load today, .store stew, .store fish]
  have hopen : Cache.open? (FileTree.empty ["cache".toList]).status ['.'] = .ok ⟨['.']⟩ := by decide
  have hdigit {d : Char} (hd : d ∈ "0123456789abcdef".toList) : IsKey (List.replicate 64 d) :=
    ⟨rfl, fun c hc => List.eq_of_mem_replicate hc ▸ hd⟩
  have htoday : IsKey today := hdigit (by decide)
  have hnextWeek : IsKey nextWeek := hdigit (by decide)
  have hkeys : ∀ e ∈ stored accesses, IsKey e.key := by
    have heither : ∀ e ∈ stored accesses, e.key = today ∨ e.key = nextWeek := by decide
    intro e he
    rcases heither e he with h | h
    · exact h ▸ htoday
    · exact h ▸ hnextWeek
  have hreal : ∀ e ∈ stored accesses, e.compiledAt.IsReal := by
    have hnoon : ∀ e ∈ stored accesses, e.compiledAt = Moment.noon.instant := by decide
    intro e he
    exact hnoon e he ▸ Moment.noon.isReal
  have hwrites : ∀ x ∈ Cache.answers ⟨['.']⟩ (FileTree.empty ["cache".toList]) accesses,
      x.isFailedWrite = false := by
    decide +kernel
  have hload {key : Text} (hkey : IsKey key) {r : Option CacheEntry}
      (h : Recalls (stored accesses) key r) : Cache.load ⟨['.']⟩ t.status key = .ok r := by
    obtain ⟨⟨r', hload, h'⟩, -⟩ := load_after_accesses hopen (FileTree.isEmptyDir_cwd _)
      hkeys hreal hwrites hkey
    rw [h.unique h']
    exact hload
  have hrunning : SameRelease "1.0.9-rc.1".toList := isCompatible_iff.1 (by decide)
  have holder : ¬SameRelease "0.9.0".toList := by
    rw [← isCompatible_iff]
    decide
  constructor
  · have hpast : stored accesses = [soup, rice] ++ stew :: [fish] := rfl
    exact hload htoday (.last hpast rfl (by decide) hrunning)
  · have hpast : stored accesses = [soup, rice, stew] ++ fish :: [] := rfl
    exact hload hnextWeek (.outdated hpast rfl (by decide) holder)

end CommentTemplate
