import CommentTemplate.Proofs.Files.Containment
import CommentTemplate.Proofs.Include.Cycle

/-!
# A directory and the same files in memory

Sources that are kept in memory stand in for the files of a directory.  The two loaders look a path
up in different ways: one compares it with whole paths, and the other walks along its components.
For paths that are written in the one canonical way they find the same, so that includes are
resolved to the same text, or with the same error but for the path of the directory in front.

The path of a file with that of the directory in front of it has to be short enough for the
operating system.  A file whose path is not cannot be included from the directory.

## Main definitions

* `Path.IsCanonical` — a path that names the directories on its way and then a file
* `FileTree.HasFile`, `FileTree.Holds` — the files below a place, one and all
* `Loader.Mirrors` — a loader with the same sources in a directory
* `CompileError.below` — an error about the sources in a directory

## Main statements

* `FileTree.Holds.isFile_join_iff` — the files that canonical paths lead to
* `resolveIncludes_of_mirrors` — a resolution with the one loader, told by that with the other one
* `resolveIncludes_ofDirectory` — the loader of a directory and that of the same files in memory
* `resolveIncludes_twoThousandDots` — a file that is too far away
-/

namespace CommentTemplate

/-! ## Canonical paths -/

namespace Path

/-- A relative path each component of which is a name, with no backslash in front. -/
structure IsCanonical (path : Text) : Prop where
  named : ∀ c ∈ components path, c ≠ [] ∧ c ≠ ['.'] ∧ c ≠ ['.', '.']
  head : path.head? ≠ some '\\'

instance decidableIsCanonical (path : Text) : Decidable (IsCanonical path) :=
  decidable_of_iff ((∀ c ∈ components path, c ≠ [] ∧ c ≠ ['.'] ∧ c ≠ ['.', '.']) ∧
    path.head? ≠ some '\\') ⟨fun h => ⟨h.1, h.2⟩, fun h => ⟨h.named, h.head⟩⟩

/-- A path is its components with slashes between them. -/
theorem ofComponents_components (path : Text) : ofComponents (components path) = path := by
  induction path with
  | nil => rfl
  | cons c t ih =>
      obtain ⟨d, ds, hd⟩ := List.exists_cons_of_ne_nil (components_ne_nil t)
      rw [hd] at ih
      rw [components, hd]
      split
      · next hc =>
          subst hc
          rw [← ih]
          simp [ofComponents, List.intercalate]
      · rw [← ih]
        cases ds <;> simp [ofComponents, List.intercalate]

theorem components_injective : components.Injective :=
  Function.LeftInverse.injective ofComponents_components

variable {path : Text}

theorem IsCanonical.ne_nil (h : IsCanonical path) : path ≠ [] := by
  rintro rfl
  exact (h.named [] List.mem_cons_self).1 rfl

theorem IsCanonical.head_ne_slash (h : IsCanonical path) : path.head? ≠ some '/' := by
  intro hhead
  obtain ⟨t, rfl⟩ := List.head?_eq_some_iff.1 hhead
  exact (h.named [] List.mem_cons_self).1 rfl

/-- A canonical path is looked up as it is. -/
theorem IsCanonical.includePath (h : IsCanonical path) : includePath path = path := by
  obtain ⟨c, t, rfl⟩ := List.exists_cons_of_ne_nil h.ne_nil
  have hslash : c ≠ '/' := fun hc => h.head_ne_slash (congrArg some hc)
  have hback : c ≠ '\\' := fun hc => h.head (congrArg some hc)
  rw [CommentTemplate.includePath, List.dropWhile_cons_of_neg (by simp [hslash, hback])]

end Path

/-! ## The files below a place -/

namespace FileTree

variable {t : FileTree} {base path : Text} {p q : Place}

/-- A canonical path leads from a place to a file with some text. -/
structure HasFile (t : FileTree) (p : Place) (path text : Text) : Prop where
  canonical : Path.IsCanonical path
  null : '\x00' ∉ path
  way : t.walk p (Path.components path) = .ok (p ++ Path.components path)
  content : t.statusAt (p ++ Path.components path) = .file (encodeUtf8 text)

/-- The files below a place are those of some sources, which all are texts. -/
structure Holds (t : FileTree) (p : Place) (sources : Sources) : Prop where
  has : ∀ path source, sources.find? path = some source →
    ∃ text, source = .ok text ∧ t.HasFile p path text
  only : ∀ names, (t.statusAt (p ++ names)).isFile = true →
    ∃ path, sources.contains path = true ∧ Path.components path = names

/-- A walk along names leads to the place that they name. -/
theorem eq_append_of_walk {cs : List Text} (h : t.walk p cs = .ok q)
    (hcs : ∀ c ∈ cs, c ≠ [] ∧ c ≠ ['.'] ∧ c ≠ ['.', '.']) : p ++ cs = q := by
  induction cs generalizing p with
  | nil =>
      rw [List.append_nil]
      exact Except.ok.inj h
  | cons c cs ih =>
      obtain ⟨-, -, h⟩ := walk_cons_eq_ok_iff.1 h
      obtain ⟨⟨hne, hdot, hdots⟩, hcs⟩ := List.forall_mem_cons.1 hcs
      rw [step, if_neg (by simp [hne, hdot]), if_neg hdots] at h
      rw [← ih h hcs, List.append_assoc]
      rfl

theorem mem_of_fileAt {bytes : ByteArray} (h : t.fileAt p = some bytes) : (p, bytes) ∈ t.files := by
  obtain ⟨f, hf, rfl⟩ := Option.map_eq_some_iff.1 h
  obtain rfl : f.1 = p := by simpa using List.find?_some hf
  exact List.mem_of_find?_eq_some hf

/-- A file below a place is found behind the path of the place. -/
theorem HasFile.status_join {text : Text} (h : t.HasFile p path text) (hleads : t.Leads base p)
    (hsize : Path.room base + Text.utf8Size path < Path.maxSize) :
    t.status (Path.join base path) = .file (encodeUtf8 text) := by
  have hhead := h.canonical.head_ne_slash
  obtain ⟨hnull, -⟩ := resolve_eq_ok_iff.1 hleads.resolve
  have hresolve : t.resolve (Path.join base path) = .ok (p ++ Path.components path) := by
    refine resolve_eq_ok_iff.2 ⟨Path.notMem_join hnull h.null (by decide),
      Path.join_ne_nil h.canonical.ne_nil, ?_, (hleads.walk_join hhead).2 h.way⟩
    rwa [Path.join_of_head hhead, Text.utf8Size_append]
  rw [status_of_resolve hresolve, h.content]

/-- Each source is found behind the path of the place. -/
theorem Holds.status_join {sources : Sources} (h : t.Holds p sources) (hleads : t.Leads base p)
    (hroom : ∀ path, sources.contains path = true →
      Path.room base + Text.utf8Size path < Path.maxSize)
    {source : Except Text Text} (hsource : sources.find? path = some source) :
    ∃ text, source = .ok text ∧ t.status (Path.join base path) = .file (encodeUtf8 text) := by
  obtain ⟨text, rfl, hfile⟩ := h.has path source hsource
  exact ⟨text, rfl, hfile.status_join hleads (hroom path (by simp [Dict.contains, hsource]))⟩

/-- **The files that canonical paths lead to** are those of the sources. -/
theorem Holds.isFile_join_iff {sources : Sources} (h : t.Holds p sources)
    (hleads : t.Leads base p)
    (hroom : ∀ path, sources.contains path = true →
      Path.room base + Text.utf8Size path < Path.maxSize)
    (hpath : Path.IsCanonical path) :
    (t.status (Path.join base path)).isFile = true ↔ sources.contains path = true := by
  constructor
  · intro hfile
    obtain ⟨q, hq, hstatus⟩ := (status_eq_iff_of_isFile hfile).1 rfl
    obtain ⟨-, -, -, hwalk⟩ := resolve_eq_ok_iff.1 hq
    rw [hleads.walk_join hpath.head_ne_slash] at hwalk
    obtain rfl := eq_append_of_walk hwalk hpath.named
    obtain ⟨path', hcontains, hpath'⟩ := h.only _ (hstatus ▸ hfile)
    exact Path.components_injective hpath' ▸ hcontains
  · intro hcontains
    obtain ⟨source, hsource⟩ := Option.isSome_iff_exists.1 hcontains
    obtain ⟨text, -, hfile⟩ := h.status_join hleads hroom hsource
    rw [hfile]
    rfl

end FileTree

/-! ## Two loaders -/

/-- An error about the sources in a directory, for the same error about sources without one. -/
def CompileError.below (base : Text) : CompileError → CompileError
  | .includeNotFound path => .includeNotFound (Path.join base path)
  | e => e

/-- The second loader has in a directory what the first one has, for a path, and can read it. -/
structure Loader.Mirrors (base : Text) (a b : Loader) (path : Text) : Prop where
  locate : b.locate path = Path.join base (a.locate path)
  has : b.has path = a.has path
  read : a.has path = true → ∃ text, a.read path = .ok text ∧ b.read path = .ok text

section Mirrors

variable {base : Text} {a b : Loader} {s : Text}

theorem fetch_of_mirrors {path : Text} (h : a.Mirrors base b path) (strict : Bool) :
    fetch (some b) strict path = (fetch (some a) strict path).mapError (.below base) := by
  by_cases hhas : a.has path = true
  · obtain ⟨text, ha, hb⟩ := h.read hhas
    simp only [fetch, h.has, hhas, ↓reduceIte, ha, hb]
    rfl
  · rw [fetch, fetch, h.has, if_neg hhas, if_neg hhas, h.locate]
    cases strict <;> rfl

/-- Includes are resolved with the two loaders to the same text or with the same error. -/
theorem resolveIncludes_of_mirrors (h : ∀ path, Reached a s path → a.Mirrors base b path)
    (policy : Policy) :
    resolveIncludes (some b) policy s =
      (resolveIncludes (some a) policy s).mapError (.below base) :=
  resolveIncludes_mapError (fun _ _ => rfl) fun path hpath => fetch_of_mirrors (h path hpath) _

end Mirrors

/-! ## The loader of a directory -/

section Directory

variable {t : FileTree} {base path s : Text} {p : Place} {sources : Sources}

/-- For a canonical path the loader of a directory has what sources in memory have. -/
theorem FileTree.Holds.mirrors (h : t.Holds p sources) (hleads : t.Leads base p)
    (hroom : ∀ path, sources.contains path = true →
      Path.room base + Text.utf8Size path < Path.maxSize)
    (hpath : Path.IsCanonical path) :
    (Loader.ofSources sources).Mirrors base (Loader.ofDirectory t.status base) path := by
  refine ⟨?_, ?_, fun hhas => ?_⟩
  · simp only [Loader.ofDirectory, hpath.includePath, Loader.ofSources]
  · refine Bool.eq_iff_iff.2 ?_
    simp only [Loader.ofDirectory, hpath.includePath, Loader.ofSources]
    exact h.isFile_join_iff hleads hroom hpath
  · obtain ⟨source, hsource⟩ := Option.isSome_iff_exists.1 hhas
    obtain ⟨text, rfl, hfile⟩ := h.status_join hleads hroom hsource
    refine ⟨text, by simp only [Loader.ofSources, hsource], ?_⟩
    simp only [Loader.ofDirectory, hpath.includePath, hfile]
    exact congrArg Except.ok (decodeUtf8Lossy_encodeUtf8 text)

/-- **The loader of a directory and that of the same files in memory agree**: under every policy
they resolve a text to the same text, or fail with the same error, in which the path of a source
that is missing has the path of the directory in front. -/
theorem resolveIncludes_ofDirectory (hleads : t.Leads base p) (h : t.Holds p sources)
    (hroom : ∀ path, sources.contains path = true →
      Path.room base + Text.utf8Size path < Path.maxSize)
    (hnested : ∀ path text, sources.find? path = some (.ok text) →
      ∀ inner ∈ includedPaths text, Path.IsCanonical inner)
    (hs : ∀ path ∈ includedPaths s, Path.IsCanonical path) :
    ∃ loader, Loader.ofDirectory? t.status base = .ok loader ∧ ∀ policy,
      resolveIncludes (some loader) policy s =
        (resolveIncludes (some (.ofSources sources)) policy s).mapError (.below base) := by
  have hcanonical (path : Text) (hpath : Reached (.ofSources sources) s path) :
      Path.IsCanonical path := by
    cases hpath with
    | tag hpath => exact hs path hpath
    | @nested path' text _ _ hhas hread hinner =>
        obtain ⟨source, hsource⟩ := Option.isSome_iff_exists.1 hhas
        obtain ⟨text', rfl, -⟩ := h.has path' source hsource
        simp only [Loader.ofSources, hsource, Except.ok.injEq] at hread
        exact hnested path' text' hsource path (hread ▸ hinner)
  exact ⟨_, ofDirectory?_of_leads hleads, resolveIncludes_of_mirrors fun path hpath =>
    h.mirrors hleads hroom (hcanonical path hpath)⟩

/-- A source with a single include tag cannot be resolved if the file is too far away. -/
theorem resolveIncludes_of_long {limit : Nat} {before name raw after : Text}
    (hleads : t.Leads base p) (hname : Path.IsName name) (hcanonical : Path.IsCanonical name)
    (hsize : Path.maxSize ≤ Path.room base + Text.utf8Size name) (hlimit : 0 < limit)
    (hscan : includeTag.scan s = ⟨[⟨before, name, raw⟩], after⟩) :
    resolveIncludes (some (.ofDirectory t.status base)) ⟨true, limit⟩ s =
      .error (.includeNotFound (Path.join base name)) := by
  have hlong : t.status (Path.join base name) = .absent .nameTooLong := by
    rw [FileTree.status, hleads.resolve_join_of_long hname hsize]
  rw [resolveIncludes, spliceIncludes_of_single hscan, includeText_of_entered hlimit,
    fetch_ofDirectory (congrArg _ hcanonical.includePath) hlong]
  rfl

end Directory

/-- Two files below the directory `base`, of which one includes the other one. -/
def partTree : FileTree where
  cwd := []
  dirs := [["base".toList], ["base".toList, "sub".toList]]
  files :=
    [(["base".toList, "part".toList], encodeUtf8 "é".toList),
      (["base".toList, "sub".toList, "all".toList], encodeUtf8 "[<!-- INCLUDE part -->]".toList)]

/-- The same files in memory. -/
def partSources : Sources :=
  Dict.ofList [("part".toList, .ok "é".toList),
    ("sub/all".toList, .ok "[<!-- INCLUDE part -->]".toList)]

theorem leads_partTree : partTree.Leads "base".toList ["base".toList] := ⟨rfl, rfl⟩

theorem eq_of_mem_partSources {path : Text} {source : Except Text Text}
    (h : partSources.find? path = some source) :
    (path = "part".toList ∧ source = .ok "é".toList) ∨
      (path = "sub/all".toList ∧ source = .ok "[<!-- INCLUDE part -->]".toList) := by
  rcases List.mem_cons.1 (Dict.mem_of_find?_ofList h) with heq | hmem
  · exact .inl (Prod.mk.inj heq)
  · exact .inr (Prod.mk.inj (List.mem_singleton.1 hmem))

theorem holds_partTree : partTree.Holds ["base".toList] partSources where
  has path source h := by
    rcases eq_of_mem_partSources h with ⟨rfl, rfl⟩ | ⟨rfl, rfl⟩
    · exact ⟨_, rfl, by decide, by decide, by decide +kernel, by decide +kernel⟩
    · exact ⟨_, rfl, by decide, by decide, by decide +kernel, by decide +kernel⟩
  only names h := by
    obtain ⟨bytes, hbytes⟩ := (FileStatus.isFile_iff.1 h).resolve_right fun ⟨why, hwhy⟩ =>
      List.not_mem_nil (FileTree.statusAt_eq_unreadable_iff.1 hwhy).2.2.1
    obtain ⟨-, hfile⟩ := FileTree.statusAt_eq_file_iff.1 hbytes
    have hname {cs : List Text} {file : ByteArray}
        (heq : (["base".toList] ++ names, bytes) = (["base".toList] ++ cs, file)) : cs = names :=
      (List.append_cancel_left (Prod.mk.inj heq).1).symm
    rcases List.mem_cons.1 (FileTree.mem_of_fileAt hfile) with heq | hmem
    · exact ⟨"part".toList, by decide, hname heq⟩
    · exact ⟨"sub/all".toList, by decide, hname (List.mem_singleton.1 hmem)⟩

theorem canonical_partSources (path text : Text)
    (h : partSources.find? path = some (.ok text)) :
    ∀ inner ∈ includedPaths text, Path.IsCanonical inner := by
  rcases eq_of_mem_partSources h with ⟨-, htext⟩ | ⟨-, htext⟩
  · rw [Except.ok.inj htext]
    decide +kernel
  · rw [Except.ok.inj htext]
    decide +kernel

/-- A source is included through another one, and a missing one is reported below the directory. -/
theorem resolveIncludes_partTree :
    let s := "<!-- INCLUDE sub/all --><!-- INCLUDE nope -->".toList
    resolveIncludes (some (.ofSources partSources)) ⟨false, 2⟩ s = .ok "[é]".toList ∧
    resolveIncludes (some (.ofSources partSources)) ⟨true, 2⟩ s =
      .error (.includeNotFound "nope".toList) ∧
    ∃ loader, Loader.ofDirectory? partTree.status "base".toList = .ok loader ∧
      resolveIncludes (some loader) ⟨false, 2⟩ s = .ok "[é]".toList ∧
      resolveIncludes (some loader) ⟨true, 2⟩ s =
        .error (.includeNotFound "base/nope".toList) := by
  intro s
  have hlenient : resolveIncludes (some (.ofSources partSources)) ⟨false, 2⟩ s =
      .ok "[é]".toList := by
    decide +kernel
  have hstrict : resolveIncludes (some (.ofSources partSources)) ⟨true, 2⟩ s =
      .error (.includeNotFound "nope".toList) := by
    decide +kernel
  have hroom (path : Text) (h : partSources.contains path = true) :
      Path.room "base".toList + Text.utf8Size path < Path.maxSize := by
    obtain ⟨source, h⟩ := Option.isSome_iff_exists.1 h
    rcases eq_of_mem_partSources h with ⟨rfl, -⟩ | ⟨rfl, -⟩
    · decide
    · decide
  obtain ⟨loader, hloader, hagree⟩ := resolveIncludes_ofDirectory (s := s) leads_partTree
    holds_partTree hroom canonical_partSources (by decide +kernel)
  exact ⟨hlenient, hstrict, loader, hloader, by rw [hagree, hlenient]; rfl,
    by rw [hagree, hstrict]; rfl⟩

/-- **A file can be too far away.**  Under a path of 4092 bytes the directory holds the same files,
but the one in it is not found. -/
theorem resolveIncludes_twoThousandDots :
    let base := Path.dots "base".toList 2044
    let s := "<!-- INCLUDE part -->".toList
    partTree.Leads base ["base".toList] ∧ partTree.Holds ["base".toList] partSources ∧
    (∀ path text, partSources.find? path = some (.ok text) →
      ∀ inner ∈ includedPaths text, Path.IsCanonical inner) ∧
    (∀ path ∈ includedPaths s, Path.IsCanonical path) ∧
    resolveIncludes (some (.ofSources partSources)) ⟨true, 10⟩ s = .ok "é".toList ∧
    ∃ loader, Loader.ofDirectory? partTree.status base = .ok loader ∧
      resolveIncludes (some loader) ⟨true, 10⟩ s =
        .error (.includeNotFound (Path.join base "part".toList)) := by
  intro base s
  have hleads : partTree.Leads base ["base".toList] := leads_partTree.dots (by decide)
  have hname : Path.IsName "part".toList := ⟨by decide, by decide, by decide, by decide, by decide,
    by decide⟩
  have hmissing := resolveIncludes_of_long (s := s) hleads hname (by decide)
    (by rw [Path.room_dots]; decide) (show 0 < 10 by decide)
    (show includeTag.scan s = ⟨[⟨[], "part".toList, s⟩], []⟩ by decide +kernel)
  exact ⟨hleads, holds_partTree, canonical_partSources, by decide +kernel, by decide +kernel,
    _, ofDirectory?_of_leads hleads, hmissing⟩

end CommentTemplate
