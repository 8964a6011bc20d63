import Mathlib.Control.Monad.Basic
import CommentTemplate.Proofs.Compile.Reached
import CommentTemplate.Proofs.Files.Places

/-!
# Files below a base directory

The loader of a directory puts the path of an include behind that of the directory.  Slashes in
front of it make no difference, but a component of two dots leads to the directory above.  As long
as there are at no point of the path more of these than names before them, the file that is read
is below the base directory, and what is elsewhere makes no difference to a compilation.  One such
component too many and a file next to the base directory is read.

## Main definitions

* `Path.staysBelow` — components that lead at no point above where they start
* `FileTree.restrict` — a file tree without the files that are not below a place

## Main statements

* `FileTree.prefix_of_walk` — a walk along such components stays below its first place
* `sameAt_restrict` — the loader of a directory reads nothing elsewhere
* `reached_below_base` — what an include reads is below the base directory
* `reads_outside_base` — an include that is read from elsewhere
-/

namespace CommentTemplate

/-- Components that lead at no point above where they start, which is the number of names given
below the place that is not to be left. -/
def Path.staysBelow : Nat → List Text → Bool
  | _, [] => true
  | depth, c :: cs =>
    if c = [] ∨ c = ['.'] then staysBelow depth cs
    else if c = ['.', '.'] then 0 < depth && staysBelow (depth - 1) cs
    else staysBelow (depth + 1) cs

/-- The path of an include that leads at no point above the base directory. -/
def Path.isInner (path : Text) : Bool := staysBelow 0 (components (includePath path))

theorem head_includePath (path : Text) : (includePath path).head? ≠ some '/' := by
  intro h
  have hstop := List.head?_dropWhile_not (fun c => c = '/' || c = '\\') path
  rw [includePath] at h
  rw [h] at hstop
  simp at hstop

namespace FileTree

variable {t : FileTree} {base path : Text} {p q : Place}

/-! ## Walks below a place -/

/-- A walk along components that stay below a place stays below it. -/
theorem prefix_of_walk {names : Place} {cs : List Text} (h : t.walk (p ++ names) cs = .ok q)
    (hcs : Path.staysBelow names.length cs = true) : p <+: q := by
  induction cs generalizing names with
  | nil =>
      cases h
      exact List.prefix_append p names
  | cons c cs ih =>
      obtain ⟨-, -, h⟩ := walk_cons_eq_ok_iff.1 h
      rw [Path.staysBelow] at hcs
      rw [step] at h
      split at hcs
      · next hstay =>
          rw [if_pos hstay] at h
          exact ih h hcs
      · next hmove =>
          rw [if_neg hmove] at h
          split at hcs
          · next hup =>
              rw [if_pos hup] at h
              -- Going up takes away one of the names.
              rcases List.eq_nil_or_concat names with rfl | ⟨front, last, rfl⟩
              · simp at hcs
              · rw [List.concat_eq_append, ← List.append_assoc, List.dropLast_concat] at h
                exact ih h (by simpa using hcs)
          · next hdown =>
              rw [if_neg hdown, List.append_assoc] at h
              exact ih h (by simpa using hcs)

/-- The path of something in a directory leads below it if its components stay there. -/
theorem Leads.prefix_of_resolve_join (h : t.Leads base p) (hpath : path.head? ≠ some '/')
    (hcs : Path.staysBelow 0 (Path.components path) = true)
    (hq : t.resolve (Path.join base path) = .ok q) : p <+: q := by
  obtain ⟨-, -, -, hwalk⟩ := resolve_eq_ok_iff.1 hq
  rw [h.walk_join hpath, ← List.append_nil p] at hwalk
  exact prefix_of_walk hwalk hcs

/-! ## What a path leads to -/

/-- There is a file at a place, and no directory. -/
theorem statusAt_eq_file_iff {bytes : ByteArray} : t.statusAt p = .file bytes ↔
    t.isDirAt p = false ∧ t.fileAt p = some bytes := by
  rw [statusAt]
  split
  · next hp => simp [hp]
  · next hp =>
      cases hfile : t.fileAt p with
      | some bytes => simp [hp]
      | none => by_cases hsealed : p ∈ t.sealed <;> simp [hsealed]

/-- There is a sealed file at a place, and neither a directory nor another file. -/
theorem statusAt_eq_unreadable_iff {why : ReadFailure} : t.statusAt p = .unreadable why ↔
    t.isDirAt p = false ∧ t.fileAt p = none ∧ p ∈ t.sealed ∧ why = .permissionDenied := by
  rw [statusAt]
  split
  · next hp => simp [hp]
  · next hp =>
      cases hfile : t.fileAt p with
      | some bytes => simp
      | none =>
          by_cases hsealed : p ∈ t.sealed <;> simp [hp, hsealed]
          exact eq_comm

/-- A path leads to a file at some place. -/
theorem status_eq_iff_of_isFile {s : FileStatus} (hs : s.isFile = true) : t.status path = s ↔
    ∃ q, t.resolve path = .ok q ∧ t.statusAt q = s := by
  rw [status]
  split
  · next q hq => simp [hq]
  · next why hq =>
      simp only [hq, reduceCtorEq, false_and, exists_false, iff_false]
      rintro rfl
      cases hs

/-! ## A tree without what is elsewhere -/

/-- The tree without the files that are not below a place. -/
def restrict (t : FileTree) (p : Place) : FileTree :=
  { t with
    files := t.files.filter fun f => p.isPrefixOf f.1
    sealed := t.sealed.filter fun f => p.isPrefixOf f }

theorem resolve_restrict_eq_ok_iff :
    (t.restrict p).resolve path = .ok q ↔ t.resolve path = .ok q :=
  resolve_eq_ok_iff_of_isDirAt (t := t.restrict p) (u := t) rfl fun _ => rfl

/-- Below the place there is what there was. -/
theorem statusAt_restrict (h : p <+: q) : (t.restrict p).statusAt q = t.statusAt q := by
  have hfile : (t.restrict p).fileAt q = t.fileAt q := by
    rw [fileAt, fileAt, restrict, List.find?_filter]
    congr 2
    funext f
    by_cases hf : f.1 = q <;> simp [hf, h]
  have hdir : (t.restrict p).isDirAt q = t.isDirAt q := rfl
  have hsealed : (t.restrict p).sealed.contains q = t.sealed.contains q :=
    Bool.eq_iff_iff.2 (by simp [restrict, h])
  rw [statusAt, statusAt, hfile, hdir, hsealed]

/-- A path that leads below the place leads to the same file, or to none. -/
theorem status_restrict_eq_iff (h : ∀ q, t.resolve path = .ok q → p <+: q) {s : FileStatus}
    (hs : s.isFile = true) : (t.restrict p).status path = s ↔ t.status path = s := by
  simp only [status_eq_iff_of_isFile hs, resolve_restrict_eq_ok_iff]
  refine exists_congr fun q => and_congr_right fun hq => ?_
  rw [statusAt_restrict (h q hq)]

end FileTree

/-! ## The loader of a directory -/

section Loader

variable {t : FileTree} {base path : Text} {p : Place}

theorem FileStatus.isDir_iff {s : FileStatus} : s.isDir = true ↔ s = .directory := by
  cases s <;> simp [isDir]

theorem FileStatus.isFile_iff {s : FileStatus} : s.isFile = true ↔
    (∃ bytes, s = .file bytes) ∨ ∃ why, s = .unreadable why := by
  cases s <;> simp [isFile]

/-- A directory that a loader was made for is one. -/
theorem ofDirectory?_eq_ok {view : FileView} {loader : Loader}
    (h : Loader.ofDirectory? view base = .ok loader) :
    view base = .directory ∧ Loader.ofDirectory view base = loader := by
  rw [Loader.ofDirectory?] at h
  split at h
  · next hdir => exact ⟨FileStatus.isDir_iff.1 hdir, Except.ok.inj h⟩
  · cases h

/-- There is a loader for every directory that a path leads to. -/
theorem ofDirectory?_of_leads (h : t.Leads base p) :
    Loader.ofDirectory? t.status base = .ok (.ofDirectory t.status base) :=
  if_pos (FileStatus.isDir_iff.2 (FileTree.status_eq_directory_iff.2 ⟨p, h⟩))

/-- What is fetched from a directory, by what the path of the include leads to. -/
theorem fetch_ofDirectory {view : FileView} {found : Text} {status : FileStatus}
    (hfound : Path.join base (includePath path) = found) (hstatus : view found = status)
    (strict : Bool) :
    fetch (some (.ofDirectory view base)) strict path =
      match status with
      | .file bytes => .ok (some (decodeUtf8Lossy bytes))
      | .unreadable why =>
        if strict then .error (.unreadable found why.message) else .ok none
      | .directory | .absent _ =>
        if strict then .error (.includeNotFound found) else .ok none := by
  simp only [fetch, Loader.ofDirectory, hfound, hstatus]
  cases status <;> rfl

/-- A sealed file can be included where missing includes are no error, and nothing takes its
place. -/
example :
    let t : FileTree := { cwd := [], dirs := [], files := [], sealed := [["part".toList]] }
    let loader : Loader := .ofDirectory t.status ['.']
    let s := "[<!-- INCLUDE part -->]".toList
    resolveIncludes (some loader) ⟨false, 1⟩ s = .ok "[]".toList ∧
      resolveIncludes (some loader) ⟨true, 1⟩ s =
        .error (.unreadable "./part".toList "Permission denied (os error 13)".toList) := by
  decide +kernel

/-- What can be read is a file. -/
theorem exists_file_of_read {view : FileView} {text : Text}
    (h : (Loader.ofDirectory view base).read path = .ok text) :
    ∃ bytes, view (Path.join base (includePath path)) = .file bytes := by
  simp only [Loader.ofDirectory] at h
  cases hview : view (Path.join base (includePath path)) with
  | file bytes => exact ⟨bytes, rfl⟩
  | directory => rw [hview] at h; cases h
  | absent why => rw [hview] at h; cases h
  | unreadable why => rw [hview] at h; cases h

/-- The loader of a directory is the loader of what is below it, for a path that stays there. -/
theorem sameAt_restrict (h : t.Leads base p) (hpath : Path.isInner path = true) :
    (Loader.ofDirectory t.status base).SameAt (Loader.ofDirectory (t.restrict p).status base)
      path := by
  have hfile {s : FileStatus} (hs : s.isFile = true) :
      (t.restrict p).status (Path.join base (includePath path)) = s ↔
        t.status (Path.join base (includePath path)) = s :=
    FileTree.status_restrict_eq_iff (fun q hq =>
      h.prefix_of_resolve_join (head_includePath path) hpath hq) hs
  refine ⟨rfl, Bool.eq_iff_iff.2 ⟨fun hhas => ?_, fun hhas => ?_⟩, fun hhas => ?_⟩
  · exact (congrArg FileStatus.isFile ((hfile hhas).2 rfl)).trans hhas
  · exact (congrArg FileStatus.isFile ((hfile hhas).1 rfl)).trans hhas
  · exact congrArg (fun s : FileStatus => s.bytes.map decodeUtf8Lossy) ((hfile hhas).2 rfl).symm

/-- **What an include reads is below the base directory**, as long as its path leads at no point
above that: the bytes of a file, or nothing if the file is sealed.  Where the same is true of all
includes that are reached, the files elsewhere make no difference to a compilation. -/
theorem reached_below_base {loader : Loader}
    (h : Loader.ofDirectory? t.status base = .ok loader) : ∃ p, t.Leads base p ∧
      (∀ path, Path.isInner path = true →
        (loader.has path = true ∨ ∃ text, loader.read path = .ok text) →
        ∃ q, t.resolve (loader.locate path) = .ok q ∧ p <+: q ∧ p ≠ q ∧
          ((∃ bytes, t.fileAt q = some bytes ∧ loader.read path = .ok (decodeUtf8Lossy bytes)) ∨
            q ∈ t.sealed ∧ loader.read path = .error .permissionDenied)) ∧
      ∀ (settings : Settings) (s : Text),
        (∀ path, Reached loader s path → Path.isInner path = true) →
        settings.compile (some loader) s =
          settings.compile (some (.ofDirectory (t.restrict p).status base)) s := by
  obtain ⟨hdir, rfl⟩ := ofDirectory?_eq_ok h
  obtain ⟨p, hleads⟩ := FileTree.status_eq_directory_iff.1 hdir
  refine ⟨p, hleads, fun path hpath hreach => ?_, fun settings s hinner =>
    compile_congr (fun path hp => sameAt_restrict hleads (hinner path hp)) settings⟩
  have hfile : (t.status (Path.join base (includePath path))).isFile = true := by
    rcases hreach with hhas | ⟨text, hread⟩
    · exact hhas
    · exact FileStatus.isFile_iff.2 (.inl (exists_file_of_read hread))
  obtain ⟨q, hq, hstatus⟩ := (FileTree.status_eq_iff_of_isFile hfile).1 rfl
  have hne : p ≠ q := by
    rintro rfl
    rw [FileTree.statusAt_of_isDirAt hleads.isDirAt] at hstatus
    rw [← hstatus] at hfile
    cases hfile
  refine ⟨q, hq, hleads.prefix_of_resolve_join (head_includePath path) hpath hq, hne, ?_⟩
  simp only [Loader.ofDirectory]
  rcases FileStatus.isFile_iff.1 hfile with ⟨bytes, hbytes⟩ | ⟨why, hwhy⟩
  · rw [hbytes] at hstatus ⊢
    exact .inl ⟨bytes, (FileTree.statusAt_eq_file_iff.1 hstatus).2, rfl⟩
  · rw [hwhy] at hstatus ⊢
    obtain ⟨-, -, hsealed, rfl⟩ := FileTree.statusAt_eq_unreadable_iff.1 hstatus
    exact .inr ⟨hsealed, rfl⟩

end Loader

/-- A base directory with a file in it and a file next to it. -/
def baseTree : FileTree where
  cwd := ["home".toList]
  dirs := [["home".toList, "base".toList], ["home".toList, "base".toList, "sub".toList]]
  files :=
    [(["home".toList, "base".toList, "part".toList], encodeUtf8 "the part".toList),
      (["home".toList, "secret".toList], encodeUtf8 "the secret".toList)]

/-- The loader of the base directory. -/
def baseLoader : Loader := .ofDirectory baseTree.status "base".toList

/-- A path with separators in front, a way down and up again, and components that name nothing. -/
def innerPath : Text := "/\\/sub/..//./part".toList

/-- A template that includes the file of that path. -/
def innerTemplate : Text := "<!-- INCLUDE ".toList ++ innerPath ++ " -->".toList

/-- The file in the base directory is read, and the one next to it makes no difference. -/
theorem reached_innerPath :
    Path.isInner innerPath = true ∧ baseLoader.has innerPath = true ∧
    (∀ path, Reached baseLoader innerTemplate path → Path.isInner path = true) ∧
    ∃ p, baseTree.Leads "base".toList p ∧
      (∃ q bytes, baseTree.resolve (baseLoader.locate innerPath) = .ok q ∧ p <+: q ∧ p ≠ q ∧
        baseTree.fileAt q = some bytes ∧
        baseLoader.read innerPath = .ok (decodeUtf8Lossy bytes)) ∧
      Settings.compile {} (some baseLoader) innerTemplate =
        Settings.compile {} (some (.ofDirectory (baseTree.restrict p).status "base".toList))
          innerTemplate := by
  have hinner : Path.isInner innerPath = true := by decide +kernel
  have hhas : baseLoader.has innerPath = true := by decide +kernel
  have hpaths : includedPaths innerTemplate = [innerPath] := by decide +kernel
  have hread : baseLoader.read innerPath = .ok "the part".toList := by decide +kernel
  have hreached : ∀ path, Reached baseLoader innerTemplate path → path = innerPath := by
    intro path h
    induction h with
    | tag h => simpa [hpaths] using h
    | nested _ _ htext hnested ih =>
        -- The source that is included has no tags of its own.
        rw [ih, hread] at htext
        cases htext
        have hnone : includedPaths "the part".toList = [] := by decide +kernel
        rw [hnone] at hnested
        cases hnested
  have hall (path : Text) (h : Reached baseLoader innerTemplate path) :
      Path.isInner path = true := hreached path h ▸ hinner
  obtain ⟨p, hleads, hfile, hcompile⟩ :=
    reached_below_base (show Loader.ofDirectory? baseTree.status "base".toList = .ok baseLoader from
      if_pos (by decide +kernel))
  obtain ⟨q, hq, hbelow, hne, hbytes⟩ := hfile innerPath hinner (.inl hhas)
  obtain ⟨bytes, hbytes, htext⟩ := hbytes.resolve_right fun h => List.not_mem_nil h.1
  exact ⟨hinner, hhas, hall, p, hleads, ⟨q, bytes, hq, hbelow, hne, hbytes, htext⟩,
    hcompile {} innerTemplate hall⟩

/-- **An include can be read from elsewhere.**  Two dots in front of a name lead to the file next to
the base directory. -/
theorem reads_outside_base :
    baseTree.resolve "base".toList = .ok ["home".toList, "base".toList] ∧
    includedPaths "<!-- INCLUDE ../secret -->".toList = ["../secret".toList] ∧
    baseLoader.has "../secret".toList = true ∧
    baseTree.resolve (baseLoader.locate "../secret".toList) =
      .ok ["home".toList, "secret".toList] ∧
    ¬["home".toList, "base".toList] <+: ["home".toList, "secret".toList] ∧
    resolveIncludes (some baseLoader) ⟨true, 10⟩ "<!-- INCLUDE ../secret -->".toList =
      .ok "the secret".toList := by
  decide +kernel

end CommentTemplate
