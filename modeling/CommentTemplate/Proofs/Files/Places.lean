import CommentTemplate.Files.Tree

/-!
# Places and the files written there

The path of a name inside a directory leads to that name at the place of the directory, if the
path does not grow too long.  A file that is written changes what there is at its own place and
nowhere else, and no path leads to another place because of it.

## Main definitions

* `FileTree.Leads` — a path leads to a directory at a place
* `FileTree.IsEmptyDir` — a path leads to an empty directory
* `Path.IsName` — a component that can be the name of a file
* `Path.room` — the number of bytes of a directory's path with a slash behind it
* `Path.dots` — paths of any length that lead to the same directory

## Main statements

* `FileTree.Leads.walk_join` — a path in a directory, walked from the place of the directory
* `FileTree.Leads.resolve_join` — the place of a name in a directory
* `FileTree.resolve_eq_ok_iff_of_isDirAt` — paths lead through directories alone
* `FileTree.statusAt_put`, `FileTree.resolve_put_eq_ok_iff` — what a written file changes
-/

namespace CommentTemplate

/-! ## Paths -/

namespace Path

theorem components_ne_nil (path : Text) : components path ≠ [] := by
  cases path with
  | nil => nofun
  | cons c t =>
      rw [components]
      split
      · nofun
      · split <;> nofun

/-- A slash ends a component. -/
theorem components_append_slash (a b : Text) :
    components (a ++ '/' :: b) = components a ++ components b := by
  induction a with
  | nil => rfl
  | cons c a ih =>
      rw [List.cons_append, components, components, ih]
      split
      · rfl
      · cases h : components a with
        | nil => exact absurd h (components_ne_nil a)
        | cons p ps => rfl

theorem components_of_notMem {name : Text} (h : '/' ∉ name) : components name = [name] := by
  induction name with
  | nil => rfl
  | cons c t ih =>
      rw [List.mem_cons, not_or] at h
      rw [components, if_neg (Ne.symm h.1), ih h.2]

/-- A component that can be the name of a file. -/
structure IsName (name : Text) : Prop where
  slash : '/' ∉ name
  null : '\x00' ∉ name
  ne_nil : name ≠ []
  ne_dot : name ≠ ['.']
  ne_dots : name ≠ ['.', '.']
  fits : fits name = true

/-- The number of bytes of a directory's path with a slash behind it. -/
def room (dir : Text) : Nat := Text.utf8Size (join dir [])

theorem join_nil (dir : Text) :
    join dir [] = if dir = [] ∨ dir.getLast? = some '/' then dir else dir ++ ['/'] := by
  rw [join, if_neg (by simp), List.append_nil]

theorem join_of_head {dir path : Text} (h : path.head? ≠ some '/') :
    join dir path = join dir [] ++ path := by
  rw [join_nil, join, if_neg h]
  split <;> simp

theorem head_of_notMem {name : Text} (h : '/' ∉ name) : name.head? ≠ some '/' :=
  fun hname => h (List.mem_of_head? hname)

theorem utf8Size_join {dir name : Text} (h : '/' ∉ name) :
    Text.utf8Size (join dir name) = room dir + Text.utf8Size name := by
  rw [join_of_head (head_of_notMem h), Text.utf8Size_append, room]

theorem notMem_join {dir name : Text} {c : Char} (hdir : c ∉ dir) (hname : c ∉ name)
    (hc : c ≠ '/') : c ∉ join dir name := by
  rw [join]
  split
  · exact hname
  · split <;> simp [hdir, hname, hc]

theorem join_ne_nil {dir name : Text} (h : name ≠ []) : join dir name ≠ [] := by
  rw [join]
  split
  · exact h
  · split <;> simp [h]

/-- The path of something in a directory is a path with components behind it, or with components in
place of an empty one. -/
theorem exists_join_eq {dir : Text} (hdir : dir ≠ []) : ∃ d, (dir = d ∨ dir = d ++ ['/']) ∧
    ∀ path : Text, path.head? ≠ some '/' → join dir path = d ++ '/' :: path := by
  by_cases hslash : dir.getLast? = some '/'
  · obtain ⟨d, rfl⟩ := List.getLast?_eq_some_iff.1 hslash
    refine ⟨d, .inr rfl, fun path hpath => ?_⟩
    rw [join_of_head hpath, join_nil, if_pos (.inr hslash)]
    simp
  · refine ⟨dir, .inl rfl, fun path hpath => ?_⟩
    rw [join_of_head hpath, join_nil, if_neg (by simp [hdir, hslash])]
    simp

end Path

@[simp] theorem FileStatus.text_file (t : Text) :
    (FileStatus.file (encodeUtf8 t)).text = .ok t := by
  simp only [text, bytes, bind, Except.bind, decodeUtf8_encodeUtf8, pure, Except.pure]

/-! ## Walks -/

namespace FileTree

variable {t : FileTree} {dir name : Text} {p q : Place}

theorem statusAt_of_isDirAt (h : t.isDirAt p = true) : t.statusAt p = .directory := if_pos h

theorem statusAt_eq_directory_iff : t.statusAt p = .directory ↔ t.isDirAt p = true := by
  refine ⟨fun h => ?_, statusAt_of_isDirAt⟩
  by_cases hp : t.isDirAt p = true
  · exact hp
  · rw [statusAt, if_neg hp] at h
    split at h
    · cases h
    · split at h <;> cases h

/-- A walk goes on through directories only. -/
theorem walk_cons_eq_ok_iff {c : Text} {cs : List Text} : t.walk p (c :: cs) = .ok q ↔
    t.isDirAt p = true ∧ Path.fits c = true ∧ t.walk (step p c) cs = .ok q := by
  rw [walk, ← statusAt_eq_directory_iff]
  split
  · next h => by_cases hfits : Path.fits c = true <;> simp [h, hfits]
  · next h => simp [h]
  · next h => simp [h]
  · next h => simp [h]

/-- A walk is continued from where it has led to. -/
theorem walk_append_eq_ok_iff {cs ds : List Text} :
    t.walk p (cs ++ ds) = .ok q ↔ ∃ r, t.walk p cs = .ok r ∧ t.walk r ds = .ok q := by
  induction cs generalizing p with
  | nil => simp [walk]
  | cons c cs ih =>
      rw [List.cons_append, walk_cons_eq_ok_iff, ih]
      simp only [walk_cons_eq_ok_iff]
      constructor
      · rintro ⟨hp, hfits, r, hr, hq⟩
        exact ⟨r, ⟨hp, hfits, hr⟩, hq⟩
      · rintro ⟨r, ⟨hp, hfits, hr⟩, hq⟩
        exact ⟨hp, hfits, r, hr, hq⟩

/-- An empty component leads nowhere else. -/
theorem walk_empty_eq_ok (h : t.walk p [[]] = .ok q) : p = q := by
  obtain ⟨-, -, hq⟩ := walk_cons_eq_ok_iff.1 h
  exact Except.ok.inj hq

theorem step_of_isName (h : Path.IsName name) : step p name = p ++ [name] := by
  rw [step, if_neg (by simp [h.ne_nil, h.ne_dot]), if_neg h.ne_dots]

/-- A path leads to a directory at a place. -/
structure Leads (t : FileTree) (dir : Text) (p : Place) : Prop where
  resolve : t.resolve dir = .ok p
  isDirAt : t.isDirAt p = true

theorem status_eq_directory_iff : t.status dir = .directory ↔ ∃ p, t.Leads dir p := by
  unfold status
  split
  · next p h =>
      rw [statusAt_eq_directory_iff]
      refine ⟨fun hp => ⟨p, h, hp⟩, ?_⟩
      rintro ⟨q, hq, hdir⟩
      rw [h, Except.ok.injEq] at hq
      exact hq ▸ hdir
  · next why h =>
      refine ⟨nofun, ?_⟩
      rintro ⟨q, hq, -⟩
      rw [h] at hq
      cases hq

/-- A path leads to a directory with nothing in it. -/
def IsEmptyDir (t : FileTree) (dir : Text) : Prop :=
  ∃ p, t.Leads dir p ∧ ∀ name, t.statusAt (p ++ [name]) = .absent .missing

/-- What a path that can be resolved is made of. -/
theorem resolve_eq_ok_iff {path : Text} : t.resolve path = .ok p ↔
    '\x00' ∉ path ∧ path ≠ [] ∧ Text.utf8Size path < Path.maxSize ∧
      t.walk (t.origin path) (Path.components path) = .ok p := by
  unfold resolve
  split
  · simp_all
  split
  · simp_all
  split
  · simp only [reduceCtorEq, false_iff]
    omega
  · simp_all

theorem walk_eq_ok_iff_of_isDirAt {u : FileTree} (hdirs : ∀ r, t.isDirAt r = u.isDirAt r)
    {cs : List Text} : t.walk p cs = .ok q ↔ u.walk p cs = .ok q := by
  induction cs generalizing p with
  | nil => rfl
  | cons c cs ih => rw [walk_cons_eq_ok_iff, walk_cons_eq_ok_iff, hdirs, ih]

/-- Where a path leads depends on the directories alone. -/
theorem resolve_eq_ok_iff_of_isDirAt {u : FileTree} (hcwd : t.cwd = u.cwd)
    (hdirs : ∀ r, t.isDirAt r = u.isDirAt r) {path : Text} :
    t.resolve path = .ok p ↔ u.resolve path = .ok p := by
  have horigin : t.origin path = u.origin path := by rw [origin, origin, hcwd]
  rw [resolve_eq_ok_iff, resolve_eq_ok_iff, horigin, walk_eq_ok_iff_of_isDirAt hdirs]

/-- Where a walk begins depends on the first character alone. -/
theorem origin_append {a b : Text} (ha : a ≠ []) : t.origin (a ++ b) = t.origin a := by
  obtain ⟨c, a, rfl⟩ := List.exists_cons_of_ne_nil ha
  rfl

/-- The path of something in a directory is walked from the place of the directory. -/
theorem Leads.walk_join (h : t.Leads dir p) {path : Text} (hpath : path.head? ≠ some '/') :
    t.walk (t.origin (Path.join dir path)) (Path.components (Path.join dir path)) = .ok q ↔
      t.walk p (Path.components path) = .ok q := by
  obtain ⟨-, hne, -, hwalk⟩ := resolve_eq_ok_iff.1 h.resolve
  obtain ⟨d, hdir, hjoin⟩ := Path.exists_join_eq hne
  have horigin : t.origin (Path.join dir path) = t.origin dir := by
    rw [hjoin path hpath]
    rcases hdir with rfl | rfl
    · exact origin_append hne
    · rw [List.append_cons, origin_append hne]
  -- Without the slash at its end the path of the directory leads to the same place.
  have hbase : t.walk (t.origin dir) (Path.components d) = .ok p := by
    rcases hdir with rfl | rfl
    · exact hwalk
    · rw [Path.components_append_slash, walk_append_eq_ok_iff] at hwalk
      obtain ⟨r, hr, hempty⟩ := hwalk
      exact walk_empty_eq_ok hempty ▸ hr
  rw [horigin, hjoin path hpath, Path.components_append_slash, walk_append_eq_ok_iff, hbase]
  simp

/-- **The path of a name in a directory** leads to that name at the place of the directory, if the
path is short enough. -/
theorem Leads.resolve_join (h : t.Leads dir p) (hname : Path.IsName name)
    (hsize : Path.room dir + Text.utf8Size name < Path.maxSize) :
    t.resolve (Path.join dir name) = .ok (p ++ [name]) := by
  obtain ⟨hnull, -⟩ := resolve_eq_ok_iff.1 h.resolve
  refine resolve_eq_ok_iff.2 ⟨Path.notMem_join hnull hname.null (by decide),
    Path.join_ne_nil hname.ne_nil, ?_, ?_⟩
  · rwa [Path.utf8Size_join hname.slash]
  · rw [h.walk_join (Path.head_of_notMem hname.slash), Path.components_of_notMem hname.slash]
    exact walk_cons_eq_ok_iff.2 ⟨h.isDirAt, hname.fits, by rw [step_of_isName hname, walk]⟩

/-- A name in a directory has no place if the path is too long. -/
theorem Leads.resolve_join_of_long (h : t.Leads dir p) (hname : Path.IsName name)
    (hsize : Path.maxSize ≤ Path.room dir + Text.utf8Size name) :
    t.resolve (Path.join dir name) = .error .nameTooLong := by
  obtain ⟨hnull, -⟩ := resolve_eq_ok_iff.1 h.resolve
  have hjoin := Path.notMem_join hnull hname.null (by decide)
  rw [FileTree.resolve, if_neg (by simpa using hjoin), if_neg (Path.join_ne_nil hname.ne_nil),
    if_pos (by rwa [Path.utf8Size_join hname.slash])]

/-- Whatever its length, the path of a name in a directory leads nowhere else. -/
theorem Leads.eq_of_resolve_join (h : t.Leads dir p) (hname : Path.IsName name)
    (hq : t.resolve (Path.join dir name) = .ok q) : q = p ++ [name] := by
  rcases Nat.lt_or_ge (Path.room dir + Text.utf8Size name) Path.maxSize with hsize | hsize
  · exact Except.ok.inj (hq.symm.trans (h.resolve_join hname hsize))
  · cases hq.symm.trans (h.resolve_join_of_long hname hsize)

/-! ## Writing a file -/

variable {bytes : ByteArray}

@[simp] theorem isDirAt_put : (t.put p bytes).isDirAt q = t.isDirAt q := rfl

@[simp] theorem sealed_put : (t.put p bytes).sealed = t.sealed := rfl

theorem fileAt_put :
    (t.put p bytes).fileAt q = if q = p then some bytes else t.fileAt q := by
  by_cases h : q = p
  · simp [fileAt, put, h]
  · have hfilter : (fun f : Place × ByteArray => !decide (f.1 = p) && decide (f.1 = q)) =
        fun f => decide (f.1 = q) := by
      funext f
      by_cases hf : f.1 = q <;> simp [hf, h]
    simp [fileAt, put, h, Ne.symm h, List.find?_filter, hfilter]

/-- A written file is at its place, and everything else is as before. -/
theorem statusAt_put (hp : t.isDirAt p = false) :
    (t.put p bytes).statusAt q = if q = p then .file bytes else t.statusAt q := by
  by_cases h : q = p
  · simp [statusAt, fileAt_put, h, hp]
  · simp [statusAt, fileAt_put, h]

/-- No path leads to another place because a file was written. -/
theorem resolve_put_eq_ok_iff {path : Text} :
    (t.put p bytes).resolve path = .ok q ↔ t.resolve path = .ok q :=
  resolve_eq_ok_iff_of_isDirAt (t := t.put p bytes) (u := t) rfl fun _ => rfl

theorem Leads.put (h : t.Leads dir q) : (t.put p bytes).Leads dir q :=
  ⟨resolve_put_eq_ok_iff.2 h.resolve, h.isDirAt⟩

theorem status_of_resolve {path : Text} (h : t.resolve path = .ok q) :
    t.status path = t.statusAt q := by
  rw [status, h]

/-- A file that is written to a place where there is neither a directory nor a sealed file. -/
theorem write_of_resolve {path : Text} (h : t.resolve path = .ok p) (hp : t.isDirAt p = false)
    (hopen : ∀ why, t.statusAt p ≠ .unreadable why) :
    t.write path bytes = .ok (t.put p bytes) := by
  have hne : t.statusAt p ≠ .directory := fun hdir => by
    rw [statusAt_eq_directory_iff, hp] at hdir
    cases hdir
  rw [write, h]
  cases hstatus : t.statusAt p with
  | directory => exact absurd hstatus hne
  | unreadable why => exact absurd hstatus (hopen why)
  | absent _ => simp only [hstatus]
  | file _ => simp only [hstatus]

end FileTree

/-! ## Dots behind a path -/

/-- The path of a directory with more and more dots behind it. -/
def Path.dots (dir : Text) : Nat → Text
  | 0 => dir
  | n + 1 => dots dir n ++ ['/', '.']

section Dots

variable {dir : Text}

theorem Path.components_dots (n : Nat) :
    components (dots dir n) = components dir ++ List.replicate n ['.'] := by
  induction n with
  | zero => rw [dots, List.replicate_zero, List.append_nil]
  | succ n ih =>
      rw [dots, components_append_slash, ih, List.replicate_succ', List.append_assoc]
      rfl

theorem Path.mem_dots {n : Nat} {c : Char} (h : c ∈ dots dir n) :
    c ∈ dir ∨ c = '.' ∨ c = '/' := by
  induction n with
  | zero => exact .inl h
  | succ n ih =>
      rcases List.mem_append.1 h with h | h
      · exact ih h
      · simp only [List.mem_cons, List.not_mem_nil, or_false] at h
        exact .inr h.symm

theorem Path.utf8Size_dots (n : Nat) :
    Text.utf8Size (dots dir n) = Text.utf8Size dir + 2 * n := by
  induction n with
  | zero => rfl
  | succ n ih =>
      have hdot : Text.utf8Size ['/', '.'] = 2 := rfl
      rw [dots, Text.utf8Size_append, ih, hdot]
      omega

/-- The dots are behind the path. -/
theorem Path.prefix_dots (n : Nat) : dir <+: dots dir n := by
  induction n with
  | zero => exact List.prefix_rfl
  | succ n ih => exact ih.trans (List.prefix_append _ _)

theorem Path.room_dots (n : Nat) :
    room (dots dir (n + 1)) = Text.utf8Size dir + 2 * n + 3 := by
  have hlast : (dots dir n ++ ['/', '.']).getLast? = some '.' := by simp
  have hslash : Text.utf8Size ['/'] = 1 := rfl
  rw [room, dots, join_nil, if_neg (by simp [hlast]), ← dots, Text.utf8Size_append, utf8Size_dots,
    hslash]
  omega

end Dots

namespace FileTree

variable {t : FileTree} {p q : Place} {dir : Text}

theorem walk_dots (hp : t.isDirAt p = true) (n : Nat) :
    t.walk p (List.replicate n ['.']) = .ok p := by
  induction n with
  | zero => rfl
  | succ n ih => exact walk_cons_eq_ok_iff.2 ⟨hp, by decide, ih⟩

/-- With dots behind it a path leads to the same directory, as long as it is not too long. -/
theorem Leads.dots (h : t.Leads dir p) {n : Nat}
    (hsize : Text.utf8Size dir + 2 * n < Path.maxSize) : t.Leads (Path.dots dir n) p where
  resolve := by
    obtain ⟨hnull, hne, -, hwalk⟩ := resolve_eq_ok_iff.1 h.resolve
    obtain ⟨rest, hrest⟩ := @Path.prefix_dots dir n
    have horigin : t.origin (Path.dots dir n) = t.origin dir := by
      rw [← hrest, origin_append hne]
    refine resolve_eq_ok_iff.2 ⟨?_, ?_, ?_, ?_⟩
    · intro hmem
      rcases Path.mem_dots hmem with hmem | hmem | hmem
      · exact hnull hmem
      · cases hmem
      · cases hmem
    · rw [← hrest]
      exact List.append_ne_nil_of_left_ne_nil hne rest
    · rwa [Path.utf8Size_dots]
    · rw [horigin, Path.components_dots, walk_append_eq_ok_iff]
      exact ⟨p, hwalk, walk_dots h.isDirAt n⟩
  isDirAt := h.isDirAt

theorem IsEmptyDir.dots (h : t.IsEmptyDir dir) {n : Nat}
    (hsize : Text.utf8Size dir + 2 * n < Path.maxSize) : t.IsEmptyDir (Path.dots dir n) := by
  obtain ⟨p, hleads, habsent⟩ := h
  exact ⟨p, hleads.dots hsize, habsent⟩

/-- The working directory is there. -/
theorem leads_cwd (t : FileTree) : t.Leads ['.'] t.cwd :=
  have hdir : t.isDirAt t.cwd = true := by simp [isDirAt]
  ⟨walk_dots hdir 1, hdir⟩

/-- There is nothing at a place that is not in the tree. -/
theorem statusAt_of_unused (hcwd : ¬q <+: t.cwd) (hdirs : q ∉ t.dirs)
    (hfiles : q ∉ t.files.map Prod.fst) (hsealed : q ∉ t.sealed) :
    t.statusAt q = .absent .missing := by
  have hdir : t.isDirAt q = false := by
    simpa [isDirAt, Bool.eq_false_iff] using ⟨hcwd, hdirs⟩
  have hfile : t.fileAt q = none := by
    simpa [fileAt] using fun p bytes h hp => hfiles (List.mem_map.2 ⟨(p, bytes), h, hp⟩)
  have hclosed : t.sealed.contains q = false := by simpa using hsealed
  rw [statusAt, hdir, hfile, hclosed]
  rfl

/-- There is nothing in the working directory of an empty tree. -/
theorem isEmptyDir_cwd (cwd : Place) : (empty cwd).IsEmptyDir ['.'] := by
  refine ⟨cwd, leads_cwd _, fun name =>
    statusAt_of_unused ?_ (by simp [empty]) (by simp [empty]) (by simp [empty])⟩
  exact fun h => absurd h.length_le (by simp [empty])

end FileTree

end CommentTemplate
