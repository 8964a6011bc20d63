import Mathlib.Data.List.Nodup
import CommentTemplate.Proofs.Cache.Directory

/-!
# Keys keep compilations apart

Two sessions give two templates one key exactly if the templates are the same and the sessions
agree in their configuration, in what they put into each block, and in the blocks they leave out.
How the settings came about does not count.  Each key has a file of its own, right inside the
directory of the cache.

## Main definitions

* `Path.IsChild` — paths that lead right into a directory

## Main statements

* `settings_eq_iff` — when settings are equal
* `IsKey.isChild_pathFor` — the file of a key
* `keys_separate` — keys and their files
-/

namespace CommentTemplate

/-! ## Files right inside a directory -/

/-- A path leads right into a directory, to a name: it is the path of the directory with the name
behind it, and unless it is too long it leads to the name at the place of the directory. -/
structure Path.IsChild (dir name path : Text) : Prop where
  isName : Path.IsName name
  path_eq : path = Path.join dir [] ++ name
  place {t : FileTree} {p : Place} (h : t.Leads dir p) :
    t.resolve path = .ok (p ++ [name]) ∨ t.resolve path = .error .nameTooLong

theorem Path.IsName.isChild_join {name : Text} (h : Path.IsName name) (dir : Text) :
    Path.IsChild dir name (Path.join dir name) where
  isName := h
  path_eq := Path.join_of_head (Path.head_of_notMem h.slash)
  place hleads :=
    (Nat.lt_or_ge _ _).imp (hleads.resolve_join h) (hleads.resolve_join_of_long h)

theorem IsKey.isChild_pathFor {key : Text} (h : IsKey key) (cache : Cache) :
    Path.IsChild cache.dir (fileName key) (cache.pathFor key) :=
  h.isName_fileName.isChild_join cache.dir

/-- Two keys have one path only if they are the same key. -/
theorem IsKey.eq_of_pathFor_eq {j k : Text} (hj : IsKey j) (hk : IsKey k) {cache : Cache}
    (h : cache.pathFor j = cache.pathFor k) : j = k := by
  rw [(hj.isChild_pathFor cache).path_eq, (hk.isChild_pathFor cache).path_eq] at h
  exact fileName_inj.1 (List.append_cancel_left h)

/-! ## Keys -/

/-- Texts with different hashes. -/
theorem collisionFree_of_nodup {texts : List Text} (h : (texts.map sha256Hex).Nodup) :
    CollisionFree texts :=
  fun _ hs _ ht heq => List.inj_on_of_nodup_map h hs ht heq

/-- Settings are equal if they have one configuration, the same replacements and the same
removals. -/
theorem settings_eq_iff {s u : Settings} : s = u ↔ s.config = u.config ∧
    (∀ name, s.replacements.find? name = u.replacements.find? name) ∧
    ∀ name, s.removals.contains name = u.removals.contains name := by
  refine ⟨fun h => by simp [h], ?_⟩
  rintro ⟨hconfig, hreplacements, hremovals⟩
  have hremovals : s.removals = u.removals := Dict.ext_find? fun name => by
    have hname := hremovals name
    rw [Dict.contains, Dict.contains] at hname
    cases hs : s.removals.find? name <;> cases hu : u.removals.find? name <;> simp_all
  cases s
  cases u
  simp only [Settings.mk.injEq]
  exact ⟨hconfig, Dict.ext_find? hreplacements, hremovals⟩

/-- **Keys keep compilations apart.**  Unless hashes collide, two sessions give two templates one
key exactly if the templates are the same and the sessions agree in configuration, replacements
and removals.  Every key has sixty-four hexadecimal digits, its file stands right inside the
directory of the cache, and no other key has that file. -/
theorem keys_separate (c d : Session) (x y : Text) :
    (CollisionFree ((Job.mk c.settings x).texts ++ (Job.mk d.settings y).texts) →
      (c.settings.keyFor x = d.settings.keyFor y ↔ x = y ∧
        c.settings.config = d.settings.config ∧
        (∀ name, c.settings.replacements.find? name = d.settings.replacements.find? name) ∧
        ∀ name, c.settings.removals.contains name = d.settings.removals.contains name)) ∧
    IsKey (c.settings.keyFor x) ∧
    ∀ cache : Cache,
      Path.IsChild cache.dir (fileName (c.settings.keyFor x))
        (cache.pathFor (c.settings.keyFor x)) ∧
      (c.settings.keyFor x ≠ d.settings.keyFor y →
        cache.pathFor (c.settings.keyFor x) ≠ cache.pathFor (d.settings.keyFor y)) := by
  have hc : IsKey (c.settings.keyFor x) := isKey_sha256Hex _
  have hd : IsKey (d.settings.keyFor y) := isKey_sha256Hex _
  refine ⟨fun hfree => ?_, hc, fun cache => ⟨hc.isChild_pathFor cache, fun hne heq => ?_⟩⟩
  · rw [← settings_eq_iff]
    refine ⟨fun hkey => ?_, ?_⟩
    · have hjob := Job.eq_of_key_eq hfree hkey
      exact ⟨congrArg Job.source hjob, congrArg Job.settings hjob⟩
    · rintro ⟨rfl, hsettings⟩
      rw [hsettings]
  · exact hne (hc.eq_of_pathFor_eq hd heq)

/-- Two sessions that came to the same settings in different ways share a file; a third one, which
leaves out a block more, has another. -/
theorem pathFor_threeSessions :
    let source := "{NAME}".toList
    let cache : Cache := ⟨"cache".toList⟩
    let start := Session.start {}
    let c := start.run none [.change (.replacements [("A".toList, "\"\x7d".toList)] true),
      .change (.removals ["B".toList] true),
      .change (.replacements [("C:".toList, ['\n'])] true)]
    let d := start.run none [.change (.removals ["A".toList] true),
      .change (.removals ["B".toList, "B".toList] false), .change (.replacements
        [("C:".toList, ['\n']), ("A".toList, []), ("A".toList, "\"\x7d".toList)] false)]
    let e := d.run none [.change (.removals ["C:".toList] true)]
    cache.pathFor (c.settings.keyFor source) = cache.pathFor (d.settings.keyFor source) ∧
      cache.pathFor (c.settings.keyFor source) ≠ cache.pathFor (e.settings.keyFor source) := by
  intro source cache start c d e
  have hfree : CollisionFree
      ((Job.mk c.settings source).texts ++ (Job.mk e.settings source).texts) := by
    have hthree : CollisionFree [source, (Job.mk c.settings source).keyText,
        (Job.mk e.settings source).keyText] := collisionFree_of_nodup (by decide +kernel)
    exact hthree.mono (by simp [Job.texts])
  have hsettings : c.settings = d.settings := by decide +kernel
  have hremoval : c.settings.removals.contains "C:".toList ≠
      e.settings.removals.contains "C:".toList := by decide +kernel
  obtain ⟨hcd, -⟩ := keys_separate c d source source
  obtain ⟨hce, -, hpath⟩ := keys_separate c e source source
  refine ⟨congrArg cache.pathFor ((hcd ?_).2 ⟨rfl, settings_eq_iff.1 hsettings⟩), ?_⟩
  · rw [← hsettings]
    exact hfree.mono (by simp)
  · exact (hpath cache).2 fun heq => hremoval (((hce hfree).1 heq).2.2.2 _)

end CommentTemplate
