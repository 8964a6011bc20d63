import CommentTemplate.Proofs.Program.Balance
import CommentTemplate.Proofs.Render.Semantics

/-!
# Rendering by positions, with guards

A program may come from anywhere, and its renderer jumps: past the body of a loop to the position
that the partners give.  Here every step of such a rendering is guarded.  A position outside the
program, a jump that does not lead ahead within the stretch, and a closing marker where a step
should be each stop it.  With the partners that the matcher finds no guard ever does, so a renderer
that has none is safe, whatever the program.

## Main definitions

* `LoopEnds` — the position at which a loop ends
* `Halt` — an error of a rendering, or a guard that stops it
* `renderStretch` — a stretch of a program rendered by positions, with guards

## Main statements

* `LoopEnds.unique` — a loop ends at one position
* `exists_closeOf` — the partner of an opening marker is where its loop ends
* `renderStretch_nodes` — with partners that fit, no guard stops the rendering of a script
* `render_untrusted` — all programs, whether their markers pair up or not

## Design decisions

**Termination by a guard.**  Without guards a rendering comes to an end only if every jump leads
ahead.  Here a guard sees to it, so the guarded rendering ends for any partners.  With those of the
matcher the guard never stops it, hence every jump leads ahead and stays within its stretch, and a
renderer without guards takes the same steps to the same end.
-/

namespace CommentTemplate

open Json (Scope)

/-! ## Where a loop ends -/

/-- A loop over a block that opens at position `i` ends at position `j`: a closing marker of that
block stands there, and what stands between the two markers is properly nested. -/
structure LoopEnds (nodes : List Node) (block : Text) (i j : Nat) : Prop where
  lt : i < j
  closing : nodes[j]? = some (.loopClose block)
  inside : Nested ((nodes.take j).drop (i + 1))

section LoopEnds

variable {nodes body rest : List Node} {block : Text} {i j k : Nat}

/-- The nodes behind the opening marker begin with the body and the closing marker. -/
theorem LoopEnds.drop_eq (h : LoopEnds nodes block i j) :
    nodes.drop (i + 1) =
      (nodes.take j).drop (i + 1) ++ .loopClose block :: nodes.drop (j + 1) := by
  obtain ⟨hj, hclosing⟩ := List.getElem?_eq_some_iff.1 h.closing
  have hsplit : nodes = nodes.take j ++ .loopClose block :: nodes.drop (j + 1) := by
    rw [← hclosing, List.getElem_cons_drop, List.take_append_drop]
  have hle : i + 1 ≤ (nodes.take j).length := by
    rw [List.length_take]
    have := h.lt
    omega
  conv => lhs; rw [hsplit]
  exact List.drop_append_of_le_length hle

theorem LoopEnds.of_drop_eq (hbody : Nested body)
    (h : nodes.drop (i + 1) = body ++ .loopClose block :: rest) :
    LoopEnds nodes block i (i + 1 + body.length) := by
  refine ⟨by omega, ?_, ?_⟩
  · rw [← List.getElem?_drop, h]
    simp
  · rw [List.drop_take, h, Nat.add_sub_cancel_left, List.take_left]
    exact hbody

/-- **A loop ends at one position.** -/
theorem LoopEnds.unique (h : LoopEnds nodes block i j) (h' : LoopEnds nodes block i k) :
    j = k := by
  have hlengths : ((nodes.take j).drop (i + 1)).length = ((nodes.take k).drop (i + 1)).length := by
    have heq := h.drop_eq.symm.trans h'.drop_eq
    obtain ⟨t, ht⟩ := h.inside.exists_script
    obtain ⟨u, hu⟩ := h'.inside.exists_script
    rw [← ht, ← hu] at heq ⊢
    rw [(Script.eq_of_nodes_append_eq (by simp) (by simp) heq).1]
  have hj := (List.getElem?_eq_some_iff.1 h.closing).1
  have hk := (List.getElem?_eq_some_iff.1 h'.closing).1
  have := h.lt
  have := h'.lt
  simp only [List.length_drop, List.length_take] at hlengths
  omega

end LoopEnds

/-! ## Partners that fit -/

section Partners

variable {partners : Partners} {nodes : List Node} {block : Text} {i : Nat}

/-- In a script the partner of an opening marker stands behind the body of its loop. -/
theorem Script.Fits.exists_closeOf {t : Script} {start : Nat} (h : t.Fits partners start)
    (hopen : t.nodes[i]? = some (.loopOpen block)) :
    ∃ (body : Script) (rest : List Node),
      t.nodes.drop (i + 1) = body.nodes ++ .loopClose block :: rest ∧
        partners.closeOf (start + i) = some (start + i + 1 + body.nodes.length) := by
  induction t generalizing start i with
  | done => simp [nodes] at hopen
  | literal text next ih | varRef name function next ih =>
      cases i with
      | zero => simp [nodes] at hopen
      | succ i =>
          obtain ⟨body, rest, hdrop, hclose⟩ := ih h hopen
          rw [Nat.add_right_comm start 1 i] at hclose
          exact ⟨body, rest, hdrop, hclose⟩
  | loop name body next ihBody ihNext =>
      obtain ⟨hclose, hbody, hnext⟩ := h
      cases i with
      | zero =>
          obtain rfl : name = block := by simpa [nodes] using hopen
          exact ⟨body, next.nodes, rfl, hclose⟩
      | succ i =>
          rw [nodes, List.getElem?_cons_succ] at hopen
          rw [nodes, List.drop_succ_cons]
          -- The marker stands in the body, or behind the marker that ends it.
          rcases Nat.lt_trichotomy i body.nodes.length with hlt | rfl | hgt
          · rw [List.getElem?_append_left hlt] at hopen
            obtain ⟨inner, rest, hdrop, hinner⟩ := ihBody hbody hopen
            refine ⟨inner, rest ++ .loopClose name :: next.nodes, ?_, ?_⟩
            · rw [List.drop_append_of_le_length hlt, hdrop, List.append_assoc, List.cons_append]
            · rwa [Nat.add_right_comm start 1 i] at hinner
          · simp at hopen
          · obtain ⟨k, rfl⟩ := Nat.exists_eq_add_of_lt hgt
            rw [List.getElem?_append_right (by omega)] at hopen
            have hindex : body.nodes.length + k + 1 - body.nodes.length = k + 1 := by omega
            rw [hindex, List.getElem?_cons_succ] at hopen
            obtain ⟨inner, rest, hdrop, hinner⟩ := ihNext hnext hopen
            have hstart : start + 1 + body.nodes.length + 1 + k =
                start + (body.nodes.length + k + 1 + 1) := by omega
            rw [hstart] at hinner
            refine ⟨inner, rest, ?_, hinner⟩
            rw [← hdrop, List.drop_append, List.drop_eq_nil_of_le (by omega), List.nil_append]
            simp [Nat.add_assoc]

/-- Nodes whose markers are matched are the flat form of a script, which the partners fit. -/
theorem exists_script_fits (h : loopPartners nodes = .ok partners) :
    ∃ t : Script, t.nodes = nodes ∧ t.Fits partners 0 := by
  obtain ⟨t, rfl⟩ := (nested_iff_loopPartners.2 ⟨partners, h⟩).exists_script
  obtain rfl : t.partners 0 = partners := Except.ok.inj ((loopPartners_nodes t).symm.trans h)
  exact ⟨t, rfl, t.fits_partners_self⟩

/-- **The partner of an opening marker** is where its loop ends. -/
theorem exists_closeOf (h : loopPartners nodes = .ok partners)
    (hopen : nodes[i]? = some (.loopOpen block)) :
    ∃ j, partners.closeOf i = some j ∧ LoopEnds nodes block i j := by
  obtain ⟨t, rfl, hfits⟩ := exists_script_fits h
  obtain ⟨body, rest, hdrop, hclose⟩ := hfits.exists_closeOf hopen
  rw [Nat.zero_add] at hclose
  exact ⟨_, hclose, .of_drop_eq (.of_script body) hdrop⟩

end Partners

/-! ## Guards -/

/-- Why a guarded rendering stops. -/
inductive Halt where
  /-- The rendering itself fails. -/
  | error (e : RenderError)
  /-- There is no node at a position. -/
  | outside (i : Nat)
  /-- The loop at a position has no partner, or one that is not ahead of it in the stretch. -/
  | astray (i : Nat)
  /-- The node at a position ends a loop that was not entered. -/
  | closing (i : Nat)
deriving DecidableEq, Repr

/-- The text of the nodes from position `i` up to position `stop`, within some scopes.  The nodes
are read by their positions in the whole program, and every step is guarded. -/
def renderStretch (strict : Bool) (b : Bindings) (partners : Partners) (nodes : List Node)
    (i stop : Nat) (scopes : List Scope) : Except Halt Text :=
  if i < stop then
    match nodes[i]? with
    | none => .error (.outside i)
    | some (.literal text) => do
      let after ← renderStretch strict b partners nodes (i + 1) stop scopes
      return text ++ after
    | some (.varRef name _) => do
      let text ← (showVariable strict name scopes).mapError .error
      let after ← renderStretch strict b partners nodes (i + 1) stop scopes
      return text ++ after
    | some (.loopOpen block) =>
      match partners.closeOf i with
      | none => .error (.astray i)
      | some close =>
        if i < close ∧ close < stop then do
          let turns ← (collection b block scopes).mapError .error
          let texts ← turns.mapM fun turn =>
            renderStretch strict b partners nodes (i + 1) close (turn :: scopes)
          let after ← renderStretch strict b partners nodes (close + 1) stop scopes
          return texts.flatten ++ after
        else .error (.astray i)
    | some (.loopClose _) => .error (.closing i)
  else .ok []
termination_by stop - i

section Step

variable {strict : Bool} {b : Bindings} {partners : Partners} {nodes : List Node} {i stop : Nat}
  {scopes : List Scope}

theorem renderStretch_self : renderStretch strict b partners nodes i i scopes = .ok [] := by
  rw [renderStretch, if_neg (Nat.lt_irrefl i)]

theorem renderStretch_literal {text : Text} (h : i < stop)
    (hnode : nodes[i]? = some (.literal text)) :
    renderStretch strict b partners nodes i stop scopes = do
      let after ← renderStretch strict b partners nodes (i + 1) stop scopes
      return text ++ after := by
  rw [renderStretch, if_pos h, hnode]

theorem renderStretch_varRef {name : Text} {function : Option Text} (h : i < stop)
    (hnode : nodes[i]? = some (.varRef name function)) :
    renderStretch strict b partners nodes i stop scopes = do
      let text ← (showVariable strict name scopes).mapError .error
      let after ← renderStretch strict b partners nodes (i + 1) stop scopes
      return text ++ after := by
  rw [renderStretch, if_pos h, hnode]

/-- A loop whose partner is ahead of it in the stretch passes the guard. -/
theorem renderStretch_loopOpen {block : Text} {close : Nat} (hlt : i < close) (h : close < stop)
    (hnode : nodes[i]? = some (.loopOpen block)) (hclose : partners.closeOf i = some close) :
    renderStretch strict b partners nodes i stop scopes = do
      let turns ← (collection b block scopes).mapError .error
      let texts ← turns.mapM fun turn =>
        renderStretch strict b partners nodes (i + 1) close (turn :: scopes)
      let after ← renderStretch strict b partners nodes (close + 1) stop scopes
      return texts.flatten ++ after := by
  rw [renderStretch, if_pos (Nat.lt_trans hlt h), hnode]
  simp only [hclose]
  rw [if_pos ⟨hlt, h⟩]

end Step

/-! ## No guard stops a rendering -/

section Guarded

variable {strict : Bool} {b : Bindings} {partners : Partners} {nodes back : List Node}

theorem getElem?_of_drop_eq {n : Node} {i : Nat} (h : nodes.drop i = n :: back) :
    nodes[i]? = some n ∧ nodes.drop (i + 1) = back := by
  constructor
  · rw [← List.head?_drop, h, List.head?_cons]
  · rw [← List.tail_drop, h, List.tail_cons]

/-- **With partners that fit a script, no guard stops its rendering**, and it is rendered to its
value. -/
theorem renderStretch_nodes {t : Script} {i : Nat} (h : t.Fits partners i)
    (hnodes : nodes.drop i = t.nodes ++ back) (scopes : List Scope) :
    renderStretch strict b partners nodes i (i + t.nodes.length) scopes =
      (t.eval strict b scopes).mapError .error := by
  induction t generalizing i back scopes with
  | done => exact renderStretch_self
  | literal text next ih =>
      obtain ⟨hnode, hnext⟩ := getElem?_of_drop_eq hnodes
      have hstop : i + (Script.literal text next).nodes.length = i + 1 + next.nodes.length := by
        simp only [Script.nodes, List.length_cons]
        omega
      rw [hstop, renderStretch_literal (by omega) hnode, ih h hnext, Script.eval, mapError_bind]
      rfl
  | varRef name function next ih =>
      obtain ⟨hnode, hnext⟩ := getElem?_of_drop_eq hnodes
      have hstop : i + (Script.varRef name function next).nodes.length =
          i + 1 + next.nodes.length := by
        simp only [Script.nodes, List.length_cons]
        omega
      rw [hstop, renderStretch_varRef (by omega) hnode, ih h hnext, Script.eval, mapError_bind]
      refine congrArg _ (funext fun text => ?_)
      rw [mapError_bind]
      rfl
  | loop block body next ihBody ihNext =>
      obtain ⟨hclose, hbody, hnext⟩ := h
      have hloop : nodes.drop i =
          .loopOpen block :: (body.nodes ++ .loopClose block :: (next.nodes ++ back)) := by
        rw [hnodes, Script.nodes]
        simp
      obtain ⟨hnode, hinner⟩ := getElem?_of_drop_eq hloop
      -- The guard compares the partner with both ends of the stretch.
      have hstop : i + (Script.loop block body next).nodes.length =
          i + 1 + body.nodes.length + 1 + next.nodes.length := by
        simp only [Script.nodes, List.length_cons, List.length_append]
        omega
      have hafter : nodes.drop (i + 1 + body.nodes.length + 1) = next.nodes ++ back := by
        rw [← List.drop_drop, ← List.drop_drop, hinner, List.drop_left, List.drop_one,
          List.tail_cons]
      rw [hstop, renderStretch_loopOpen (by omega) (by omega) hnode hclose, Script.eval,
        mapError_bind]
      refine congrArg _ (funext fun turns => ?_)
      rw [mapError_bind, mapError_mapM]
      simp only [ihBody hbody hinner]
      refine congrArg _ (funext fun texts => ?_)
      rw [mapError_bind, ihNext hnext hafter]
      rfl

/-- With the partners found for a program the guarded rendering is the rendering. -/
theorem renderStretch_of_loopPartners (h : loopPartners nodes = .ok partners) (strict : Bool)
    (b : Bindings) :
    renderStretch strict b partners nodes 0 nodes.length [b.values] =
      (render strict ⟨nodes⟩ b).mapError .error := by
  obtain ⟨t, rfl, hfits⟩ := exists_script_fits h
  have hnodes : t.nodes.drop 0 = t.nodes ++ [] := by rw [List.drop_zero, List.append_nil]
  calc renderStretch strict b partners t.nodes 0 t.nodes.length [b.values]
      = renderStretch strict b partners t.nodes 0 (0 + t.nodes.length) [b.values] := by
        rw [Nat.zero_add]
    _ = (t.eval strict b [b.values]).mapError .error := renderStretch_nodes hfits hnodes [b.values]
    _ = (render strict ⟨t.nodes⟩ b).mapError .error := by rw [render_nodes]

/-- Partners that do not fit meet a guard: of two crossed loops the inner one would end outside the
body in which it stands. -/
example :
    renderStretch false ⟨Dict.empty, Dict.ofList [("a".toList, [Dict.empty])]⟩ [(0, 2), (1, 3)]
      [.loopOpen "a".toList, .loopOpen "b".toList, .loopClose "a".toList, .loopClose "b".toList]
      0 4 [Dict.empty] = .error (.astray 1) := by
  decide +kernel

end Guarded

/-- **Any program is safe to render.**  Its loop markers are matched exactly if they are properly
nested.  If they are, the partner of each opening marker is the one position at which its loop ends,
and no guard stops a rendering that follows the partners.  If they are not, every rendering has the
same error, which is about a loop marker. -/
theorem render_untrusted (nodes : List Node) :
    ((∃ partners, loopPartners nodes = .ok partners) ↔ Nested nodes) ∧
      (∀ partners, loopPartners nodes = .ok partners →
        (∀ i block, nodes[i]? = some (.loopOpen block) → ∃ j, partners.closeOf i = some j ∧
          ∀ k, LoopEnds nodes block i k ↔ k = j) ∧
        ∀ strict b, renderStretch strict b partners nodes 0 nodes.length [b.values] =
          (render strict ⟨nodes⟩ b).mapError .error) ∧
      ∀ e, loopPartners nodes = .error e → ∃ block, e = .unbalancedLoop block ∧
        ∀ strict b, render strict ⟨nodes⟩ b = .error (.unbalancedLoop block) := by
  refine ⟨nested_iff_loopPartners.symm, ?_, ?_⟩
  · intro partners h
    refine ⟨fun i block hopen => ?_, renderStretch_of_loopPartners h⟩
    obtain ⟨j, hclose, hends⟩ := exists_closeOf h hopen
    exact ⟨j, hclose, fun k => ⟨fun hk => hk.unique hends, fun hk => hk ▸ hends⟩⟩
  · intro e h
    obtain ⟨block, rfl⟩ := partnersFrom_eq_error h
    exact ⟨block, rfl, render_of_unbalanced h⟩

/-- A loop with another one inside it, and behind both a loop over the block of the first one. -/
def threeLoops : List Node :=
  [.loopOpen "a".toList, .loopOpen "b".toList, .varRef "x".toList none, .loopClose "b".toList,
    .loopClose "a".toList, .loopOpen "a".toList, .loopClose "a".toList]

/-- Two loops that cross. -/
def crossedLoops : List Node :=
  [.loopOpen "a".toList, .loopOpen "b".toList, .loopClose "a".toList, .loopClose "b".toList]

/-- The first of the three loops ends behind the inner one and not with the last one, and they are
rendered without harm.  The crossed loops are not rendered. -/
theorem render_threeLoops :
    let partners : Partners := [(1, 3), (0, 4), (5, 6)]
    (loopPartners threeLoops = .ok partners ∧ threeLoops[0]? = some (.loopOpen "a".toList) ∧
      partners.closeOf 0 = some 4 ∧ (∀ k, LoopEnds threeLoops "a".toList 0 k ↔ k = 4) ∧
      ∀ strict b, renderStretch strict b partners threeLoops 0 7 [b.values] =
        (render strict ⟨threeLoops⟩ b).mapError .error) ∧
    loopPartners crossedLoops = .error (.unbalancedLoop "a".toList) ∧
      ∀ strict b, render strict ⟨crossedLoops⟩ b = .error (.unbalancedLoop "a".toList) := by
  intro partners
  have hmatched : loopPartners threeLoops = .ok partners := by decide +kernel
  have hopen : threeLoops[0]? = some (.loopOpen "a".toList) := rfl
  have hclose : partners.closeOf 0 = some 4 := by decide
  have hcrossed : loopPartners crossedLoops = .error (.unbalancedLoop "a".toList) := by
    decide +kernel
  obtain ⟨-, hsafe, -⟩ := render_untrusted threeLoops
  obtain ⟨hends, hguarded⟩ := hsafe partners hmatched
  obtain ⟨j, hj, hunique⟩ := hends 0 "a".toList hopen
  obtain rfl : 4 = j := Option.some.inj (hclose.symm.trans hj)
  obtain ⟨-, -, hrefused⟩ := render_untrusted crossedLoops
  obtain ⟨block, hblock, herror⟩ := hrefused _ hcrossed
  obtain rfl : "a".toList = block := RenderError.unbalancedLoop.inj hblock
  exact ⟨⟨hmatched, hopen, hclose, hunique, hguarded⟩, hcrossed, herror⟩

end CommentTemplate
