import Mathlib.Control.Monad.Basic
import CommentTemplate.Proofs.Compile.Placeholders
import CommentTemplate.Proofs.Tag.Ends

/-!
# Compiled templates spell their text

A program can be written out as a template again: literals as they are, variables in braces, and
for every loop marker some end of a block of that name.  The text that a program was compiled from
is one of the texts that it can be written out as, so a compilation loses nothing of it, has
nothing twice and keeps the order.

## Main definitions

* `Placeholder.spelling` — a variable reference as it stands in a template
* `WrittenOut` — nodes that can be written out as a text

## Main statements

* `PlaceholderText.eq_spelling` — a placeholder has one spelling
* `writtenOut_finish`, `writtenOut_marks` — neither the expansion of blocks nor that of placeholders
  loses anything of a text
* `writtenOut_of_compile` — a compiled template spells the template

## Design decisions

**Several spellings.**  A marker says nothing about the style of its block, the case of its keyword
or the blanks in it, so a program spells many texts.  A placeholder leaves no such choice.
-/

namespace CommentTemplate

/-! ## Placeholders -/

/-- A variable reference as it stands in a template. -/
def Placeholder.spelling (p : Placeholder) : Text :=
  '{' :: (p.name ++ (p.function.elim [] fun function => ':' :: function) ++ ['}'])

/-- A placeholder is written as its variable and its function say. -/
theorem PlaceholderText.eq_spelling {p : Placeholder} {t : Text} (h : PlaceholderText p t) :
    t = p.spelling := by
  cases h <;> simp [Placeholder.spelling]

/-! ## Nodes as text -/

/-- Nodes that can be written out as a text: literals as they are, variable references in braces,
and each loop marker as an end of a block of its name. -/
inductive WrittenOut : List Node → Text → Prop where
  | nil : WrittenOut [] []
  | literal (text : Text) {nodes : List Node} {t : Text} (h : WrittenOut nodes t) :
    WrittenOut (.literal text :: nodes) (text ++ t)
  | varRef (name : Text) (function : Option Text) {nodes : List Node} {t : Text}
    (h : WrittenOut nodes t) :
    WrittenOut (.varRef name function :: nodes) (Placeholder.spelling ⟨name, function⟩ ++ t)
  | loopOpen {d : Delimiter} {raw : Text} (hd : d.opening = true)
    (hraw : blockDelimiter.IsSpelling d raw) {nodes : List Node} {t : Text}
    (h : WrittenOut nodes t) :
    WrittenOut (.loopOpen d.name :: nodes) (raw ++ t)
  | loopClose {d : Delimiter} {raw : Text} (hd : d.opening = false)
    (hraw : blockDelimiter.IsSpelling d raw) {nodes : List Node} {t : Text}
    (h : WrittenOut nodes t) :
    WrittenOut (.loopClose d.name :: nodes) (raw ++ t)

section WrittenOut

variable {front back nodes : List Node} {t u : Text}

theorem WrittenOut.append (hfront : WrittenOut front t) (hback : WrittenOut back u) :
    WrittenOut (front ++ back) (t ++ u) := by
  induction hfront with
  | nil => exact hback
  | literal text _ ih => exact List.append_assoc .. ▸ ih.literal text
  | varRef name function _ ih => exact List.append_assoc .. ▸ ih.varRef name function
  | loopOpen hd hraw _ ih => exact List.append_assoc .. ▸ ih.loopOpen hd hraw
  | loopClose hd hraw _ ih => exact List.append_assoc .. ▸ ih.loopClose hd hraw

theorem writtenOut_prependLiteral (text : Text) (h : WrittenOut nodes t) :
    WrittenOut (prependLiteral text nodes) (text ++ t) := by
  by_cases htext : text = []
  · rw [htext, prependLiteral_empty]
    exact h
  · cases h with
    | literal v h =>
        -- The text becomes part of the literal that stands there.
        rw [← List.append_assoc]
        simpa [prependLiteral, htext] using h.literal (text ++ v)
    | nil => simpa [prependLiteral, htext] using WrittenOut.nil.literal text
    | varRef name function h =>
        simpa [prependLiteral, htext] using (h.varRef name function).literal text
    | loopOpen hd hraw h => simpa [prependLiteral, htext] using (h.loopOpen hd hraw).literal text
    | loopClose hd hraw h => simpa [prependLiteral, htext] using (h.loopClose hd hraw).literal text

theorem writtenOut_joinNodes (hfront : WrittenOut front t) (hback : WrittenOut back u) :
    WrittenOut (joinNodes front back) (t ++ u) := by
  induction hfront with
  | nil => exact hback
  | literal text _ ih => exact List.append_assoc .. ▸ writtenOut_prependLiteral text ih
  | varRef name function _ ih => exact List.append_assoc .. ▸ ih.varRef name function
  | loopOpen hd hraw _ ih => exact List.append_assoc .. ▸ ih.loopOpen hd hraw
  | loopClose hd hraw _ ih => exact List.append_assoc .. ▸ ih.loopClose hd hraw

/-- A scan of placeholders, each as it is written, spells the scanned text. -/
theorem writtenOut_placeholderNodes (text : Text) (h : WrittenOut nodes t) :
    WrittenOut (placeholderNodes text nodes) (text ++ t) := by
  have hraw : ∀ f ∈ (placeholderTag.scan text).found, f.raw = f.tag.spelling :=
    fun f hf =>
      PlaceholderText.eq_spelling ((Recognizer.isSpelling_iff reads_placeholderTag).1
        (Recognizer.isSpelling_of_mem_scan closed_placeholderTag hf))
  conv => arg 2; rw [← placeholderTag.text_scan text, Scan.text]
  unfold placeholderNodes scanNodes
  generalize (placeholderTag.scan text).found = found at hraw ⊢
  induction found with
  | nil => exact writtenOut_prependLiteral _ h
  | cons f fs ih =>
      have hfs := ih fun g hg => hraw g (List.mem_cons_of_mem f hg)
      have hf : WrittenOut (f.tag.node :: _) (f.tag.spelling ++ _) :=
        hfs.varRef f.tag.name f.tag.function
      rw [List.foldr_cons, Found.texts_cons, hraw f List.mem_cons_self]
      simpa only [List.append_assoc] using writtenOut_prependLiteral f.before hf

theorem writtenOut_expandPlaceholders (h : WrittenOut nodes t) :
    WrittenOut (expandPlaceholders nodes) t := by
  induction h with
  | nil => exact .nil
  | literal text _ ih => exact writtenOut_placeholderNodes text ih
  | varRef name function _ ih => exact ih.varRef name function
  | loopOpen hd hraw _ ih => exact ih.loopOpen hd hraw
  | loopClose hd hraw _ ih => exact ih.loopClose hd hraw

/-- The last two steps of a compilation lose nothing. -/
theorem writtenOut_finish (h : WrittenOut nodes t) : WrittenOut (finish nodes) t := by
  have hjoined := writtenOut_joinNodes h WrittenOut.nil
  rw [List.append_nil] at hjoined
  exact writtenOut_expandPlaceholders hjoined

end WrittenOut

/-! ## The text of a forest -/

/-- **A forest no block of which is replaced or removed** spells its text. -/
theorem writtenOut_marks {rules : BlockRules} {depth : Nat} {f : Forest}
    (hf : f.Delimited blockDelimiter)
    (h : ∀ e ∈ f.postorder depth, e.2 < rules.policy.limit →
      rules.replacements.contains e.1 = false ∧ rules.removals.contains e.1 = false) :
    WrittenOut (f.marks rules depth) f.text := by
  induction hf generalizing depth with
  | leaf t =>
      have ht := WrittenOut.nil.literal t
      rwa [List.append_nil] at ht
  | @tree before name opener closer body after ends _ _ ihBody ihAfter =>
      by_cases hd : depth < rules.policy.limit
      · obtain ⟨hreplaced, hremoved⟩ := h (name, depth) (by simp) hd
        have hbody := @ihBody (depth + 1) fun e he => h e (by simp [he])
        have hafter := @ihAfter depth fun e he => h e (by simp [he])
        obtain ⟨d, e, hopening, rfl, hopener, hclosing, hname, hcloser⟩ := ends_blockDelimiter ends
        rw [Dict.contains, Option.isSome_eq_false_iff, Option.isNone_iff_eq_none] at hreplaced
        have hmarks : (Forest.tree before d.name opener body closer after).marks rules depth =
            .literal before :: .loopOpen d.name :: (body.marks rules (depth + 1) ++
              .loopClose e.name :: after.marks rules depth) := by
          simp [Forest.marks, hd, BlockRules.marks, BlockRules.content, hremoved, hreplaced, hname]
        rw [hmarks, Forest.text_tree]
        exact ((hbody.append (hafter.loopClose hclosing hcloser)).loopOpen hopening hopener).literal
          before
      · rw [Forest.marks, if_neg hd]
        have ht := WrittenOut.nil.literal (Forest.tree before name opener body closer after).text
        rwa [List.append_nil] at ht

/-- **Compilation loses nothing, has nothing twice and keeps the order.**  The program of a text
without include tags and complete replacement tags, none of whose blocks is replaced or removed,
can be written out as that text: each literal as it is, each variable reference in braces, and each
loop marker as an end of a block of its name.  A text without any complete tag is compiled to
itself. -/
theorem writtenOut_of_compile {s : Settings} {loader : Option Loader} {t : Text}
    (hincludes : includedPaths t = []) (hreplace : nextReplace t = none) :
    (∀ r, s.compile loader t = .ok r →
      (∀ e ∈ (blockDelimiter.forest t).postorder 0, e.2 < s.config.recursionLimit →
        s.replacements.contains e.1 = false ∧ s.removals.contains e.1 = false) →
      WrittenOut r.program.nodes t) ∧
    (nextBlock t = none → placeholderNames t = [] →
      s.compile loader t = .ok ⟨⟨if t = [] then [] else [.literal t]⟩, [], []⟩) := by
  constructor
  · intro r h hplain
    obtain ⟨resolved, stripped, given, hres, hext, hnodes, -⟩ := compiled_eq_of_ok h
    rw [resolveIncludes_of_no_tag hincludes, Except.ok.injEq] at hres
    subst hres
    rw [extractReplacements_of_no_tag hreplace, Except.ok.injEq, Prod.mk.injEq] at hext
    obtain ⟨rfl, rfl⟩ := hext
    have hforest : WrittenOut ((blockDelimiter.forest t).marks (s.blockRules Dict.empty) 0) t := by
      have hmarks : WrittenOut ((blockDelimiter.forest t).marks (s.blockRules Dict.empty) 0)
          (blockDelimiter.forest t).text :=
        writtenOut_marks (delimited_forest closed_blockDelimiter t) hplain
      rwa [Recognizer.text_forest] at hmarks
    rw [hnodes]
    exact writtenOut_finish hforest
  · intro hblock hplaceholders
    have hfound : (placeholderTag.scan t).found = [] := List.map_eq_nil_iff.1 hplaceholders
    have hexpansion : expandBlocksAt (s.blockRules Dict.empty) 0 t = ⟨[], .ok (literalNodes t)⟩ :=
      expandBlocksAt_of_none hblock
    have hnormal : Normal (literalNodes t) := normal_prependLiteral t trivial
    have hsettled : Settled (literalNodes t) := settled_prependLiteral hfound
      (fun u hu => absurd hu List.not_mem_nil) (fun u hu => by cases hu)
    obtain ⟨hsame, hnone⟩ := expandPlaceholders_of_settled hsettled hnormal
    refine compile_eq_ok_iff.2 ⟨t, t, Dict.empty, literalNodes t,
      resolveIncludes_of_no_tag hincludes, extractReplacements_of_no_tag hreplace, ?_, ?_⟩
    · rw [expandBlocks, hexpansion]
    · rw [expandBlocks, hexpansion, hsame, hnone]
      rfl

/-- A template with blocks in both styles, one inside the other, ends of blocks that belong to
nothing, and variables. -/
def programme : Text :=
  "{who:upper}<!-- End day --><!-- begin\nday -->{date}: <!-- [talk] -->{title}".toList ++
    "<!-- [/talk] --><!-- END day --><!-- [talk] -->".toList

/-- The programme compiled with the limit one, so that the talk inside the day is text. -/
def programmeCompiled : Compiled where
  program := ⟨[.varRef "who".toList (some "upper".toList), .literal "<!-- End day -->".toList,
    .loopOpen "day".toList, .varRef "date".toList none, .literal ": <!-- [talk] -->".toList,
    .varRef "title".toList none, .literal "<!-- [/talk] -->".toList, .loopClose "day".toList,
    .literal "<!-- [talk] -->".toList]⟩
  blocks := ["day".toList]
  placeholders := ["who".toList, "date".toList, "title".toList]

/-- The compiled programme spells the programme. -/
theorem writtenOut_programme :
    Settings.compile { config := { recursionLimit := 1 } } none programme = .ok programmeCompiled ∧
    WrittenOut programmeCompiled.program.nodes programme := by
  have hincludes : includedPaths programme = [] := by decide +kernel
  have hreplace : nextReplace programme = none := by decide +kernel
  have hcompile : Settings.compile { config := { recursionLimit := 1 } } none programme =
      .ok programmeCompiled := by decide +kernel
  have hplain : ∀ e ∈ (blockDelimiter.forest programme).postorder 0, e.2 < 1 →
      Dict.contains e.1 (Dict.empty : Replacements) = false ∧
        Dict.contains e.1 (Dict.empty : NameSet) = false := fun _ _ _ => ⟨rfl, rfl⟩
  exact ⟨hcompile, (writtenOut_of_compile hincludes hreplace).1 _ hcompile hplain⟩

end CommentTemplate
