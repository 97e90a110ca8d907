import MigrationAudit.Proofs.Pascal.LowerMembers
import MigrationAudit.Proofs.Pascal.RoutineTree
import MigrationAudit.Proofs.Text.Suffixes

/-!
# Routines in lower case

The routines of an implementation in lower case are those of the implementation, put into lower
case: with the same spans, depths and directives, and with bodies in which the same branches are
counted and the same names are called.
-/

namespace MigrationAudit.Pascal

open Text Source

/-! ## Starts of routines -/

@[simp] theorem isRoutineStart_lowerCase (c : Cursor) :
    isRoutineStart c.lowerCase = isRoutineStart c := by
  simp only [isRoutineStart, Cursor.lastSignificant?_lowerCase]
  cases c.lastSignificant? with
  | none => rfl
  | some a => simp

@[simp] theorem classPrefix?_lowerCase (c : Cursor) :
    classPrefix? c.lowerCase = (classPrefix? c).map Cursor.lowerCase := by
  simp only [classPrefix?, Cursor.before_lowerCase, takeWhile_lowerLatin ignoresCase_isBlank,
    dropWhile_lowerLatin ignoresCase_isBlank, take_lowerLatin, drop_lowerLatin, lowered_lowerLatin,
    any_head?_lowerLatin ignoresCase_isIdent, length_lowerLatin, Cursor.back_lowerCase]
  split <;> rfl

theorem bodyStep_lowerCase (w : Word) : bodyStep w.lowerCase = bodyStep w := by
  simp only [bodyStep, Word.lower_lowerCase]

@[simp] theorem localStep_lowerCase (w : Word) : localStep w.lowerCase = localStep w := by
  simp only [localStep, Word.lower_lowerCase, Word.first_lowerCase, isRoutineStart_lowerCase]

@[simp] theorem pastSemicolon_lowerCase (c : Cursor) :
    pastSemicolon c.lowerCase = (pastSemicolon c).lowerCase := by
  unfold pastSemicolon
  rw [Cursor.skipBlank_lowerCase, Cursor.after_lowerCase]
  split
  · next rest h =>
    obtain ⟨tail, htail, -⟩ := (lowerLatin_eq_cons_iff (by rfl)).mp h
    rw [htail, Cursor.next_lowerCase]
    rfl
  · next h =>
    split
    · next tail htail => exact absurd (by simp [htail]) (h (lowerLatin tail))
    · rfl

@[simp] theorem readDirectives_lowerCase (c : Cursor) :
    readDirectives c.lowerCase = ((readDirectives c).1, (readDirectives c).2.lowerCase) := by
  fun_induction readDirectives c with
  | case1 c h =>
    rw [readDirectives]
    split
    · rfl
    · next w hw => simp [h] at hw
  | case2 c w h hd more rest heq ih =>
    rw [readDirectives]
    split
    · next hw => simp [h] at hw
    · next v hv =>
      obtain rfl : w.lowerCase = v := by simpa [h] using hv
      rw [heq] at ih
      simp only [Word.lower_lowerCase, hd, Word.first_lowerCase, pastStatement_lowerCase, ih,
        if_true]
  | case3 c w h hd =>
    rw [readDirectives]
    split
    · next hw => simp [h] at hw
    · next v hv =>
      obtain rfl : w.lowerCase = v := by simpa [h] using hv
      simp only [Word.lower_lowerCase, hd]
      rfl

/-! ## Routines -/

namespace RoutineNode

mutual

def lowerCase : RoutineNode → RoutineNode
  | ⟨header, start, stop, directives, body, unterminated, nestingCapped, maxDepth, nested⟩ =>
    ⟨header.lowerCase, start, stop, directives, body, unterminated, nestingCapped, maxDepth,
      lowerCaseAll nested⟩

def lowerCaseAll : List RoutineNode → List RoutineNode
  | [] => []
  | r :: rest => lowerCase r :: lowerCaseAll rest

end

theorem lowerCaseAll_eq (rs : List RoutineNode) : lowerCaseAll rs = rs.map lowerCase := by
  induction rs with
  | nil => rfl
  | cons r rs ih => rw [lowerCaseAll, ih, List.map_cons]

theorem lowerCase_eq (r : RoutineNode) :
    r.lowerCase = { r with header := r.header.lowerCase, nested := r.nested.map lowerCase } := by
  obtain ⟨header, start, stop, directives, body, unterminated, nestingCapped, maxDepth, nested⟩ := r
  rw [lowerCase, lowerCaseAll_eq]

@[simp] theorem push_lowerCase (r child : RoutineNode) :
    r.lowerCase.push child.lowerCase = (r.push child).lowerCase := by
  rw [lowerCase_eq (r.push child), lowerCase_eq r]
  simp [push]

theorem cap_lowerCase (r : RoutineNode) :
    { r.lowerCase with nestingCapped := true } =
      ({ r with nestingCapped := true } : RoutineNode).lowerCase := by
  rw [lowerCase_eq, lowerCase_eq]

mutual

theorem descendants_lowerCase :
    ∀ r : RoutineNode, r.lowerCase.descendants = r.descendants.map lowerCase
  | ⟨_, _, _, _, _, _, _, _, nested⟩ => descendantsOf_lowerCaseAll nested

theorem descendantsOf_lowerCaseAll :
    ∀ rs : List RoutineNode, descendantsOf (lowerCaseAll rs) = (descendantsOf rs).map lowerCase
  | [] => rfl
  | r :: rest => by
    rw [lowerCaseAll, descendantsOf, descendants_lowerCase r, descendantsOf_lowerCaseAll rest,
      descendantsOf]
    simp

end

end RoutineNode

def Declaration.lowerCase (d : Declaration) : Declaration := ⟨d.node.lowerCase, d.behind.lowerCase⟩

@[simp] theorem Declaration.isForward_lowerCase (d : Declaration) :
    d.lowerCase.isForward = d.isForward := by
  simp [isForward, lowerCase, RoutineNode.lowerCase_eq]

@[simp] theorem Declaration.read?_lowerCase (c : Cursor) :
    read? c.lowerCase = (read? c).map lowerCase := by
  simp only [read?, statementText_lowerCase, Header.parse?_lowerLatin]
  cases Header.parse? (statementText c) with
  | none => rfl
  | some header =>
    simp [lowerCase, RoutineNode.lowerCase_eq]

theorem readBody_lowerCase (r : RoutineNode) (c : Cursor) :
    readBody r.lowerCase c.lowerCase = ((readBody r c).1.lowerCase, (readBody r c).2.lowerCase) := by
  have hscan := scanBlock_lowerCase bodyStep_lowerCase c
  simp only [readBody, hscan, BlockScan.isClosed_lowerCase]
  obtain ⟨ending, maxDepth⟩ := scanBlock bodyStep c
  cases ending <;> simp [BlockScan.lowerCase, BlockEnd.lowerCase, bodyStop, bodySpan,
    RoutineNode.lowerCase_eq]

@[simp] theorem unfinished_lowerCase (pending : List RoutineNode) :
    unfinished (pending.map RoutineNode.lowerCase) =
      (unfinished pending).map RoutineNode.lowerCase := by
  simp [unfinished, List.flatMap_map, List.map_flatMap, ← List.map_reverse, RoutineNode.lowerCase_eq]

theorem readLocals_lowerCase (limit : Nat) (c : Cursor) (top : RoutineNode)
    (parents : List RoutineNode) :
    readLocals limit c.lowerCase top.lowerCase (parents.map RoutineNode.lowerCase) =
      (readLocals limit c top parents).map RoutineNode.lowerCase := by
  have hword {c : Cursor} {w : Word} (hw : c.nextWord? = some w) :=
    Cursor.nextWord?_lowerCase_of_some hw
  have hlocal {w : Word} {x : LocalStep} (hstep : localStep w = x) :=
    (localStep_lowerCase w).trans hstep
  fun_induction readLocals limit c top parents with
  | case1 c top parents hw =>
    rw [readLocals_of_none (Cursor.nextWord?_lowerCase_of_none hw), ← List.map_cons,
      unfinished_lowerCase]
  | case2 c top w hw hstep =>
    rw [readLocals_of_body (hword hw) (hlocal hstep), Word.behind_lowerCase, readBody_lowerCase]
    rfl
  | case3 c top w hw hstep parent parents ih =>
    rw [readLocals_of_body (hword hw) (hlocal hstep), Word.behind_lowerCase, readBody_lowerCase,
      List.map_cons, resume, RoutineNode.push_lowerCase, ih]
  | case4 c top parents w hw hstep =>
    rw [readLocals_of_sectionEnd (hword hw) (hlocal hstep), ← List.map_cons, unfinished_lowerCase]
  | case5 c top parents w hw hstep hd ih =>
    rw [readLocals_of_keyword (hword hw) (hlocal hstep), Word.first_lowerCase,
      Declaration.read?_lowerCase, hd]
    exact ih
  | case6 c top parents w hw hstep d hd hforward ih =>
    rw [readLocals_of_keyword (hword hw) (hlocal hstep), Word.first_lowerCase,
      Declaration.read?_lowerCase, hd, Option.map_some, Option.elim_some,
      if_pos (by rwa [Declaration.isForward_lowerCase]), ← ih, ← RoutineNode.push_lowerCase]
    rfl
  | case7 c top parents w hw hstep d hd hforward hlimit ih =>
    rw [readLocals_of_keyword (hword hw) (hlocal hstep), Word.first_lowerCase,
      Declaration.read?_lowerCase, hd, Option.map_some, Option.elim_some,
      if_neg (by rwa [Declaration.isForward_lowerCase]), if_pos (by rwa [List.length_map]), ← ih,
      ← RoutineNode.cap_lowerCase, ← RoutineNode.push_lowerCase]
    rfl
  | case8 c top parents w hw hstep d hd hforward hlimit ih =>
    rw [readLocals_of_keyword (hword hw) (hlocal hstep), Word.first_lowerCase,
      Declaration.read?_lowerCase, hd, Option.map_some, Option.elim_some,
      if_neg (by rwa [Declaration.isForward_lowerCase]), if_neg (by rwa [List.length_map]), ← ih]
    rfl
  | case9 c top parents w hw hstep ih =>
    rw [readLocals_of_other (hword hw) (hlocal hstep)]
    exact ih

theorem readRoutines_lowerCase (maxNesting : Nat) (c : Cursor) :
    readRoutines maxNesting c.lowerCase = (readRoutines maxNesting c).map RoutineNode.lowerCase := by
  simp only [readRoutines, Declaration.read?_lowerCase]
  cases Declaration.read? c with
  | none => rfl
  | some d =>
    simp only [Option.map_some, Declaration.isForward_lowerCase]
    split
    · rfl
    · exact readLocals_lowerCase _ _ _ []

/-! ## Bodies -/

@[simp] theorem complexity_lowerLatin (body : List Char) :
    complexity (lowerLatin body) = complexity body := by
  rw [complexity, countKeywords_lowerLatin, complexity]

theorem startsStatement_lowerCase (previous : Option Word) (w : Word) :
    startsStatement (previous.map Word.lowerCase) w.lowerCase = startsStatement previous w := by
  simp only [startsStatement, Word.first_lowerCase, Cursor.lastSignificant?_lowerCase]
  cases w.first.lastSignificant? with
  | none => rfl
  | some a =>
    simp only [Option.map_some, beq_toLower (p := ';') rfl, ignoresCase_isIdent a]
    cases previous <;> simp

theorem endsStatement_lowerLatin (after : List Char) :
    endsStatement (lowerLatin after) = endsStatement after := by
  cases after with
  | nil => rfl
  | cons a rest =>
    have hword := leadingWord?_lowerLatin (a :: rest)
    rw [lowerLatin_cons] at hword
    simp only [lowerLatin_cons, endsStatement, beq_toLower (p := ';') rfl, hword]
    cases leadingWord? (a :: rest) <;> simp

theorem isCall_lowerCase (previous : Option Word) (w : Word) :
    isCall (previous.map Word.lowerCase) w.lowerCase = isCall previous w := by
  have hdot : (w.first.lastSignificant?.map Char.toLower != some '.') =
      (w.first.lastSignificant? != some '.') :=
    congrArg (!·) (beq_toLower_some (p := '.') rfl)
  simp only [isCall, Word.isOneOf_lowerCase, Word.startsWithDigit_lowerCase, Word.first_lowerCase,
    Cursor.lastSignificant?_lowerCase, hdot, Word.behind_lowerCase, Cursor.after_lowerCase,
    trimStart_lowerLatin, head?_lowerLatin, beq_toLower_some (p := '(') rfl,
    startsStatement_lowerCase, endsStatement_lowerLatin]

@[simp] theorem callHints_lowerLatin (body : List Char) :
    callHints (lowerLatin body) = (callHints body).map String.toLower := by
  have hzip : (none :: ((words body).map Word.lowerCase).map some).zip
      ((words body).map Word.lowerCase) =
        ((none :: (words body).map some).zip (words body)).map
          (Prod.map (Option.map Word.lowerCase) Word.lowerCase) := by
    rw [← List.zip_map]
    simp [Function.comp_def]
  simp only [callHints, words_lowerLatin, hzip, List.foldl_map]
  change List.foldl _ (List.map String.toLower []) _ = _
  refine List.foldl_hom (List.map String.toLower) fun names x => ?_
  obtain ⟨previous, w⟩ := x
  simp only [Prod.map_apply, isCall_lowerCase, Word.text_lowerCase, ← toLower_ofList]
  split
  · exact pushUnique_toLower names _
  · rfl

/-! ## Facts of routines -/

namespace RoutineNode

variable (source : Masked) (s : ExtractionSettings) (path : String)

@[simp] theorem toRoutine_lowerCase (r : RoutineNode) :
    r.lowerCase.toRoutine source.lowerCase s = (r.toRoutine source s).lowerCase := by
  obtain ⟨header, start, stop, directives, body, unterminated, nestingCapped, maxDepth, nested⟩ := r
  have hsender : ∀ facts : Routine,
      { facts.lowerCase with
        isEventHandler := s.isEventHandler facts.lowerCase.name || facts.lowerCase.takesSender } =
      ({ facts with
        isEventHandler := s.isEventHandler facts.name || facts.takesSender } : Routine).lowerCase := by
    intro facts
    rw [Routine.takesSender_lowerCase, Routine.name_lowerCase, s.isEventHandler_toLower]
    rfl
  rw [lowerCase]
  cases body with
  | none => exact hsender { header.toRoutine (source.lineAt start) with directives }
  | some body =>
    simp only [toRoutine, Masked.code_lowerCase, slice_lowerLatin, complexity_lowerLatin,
      callHints_lowerLatin]
    exact hsender
      { header.toRoutine (source.lineAt start) with
        directives
        hasBody := true
        complexity := complexity (body.slice source.code)
        callHints := callHints (body.slice source.code) }

theorem toLower_toString (n : Nat) : (toString n).toLower = toString n := by
  refine toLower_eq_self ?_
  have hdigits : ∀ a ∈ (toString n).toList, a.toLower = a := by
    intro a ha
    have hdigit : a.isDigit = true := by
      by_contra hnot
      exact notMem_repr (by simpa using hnot) n ha
    have hcapital : ∀ k < 26, (Char.ofNat (65 + k)).isDigit = false := by decide
    rcases toLower_eq_or_capital a with h | ⟨k, hk, rfl, -⟩
    · exact h
    · exact absurd hdigit (by simp [hcapital k hk])
  rw [lowerLatin, List.map_congr_left hdigits, List.map_id']

theorem diagnostics_lowerCase (r : RoutineNode) (facts : Routine) :
    r.lowerCase.diagnostics path s facts.lowerCase =
      (r.diagnostics path s facts).map Diagnostic.lowerCase := by
  have hunterminated : ∀ name what : String, what.toLower = what →
      (s!"routine '{name}' {what}").toLower = s!"routine '{name.toLower}' {what}" := by
    intro name what hwhat
    change ("routine '" ++ name ++ "' " ++ what).toLower = _
    rw [toLower_append, toLower_append, toLower_append, hwhat,
      toLower_eq_self (s := "routine '") rfl, toLower_eq_self (s := "' ") rfl]
    rfl
  have hcapped : ∀ name : String,
      (s!"routine '{name}' nests deeper than {s.maxNestingDepth} levels").toLower =
        s!"routine '{name.toLower}' nests deeper than {s.maxNestingDepth} levels" := by
    intro name
    change ("routine '" ++ name ++ "' nests deeper than " ++ toString s.maxNestingDepth ++
      " levels").toLower = _
    rw [toLower_append, toLower_append, toLower_append, toLower_append, toLower_toString,
      toLower_eq_self (s := "routine '") rfl, toLower_eq_self (s := "' nests deeper than ") rfl,
      toLower_eq_self (s := " levels") rfl]
    rfl
  have hend : "has no terminating end".toLower = "has no terminating end" := toLower_eq_self rfl
  have hbody : "has no body".toLower = "has no body" := toLower_eq_self rfl
  obtain ⟨header, start, stop, directives, body, unterminated, nestingCapped, maxDepth, nested⟩ := r
  simp only [diagnostics, lowerCase, Routine.qualifiedName_lowerCase, List.map_append]
  congr 1
  · cases unterminated with
    | false => rfl
    | true =>
      cases body with
      | none => simp [Diagnostic.malformed, Diagnostic.lowerCase, hunterminated _ _ hbody]
      | some body => simp [Diagnostic.malformed, Diagnostic.lowerCase, hunterminated _ _ hend]
  · cases nestingCapped with
    | false => rfl
    | true =>
      simp only [Diagnostic.malformed, Diagnostic.lowerCase, hcapped, if_true, List.map_cons,
        List.map_nil, Routine.line_lowerCase]

@[simp] theorem bodyDepth_lowerCase (r : RoutineNode) : r.lowerCase.bodyDepth = r.bodyDepth := by
  rw [lowerCase_eq]
  rfl

end RoutineNode

end MigrationAudit.Pascal
