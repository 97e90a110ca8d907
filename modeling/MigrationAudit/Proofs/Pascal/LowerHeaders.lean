import MigrationAudit.Pascal.Header
import MigrationAudit.Pascal.Statement
import MigrationAudit.Pascal.TypeDecl
import MigrationAudit.Proofs.Facts.LowerCase
import MigrationAudit.Proofs.Text.LowerWords

/-!
# Headers in lower case

Statements, headers and introducers of a text in lower case are those of the text, put into lower
case.
-/

namespace MigrationAudit.Pascal

open Text

@[simp] theorem lowered_lowerLatin (cs : List Char) : lowered (lowerLatin cs) = lowered cs := by
  simp [lowered]

/-! ## Statements -/

theorem splitStatement_lowerLatin (depth : Nat) (cs : List Char) :
    splitStatement depth (lowerLatin cs) =
      (lowerLatin (splitStatement depth cs).1, lowerLatin (splitStatement depth cs).2) := by
  induction cs generalizing depth with
  | nil => rfl
  | cons a cs ih =>
    simp only [lowerLatin_cons, splitStatement, beq_toLower (p := ';') rfl,
      beq_toLower (p := '(') rfl, beq_toLower (p := '[') rfl, beq_toLower (p := ')') rfl,
      beq_toLower (p := ']') rfl, ih]
    split <;> rfl

@[simp] theorem statementText_lowerCase (c : Cursor) :
    statementText c.lowerCase = lowerLatin (statementText c) := by
  rw [statementText, Cursor.after_lowerCase, splitStatement_lowerLatin, statementText]

@[simp] theorem pastStatement_lowerCase (c : Cursor) :
    pastStatement c.lowerCase = (pastStatement c).lowerCase := by
  rw [pastStatement, statementEnd, Cursor.after_lowerCase, splitStatement_lowerLatin,
    Cursor.advance_lowerCase, Cursor.next_lowerCase, pastStatement, statementEnd]

def lowerPiece (p : Nat × List Char) : Nat × List Char := (p.1, lowerLatin p.2)

theorem statementsFrom_lowerLatin (start n depth : Nat) (piece cs : List Char) :
    statementsFrom start n depth (lowerLatin piece) (lowerLatin cs) =
      (statementsFrom start n depth piece cs).map lowerPiece := by
  induction cs generalizing start n depth piece with
  | nil => simp [statementsFrom, lowerPiece]
  | cons a cs ih =>
    have hnext : ∀ start n depth,
        statementsFrom start n depth (a.toLower :: lowerLatin piece) (lowerLatin cs) =
          (statementsFrom start n depth (a :: piece) cs).map lowerPiece :=
      fun start n depth => ih start n depth (a :: piece)
    have hcut : ∀ n, statementsFrom n n 0 [] (lowerLatin cs) =
        (statementsFrom n n 0 [] cs).map lowerPiece := fun n => ih n n 0 []
    simp only [lowerLatin_cons, statementsFrom, utf8Size_toLower, beq_toLower (p := ';') rfl,
      beq_toLower (p := '(') rfl, beq_toLower (p := '[') rfl, beq_toLower (p := ')') rfl,
      beq_toLower (p := ']') rfl, hnext, hcut, ← lowerLatin_reverse]
    split <;> rfl

@[simp] theorem statements_lowerLatin (n : Nat) (cs : List Char) :
    statements n (lowerLatin cs) = (statements n cs).map lowerPiece := by
  have hfrom := statementsFrom_lowerLatin n n 0 [] cs
  rw [lowerLatin_nil] at hfrom
  rw [statements, hfrom, statements, List.map_map, List.filter_map, List.filter_map, List.map_map]
  simp [Function.comp_def, lowerPiece, takeWhile_lowerLatin ignoresCase_isBlank, width_lowerLatin]

/-! ## Headers -/

def Header.lowerCase (h : Header) : Header :=
  { h with
    owner := h.owner.map String.toLower
    name := h.name.toLower
    params := h.params.map Param.lowerCase
    returnType := h.returnType.map String.toLower }

@[simp] theorem Header.toRoutine_lowerCase (h : Header) (line : Nat) :
    h.lowerCase.toRoutine line = (h.toRoutine line).lowerCase := rfl

theorem groupModifier_lowerLatin (group : List Char) :
    groupModifier (lowerLatin group) =
      ((groupModifier group).1, lowerLatin (groupModifier group).2) := by
  simp only [groupModifier, leadingWord?_lowerLatin]
  cases leadingWord? group with
  | none => rfl
  | some found =>
    obtain ⟨word, rest⟩ := found
    simp only [Option.map_some, Prod.map_apply, lowered_lowerLatin,
      any_head?_lowerLatin ignoresCase_isBlank, trimStart_lowerLatin]
    split <;> rfl

@[simp] theorem identifiers_lowerLatin (names : List Char) :
    identifiers (lowerLatin names) = (identifiers names).map String.toLower := by
  have hcomma := splitAll_lowerLatin ',' rfl names
  rw [identifiers, hcomma, identifiers, List.map_map, List.filter_map, List.filter_map, List.map_map,
    List.map_map, List.map_map]
  simp [Function.comp_def]

@[simp] theorem groupParams_lowerLatin (group : List Char) :
    groupParams (lowerLatin group) = (groupParams group).map Param.lowerCase := by
  simp only [groupParams, groupModifier_lowerLatin, splitFirst?_lowerLatin ':' rfl]
  cases splitFirst? ':' (groupModifier group).2 with
  | none => simp [Function.comp_def, Param.lowerCase]
  | some cut =>
    simp [Function.comp_def, Param.lowerCase, before_lowerLatin '=' rfl]

@[simp] theorem parseParams_lowerLatin (cs : List Char) :
    parseParams (lowerLatin cs) = (parseParams cs).map Param.lowerCase := by
  rw [parseParams, splitTopLevel_lowerLatin ';' rfl, List.flatMap_map, parseParams,
    List.map_flatMap]
  simp

theorem parenthesized_lowerLatin (cs : List Char) :
    parenthesized (lowerLatin cs) =
      (lowerLatin (parenthesized cs).1, lowerLatin (parenthesized cs).2) := by
  have hdrop : ∀ ds : List Char, (lowerLatin ds).drop 1 = lowerLatin (ds.drop 1) :=
    fun ds => List.map_drop.symm
  rw [parenthesized, splitAtClose?_lowerLatin rfl rfl, parenthesized]
  cases splitAtClose? '(' ')' cs with
  | none => simp [hdrop]
  | some cut => simp [hdrop]

theorem splitQualified_lowerLatin (cs : List Char) :
    splitQualified (lowerLatin cs) =
      ((splitQualified cs).1.map String.toLower, (splitQualified cs).2.toLower) := by
  rw [splitQualified, splitLast?_lowerLatin '.' rfl, splitQualified]
  cases splitLast? '.' cs <;> simp

/-- The parameters behind a qualified name, and the text behind them. -/
def paramsBehind (rest : List Char) : List Param × List Char :=
  match rest with
  | '(' :: _ => (parseParams (parenthesized rest).1, trimStart (parenthesized rest).2)
  | _ => ([], rest)

/-- The result type behind the parameters. -/
def resultBehind (rest : List Char) : Option String :=
  match rest with
  | ':' :: type => squashed? type
  | _ => none

theorem paramsBehind_of_ne {rest : List Char} (h : ∀ tail, rest ≠ '(' :: tail) :
    paramsBehind rest = ([], rest) := by
  unfold paramsBehind
  split
  · next tail => exact absurd rfl (h tail)
  · rfl

theorem paramsBehind_lowerLatin (rest : List Char) :
    paramsBehind (lowerLatin rest) =
      ((paramsBehind rest).1.map Param.lowerCase, lowerLatin (paramsBehind rest).2) := by
  by_cases hopen : ∃ tail, rest = '(' :: tail
  · obtain ⟨tail, rfl⟩ := hopen
    change (parseParams (parenthesized (lowerLatin ('(' :: tail))).1,
      trimStart (parenthesized (lowerLatin ('(' :: tail))).2) = _
    rw [parenthesized_lowerLatin, parseParams_lowerLatin, trimStart_lowerLatin]
    rfl
  · have hrest : ∀ tail, rest ≠ '(' :: tail := not_exists.mp hopen
    rw [paramsBehind_of_ne hrest, paramsBehind_of_ne (lowerLatin_ne_cons rfl hrest)]
    rfl

theorem resultBehind_lowerLatin (rest : List Char) :
    resultBehind (lowerLatin rest) = (resultBehind rest).map String.toLower := by
  unfold resultBehind
  split
  · next h =>
    obtain ⟨tail, rfl, rfl⟩ := (lowerLatin_eq_cons_iff rfl).mp h
    simp
  · next h =>
    split
    · next tail => exact absurd rfl (h (lowerLatin tail))
    · rfl

theorem Header.afterKeyword?_eq (kind : RoutineKind) (isClassLevel : Bool) (cs : List Char) :
    afterKeyword? kind isClassLevel cs =
      let isNamePart (c : Char) := isIdent c || c == '.'
      let qualified := trimWhere (· == '.') ((trimStart cs).takeWhile isNamePart)
      let rest := trimStart ((trimStart cs).dropWhile isNamePart)
      if qualified.isEmpty then none
      else
        some
          { kind
            owner := (splitQualified qualified).1
            name := (splitQualified qualified).2
            params := (paramsBehind rest).1
            returnType := resultBehind (paramsBehind rest).2
            isClassLevel } := by
  simp only [afterKeyword?]
  split
  · next h => simp [h]
  · next h =>
    rw [if_neg (by simpa using h)]
    generalize trimStart ((trimStart cs).dropWhile fun c => isIdent c || c == '.') = rest
    split
    · rfl
    · next hrest =>
      rw [paramsBehind_of_ne fun tail h => hrest tail h]
      rfl

theorem Header.afterKeyword?_lowerLatin (kind : RoutineKind) (isClassLevel : Bool) (cs : List Char) :
    afterKeyword? kind isClassLevel (lowerLatin cs) =
      (afterKeyword? kind isClassLevel cs).map lowerCase := by
  have hpart : IgnoresCase fun c => isIdent c || c == '.' :=
    ignoresCase_isIdent.or (ignoresCase_beq rfl)
  simp only [afterKeyword?_eq, trimStart_lowerLatin, takeWhile_lowerLatin hpart,
    dropWhile_lowerLatin hpart, trimWhere_lowerLatin (ignoresCase_beq (p := '.') rfl),
    isEmpty_lowerLatin, splitQualified_lowerLatin, paramsBehind_lowerLatin, resultBehind_lowerLatin]
  split <;> rfl

@[simp] theorem Header.parse?_lowerLatin (cs : List Char) :
    parse? (lowerLatin cs) = (parse? cs).map lowerCase := by
  have hkind : ∀ (kind? : Option RoutineKind) (isClassLevel : Bool) (rest : List Char),
      kind?.bind (afterKeyword? · isClassLevel (lowerLatin rest)) =
        (kind?.bind (afterKeyword? · isClassLevel rest)).map lowerCase := by
    intro kind? isClassLevel rest
    cases kind? with
    | none => rfl
    | some kind => exact afterKeyword?_lowerLatin kind isClassLevel rest
  simp only [parse?, leadingWord?_lowerLatin]
  cases leadingWord? cs with
  | none => rfl
  | some found =>
    obtain ⟨word, rest⟩ := found
    simp only [Option.map_some, Prod.map_apply, lowered_lowerLatin, leadingWord?_lowerLatin, hkind]
    split
    · cases leadingWord? rest with
      | none => rfl
      | some found =>
        simp only [Option.map_some, Prod.map_fst, Prod.map_snd, lowered_lowerLatin, hkind]
    · rfl

/-! ## Introducers -/

@[simp] theorem keyword?_lowerCase (keywords : List String) (c : Cursor) :
    keyword? keywords c.lowerCase = (keyword? keywords c).map Cursor.lowerCase := by
  simp only [keyword?, Cursor.after_lowerCase, takeWhile_lowerLatin ignoresCase_isNameChar,
    c.skipWhile_lowerCase ignoresCase_isNameChar, funext (foldsTo_lowerLatin _)]
  split <;> rfl

@[simp] theorem packedKeyword?_lowerCase (keywords : List String) (c : Cursor) :
    packedKeyword? keywords c.lowerCase = (packedKeyword? keywords c).map Cursor.lowerCase := by
  simp only [packedKeyword?, keyword?_lowerCase]
  cases keyword? keywords c with
  | some d => rfl
  | none =>
    cases keyword? ["packed"] c with
    | none => rfl
    | some d =>
      simp only [Option.map_some, Option.map_none, Cursor.after_lowerCase,
        any_head?_lowerLatin ignoresCase_isBlank, Cursor.skipBlank_lowerCase, keyword?_lowerCase]
      split <;> rfl

@[simp] theorem introduced?_lowerCase (keywords : List String) (c : Cursor) :
    introduced? keywords c.lowerCase = (introduced? keywords c).map Cursor.lowerCase := by
  unfold introduced?
  split
  · next h =>
    obtain ⟨tail, htail, -⟩ := (lowerLatin_eq_cons_iff rfl).mp h
    simp [htail]
  · next h =>
    split
    · next tail htail => exact absurd (by simp [htail]) (h (lowerLatin tail))
    · rfl

theorem classIntroduced?_lowerCase (c : Cursor) :
    classIntroduced? c.lowerCase =
      (classIntroduced? c).map (Prod.map lowerLatin Cursor.lowerCase) := by
  simp only [classIntroduced?, c.atRunStart_lowerCase ignoresCase_isNameChar, Cursor.after_lowerCase,
    any_head?_lowerLatin ignoresCase_isFoldedNameStart, takeWhile_lowerLatin ignoresCase_isNameChar,
    c.skipWhile_lowerCase ignoresCase_isNameChar, Cursor.skipBlank_lowerCase, introduced?_lowerCase]
  split
  · cases introduced? ["class"] (c.skipWhile isNameChar).skipBlank <;> rfl
  · rfl

@[simp] theorem classIntroducers_lowerLatin (cs : List Char) :
    classIntroducers (lowerLatin cs) = (classIntroducers cs).map (Match.lowerCase lowerLatin) :=
  allMatches_lowerLatin classIntroduced?_lowerCase cs

theorem otherIntroduced?_lowerCase (c : Cursor) :
    otherIntroduced? c.lowerCase = (otherIntroduced? c).map (Prod.map id Cursor.lowerCase) := by
  rw [otherIntroduced?, introduced?_lowerCase, otherIntroduced?, Option.map_map, Option.map_map]
  rfl

@[simp] theorem otherIntroducers_lowerLatin (cs : List Char) :
    otherIntroducers (lowerLatin cs) = (otherIntroducers cs).map (Match.lowerCase id) :=
  allMatches_lowerLatin otherIntroduced?_lowerCase cs

end MigrationAudit.Pascal
