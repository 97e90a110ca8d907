import MigrationAudit.Proofs.Pascal.ClassBody

/-!
# Sections of class bodies

The words in front of a declaration set a visibility, and start or end a stretch of constants or
types; so does the keyword of a routine. Behind any statements of a body the context is what all
these words have set.
-/

namespace MigrationAudit.Pascal

open Text Source

/-! ## Sections -/

/-- The visibility behind some words: that of the last one that sets it. -/
def visibilityOf (ws : List String) : Visibility :=
  ((ws.filterMap visibility?).getLast?).getD .publishedAccess

/-- Whether a word starts a stretch of constants or types, or ends one. -/
def sectionMark? : String → Option Bool
  | "const" | "type" => some true
  | "var" => some false
  | word => if (visibility? word).isSome || (routineKind? word).isSome then some false else none

/-- Whether constants or types stand behind some words. -/
def inSection (ws : List String) : Bool := ((ws.filterMap sectionMark?).getLast?).getD false

theorem visibilityOf_concat (ws : List String) (w : String) :
    visibilityOf (ws ++ [w]) = (visibility? w).getD (visibilityOf ws) := by
  rw [visibilityOf, List.filterMap_append, List.getLast?_append, visibilityOf]
  cases h : visibility? w <;> simp [h]

theorem inSection_concat (ws : List String) (w : String) :
    inSection (ws ++ [w]) = (sectionMark? w).getD (inSection ws) := by
  rw [inSection, List.filterMap_append, List.getLast?_append, inSection]
  cases h : sectionMark? w <;> simp [h]

theorem routineKind?_eq_some {word : String} {k : RoutineKind} (h : routineKind? word = some k) :
    visibility? word = none ∧ sectionMark? word = some false := by
  unfold routineKind? at h
  split at h
  all_goals first
    | exact ⟨rfl, rfl⟩
    | cases h

namespace MemberContext

variable {m m' : MemberContext} {ws : List String} {word : String} {c : Cursor}

/-- The context is what the words have set. -/
structure StandsBehind (m : MemberContext) (ws : List String) : Prop where
  visibility_eq : m.visibility = visibilityOf ws
  skipping_eq : m.skipping = inSection ws

theorem of_note? (hnote : m.note? word = some m') :
    m'.visibility = (visibility? word).getD m.visibility ∧
      m'.skipping = (sectionMark? word).getD m.skipping := by
  unfold note? at hnote
  split at hnote
  case h_1 => exact Option.some.inj hnote ▸ ⟨rfl, rfl⟩
  case h_2 => exact Option.some.inj hnote ▸ ⟨rfl, rfl⟩
  case h_3 => exact Option.some.inj hnote ▸ ⟨rfl, rfl⟩
  case h_4 => exact Option.some.inj hnote ▸ ⟨rfl, rfl⟩
  case h_5 =>
    split at hnote
    · cases hnote
    · exact Option.some.inj hnote ▸ ⟨rfl, rfl⟩
  case h_6 =>
    obtain ⟨v, hv, rfl⟩ := Option.map_eq_some_iff.mp hnote
    simp [sectionMark?, hv]

theorem StandsBehind.note? (h : m.StandsBehind ws) (hnote : m.note? word = some m') :
    m'.StandsBehind (ws ++ [word]) := by
  obtain ⟨hvisibility, hskipping⟩ := of_note? hnote
  refine ⟨?_, ?_⟩
  · rw [visibilityOf_concat, ← h.visibility_eq, hvisibility]
  · rw [inSection_concat, ← h.skipping_eq, hskipping]

/-- The words in front of the declaration at the cursor, in lower case. -/
def frontWords (m : MemberContext) (c : Cursor) : List String :=
  match _h : c.adjacentWord? with
  | none => []
  | some w =>
    match m.note? w.lower with
    | some m => w.lower :: m.frontWords w.behind.skipBlank
    | none => []
termination_by c.after.length
decreasing_by
  exact Nat.lt_of_le_of_lt (Cursor.leads_skipWhile ..).length_le (Cursor.length_of_adjacentWord? _h)

theorem frontWords_eq (m : MemberContext) (c : Cursor) :
    m.frontWords c =
      match c.adjacentWord? with
      | none => []
      | some w =>
        match m.note? w.lower with
        | some m => w.lower :: m.frontWords w.behind.skipBlank
        | none => [] := by
  rw [frontWords]
  split
  · next hw => rw [hw]
  · next w hw =>
    cases hm : m.note? w.lower <;> simp only [hw, hm]

/-- What the words in front of a declaration have set is the context of the declaration. -/
theorem StandsBehind.read (h : m.StandsBehind ws) (c : Cursor) :
    (m.read c).1.StandsBehind (ws ++ m.frontWords c) := by
  fun_induction MemberContext.read m c generalizing ws with
  | case1 m c hw => rwa [frontWords_eq, hw, List.append_nil]
  | case2 m c w hw m' hm ih =>
    have hrest := ih (h.note? hm)
    rw [frontWords_eq, hw]
    simp only [hm]
    rwa [List.append_assoc, List.singleton_append] at hrest
  | case3 m c w hw hm =>
    rw [frontWords_eq, hw]
    simp only [hm]
    rwa [List.append_nil]

end MemberContext

/-! ## Declarations -/

/-- What a declaration is by its first word, in lower case. -/
inductive DeclarationStart
  | header (word : String)
  | directive (word : String)
  | property
  | other
deriving DecidableEq

def declarationStart (text : List Char) : DeclarationStart :=
  match leadingWord? text with
  | some (word, _) =>
    if (routineKind? (lowered word)).isSome then .header (lowered word)
    else if directives.contains (lowered word) then .directive (lowered word)
    else if lowered word == "property" then .property
    else .other
  | none => .other

namespace Members

variable {source : Masked} {s : ExtractionSettings} {owner : String} {m : Members}
  {ws : List String} {p : Nat × List Char}

theorem readDeclaration_eq (opens closes : Nat) (text : List Char) (line : Nat) :
    m.readDeclaration s owner opens closes text line =
      match declarationStart text with
      | .header _ =>
        let m := { m with context := { m.context with skipping := false } }
        (Header.parse? text).elim m fun h => m.addMethod s owner h line
      | .directive word => m.addDirective word
      | .property =>
        (property? text m.context.visibility line).elim m fun field =>
          { m with fields := m.fields ++ [field] }
      | .other =>
        if m.context.skipping then m else m.readFields s owner opens closes text line := by
  rw [readDeclaration, declarationStart]
  cases hword : leadingWord? text with
  | none => rfl
  | some w =>
    simp only [Option.map_some, Option.bind_some, Option.any_some, Option.getD_some]
    by_cases hheader : (routineKind? (lowered w.1)).isSome = true
    · rw [if_pos hheader, if_pos hheader]
      cases Header.parse? text <;> rfl
    rw [if_neg hheader, if_neg hheader]
    by_cases hdirective : directives.contains (lowered w.1) = true
    · rw [if_pos hdirective, if_pos hdirective]
    rw [if_neg hdirective, if_neg hdirective]
    by_cases hproperty : lowered w.1 = "property"
    · rw [if_pos (by simp [hproperty]), if_pos (by simp [hproperty])]
      cases property? text m.context.visibility line <;> rfl
    · have hsome : ¬(some (lowered w.1) == some "property") = true := by simpa using hproperty
      have hplain : ¬(lowered w.1 == "property") = true := by simpa using hproperty
      rw [if_neg hsome, if_neg hplain]

theorem context_readFields (opens closes : Nat) (text : List Char) (line : Nat) :
    (m.readFields s owner opens closes text line).context = m.context := by
  rw [readFields]
  split
  · rfl
  · simp only [addFields]
    split <;> rfl

/-- The keyword of a routine ends a stretch of constants or types. -/
theorem context_readDeclaration (opens closes : Nat) (text : List Char) (line : Nat) :
    (m.readDeclaration s owner opens closes text line).context =
      match declarationStart text with
      | .header _ => { m.context with skipping := false }
      | _ => m.context := by
  rw [readDeclaration_eq]
  cases declarationStart text with
  | header => cases Header.parse? text <;> rfl
  | directive =>
    simp only [addDirective]
    split <;> rfl
  | property => cases property? text m.context.visibility line <;> rfl
  | other =>
    simp only
    split
    · rfl
    · exact context_readFields ..

/-! ## Statements behind each other -/

variable (source s owner) in
/-- The members that the first statements of a body declare. -/
def behind (ps : List (Nat × List Char)) : Members := ps.foldl (note source s owner) {}

def declarationIn (m : Members) (p : Nat × List Char) : MemberContext × Cursor :=
  { m.context with classLevel := false }.read ⟨p.1, [], p.2⟩

/-- The words of a statement that sections are known by: those in front of the declaration, and the
keyword of a routine. -/
def sectionWords (m : Members) (p : Nat × List Char) : List String :=
  MemberContext.frontWords { m.context with classLevel := false } ⟨p.1, [], p.2⟩ ++
    match declarationStart (m.declarationIn p).2.after with
    | .header word => [word]
    | _ => []

variable (source s owner) in
/-- The words that sections are known by in some statements. Inside a record no words count. -/
def sectionWordsOf (m : Members) : List (Nat × List Char) → List String
  | [] => []
  | p :: ps =>
    (if 0 < m.recordDepth then [] else m.sectionWords p) ++
      sectionWordsOf (note source s owner m p) ps

theorem note_of_recordDepth (h : 0 < m.recordDepth) :
    note source s owner m p =
      { m with recordDepth := m.recordDepth + countKeywords p.2 ["record"] false -
          countKeywords p.2 ["end"] false } := by
  rw [note, if_pos h]

theorem note_of_outside (h : m.recordDepth = 0) :
    note source s owner m p =
      if (m.declarationIn p).2.after.isEmpty then { m with context := (m.declarationIn p).1 }
      else
        readDeclaration { m with context := (m.declarationIn p).1 } s owner
          (countKeywords p.2 ["record"] false) (countKeywords p.2 ["end"] false)
          (m.declarationIn p).2.after (source.lineAt (m.declarationIn p).2.offset) := by
  rw [note, if_neg (by omega)]
  rfl

theorem routineKind?_of_header {text : List Char} {word : String}
    (h : declarationStart text = .header word) : ∃ k, routineKind? word = some k := by
  rw [declarationStart] at h
  split at h
  · split at h
    · next hheader =>
      cases h
      exact Option.isSome_iff_exists.mp hheader
    · split at h
      · cases h
      · split at h <;> cases h
  · cases h

/-- The step: behind a statement the context is what its words have set, too. -/
theorem standsBehind_note (h : m.context.StandsBehind ws) :
    (note source s owner m p).context.StandsBehind
      (ws ++ if 0 < m.recordDepth then [] else m.sectionWords p) := by
  by_cases hdepth : 0 < m.recordDepth
  · rw [note_of_recordDepth hdepth, if_pos hdepth, List.append_nil]
    exact h
  have hclass : MemberContext.StandsBehind { m.context with classLevel := false } ws :=
    ⟨h.visibility_eq, h.skipping_eq⟩
  have hread := hclass.read ⟨p.1, [], p.2⟩
  rw [note_of_outside (by omega), if_neg hdepth, sectionWords, ← List.append_assoc]
  rw [← declarationIn] at hread
  split
  · next hempty =>
    rw [List.isEmpty_iff.mp hempty]
    simpa [declarationStart, leadingWord?, trimStart] using hread
  · rw [context_readDeclaration]
    cases hstart : declarationStart (m.declarationIn p).2.after with
    | header word =>
      obtain ⟨k, hk⟩ := routineKind?_of_header hstart
      obtain ⟨hvisibility, hmark⟩ := routineKind?_eq_some hk
      refine ⟨?_, ?_⟩
      · rw [visibilityOf_concat, hvisibility]
        exact hread.visibility_eq
      · rw [inSection_concat, hmark]
        rfl
    | _ => simpa using hread

/-- The run: the context behind some statements is what their words have set. -/
theorem standsBehind_foldl (h : m.context.StandsBehind ws) (ps : List (Nat × List Char)) :
    (ps.foldl (note source s owner) m).context.StandsBehind
      (ws ++ sectionWordsOf source s owner m ps) := by
  induction ps generalizing m ws with
  | nil => simpa [sectionWordsOf] using h
  | cons p ps ih =>
    have hstep : (note source s owner m p).context.StandsBehind _ := standsBehind_note h
    rw [sectionWordsOf, ← List.append_assoc]
    exact ih hstep

theorem standsBehind_behind (ps : List (Nat × List Char)) :
    (behind source s owner ps).context.StandsBehind (sectionWordsOf source s owner {} ps) := by
  have hstart : ({} : Members).context.StandsBehind [] := ⟨rfl, rfl⟩
  exact standsBehind_foldl hstart ps

end Members

end MigrationAudit.Pascal
