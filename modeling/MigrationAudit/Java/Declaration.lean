import MigrationAudit.Facts.Lists
import MigrationAudit.Java.TypeHead
import MigrationAudit.Text.Word

/-!
# Type declarations

The declarations of a scope are read one after the other; a type opens a scope of its own. What
lacks its closing delimiter reaches to the end of the scope around it. Types nested too deep keep no
members. The branches of a body are counted by its words and its operators, and a name counts as a
call when an opening parenthesis follows it.
-/

namespace MigrationAudit.Java

open Text Source

/-! ## Bodies -/

def branchKeywords : List String := ["if", "for", "while", "case", "catch"]

/-- Words that a parenthesis may follow without a call. -/
def reservedWords : List String :=
  ["if", "for", "while", "switch", "catch", "synchronized", "return", "new", "super", "this", "try",
    "throw", "assert", "yield"]

/-- How often a character comes twice in a row, each character being counted once. -/
def countPairs (c : Char) : List Char → Nat
  | a :: b :: rest => if a == c && b == c then countPairs c rest + 1 else countPairs c (b :: rest)
  | _ => 0

/-- One more than the number of branching words and operators. -/
def complexity (body : List Char) : Nat :=
  1 + countKeywords body branchKeywords true +
    (countPairs '&' body + countPairs '|' body + body.count '?')

/-- Whether a word is a call, when `previous` is the word before it. -/
def isCall (previous : Option Word) (w : Word) : Bool :=
  !reservedWords.contains (String.ofList w.text) && !previous.any (·.text == "new".toList) &&
    !w.startsWithDigit && (trimStart w.behind.after).head? == some '('

/-- The names that are called, each once, in the order of their first calls. -/
def callHints (body : List Char) : List String :=
  let ws := words body
  ((none :: ws.map some).zip ws).foldl
    (fun names (previous, w) =>
      if isCall previous w then pushUnique names (String.ofList w.text) else names)
    []

/-! ## Declarations -/

/-- A method, its annotations, and what its whole declaration covers. -/
structure ParsedMethod where
  routine : Routine
  annotations : List Annotation
  span : Span
deriving DecidableEq, Repr

/-- A type as it was declared; the types nested in it are listed behind it. -/
structure ParsedType where
  name : String
  kind : TypeKind
  annotations : List Annotation
  modifiers : List String
  ancestry : Ancestry
  header : Span
  fields : List Field
  methods : List ParsedMethod
  span : Span
  topLevel : Bool
  line : Nat
deriving DecidableEq, Repr

def ParsedType.facts (t : ParsedType) : ClassDecl :=
  { name := t.name
    parent := t.ancestry.parent
    interfaces := t.ancestry.interfaces
    methods := t.methods.map (·.routine)
    fields := t.fields
    annotations := t.annotations.map Annotation.label
    line := t.line }

structure Scope where
  fields : List Field := []
  methods : List ParsedMethod := []
  types : List ParsedType := []
  diagnostics : List Diagnostic := []
deriving DecidableEq, Repr

def Scope.append (a b : Scope) : Scope :=
  { fields := a.fields ++ b.fields
    methods := a.methods ++ b.methods
    types := a.types ++ b.types
    diagnostics := a.diagnostics ++ b.diagnostics }

instance : Append Scope := ⟨Scope.append⟩

/-- What a walk over declarations knows: the text, its path, and how deep types may nest. -/
structure Walk where
  source : Masked
  path : String
  maxDepth : Nat

def Walk.unclosed (w : Walk) (what : String) (name : List Char) (place : Nat) (delimiter : String) :
    Diagnostic :=
  .malformed w.path s!"{what} '{String.ofList name}' has no closing {delimiter}"
    (w.source.lineAt place)

structure Owner where
  name : String
  kind : TypeKind

structure OpenType where
  parsed : ParsedType
  body : Cursor
  closed : Bool
  namePlace : Nat

/-- The next thing in a scope: nothing, something without facts, members, or a type; with the cursor
behind it. -/
inductive Item
  | nothing
  | skipped (behind : Cursor)
  | members (s : Scope) (behind : Cursor)
  | type (t : OpenType) (behind : Cursor)

namespace Item

/-- Whether reading goes on strictly behind a cursor, and the body of a type lies strictly behind
it. -/
def Advances (c : Cursor) : Item → Prop
  | nothing => True
  | skipped behind | members _ behind => behind.after.length < c.after.length
  | type t behind =>
    behind.after.length < c.after.length ∧ t.body.after.length < c.after.length

end Item

/-- The type whose keyword is at the cursor `c` and ends at the cursor `behind`. -/
def readType (w : Walk) (p : Prefix) (kind : TypeKind) (topLevel : Bool) (c behind : Cursor) :
    Item :=
  match behind.adjacentWord? with
  | none => .skipped c.toEnd
  | some name =>
    let brace := seekTop (fun a => a == '\x7b' || a == ';') name.behind
    match brace.after with
    | [] => .skipped c.toEnd
    -- A head without a body declares nothing.
    | ';' :: _ => .skipped brace.next
    | _ =>
      let header : Span := ⟨name.stop, brace.offset⟩
      let head := TypeHead.read w.source kind (name.behind.upTo brace.offset)
      let body := block brace
      .type
        { parsed :=
            { name := String.ofList name.text
              kind
              annotations := p.annotations
              modifiers := p.modifiers
              ancestry := head.ancestry
              header
              fields := head.fields
              methods := []
              span := ⟨c.offset, body.behind.offset⟩
              topLevel
              line := w.source.lineAt name.start }
          body := body.inside
          closed := body.closed
          namePlace := name.start }
        body.behind

/-- The text of a member up to its first parenthesis, equals sign, semicolon or brace outside angle
brackets, and the rest from that mark on. -/
def splitMember (angle : Nat) : List Char → List Char × List Char
  | [] => ([], [])
  | c :: cs =>
    if angle == 0 && (c == '(' || c == '=' || c == ';' || c == '\x7b') then ([], c :: cs)
    else
      let angle := if c == '<' then angle + 1 else if c == '>' then angle - 1 else angle
      (c :: (splitMember angle cs).1, (splitMember angle cs).2)

theorem splitMember_append (angle : Nat) (cs : List Char) :
    (splitMember angle cs).1 ++ (splitMember angle cs).2 = cs := by
  fun_induction splitMember angle cs <;> simp_all

def memberMark (c : Cursor) : Cursor :=
  c.advance (splitMember 0 c.after).1 (splitMember 0 c.after).2

/-- The text of a result type, without the type parameters in front of it. -/
def resultText (cs : List Char) : List Char :=
  match cs with
  | '<' :: _ =>
    match splitAtClose? '<' '>' cs with
    | some (_, rest) => rest
    | none => cs
  | _ => cs

/-- The method whose parameter list opens at `paren`; its text starts at `start`, and at `c` behind
its prefix. -/
def readMethod (w : Walk) (owner : Owner) (p : Prefix) (start c paren : Cursor) : Item :=
  match trailingName? (textBetween c paren) with
  | none => .skipped (pastTop (fun a => a == ';' || a == '\x7b') paren)
  | some (type, name) =>
    let place := c.offset + width type
    let params := delimited '(' ')' paren
    if !params.closed then
      .members { diagnostics := [w.unclosed "method" name place "parenthesis"] } c.toEnd
    else
      -- Only constructors have no result type, so its absence tells their kind.
      let result := squashed? (resultText type)
      let mark := seekTop (fun a => a == '\x7b' || a == ';') params.behind
      let declared : Routine :=
        { name := String.ofList name
          owner := some owner.name
          kind := if result.isNone then .constructor else .method
          params := parseParams params.inside.after
          returnType := result.filter (· != "void")
          visibility := some (p.visibility owner.kind.defaultVisibility)
          isClassLevel := p.has "static"
          directives := p.directives
          annotations := p.labels
          line := w.source.lineAt place }
      let method (r : Routine) (stop : Cursor) : ParsedMethod :=
        ⟨r, p.annotations, ⟨start.offset, stop.offset⟩⟩
      match mark.after with
      | '\x7b' :: _ =>
        let body := block mark
        let text := body.inside.after
        let r :=
          { declared with
            hasBody := true, complexity := complexity text, callHints := callHints text }
        .members
          { methods := [method r body.behind]
            diagnostics := if body.closed then [] else [w.unclosed "method" name place "brace"] }
          body.behind
      | _ => .members { methods := [method declared mark.next] } mark.next

/-- The declarators of a field declaration: each name with the text in front of it. -/
def declarators (cs : List Char) : List (Option (List Char × List Char)) :=
  (splitTopLevel ',' cs).map fun part => trailingName? (before '=' part)

/-- The fields that the text from `c` to the mark `mark` and on to the next semicolon declares. The
type stands in front of the first name. -/
def readFields (w : Walk) (owner : Owner) (p : Prefix) (c mark : Cursor) : Item :=
  let stop := seekTop (· == ';') mark
  let parts := declarators (textBetween c stop)
  let typeName := (parts.head?.bind id).bind fun (type, _) => squashed? type
  let fields := parts.filterMap fun part => part.map fun (_, name) =>
    { name := String.ofList name
      typeName
      visibility := p.visibility owner.kind.defaultVisibility
      annotations := p.labels
      line := w.source.lineAt c.offset : Field }
  .members { fields } stop.next

/-- The member at the cursor `c` behind its prefix; its text starts at `start`. -/
def readMember (w : Walk) (owner : Owner) (p : Prefix) (start c : Cursor) : Item :=
  let mark := memberMark c
  match mark.after with
  | [] => .skipped c.toEnd
  | '(' :: _ => readMethod w owner p start c mark
  -- A body without a parameter list: the compact constructor of a record.
  | '\x7b' :: _ => .skipped (block mark).behind
  | _ => readFields w owner p c mark

/-- The kind of the type whose keyword is a word. The word `record` is a keyword only in front of a
name. -/
def keywordKind? (word : Word) : Option TypeKind :=
  match TypeKind.ofKeyword? (String.ofList word.text) with
  | some .recordType => if word.behind.adjacentWord?.isSome then some .recordType else none
  | kind => kind

/-- What stands next in the scope of `owner`, or in the file when there is none. -/
def nextItem (w : Walk) (owner : Option Owner) (start : Cursor) : Item :=
  let (p, c) := readPrefix start
  match c.after with
  | [] => .nothing
  | ';' :: _ => .skipped c.next
  -- An initializer.
  | '\x7b' :: _ => .skipped (block c).behind
  | '@' :: _ =>
    let keyword := c.next.skipBlank
    -- Annotations lie in the prefix, so this is an annotation type or a stray sign.
    if "interface".toList.isPrefixOf keyword.after then
      readType w p .annotationType owner.isNone keyword (keyword.seek (keyword.offset + 9))
    else .skipped c.next
  | _ =>
    match keywordKind? c.wordHere with
    | some kind => readType w p kind owner.isNone c (c.skipWhile isNamePart)
    | none =>
      match owner with
      | some owner => readMember w owner p start c
      | none => .skipped (pastTop (· == ';') c)

theorem leads_memberMark (c : Cursor) : c.Leads (memberMark c) :=
  .of_advance (splitMember_append ..).symm

theorem length_toEnd_lt {c : Cursor} (h : c.after ≠ []) :
    c.toEnd.after.length < c.after.length := by
  simpa [Cursor.toEnd] using List.length_pos_iff.2 h

theorem advances_readType {w : Walk} {p : Prefix} {kind : TypeKind} {topLevel : Bool}
    {start c behind : Cursor} (hs : start.Leads c) (hc : c.after ≠ []) (h : c.Leads behind) :
    (readType w p kind topLevel c behind).Advances start := by
  have hle := hs.length_le
  unfold readType
  split
  · exact Nat.lt_of_lt_of_le (length_toEnd_lt hc) hle
  · next name hname =>
    have hlt := Cursor.length_of_adjacentWord? hname
    have hb := (leads_seekTop (fun a => a == '\x7b' || a == ';') name.behind).length_le
    have := h.length_le
    simp only
    split
    · exact Nat.lt_of_lt_of_le (length_toEnd_lt hc) hle
    · have := (Cursor.leads_next (seekTop (fun a => a == '\x7b' || a == ';') name.behind)).length_le
      simp only [Item.Advances]
      omega
    · next hne _ =>
      have := length_delimited_lt '\x7b' '\x7d' hne
      simp only [Item.Advances, block]
      omega

theorem advances_readMethod {w : Walk} {owner : Owner} {p : Prefix} {start first c paren : Cursor}
    (hs : start.Leads paren) (h : paren.after ≠ []) (hc : start.Leads c) (hne : c.after ≠ []) :
    (readMethod w owner p first c paren).Advances start := by
  have hle := hs.length_le
  have hcle := hc.length_le
  have hp := length_delimited_lt '(' ')' h
  unfold readMethod
  split
  · exact Nat.lt_of_lt_of_le (length_pastTop_lt h) hle
  · simp only
    split
    · exact Nat.lt_of_lt_of_le (length_toEnd_lt hne) hcle
    · have hm := (leads_seekTop (fun a => a == '\x7b' || a == ';')
        (delimited '(' ')' paren).behind).length_le
      split
      · next hb =>
        have := length_delimited_lt '\x7b' '\x7d'
          (c := seekTop (fun a => a == '\x7b' || a == ';') (delimited '(' ')' paren).behind)
          (by simp [hb])
        simp only [Item.Advances, block]
        omega
      · have := (Cursor.leads_next (seekTop (fun a => a == '\x7b' || a == ';')
          (delimited '(' ')' paren).behind)).length_le
        simp only [Item.Advances]
        omega

theorem advances_readMember {w : Walk} {owner : Owner} {p : Prefix} {start first c : Cursor}
    (hc : start.Leads c) (hne : c.after ≠ []) :
    (readMember w owner p first c).Advances start := by
  have hle := hc.length_le
  have hm := leads_memberMark c
  unfold readMember
  simp only
  split
  · exact Nat.lt_of_lt_of_le (length_toEnd_lt hne) hle
  · next h => exact advances_readMethod (hc.trans hm) (by simp [h]) hc hne
  · next h =>
    have := length_delimited_lt '\x7b' '\x7d' (c := memberMark c) (by simp [h])
    have := hm.length_le
    simp only [Item.Advances, block]
    omega
  · next h _ _ =>
    have := length_pastTop_lt (p := (· == ';')) h
    have := hm.length_le
    simp only [readFields, Item.Advances, pastTop] at *
    omega

theorem advances_nextItem (w : Walk) (owner : Option Owner) (start : Cursor) :
    (nextItem w owner start).Advances start := by
  have hs := leads_readPrefix start
  have hle := hs.length_le
  unfold nextItem
  simp only
  split
  · trivial
  · next h => exact Nat.lt_of_lt_of_le (Cursor.length_next_lt (by simp [h])) hle
  · next h =>
    exact Nat.lt_of_lt_of_le (length_delimited_lt _ _ (by simp [h])).1 hle
  · next h =>
    have hn := Cursor.length_next_lt (c := (readPrefix start).2) (by simp [h])
    split
    · next hi =>
      refine advances_readType
        ((hs.trans (Cursor.leads_next _)).trans (Cursor.leads_skipWhile ..)) ?_
        (Cursor.leads_seek ..)
      intro he
      simp only [Cursor.skipBlank] at he hi
      rw [he] at hi
      simp at hi
    · exact Nat.lt_of_lt_of_le hn hle
  · next hne _ _ _ =>
    split
    · exact advances_readType hs hne (Cursor.leads_skipWhile ..)
    · split
      · exact advances_readMember hs hne
      · exact Nat.lt_of_lt_of_le (length_pastTop_lt hne) hle

/-- Where the members of a type start: behind the constants of an enumeration. -/
def OpenType.members (t : OpenType) : Cursor :=
  match t.parsed.kind with
  | .enumType => pastTop (· == ';') t.body
  | _ => t.body

theorem OpenType.leads_members (t : OpenType) : t.body.Leads t.members := by
  unfold members
  split
  · exact leads_pastTop ..
  · exact .refl _

namespace OpenType

def unclosed (t : OpenType) (w : Walk) : List Diagnostic :=
  if t.closed then [] else [w.unclosed "type" t.parsed.name.toList t.namePlace "brace"]

def tooDeep (t : OpenType) (w : Walk) : Diagnostic :=
  .malformed w.path s!"type '{t.parsed.name}' nests deeper than {w.maxDepth} levels" t.parsed.line

/-- The scope that holds a type, when the type's own scope is given. -/
def close (t : OpenType) (w : Walk) (inner : Scope) : Scope :=
  { types :=
      { t.parsed with fields := t.parsed.fields ++ inner.fields, methods := inner.methods }
        :: inner.types
    diagnostics := t.unclosed w ++ inner.diagnostics }

end OpenType

/-- What the scope of `owner` declares from the cursor on, when it lies inside `depth` types. -/
def readScope (w : Walk) (owner : Option Owner) (depth : Nat) (c : Cursor) : Scope :=
  match _h : nextItem w owner c with
  | .nothing => {}
  | .skipped behind => readScope w owner depth behind
  | .members s behind => s ++ readScope w owner depth behind
  | .type t behind =>
    let inner : Scope :=
      -- The type itself is kept, and so is what stands behind it; only its body is passed over.
      if w.maxDepth < depth + 1 then { diagnostics := [t.tooDeep w] }
      else readScope w (some ⟨t.parsed.name, t.parsed.kind⟩) (depth + 1) t.members
    t.close w inner ++ readScope w owner depth behind
termination_by c.after.length
decreasing_by
  · have := advances_nextItem w owner c
    rw [_h] at this
    exact this
  · have := advances_nextItem w owner c
    rw [_h] at this
    exact this
  · have := advances_nextItem w owner c
    rw [_h] at this
    exact Nat.lt_of_le_of_lt t.leads_members.length_le this.2
  · have := advances_nextItem w owner c
    rw [_h] at this
    exact this.1

/-- The types of a file, each in front of the types nested in it, and the notes on them. Types lie
inside fewer than `maxDepth` others, and at least one level is read. -/
def readTypes (source : Masked) (path : String) (maxDepth : Nat) :
    List ParsedType × List Diagnostic :=
  let s := readScope ⟨source, path, max 1 maxDepth⟩ none 0 (Cursor.ofText source.code)
  (s.types, s.diagnostics)

end MigrationAudit.Java
