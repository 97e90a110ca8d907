/-!
# Path patterns

A pattern of paths is read into steps and matched against the bytes of a path. A question mark
stands for any byte and a star for any bytes, slashes included. Two stars between slashes stand for
any directories, brackets for one byte of a class, and braces for one of several patterns.

Matching follows all ways at once: a step takes the bytes that are left to the bytes that may be
left behind it.
-/

namespace MigrationAudit

inductive PatternStep
  | literal (c : Char)
  | anyByte
  | anyBytes
  /-- Any directories at the front of the pattern, or none. -/
  | leadingDirs
  /-- Everything below a directory. -/
  | dirContents
  /-- Any directories between two names, or none. -/
  | betweenDirs
  | oneOf (negated : Bool) (ranges : List (Char × Char))
  | choice (branches : List (List PatternStep))

abbrev Pattern := List PatternStep

/-! ## Reading -/

/-- The end of a class of bytes, behind the bracket that opens it and a negation. The ranges read so
far come last first; `openRange` tells that a hyphen stands before the next character. -/
def readRanges? (first openRange : Bool) (ranges : List (Char × Char)) :
    List Char → Option (List (Char × Char) × List Char)
  | [] => none
  | c :: cs =>
    if c == ']' && !first then
      some ((if openRange then ('-', '-') :: ranges else ranges).reverse, cs)
    else if c == '-' && !first && !openRange then readRanges? false true ranges cs
    else
      match openRange, ranges with
      | true, (low, _) :: rest =>
        if c < low then none else readRanges? false false ((low, c) :: rest) cs
      | _, ranges => readRanges? false false ((c, c) :: ranges) cs

theorem length_of_readRanges? {first openRange : Bool} {ranges found : List (Char × Char)}
    {cs rest : List Char} (h : readRanges? first openRange ranges cs = some (found, rest)) :
    rest.length < cs.length := by
  fun_induction readRanges? first openRange ranges cs with
  | case1 => simp at h
  | case2 =>
    simp only [Option.some.injEq, Prod.mk.injEq] at h
    simp [← h.2]
  | case3 => rename_i ih; exact Nat.lt_succ_of_lt (ih h)
  | case4 => simp at h
  | case5 => rename_i ih; exact Nat.lt_succ_of_lt (ih h)
  | case6 => rename_i ih; exact Nat.lt_succ_of_lt (ih h)

/-- The steps read so far, last first: those of the branch at hand, and for each open brace the
branches behind it that are complete and the steps before it. -/
structure PatternDraft where
  steps : List PatternStep
  enclosing : List (List (List PatternStep) × List PatternStep)

namespace PatternDraft

def push (d : PatternDraft) (s : PatternStep) : PatternDraft := { d with steps := s :: d.steps }

def openChoice (d : PatternDraft) : PatternDraft := ⟨[], ([], d.steps) :: d.enclosing⟩

/-- Begins the next branch of a choice. A comma outside of choices stands for itself. -/
def nextBranch (d : PatternDraft) : PatternDraft :=
  match d.enclosing with
  | (branches, before) :: rest => ⟨[], (d.steps.reverse :: branches, before) :: rest⟩
  | [] => d.push (.literal ',')

def closeChoice? (d : PatternDraft) : Option PatternDraft :=
  match d.enclosing with
  | (branches, before) :: rest =>
    some ⟨.choice (d.steps.reverse :: branches).reverse :: before, rest⟩
  | [] => none

/-- Two stars without a meaning of their own. -/
def pushTwoStars (d : PatternDraft) : PatternDraft := (d.push .anyBytes).push .anyBytes

/-- Puts a step for directories in the place of the slash before it. A step that stands for
directories already takes in further ones. -/
def replaceSlash (d : PatternDraft) (s : PatternStep) : PatternDraft :=
  match d.steps with
  | .leadingDirs :: _ => d
  | .dirContents :: _ => d
  | _ :: steps => { d with steps := s :: steps }
  | [] => d.push s

/-- Takes in two stars that stand behind the character `before` and in front of `cs`. The answer
tells whether the slash that follows belongs to them. -/
def pushStars (d : PatternDraft) (before : Option Char) (cs : List Char) : PatternDraft × Bool :=
  let inChoice := !d.enclosing.isEmpty
  if d.steps.isEmpty then
    match cs with
    | [] => (d.push .leadingDirs, false)
    | c :: _ => if c == '/' then (d.push .leadingDirs, true) else (d.pushTwoStars, false)
  else if before != some '/' && !(inChoice && (before == some ',' || before == some '\x7b')) then
    (d.pushTwoStars, false)
  else
    match cs with
    | [] => (d.replaceSlash .dirContents, false)
    | c :: _ =>
      if c == '/' then (d.replaceSlash .betweenDirs, true)
      else if inChoice && (c == ',' || c == '\x7d') then (d.replaceSlash .dirContents, false)
      else (d.pushTwoStars, false)

end PatternDraft

/-- The pattern that begins with a draft and goes on with a text behind the character `before`. -/
def readPatternFrom? (d : PatternDraft) (before : Option Char) (cs : List Char) : Option Pattern :=
  match cs with
  | [] => if d.enclosing.isEmpty then some d.steps.reverse else none
  | '?' :: rest => readPatternFrom? (d.push .anyByte) (some '?') rest
  | '*' :: '*' :: rest =>
    match d.pushStars before rest, rest with
    | (d, true), _ :: behind => readPatternFrom? d (some '/') behind
    | (d, _), rest => readPatternFrom? d (some '*') rest
  | '*' :: rest => readPatternFrom? (d.push .anyBytes) (some '*') rest
  | '[' :: rest =>
    let negated := rest.head? == some '!' || rest.head? == some '^'
    match _h : readRanges? true false [] (if negated then rest.drop 1 else rest) with
    | some (ranges, behind) => readPatternFrom? (d.push (.oneOf negated ranges)) (some ']') behind
    | none => none
  | '\x7b' :: rest => readPatternFrom? d.openChoice (some '\x7b') rest
  | '\x7d' :: rest =>
    match d.closeChoice? with
    | some d => readPatternFrom? d (some '\x7d') rest
    | none => none
  | ',' :: rest => readPatternFrom? d.nextBranch (some ',') rest
  | '\\' :: c :: rest => readPatternFrom? (d.push (.literal c)) (some c) rest
  | ['\\'] => none
  | c :: rest => readPatternFrom? (d.push (.literal c)) (some c) rest
termination_by cs.length
decreasing_by
  all_goals simp_wf
  all_goals try omega
  have := length_of_readRanges? _h
  split at this
  · simp only [List.length_drop] at this
    omega
  · omega

def Pattern.read? (text : String) : Option Pattern := readPatternFrom? ⟨[], []⟩ none text.toList

/-! ## Matching -/

def bytesOf (s : String) : List UInt8 := s.toUTF8.toList

def charBytes (c : Char) : List UInt8 := bytesOf (String.singleton c)

def slash : UInt8 := 0x2F

/-- A text and all texts that it ends in. -/
def endings : List UInt8 → List (List UInt8)
  | [] => [[]]
  | b :: bs => (b :: bs) :: endings bs

/-- What follows the slashes of a text, each in turn. -/
def behindSlashes : List UInt8 → List (List UInt8)
  | [] => []
  | b :: bs => if b == slash then bs :: behindSlashes bs else behindSlashes bs

def behindByte (p : UInt8 → Bool) : List UInt8 → List (List UInt8)
  | [] => []
  | b :: bs => if p b then [bs] else []

/-- The ranges of bytes that a range of characters comes to: the last byte of the first character up
to the first byte of the last one, and all other bytes of the two on their own. -/
def byteRanges (range : Char × Char) : List (UInt8 × UInt8) :=
  let low := charBytes range.1
  let high := charBytes range.2
  let single (bs : List UInt8) := bs.map fun b => (b, b)
  if range.1 == range.2 then single low
  else
    match low.reverse, high with
    | l :: before, h :: behind => single before.reverse ++ (l, h) :: single behind
    | _, _ => []

def inRanges (ranges : List (Char × Char)) (b : UInt8) : Bool :=
  (ranges.flatMap byteRanges).any fun (low, high) => low ≤ b && b ≤ high

mutual

def PatternStep.isVoid : PatternStep → Bool
  | .choice branches => allVoidBranches branches
  | _ => false

def allVoid : List PatternStep → Bool
  | [] => true
  | s :: rest => s.isVoid && allVoid rest

def allVoidBranches : List (List PatternStep) → Bool
  | [] => true
  | b :: rest => allVoid b && allVoidBranches rest

end

mutual

/-- What may be left of some bytes behind a step. -/
def PatternStep.rests : PatternStep → List UInt8 → List (List UInt8)
  | .literal c, bs => ((charBytes c).isPrefixOf? bs).toList
  | .anyByte, bs => behindByte (fun _ => true) bs
  | .anyBytes, bs => endings bs
  | .leadingDirs, bs => bs :: behindSlashes bs
  | .dirContents, bs => (behindByte (· == slash) bs).flatMap endings
  | .betweenDirs, bs => (behindByte (· == slash) bs).flatMap fun r => r :: behindSlashes r
  | .oneOf negated ranges, bs => behindByte (fun b => inRanges ranges b != negated) bs
  | .choice branches, bs =>
    if allVoidBranches branches then [bs] else restsOfBranches branches bs

def restsOfSteps : List PatternStep → List UInt8 → List (List UInt8)
  | [], bs => [bs]
  | s :: rest, bs => ((s.rests bs).flatMap (restsOfSteps rest)).eraseDups

/-- What may be left of some bytes behind one of some branches; branches that stand for nothing are
left out. -/
def restsOfBranches : List (List PatternStep) → List UInt8 → List (List UInt8)
  | [], _ => []
  | b :: rest, bs => (if allVoid b then [] else restsOfSteps b bs) ++ restsOfBranches rest bs

end

/-- Whether a pattern matches the whole of a path. Two stars alone match every path. -/
def Pattern.isMatch (p : Pattern) (path : String) : Bool :=
  match p with
  | [.leadingDirs] => true
  | steps => (restsOfSteps steps (bytesOf path)).contains []

end MigrationAudit
