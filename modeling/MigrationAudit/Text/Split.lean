/-!
# Cutting texts

The white space of Unicode, and what remains of a text when white space is cut off its ends,
collapsed, or taken as the boundary between fields. Texts cut at the first, the last or every
separator, and the search for one text in another.
-/

namespace MigrationAudit.Text

/-! ## White space -/

/-- Whether a character has the property White_Space. -/
def isBlank (c : Char) : Bool :=
  let n := c.toNat
  (0x9 ≤ n && n ≤ 0xD) || n == 0x20 || n == 0x85 || n == 0xA0 || n == 0x1680 ||
    (0x2000 ≤ n && n ≤ 0x200A) || n == 0x2028 || n == 0x2029 || n == 0x202F || n == 0x205F ||
    n == 0x3000

def trimStart (cs : List Char) : List Char := cs.dropWhile isBlank

/-- The text without the longest end of characters that satisfy `p`. -/
def dropEndWhile (p : Char → Bool) (cs : List Char) : List Char :=
  (cs.reverse.dropWhile p).reverse

def trimWhere (p : Char → Bool) (cs : List Char) : List Char := dropEndWhile p (cs.dropWhile p)

def trimEnd (cs : List Char) : List Char := dropEndWhile isBlank cs

def trim (cs : List Char) : List Char := trimWhere isBlank cs

/-- The maximal runs of characters that satisfy `p`, in order. -/
def runsOf (p : Char → Bool) : List Char → List (List Char)
  | [] => []
  | c :: cs =>
    if p c then
      match cs, runsOf p cs with
      | d :: _, run :: runs => if p d then (c :: run) :: runs else [c] :: run :: runs
      | _, runs => [c] :: runs
    else runsOf p cs

def fields (cs : List Char) : List (List Char) := runsOf (fun c => !isBlank c) cs

/-- The text with each run of white space replaced by one space, and none at either end. -/
def squash (cs : List Char) : List Char := [' '].intercalate (fields cs)

def squashed? (cs : List Char) : Option String :=
  match squash cs with
  | [] => none
  | cs => some (String.ofList cs)

/-! ## Separators -/

/-- The text cut at the first `sep`, which belongs to neither part. -/
def splitFirst? (sep : Char) (cs : List Char) : Option (List Char × List Char) :=
  match cs.dropWhile (· != sep) with
  | [] => none
  | _ :: after => some (cs.takeWhile (· != sep), after)

/-- The text cut at the last `sep`, which belongs to neither part. -/
def splitLast? (sep : Char) (cs : List Char) : Option (List Char × List Char) :=
  (splitFirst? sep cs.reverse).map fun (after, before) => (before.reverse, after.reverse)

/-- The text before the first `sep`, or all of it. -/
def before (sep : Char) (cs : List Char) : List Char := cs.takeWhile (· != sep)

/-- The pieces between the occurrences of `sep`; one more than there are occurrences. -/
def splitAll (sep : Char) : List Char → List (List Char)
  | [] => [[]]
  | c :: cs =>
    if c == sep then [] :: splitAll sep cs
    else
      match splitAll sep cs with
      | piece :: pieces => (c :: piece) :: pieces
      | [] => [[c]]

def occursIn (needle : List Char) : List Char → Bool
  | [] => needle.isEmpty
  | c :: cs => needle.isPrefixOf (c :: cs) || occursIn needle cs

end MigrationAudit.Text
