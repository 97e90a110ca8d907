import MigrationAudit.Facts.Basic
import MigrationAudit.Java.Scan

/-!
# Annotations and modifiers

A declaration starts with any number of annotations, each of which may have arguments in
parentheses, and modifiers. The closing parenthesis is found by a function that is given, so that it
may be searched for or looked up.
-/

namespace MigrationAudit.Java

open Text

def modifierWords : List String :=
  ["public", "protected", "private", "static", "final", "abstract", "synchronized", "native",
    "transient", "volatile", "strictfp", "default", "sealed"]

/-- An annotation, by the last part of its name, and what its arguments cover. -/
structure Annotation where
  name : String
  args : Option Span
deriving DecidableEq, Repr

def Annotation.label (a : Annotation) : String := "@" ++ a.name

structure Prefix where
  annotations : List Annotation := []
  modifiers : List String := []
deriving DecidableEq, Repr

namespace Prefix

def has (p : Prefix) (modifier : String) : Bool := p.modifiers.contains modifier

def visibility (p : Prefix) (default : Visibility) : Visibility :=
  if p.has "public" then .publicAccess
  else if p.has "protected" then .protectedAccess
  else if p.has "private" then .privateAccess
  else default

def labels (p : Prefix) : List String := p.annotations.map Annotation.label

/-- The modifiers that tell something else than visibility and level. -/
def directives (p : Prefix) : List String :=
  p.modifiers.filter fun m => !(["public", "protected", "private", "static"].contains m)

def annotate (p : Prefix) (a : Annotation) : Prefix := { p with annotations := a :: p.annotations }

def modify (p : Prefix) (m : String) : Prefix := { p with modifiers := m :: p.modifiers }

end Prefix

/-- The cursor behind a dotted name. A dot belongs to the name only behind a part of it. -/
def pastDotted (c : Cursor) : Cursor :=
  match _h : c.after with
  | [] => c
  | a :: _ =>
    if isNamePart a then
      let d := c.next.skipWhile isNamePart
      match d.after with
      | '.' :: _ => pastDotted d.next
      | _ => d
    else c
termination_by c.after.length
decreasing_by
  exact Nat.lt_of_le_of_lt
    ((Cursor.leads_skipWhile ..).trans (Cursor.leads_next _)).length_le
    (Cursor.length_next_lt (by simp [_h]))

def textBetween (c d : Cursor) : List Char := takeBytes (d.offset - c.offset) c.after

/-- An annotation whose sign stands at the cursor, and the cursor behind it. The keyword of an
annotation type is none. -/
def readAnnotation? (closing : Cursor → Option Cursor) (c : Cursor) :
    Option ( Annotation × Cursor) :=
  let start := c.next.skipBlank
  let behind := pastDotted start
  let qualified := dropEndWhile (· == '.') (textBetween start behind)
  if qualified.isEmpty || qualified == "interface".toList then none
  else
    let name := String.ofList (qualified.reverse.takeWhile (· != '.')).reverse
    let paren := behind.skipBlank
    match paren.after with
    | '(' :: _ =>
      match closing paren with
      | some close => some (⟨name, some ⟨paren.next.offset, close.offset⟩⟩, close.next)
      -- Arguments that do not end are left to what follows the annotation.
      | none => some (⟨name, none⟩, behind)
    | _ => some (⟨name, none⟩, behind)

/-- The parenthesis that closes the one at the cursor, by search. -/
def searchClosing (c : Cursor) : Option Cursor :=
  (splitAtClose? '(' ')' c.after).map fun (inside, rest) => c.advance inside (')' :: rest)

/-- The parenthesis that closes the one at the cursor, by look-up. -/
def lookupClosing (p : Pairing) (c : Cursor) : Option Cursor :=
  (p.closingAt? c.offset).bind fun n =>
    let d := c.seek n
    if d.after.isEmpty then none else some d

/-- The annotations and modifiers at the cursor, at most `fuel` of them, and the cursor at the first
character behind them that is not white space. -/
def readPrefixWith (closing : Cursor → Option Cursor) : Nat → Cursor → Prefix × Cursor
  | 0, c => ({}, c.skipBlank)
  | fuel + 1, c =>
    let c := c.skipBlank
    match c.after with
    | '@' :: _ =>
      match readAnnotation? closing c with
      | some (a, behind) =>
        let (p, stop) := readPrefixWith closing fuel behind
        (p.annotate a, stop)
      | none => ({}, c)
    | _ =>
      let word := String.ofList (c.after.takeWhile isIdent)
      if modifierWords.contains word then
        let (p, stop) := readPrefixWith closing fuel (c.skipWhile isIdent)
        (p.modify word, stop)
      else ({}, c)

theorem leads_pastDotted (c : Cursor) : c.Leads (pastDotted c) := by
  fun_induction pastDotted c with
  | case1 => exact .refl _
  | case2 c a rest h ha d rest' hd ih =>
    exact (((Cursor.leads_next c).trans (Cursor.leads_skipWhile ..)).trans
      (Cursor.leads_next _)).trans
      ih
  | case3 c a rest h ha d hd => exact (Cursor.leads_next c).trans (Cursor.leads_skipWhile ..)
  | case4 => exact .refl _

theorem leads_annotationName (c : Cursor) : c.Leads (pastDotted c.next.skipBlank) :=
  ((Cursor.leads_next c).trans (Cursor.leads_skipWhile ..)).trans (leads_pastDotted _)

theorem leads_searchClosing {c d : Cursor} (h : searchClosing c = some d) : c.Leads d := by
  simp only [searchClosing, Option.map_eq_some_iff] at h
  obtain ⟨⟨inside, rest⟩, hs, rfl⟩ := h
  exact .of_advance (append_of_splitAtClose? hs).symm

theorem leads_readAnnotation? {closing : Cursor → Option Cursor}
    (hc : ∀ {c d}, closing c = some d → c.Leads d) {c d : Cursor} {a : Annotation}
    (h : readAnnotation? closing c = some (a, d)) : c.Leads d := by
  have hd := leads_annotationName c
  unfold readAnnotation? at h
  simp only at h
  split at h
  · simp at h
  · split at h
    · split at h
      · next close hclose =>
        obtain ⟨-, rfl⟩ := Prod.mk.inj (Option.some.inj h)
        exact ((hd.trans (Cursor.leads_skipWhile ..)).trans (hc hclose)).trans (Cursor.leads_next _)
      · obtain ⟨-, rfl⟩ := Prod.mk.inj (Option.some.inj h)
        exact hd
    · obtain ⟨-, rfl⟩ := Prod.mk.inj (Option.some.inj h)
      exact hd

theorem leads_readPrefixWith {closing : Cursor → Option Cursor}
    (hc : ∀ {c d}, closing c = some d → c.Leads d) (fuel : Nat) (c : Cursor) :
    c.Leads (readPrefixWith closing fuel c).2 := by
  induction fuel generalizing c with
  | zero => exact Cursor.leads_skipWhile ..
  | succ fuel ih =>
    have hb : c.Leads c.skipBlank := Cursor.leads_skipWhile ..
    unfold readPrefixWith
    simp only
    split
    · split
      · next h => exact (hb.trans (leads_readAnnotation? hc h)).trans (ih _)
      · exact hb
    · split
      · exact (hb.trans (Cursor.leads_skipWhile ..)).trans (ih _)
      · exact hb

/-- The annotations and modifiers at the cursor. Each has a character, so the length is fuel. -/
def readPrefix (c : Cursor) : Prefix × Cursor := readPrefixWith searchClosing c.after.length c

theorem leads_readPrefix (c : Cursor) : c.Leads (readPrefix c).2 :=
  leads_readPrefixWith leads_searchClosing ..

end MigrationAudit.Java
