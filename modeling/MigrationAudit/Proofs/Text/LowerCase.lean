import MigrationAudit.Proofs.Text.Blocks
import MigrationAudit.Text.Bracket
import MigrationAudit.Text.Cursor
import MigrationAudit.Text.Split

/-!
# Texts in lower case

A reader that tells no capital from its small letter reads from a text in lower case what it reads
from the text itself, put into lower case. Each reader of texts is met by one such equation, from the
tests of characters up to words, blocks and matches.
-/

namespace MigrationAudit.Text

/-! ## Characters -/

/-- A test of characters that tells no capital from its small letter. -/
def IgnoresCase (p : Char → Bool) : Prop := ∀ a, p a.toLower = p a

theorem IgnoresCase.of_capitals {p : Char → Bool}
    (h : ∀ n < 26, p (Char.ofNat (97 + n)) = p (Char.ofNat (65 + n))) : IgnoresCase p :=
  toLower_rel (r := fun a b => p b = p a) (fun _ => rfl) h

theorem IgnoresCase.not {p : Char → Bool} (h : IgnoresCase p) : IgnoresCase fun a => !p a :=
  fun a => congrArg (!·) (h a)

theorem IgnoresCase.or {p q : Char → Bool} (hp : IgnoresCase p) (hq : IgnoresCase q) :
    IgnoresCase fun a => p a || q a := fun a => congrArg₂ (· || ·) (hp a) (hq a)

theorem ignoresCase_isBlank : IgnoresCase isBlank := .of_capitals (by decide)

theorem ignoresCase_isIdent : IgnoresCase isIdent := .of_capitals (by decide)

theorem ignoresCase_isIdentStart : IgnoresCase isIdentStart := .of_capitals (by decide)

theorem ignoresCase_isDigit : IgnoresCase Char.isDigit := .of_capitals (by decide)

theorem ignoresCase_isNameChar : IgnoresCase isNameChar := .of_capitals (by decide +kernel)

theorem ignoresCase_isOpening : IgnoresCase isOpening := .of_capitals (by decide)

theorem ignoresCase_isClosing : IgnoresCase isClosing := .of_capitals (by decide)

@[simp] theorem foldLatin_toLower (a : Char) : foldLatin a.toLower = foldLatin a :=
  toLower_rel (r := fun a b => foldLatin b = foldLatin a) (fun _ => rfl) (by decide) a

theorem ignoresCase_isFoldedNameStart : IgnoresCase isFoldedNameStart := .of_capitals (by decide)

/-- A character that is no letter is the lower case of itself only. -/
@[simp] theorem toLower_eq_iff {a p : Char} (hp : p.isAlpha = false) : a.toLower = p ↔ a = p := by
  refine toLower_rel (r := fun a b => b = p ↔ a = p) (fun _ => .rfl) (fun n hn => ?_) a
  have hall : ∀ n < 26,
      (Char.ofNat (65 + n)).isAlpha = true ∧ (Char.ofNat (97 + n)).isAlpha = true := by
    decide
  constructor <;> rintro rfl <;> simp [hall n hn] at hp

theorem ignoresCase_beq {p : Char} (hp : p.isAlpha = false) : IgnoresCase (· == p) := fun a => by
  rw [Bool.eq_iff_iff, beq_iff_eq, beq_iff_eq, toLower_eq_iff hp]

theorem beq_toLower {a p : Char} (hp : p.isAlpha = false) : (a.toLower == p) = (a == p) :=
  ignoresCase_beq hp a

theorem ignoresCase_bne {p : Char} (hp : p.isAlpha = false) : IgnoresCase (· != p) :=
  (ignoresCase_beq hp).not

@[simp] theorem toLower_toLower (a : Char) : a.toLower.toLower = a.toLower := by
  have hall : ∀ n < 26, (Char.ofNat (97 + n)).toLower = Char.ofNat (97 + n) := by decide
  rcases toLower_eq_or_capital a with h | ⟨n, hn, -, hlower⟩
  · rw [h, h]
  · rw [hlower, hall n hn]

theorem beq_toLower_some {o : Option Char} {p : Char} (hp : p.isAlpha = false) :
    (o.map Char.toLower == some p) = (o == some p) := by
  cases o with
  | none => rfl
  | some a => exact beq_toLower hp

/-! ## Lists of characters -/

section Lists

variable {p : Char → Bool} {cs : List Char}

@[simp] theorem lowerLatin_nil : lowerLatin [] = [] := rfl

@[simp] theorem lowerLatin_cons (a : Char) (cs : List Char) :
    lowerLatin (a :: cs) = a.toLower :: lowerLatin cs := rfl

@[simp] theorem lowerLatin_append (cs ds : List Char) :
    lowerLatin (cs ++ ds) = lowerLatin cs ++ lowerLatin ds := List.map_append

@[simp] theorem lowerLatin_reverse (cs : List Char) :
    lowerLatin cs.reverse = (lowerLatin cs).reverse := List.map_reverse

@[simp] theorem isEmpty_lowerLatin (cs : List Char) : (lowerLatin cs).isEmpty = cs.isEmpty :=
  List.isEmpty_map

@[simp] theorem length_lowerLatin (cs : List Char) : (lowerLatin cs).length = cs.length :=
  List.length_map ..

@[simp] theorem head?_lowerLatin (cs : List Char) :
    (lowerLatin cs).head? = cs.head?.map Char.toLower := List.head?_map

@[simp] theorem take_lowerLatin (n : Nat) (cs : List Char) :
    (lowerLatin cs).take n = lowerLatin (cs.take n) := List.map_take.symm

@[simp] theorem drop_lowerLatin (n : Nat) (cs : List Char) :
    (lowerLatin cs).drop n = lowerLatin (cs.drop n) := List.map_drop.symm

@[simp] theorem lowerLatin_lowerLatin (cs : List Char) :
    lowerLatin (lowerLatin cs) = lowerLatin cs := by
  simp [lowerLatin, Function.comp_def]

theorem lowerLatin_eq_cons_iff {cs rest : List Char} {p : Char} (hp : p.isAlpha = false) :
    lowerLatin cs = p :: rest ↔ ∃ tail, cs = p :: tail ∧ lowerLatin tail = rest := by
  cases cs with
  | nil => simp
  | cons a cs => simp [hp]

theorem lowerLatin_ne_cons {cs : List Char} {p : Char} (hp : p.isAlpha = false)
    (h : ∀ rest, cs ≠ p :: rest) (rest : List Char) : lowerLatin cs ≠ p :: rest := fun hlower =>
  have ⟨tail, htail, _⟩ := (lowerLatin_eq_cons_iff hp).mp hlower
  h tail htail

theorem any_head?_lowerLatin (hp : IgnoresCase p) (cs : List Char) :
    (lowerLatin cs).head?.any p = cs.head?.any p := by
  cases cs with
  | nil => rfl
  | cons a cs => exact hp a

theorem takeWhile_lowerLatin (hp : IgnoresCase p) (cs : List Char) :
    (lowerLatin cs).takeWhile p = lowerLatin (cs.takeWhile p) := by
  rw [lowerLatin, List.takeWhile_map, show p ∘ Char.toLower = p from funext hp, lowerLatin]

theorem dropWhile_lowerLatin (hp : IgnoresCase p) (cs : List Char) :
    (lowerLatin cs).dropWhile p = lowerLatin (cs.dropWhile p) := by
  rw [lowerLatin, List.dropWhile_map, show p ∘ Char.toLower = p from funext hp, lowerLatin]

theorem all_lowerLatin (hp : IgnoresCase p) (cs : List Char) : (lowerLatin cs).all p = cs.all p := by
  rw [lowerLatin, List.all_map, show p ∘ Char.toLower = p from funext hp]

theorem find?_lowerLatin (hp : IgnoresCase p) (cs : List Char) :
    (lowerLatin cs).find? p = (cs.find? p).map Char.toLower := by
  rw [lowerLatin, List.find?_map, show p ∘ Char.toLower = p from funext hp]

@[simp] theorem takeBytes_lowerLatin (n : Nat) (cs : List Char) :
    takeBytes n (lowerLatin cs) = lowerLatin (takeBytes n cs) := by
  induction cs generalizing n with
  | nil => cases n <;> rfl
  | cons a cs ih => cases n <;> simp [takeBytes, utf8Size_toLower, ih]

@[simp] theorem dropBytes_lowerLatin (n : Nat) (cs : List Char) :
    dropBytes n (lowerLatin cs) = lowerLatin (dropBytes n cs) := by
  induction cs generalizing n with
  | nil => cases n <;> rfl
  | cons a cs ih => cases n <;> simp [dropBytes, utf8Size_toLower, ih]

@[simp] theorem slice_lowerLatin (s : Span) (cs : List Char) :
    s.slice (lowerLatin cs) = lowerLatin (s.slice cs) := by
  simp [Span.slice]

/-! ### White space -/

@[simp] theorem trimStart_lowerLatin (cs : List Char) :
    trimStart (lowerLatin cs) = lowerLatin (trimStart cs) :=
  dropWhile_lowerLatin ignoresCase_isBlank cs

theorem dropEndWhile_lowerLatin (hp : IgnoresCase p) (cs : List Char) :
    dropEndWhile p (lowerLatin cs) = lowerLatin (dropEndWhile p cs) := by
  rw [dropEndWhile, ← lowerLatin_reverse, dropWhile_lowerLatin hp, ← lowerLatin_reverse,
    dropEndWhile]

theorem trimWhere_lowerLatin (hp : IgnoresCase p) (cs : List Char) :
    trimWhere p (lowerLatin cs) = lowerLatin (trimWhere p cs) := by
  rw [trimWhere, dropWhile_lowerLatin hp, dropEndWhile_lowerLatin hp, trimWhere]

@[simp] theorem trim_lowerLatin (cs : List Char) : trim (lowerLatin cs) = lowerLatin (trim cs) :=
  trimWhere_lowerLatin ignoresCase_isBlank cs

theorem runsOf_lowerLatin (hp : IgnoresCase p) (cs : List Char) :
    runsOf p (lowerLatin cs) = (runsOf p cs).map lowerLatin := by
  induction cs with
  | nil => rfl
  | cons a cs ih =>
    simp only [lowerLatin_cons, runsOf, hp a, ih]
    split
    · cases cs with
      | nil => cases hruns : runsOf p [] <;> simp
      | cons b cs =>
        cases hruns : runsOf p (b :: cs) with
        | nil => simp
        | cons run runs =>
          simp only [lowerLatin_cons, List.map_cons, hp b]
          split <;> simp
    · rfl

@[simp] theorem squash_lowerLatin (cs : List Char) :
    squash (lowerLatin cs) = lowerLatin (squash cs) := by
  have hspace : [' '].map Char.toLower = [' '] := rfl
  rw [squash, fields, runsOf_lowerLatin ignoresCase_isBlank.not, squash, fields]
  generalize runsOf (fun c => !isBlank c) cs = runs
  induction runs with
  | nil => rfl
  | cons run runs ih =>
    cases runs with
    | nil => simp [List.intercalate]
    | cons next runs => simpa [List.intercalate, lowerLatin] using ih

/-! ### Cutting texts -/

variable (sep : Char) (hsep : sep.isAlpha = false)

include hsep

theorem splitFirst?_lowerLatin (cs : List Char) :
    splitFirst? sep (lowerLatin cs) = (splitFirst? sep cs).map (Prod.map lowerLatin lowerLatin) := by
  rw [splitFirst?, dropWhile_lowerLatin (ignoresCase_bne hsep),
    takeWhile_lowerLatin (ignoresCase_bne hsep), splitFirst?]
  cases cs.dropWhile (· != sep) <;> rfl

theorem splitLast?_lowerLatin (cs : List Char) :
    splitLast? sep (lowerLatin cs) = (splitLast? sep cs).map (Prod.map lowerLatin lowerLatin) := by
  rw [splitLast?, ← lowerLatin_reverse, splitFirst?_lowerLatin sep hsep, splitLast?, Option.map_map,
    Option.map_map]
  congr 1
  funext x
  simp

theorem before_lowerLatin (cs : List Char) :
    before sep (lowerLatin cs) = lowerLatin (before sep cs) :=
  takeWhile_lowerLatin (ignoresCase_bne hsep) cs

theorem splitAll_lowerLatin (cs : List Char) :
    splitAll sep (lowerLatin cs) = (splitAll sep cs).map lowerLatin := by
  induction cs with
  | nil => rfl
  | cons a cs ih =>
    simp only [lowerLatin_cons, splitAll, beq_toLower hsep, ih]
    split
    · rfl
    · cases splitAll sep cs <;> simp

theorem topLevelPieces_lowerLatin (depth : Nat) (piece cs : List Char) :
    topLevelPieces sep depth (lowerLatin piece) (lowerLatin cs) =
      (topLevelPieces sep depth piece cs).map lowerLatin := by
  induction cs generalizing depth piece with
  | nil => simp [topLevelPieces]
  | cons a cs ih =>
    have hnext : ∀ depth, topLevelPieces sep depth (a.toLower :: lowerLatin piece) (lowerLatin cs) =
        (topLevelPieces sep depth (a :: piece) cs).map lowerLatin :=
      fun depth => ih depth (a :: piece)
    have hcut : topLevelPieces sep 0 [] (lowerLatin cs) =
        (topLevelPieces sep 0 [] cs).map lowerLatin := ih 0 []
    simp only [lowerLatin_cons, topLevelPieces, ignoresCase_isOpening a, ignoresCase_isClosing a,
      beq_toLower hsep, hnext, hcut, ← lowerLatin_reverse]
    split
    · rfl
    · split
      · rfl
      · split <;> rfl

theorem splitTopLevel_lowerLatin (cs : List Char) :
    splitTopLevel sep (lowerLatin cs) = (splitTopLevel sep cs).map lowerLatin := by
  have hpieces := topLevelPieces_lowerLatin sep hsep 0 [] cs
  rw [lowerLatin_nil] at hpieces
  rw [splitTopLevel, hpieces, splitTopLevel, List.map_map, List.filter_map, List.filter_map,
    List.map_map]
  simp [Function.comp_def]

end Lists

theorem closeFrom_lowerLatin {opening close : Char} (hopening : opening.isAlpha = false)
    (hclose : close.isAlpha = false) (depth : Nat) (seen cs : List Char) :
    closeFrom opening close depth (lowerLatin seen) (lowerLatin cs) =
      (closeFrom opening close depth seen cs).map (Prod.map lowerLatin lowerLatin) := by
  induction cs generalizing depth seen with
  | nil => rfl
  | cons a cs ih =>
    have hnext : ∀ depth,
        closeFrom opening close depth (a.toLower :: lowerLatin seen) (lowerLatin cs) =
          (closeFrom opening close depth (a :: seen) cs).map (Prod.map lowerLatin lowerLatin) :=
      fun depth => ih depth (a :: seen)
    simp only [lowerLatin_cons, closeFrom, beq_toLower hopening, beq_toLower hclose, hnext,
      ← lowerLatin_reverse]
    split
    · rfl
    · split
      · split <;> rfl
      · rfl

theorem splitAtClose?_lowerLatin {opening close : Char} (hopening : opening.isAlpha = false)
    (hclose : close.isAlpha = false) (cs : List Char) :
    splitAtClose? opening close (lowerLatin cs) =
      (splitAtClose? opening close cs).map (Prod.map lowerLatin lowerLatin) :=
  closeFrom_lowerLatin hopening hclose 0 [] cs

/-! ## Strings -/

theorem toLower_eq_self {s : String} (h : lowerLatin s.toList = s.toList) : s.toLower = s := by
  rw [← String.toList_inj, toList_toLower, h]

@[simp] theorem toLower_append (s t : String) : (s ++ t).toLower = s.toLower ++ t.toLower := by
  rw [← String.toList_inj]
  simp

@[simp] theorem toLower_toLower_string (s : String) : s.toLower.toLower = s.toLower := by
  rw [← String.toList_inj]
  simp

@[simp] theorem squashed?_lowerLatin (cs : List Char) :
    squashed? (lowerLatin cs) = (squashed? cs).map String.toLower := by
  rw [squashed?, squash_lowerLatin, squashed?]
  cases squash cs with
  | nil => rfl
  | cons a rest => exact congrArg some (toLower_ofList (a :: rest)).symm

@[simp] theorem isIdentifier_lowerLatin (cs : List Char) :
    isIdentifier (lowerLatin cs) = isIdentifier cs := by
  cases cs with
  | nil => rfl
  | cons a cs =>
    simp only [lowerLatin_cons, isIdentifier, ignoresCase_isIdentStart a,
      all_lowerLatin ignoresCase_isIdent]

@[simp] theorem sameLatin_lowerLatin (cs ds : List Char) :
    sameLatin (lowerLatin cs) ds = sameLatin cs ds := by
  rw [sameLatin, lowerLatin_lowerLatin, sameLatin]

@[simp] theorem foldsTo_lowerLatin (cs : List Char) (word : String) :
    foldsTo (lowerLatin cs) word = foldsTo cs word := by
  simp [foldsTo, lowerLatin, Function.comp_def]

end MigrationAudit.Text
