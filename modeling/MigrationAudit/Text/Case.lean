import MigrationAudit.Text.CaseTable
import MigrationAudit.Text.CaseProperty
import MigrationAudit.Text.Span

/-!
# Letter case

Comparisons of names that ignore the case of the basic Latin letters only, and the full case
mappings of Unicode. A capital sigma is lowered to its final form at the end of a word.

What holds of the 26 capitals of the basic Latin alphabet with their small letters, and of every
character with itself, holds of every character with its lower case.
-/

namespace MigrationAudit.Text

def lowerLatin (cs : List Char) : List Char := cs.map Char.toLower

/-- Equality up to the case of the basic Latin letters. -/
def sameLatin (a b : List Char) : Bool := lowerLatin a == lowerLatin b

/-- The text behind a beginning, whatever the case of its basic Latin letters. -/
def dropFront? : List Char → List Char → Option (List Char)
  | [], cs => some cs
  | _ :: _, [] => none
  | p :: front, c :: cs => if p.toLower == c.toLower then dropFront? front cs else none

/-- The text before an ending, whatever the case of its basic Latin letters. -/
def dropBack? (back cs : List Char) : Option (List Char) :=
  (dropFront? back.reverse cs.reverse).map List.reverse

/-- The basic Latin letter, in lower case, that a character folds to under Unicode case folding:
the long s and the Kelvin sign fold to such a letter as well. -/
def foldLatin (c : Char) : Char :=
  if c == '\u017f' then 's' else if c == '\u212a' then 'k' else c.toLower

/-- Equality with a word of lower case basic Latin letters under Unicode case folding. -/
def foldsTo (cs : List Char) (word : String) : Bool := cs.map foldLatin == word.toList

/-- Whether a character folds to a basic Latin letter or is an underscore. -/
def isFoldedNameStart (c : Char) : Bool := (foldLatin c).isAlpha || c == '_'

/-- The lower case of one character, apart from the form of a final sigma. -/
def lowerChar (c : Char) : List Char := mapCase lowerRuns [(0x130, [0x69, 0x307])] c

def upperChar (c : Char) : List Char := mapCase upperRuns upperExpansions c

def capitalize : List Char → List Char
  | [] => []
  | c :: cs => upperChar c ++ cs

/-- Whether the first character that is not passed over has a case. -/
def startsCased (cs : List Char) : Bool :=
  match cs.dropWhile isCaseIgnorable with
  | c :: _ => isCased c
  | [] => false

/-- The lower case of a text, where `seen` holds the characters before it, nearest first. -/
def lowerAfter (seen : List Char) : List Char → List Char
  | [] => []
  | c :: cs =>
    (if c == 'Σ' then [if startsCased seen && !startsCased cs then 'ς' else 'σ'] else lowerChar c) ++
      lowerAfter (c :: seen) cs

def lowercase (s : String) : String := String.ofList (lowerAfter [] s.toList)

def uppercase (s : String) : String := String.ofList (s.toList.flatMap upperChar)

/-! ## Capital letters -/

theorem toLower_eq_or_capital (a : Char) :
    a.toLower = a ∨ ∃ n < 26, a = Char.ofNat (65 + n) ∧ a.toLower = Char.ofNat (97 + n) := by
  by_cases h : a.val ≥ 'A'.val ∧ a.val ≤ 'Z'.val
  · right
    have hlow : 65 ≤ a.toNat := UInt32.le_iff_toNat_le.mp h.1
    have hhigh : a.toNat ≤ 90 := UInt32.le_iff_toNat_le.mp h.2
    have ha : a = Char.ofNat (65 + (a.toNat - 65)) := by
      rw [Nat.add_sub_cancel' hlow, Char.ofNat_toNat]
    have hall : ∀ n < 26, (Char.ofNat (65 + n)).toLower = Char.ofNat (97 + n) := by decide
    have hn : a.toNat - 65 < 26 := by omega
    exact ⟨a.toNat - 65, hn, ha, (congrArg Char.toLower ha).trans (hall _ hn)⟩
  · left
    exact dif_neg h

theorem toLower_rel {r : Char → Char → Prop} (hself : ∀ a, r a a)
    (hcapital : ∀ n < 26, r (Char.ofNat (65 + n)) (Char.ofNat (97 + n))) (a : Char) :
    r a a.toLower := by
  rcases toLower_eq_or_capital a with h | ⟨n, hn, ha, hlower⟩
  · rw [h]
    exact hself a
  · rw [hlower, ha]
    exact hcapital n hn

theorem utf8Size_toLower (a : Char) : a.toLower.utf8Size = a.utf8Size :=
  toLower_rel (r := fun a b => b.utf8Size = a.utf8Size) (fun _ => rfl) (by decide) a

theorem width_lowerLatin (cs : List Char) : width (lowerLatin cs) = width cs := by
  induction cs with
  | nil => rfl
  | cons c cs ih =>
    have hcons : lowerLatin (c :: cs) = c.toLower :: lowerLatin cs := rfl
    rw [hcons, width, width, utf8Size_toLower, ih]

@[simp] theorem toList_toLower (s : String) : s.toLower.toList = lowerLatin s.toList :=
  String.toList_map

@[simp] theorem toLower_ofList (cs : List Char) :
    (String.ofList cs).toLower = String.ofList (lowerLatin cs) := by
  rw [← String.toList_inj, toList_toLower, String.toList_ofList, String.toList_ofList]

end MigrationAudit.Text
