import MigrationAudit.Pascal.RoutineTable
import MigrationAudit.Proofs.Text.Occurrences

/-!
# Branches counted in parts

The words of a text are its maximal runs of identifier characters. A cut between two characters that
are not both of that kind goes through no run, so the words on its two sides are all words, and the
branching words of a body are those of its parts.
-/

namespace MigrationAudit

namespace Text

/-- All maximal runs of identifier characters of a text, each with the byte at which it starts, and
nothing else, from front to back. -/
structure ListsRuns (cs : List Char) (found : List (Nat × List Char)) : Prop where
  ordered : found.Pairwise fun s t => s.1 < t.1
  mem_iff : ∀ start run, (start, run) ∈ found ↔
    ∃ before after, StandsWhole cs before run after ∧ start = width before

theorem listsRuns_words (cs : List Char) : ListsRuns cs ((words cs).map Word.spot) where
  ordered := (spots_pairwise 0 cs).1
  mem_iff start run := by
    rw [List.mem_map]
    constructor
    · rintro ⟨w, hw, heq⟩
      obtain ⟨rfl, rfl⟩ := Prod.mk.inj heq
      exact ⟨_, _, standsWhole_of_mem_words hw, start_of_mem_words hw⟩
    · rintro ⟨before, after, hstands, rfl⟩
      obtain ⟨w, hw, rfl, rfl, rfl⟩ := hstands.exists_mem_words
      exact ⟨w, hw, congrArg (·, w.text) (start_of_mem_words hw)⟩

theorem map_spot_words_append {a b : List Char}
    (h : a.getLast?.any isIdent = false ∨ b.head?.any isIdent = false) :
    (words (a ++ b)).map Word.spot =
      (words a).map Word.spot ++ (words b).map fun w => (width a + w.start, w.text) := by
  have hshift : spots (width a) b = (words b).map fun w => (width a + w.start, w.text) := by
    rw [← Nat.add_zero (width a), spots_add, spots, List.map_map]
    rfl
  have happend := spots_append h 0
  rwa [Nat.zero_add, hshift] at happend

end Text

namespace Pascal

open Text

variable {a b : List Char}

theorem complexity_append (h : a.getLast?.any isIdent = false ∨ b.head?.any isIdent = false) :
    complexity (a ++ b) + 1 = complexity a + complexity b := by
  rw [complexity, complexity, complexity, countKeywords_append h]
  omega

/-- Words are the maximal runs of identifier characters. Where a text is cut between characters that
are not both of that kind, its words, its keywords and its branches are those of the two parts. -/
theorem words_addUp :
    (∀ cs, ListsRuns cs ((words cs).map Word.spot)) ∧
      ∀ a b : List Char, a.getLast?.any isIdent = false ∨ b.head?.any isIdent = false →
        (words (a ++ b)).map Word.spot =
            (words a).map Word.spot ++ (words b).map (fun w => (width a + w.start, w.text)) ∧
          (∀ keywords caseSensitive, countKeywords (a ++ b) keywords caseSensitive =
            countKeywords a keywords caseSensitive + countKeywords b keywords caseSensitive) ∧
          complexity (a ++ b) + 1 = complexity a + complexity b :=
  ⟨listsRuns_words, fun _ _ h =>
    ⟨map_spot_words_append h, countKeywords_append h, complexity_append h⟩⟩

/-- A cut between a word with a letter of two bytes and a sign. -/
theorem words_addUp_sign :
    let front := "if é_1".toList
    let back := "<b2 and c".toList
    (front.getLast?.any isIdent = false ∨ back.head?.any isIdent = false) ∧
      (8, "b2".toList) ∈ (words (front ++ back)).map Word.spot ∧
      complexity (front ++ back) + 1 = complexity front + complexity back := by
  intro front back
  have hcut : front.getLast?.any isIdent = false ∨ back.head?.any isIdent = false := by decide
  have hword : "b2".toList.all isIdent := by decide
  have hstands : StandsWhole (front ++ back) "if é_1<".toList "b2".toList " and c".toList :=
    ⟨by decide, by decide, List.all_eq_true.mp hword, by decide, by decide⟩
  obtain ⟨hruns, hparts⟩ := words_addUp
  exact ⟨hcut, ((hruns _).mem_iff ..).mpr ⟨_, _, hstands, by decide⟩, (hparts _ _ hcut).2.2⟩

end Pascal

end MigrationAudit
