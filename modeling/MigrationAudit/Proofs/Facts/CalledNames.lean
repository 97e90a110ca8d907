import MigrationAudit.Java.Declaration
import MigrationAudit.Pascal.RoutineTable
import MigrationAudit.Proofs.Text.Occurrences
import Mathlib.Data.List.Forall2
import Mathlib.Data.List.Nodup

/-!
# Names of calls

The names that a body calls are those of its words that count as calls, each once whatever its case,
spelled and ordered by the first call of each.
-/

namespace MigrationAudit

open Text

/-! ## First spellings -/

/-- Names that are pushed one by one are those of some of the members. Every member has the name of
one of these, which does not stand behind it. -/
theorem exists_firsts {β : Type} (name : β → String) {place : β → Nat} {bs : List β}
    (h : bs.Pairwise fun a b => place a < place b) :
    ∃ firsts : List β, firsts.Sublist bs ∧
      (bs.map name).foldl pushUnique [] = firsts.map name ∧
      (firsts.map fun f => (name f).toLower).Nodup ∧
      ∀ b ∈ bs, ∃ f ∈ firsts, (name f).toLower = (name b).toLower ∧ place f ≤ place b := by
  -- on the last member: names are pushed at the end, and its place is behind all others
  induction bs using List.reverseRecOn with
  | nil => exact ⟨[], .slnil, rfl, .nil, by simp⟩
  | append_singleton bs b ih =>
    obtain ⟨hbs, -, hlast⟩ := List.pairwise_append.mp h
    obtain ⟨firsts, hsub, hnames, hnodup, hfirst⟩ := ih hbs
    rw [List.map_append, List.foldl_append, hnames, List.map_singleton, List.foldl_cons,
      List.foldl_nil, pushUnique]
    split
    · next hholds =>
      obtain ⟨f, hf, hsame⟩ : ∃ f ∈ firsts, (name f).toLower = (name b).toLower := by
        simpa [holdsName] using hholds
      refine ⟨firsts, hsub.trans (List.sublist_append_left bs [b]), rfl, hnodup, fun c hc => ?_⟩
      rcases List.mem_append.mp hc with hc | hc
      · exact hfirst c hc
      · obtain rfl := List.mem_singleton.mp hc
        exact ⟨f, hf, hsame, (hlast f (hsub.subset hf) c List.mem_cons_self).le⟩
    · next hnew =>
      have hnew : ∀ f ∈ firsts, (name f).toLower ≠ (name b).toLower := by
        simpa [holdsName] using hnew
      refine ⟨firsts ++ [b], hsub.append_right [b], by simp, ?_, fun c hc => ?_⟩
      · rw [List.map_append, List.map_singleton, List.nodup_append]
        refine ⟨hnodup, List.pairwise_singleton _ _, ?_⟩
        simpa using hnew
      · rcases List.mem_append.mp hc with hc | hc
        · obtain ⟨f, hf, hrest⟩ := hfirst c hc
          exact ⟨f, List.mem_append_left _ hf, hrest⟩
        · obtain rfl := List.mem_singleton.mp hc
          exact ⟨c, List.mem_append_right _ List.mem_cons_self, rfl, le_rfl⟩

/-! ## Calls -/

/-- The first call of a name stands at byte `n` and is spelled like the name. -/
structure IsFirstCall (IsCall : List Char → List Char → List Char → Prop) (body : List Char)
    (name : String) (n : Nat) : Prop where
  stands : ∃ before after, StandsWhole body before name.toList after ∧
    IsCall before name.toList after ∧ width before = n
  first : ∀ before word after, StandsWhole body before word after → IsCall before word after →
    lowerLatin word = lowerLatin name.toList → n ≤ width before

/-- The names are those of the calls in a body: each once, in the order of their first calls. -/
structure ListsCalls (IsCall : List Char → List Char → List Char → Prop) (body : List Char)
    (names : List String) : Prop where
  nodup : (names.map String.toLower).Nodup
  inOrder : ∃ places : List Nat, List.Forall₂ (IsFirstCall IsCall body) names places ∧
    places.Pairwise (· < ·)
  complete : ∀ before word after, StandsWhole body before word after → IsCall before word after →
    ∃ name ∈ names, lowerLatin name.toList = lowerLatin word

def callsOf (isCall : Option Word → Word → Bool) (cs : List Char) : List Word :=
  ((precededWords cs).filter fun p => isCall p.1 p.2).map Prod.snd

theorem foldl_pushUnique_calls (isCall : Option Word → Word → Bool) (body : List Char) :
    (precededWords body).foldl
        (fun names (previous, w) =>
          if isCall previous w then pushUnique names (String.ofList w.text) else names)
        [] =
      ((callsOf isCall body).map fun w => String.ofList w.text).foldl pushUnique [] := by
  rw [callsOf, List.foldl_map, List.foldl_map, List.foldl_filter]

theorem map_snd_precededWords (cs : List Char) : (precededWords cs).map Prod.snd = words cs := by
  rw [precededWords, List.map_snd_zip]
  simp

theorem pairwise_callsOf (isCall : Option Word → Word → Bool) (body : List Char) :
    (callsOf isCall body).Pairwise fun v w => v.start < w.start := by
  have hwords : (words body).Pairwise fun v w => v.start < w.start := by
    have hspots := (spots_pairwise 0 body).1
    rwa [spots, List.pairwise_map] at hspots
  refine hwords.sublist ?_
  rw [← map_snd_precededWords, callsOf]
  exact List.filter_sublist.map _

/-- One pass over the words lists the calls, when it counts just those words as calls that are ones
by what stands around them. -/
theorem listsCalls_of {IsCall : List Char → List Char → List Char → Prop}
    (isCall : Option Word → Word → Bool) (body : List Char)
    (h : ∀ previous (w : Word), previous.map (·.text) = w.first.lastWord? →
      (isCall previous w = true ↔ IsCall w.first.before.reverse w.text w.behind.after)) :
    ListsCalls IsCall body
      ((precededWords body).foldl
        (fun names (previous, w) =>
          if isCall previous w then pushUnique names (String.ofList w.text) else names)
        []) := by
  have hcalls : ∀ w ∈ callsOf isCall body,
      StandsWhole body w.first.before.reverse w.text w.behind.after ∧
        IsCall w.first.before.reverse w.text w.behind.after ∧
        width w.first.before.reverse = w.start := by
    intro w hw
    obtain ⟨⟨previous, w⟩, hp, rfl⟩ := List.mem_map.mp hw
    obtain ⟨hp, hcall⟩ := List.mem_filter.mp hp
    have hmem : w ∈ words body := map_snd_precededWords body ▸ List.mem_map_of_mem hp
    exact ⟨standsWhole_of_mem_words hmem,
      (h previous w (lastWord?_of_mem_precededWords hp)).mp hcall, (start_of_mem_words hmem).symm⟩
  have hcalled : ∀ before word after, StandsWhole body before word after →
      IsCall before word after →
        ∃ w ∈ callsOf isCall body, w.text = word ∧ w.start = width before := by
    intro before word after hstands hcall
    obtain ⟨w, hmem, rfl, rfl, rfl⟩ := hstands.exists_mem_words
    obtain ⟨⟨previous, w⟩, hp, rfl⟩ := List.mem_map.mp (map_snd_precededWords body ▸ hmem)
    have hiff := h previous w (lastWord?_of_mem_precededWords hp)
    exact ⟨w, List.mem_map.mpr ⟨(previous, w), List.mem_filter.mpr ⟨hp, hiff.mpr hcall⟩, rfl⟩, rfl,
      start_of_mem_words hmem⟩
  obtain ⟨firsts, hsub, hnames, hnodup, hfirst⟩ :=
    exists_firsts (fun w : Word => String.ofList w.text) (pairwise_callsOf isCall body)
  rw [foldl_pushUnique_calls, hnames]
  refine ⟨?_, ⟨firsts.map Word.start, ?_, ?_⟩, ?_⟩
  · rwa [List.map_map]
  · rw [List.forall₂_map_left_iff, List.forall₂_map_right_iff, List.forall₂_same]
    intro f hf
    obtain ⟨hstands, hcall, hwidth⟩ := hcalls f (hsub.subset hf)
    refine ⟨⟨_, _, by rwa [String.toList_ofList], by rwa [String.toList_ofList], hwidth⟩, ?_⟩
    intro before word after hstands' hcall' hsame
    obtain ⟨w, hw, rfl, hstart⟩ := hcalled before word after hstands' hcall'
    obtain ⟨g, hg, hsame', hle⟩ := hfirst w hw
    -- of all members with the name, only one is among the first ones
    have heq : (String.ofList g.text).toLower = (String.ofList f.text).toLower := by
      rw [hsame', toLower_ofList, toLower_ofList, hsame, String.toList_ofList]
    obtain rfl := List.inj_on_of_nodup_map hnodup hg hf heq
    rwa [← hstart]
  · exact List.pairwise_map.mpr ((pairwise_callsOf isCall body).sublist hsub)
  · intro before word after hstands hcall
    obtain ⟨w, hw, rfl, -⟩ := hcalled before word after hstands hcall
    obtain ⟨f, hf, hsame, -⟩ := hfirst w hw
    refine ⟨_, List.mem_map_of_mem hf, ?_⟩
    rw [toLower_ofList, toLower_ofList, String.ofList_inj] at hsame
    rwa [String.toList_ofList]

/-! ## Calls of Pascal -/

namespace Pascal

/-- A statement starts behind a text: there is nothing in it, or its end is a semicolon or a word
behind which a statement starts. -/
inductive StatementStarts (before : List Char) : Prop
  | first (blank : ∀ a ∈ before, isBlank a = true)
  | semicolon (closes : ClosesWith before ';')
  | word {front word gap : List Char} (stands : StandsWhole before front word gap)
      (blank : ∀ a ∈ gap, isBlank a = true) (starter : lowered word ∈ statementStarters)

/-- A statement ends before a text: there is nothing in it, or its start is a semicolon or a word
before which a statement ends. -/
inductive StatementEnds (after : List Char) : Prop
  | last (blank : ∀ a ∈ after, isBlank a = true)
  | semicolon (leads : LeadsWith after ';')
  | word {gap word rest : List Char} (stands : StandsWhole after gap word rest)
      (blank : ∀ a ∈ gap, isBlank a = true) (closer : lowered word ∈ statementClosers)

/-- A word between two texts is a call: it has arguments, or it is a statement of its own. -/
structure IsCallIn (before word after : List Char) : Prop where
  unreserved : lowered word ∉ reservedWords
  noDigit : word.head?.any Char.isDigit = false
  undotted : ¬ ClosesWith before '.'
  called : LeadsWith after '(' ∨ StatementStarts before ∧ StatementEnds after

section

variable {previous : Option Word} {w : Word} {after : List Char}

theorem isOneOf_iff {names : List String} :
    w.isOneOf names = true ↔ lowered w.text ∈ names := List.contains_iff_mem

theorem startsStatement_iff (h : previous.map (·.text) = w.first.lastWord?) :
    startsStatement previous w = true ↔ StatementStarts w.first.before.reverse := by
  constructor
  · intro hstarts
    rw [startsStatement] at hstarts
    split at hstarts
    · next hnone => exact .first (Cursor.lastSignificant?_eq_none_iff.mp hnone)
    · next a hsome =>
      obtain ⟨-, hclose⟩ := Cursor.lastSignificant?_eq_some_iff.mp hsome
      rw [Bool.or_eq_true, Bool.and_eq_true, beq_iff_eq] at hstarts
      rcases hstarts with rfl | ⟨hident, hany⟩
      · exact .semicolon hclose
      · obtain ⟨p, rfl, hp⟩ := Option.any_eq_true _ _ |>.mp hany
        obtain ⟨front, gap, hstands, hgap⟩ := Cursor.lastWord?_eq_some_iff.mp h.symm
        exact .word hstands (hclose.forall_isBlank hident hstands.text_eq hgap) (isOneOf_iff.mp hp)
  · intro hstarts
    rw [startsStatement]
    cases hstarts with
    | first blank => rw [Cursor.lastSignificant?_eq_none_iff.mpr blank]
    | semicolon closes => rw [Cursor.lastSignificant?_eq_some_iff.mpr ⟨rfl, closes⟩]; rfl
    | word stands blank starter =>
      have hlast := Cursor.lastWord?_eq_some_iff.mpr
        ⟨_, _, stands, fun a ha => isIdent_of_isBlank a (blank a ha)⟩
      obtain ⟨p, rfl, rfl⟩ := Option.map_eq_some_iff.mp (h.trans hlast)
      obtain ⟨a, hident, hclose⟩ := stands.exists_closesWith blank
      rw [Cursor.lastSignificant?_eq_some_iff.mpr ⟨isBlank_of_isIdent hident, hclose⟩]
      simp [hident, isOneOf_iff.mpr starter]

theorem endsStatement_trimStart_iff :
    endsStatement (trimStart after) = true ↔ StatementEnds after := by
  constructor
  · intro hends
    cases htrim : trimStart after with
    | nil => exact .last (List.dropWhile_eq_nil_iff.mp htrim)
    | cons a rest =>
      rw [htrim, endsStatement, ← htrim, leadingWord?_trimStart, Bool.or_eq_true,
        beq_iff_eq] at hends
      rcases hends with rfl | hany
      · exact .semicolon ((head?_trimStart_iff rfl).mp (by rw [htrim]; rfl))
      · obtain ⟨⟨word, rest⟩, hword, hcloser⟩ := Option.any_eq_true _ _ |>.mp hany
        obtain ⟨gap, hstands, hgap⟩ := leadingWord?_eq_some_iff.mp hword
        exact .word hstands hgap (List.contains_iff_mem.mp hcloser)
  · intro hends
    cases htrim : trimStart after with
    | nil => rfl
    | cons a rest =>
      rw [endsStatement, ← htrim, leadingWord?_trimStart, Bool.or_eq_true, beq_iff_eq]
      cases hends with
      | last blank => simp [trimStart, List.dropWhile_eq_nil_iff.mpr blank] at htrim
      | semicolon leads =>
        left
        have hhead := (head?_trimStart_iff rfl).mpr leads
        simpa [htrim] using hhead
      | word stands blank closer =>
        right
        rw [leadingWord?_eq_some_iff.mpr ⟨_, stands, blank⟩]
        exact List.contains_iff_mem.mpr closer

theorem isCall_iff (h : previous.map (·.text) = w.first.lastWord?) :
    isCall previous w = true ↔ IsCallIn w.first.before.reverse w.text w.behind.after := by
  have hdot : w.first.lastSignificant? = some '.' ↔ ClosesWith w.first.before.reverse '.' :=
    Cursor.lastSignificant?_eq_some_iff.trans (and_iff_right rfl)
  have hparen : (trimStart w.behind.after).head? = some '(' ↔ LeadsWith w.behind.after '(' :=
    head?_trimStart_iff rfl
  have hword : (!w.isOneOf reservedWords) = true ↔ lowered w.text ∉ reservedWords := by
    rw [Bool.not_eq_true', ← Bool.not_eq_true, isOneOf_iff]
  simp only [isCall, Bool.and_eq_true, Bool.or_eq_true, hword, startsStatement_iff h,
    endsStatement_trimStart_iff, Word.startsWithDigit, bne_iff_ne, ne_eq, beq_iff_eq, hdot,
    hparen]
  constructor
  · rintro ⟨⟨⟨hunreserved, hdigit⟩, hundotted⟩, hcalled⟩
    exact ⟨hunreserved, by simpa using hdigit, hundotted, hcalled⟩
  · rintro ⟨hunreserved, hdigit, hundotted, hcalled⟩
    exact ⟨⟨⟨hunreserved, by simpa using hdigit⟩, hundotted⟩, hcalled⟩

theorem listsCalls_callHints (body : List Char) : ListsCalls IsCallIn body (callHints body) :=
  listsCalls_of isCall body fun _ _ h => isCall_iff h

end

end Pascal

/-! ## Calls of Java -/

namespace Java

/-- A word between two texts is a call: it has arguments, and nothing is made. -/
structure IsCallIn (before word after : List Char) : Prop where
  unreserved : String.ofList word ∉ reservedWords
  noDigit : word.head?.any Char.isDigit = false
  notNew : ¬ HasLastWord before "new".toList
  called : LeadsWith after '('

theorem isCall_iff {previous : Option Word} {w : Word}
    (h : previous.map (·.text) = w.first.lastWord?) :
    isCall previous w = true ↔ IsCallIn w.first.before.reverse w.text w.behind.after := by
  have hnew : (previous.any (·.text == "new".toList)) = true ↔
      HasLastWord w.first.before.reverse "new".toList := by
    rw [← Cursor.lastWord?_eq_some_iff, ← h]
    cases previous <;> simp
  have hparen : (trimStart w.behind.after).head? = some '(' ↔ LeadsWith w.behind.after '(' :=
    head?_trimStart_iff rfl
  have hword : (!reservedWords.contains (String.ofList w.text)) = true ↔
      String.ofList w.text ∉ reservedWords := by
    rw [Bool.not_eq_true', ← Bool.not_eq_true, List.contains_iff_mem]
  have hmade : (!previous.any (·.text == "new".toList)) = true ↔
      ¬ HasLastWord w.first.before.reverse "new".toList := by
    rw [Bool.not_eq_true', ← Bool.not_eq_true, hnew]
  simp only [isCall, Bool.and_eq_true, hword, hmade, Word.startsWithDigit, beq_iff_eq, hparen]
  constructor
  · rintro ⟨⟨⟨hunreserved, hnotNew⟩, hdigit⟩, hcalled⟩
    exact ⟨hunreserved, by simpa using hdigit, hnotNew, hcalled⟩
  · rintro ⟨hunreserved, hdigit, hnotNew, hcalled⟩
    exact ⟨⟨⟨hunreserved, hnotNew⟩, by simpa using hdigit⟩, hcalled⟩

theorem listsCalls_callHints (body : List Char) : ListsCalls IsCallIn body (callHints body) :=
  listsCalls_of isCall body fun _ _ h => isCall_iff h

end Java

/-- The names that a body calls are those of its calls, in either language. -/
theorem callHints_listsCalls (body : List Char) :
    ListsCalls Pascal.IsCallIn body (Pascal.callHints body) ∧
      ListsCalls Java.IsCallIn body (Java.callHints body) :=
  ⟨Pascal.listsCalls_callHints body, Java.listsCalls_callHints body⟩

example : Pascal.callHints "x := Sum(1); q.Open;".toList = ["Sum"] := by decide +kernel

example : Java.callHints "q.open(new Sum(1))".toList = ["open"] := by decide +kernel

end MigrationAudit
