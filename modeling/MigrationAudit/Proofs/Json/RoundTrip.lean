import MigrationAudit.Json.Reader
import MigrationAudit.Json.Writer

/-!
# Reading what was written

The text of a tree on one line is read back as that tree, up to two things that the text does not
keep: what has no value is written as `null`, and a whole number beyond the range of doubles has no
value when it is read. Numbers that are not whole are left aside.
-/

namespace MigrationAudit.Json

/-! ## Trees and what is read for them -/

mutual

/-- The tree that is read from the text of a tree. -/
def reread : Json → Json
  | .noValue => .null
  | .int i =>
    if wholeBound ≤ i.natAbs && (ofWhole? i.natAbs).isNone then .noValue else .int i
  | .arr items => .arr (rereadItems items)
  | .obj entries => .obj (rereadEntries entries)
  | j => j

def rereadItems : List Json → List Json
  | [] => []
  | j :: js => reread j :: rereadItems js

def rereadEntries : List (String × Json) → List (String × Json)
  | [] => []
  | (key, j) :: rest => (key, reread j) :: rereadEntries rest

end

mutual

/-- Whether all numbers in a tree are whole. -/
def isWhole : Json → Bool
  | .real _ => false
  | .arr items => areWhole items
  | .obj entries => holdWhole entries
  | _ => true

def areWhole : List Json → Bool
  | [] => true
  | j :: js => isWhole j && areWhole js

def holdWhole : List (String × Json) → Bool
  | [] => true
  | (_, j) :: rest => isWhole j && holdWhole rest

end

theorem rereadItems_eq_map (items : List Json) : rereadItems items = items.map reread := by
  induction items with
  | nil => rfl
  | cons j js ih => rw [rereadItems, ih, List.map_cons]

theorem rereadEntries_eq_map (entries : List (String × Json)) :
    rereadEntries entries = entries.map fun e => (e.1, reread e.2) := by
  induction entries with
  | nil => rfl
  | cons e rest ih => rw [rereadEntries, ih, List.map_cons]

theorem areWhole_eq_all (items : List Json) : areWhole items = items.all isWhole := by
  induction items with
  | nil => rfl
  | cons j js ih => rw [areWhole, ih, List.all_cons]

theorem holdWhole_eq_all (entries : List (String × Json)) :
    holdWhole entries = entries.all fun e => isWhole e.2 := by
  induction entries with
  | nil => rfl
  | cons e rest ih => rw [holdWhole, ih, List.all_cons]

/-! ## Strings -/

abbrev drafted (read : List Char) : StringDraft := ⟨some read, none⟩

theorem push_drafted (read : List Char) (c : Char) : (drafted read).push c = drafted (c :: read) :=
  rfl

/-- One letter behind a backslash stands for each character that is escaped outside the controls. -/
theorem readString?_letter {e c : Char} (h : simpleEscape? e = some c) (read rest : List Char) :
    readString? (drafted read) ('\\' :: e :: rest) = readString? (drafted (c :: read)) rest := by
  have hu : e ≠ 'u' := by
    rintro rfl
    cases h
  rw [readString?]
  · rw [h]
    rfl
  · intro a b c d rest' hunit
    exact absurd hunit hu

theorem hexValue?_digitChar {d : Nat} (h : d < 16) : hexValue? (Nat.digitChar d) = some d := by
  have hall : ∀ d < 16, hexValue? (Nat.digitChar d) = some d := by decide
  exact hall d h

/-- Four digits stand for a character below the space. -/
theorem readString?_unit {n : Nat} (hn : n < 32) (read rest : List Char) :
    readString? (drafted read)
        ('\\' :: 'u' :: '0' :: '0' :: Nat.digitChar (n / 16) :: Nat.digitChar (n % 16) :: rest) =
      readString? (drafted (Char.ofNat n :: read)) rest := by
  have hhigh := hexValue?_digitChar (show n / 16 < 16 by omega)
  have hlow := hexValue?_digitChar (show n % 16 < 16 by omega)
  have hzero : hexValue? '0' = some 0 := by decide
  have hunit : unit? '0' '0' (Nat.digitChar (n / 16)) (Nat.digitChar (n % 16)) = some n := by
    simp only [unit?, hzero, hhigh, hlow, Option.bind_eq_bind, Option.bind_some, Option.some.injEq]
    omega
  have hplain : isSurrogate n = false := by
    simp only [isSurrogate, Bool.and_eq_false_iff, decide_eq_false_iff_not]
    left
    omega
  rw [readString?, hunit]
  simp only [StringDraft.pushUnit, hplain, Bool.false_eq_true, if_false, push_drafted]

theorem readString?_controlEscape {c : Char} (hc : c.toNat < 32) (read rest : List Char) :
    readString? (drafted read) (controlEscape c ++ rest) =
      readString? (drafted (c :: read)) rest := by
  unfold controlEscape
  split
  · exact readString?_letter rfl read rest
  · exact readString?_letter rfl read rest
  · exact readString?_letter rfl read rest
  · exact readString?_letter rfl read rest
  · exact readString?_letter rfl read rest
  · have h := readString?_unit hc read rest
    rwa [Char.ofNat_toNat] at h

theorem readString?_escape (c : Char) (read rest : List Char) :
    readString? (drafted read) (escape c ++ rest) = readString? (drafted (c :: read)) rest := by
  unfold escape
  by_cases hquote : c = '"'
  · subst hquote
    exact readString?_letter rfl read rest
  by_cases hslash : c = '\\'
  · subst hslash
    exact readString?_letter rfl read rest
  by_cases hcontrol : c.toNat < 32
  · simpa [hquote, hslash, hcontrol] using readString?_controlEscape hcontrol read rest
  · simp only [beq_iff_eq, hquote, hslash, hcontrol, if_false, List.cons_append, List.nil_append]
    rw [readString?]
    · simp [hslash, hcontrol, push_drafted]
    · exact hquote
    · intro a b c d rest' hunit
      exact absurd hunit hslash
    · intro c' rest' hletter
      exact absurd hletter hslash

theorem readString?_escapes (cs read rest : List Char) :
    readString? (drafted read) (cs.flatMap escape ++ '"' :: rest) =
      some (some (String.ofList (read.reverse ++ cs)), rest) := by
  induction cs generalizing read with
  | nil => simp [readString?, StringDraft.finish]
  | cons c cs ih =>
    rw [List.flatMap_cons, List.append_assoc, readString?_escape, ih]
    simp

theorem readString?_quote (s : String) (rest : List Char) :
    readString? {} (s.toList.flatMap escape ++ '"' :: rest) = some (some s, rest) := by
  have h := readString?_escapes s.toList [] rest
  simpa using h

/-! ## Numbers -/

/-- Texts behind a value: none, or one that goes on with a comma or a closing bracket. -/
def Follows (rest : List Char) : Prop := ∀ c ∈ rest.head?, c = ',' ∨ c = ']' ∨ c = '\x7d'

theorem follows_cons {c : Char} (h : c = ',' ∨ c = ']' ∨ c = '\x7d') (rest : List Char) :
    Follows (c :: rest) := by
  rintro c' ⟨⟩
  exact h

theorem spanDigits_append {digits rest : List Char} (hdigits : ∀ c ∈ digits, c.isDigit)
    (hrest : Follows rest) : spanDigits (digits ++ rest) = (digits, rest) := by
  have hend : rest.takeWhile Char.isDigit = [] ∧ rest.dropWhile Char.isDigit = rest := by
    cases rest with
    | nil => exact ⟨rfl, rfl⟩
    | cons c rest => obtain rfl | rfl | rfl := hrest c rfl <;> exact ⟨rfl, rfl⟩
  rw [spanDigits, List.takeWhile_append_of_pos hdigits, List.dropWhile_append_of_pos hdigits,
    hend.1, hend.2, List.append_nil]

theorem head?_toDigits_ne_zero {n : Nat} (h : 0 < n) : (Nat.toDigits 10 n).head? ≠ some '0' := by
  induction n using Nat.strongRecOn with
  | ind n ih =>
    rw [Nat.toDigits_eq_if (by decide)]
    split
    next hsmall =>
      have hall : ∀ d < 10, 0 < d → Nat.digitChar d ≠ '0' := by decide
      simpa using hall n hsmall h
    next hlarge =>
      have hhead := ih (n / 10) (by omega) (by omega)
      cases hdigits : Nat.toDigits 10 (n / 10) with
      | nil => exact absurd hdigits Nat.toDigits_ne_nil
      | cons c cs => rwa [hdigits] at hhead

/-- The digits of a number do not start with a zero that has digits behind it. -/
theorem toDigits_ne_zero_cons (n : Nat) (c : Char) (rest : List Char) :
    Nat.toDigits 10 n ≠ '0' :: c :: rest := by
  intro h
  rcases Nat.eq_zero_or_pos n with rfl | hn
  · cases h
  · apply head?_toDigits_ne_zero hn
    rw [h, List.head?_cons]

theorem foldl_digitValue_toDigits (n : Nat) :
    (Nat.toDigits 10 n).foldl (fun n c => n * 10 + digitValue c) 0 = n := by
  have h := Nat.ofDigitChars_ten_toDigits (n := n)
  rw [Nat.ofDigitChars_eq_foldl] at h
  simpa only [digitValue, Nat.mul_comm] using h

theorem readMagnitude?_toDigits (negative : Bool) (n : Nat) {rest : List Char}
    (hsign : n = 0 → negative = false) (h : Follows rest) :
    readMagnitude? negative (Nat.toDigits 10 n ++ rest) =
      some (reread (.int (if negative then -n else n)), rest) := by
  have hdigits : ∀ c ∈ Nat.toDigits 10 n, c.isDigit := fun c hc =>
    Nat.isDigit_of_mem_toDigits (by decide) (by decide) hc
  have hzero : (n == 0 && negative) = false := by
    cases negative <;> simp_all
  have habs : (if negative then -(n : Int) else n).natAbs = n := by
    cases negative <;> simp
  rw [readMagnitude?, spanDigits_append hdigits h]
  split
  next heq => exact absurd (Prod.mk.inj heq).1 Nat.toDigits_ne_nil
  next heq => exact absurd (Prod.mk.inj heq).1 (toDigits_ne_zero_cons n _ _)
  next heq =>
    obtain ⟨rfl, rfl⟩ := Prod.mk.inj heq
    split
    next => simpa using h '.' rfl
    next => simpa using h 'e' rfl
    next => simpa using h 'E' rfl
    next =>
      simp only [foldl_digitValue_toDigits, hzero, Bool.false_eq_true, if_false, reread, habs]
      split <;> rfl

theorem readNumber?_toString (i : Int) {rest : List Char} (h : Follows rest) :
    readNumber? ((toString i).toList ++ rest) = some (reread (.int i), rest) := by
  rw [Int.toString_eq_repr, Int.repr_eq_if]
  split
  next hpos =>
    have hread := readMagnitude?_toDigits false i.toNat (fun _ => rfl) h
    rw [if_neg Bool.false_ne_true, Int.toNat_of_nonneg hpos] at hread
    rw [Nat.toList_repr, readNumber?, hread]
    intro cs hcs
    cases hdigits : Nat.toDigits 10 i.toNat with
    | nil => exact absurd hdigits Nat.toDigits_ne_nil
    | cons c cs' =>
      rw [hdigits, List.cons_append] at hcs
      obtain ⟨rfl, -⟩ := List.cons.inj hcs
      have hminus : '-'.isDigit := by
        apply Nat.isDigit_of_mem_toDigits (by decide) (by decide : 10 ≤ 10)
        rw [hdigits]
        exact List.mem_cons_self
      exact absurd hminus (by decide)
  next hneg =>
    have hread := readMagnitude?_toDigits true (-i).toNat (by omega) h
    rw [if_pos rfl, Int.toNat_of_nonneg (by omega), Int.neg_neg] at hread
    simpa [readNumber?] using hread

/-! ## Trees -/

theorem skipSpace_cons {c : Char} (h : isSpace c = false) (cs : List Char) :
    skipSpace (c :: cs) = c :: cs := by
  rw [skipSpace, List.dropWhile_cons_of_neg (by simp [h])]

theorem toString_int_eq_cons (i : Int) :
    ∃ c cs, (toString i).toList = c :: cs ∧ (c.isDigit ∨ c = '-') := by
  have hdigits : ∀ n, ∃ c cs, Nat.toDigits 10 n = c :: cs ∧ c.isDigit := by
    intro n
    obtain ⟨c, cs, hcs⟩ := List.exists_cons_of_ne_nil (Nat.toDigits_ne_nil (n := n) (b := 10))
    refine ⟨c, cs, hcs, ?_⟩
    apply Nat.isDigit_of_mem_toDigits (by decide) (by decide : 10 ≤ 10)
    rw [hcs]
    exact List.mem_cons_self
  rw [Int.toString_eq_repr, Int.repr_eq_if]
  split
  · obtain ⟨c, cs, hcs, hc⟩ := hdigits i.toNat
    exact ⟨c, cs, by rw [Nat.toList_repr, hcs], .inl hc⟩
  · exact ⟨'-', Nat.toDigits 10 (-i).toNat, by simp, .inr rfl⟩

theorem ne_of_digit_or_sign {c d : Char} (hc : c.isDigit ∨ c = '-') (hd : d.isDigit = false)
    (hsign : d ≠ '-') : c ≠ d := by
  rintro rfl
  rcases hc with hc | hc
  · exact absurd hc (by simp [hd])
  · exact hsign hc

theorem isSpace_of_digit_or_sign {c : Char} (hc : c.isDigit ∨ c = '-') : isSpace c = false := by
  have hspace : c ≠ ' ' := ne_of_digit_or_sign hc rfl (by decide)
  have htab : c ≠ '\t' := ne_of_digit_or_sign hc rfl (by decide)
  have hnewline : c ≠ '\n' := ne_of_digit_or_sign hc rfl (by decide)
  have hreturn : c ≠ '\r' := ne_of_digit_or_sign hc rfl (by decide)
  simp [isSpace, hspace, htab, hnewline, hreturn]

/-- No text of a value starts with a space or with the end of a list. -/
theorem toList_compact_eq_cons {j : Json} (h : j.isWhole) :
    ∃ c cs, j.compact.toList = c :: cs ∧ isSpace c = false ∧ c ≠ ']' := by
  cases j with
  | null => exact ⟨'n', _, rfl, rfl, by decide⟩
  | noValue => exact ⟨'n', _, rfl, rfl, by decide⟩
  | bool b =>
    cases b
    · exact ⟨'f', _, rfl, rfl, by decide⟩
    · exact ⟨'t', _, rfl, rfl, by decide⟩
  | int i =>
    obtain ⟨c, cs, hcs, hc⟩ := toString_int_eq_cons i
    exact ⟨c, cs, by rw [compact, hcs], isSpace_of_digit_or_sign hc,
      ne_of_digit_or_sign hc rfl (by decide)⟩
  | real x => cases h
  | str s => exact ⟨'"', _, by simp [compact, quote]; rfl, rfl, by decide⟩
  | arr items => exact ⟨'[', _, by simp [compact]; rfl, rfl, by decide⟩
  | obj entries => exact ⟨'\x7b', _, by simp [compact]; rfl, rfl, by decide⟩

def itemsText (items : List Json) : List Char := (",".intercalate (compactItems items)).toList

def fieldsText (entries : List (String × Json)) : List Char :=
  (",".intercalate (compactEntries entries)).toList

theorem toList_compact_arr (items : List Json) :
    (compact (.arr items)).toList = '[' :: (itemsText items ++ [']']) := by
  rw [compact, String.toList_append, String.toList_append]
  rfl

theorem toList_compact_obj (entries : List (String × Json)) :
    (compact (.obj entries)).toList = '\x7b' :: (fieldsText entries ++ ['\x7d']) := by
  rw [compact, String.toList_append, String.toList_append]
  rfl

theorem toList_quote (s : String) (rest : List Char) :
    (quote s).toList ++ rest = '"' :: (s.toList.flatMap escape ++ '"' :: rest) := by
  rw [quote, String.toList_ofList, List.append_assoc]
  rfl

theorem itemsText_singleton (j : Json) : itemsText [j] = j.compact.toList := by
  rw [itemsText, compactItems, compactItems, String.intercalate_singleton]

theorem itemsText_cons_cons (j j' : Json) (js : List Json) :
    itemsText (j :: j' :: js) = j.compact.toList ++ ',' :: itemsText (j' :: js) := by
  rw [itemsText, compactItems, compactItems, String.intercalate_cons_cons, String.toList_append,
    String.toList_append, List.append_assoc]
  rfl

theorem fieldsText_singleton (key : String) (j : Json) :
    fieldsText [(key, j)] = (quote key).toList ++ ':' :: j.compact.toList := by
  rw [fieldsText, compactEntries, compactEntries, String.intercalate_singleton,
    String.toList_append, String.toList_append, List.append_assoc]
  rfl

theorem fieldsText_cons_cons (key : String) (j : Json) (e : String × Json)
    (es : List (String × Json)) :
    fieldsText ((key, j) :: e :: es) =
      (quote key).toList ++ ':' :: (j.compact.toList ++ ',' :: fieldsText (e :: es)) := by
  rw [fieldsText, compactEntries, compactEntries, String.intercalate_cons_cons,
    String.toList_append, String.toList_append, String.toList_append, String.toList_append]
  simp only [List.append_assoc]
  rfl

theorem itemsText_eq_cons {j : Json} (h : j.isWhole) (js : List Json) :
    ∃ c cs, itemsText (j :: js) = c :: cs ∧ isSpace c = false ∧ c ≠ ']' := by
  obtain ⟨c, cs, hcs, hc⟩ := toList_compact_eq_cons h
  cases js with
  | nil => exact ⟨c, cs, by rw [itemsText_singleton, hcs], hc⟩
  | cons j' js =>
    exact ⟨c, cs ++ ',' :: itemsText (j' :: js), by rw [itemsText_cons_cons, hcs]; rfl, hc⟩

theorem fieldsText_eq_cons (e : String × Json) (es : List (String × Json)) :
    ∃ cs, fieldsText (e :: es) = '"' :: cs := by
  cases es with
  | nil => exact ⟨_, by rw [fieldsText_singleton, toList_quote]⟩
  | cons e' es => exact ⟨_, by rw [fieldsText_cons_cons, toList_quote]⟩

theorem readValue?_int (fuel : Nat) (i : Int) {rest : List Char} (h : Follows rest) :
    readValue? (fuel + 1) ((toString i).toList ++ rest) = some (reread (.int i), rest) := by
  rw [← readNumber?_toString i h]
  obtain ⟨c, cs, hcs, hc⟩ := toString_int_eq_cons i
  rw [hcs, List.cons_append, readValue?, skipSpace_cons (isSpace_of_digit_or_sign hc)]
  split
  all_goals
    first
    | rfl
    | next heq =>
      exact absurd (List.cons.inj heq).1 (ne_of_digit_or_sign hc rfl (by decide))

theorem readValue?_quote (fuel : Nat) (s : String) (rest : List Char) :
    readValue? (fuel + 1) ((quote s).toList ++ rest) = some (.str s, rest) := by
  rw [toList_quote, readValue?, skipSpace_cons rfl]
  simp only [readString?_quote, Option.map_some, Option.elim_some]

theorem readValue?_bracket (fuel : Nat) {c : Char} (hspace : isSpace c = false) (hc : c ≠ ']')
    (cs : List Char) :
    readValue? (fuel + 1) ('[' :: c :: cs) =
      (readItems? fuel (c :: cs)).map fun (js, rest) => (.arr js, rest) := by
  rw [readValue?, skipSpace_cons rfl]
  simp only [skipSpace_cons hspace]
  split
  next heq => exact absurd (List.cons.inj heq).1 hc
  next => rfl

theorem readValue?_brace (fuel : Nat) (cs : List Char) :
    readValue? (fuel + 1) ('\x7b' :: '"' :: cs) =
      (readFields? fuel ('"' :: cs)).map fun (fields, rest) => (ofFields fields, rest) := by
  rw [readValue?, skipSpace_cons rfl]
  rfl

theorem ofFields_map_some (entries : List (String × Json)) :
    ofFields (entries.map fun e => (some e.1, e.2)) = .obj entries := by
  have h : ∀ entries : List (String × Json),
      (entries.map fun e => (some e.1, e.2)).mapM
        (fun field : Option String × Json => field.1.map (·, field.2)) = some entries := by
    intro entries
    induction entries with
    | nil => rfl
    | cons e entries ih => simp [ih]
  simp [ofFields, h]

mutual

/-- A value is read from in front of any text that may follow it. Each level takes two calls, and at
least as many characters. -/
theorem readValue?_compact (j : Json) (fuel : Nat) {rest : List Char} (hwhole : j.isWhole)
    (hfuel : 2 * j.compact.toList.length ≤ fuel) (h : Follows rest) :
    readValue? fuel (j.compact.toList ++ rest) = some (j.reread, rest) := by
  obtain ⟨fuel, rfl⟩ : ∃ n, fuel = n + 1 := by
    obtain ⟨c, cs, hcs, -⟩ := toList_compact_eq_cons hwhole
    rw [hcs, List.length_cons] at hfuel
    exact ⟨fuel - 1, by omega⟩
  cases j with
  | null => rfl
  | noValue => rfl
  | bool b => cases b <;> rfl
  | int i => exact readValue?_int fuel i h
  | real x => cases hwhole
  | str s => exact readValue?_quote fuel s rest
  | arr items =>
    cases items with
    | nil => rfl
    | cons j js =>
      rw [toList_compact_arr] at hfuel ⊢
      rw [List.length_cons, List.length_append, List.length_singleton] at hfuel
      have hitems := readItems?_compact (j :: js) fuel rest (by simp) hwhole (by omega)
      rw [isWhole, areWhole, Bool.and_eq_true] at hwhole
      -- no item begins with a space or a closing bracket, so the list does not look empty
      obtain ⟨c, cs, hcs, hspace, hc⟩ := itemsText_eq_cons hwhole.1 js
      rw [hcs] at hitems ⊢
      have hvalue := readValue?_bracket fuel hspace hc (cs ++ ']' :: rest)
      rw [List.cons_append] at hitems
      rw [hitems] at hvalue
      rw [List.cons_append, List.append_assoc]
      exact hvalue
  | obj entries =>
    cases entries with
    | nil => rfl
    | cons e es =>
      rw [toList_compact_obj] at hfuel ⊢
      rw [List.length_cons, List.length_append, List.length_singleton] at hfuel
      have hfields := readFields?_compact (e :: es) fuel rest (by simp) hwhole (by omega)
      obtain ⟨cs, hcs⟩ := fieldsText_eq_cons e es
      rw [hcs] at hfields ⊢
      have hvalue := readValue?_brace fuel (cs ++ '\x7d' :: rest)
      rw [List.cons_append] at hfields
      simp only [hfields, Option.map_some, ofFields_map_some] at hvalue
      rw [List.cons_append, List.append_assoc]
      exact hvalue

theorem readItems?_compact (items : List Json) (fuel : Nat) (rest : List Char) (hne : items ≠ [])
    (hwhole : areWhole items) (hfuel : 2 * (itemsText items).length + 1 ≤ fuel) :
    readItems? fuel (itemsText items ++ ']' :: rest) = some (rereadItems items, rest) := by
  obtain ⟨fuel, rfl⟩ : ∃ n, fuel = n + 1 := ⟨fuel - 1, by omega⟩
  rcases items with _ | ⟨j, _ | ⟨j', js⟩⟩
  · exact absurd rfl hne
  · rw [areWhole, Bool.and_eq_true] at hwhole
    rw [itemsText_singleton] at hfuel ⊢
    have hvalue := readValue?_compact j fuel hwhole.1 (by omega)
      (follows_cons (.inr (.inl rfl)) rest)
    rw [readItems?, hvalue]
    rfl
  · rw [areWhole, Bool.and_eq_true] at hwhole
    rw [itemsText_cons_cons] at hfuel ⊢
    rw [List.length_append, List.length_cons] at hfuel
    have hvalue := readValue?_compact j fuel hwhole.1 (by omega)
      (follows_cons (.inl rfl) (itemsText (j' :: js) ++ ']' :: rest))
    have hitems := readItems?_compact (j' :: js) fuel rest (by simp) hwhole.2 (by omega)
    rw [List.append_assoc, List.cons_append, readItems?, hvalue]
    simp only [skipSpace_cons (show isSpace ',' = false from rfl), hitems, Option.map_some]
    rfl

theorem readFields?_compact (entries : List (String × Json)) (fuel : Nat) (rest : List Char)
    (hne : entries ≠ []) (hwhole : holdWhole entries)
    (hfuel : 2 * (fieldsText entries).length + 1 ≤ fuel) :
    readFields? fuel (fieldsText entries ++ '\x7d' :: rest) =
      some ((rereadEntries entries).map (fun e => (some e.1, e.2)), rest) := by
  obtain ⟨fuel, rfl⟩ : ∃ n, fuel = n + 1 := ⟨fuel - 1, by omega⟩
  rcases entries with _ | ⟨⟨key, j⟩, _ | ⟨e, es⟩⟩
  · exact absurd rfl hne
  · rw [holdWhole, Bool.and_eq_true] at hwhole
    rw [fieldsText_singleton] at hfuel ⊢
    rw [List.length_append, List.length_cons] at hfuel
    have hvalue := readValue?_compact j fuel hwhole.1 (by omega)
      (follows_cons (.inr (.inr rfl)) rest)
    rw [List.append_assoc, toList_quote, readFields?,
      skipSpace_cons (show isSpace '"' = false from rfl)]
    simp only [readString?_quote, List.cons_append, hvalue,
      skipSpace_cons (show isSpace ':' = false from rfl)]
    rfl
  · rw [holdWhole, Bool.and_eq_true] at hwhole
    rw [fieldsText_cons_cons] at hfuel ⊢
    rw [List.length_append, List.length_cons, List.length_append, List.length_cons] at hfuel
    have hvalue := readValue?_compact j fuel hwhole.1 (by omega)
      (follows_cons (.inl rfl) (fieldsText (e :: es) ++ '\x7d' :: rest))
    have hfields := readFields?_compact (e :: es) fuel rest (by simp) hwhole.2 (by omega)
    rw [List.append_assoc, toList_quote, readFields?,
      skipSpace_cons (show isSpace '"' = false from rfl)]
    simp only [readString?_quote, List.cons_append, List.append_assoc, hvalue,
      skipSpace_cons (show isSpace ':' = false from rfl),
      skipSpace_cons (show isSpace ',' = false from rfl), hfields, Option.map_some]
    rfl

end

/-- The text of a tree on one line is read back, up to what the text does not keep. -/
theorem tree?_compact {j : Json} (h : j.isWhole) : tree? j.compact = some j.reread := by
  have hend : Follows [] := by
    rintro c ⟨⟩
  have hvalue := readValue?_compact j (2 * j.compact.toList.length + 2) h (by omega) hend
  rw [List.append_nil] at hvalue
  simp only [tree?, hvalue]
  rfl

end MigrationAudit.Json
