import MigrationAudit.Text.Cursor
import Mathlib.Data.List.Basic

/-!
# Cursors in a text

A cursor may stand in a longer text than the one it reads to its end. Moving it forward keeps it in
that text, and the span that it moves over cuts out what it has moved over.
-/

namespace MigrationAudit.Text

theorem width_reverse (cs : List Char) : width cs.reverse = width cs := by
  induction cs with
  | nil => rfl
  | cons c cs ih => simp [width, ih, Nat.add_comm]

theorem width_pos {cs : List Char} (h : cs ≠ []) : 0 < width cs := by
  obtain ⟨c, cs, rfl⟩ := List.exists_cons_of_ne_nil h
  exact Nat.add_pos_left c.utf8Size_pos _

theorem takeBytes_width_append (a b : List Char) : takeBytes (width a) (a ++ b) = a := by
  induction a with
  | nil => simp [width, takeBytes]
  | cons c a ih =>
    obtain ⟨n, hn⟩ := Nat.exists_eq_succ_of_ne_zero (Nat.pos_iff_ne_zero.mp c.utf8Size_pos)
    have hrest : n + width a + 1 - c.utf8Size = width a := by omega
    rw [width, hn, Nat.succ_add, List.cons_append, takeBytes, hrest, ih]

theorem dropBytes_width_append (a b : List Char) : dropBytes (width a) (a ++ b) = b := by
  have h := takeBytes_append_dropBytes (width a) (a ++ b)
  rwa [takeBytes_width_append, List.append_cancel_left_eq] at h

/-- The span between what stands before a part of a text and what stands behind it is that part. -/
theorem Span.slice_width (front body back : List Char) :
    (Span.mk (width front) (width (front ++ body))).slice (front ++ (body ++ back)) = body := by
  rw [slice, length, width_append, Nat.add_sub_cancel_left, dropBytes_width_append,
    takeBytes_width_append]

@[simp] theorem takeBytes_zero (cs : List Char) : takeBytes 0 cs = [] := by
  cases cs <;> rfl

@[simp] theorem takeBytes_nil (n : Nat) : takeBytes n [] = [] := by
  cases n <;> rfl

theorem takeBytes_cons {n : Nat} (h : 0 < n) (c : Char) (cs : List Char) :
    takeBytes n (c :: cs) = c :: takeBytes (n - c.utf8Size) cs := by
  obtain ⟨m, rfl⟩ := Nat.exists_eq_succ_of_ne_zero (Nat.pos_iff_ne_zero.mp h)
  rfl

theorem takeBytes_append_of_le {n : Nat} {a : List Char} (h : n ≤ width a) (b : List Char) :
    takeBytes n (a ++ b) = takeBytes n a := by
  induction a generalizing n with
  | nil =>
    obtain rfl : n = 0 := Nat.le_zero.mp h
    simp
  | cons c a ih =>
    rcases Nat.eq_zero_or_pos n with rfl | hn
    · simp
    · have hrest : n - c.utf8Size ≤ width a := by
        rw [width] at h
        omega
      rw [List.cons_append, takeBytes_cons hn, takeBytes_cons hn, ih hrest]

@[simp] theorem dropBytes_zero (cs : List Char) : dropBytes 0 cs = cs := by
  cases cs <;> rfl

theorem dropBytes_cons {n : Nat} (h : 0 < n) (c : Char) (cs : List Char) :
    dropBytes n (c :: cs) = dropBytes (n - c.utf8Size) cs := by
  obtain ⟨m, rfl⟩ := Nat.exists_eq_succ_of_ne_zero (Nat.pos_iff_ne_zero.mp h)
  rfl

theorem dropBytes_eq_nil {n : Nat} {cs : List Char} (h : width cs ≤ n) : dropBytes n cs = [] := by
  induction cs generalizing n with
  | nil => cases n <;> rfl
  | cons c cs ih =>
    rw [width] at h
    rw [dropBytes_cons (Nat.lt_of_lt_of_le (Nat.add_pos_left c.utf8Size_pos _) h)]
    exact ih (by omega)

/-- What is left of a text that is cut off, behind its front, is cut off at the same place. -/
theorem dropBytes_width_takeBytes (a b : List Char) (n : Nat) :
    dropBytes (width a) (takeBytes n (a ++ b)) = takeBytes (n - width a) b := by
  induction a generalizing n with
  | nil => simp [width]
  | cons c a ih =>
    have hpos : 0 < width (c :: a) := Nat.add_pos_left c.utf8Size_pos _
    rcases Nat.eq_zero_or_pos n with rfl | hn
    · rw [takeBytes_zero, Nat.zero_sub, takeBytes_zero, dropBytes_eq_nil (Nat.zero_le _)]
    · rw [List.cons_append, takeBytes_cons hn, dropBytes_cons hpos, width,
        Nat.add_sub_cancel_left, ih, Nat.sub_sub]

theorem width_trim_le (cs : List Char) :
    width (cs.takeWhile isBlank) + width (trim cs) ≤ width cs := by
  have hstart := congrArg width (List.takeWhile_append_dropWhile (p := isBlank) (l := cs))
  have hend := congrArg width
    (List.takeWhile_append_dropWhile (p := isBlank) (l := (cs.dropWhile isBlank).reverse))
  simp only [width_append, width_reverse] at hstart hend
  rw [trim, trimWhere, dropEndWhile, width_reverse]
  omega

theorem prefix_of_width_le {a b x y : List Char} (h : a ++ x = b ++ y) (hle : width a ≤ width b) :
    a <+: b := by
  rcases List.prefix_or_prefix_of_prefix ⟨x, h⟩ ⟨y, rfl⟩ with hfront | ⟨m, rfl⟩
  · exact hfront
  · -- The other way round the longer one would be no wider, so both are the same.
    rw [width_append] at hle
    have hm : m = [] := by
      by_contra hne
      have := width_pos hne
      omega
    simp [hm]

/-- A position between two characters of a text, or at one of its ends. -/
def IsBoundary (cs : List Char) (n : Nat) : Prop := ∃ a b, cs = a ++ b ∧ width a = n

theorem IsBoundary.le_width {cs : List Char} {n : Nat} (h : IsBoundary cs n) : n ≤ width cs := by
  obtain ⟨a, b, rfl, rfl⟩ := h
  rw [width_append]
  exact Nat.le_add_right _ _

theorem exists_of_boundaries {cs : List Char} {start limit : Nat} (hstart : IsBoundary cs start)
    (hlimit : IsBoundary cs limit) (hle : start ≤ limit) :
    ∃ a m b, cs = a ++ (m ++ b) ∧ width a = start ∧ start + width m = limit := by
  obtain ⟨a, x, hx, ha⟩ := hstart
  obtain ⟨a', b, hb, ha'⟩ := hlimit
  obtain ⟨m, rfl⟩ : a <+: a' := prefix_of_width_le (hx.symm.trans hb) (by omega)
  refine ⟨a, m, b, by rw [hb, List.append_assoc], ha, ?_⟩
  rw [← ha', ← ha, width_append]

namespace Cursor

/-- The cursor stands in a text, which may go on where the cursor ends. -/
structure StandsIn (c : Cursor) (cs : List Char) : Prop where
  offset_eq : c.offset = width c.before
  text_prefix : c.text <+: cs

variable {c d : Cursor} {cs : List Char}

theorem StandsIn.of_leads (h : c.StandsIn cs) (hlead : c.Leads d) : d.StandsIn cs := by
  refine ⟨?_, hlead.text_eq ▸ h.text_prefix⟩
  obtain ⟨moved, -, heq⟩ := hlead
  rw [heq]
  simp [advance, List.reverseAux_eq, width_reverse, h.offset_eq, Nat.add_comm]

theorem standsIn_ofText (cs : List Char) : (ofText cs).StandsIn cs := ⟨rfl, List.prefix_rfl⟩

theorem StandsIn.exists_eq (h : c.StandsIn cs) :
    ∃ beyond, cs = c.before.reverse ++ (c.after ++ beyond) ∧ width c.before.reverse = c.offset := by
  obtain ⟨beyond, hbeyond⟩ := h.text_prefix
  refine ⟨beyond, ?_, by rw [width_reverse, h.offset_eq]⟩
  rw [← hbeyond, text, List.append_assoc]

theorem StandsIn.offset_lt (h : c.StandsIn cs) (hne : c.after ≠ []) : c.offset < width cs := by
  obtain ⟨beyond, hcs, hwidth⟩ := h.exists_eq
  have hpos := width_pos hne
  rw [hcs, width_append, width_append, hwidth]
  omega

theorem StandsIn.upTo (h : c.StandsIn cs) (limit : Nat) : (c.upTo limit).StandsIn cs := by
  refine ⟨h.offset_eq, .trans ?_ h.text_prefix⟩
  exact (List.prefix_append_right_inj _).mpr ⟨_, takeBytes_append_dropBytes _ _⟩

theorem standsIn_within (cs : List Char) (start stop : Nat) :
    (within cs start stop).StandsIn cs :=
  ((standsIn_ofText cs).of_leads (leads_seek ..)).upTo stop

theorem StandsIn.offset_le (h : c.StandsIn cs) : c.offset ≤ width cs := by
  obtain ⟨rest, hrest⟩ := h.text_prefix
  have hwidth := congrArg width hrest
  simp only [text, width_append, width_reverse] at hwidth
  rw [h.offset_eq]
  omega

/-- The span that is moved over cuts out the characters that are moved over. -/
theorem StandsIn.slice_eq {moved : List Char} (h : c.StandsIn cs)
    (hafter : c.after = moved ++ d.after) (hd : d = c.advance moved d.after) :
    (Span.mk c.offset d.offset).slice cs = moved := by
  obtain ⟨rest, hrest⟩ := h.text_prefix
  have hcs : cs = c.before.reverse ++ (moved ++ (d.after ++ rest)) := by
    rw [← hrest, text, hafter]
    simp
  have hoffset : c.offset = width c.before.reverse := by rw [width_reverse, h.offset_eq]
  have hlength : (Span.mk c.offset d.offset).length = width moved := by
    rw [hd]
    simp [Span.length]
  rw [Span.slice, hlength, hcs, hoffset, dropBytes_width_append, takeBytes_width_append]

theorem seek_ofText {a b : List Char} :
    (ofText (a ++ b)).seek (width a) = ⟨width a, a.reverse, b⟩ := by
  simp [seek, ofText, takeBytes_width_append, dropBytes_width_append, advance, List.reverseAux_eq]

theorem within_eq {a m b : List Char} :
    within (a ++ (m ++ b)) (width a) (width a + width m) = ⟨width a, a.reverse, m⟩ := by
  rw [within, seek_ofText]
  simp only [upTo, Nat.add_sub_cancel_left, takeBytes_width_append]

theorem offset_add_width_after (h : c.Leads d) :
    d.offset + width d.after = c.offset + width c.after := by
  obtain ⟨moved, hafter, hd⟩ := h
  rw [hafter, hd]
  simp [Nat.add_assoc]

end Cursor

end MigrationAudit.Text
