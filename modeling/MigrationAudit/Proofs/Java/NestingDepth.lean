import MigrationAudit.Proofs.Java.Arguments
import MigrationAudit.Proofs.Java.Walks

/-!
# How deep types lie in each other

The depth at which a walk reads a scope is the number of recorded types around it, so the depth of a
type can be counted from the spans of a file alone. Types lie in at most as many others as may be
open. Those at the limit are read without their bodies, and they are noted, one by one and in order.
-/

namespace MigrationAudit

instance (a b : Text.Span) : Decidable (a.Encloses b) := inferInstanceAs (Decidable (_ ∧ _))

/-- Whether a note says that something is nested deeper than a number of levels. -/
def Diagnostic.notesDepth (levels : Nat) (d : Diagnostic) : Bool :=
  s!"' nests deeper than {levels} levels".toList.isSuffixOf d.reason.toList

namespace Java

open Text Source

/-- The number of other types of a list that a type lies in. -/
def nestingDepth (types : List ParsedType) (t : ParsedType) : Nat :=
  types.countP fun u => u ≠ t ∧ u.span.Encloses t.span

namespace ParsedType

def components (source : Masked) (t : ParsedType) : List Field :=
  (TypeHead.read source t.kind (.within source.code t.header.start t.header.stop)).fields

/-- A type without members, but for the components of a record. -/
structure IsBare (source : Masked) (t : ParsedType) : Prop where
  methods_eq : t.methods = []
  fields_eq : t.fields = t.components source
  fields_of_ne : t.kind ≠ .recordType → t.fields = []

/-- The note that a type is nested deeper than a number of levels. -/
def depthNote (path : String) (levels : Nat) (t : ParsedType) : Diagnostic :=
  .malformed path s!"type '{t.name}' nests deeper than {levels} levels" t.line

end ParsedType

/-! ## Notes -/

theorem notesDepth_depthNote (path : String) (levels : Nat) (t : ParsedType) :
    (t.depthNote path levels).notesDepth levels = true := by
  apply List.isSuffixOf_iff_suffix.mpr
  exact ⟨("type '" ++ t.name).toList, by simp [ParsedType.depthNote, Diagnostic.malformed, toString]⟩

theorem notesDepth_unclosed (w : Walk) (what : String) (name : List Char) (place : Nat)
    {delimiter : String} (hdelimiter : delimiter ∈ ["brace", "parenthesis"]) (levels : Nat) :
    (w.unclosed what name place delimiter).notesDepth levels = false := by
  rw [Bool.eq_false_iff]
  intro hnote
  have hlevels : "levels".toList <:+ (w.unclosed what name place delimiter).reason.toList := by
    refine List.IsSuffix.trans ?_ (List.isSuffixOf_iff_suffix.mp hnote)
    exact ⟨s!"' nests deeper than {levels} ".toList, by simp [toString]⟩
  have hword : delimiter.toList <:+ (w.unclosed what name place delimiter).reason.toList :=
    ⟨(what ++ " '" ++ String.ofList name ++ "' has no closing ").toList,
      by simp [Walk.unclosed, Diagnostic.malformed, toString]⟩
  have hends := List.suffix_or_suffix_of_suffix hlevels hword
  revert hends
  rcases List.mem_cons.mp hdelimiter with rfl | hdelimiter
  · decide
  · obtain rfl := List.mem_singleton.mp hdelimiter
    decide

theorem notesDepth_of_closed (w : Walk) (closed : Bool) (what : String) (name : List Char)
    (place : Nat) (levels : Nat) :
    ∀ note ∈ (if closed then [] else [w.unclosed what name place "brace"]),
      note.notesDepth levels = false := by
  cases closed
  · exact List.forall_mem_singleton.mpr (notesDepth_unclosed w what name place (by simp) levels)
  · exact List.forall_mem_nil _

/-! ## Steps -/

section Steps

variable {w : Walk} {c d behind : Cursor} {p : Prefix}

theorem fields_read_of_ne {kind : TypeKind} (h : kind ≠ .recordType) (m : Masked) (c : Cursor) :
    (TypeHead.read m kind c).fields = [] := by
  unfold TypeHead.read
  simp only
  split
  · exact absurd rfl h
  · rfl

/-- The text up to a place ahead is what the span up to there cuts out. -/
theorem upTo_eq_within {cs : List Char} (hc : c.StandsIn cs) (h : c.Leads d) :
    c.upTo d.offset = .within cs c.offset d.offset := by
  obtain ⟨moved, hafter, hd⟩ := h
  obtain ⟨beyond, hcs, hwidth⟩ := hc.exists_eq
  have hoffset : d.offset = width c.before.reverse + width moved := by
    rw [hd, Cursor.offset_advance, hwidth]
  rw [hcs, hafter, List.append_assoc, hoffset, ← hwidth, Cursor.within_eq, Cursor.upTo,
    List.reverse_reverse, hwidth, Nat.add_sub_cancel_left, hafter, takeBytes_width_append]

theorem isBare_of_readType {kind : TypeKind} {topLevel : Bool} {t : OpenType}
    (hd : d.StandsIn w.source.code) (h : readType w p kind topLevel c d = .type t behind) :
    t.parsed.IsBare w.source := by
  unfold readType at h
  split at h
  · cases h
  · next name hname =>
    obtain ⟨hfirst, hword⟩ := Cursor.leads_adjacentWord? hname
    have hname := hd.of_leads (hfirst.trans hword)
    have hhead := upTo_eq_within hname
      (leads_seekTop (fun a => a == '\x7b' || a == ';') name.behind)
    simp only at h
    split at h
    · cases h
    · cases h
    · cases h
      constructor
      case methods_eq => rfl
      case fields_eq => exact congrArg (fun c => (TypeHead.read w.source kind c).fields) hhead
      case fields_of_ne => exact fun hne => fields_read_of_ne hne _ _

theorem isBare_of_nextItem {owner : Option Owner} {t : OpenType} (hc : c.StandsIn w.source.code)
    (h : nextItem w owner c = .type t behind) : t.parsed.IsBare w.source := by
  obtain ⟨kind, topLevel, keyword, d, hkeyword, hd, hread⟩ := nextItem_eq_type h
  exact isBare_of_readType (hc.of_leads (hkeyword.trans hd)) hread

theorem notesDepth_of_readMember {o : Owner} {start : Cursor} {s : Scope}
    (h : readMember w o p start c = .members s behind) (levels : Nat) :
    ∀ note ∈ s.diagnostics, note.notesDepth levels = false := by
  unfold readMember at h
  simp only at h
  split at h
  · cases h
  · unfold readMethod at h
    split at h
    · cases h
    · simp only at h
      split at h
      · cases h
        exact List.forall_mem_singleton.mpr (notesDepth_unclosed _ _ _ _ (by simp) levels)
      · split at h
        · cases h
          exact notesDepth_of_closed w _ _ _ _ levels
        · cases h
          exact List.forall_mem_nil _
  · cases h
  · cases h
    exact List.forall_mem_nil _

theorem notesDepth_of_nextItem {owner : Option Owner} {s : Scope}
    (h : nextItem w owner c = .members s behind) (levels : Nat) :
    ∀ note ∈ s.diagnostics, note.notesDepth levels = false := by
  obtain ⟨o, -, hread⟩ := nextItem_eq_members h
  exact notesDepth_of_readMember hread levels

end Steps

/-! ## Scopes -/

/-- How a walk that lets types lie in `room` others lists the types of a scope and the notes on
them. -/
structure KeepsDepth (w : Walk) (room : Nat) (types : List ParsedType)
    (notes : List Diagnostic) : Prop where
  depth_le : ∀ t ∈ types, nestingDepth types t ≤ room
  bare : ∀ t ∈ types, nestingDepth types t = room → t.IsBare w.source
  innermost : ∀ t ∈ types, nestingDepth types t = room →
    ∀ u ∈ types, u ≠ t → ¬ t.span.Encloses u.span
  notes_eq : notes.filter (·.notesDepth w.maxDepth) =
    (types.filter fun t => nestingDepth types t = room).map (·.depthNote w.path w.maxDepth)

namespace KeepsDepth

variable {w : Walk} {room : Nat}

theorem nil {notes : List Diagnostic}
    (h : ∀ note ∈ notes, note.notesDepth w.maxDepth = false) : KeepsDepth w room [] notes := by
  constructor
  case notes_eq =>
    rw [List.filter_nil, List.map_nil, List.filter_eq_nil_iff]
    exact fun note hnote => by simp [h note hnote]
  all_goals simp

section Append

variable {types more : List ParsedType} {notes moreNotes : List Diagnostic}

theorem nestingDepth_append (types more : List ParsedType) (t : ParsedType) :
    nestingDepth (types ++ more) t = nestingDepth types t + nestingDepth more t :=
  List.countP_append

theorem nestingDepth_eq_zero {t : ParsedType} (h : ∀ u ∈ types, ¬ u.span.Encloses t.span) :
    nestingDepth types t = 0 :=
  List.countP_eq_zero.mpr fun u hu => by simp [h u hu]

/-- Types that do not lie in each other are counted apart. -/
theorem append (h : KeepsDepth w room types notes) (h' : KeepsDepth w room more moreNotes)
    (hapart : ∀ t ∈ types, ∀ u ∈ more, ¬ t.span.Encloses u.span ∧ ¬ u.span.Encloses t.span) :
    KeepsDepth w room (types ++ more) (notes ++ moreNotes) := by
  have hleft : ∀ t ∈ types, nestingDepth (types ++ more) t = nestingDepth types t := by
    intro t ht
    rw [nestingDepth_append, nestingDepth_eq_zero fun u hu => (hapart t ht u hu).2, Nat.add_zero]
  have hright : ∀ t ∈ more, nestingDepth (types ++ more) t = nestingDepth more t := by
    intro t ht
    rw [nestingDepth_append, nestingDepth_eq_zero fun u hu => (hapart u hu t ht).1, Nat.zero_add]
  constructor
  case depth_le =>
    rw [List.forall_mem_append]
    exact ⟨fun t ht => hleft t ht ▸ h.depth_le t ht, fun t ht => hright t ht ▸ h'.depth_le t ht⟩
  case bare =>
    rw [List.forall_mem_append]
    exact ⟨fun t ht hdepth => h.bare t ht (hleft t ht ▸ hdepth),
      fun t ht hdepth => h'.bare t ht (hright t ht ▸ hdepth)⟩
  case innermost =>
    simp only [List.forall_mem_append]
    refine ⟨fun t ht hdepth => ⟨h.innermost t ht (hleft t ht ▸ hdepth), fun u hu _ => ?_⟩,
      fun t ht hdepth => ⟨fun u hu _ => ?_, h'.innermost t ht (hright t ht ▸ hdepth)⟩⟩
    · exact (hapart t ht u hu).1
    · exact (hapart u hu t ht).2
  case notes_eq =>
    rw [List.filter_append, List.filter_append, List.map_append, h.notes_eq, h'.notes_eq]
    congr 2
    · exact List.filter_congr fun t ht => by rw [hleft t ht]
    · exact List.filter_congr fun t ht => by rw [hright t ht]

end Append

section Close

variable {t : OpenType} {topLevel : Bool} {c behind : Cursor} {inner : Scope}

/-- What lies in a type does not have it inside. -/
theorem not_encloses_withMembers (ht : t.Fits topLevel c behind)
    (hinner : inner.Fits t.body.offset t.body.limit) {u : ParsedType} (hu : u ∈ inner.types) :
    ¬ u.span.Encloses (t.withMembers inner).span := by
  intro henc
  have hbounds := hinner.types_bounds u hu
  exact absurd (hbounds.1.trans henc.1) (Nat.not_le.mpr ht.start_lt_body)

theorem nestingDepth_cons_self (types : List ParsedType) (t : ParsedType) :
    nestingDepth (t :: types) t = nestingDepth types t := by
  rw [nestingDepth, List.countP_cons_of_neg (by simp), ← nestingDepth]

theorem nestingDepth_cons_of_mem (ht : t.Fits topLevel c behind)
    (hinner : inner.Fits t.body.offset t.body.limit) {u : ParsedType} (hu : u ∈ inner.types) :
    nestingDepth (t.withMembers inner :: inner.types) u = nestingDepth inner.types u + 1 := by
  have hstart := ht.start_lt_body
  have hbounds := hinner.types_bounds u hu
  have hne : t.withMembers inner ≠ u := by
    rintro rfl
    exact absurd hbounds.1 (Nat.not_le.mpr hstart)
  have henc : (t.withMembers inner).span.Encloses u.span :=
    ⟨(hstart.trans_le hbounds.1).le, hbounds.2.2.trans ht.body_le_stop⟩
  rw [nestingDepth, List.countP_cons_of_pos (by simp [hne, henc]), ← nestingDepth]

theorem filter_unclosed (t : OpenType) (w : Walk) :
    (t.unclosed w).filter (·.notesDepth w.maxDepth) = [] := by
  rw [List.filter_eq_nil_iff]
  intro note hnote
  rw [notesDepth_of_closed w _ _ _ _ _ note hnote]
  exact Bool.false_ne_true

/-- A type that types may lie in. -/
theorem close {notes : List Diagnostic} (ht : t.Fits topLevel c behind)
    (hinner : inner.Fits t.body.offset t.body.limit)
    (h : KeepsDepth w room inner.types notes) :
    KeepsDepth w (room + 1) (t.withMembers inner :: inner.types) (t.unclosed w ++ notes) := by
  have hown : nestingDepth (t.withMembers inner :: inner.types) (t.withMembers inner) = 0 := by
    rw [nestingDepth_cons_self]
    exact nestingDepth_eq_zero fun u hu => not_encloses_withMembers ht hinner hu
  have hroom : nestingDepth (t.withMembers inner :: inner.types) (t.withMembers inner) ≠
      room + 1 := by
    rw [hown]
    exact (Nat.succ_ne_zero room).symm
  have hnested : ∀ u ∈ inner.types,
      nestingDepth (t.withMembers inner :: inner.types) u = nestingDepth inner.types u + 1 :=
    fun u hu => nestingDepth_cons_of_mem ht hinner hu
  have hlimit : ∀ u ∈ inner.types,
      nestingDepth (t.withMembers inner :: inner.types) u = room + 1 ↔
        nestingDepth inner.types u = room :=
    fun u hu => by rw [hnested u hu, Nat.add_right_cancel_iff]
  constructor
  case depth_le =>
    refine List.forall_mem_cons.mpr ⟨hown ▸ Nat.zero_le _, fun u hu => ?_⟩
    exact hnested u hu ▸ Nat.succ_le_succ (h.depth_le u hu)
  case bare =>
    refine List.forall_mem_cons.mpr ⟨fun heq => absurd heq hroom, fun u hu heq => ?_⟩
    exact h.bare u hu ((hlimit u hu).mp heq)
  case innermost =>
    refine List.forall_mem_cons.mpr ⟨fun heq => absurd heq hroom, fun u hu heq => ?_⟩
    exact List.forall_mem_cons.mpr ⟨fun _ => not_encloses_withMembers ht hinner hu,
      h.innermost u hu ((hlimit u hu).mp heq)⟩
  case notes_eq =>
    rw [List.filter_append, filter_unclosed, List.nil_append, h.notes_eq,
      List.filter_cons_of_neg (by simpa using hroom)]
    congr 1
    exact List.filter_congr fun u hu => decide_eq_decide.mpr (hlimit u hu).symm

/-- A type at the limit, whose body is not read. -/
theorem closeBare (hbare : t.parsed.IsBare w.source) (notes : List Diagnostic) :
    KeepsDepth w 0 [t.withMembers { diagnostics := notes }] (t.unclosed w ++ [t.tooDeep w]) := by
  have hfields : (t.withMembers { diagnostics := notes }).fields = t.parsed.fields :=
    List.append_nil _
  have hown : nestingDepth [t.withMembers { diagnostics := notes }]
      (t.withMembers { diagnostics := notes }) = 0 :=
    nestingDepth_cons_self [] _
  constructor
  case depth_le => exact List.forall_mem_singleton.mpr hown.le
  case bare =>
    refine List.forall_mem_singleton.mpr fun _ => ⟨rfl, ?_, ?_⟩
    · exact hfields.trans hbare.fields_eq
    · exact fun hne => hfields.trans (hbare.fields_of_ne hne)
  case innermost =>
    exact List.forall_mem_singleton.mpr fun _ => List.forall_mem_singleton.mpr
      fun hne => absurd rfl hne
  case notes_eq =>
    have hnote : (t.tooDeep w).notesDepth w.maxDepth = true :=
      notesDepth_depthNote w.path w.maxDepth t.parsed
    rw [List.filter_append, filter_unclosed, List.nil_append, List.filter_cons_of_pos hnote,
      List.filter_cons_of_pos (by simpa using hown)]
    rfl

end Close

end KeepsDepth

/-- The run: a scope leaves room for what the types around it leave of the limit. -/
theorem keepsDepth_readScope (w : Walk) (owner : Option Owner) (depth : Nat) (c : Cursor)
    (hdepth : depth ≤ w.maxDepth) (hc : c.StandsIn w.source.code) :
    KeepsDepth w (w.maxDepth - depth) (readScope w owner depth c).types
      (readScope w owner depth c).diagnostics := by
  fun_induction readScope w owner depth c with
  | case1 owner depth c hitem => exact .nil (List.forall_mem_nil _)
  | case2 owner depth c behind hitem ih =>
    have hfits := fits_nextItem w owner c
    rw [hitem] at hfits
    exact ih hdepth (hc.of_leads hfits)
  | case3 owner depth c s behind hitem ih =>
    have hfits := fits_nextItem w owner c
    rw [hitem] at hfits
    obtain ⟨hlead, htypes, -⟩ := hfits
    rw [Scope.types_append, htypes]
    exact KeepsDepth.append (.nil (notesDepth_of_nextItem hitem _)) (ih hdepth (hc.of_leads hlead))
      (List.forall_mem_nil _)
  | case4 owner depth c t behind hitem inner ih ih' =>
    have hfits := fits_nextItem w owner c
    have hbody := bodyStandsIn_nextItem (w := w) owner hc
    have hbare := isBare_of_nextItem hc hitem
    rw [hitem] at hfits hbody
    obtain ⟨hlead, ht⟩ := hfits
    have hmembers := t.leads_members
    have hinner : inner.Fits t.body.offset t.body.limit := by
      unfold inner
      split
      · exact .of_types_eq_nil .nil rfl
      · exact (fits_readScope ..).mono hmembers.offset_le hmembers.limit_eq.le
    have hclosed : KeepsDepth w (w.maxDepth - depth) (t.close w inner).types
        (t.close w inner).diagnostics := by
      rcases Nat.eq_or_lt_of_le hdepth with heq | hlt
      · rw [show inner = { diagnostics := [t.tooDeep w] } from if_pos (by omega), heq, Nat.sub_self]
        exact .closeBare hbare _
      · have hroom : w.maxDepth - depth = w.maxDepth - (depth + 1) + 1 := by omega
        rw [hroom]
        refine .close ht hinner ?_
        rw [show inner = readScope .. from if_neg (by omega)]
        exact ih hlt (hbody.of_leads hmembers)
    -- what stands behind the type is apart from it and from all that lies in it
    refine hclosed.append (ih' hdepth (hc.of_leads hlead)) fun u hu v hv => ?_
    have hu := (Scope.Fits.close ht hinner w).types_bounds u hu
    have hv := (fits_readScope w owner depth behind).types_bounds v hv
    unfold Span.Encloses
    omega

/-! ## Files -/

/-- No type of a file lies in more others than the limit allows. Those that lie in as many have no
members but the components of a record, and no type lies in them; the notes on depth are one for
each of them, in order. -/
theorem keepsDepth_readTypes (text : List Char) (path : String) (maxDepth : Nat) :
    KeepsDepth ⟨.of .java text, path, max 1 maxDepth⟩ (max 1 maxDepth)
      (readTypes (.of .java text) path maxDepth).1 (readTypes (.of .java text) path maxDepth).2 :=
  keepsDepth_readScope ⟨.of .java text, path, max 1 maxDepth⟩ none 0
    (.ofText (Masked.of .java text).code) (Nat.zero_le _) (Cursor.standsIn_ofText _)

end Java

end MigrationAudit
