/-
# Outlines read back from a line

The compact text of an outline shows its whole structure, as long as the words in it are words and
all other text stands between quotes.  Behind the word that an outline begins with stands the mark
that tells its form; the parts follow one by one, and each of them can be read off in front of what
comes behind it.

The main facts are `Outline.Readable.compact_append_inj` and `Outline.Readable.onOneLine`.
-/
import ExprFront.Listing.Outline
import ExprFront.Proofs.Listing.Escaped

namespace ExprFront
namespace Outline

/-! ## Words -/

/-- Letters and underscores. -/
def isWordChar (c : Char) : Bool := c.isAlpha || c == '_'

/-- A word of an outline: letters and underscores, and at least one of them. -/
def IsWord (text : String) : Prop :=
  text.toList ≠ [] ∧ ∀ c ∈ text.toList, isWordChar c = true

instance (text : String) : Decidable (IsWord text) :=
  haveI := List.decidableBAll (fun c => isWordChar c = true) text.toList
  instDecidableAnd

/-- Nothing that begins with a word begins with a character of another class. -/
theorem IsWord.append_ne {text : String} (h : IsWord text) {c : Char} (hc : isWordChar c = false)
    (u v : List Char) : text.toList ++ u ≠ c :: v := by
  intro heq
  obtain ⟨d, rest, htext⟩ := List.exists_cons_of_ne_nil h.1
  rw [htext, List.cons_append] at heq
  obtain ⟨rfl, -⟩ := List.cons.inj heq
  rw [h.2 d (htext ▸ List.mem_cons_self)] at hc
  cases hc

/-- A word can be read off up to a character of another class. -/
theorem IsWord.append_cons_inj {s t : String} (hs : IsWord s) (ht : IsWord t) {c : Char}
    (hc : isWordChar c = false) {u v : List Char}
    (h : s.toList ++ c :: u = t.toList ++ c :: v) : s = t ∧ u = v := by
  obtain ⟨htext, hrest⟩ := ExprFront.append_cons_inj hs.2 ht.2 hc h
  exact ⟨String.toList_inj.1 htext, hrest⟩

/-- A word is on one line. -/
theorem IsWord.onOneLine {text : String} (h : IsWord text) : OnOneLine text.toList :=
  onOneLine_of_class h.2 (by decide)

/-! ## Readable outlines -/

/-- The words in the outline are words, and whatever else it shows stands between quotes. -/
inductive Readable : Outline → Prop
  | word {text : String} (h : IsWord text) : Readable (.atom text)
  | quoted (value : String) : Readable (.atom (Escaped.quote value))
  | wrapper {name : String} {inner : Outline} (hname : IsWord name) (h : Readable inner) :
      Readable (.wrapper name inner)
  | record {name : String} {fields : List (String × Outline)} (hname : IsWord name)
      (hlabel : ∀ f ∈ fields, IsWord f.1) (h : ∀ f ∈ fields, Readable f.2) :
      Readable (.record name fields)
  | sequence {items : List Outline} (h : ∀ o ∈ items, Readable o) : Readable (.sequence items)

/-- The mark that opens the parts of an outline. -/
def mark? : Outline → Option Char
  | .atom _ => none
  | .wrapper _ _ => some '('
  | .record _ _ => some '\x7b'
  | .sequence _ => some '['

/-- The mark that a text opens with. -/
def opening? : List Char → Option Char
  | '(' :: _ => some '('
  | ' ' :: '\x7b' :: _ => some '\x7b'
  | '[' :: _ => some '['
  | _ => none

/-- What may stand behind an outline: it neither goes on with a word nor opens anything. -/
structure Ends (rest : List Char) : Prop where
  stops : Stops isWordChar rest
  opening : opening? rest = none

/-! ## Parts -/

section Parts

variable {α : Type} (write : α → List Char) (rest : List Char)

/-- Parts behind the first one, each with a comma before it, and the text behind them. -/
def furtherParts : List α → List Char
  | [] => rest
  | a :: l => ',' :: ' ' :: (write a ++ furtherParts l)

/-- Parts with commas between them, and the text behind them. -/
def parts : List α → List Char
  | [] => rest
  | a :: l => write a ++ furtherParts write rest l

variable {write rest} {l m : List α} {u v : List Char}

/-- What stands behind a part may stand there. -/
theorem ends_furtherParts (h : Ends rest) (l : List α) : Ends (furtherParts write rest l) := by
  cases l with
  | nil => exact h
  | cons a l => exact ⟨stops_cons.2 rfl, rfl⟩

/-- What each of the parts is can be read off in front of whatever may stand there. -/
def ReadOff (write : α → List Char) (l m : List α) : Prop :=
  ∀ a ∈ l, ∀ b ∈ m, ∀ u v, Ends u → Ends v → write a ++ u = write b ++ v → a = b ∧ u = v

/-- So can those behind the first ones. -/
theorem ReadOff.tail {a b : α} (h : ReadOff write (a :: l) (b :: m)) : ReadOff write l m :=
  fun x hx y hy => h x (List.mem_cons_of_mem _ hx) y (List.mem_cons_of_mem _ hy)

/-- Further parts can be read off up to a text that does not begin with a comma. -/
theorem furtherParts_inj (h : ReadOff write l m) (hu : Ends u) (hv : Ends v)
    (hcomma : u.head? ≠ some ',' ∧ v.head? ≠ some ',')
    (heq : furtherParts write u l = furtherParts write v m) : l = m ∧ u = v := by
  induction l generalizing m with
  | nil =>
      cases m with
      | nil => exact ⟨rfl, heq⟩
      | cons b m => exact absurd (congrArg List.head? heq) hcomma.1
  | cons a l ih =>
      cases m with
      | nil => exact absurd (congrArg List.head? heq).symm hcomma.2
      | cons b m =>
          have hparts := (List.cons.inj (List.cons.inj heq).2).2
          obtain ⟨rfl, hrest⟩ := h a List.mem_cons_self b List.mem_cons_self _ _
            (ends_furtherParts hu l) (ends_furtherParts hv m) hparts
          obtain ⟨rfl, hbehind⟩ := ih h.tail hrest
          exact ⟨rfl, hbehind⟩

/-- **Parts can be read off one by one**, up to a text that begins neither like one of them nor with
a comma. -/
theorem parts_inj (h : ReadOff write l m) (hu : Ends u) (hv : Ends v)
    (hcomma : u.head? ≠ some ',' ∧ v.head? ≠ some ',')
    (hl : ∀ a ∈ l, ∀ w, write a ++ w ≠ v) (hm : ∀ b ∈ m, ∀ w, write b ++ w ≠ u)
    (heq : parts write u l = parts write v m) : l = m ∧ u = v := by
  cases l with
  | nil =>
      cases m with
      | nil => exact ⟨rfl, heq⟩
      | cons b m => exact absurd heq.symm (hm b List.mem_cons_self _)
  | cons a l =>
      cases m with
      | nil => exact absurd heq (hl a List.mem_cons_self _)
      | cons b m =>
          obtain ⟨rfl, hrest⟩ := h a List.mem_cons_self b List.mem_cons_self _ _
            (ends_furtherParts hu l) (ends_furtherParts hv m) heq
          obtain ⟨rfl, hbehind⟩ := furtherParts_inj h.tail hu hv hcomma hrest
          exact ⟨rfl, hbehind⟩

/-- Further parts are on one line if each of them is. -/
theorem onOneLine_furtherParts (h : ∀ a ∈ l, OnOneLine (write a)) (hrest : OnOneLine rest) :
    OnOneLine (furtherParts write rest l) := by
  induction l with
  | nil => exact hrest
  | cons a l ih =>
      have hcomma : OnOneLine [',', ' '] := by decide
      have htail := ih fun x hx => h x (List.mem_cons_of_mem _ hx)
      exact hcomma.append ((h a List.mem_cons_self).append htail)

/-- Parts are on one line if each of them is. -/
theorem onOneLine_parts (h : ∀ a ∈ l, OnOneLine (write a)) (hrest : OnOneLine rest) :
    OnOneLine (parts write rest l) := by
  cases l with
  | nil => exact hrest
  | cons a l =>
      have htail := onOneLine_furtherParts (fun x hx => h x (List.mem_cons_of_mem _ hx)) hrest
      exact (h a List.mem_cons_self).append htail

end Parts

/-! ## The text of an outline -/

/-- A labelled value. -/
def writeField (f : String × Outline) : List Char :=
  f.1.toList ++ ':' :: ' ' :: f.2.compact.toList

/-- A wrapper is its name and the inner text between parentheses. -/
theorem toList_wrapper_append (name : String) (inner : Outline) (u : List Char) :
    (wrapper name inner).compact.toList ++ u =
      name.toList ++ '(' :: (inner.compact.toList ++ ')' :: u) := by
  simp [compact]

/-- The fields of a record are its parts. -/
theorem toList_compactFields_append (fields : List (String × Outline)) (u : List Char) :
    (compactFields fields).toList ++ u = parts writeField u fields := by
  induction fields with
  | nil => rfl
  | cons f fields ih =>
      cases fields with
      | nil => simp [compactFields, parts, furtherParts, writeField]
      | cons g fields =>
          have hfurther : furtherParts writeField u (g :: fields) =
              ',' :: ' ' :: ((compactFields (g :: fields)).toList ++ u) := by
            rw [ih]
            rfl
          simp [compactFields, parts, hfurther, writeField]

/-- A record is its name and the fields between braces. -/
theorem toList_record_append (name : String) (fields : List (String × Outline)) (u : List Char) :
    (record name fields).compact.toList ++ u =
      name.toList ++ ' ' :: '\x7b' :: ' ' :: parts writeField (' ' :: '\x7d' :: u) fields := by
  rw [← toList_compactFields_append]
  simp [compact]

/-- The items of a sequence are its parts. -/
theorem toList_compactItems_append (items : List Outline) (u : List Char) :
    (compactItems items).toList ++ u = parts (·.compact.toList) u items := by
  induction items with
  | nil => rfl
  | cons o items ih =>
      cases items with
      | nil => simp [compactItems, parts, furtherParts]
      | cons p items =>
          have hfurther : furtherParts (·.compact.toList) u (p :: items) =
              ',' :: ' ' :: ((compactItems (p :: items)).toList ++ u) := by
            rw [ih]
            rfl
          simp [compactItems, parts, hfurther]

/-- A sequence is its items between brackets. -/
theorem toList_sequence_append (items : List Outline) (u : List Char) :
    (sequence items).compact.toList ++ u = '[' :: parts (·.compact.toList) (']' :: u) items := by
  rw [← toList_compactItems_append]
  simp [compact]

/-! ## Reading back -/

/-- A labelled value begins with its label. -/
theorem writeField_append_ne {f : String × Outline} (hf : IsWord f.1) {c : Char}
    (hc : isWordChar c = false) {v : List Char} (w : List Char) : writeField f ++ w ≠ c :: v := by
  rw [writeField, List.append_assoc]
  exact hf.append_ne hc _ v

/-- A labelled value can be read off if the value can. -/
theorem writeField_inj {f g : String × Outline} {u v : List Char} (hf : IsWord f.1)
    (hg : IsWord g.1)
    (hvalue : f.2.compact.toList ++ u = g.2.compact.toList ++ v → f.2 = g.2 ∧ u = v)
    (h : writeField f ++ u = writeField g ++ v) : f = g ∧ u = v := by
  simp only [writeField, List.append_assoc, List.cons_append] at h
  obtain ⟨hlabel, hrest⟩ := hf.append_cons_inj hg rfl h
  obtain ⟨hsame, hbehind⟩ := hvalue (List.cons.inj hrest).2
  exact ⟨Prod.ext hlabel hsame, hbehind⟩

namespace Readable

/-- A readable outline begins with a word, with a quote or with a bracket. -/
theorem append_ne {o : Outline} (h : Readable o) {c : Char} (hc : isWordChar c = false)
    (hquote : c ≠ '"') (hbracket : c ≠ '[') (u v : List Char) :
    o.compact.toList ++ u ≠ c :: v := by
  cases h with
  | word hword => exact hword.append_ne hc u v
  | quoted value =>
      rw [compact, Escaped.toList_quote_append]
      exact fun heq => hquote (List.cons.inj heq).1.symm
  | wrapper hname =>
      rw [toList_wrapper_append]
      exact hname.append_ne hc _ v
  | record hname =>
      rw [toList_record_append]
      exact hname.append_ne hc _ v
  | sequence =>
      rw [toList_sequence_append]
      exact fun heq => hbracket (List.cons.inj heq).1.symm

/-- **The form of an outline is told by the mark behind its word.** -/
theorem opening?_dropWhile {o : Outline} (h : Readable o) {u : List Char} (hu : Ends u) :
    opening? ((o.compact.toList ++ u).dropWhile isWordChar) = o.mark? := by
  cases h with
  | word hword =>
      rw [compact, dropWhile_append_of_stops hword.2 hu.stops]
      exact hu.opening
  | quoted value =>
      rw [compact, Escaped.toList_quote_append]
      rfl
  | wrapper hname =>
      rw [toList_wrapper_append, dropWhile_append_of_stops hname.2 (stops_cons.2 rfl)]
      rfl
  | record hname =>
      rw [toList_record_append, dropWhile_append_of_stops hname.2 (stops_cons.2 rfl)]
      rfl
  | sequence =>
      rw [toList_sequence_append]
      rfl

/-- Readable outlines that the same text begins with are of one form. -/
theorem mark?_eq {a b : Outline} (ha : Readable a) (hb : Readable b) {u v : List Char}
    (hu : Ends u) (hv : Ends v) (h : a.compact.toList ++ u = b.compact.toList ++ v) :
    a.mark? = b.mark? := by
  rw [← ha.opening?_dropWhile hu, h, hb.opening?_dropWhile hv]

/-- **A readable outline can be read back from its compact text**, whatever stands behind it. -/
theorem compact_append_inj {a b : Outline} (ha : Readable a) (hb : Readable b) {u v : List Char}
    (hu : Ends u) (hv : Ends v) (h : a.compact.toList ++ u = b.compact.toList ++ v) :
    a = b ∧ u = v := by
  induction ha generalizing b u v with
  | word hword =>
      have hmark := mark?_eq (.word hword) hb hu hv h
      cases hb with
      | word hword' =>
          obtain ⟨htext, hrest⟩ := append_inj_of_stops hword.2 hword'.2 hu.stops hv.stops h
          exact ⟨congrArg atom (String.toList_inj.1 htext), hrest⟩
      | quoted value =>
          rw [compact, compact, Escaped.toList_quote_append] at h
          exact absurd h (hword.append_ne rfl _ _)
      | _ => cases hmark
  | quoted value =>
      have hmark := mark?_eq (.quoted value) hb hu hv h
      cases hb with
      | word hword' =>
          rw [compact, compact, Escaped.toList_quote_append] at h
          exact absurd h.symm (hword'.append_ne rfl _ _)
      | quoted value' =>
          obtain ⟨rfl, hrest⟩ := Escaped.quote_append_inj h
          exact ⟨rfl, hrest⟩
      | _ => cases hmark
  | wrapper hname hinner ih =>
      have hmark := mark?_eq (.wrapper hname hinner) hb hu hv h
      cases hb with
      | wrapper hname' hinner' =>
          rw [toList_wrapper_append, toList_wrapper_append] at h
          obtain ⟨rfl, hrest⟩ := hname.append_cons_inj hname' rfl h
          have hends (w : List Char) : Ends (')' :: w) := ⟨stops_cons.2 rfl, rfl⟩
          obtain ⟨rfl, hbehind⟩ := ih hinner' (hends u) (hends v) hrest
          exact ⟨rfl, (List.cons.inj hbehind).2⟩
      | _ => cases hmark
  | record hname hlabel hvalue ih =>
      have hmark := mark?_eq (.record hname hlabel hvalue) hb hu hv h
      cases hb with
      | record hname' hlabel' hvalue' =>
          rw [toList_record_append, toList_record_append] at h
          obtain ⟨rfl, hrest⟩ := hname.append_cons_inj hname' rfl h
          have hread : ReadOff writeField _ _ := fun f hf g hg u v hu hv =>
            writeField_inj (hlabel f hf) (hlabel' g hg) (ih f hf (hvalue' g hg) hu hv)
          have hends (w : List Char) : Ends (' ' :: '\x7d' :: w) := ⟨stops_cons.2 rfl, rfl⟩
          have hparts := (List.cons.inj (List.cons.inj hrest).2).2
          obtain ⟨rfl, hbehind⟩ := parts_inj hread (hends u) (hends v) (by simp)
            (fun f hf => writeField_append_ne (hlabel f hf) rfl)
            (fun g hg => writeField_append_ne (hlabel' g hg) rfl) hparts
          exact ⟨rfl, (List.cons.inj (List.cons.inj hbehind).2).2⟩
      | _ => cases hmark
  | sequence hitem ih =>
      have hmark := mark?_eq (.sequence hitem) hb hu hv h
      cases hb with
      | sequence hitem' =>
          rw [toList_sequence_append, toList_sequence_append] at h
          have hread : ReadOff (fun o : Outline => o.compact.toList) _ _ :=
            fun o ho p hp u v hu hv => ih o ho (hitem' p hp) hu hv
          have hends (w : List Char) : Ends (']' :: w) := ⟨stops_cons.2 rfl, rfl⟩
          have hfirst {o : Outline} (ho : Readable o) (w x : List Char) :
              o.compact.toList ++ w ≠ ']' :: x := ho.append_ne rfl (by decide) (by decide) w x
          obtain ⟨rfl, hbehind⟩ := parts_inj hread (hends u) (hends v) (by simp)
            (fun o ho w => hfirst (hitem o ho) w v) (fun p hp w => hfirst (hitem' p hp) w u)
            (List.cons.inj h).2
          exact ⟨rfl, (List.cons.inj hbehind).2⟩
      | _ => cases hmark

/-- **A readable outline is on one line.** -/
theorem onOneLine {o : Outline} (h : Readable o) : OnOneLine o.compact.toList := by
  induction h with
  | word hword => exact hword.onOneLine
  | quoted value => exact Escaped.onOneLine_quote value
  | wrapper hname _ ih =>
      have hopen : OnOneLine ['('] := by decide
      have hclose : OnOneLine [')'] := by decide
      rw [← List.append_nil (compact _).toList, toList_wrapper_append]
      exact hname.onOneLine.append (hopen.append (ih.append hclose))
  | record hname hlabel _ ih =>
      have hopen : OnOneLine [' ', '\x7b', ' '] := by decide
      have hcolon : OnOneLine [':', ' '] := by decide
      have hclose : OnOneLine [' ', '\x7d'] := by decide
      rw [← List.append_nil (compact _).toList, toList_record_append]
      refine hname.onOneLine.append (hopen.append (onOneLine_parts (fun f hf => ?_) hclose))
      exact (hlabel f hf).onOneLine.append (hcolon.append (ih f hf))
  | sequence _ ih =>
      have hopen : OnOneLine ['['] := by decide
      have hclose : OnOneLine [']'] := by decide
      rw [← List.append_nil (compact _).toList, toList_sequence_append]
      exact hopen.append (onOneLine_parts ih hclose)

end Readable

end Outline

end ExprFront
