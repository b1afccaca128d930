/-
# Listings of tokens

The listing of a token shows its kind, its location and its span.  Each of these can be read off, so
a token is known from its listing, and the lines of a listing tell all of the tokens in order.

The main facts are `Token.listing_append_inj`, `Token.onOneLine_listing` and
`Token.join_listing_inj`.
-/
import Mathlib.Data.List.Nodup
import ExprFront.CommandLine.Reply
import ExprFront.Proofs.Listing.Outline

namespace ExprFront

/-! ## Numbers -/

/-- A number is written in decimal digits. -/
theorem isDigit_of_mem_repr {n : Nat} : ∀ c ∈ n.repr.toList, c.isDigit = true := by
  intro c hc
  rw [Nat.repr_eq_ofList_toDigits, String.toList_ofList] at hc
  exact Nat.isDigit_of_mem_toDigits (by decide) (by decide) hc

/-- A number begins with a digit. -/
theorem exists_repr_eq_cons (n : Nat) :
    ∃ d rest, n.repr.toList = d :: rest ∧ d.isDigit = true := by
  obtain ⟨d, rest, heq⟩ : ∃ d rest, n.repr.toList = d :: rest := by
    rw [Nat.repr_eq_ofList_toDigits, String.toList_ofList]
    exact List.exists_cons_of_ne_nil Nat.toDigits_ne_nil
  exact ⟨d, rest, heq, isDigit_of_mem_repr d (heq ▸ List.mem_cons_self)⟩

/-- A number can be read off up to a character that is no digit. -/
theorem repr_append_cons_inj {m n : Nat} {c : Char} (hc : c.isDigit = false) {u v : List Char}
    (h : m.repr.toList ++ c :: u = n.repr.toList ++ c :: v) : m = n ∧ u = v := by
  obtain ⟨hdigits, hrest⟩ := append_cons_inj isDigit_of_mem_repr isDigit_of_mem_repr hc h
  simp only [Nat.repr_eq_ofList_toDigits, String.toList_ofList] at hdigits
  exact ⟨toDigits_inj (by decide) (by decide) hdigits, hrest⟩

/-- A number is on one line. -/
theorem onOneLine_repr (n : Nat) : OnOneLine n.repr.toList :=
  onOneLine_of_class isDigit_of_mem_repr (by decide)

/-! ## Kinds -/

namespace Outline

/-- Texts between quotes are told apart. -/
theorem ofText_inj {s t : String} (h : ofText s = ofText t) : s = t := by
  have hquote : (Escaped.quote s).toList ++ [] = (Escaped.quote t).toList ++ [] := by
    rw [atom.inj h]
  exact (Escaped.quote_append_inj hquote).1

/-- Truth values are told apart. -/
theorem ofBool_inj {a b : Bool} (h : ofBool a = ofBool b) : a = b := by
  cases a <;> cases b <;> first | rfl | exact absurd (atom.inj h) (by decide)

/-- Truth values are words. -/
theorem readable_ofBool (b : Bool) : Readable (ofBool b) := by
  cases b <;> exact .word (by decide)

end Outline

open Outline

/-- The name of a keyword is a word. -/
theorem Keyword.isWord_name (k : Keyword) : IsWord k.name := by
  cases k with
  | reserved word => cases word <;> decide +kernel
  | contextual word => cases word <;> decide +kernel

/-- Keywords have different names. -/
theorem Keyword.name_inj {j k : Keyword} (h : j.name = k.name) : j = k := by
  have hnodup : (all.map name).Nodup := by decide +kernel
  exact List.inj_on_of_nodup_map hnodup j.mem_all k.mem_all h

/-- The name of a mark is a word. -/
theorem Punctuator.isWord_name (p : Punctuator) : IsWord p.name := by
  cases p <;> decide

/-- Marks have different names. -/
theorem Punctuator.name_inj {p q : Punctuator} (h : p.name = q.name) : p = q := by
  cases p <;> cases q <;> first | rfl | exact absurd h (by decide)

/-- The parts of a name are readable. -/
theorem Identifier.readable_outline (i : Identifier) :
    (∀ f ∈ i.outline, IsWord f.1) ∧ ∀ f ∈ i.outline, Readable f.2 := by
  constructor <;> intro f hf <;> rcases List.mem_pair.1 hf with rfl | rfl
  · exact (by decide : IsWord "name")
  · exact (by decide : IsWord "backticked")
  · exact .quoted i.name
  · exact readable_ofBool i.backticked

/-- A literal is readable. -/
theorem Literal.readable_outline (value : Literal) : Readable value.outline := by
  cases value with
  | integer text => exact .wrapper (by decide) (.quoted text)
  | floating text => exact .wrapper (by decide) (.quoted text)
  | string value => exact .wrapper (by decide) (.quoted value)
  | boolean value => exact .wrapper (by decide) (readable_ofBool value)
  | nil => exact .word (by decide)

/-- **A kind of token is readable.** -/
theorem Kind.readable_outline (k : Kind) : Readable k.outline := by
  cases k with
  | identifier i => exact .record (by decide) i.readable_outline.1 i.readable_outline.2
  | keyword word => exact .wrapper (by decide) (.word word.isWord_name)
  | literal value => exact .wrapper (by decide) value.readable_outline
  | operator text => exact .wrapper (by decide) (.quoted text)
  | punctuator mark => exact .wrapper (by decide) (.word mark.isWord_name)
  | whitespace text => exact .wrapper (by decide) (.quoted text)
  | comment text => exact .wrapper (by decide) (.quoted text)
  | endOfInput => exact .word (by decide)

/-- Names are told apart by their parts. -/
theorem Identifier.outline_inj {i j : Identifier} (h : i.outline = j.outline) : i = j := by
  obtain ⟨name, backticked⟩ := i
  obtain ⟨name', backticked'⟩ := j
  simp only [outline, List.cons.injEq, Prod.mk.injEq, true_and, and_true] at h
  obtain rfl := ofText_inj h.1
  obtain rfl := ofBool_inj h.2
  rfl

/-- Literals are told apart by their outlines. -/
theorem Literal.outline_inj {a b : Literal} (h : a.outline = b.outline) : a = b := by
  cases a <;> cases b <;> simp [outline] at h ⊢
  case boolean.boolean => exact ofBool_inj h
  all_goals exact ofText_inj h

/-- **Kinds of tokens are told apart by their outlines.** -/
theorem Kind.outline_inj {k m : Kind} (h : k.outline = m.outline) : k = m := by
  cases k <;> cases m <;> simp [outline] at h ⊢
  case identifier.identifier => exact Identifier.outline_inj h
  case keyword.keyword => exact Keyword.name_inj h
  case literal.literal => exact Literal.outline_inj h
  case punctuator.punctuator => exact Punctuator.name_inj h
  all_goals exact ofText_inj h

/-! ## Lines -/

namespace Token

/-- The parts of a listing, and what stands behind it. -/
theorem toList_listing_append (t : Token) (u : List Char) :
    t.listing.toList ++ u =
      t.kind.outline.compact.toList ++ ' ' :: (t.span.location.line.repr.toList ++
        ':' :: (t.span.location.column.repr.toList ++ ' ' :: '[' :: (t.span.start.repr.toList ++
          '.' :: '.' :: (t.span.stop.repr.toList ++ ']' :: u)))) := by
  simp [listing, toString]

/-- **A token can be read back from its listing**, whatever stands behind it. -/
theorem listing_append_inj {s t : Token} {u v : List Char}
    (h : s.listing.toList ++ u = t.listing.toList ++ v) : s = t ∧ u = v := by
  have hends (n : Nat) (w : List Char) : Ends (' ' :: (n.repr.toList ++ w)) := by
    obtain ⟨d, rest, heq, hdigit⟩ := exists_repr_eq_cons n
    rw [heq]
    refine ⟨stops_cons.2 rfl, ?_⟩
    unfold opening?
    split
    case h_2 hopen =>
      obtain ⟨rfl, -⟩ := List.cons.inj (List.cons.inj hopen).2
      cases hdigit
    all_goals first | rfl | cases ‹_ = _›
  rw [toList_listing_append, toList_listing_append] at h
  obtain ⟨hkind, hbehind⟩ := s.kind.readable_outline.compact_append_inj t.kind.readable_outline
    (hends _ _) (hends _ _) h
  obtain ⟨hline, hbehind⟩ := repr_append_cons_inj rfl (List.cons.inj hbehind).2
  obtain ⟨hcolumn, hbehind⟩ := repr_append_cons_inj rfl hbehind
  obtain ⟨hstart, hbehind⟩ := repr_append_cons_inj rfl (List.cons.inj hbehind).2
  obtain ⟨hstop, hbehind⟩ := repr_append_cons_inj rfl (List.cons.inj hbehind).2
  refine ⟨?_, hbehind⟩
  obtain ⟨kind, start, stop, line, column⟩ := s
  obtain ⟨kind', start', stop', line', column'⟩ := t
  simp only [Token.mk.injEq, Span.mk.injEq, Location.mk.injEq]
  exact ⟨Kind.outline_inj hkind, hstart, hstop, hline, hcolumn⟩

/-- **The listing of a token is on one line.** -/
theorem onOneLine_listing (t : Token) : OnOneLine t.listing.toList := by
  have hspace : OnOneLine [' '] := by decide
  have hcolon : OnOneLine [':'] := by decide
  have hopen : OnOneLine [' ', '['] := by decide
  have hdots : OnOneLine ['.', '.'] := by decide
  have hclose : OnOneLine [']'] := by decide
  rw [← List.append_nil t.listing.toList, toList_listing_append]
  refine t.kind.readable_outline.onOneLine.append (hspace.append ?_)
  refine (onOneLine_repr _).append (hcolon.append ((onOneLine_repr _).append (hopen.append ?_)))
  exact (onOneLine_repr _).append (hdots.append ((onOneLine_repr _).append hclose))

/-- **Tokens are known from their lines**: no two sequences of tokens have the same lines. -/
theorem join_listing_inj {ts us : List Token}
    (h : String.join (ts.map fun t => t.listing ++ "\n") =
      String.join (us.map fun t => t.listing ++ "\n")) : ts = us := by
  have hlines := congrArg String.toList h
  simp only [String.toList_join, List.flatMap_map, String.toList_append] at hlines
  have hbreak (t : Token) (u : List Char) : t.listing.toList ++ "\n".toList ++ u ≠ [] := by simp
  clear h
  induction ts generalizing us with
  | nil =>
      cases us with
      | nil => rfl
      | cons t us =>
          rw [List.flatMap_cons] at hlines
          exact absurd hlines.symm (hbreak t _)
  | cons s ts ih =>
      rw [List.flatMap_cons] at hlines
      cases us with
      | nil => exact absurd hlines (hbreak s _)
      | cons t us =>
          rw [List.flatMap_cons, List.append_assoc, List.append_assoc] at hlines
          obtain ⟨rfl, hrest⟩ := listing_append_inj hlines
          rw [ih (List.append_cancel_left hrest)]

end Token

end ExprFront
