/-
# Reading, printing and reading again

Whatever a source is read as is read again from its printed text.  A source may write the same node
in many ways, and printing chooses one of them.
-/
import ExprFront.Proofs.RoundTrip.Expression
import ExprFront.Proofs.RoundTrip.Pattern

namespace ExprFront

/-- **Every accepted source survives printing.**  What an expression, a list or a pattern is read as
is read again from its text, and unchanged. -/
theorem parseSource_text_of_parseSource :
    (∀ source e, Entry.expression.parseSource source = .ok e →
        Entry.expression.parseSource e.text = .ok e) ∧
      (∀ source es, Entry.expressionList.parseSource source = .ok es →
        Entry.expressionList.parseSource (Expression.textList es) = .ok es) ∧
      ∀ source p, Entry.pattern.parseSource source = .ok p →
        Entry.pattern.parseSource p.text = .ok p := by
  refine ⟨fun source e h => ?_, fun source es h => ?_, fun source p h => ?_⟩
  · exact Expression.parseSource_text (Expression.wellFormed_of_parseSource h)
  · obtain ⟨hne, hes⟩ := Expression.allWellFormed_of_parseSource h
    exact Expression.parseSource_textList hne hes
  · exact Pattern.parseSource_text (Pattern.wellFormed_of_parseSource h)

/-- A list without a space behind its comma is accepted and read again from its text, which has
one. -/
theorem parseSource_textList_pair :
    let es : List Expression := [.plain (.name (.plain "a")), .plain (.name (.plain "b"))]
    Entry.expressionList.parseSource "a,b" = .ok es ∧ Expression.textList es = "a, b" ∧
      Entry.expressionList.parseSource (Expression.textList es) = .ok es := by
  intro es
  have ha : (Identifier.plain "a").WellFormed :=
    ⟨by decide, fun _ => ⟨by decide, fun word => by cases word <;> decide⟩⟩
  have hb : (Identifier.plain "b").WellFormed :=
    ⟨by decide, fun _ => ⟨by decide, fun word => by cases word <;> decide⟩⟩
  have hend : Spaced [(Identifier.plain "b").kind] :=
    spaced_cons_of_name hb trivial (canFollow_end true)
  have hcomma : Spaced [.punctuator .comma, (Identifier.plain "b").kind] :=
    spaced_cons_of_mark trivial rfl hend
  have hfollow : CanFollow true
      ([.punctuator .comma, (Identifier.plain "b").kind] ++ [.endOfInput]) :=
    canFollow_of_mark rfl nofun
  have hspaced := spaced_cons_of_name ha hcomma hfollow
  have hw : Derives [(Identifier.plain "a").kind, .punctuator .comma,
      (Identifier.plain "b").kind] (.members es) := by
    have hnone : ∀ t ∈ ([] : List Kind), t.isTrivia = true := nofun
    exact .more (.plain (.name ha.name?_kind)) hnone (.single (.plain (.name hb.name?_kind)))
  have haccepted : Entry.expressionList.parseSource "a,b" = .ok es := by
    refine Entry.parseSource_of_spaced recognizes_expressionList rfl hspaced rfl ?_
    intro c d hpasses hnone
    exact expressionList_of_isReadFrom hw.isReadFrom hpasses
      (Cursor.avoids_of_headKind_eq_none hnone _)
  exact ⟨haccepted, rfl, parseSource_text_of_parseSource.2.1 "a,b" es haccepted⟩

end ExprFront
