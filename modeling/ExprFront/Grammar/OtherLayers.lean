/-
# Other layers of operands

Six small layers beside the standard one.  Each of them uses the freedom of a layer in its own way:
to match only names, to match without reading, to claim more tokens than there are, to fail for
good, to do so in words of its own, and to consult the grammar under other delimiters.
-/
import ExprFront.Grammar.Operand

namespace ExprFront
namespace Layer

/-- The operands are the names that are no keywords. -/
def names (c : Cursor) : RuleResult Operand :=
  match c.identifier? false with
  | some name => .ok (.matched (.name name) 1)
  | none => .ok .noMatch

/-- An operand stands everywhere and takes no token. -/
def phantom (_ : Cursor) : RuleResult Operand :=
  .ok (.matched (.name (.plain "phantom")) 0)

/-- The operands are the names, and each claims a hundred tokens. -/
def greedy (c : Cursor) : RuleResult Operand :=
  match c.identifier? true with
  | some name => .ok (.matched (.name name) 100)
  | none => .ok .noMatch

/-- Whether the head is a literal. -/
def headIsLiteral (c : Cursor) : Bool :=
  match c.headKind with
  | some (.literal _) => true
  | _ => false

/-- The operands are the names, contextual keywords included. -/
def wideNames (c : Cursor) : RuleResult Operand :=
  match c.identifier? true with
  | some name => .ok (.matched (.name name) 1)
  | none => .ok .noMatch

/-- The operands are the names, and a literal is an error. -/
def strict (c : Cursor) : RuleResult Operand :=
  if headIsLiteral c then .error (.expecting .memberName c) else wideNames c

/-- No operand stands anywhere.  The layer passes the error on, whatever it says and wherever it is
located. -/
def refusing (error : ParseError) (_ : Cursor) : RuleResult Operand := .error (.own error)

/-- A name, or a list between brackets whose operands `layer` reads.  Trivia may stand inside the
brackets at both ends. -/
def nameOrBracketed (layer : Layer) (c : Cursor) : RuleResult Operand :=
  if c.isPunctuator .leftBracket then
    match Grammar.expressionList layer c.next with
    | .ok (.matched es n) =>
        if (c.next.advanceBy n).skipTrivia.isPunctuator .rightBracket then
          .ok (.matched (.call (.name (.plain "list")) es)
            ((c.next.advanceBy n).skipTrivia.advance.since c))
        else .error (.expecting .closingBracket (c.next.advanceBy n).skipTrivia)
    | .ok .noMatch => .ok .noMatch
    | .error f => .error f
  else wideNames c

/-- A bracketed list depends on the layer inside it behind its bracket only. -/
theorem nameOrBracketed_congr {layer other : Layer} {c : Cursor}
    (h : ∀ d : Cursor, d.remaining < c.remaining → layer d = other d) :
    nameOrBracketed layer c = nameOrBracketed other c := by
  unfold nameOrBracketed
  split
  · next hc =>
      have := Cursor.remaining_next_lt (Cursor.headKind_of_isPunctuator hc)
      rw [Grammar.expressionList_congr fun d hd => h d (by omega)]
  · rfl

/-- The operands are names and bracketed lists of expressions, nested to any depth. -/
def brackets (c : Cursor) : RuleResult Operand := Layer.tie nameOrBracketed c

/-- **The layer of bracketed lists is what describes it**, with itself for the operands inside. -/
theorem brackets_eq (c : Cursor) : brackets c = nameOrBracketed brackets c :=
  @tie_eq nameOrBracketed (fun _ _ _ h => nameOrBracketed_congr h) c

end Layer

end ExprFront
